/-
TransactSql.Keyword — the reserved words.

A reserved word may be written in any case; `ofWord?` recognises it.
Some of them begin a statement that is known but not run, which
`beginsUnsupportedStatement` tells.
-/
namespace TransactSql

/-- A reserved word. -/
inductive Keyword where
  | ADD | ALL | ALTER | AND | ANY | AS | ASC | BEGIN | BETWEEN | BREAK | BY | CASE | CHECK
  | CLOSE | COLUMN | COMMIT | CONSTRAINT | CONTINUE | CREATE | CROSS | CURSOR | DATABASE
  | DECLARE | DEFAULT | DELETE | DESC | DISTINCT | DROP | ELSE | END | EXCEPT | EXEC | EXECUTE
  | EXISTS | FETCH | FOREIGN | FROM | FULL | FUNCTION | GOTO | GRANT | GROUP | HAVING | IDENTITY
  | IF | IN | INDEX | INNER | INSERT | INTERSECT | INTO | IS | JOIN | KEY | LEFT | LIKE | MERGE
  | NOT | NULL | OF | OFF | ON | OPEN | OPTION | OR | ORDER | OUTER | OVER | PRIMARY | PRINT
  | PROCEDURE | REFERENCES | RETURN | REVOKE | RIGHT | ROLLBACK | SAVE | SELECT | SET | TABLE
  | THEN | TOP | TRAN | TRANSACTION | TRUNCATE | UNION | UNIQUE | UPDATE | USE | VALUES | VIEW
  | WHEN | WHERE | WHILE | WITH
deriving DecidableEq

namespace Keyword

/-- All reserved words, in alphabetical order. -/
def reserved : List Keyword := [
  ADD, ALL, ALTER, AND, ANY, AS, ASC, BEGIN, BETWEEN, BREAK, BY, CASE, CHECK, CLOSE, COLUMN,
  COMMIT, CONSTRAINT, CONTINUE, CREATE, CROSS, CURSOR, DATABASE, DECLARE, DEFAULT, DELETE, DESC,
  DISTINCT, DROP, ELSE, END, EXCEPT, EXEC, EXECUTE, EXISTS, FETCH, FOREIGN, FROM, FULL, FUNCTION,
  GOTO, GRANT, GROUP, HAVING, IDENTITY, IF, IN, INDEX, INNER, INSERT, INTERSECT, INTO, IS, JOIN,
  KEY, LEFT, LIKE, MERGE, NOT, NULL, OF, OFF, ON, OPEN, OPTION, OR, ORDER, OUTER, OVER, PRIMARY,
  PRINT, PROCEDURE, REFERENCES, RETURN, REVOKE, RIGHT, ROLLBACK, SAVE, SELECT, SET, TABLE, THEN,
  TOP, TRAN, TRANSACTION, TRUNCATE, UNION, UNIQUE, UPDATE, USE, VALUES, VIEW, WHEN, WHERE, WHILE,
  WITH]

/-- The word in capitals. -/
def text : Keyword → String
  | ADD => "ADD"
  | ALL => "ALL"
  | ALTER => "ALTER"
  | AND => "AND"
  | ANY => "ANY"
  | AS => "AS"
  | ASC => "ASC"
  | BEGIN => "BEGIN"
  | BETWEEN => "BETWEEN"
  | BREAK => "BREAK"
  | BY => "BY"
  | CASE => "CASE"
  | CHECK => "CHECK"
  | CLOSE => "CLOSE"
  | COLUMN => "COLUMN"
  | COMMIT => "COMMIT"
  | CONSTRAINT => "CONSTRAINT"
  | CONTINUE => "CONTINUE"
  | CREATE => "CREATE"
  | CROSS => "CROSS"
  | CURSOR => "CURSOR"
  | DATABASE => "DATABASE"
  | DECLARE => "DECLARE"
  | DEFAULT => "DEFAULT"
  | DELETE => "DELETE"
  | DESC => "DESC"
  | DISTINCT => "DISTINCT"
  | DROP => "DROP"
  | ELSE => "ELSE"
  | END => "END"
  | EXCEPT => "EXCEPT"
  | EXEC => "EXEC"
  | EXECUTE => "EXECUTE"
  | EXISTS => "EXISTS"
  | FETCH => "FETCH"
  | FOREIGN => "FOREIGN"
  | FROM => "FROM"
  | FULL => "FULL"
  | FUNCTION => "FUNCTION"
  | GOTO => "GOTO"
  | GRANT => "GRANT"
  | GROUP => "GROUP"
  | HAVING => "HAVING"
  | IDENTITY => "IDENTITY"
  | IF => "IF"
  | IN => "IN"
  | INDEX => "INDEX"
  | INNER => "INNER"
  | INSERT => "INSERT"
  | INTERSECT => "INTERSECT"
  | INTO => "INTO"
  | IS => "IS"
  | JOIN => "JOIN"
  | KEY => "KEY"
  | LEFT => "LEFT"
  | LIKE => "LIKE"
  | MERGE => "MERGE"
  | NOT => "NOT"
  | NULL => "NULL"
  | OF => "OF"
  | OFF => "OFF"
  | ON => "ON"
  | OPEN => "OPEN"
  | OPTION => "OPTION"
  | OR => "OR"
  | ORDER => "ORDER"
  | OUTER => "OUTER"
  | OVER => "OVER"
  | PRIMARY => "PRIMARY"
  | PRINT => "PRINT"
  | PROCEDURE => "PROCEDURE"
  | REFERENCES => "REFERENCES"
  | RETURN => "RETURN"
  | REVOKE => "REVOKE"
  | RIGHT => "RIGHT"
  | ROLLBACK => "ROLLBACK"
  | SAVE => "SAVE"
  | SELECT => "SELECT"
  | SET => "SET"
  | TABLE => "TABLE"
  | THEN => "THEN"
  | TOP => "TOP"
  | TRAN => "TRAN"
  | TRANSACTION => "TRANSACTION"
  | TRUNCATE => "TRUNCATE"
  | UNION => "UNION"
  | UNIQUE => "UNIQUE"
  | UPDATE => "UPDATE"
  | USE => "USE"
  | VALUES => "VALUES"
  | VIEW => "VIEW"
  | WHEN => "WHEN"
  | WHERE => "WHERE"
  | WHILE => "WHILE"
  | WITH => "WITH"

/-- The reserved word that is written here; the case of ASCII letters does not matter. -/
def ofWord? (word : String) : Option Keyword :=
  let capitals := word.map Char.toUpper
  reserved.find? fun keyword => keyword.text == capitals

/-- The word begins a statement that is known but not run. -/
def beginsUnsupportedStatement : Keyword → Bool
  | ALTER | BEGIN | BREAK | CLOSE | COMMIT | CONTINUE | DECLARE | DELETE | DROP | EXEC | EXECUTE
  | FETCH | GOTO | GRANT | IF | MERGE | OPEN | PRINT | RETURN | REVOKE | ROLLBACK | SAVE
  | TRUNCATE | UPDATE | USE | WHILE | WITH => true
  | _ => false

end Keyword
end TransactSql
