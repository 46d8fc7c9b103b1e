/-
TransactSql.Catalog.SystemTypes — the system table of the types.

The table `systypes` lists the types that a server knows by name. Its
rows never change.
-/
import TransactSql.Table

namespace TransactSql

/-- A row of the table of types. -/
structure SystemType where
  name : String
  type : Int32
  userType : Int32
  length : Int32
  precision : Int32
  scale : Int32
  allowsNull : Int32

namespace SystemType

/-- The types that a server knows. -/
def all : List SystemType := [
  ⟨"image", 34, 34, 16, 0, 0, 1⟩,
  ⟨"text", 35, 35, 16, 0, 0, 1⟩,
  ⟨"uniqueidentifier", 36, 36, 16, 0, 0, 1⟩,
  ⟨"date", 40, 40, 3, 10, 0, 1⟩,
  ⟨"time", 41, 41, 5, 16, 7, 1⟩,
  ⟨"datetime2", 42, 42, 8, 27, 7, 1⟩,
  ⟨"datetimeoffset", 43, 43, 10, 34, 7, 1⟩,
  ⟨"tinyint", 48, 48, 1, 3, 0, 1⟩,
  ⟨"smallint", 52, 52, 2, 5, 0, 1⟩,
  ⟨"int", 56, 56, 4, 10, 0, 1⟩,
  ⟨"smalldatetime", 58, 58, 4, 16, 0, 1⟩,
  ⟨"real", 59, 59, 4, 24, 0, 1⟩,
  ⟨"money", 60, 60, 8, 19, 4, 1⟩,
  ⟨"datetime", 61, 61, 8, 23, 3, 1⟩,
  ⟨"float", 62, 62, 8, 53, 0, 1⟩,
  ⟨"sql_variant", 98, 98, 8016, 0, 0, 1⟩,
  ⟨"ntext", 99, 99, 16, 0, 0, 1⟩,
  ⟨"bit", 104, 104, 1, 1, 0, 1⟩,
  ⟨"decimal", 106, 106, 17, 38, 38, 1⟩,
  ⟨"numeric", 108, 108, 17, 38, 38, 1⟩,
  ⟨"smallmoney", 122, 122, 4, 10, 4, 1⟩,
  ⟨"bigint", 127, 127, 8, 19, 0, 1⟩,
  ⟨"hierarchyid", 240, 128, 892, 0, 0, 1⟩,
  ⟨"geometry", 240, 129, -1, 0, 0, 1⟩,
  ⟨"geography", 240, 130, -1, 0, 0, 1⟩,
  ⟨"varbinary", 165, 165, 8000, 0, 0, 1⟩,
  ⟨"varchar", 167, 167, 8000, 0, 0, 1⟩,
  ⟨"binary", 173, 173, 8000, 0, 0, 1⟩,
  ⟨"char", 175, 175, 8000, 0, 0, 1⟩,
  ⟨"timestamp", 189, 80, 8, 0, 0, 0⟩,
  ⟨"nvarchar", 231, 231, 8000, 0, 0, 1⟩,
  ⟨"nchar", 239, 239, 8000, 0, 0, 1⟩,
  ⟨"xml", 241, 241, -1, 0, 0, 1⟩,
  ⟨"sysname", 231, 256, 256, 0, 0, 0⟩]

def toRow (t : SystemType) : Row :=
  .nvarchar t.name ::
    [t.type, t.userType, t.length, t.precision, t.scale, t.allowsNull].map Value.int

/-- The name of the table of types. -/
def tableName : String := "systypes"

def columns : List Column := [
  ⟨"name", .nvarchar, false⟩, ⟨"xtype", .int, false⟩, ⟨"xusertype", .int, false⟩,
  ⟨"length", .int, false⟩, ⟨"xprec", .int, false⟩, ⟨"xscale", .int, false⟩,
  ⟨"allownulls", .int, true⟩]

/-- The table of types. -/
def table : Table := ⟨tableName, columns, all.map toRow⟩

end SystemType
end TransactSql
