/-
TransactSql.Numeral — whole numbers in decimal notation.

Texts are lists of characters here, so that reading and writing are
recursions on lists. `natDigits` and `intText` write a number without
leading zeros; `readNat?` and `readInt?` read it back, and also accept
leading zeros and, for an integer, a plus sign. `natValue_natDigits` and
`readInt?_intText` say that reading inverts writing.
-/
namespace TransactSql.Numeral

/-- The digit character of a number below ten. -/
def digitChar (d : Nat) : Char := Char.ofNat (48 + d)

/-- The number that a digit character stands for. -/
def digitValue (c : Char) : Nat := c.toNat - 48

/-- The decimal digits of a number, without leading zeros. -/
def natDigits (n : Nat) : List Char :=
  if n < 10 then [digitChar n] else natDigits (n / 10) ++ [digitChar (n % 10)]

/-- The number written by a sequence of digits. -/
def natValue (digits : List Char) : Nat :=
  digits.foldl (fun n c => 10 * n + digitValue c) 0

/-- One or more digits, read as a number. -/
def readNat? (text : List Char) : Option Nat :=
  if !text.isEmpty && text.all Char.isDigit then some (natValue text) else none

/-- An integer in decimal notation; a negative one starts with a minus sign. -/
def intText (i : Int) : List Char :=
  if i < 0 then '-' :: natDigits i.natAbs else natDigits i.natAbs

/-- One or more digits after an optional sign, read as an integer. -/
def readInt? : List Char → Option Int
  | '-' :: digits => (readNat? digits).map fun (n : Nat) => -(n : Int)
  | '+' :: digits => (readNat? digits).map fun (n : Nat) => (n : Int)
  | digits => (readNat? digits).map fun (n : Nat) => (n : Int)

/-- The integer is one of those that a signed word of this many bits holds. -/
def fits (width : Nat) (i : Int) : Bool :=
  let bound : Int := Nat.pow 2 (width - 1)
  i < bound && -bound ≤ i

/-- The 32-bit integer of this value, if there is one. -/
def int32? (i : Int) : Option Int32 :=
  if fits 32 i then some (Int32.ofInt i) else none

/-- The 64-bit integer of this value, if there is one. -/
def int64? (i : Int) : Option Int64 :=
  if fits 64 i then some (Int64.ofInt i) else none

/-- A count as a 32-bit integer; a count that is too large becomes the largest one. -/
def saturate (n : Nat) : Int32 :=
  Int32.ofInt (min n 2147483647)

/-! ## Digits -/

theorem digitValue_digitChar {d : Nat} (h : d < 10) : digitValue (digitChar d) = d := by
  have all : ∀ k < 10, digitValue (digitChar k) = k := by decide
  exact all d h

theorem isDigit_digitChar {d : Nat} (h : d < 10) : (digitChar d).isDigit = true := by
  have all : ∀ k < 10, (digitChar k).isDigit = true := by decide
  exact all d h

theorem natValue_append_digit (digits : List Char) (c : Char) :
    natValue (digits ++ [c]) = 10 * natValue digits + digitValue c := by
  simp [natValue, List.foldl_append]

theorem natDigits_ne_nil (n : Nat) : natDigits n ≠ [] := by
  rw [natDigits]
  split <;> simp

theorem all_isDigit_natDigits (n : Nat) : (natDigits n).all Char.isDigit = true := by
  induction n using natDigits.induct with
  | case1 n h => rw [natDigits, if_pos h]; simp [isDigit_digitChar h]
  | case2 n h ih =>
    rw [natDigits, if_neg h, List.all_append, ih]
    simp [isDigit_digitChar (Nat.mod_lt n (by omega : 0 < 10))]

/-- The digits of a number denote it. -/
theorem natValue_natDigits (n : Nat) : natValue (natDigits n) = n := by
  induction n using natDigits.induct with
  | case1 n h => rw [natDigits, if_pos h]; simp [natValue, digitValue_digitChar h]
  | case2 n h ih =>
    rw [natDigits, if_neg h, natValue_append_digit, ih,
      digitValue_digitChar (Nat.mod_lt n (by omega : 0 < 10))]
    omega

theorem readNat?_natDigits (n : Nat) : readNat? (natDigits n) = some n := by
  simp [readNat?, natDigits_ne_nil, all_isDigit_natDigits, natValue_natDigits]

/-! ## Integers -/

theorem readInt?_of_isDigit {c : Char} {rest : List Char} (h : c.isDigit = true) :
    readInt? (c :: rest) = (readNat? (c :: rest)).map fun (n : Nat) => (n : Int) := by
  unfold readInt?
  split
  · next heq => cases heq; exact absurd h (by decide)
  · next heq => cases heq; exact absurd h (by decide)
  · rfl

theorem readInt?_natDigits (n : Nat) : readInt? (natDigits n) = some (n : Int) := by
  have digits := all_isDigit_natDigits n
  have back := readNat?_natDigits n
  cases written : natDigits n with
  | nil => exact absurd written (natDigits_ne_nil n)
  | cons c rest =>
    rw [written] at digits back
    rw [readInt?_of_isDigit (by simp at digits; exact digits.1), back]
    rfl

/-- Reading an integer inverts writing it. -/
theorem readInt?_intText (i : Int) : readInt? (intText i) = some i := by
  unfold intText
  split
  · rw [readInt?, readNat?_natDigits, Option.map_some]
    exact congrArg some (by omega)
  · rw [readInt?_natDigits]
    exact congrArg some (by omega)

end TransactSql.Numeral
