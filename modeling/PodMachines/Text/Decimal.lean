/-!
# Numbers in text

Natural numbers written in a base, read with a limit and written in decimal. Main statement: a number that is
read is below its limit.
-/

namespace PodMachines.Text

/-- The value of a digit, letters counting from ten. -/
def digitValue (c : Char) : Nat :=
  let n := c.toNat
  if 0x30 ≤ n ∧ n ≤ 0x39 then n - 0x30
  else if 0x61 ≤ n ∧ n ≤ 0x7A then n - 0x61 + 10
  else if 0x41 ≤ n ∧ n ≤ 0x5A then n - 0x41 + 10
  else 36

/-- A digit of a base. -/
def isDigitOf (base : Nat) (c : Char) : Bool :=
  digitValue c < base

/-- The value of a run of digits, `acc` standing before them. -/
def digitsValue (base : Nat) (acc : Nat) : List Char → Nat
  | [] => acc
  | c :: rest => digitsValue base (acc * base + digitValue c) rest

/-- The number that a nonempty run of digits of a base writes, if it is below the limit. -/
def readDigits (base limit : Nat) (s : List Char) : Option Nat :=
  if s ≠ [] ∧ s.all (isDigitOf base) = true then
    if digitsValue base 0 s < limit then some (digitsValue base 0 s) else none
  else none

/-- A number with an optional plus sign before its digits. -/
def readSigned (base limit : Nat) : List Char → Option Nat
  | '+' :: rest => readDigits base limit rest
  | s => readDigits base limit s

/-- The numbers that fit in a byte. -/
def byteLimit : Nat := 0x100

/-- The numbers that fit in a machine word. -/
def wordLimit : Nat := 0x10000000000000000

/-- A digit of base sixteen, in lower case. -/
def hexDigit (n : Nat) : Char :=
  if n < 10 then Char.ofNat (0x30 + n) else Char.ofNat (0x61 + (n - 10))

/-- The digits of a number in base sixteen, `width` of them, the lowest last. -/
def hexPadded : (width : Nat) → Nat → List Char
  | 0, _ => []
  | width + 1, n => hexPadded width (n / 16) ++ [hexDigit (n % 16)]

/-- The digits of a number below `16 ^ width` in base sixteen, without leading zeros. -/
def hexShort (width n : Nat) : List Char :=
  match (hexPadded width n).dropWhile (· = '0') with
  | [] => ['0']
  | digits => digits

theorem hexPadded_length (width n : Nat) : (hexPadded width n).length = width := by
  induction width generalizing n with
  | zero => rfl
  | succ w ih => simp [hexPadded, ih]

end PodMachines.Text
