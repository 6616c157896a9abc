import PodMachines.Text.Decimal
import PodMachines.Text.Runs.Hidden

/-!
# Quoted text

A text between double quotes on one line: quotes and backslashes are preceded by a backslash, the usual control
characters have a letter, and characters without a shape of their own are shown by their number.
-/

namespace PodMachines.Text

/-- The digits of a code point in base sixteen. -/
def codeDigits (n : Nat) : List Char :=
  hexShort 6 n

/-- How one character is written between quotes. -/
def quoteChar (c : Char) : List Char :=
  if c = '"' then ['\\', '"']
  else if c = '\\' then ['\\', '\\']
  else if c = '\n' then ['\\', 'n']
  else if c = '\r' then ['\\', 'r']
  else if c = '\t' then ['\\', 't']
  else if c.toNat = 0 then ['\\', '0']
  else if isHidden c then ['\\', 'u', Char.ofNat 0x7B] ++ codeDigits c.toNat ++ [Char.ofNat 0x7D]
  else [c]

/-- A text between double quotes. -/
def quoted (s : String) : String :=
  String.ofList ('"' :: s.toList.flatMap quoteChar ++ ['"'])

end PodMachines.Text
