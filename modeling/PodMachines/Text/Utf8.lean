/-!
# Bytes as text

The characters of a sequence of bytes in UTF-8. Reading stops at a byte that no character allows; reading
with replacement puts one U+FFFD for each longest beginning of a character that is not completed, and for
each byte that begins none.
-/

namespace PodMachines.Text.Utf8

/-- Where the reader stands: between characters, or inside one of which `owed` bytes are missing, the next
    one within `least` and `greatest`, `value` collecting the code point. -/
inductive Phase
  | between
  | inside (owed least greatest value : Nat)
  deriving DecidableEq, Repr

/-- What one byte leads to. -/
inductive Outcome
  | partially (next : Phase)
  | complete (code : Nat)
  | refused
  deriving DecidableEq, Repr

/-- A byte between characters. -/
def first (b : Nat) : Outcome :=
  if b ≤ 0x7F then .complete b
  else if 0xC2 ≤ b ∧ b ≤ 0xDF then .partially (.inside 1 0x80 0xBF (b - 0xC0))
  else if b = 0xE0 then .partially (.inside 2 0xA0 0xBF 0)
  else if b = 0xED then .partially (.inside 2 0x80 0x9F 0xD)
  else if 0xE1 ≤ b ∧ b ≤ 0xEF then .partially (.inside 2 0x80 0xBF (b - 0xE0))
  else if b = 0xF0 then .partially (.inside 3 0x90 0xBF 0)
  else if 0xF1 ≤ b ∧ b ≤ 0xF3 then .partially (.inside 3 0x80 0xBF (b - 0xF0))
  else if b = 0xF4 then .partially (.inside 3 0x80 0x8F 4)
  else .refused

/-- A byte in any phase. -/
def Phase.accept (b : Nat) : Phase → Outcome
  | .between => first b
  | .inside owed least greatest value =>
    if least ≤ b ∧ b ≤ greatest then
      let value := value * 64 + (b - 0x80)
      if owed ≤ 1 then .complete value else .partially (.inside (owed - 1) 0x80 0xBF value)
    else .refused

/-- The character put where bytes are no character. -/
def replacement : Char := '\uFFFD'

/-- The characters of the bytes from a phase on, with replacement. -/
def decodeFrom (phase : Phase) : List UInt8 → List Char
  | [] => if phase = .between then [] else [replacement]
  | b :: rest =>
    match phase.accept b.toNat with
    | .partially next => decodeFrom next rest
    | .complete code => Char.ofNat code :: decodeFrom .between rest
    | .refused =>
      if phase = .between then replacement :: decodeFrom .between rest
      else
        match first b.toNat with
        | .partially next => replacement :: decodeFrom next rest
        | .complete code => replacement :: Char.ofNat code :: decodeFrom .between rest
        | .refused => replacement :: replacement :: decodeFrom .between rest

/-- The text of a sequence of bytes, with U+FFFD where they are no text. -/
def decodeLossy (bytes : List UInt8) : String :=
  String.ofList (decodeFrom .between bytes)

/-- The characters of the bytes from a phase on, if they are characters. -/
def decodeFrom? (phase : Phase) : List UInt8 → Option (List Char)
  | [] => if phase = .between then some [] else none
  | b :: rest =>
    match phase.accept b.toNat with
    | .partially next => decodeFrom? next rest
    | .complete code => (decodeFrom? .between rest).map (Char.ofNat code :: ·)
    | .refused => none

/-- The text of a sequence of bytes, if it is one. -/
def decode? (bytes : List UInt8) : Option String :=
  (decodeFrom? .between bytes).map String.ofList

end PodMachines.Text.Utf8
