import Mathlib.Logic.ExistsUnique
import PodMachines.Machine.State
import PodMachines.Proofs.Text.Lines

/-! What is read in the outputs of VirtualBox. Main statement: a machine's state and a guest property are each read off one
    line, the first with their key, and all other lines of the output are as good as none. -/

namespace PodMachines.Machine
open Text

/-- What stands before the state in the description of a machine. -/
def stateKey : List Char :=
  "VMState=".toList

/-- What stands before the value of a guest property. -/
def valueKey : List Char :=
  "Value:".toList

/-- What is read in an output with these lines. -/
structure Scanned (output : String) (lines : List (List Char)) : Prop where
  /-- No state is read exactly if no line has the key. -/
  unknown : State.ofVirtualBoxInfo? output = none ↔ ∀ line ∈ lines, ∀ rest, ¬Keyed stateKey line rest
  /-- A state is what stands on the first line with the key, without the quotes around it. -/
  state : ∀ x, State.ofVirtualBoxInfo? output = some x ↔ ∃ line rest word,
    FirstKeyed stateKey lines line rest ∧ Stripped (· = '"') rest word ∧ x = .ofVirtualBox (String.ofList word)
  /-- It is read so on that line alone. -/
  stateAlone : ∀ line rest, FirstKeyed stateKey lines line rest →
    State.ofVirtualBoxInfo? output = State.ofVirtualBoxInfo? (String.ofList line)
  /-- A value is what stands on the first line with the key, without the white space around it, if that is not all. -/
  value : ∀ v, guestProperty? output = some v ↔ ∃ line rest,
    FirstKeyed valueKey lines line rest ∧ (∃ c ∈ rest, isBlank c = false) ∧ Stripped isBlank rest v.toList
  /-- It is read so on that line alone, or it is missing there too. -/
  valueAlone : ∀ line rest, FirstKeyed valueKey lines line rest → guestProperty? output = guestProperty? (String.ofList line)
  /-- How the lines end plays no part. -/
  ends : ∀ other : String, Lined other.toList lines →
    State.ofVirtualBoxInfo? other = State.ofVirtualBoxInfo? output ∧ guestProperty? other = guestProperty? output

section
variable {output other : String} {lines : List (List Char)}

/-- What a value comes to that is found behind its key. -/
def trimmed? (rest : List Char) : Option String :=
  if trimChars rest = [] then none else some (String.ofList (trimChars rest))

theorem guestProperty?_eq (output : String) :
    guestProperty? output = (firstKeyed valueKey output.toList).bind trimmed? := by
  unfold guestProperty? valueKey
  cases firstKeyed "Value:".toList output.toList <;> rfl

theorem trimmed?_eq_some_iff {rest : List Char} {v : String} :
    trimmed? rest = some v ↔ (∃ c ∈ rest, isBlank c = false) ∧ Stripped isBlank rest v.toList := by
  have hblank : trimChars rest ≠ [] ↔ ∃ c ∈ rest, isBlank c = false := by
    simp [trimChars_eq_nil_iff]
  rw [← hblank, ← stripBoth_eq_iff, trimmed?]
  split
  · rename_i hnil
    exact iff_of_false nofun fun h => h.1 hnil
  · rename_i hne
    rw [Option.some.injEq, and_iff_right hne, ← String.toList_inj, String.toList_ofList]
    rfl

theorem info_congr (h : firstKeyed stateKey other.toList = firstKeyed stateKey output.toList) :
    State.ofVirtualBoxInfo? other = State.ofVirtualBoxInfo? output :=
  congrArg (Option.map _) h

theorem property_congr (h : firstKeyed valueKey other.toList = firstKeyed valueKey output.toList) :
    guestProperty? other = guestProperty? output := by
  rw [guestProperty?_eq, guestProperty?_eq, h]

theorem info_eq_some_iff (h : Lined output.toList lines) {x : State} : State.ofVirtualBoxInfo? output = some x ↔
    ∃ line rest word, FirstKeyed stateKey lines line rest ∧ Stripped (· = '"') rest word ∧
      x = .ofVirtualBox (String.ofList word) := by
  refine Option.map_eq_some_iff.trans ⟨?_, ?_⟩
  · rintro ⟨rest, hrest, rfl⟩
    obtain ⟨line, hline⟩ := (firstKeyed_eq_some_iff h).mp hrest
    exact ⟨line, rest, _, hline, stripped_stripBoth _ rest, rfl⟩
  · rintro ⟨line, rest, word, hline, hword, rfl⟩
    exact ⟨rest, (firstKeyed_eq_some_iff h).mpr ⟨line, hline⟩, by rw [hword.eq]⟩

theorem property_eq_some_iff (h : Lined output.toList lines) {v : String} : guestProperty? output = some v ↔
    ∃ line rest, FirstKeyed valueKey lines line rest ∧ (∃ c ∈ rest, isBlank c = false) ∧
      Stripped isBlank rest v.toList := by
  rw [guestProperty?_eq, Option.bind_eq_some_iff]
  simp only [firstKeyed_eq_some_iff h, trimmed?_eq_some_iff]
  exact ⟨fun ⟨rest, ⟨line, hline⟩, hv⟩ => ⟨line, rest, hline, hv⟩, fun ⟨line, rest, hline, hv⟩ => ⟨rest, ⟨line, hline⟩, hv⟩⟩

theorem Scanned.of_lined (h : Lined output.toList lines) : Scanned output lines where
  unknown := Option.map_eq_none_iff.trans (firstKeyed_eq_none_iff h)
  state _ := info_eq_some_iff h
  stateAlone line rest hline := info_congr <| by
    rw [String.toList_ofList, firstKeyed_alone h (by decide) hline]
  value _ := property_eq_some_iff h
  valueAlone line rest hline := property_congr <| by
    rw [String.toList_ofList, firstKeyed_alone h (by decide) hline]
  ends _ hother := ⟨info_congr (firstKeyed_congr h hother), property_congr (firstKeyed_congr h hother)⟩

end

/-- Every output is made of lines in exactly one way, and what is read in it is read off the first of them that has the
    key. -/
theorem scanned_by_line (output : String) :
    (∃! lines, Lined output.toList lines) ∧ ∀ lines, Lined output.toList lines → Scanned output lines :=
  ⟨⟨linesOf output.toList, lined_iff.mpr rfl, fun _ h => h.linesOf_eq.symm⟩, fun _ => .of_lined⟩

/-- A key may stand elsewhere on a line, and another key may begin like it. -/
example : State.ofVirtualBoxInfo?
    "name=\"VMState=\"\r\nVMStateChangeTime=\"2024\"\r\n VMState=\"paused\" \r\nVMState=\"running\"" = some .stopped := by
  decide

/-- A value that is blank is not looked for further on. -/
example : guestProperty? "No value set!\nValue: \nValue: 10.0.0.9\n" = none := by
  decide

end PodMachines.Machine
