import Mathlib.Data.List.DropRight
import PodMachines.Proofs.Image.Writing
import PodMachines.Proofs.Machine.Naming
import PodMachines.Text.Lines

/-! The lines of a text, and what stands on them. Every text is made of lines in exactly one way, in which each may end
    with a line feed or with a carriage return before it, and the last one with the text. What is looked for by a key is on
    the first line that has it, and no other line plays a part. -/

namespace PodMachines.Text

/-! ### Both ends of a text -/

section
variable {p : Char → Bool} {s core : List Char}

/-- A text without the characters of a class at its ends: nothing else stood around it, and none of them is left. -/
structure Stripped (p : Char → Bool) (s core : List Char) : Prop where
  around : ∃ before after, s = before ++ (core ++ after) ∧ (∀ c ∈ before, p c = true) ∧ ∀ c ∈ after, p c = true
  first : ∀ c ∈ core.head?, p c = false
  last : ∀ c ∈ core.getLast?, p c = false

theorem exists_dropTrailing (p : Char → Bool) (s : List Char) :
    ∃ after, s = dropTrailing p s ++ after ∧ ∀ c ∈ after, p c = true :=
  ⟨s.rtakeWhile p, List.rdropWhile_append_rtakeWhile.symm, fun _ => List.mem_rtakeWhile_imp⟩

theorem dropTrailing_last {c : Char} (h : c ∈ (dropTrailing p s).getLast?) : p c = false := by
  obtain ⟨hne, rfl⟩ := List.mem_getLast?_eq_getLast h
  exact Bool.eq_false_iff.mpr (List.rdropWhile_last_not p s hne)

theorem stripped_stripBoth (p : Char → Bool) (s : List Char) : Stripped p s (stripBoth p s) := by
  obtain ⟨after, hafter, hall⟩ := exists_dropTrailing p (dropLeading p s)
  refine ⟨⟨s.takeWhile p, after, ?_, fun _ => List.mem_takeWhile_imp, hall⟩, fun c hc => ?_, fun _ => dropTrailing_last⟩
  · exact List.takeWhile_append_dropWhile.symm.trans (congrArg _ hafter)
  · obtain ⟨core, hcore⟩ := List.head?_eq_some_iff.mp hc
    rw [show dropTrailing p (dropLeading p s) = c :: core from hcore] at hafter
    exact dropLeading_head hafter

theorem Stripped.eq (h : Stripped p s core) : stripBoth p s = core := by
  obtain ⟨before, after, rfl, hbefore, hafter⟩ := h.around
  have hleading : dropLeading p (before ++ (core ++ after)) = dropLeading p (core ++ after) :=
    List.dropWhile_append_of_pos hbefore
  rw [stripBoth, hleading]
  cases hcore : core with
  | nil =>
    rw [List.nil_append, dropLeading, dropWhile_eq_nil_iff.mpr hafter]
    rfl
  | cons c rest =>
    have hc : p c = false := h.first c (by rw [hcore]; rfl)
    have hkept : dropLeading p (c :: rest ++ after) = c :: rest ++ after := by
      rw [List.cons_append, dropLeading, List.dropWhile_cons_of_neg (by rw [hc]; exact Bool.false_ne_true)]
    rw [hkept, dropTrailing_append (hcore ▸ h.last), dropTrailing_eq_nil_iff.mpr hafter, List.append_nil]

theorem stripBoth_eq_iff : stripBoth p s = core ↔ Stripped p s core :=
  ⟨fun h => h ▸ stripped_stripBoth p s, Stripped.eq⟩

end

/-! ### Lines -/

/-- The lines that a text is made of. A carriage return before a line feed belongs to the end of the line, any other one to
    the line. -/
inductive Lined : List Char → List (List Char) → Prop
  | empty : Lined [] []
  | unended {line : List Char} (hne : line ≠ []) (hfeed : '\n' ∉ line) : Lined line [line]
  | feed {line rest : List Char} {lines : List (List Char)} (hfeed : '\n' ∉ line) (hreturn : line.getLast? ≠ some '\r')
      (h : Lined rest lines) : Lined (line ++ '\n' :: rest) (line :: lines)
  | returnFeed {line rest : List Char} {lines : List (List Char)} (hfeed : '\n' ∉ line) (h : Lined rest lines) :
      Lined (line ++ '\r' :: '\n' :: rest) (line :: lines)

theorem linesOf_of_not_mem {line : List Char} (h : '\n' ∉ line) : linesOf line = if line = [] then [] else [line] := by
  rw [linesOf, splitOn_of_not_mem h, linesOfParts]

theorem linesOf_append {line : List Char} (h : '\n' ∉ line) (rest : List Char) :
    linesOf (line ++ '\n' :: rest) = chopReturn line :: linesOf rest := by
  rw [linesOf, splitOn_append h]
  cases hparts : splitOn '\n' rest with
  | nil => exact absurd hparts (splitOn_ne_nil '\n' rest)
  | cons part parts =>
    rw [linesOfParts, linesOf, hparts]
    exact List.cons_ne_nil part parts

theorem chopReturn_concat (line : List Char) : chopReturn (line ++ ['\r']) = line := by
  rw [chopReturn, if_pos List.getLast?_concat, List.dropLast_concat]

theorem Lined.linesOf_eq {s : List Char} {lines : List (List Char)} (h : Lined s lines) : linesOf s = lines := by
  induction h with
  | empty => rfl
  | unended hne hfeed => rw [linesOf_of_not_mem hfeed, if_neg hne]
  | feed hfeed hreturn _ ih => rw [linesOf_append hfeed, ih, chopReturn, if_neg hreturn]
  | @returnFeed line rest lines hfeed _ ih =>
    have hmem : '\n' ∉ line ++ ['\r'] := fun h => (List.mem_append.mp h).elim hfeed (by decide)
    rw [List.append_cons, linesOf_append hmem, ih, chopReturn_concat]

/-- Every text is made of lines: what stands before its first line feed, and the lines of what follows. -/
theorem exists_lined (s : List Char) : ∃ lines, Lined s lines := by
  by_cases hfeed : '\n' ∈ s
  · obtain ⟨start, rest, hs, hstart⟩ := List.eq_append_cons_of_mem hfeed
    obtain ⟨lines, hlines⟩ := exists_lined rest
    by_cases hreturn : start.getLast? = some '\r'
    · obtain ⟨line, rfl⟩ := List.getLast?_eq_some_iff.mp hreturn
      rw [hs, ← List.append_cons]
      exact ⟨_, .returnFeed (fun h => hstart (List.mem_append_left _ h)) hlines⟩
    · rw [hs]
      exact ⟨_, .feed hstart hreturn hlines⟩
  · by_cases hne : s = []
    · exact ⟨[], hne ▸ .empty⟩
    · exact ⟨[s], .unended hne hfeed⟩
termination_by s.length
decreasing_by
  rw [hs, List.length_append, List.length_cons]
  omega

theorem lined_iff {s : List Char} {lines : List (List Char)} : Lined s lines ↔ linesOf s = lines := by
  constructor
  · exact Lined.linesOf_eq
  · rintro rfl
    obtain ⟨lines, hlines⟩ := exists_lined s
    exact hlines.linesOf_eq ▸ hlines

theorem Lined.feed_not_mem {s line : List Char} {lines : List (List Char)} (h : Lined s lines) (hline : line ∈ lines) :
    '\n' ∉ line := by
  induction h with
  | empty => cases hline
  | unended _ hfeed => exact List.mem_singleton.mp hline ▸ hfeed
  | feed hfeed _ _ ih => exact (List.mem_cons.mp hline).elim (fun h => h ▸ hfeed) ih
  | returnFeed hfeed _ ih => exact (List.mem_cons.mp hline).elim (fun h => h ▸ hfeed) ih

/-! ### Lines with a key -/

/-- A line starts with a key, white space at its ends aside, and goes on with the rest. -/
def Keyed (key line rest : List Char) : Prop :=
  Stripped isBlank line (key ++ rest)

/-- The first of some lines that starts with a key. -/
def FirstKeyed (key : List Char) (lines : List (List Char)) (line rest : List Char) : Prop :=
  ∃ before after, lines = before ++ line :: after ∧ (∀ other ∈ before, ∀ r, ¬Keyed key other r) ∧ Keyed key line rest

section
variable {key s line rest : List Char} {lines : List (List Char)}

theorem keyed_iff : stripStart key (trimChars line) = some rest ↔ Keyed key line rest :=
  stripStart_eq_some_iff.trans stripBoth_eq_iff

theorem not_keyed_iff : stripStart key (trimChars line) = none ↔ ∀ rest, ¬Keyed key line rest := by
  simp only [Option.eq_none_iff_forall_ne_some, ← keyed_iff, ne_eq]

theorem Keyed.ne_nil (h : Keyed key line rest) (hkey : key ≠ []) : line ≠ [] := by
  rintro rfl
  exact hkey (List.append_eq_nil_iff.mp (Stripped.eq h).symm).1

theorem FirstKeyed.mem (h : FirstKeyed key lines line rest) : line ∈ lines := by
  obtain ⟨before, after, rfl, -⟩ := h
  exact List.mem_append_right _ List.mem_cons_self

theorem FirstKeyed.keyed (h : FirstKeyed key lines line rest) : Keyed key line rest := by
  obtain ⟨-, -, -, -, h⟩ := h
  exact h

theorem FirstKeyed.alone (h : FirstKeyed key lines line rest) : FirstKeyed key [line] line rest :=
  ⟨[], [], rfl, nofun, h.keyed⟩

theorem firstKeyed_eq_some_iff (h : Lined s lines) :
    firstKeyed key s = some rest ↔ ∃ line, FirstKeyed key lines line rest := by
  rw [firstKeyed, h.linesOf_eq, List.findSome?_eq_some_iff]
  simp only [keyed_iff, not_keyed_iff]
  constructor
  · rintro ⟨before, line, after, hlines, hline, hbefore⟩
    exact ⟨line, before, after, hlines, hbefore, hline⟩
  · rintro ⟨line, before, after, hlines, hbefore, hline⟩
    exact ⟨before, line, after, hlines, hline, hbefore⟩

theorem firstKeyed_eq_none_iff (h : Lined s lines) :
    firstKeyed key s = none ↔ ∀ line ∈ lines, ∀ rest, ¬Keyed key line rest := by
  rw [firstKeyed, h.linesOf_eq, List.findSome?_eq_none_iff]
  simp only [not_keyed_iff]

/-- What is found depends on the lines only, and not on how they end. -/
theorem firstKeyed_congr {other : List Char} (h : Lined s lines) (hother : Lined other lines) :
    firstKeyed key other = firstKeyed key s := by
  rw [firstKeyed, firstKeyed, h.linesOf_eq, hother.linesOf_eq]

/-- The line on which something is found makes a text on which the same is found. -/
theorem firstKeyed_alone (h : Lined s lines) (hkey : key ≠ []) (hline : FirstKeyed key lines line rest) :
    firstKeyed key s = firstKeyed key line := by
  have halone : Lined line [line] := .unended (hline.keyed.ne_nil hkey) (h.feed_not_mem hline.mem)
  rw [(firstKeyed_eq_some_iff h).mpr ⟨line, hline⟩, (firstKeyed_eq_some_iff halone).mpr ⟨line, hline.alone⟩]

end
end PodMachines.Text
