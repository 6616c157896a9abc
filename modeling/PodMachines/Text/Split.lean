/-!
# Splitting a text

A text is split at a character into the parts between its occurrences. Main statements: there is always a
first part, no part holds the character, and the parts joined by it are the text.
-/

namespace PodMachines.Text

/-- The parts of a text between the occurrences of a character: one more than there are occurrences. -/
def splitOn (sep : Char) : List Char → List (List Char)
  | [] => [[]]
  | c :: rest =>
    if c = sep then [] :: splitOn sep rest
    else
      match splitOn sep rest with
      | [] => [[c]]
      | part :: parts => (c :: part) :: parts

/-- Parts joined by a character. -/
def joinWith (sep : Char) : List (List Char) → List Char
  | [] => []
  | [part] => part
  | part :: parts => part ++ sep :: joinWith sep parts

/-- What stands before the first occurrence of a character: the whole text when there is none. -/
def beforeFirst (sep : Char) (s : List Char) : List Char :=
  s.takeWhile (· ≠ sep)

/-- What stands after the last occurrence of a character: the whole text when there is none. -/
def afterLast (sep : Char) (s : List Char) : List Char :=
  (s.reverse.takeWhile (· ≠ sep)).reverse

/-- The text before and after the first occurrence of a character. -/
def splitOnce (sep : Char) : List Char → Option (List Char × List Char)
  | [] => none
  | c :: rest => if c = sep then some ([], rest) else (splitOnce sep rest).map fun (a, b) => (c :: a, b)

/-- What follows `start`, if the text begins with it. -/
def stripStart : (start : List Char) → List Char → Option (List Char)
  | [], s => some s
  | _ :: _, [] => none
  | p :: ps, c :: cs => if p = c then stripStart ps cs else none

/-! ### Laws -/

theorem splitOn_ne_nil (sep : Char) (s : List Char) : splitOn sep s ≠ [] := by
  cases s with
  | nil => simp [splitOn]
  | cons c rest =>
    unfold splitOn
    split
    · simp
    · split <;> simp

theorem not_mem_of_mem_splitOn {sep : Char} {s part : List Char} (h : part ∈ splitOn sep s) : sep ∉ part := by
  induction s generalizing part with
  | nil => simp_all [splitOn]
  | cons c rest ih =>
    unfold splitOn at h
    split at h
    · rcases List.mem_cons.mp h with rfl | h
      · simp
      · exact ih h
    · rename_i hc
      split at h
      · simp only [List.mem_singleton] at h
        subst h
        simpa using fun e => hc e.symm
      · rename_i p ps heq
        rcases List.mem_cons.mp h with rfl | h
        · have absent : sep ∉ p := ih (by simp [heq])
          simpa [absent] using fun e => hc e.symm
        · exact ih (by simp [heq, h])

theorem joinWith_splitOn (sep : Char) (s : List Char) : joinWith sep (splitOn sep s) = s := by
  induction s with
  | nil => rfl
  | cons c rest ih =>
    unfold splitOn
    split
    · rename_i hc
      cases hs : splitOn sep rest with
      | nil => exact absurd hs (splitOn_ne_nil _ _)
      | cons p ps => simp [joinWith, ← hs, ih, hc]
    · cases hs : splitOn sep rest with
      | nil => exact absurd hs (splitOn_ne_nil _ _)
      | cons p ps =>
        rw [hs] at ih
        cases ps with
        | nil => simp_all [joinWith]
        | cons q qs => simp_all [joinWith]

/-- What stands before the first occurrence of a character holds none, and is the whole text or ends at one. -/
theorem beforeFirst_eq_iff {sep : Char} {s start : List Char} :
    beforeFirst sep s = start ↔ sep ∉ start ∧ (s = start ∨ ∃ rest, s = start ++ sep :: rest) := by
  induction s generalizing start with
  | nil =>
    constructor
    · rintro rfl
      exact ⟨List.not_mem_nil, .inl rfl⟩
    · rintro ⟨-, rfl | ⟨rest, hrest⟩⟩
      · rfl
      · exact absurd hrest.symm (by simp)
  | cons c s ih =>
    by_cases hc : c = sep
    · subst hc
      have hnil : beforeFirst c (c :: s) = [] := by simp [beforeFirst]
      rw [hnil]
      constructor
      · rintro rfl
        exact ⟨List.not_mem_nil, .inr ⟨s, rfl⟩⟩
      · rintro ⟨habsent, rfl | ⟨rest, hrest⟩⟩
        · exact absurd List.mem_cons_self habsent
        · cases start with
          | nil => rfl
          | cons d start =>
            rw [(List.cons.inj hrest).1] at habsent
            exact absurd List.mem_cons_self habsent
    · have hcons : beforeFirst sep (c :: s) = c :: beforeFirst sep s := by simp [beforeFirst, hc]
      rw [hcons]
      constructor
      · rintro rfl
        obtain ⟨habsent, hcases⟩ := ih.mp rfl
        refine ⟨by simpa [habsent] using fun h => hc h.symm, hcases.imp (congrArg (c :: ·)) ?_⟩
        rintro ⟨rest, hrest⟩
        exact ⟨rest, congrArg (c :: ·) hrest⟩
      · rintro ⟨habsent, rfl | ⟨rest, hrest⟩⟩
        · rw [ih.mpr ⟨fun h => habsent (List.mem_cons_of_mem _ h), .inl rfl⟩]
        · cases start with
          | nil => exact absurd (List.cons.inj hrest).1 hc
          | cons d start =>
            obtain ⟨rfl, hs⟩ := List.cons.inj hrest
            rw [ih.mpr ⟨fun h => habsent (List.mem_cons_of_mem _ h), .inr ⟨rest, hs⟩⟩]

theorem stripStart_eq_some_iff {start s rest : List Char} : stripStart start s = some rest ↔ s = start ++ rest := by
  induction start generalizing s with
  | nil => simp [stripStart, eq_comm]
  | cons p ps ih =>
    cases s with
    | nil => simp [stripStart]
    | cons c cs =>
      unfold stripStart
      split
      · rename_i hpc
        simp [ih, hpc]
      · rename_i hpc
        simp only [reduceCtorEq, List.cons_append, List.cons.injEq, false_iff, not_and]
        exact fun e => absurd e.symm hpc

end PodMachines.Text
