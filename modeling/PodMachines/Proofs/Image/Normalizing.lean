import PodMachines.Proofs.Image.Writing

/-! What normalizing does to a reference. Main statement: a text without a tag gets one, and is then the same reference as
    before, or none as before, so that a catalog is asked the same for either form. -/

namespace PodMachines

namespace Text
variable {sep : Char}

/-- What stands after the last occurrence of a character holds none, and is the whole text or begins after one. -/
theorem afterLast_eq_iff {s rest : List Char} :
    afterLast sep s = rest ↔ sep ∉ rest ∧ (s = rest ∨ ∃ start, s = start ++ sep :: rest) := by
  have hbefore : afterLast sep s = rest ↔ beforeFirst sep s.reverse = rest.reverse :=
    List.reverse_eq_iff
  rw [hbefore, beforeFirst_eq_iff, List.mem_reverse, List.reverse_inj]
  refine and_congr_right fun _ => or_congr_right ?_
  constructor
  · rintro ⟨more, h⟩
    refine ⟨more.reverse, ?_⟩
    rw [← List.reverse_reverse s, h]
    simp
  · rintro ⟨start, rfl⟩
    exact ⟨start.reverse, by simp⟩

theorem afterLast_append {more : List Char} (s : List Char) (h : sep ∉ more) :
    afterLast sep (s ++ more) = afterLast sep s ++ more := by
  obtain ⟨habsent, hs⟩ := afterLast_eq_iff.mp (rfl : afterLast sep s = _)
  refine afterLast_eq_iff.mpr ⟨fun hm => (List.mem_append.mp hm).elim habsent h, ?_⟩
  refine hs.imp (congrArg (· ++ more)) ?_
  rintro ⟨start, hstart⟩
  exact ⟨start, (congrArg (· ++ more) hstart).trans (List.append_assoc ..)⟩

/-- What is appended to a text goes to its last part, which is what stands after the last separator. -/
theorem exists_splitOn_concat (sep : Char) (s : List Char) : ∃ parts, ∀ more, sep ∉ more →
    splitOn sep (s ++ more) = parts ++ [afterLast sep s ++ more] := by
  obtain ⟨habsent, hs⟩ := afterLast_eq_iff.mp (rfl : afterLast sep s = _)
  generalize afterLast sep s = last at *
  have hlast (more : List Char) (h : sep ∉ more) : splitOn sep (last ++ more) = [last ++ more] :=
    splitOn_of_not_mem fun hm => (List.mem_append.mp hm).elim habsent h
  rcases hs with rfl | ⟨start, rfl⟩
  · exact ⟨[], hlast⟩
  · refine ⟨splitOn sep start, fun more h => ?_⟩
    rw [List.append_assoc, List.cons_append, splitOn_append_sep, hlast more h]

theorem getLast_splitOn (sep : Char) (s : List Char) :
    (splitOn sep s).getLast (splitOn_ne_nil sep s) = afterLast sep s := by
  obtain ⟨parts, hparts⟩ := exists_splitOn_concat sep s
  have hsplit : splitOn sep s = parts ++ [afterLast sep s] := by
    simpa only [List.append_nil] using hparts [] List.not_mem_nil
  simp only [hsplit, List.getLast_concat]

theorem beforeFirst_of_not_mem {s : List Char} (h : sep ∉ s) : beforeFirst sep s = s :=
  beforeFirst_eq_iff.mpr ⟨h, .inl rfl⟩

theorem beforeFirst_append {start : List Char} (h : sep ∉ start) (rest : List Char) :
    beforeFirst sep (start ++ sep :: rest) = start :=
  beforeFirst_eq_iff.mpr ⟨h, .inr ⟨rest, rfl⟩⟩

end Text

namespace Image
open Text

namespace Reference
variable {s : String}

theorem isTagged_iff {chars : List Char} : isTagged chars = true ↔ ':' ∈ afterLast '/' chars :=
  List.contains_iff_mem

theorem normalize_of_tagged (h : isTagged s.toList = true) : normalize s = s :=
  if_pos h

theorem normalize_of_untagged (h : ¬isTagged s.toList = true) : normalize s = s ++ ":latest" := by
  refine (if_neg h).trans (String.toList_inj.mp ?_)
  rw [String.toList_ofList, String.toList_append]
  rfl

theorem isTagged_normalize (s : String) : isTagged (normalize s).toList = true := by
  by_cases h : isTagged s.toList = true
  · rwa [normalize_of_tagged h]
  · rw [normalize_of_untagged h, isTagged_iff, String.toList_append, afterLast_append _ (by decide)]
    exact List.mem_append_right _ (by decide)

/-- A reference is normalized if it has a tag, and only then. -/
theorem normalize_eq_iff (s : String) : normalize s = s ↔ isTagged s.toList = true :=
  ⟨fun h => h ▸ isTagged_normalize s, normalize_of_tagged⟩

/-- A tag that is appended to a text without one plays no part in what the text is read as. -/
theorem ofChars?_append_tag {chars tag : List Char} (h : ':' ∉ afterLast '/' chars) (htag : '/' ∉ tag) :
    ofChars? (chars ++ ':' :: tag) = ofChars? chars := by
  obtain ⟨parts, hparts⟩ := exists_splitOn_concat '/' chars
  have hmore : '/' ∉ ':' :: tag := List.not_mem_cons_of_ne_of_not_mem (by decide) htag
  have hplain := hparts [] List.not_mem_nil
  simp only [List.append_nil] at hplain
  have hname := (beforeFirst_append h tag).trans (beforeFirst_of_not_mem h).symm
  simp only [ofChars?, hplain, hparts _ hmore]
  -- The tag is in the last part, of which only what stands before it is read.
  rcases parts with _ | ⟨qualifier, _ | ⟨second, rest⟩⟩
  · simp only [List.nil_append, hname]
  · simp only [List.cons_append, List.nil_append, hname]
  · simp

theorem ofChars?_normalize (s : String) : ofChars? (normalize s).toList = ofChars? s.toList := by
  by_cases h : isTagged s.toList = true
  · rw [normalize_of_tagged h]
  · rw [normalize_of_untagged h, String.toList_append]
    exact ofChars?_append_tag (mt isTagged_iff.mpr h) (by decide)

theorem parse_eq_ok_iff {r : Reference} : parse s = .ok r ↔ ofChars? s.toList = some r := by
  unfold parse
  cases ofChars? s.toList <;> simp

end Reference

/-- The pull of a text that is read so: a catalog is asked for the reference, if it is one. -/
def pulling (catalog : Catalog) (known : Directory) (text : String) :
    Except Failure Reference → Work (Except Failure String × Images)
  | .ok r => (catalog.find r).bind fun found => .done ((Images.directory catalog known).pulled text found)
  | .error _ => .done (.error (.invalidReference text), .directory catalog known)

theorem pull_eq (catalog : Catalog) (known : Directory) (text : String) :
    (Images.directory catalog known).pull text = pulling catalog known text (Reference.parse text) := by
  obtain h | ⟨r, h⟩ := Reference.parse_cases text <;> simp only [Images.pull, Images.asked, h] <;> rfl

/-- Only whether a text is a reference, and which one, plays a part in its pull. -/
theorem pulling_congr {read read' : Except Failure Reference} (catalog : Catalog) (known : Directory) (text : String)
    (h : ∀ r, read = .ok r ↔ read' = .ok r) : pulling catalog known text read = pulling catalog known text read' := by
  cases read with
  | ok r => rw [(h r).mp rfl]
  | error f =>
    cases read' with
    | ok r => cases (h r).mpr rfl
    | error f' => rfl

/-- A text whose last part has a colon is normalized already; any other one gets the tag. Normalizing again changes nothing
    more, and nothing of what the text is read as, so either form is pulled with the same question to the catalog, or
    with none. -/
theorem normalize_agrees (s : String) :
    Reference.normalize (Reference.normalize s) = Reference.normalize s ∧
    (Reference.normalize s = s ↔ ':' ∈ (splitOn '/' s.toList).getLast (splitOn_ne_nil '/' s.toList)) ∧
    (Reference.normalize s = s ∨ Reference.normalize s = s ++ ":latest") ∧
    (∀ r, Reference.parse (Reference.normalize s) = .ok r ↔ Reference.parse s = .ok r) ∧
    ∀ (catalog : Catalog) (known : Directory),
      (Images.directory catalog known).pull s = pulling catalog known s (Reference.parse s) ∧
      (Images.directory catalog known).pull (Reference.normalize s) =
        pulling catalog known (Reference.normalize s) (Reference.parse s) := by
  have hparse (r : Reference) : Reference.parse (Reference.normalize s) = .ok r ↔ Reference.parse s = .ok r := by
    rw [Reference.parse_eq_ok_iff, Reference.parse_eq_ok_iff, Reference.ofChars?_normalize]
  refine ⟨Reference.normalize_of_tagged (Reference.isTagged_normalize s), ?_, ?_, hparse, fun catalog known => ⟨?_, ?_⟩⟩
  · rw [Reference.normalize_eq_iff, Reference.isTagged_iff, getLast_splitOn]
  · exact (Decidable.em (Reference.isTagged s.toList = true)).imp Reference.normalize_of_tagged Reference.normalize_of_untagged
  · exact pull_eq catalog known s
  · rw [pull_eq]
    exact pulling_congr catalog known _ hparse

/-- A port is no tag, and a name that is missing is not made up for by one. -/
example : Reference.normalize "registry:5000/agent" = "registry:5000/agent:latest" ∧
    Reference.normalize "registry:5000/" = "registry:5000/:latest" ∧
    Reference.ofChars? "registry:5000/:latest".toList = none := by
  decide

end Image
end PodMachines
