import Mathlib.Logic.ExistsUnique
import PodMachines.Images

/-! How references are written. A text is a reference exactly if it is put together from the parts of one, and it is put
    together from no others. -/

namespace PodMachines

namespace Text
variable {sep : Char}

theorem splitOn_of_not_mem {s : List Char} (h : sep ∉ s) : splitOn sep s = [s] := by
  induction s with
  | nil => rfl
  | cons c s ih =>
    have hc : c ≠ sep := fun hc => h (hc ▸ List.mem_cons_self)
    rw [splitOn, if_neg hc, ih fun hs => h (List.mem_cons_of_mem c hs)]

theorem splitOn_append_sep (start rest : List Char) :
    splitOn sep (start ++ sep :: rest) = splitOn sep start ++ splitOn sep rest := by
  induction start with
  | nil => simp only [List.nil_append, splitOn, if_true, List.singleton_append]
  | cons c start ih =>
    by_cases hc : c = sep
    · simp only [List.cons_append, splitOn, if_pos hc, ih]
    · obtain ⟨part, parts, hparts⟩ := List.exists_cons_of_ne_nil (splitOn_ne_nil sep start)
      simp only [List.cons_append, splitOn, if_neg hc, ih, hparts]

theorem splitOn_append {start : List Char} (h : sep ∉ start) (rest : List Char) :
    splitOn sep (start ++ sep :: rest) = start :: splitOn sep rest := by
  rw [splitOn_append_sep, splitOn_of_not_mem h, List.singleton_append]

end Text

namespace Image
open Text

theorem Reference.parse_cases (s : String) :
    parse s = .error (.invalidReference s) ∨ ∃ r, parse s = .ok r := by
  unfold parse
  split
  · exact .inr ⟨_, rfl⟩
  · exact .inl rfl

/-- The parts of a reference as it is written, `[qualifier/]name[:tag]`. -/
@[ext]
structure Writing where
  qualifier : Option String
  name : String
  tag : Option String
  qualifier_some : ∀ q ∈ qualifier, q ≠ "" ∧ '/' ∉ q.toList
  name_ne : name ≠ "" ∧ '/' ∉ name.toList ∧ ':' ∉ name.toList
  tag_some : ∀ t ∈ tag, '/' ∉ t.toList

namespace Writing

/-- What a qualifier writes before the name. -/
def before : Option String → String
  | some qualifier => qualifier ++ "/"
  | none => ""

/-- What a tag writes behind the name. -/
def behind : Option String → String
  | some tag => ":" ++ tag
  | none => ""

/-- The parts put together. -/
def text (w : Writing) : String :=
  before w.qualifier ++ (w.name ++ behind w.tag)

/-- What a catalog is asked for. -/
def reference (w : Writing) : Reference :=
  ⟨w.qualifier, w.name⟩

theorem before_toList (qualifier : Option String) :
    (before qualifier).toList = (qualifier.map fun q => q.toList ++ ['/']).getD [] := by
  cases qualifier <;> simp [before]

theorem behind_toList (tag : Option String) : (behind tag).toList = (tag.map fun t => ':' :: t.toList).getD [] := by
  cases tag <;> simp [behind]

theorem behind_inj {tag tag' : Option String} (h : behind tag = behind tag') : tag = tag' := by
  have h := congrArg String.toList h
  rw [behind_toList, behind_toList] at h
  cases tag with
  | none =>
    cases tag' with
    | none => rfl
    | some t' => exact nomatch h
  | some t =>
    cases tag' with
    | none => exact nomatch h
    | some t' => exact congrArg some (String.toList_inj.mp (List.cons.inj h).2)

section
variable (w : Writing)

/-- The name with its tag. -/
def last : List Char :=
  w.name.toList ++ (behind w.tag).toList

theorem text_toList : w.text.toList = (before w.qualifier).toList ++ w.last := by
  simp only [text, last, String.toList_append]

theorem slash_not_mem_last : '/' ∉ w.last := by
  rw [last, behind_toList, List.mem_append]
  rintro (h | h)
  · exact w.name_ne.2.1 h
  · cases htag : w.tag with
    | none => rw [htag] at h; exact absurd h List.not_mem_nil
    | some t =>
      rw [htag] at h
      exact w.tag_some t htag ((List.mem_cons.mp h).resolve_left (by decide))

theorem beforeFirst_last : beforeFirst ':' w.last = w.name.toList := by
  refine beforeFirst_eq_iff.mpr ⟨w.name_ne.2.2, ?_⟩
  rw [last, behind_toList]
  cases w.tag with
  | none => exact .inl (List.append_nil _)
  | some t => exact .inr ⟨t.toList, rfl⟩

theorem parse_text : Reference.parse w.text = .ok w.reference := by
  have hlast := splitOn_of_not_mem w.slash_not_mem_last
  have hname : w.name.toList ≠ [] := fun h => w.name_ne.1 (String.toList_eq_nil_iff.mp h)
  have hchars : Reference.ofChars? w.text.toList = some w.reference := by
    rw [text_toList, before_toList, Reference.ofChars?]
    cases hqualifier : w.qualifier with
    | none => simp [hlast, beforeFirst_last, hname, reference, hqualifier]
    | some q =>
      obtain ⟨hne, hslash⟩ := w.qualifier_some q hqualifier
      simp [splitOn_append hslash, hlast, beforeFirst_last, hname, hne, reference, hqualifier]
  rw [Reference.parse, hchars]

end

/-- A text is put together from no parts but those that are found in it. -/
theorem text_inj {w w' : Writing} (h : w.text = w'.text) : w = w' := by
  have href : w.reference = w'.reference :=
    Except.ok.inj (w.parse_text.symm.trans ((congrArg Reference.parse h).trans w'.parse_text))
  obtain ⟨hqualifier, hname⟩ := Reference.mk.inj href
  refine Writing.ext hqualifier hname (behind_inj ?_)
  rw [text, text, hqualifier, hname] at h
  exact (String.append_right_inj _).mp ((String.append_right_inj _).mp h)

/-- Behind a qualifier, a text without a separator is a name with or without a tag, if it does not begin with a tag. -/
theorem exists_of_last {s : String} {last : List Char} {qualifier : Option String}
    (hs : s.toList = (before qualifier).toList ++ last) (hqualifier : ∀ q ∈ qualifier, q ≠ "" ∧ '/' ∉ q.toList)
    (h : '/' ∉ last) (hname : beforeFirst ':' last ≠ []) :
    ∃ w : Writing, w.text = s ∧ w.reference = ⟨qualifier, String.ofList (beforeFirst ':' last)⟩ := by
  obtain ⟨hcolon, hlast⟩ := beforeFirst_eq_iff.mp (rfl : beforeFirst ':' last = _)
  generalize beforeFirst ':' last = name at *
  have htext (w : Writing) (hw : w.qualifier = qualifier) (hl : w.last = last) : w.text = s :=
    String.toList_inj.mp (by rw [text_toList, hw, hl, hs])
  rcases hlast with rfl | ⟨t, rfl⟩
  · let w : Writing := ⟨qualifier, String.ofList last, none, hqualifier, by simpa using ⟨hname, h, hcolon⟩, nofun⟩
    exact ⟨w, htext w rfl (by simp [w, Writing.last, behind]), rfl⟩
  · obtain ⟨hslash, htag⟩ := not_or.mp (mt List.mem_append.mpr h)
    have htag : '/' ∉ t := fun ht => htag (List.mem_cons_of_mem ':' ht)
    let w : Writing := ⟨qualifier, String.ofList name, some (String.ofList t), hqualifier,
      by simpa using ⟨hname, hslash, hcolon⟩, by simpa using htag⟩
    exact ⟨w, htext w rfl (by simp [w, Writing.last, behind]), rfl⟩

/-- Whatever is read as a reference is put together from parts. -/
theorem exists_of_parse {s : String} {r : Reference} (h : Reference.parse s = .ok r) :
    ∃ w : Writing, w.text = s ∧ w.reference = r := by
  have hchars : Reference.ofChars? s.toList = some r := by
    rw [Reference.parse] at h
    split at h
    · rename_i hr
      exact hr.trans (congrArg some (Except.ok.inj h))
    · cases h
  have hjoin := joinWith_splitOn '/' s.toList
  have hparts : ∀ part ∈ splitOn '/' s.toList, '/' ∉ part := fun part => not_mem_of_mem_splitOn
  rw [Reference.ofChars?] at hchars
  split at hchars
  case h_1 last hsplit =>
    rw [hsplit] at hjoin hparts
    obtain ⟨hname, hr⟩ := Option.ite_none_left_eq_some.mp hchars
    obtain rfl := Option.some.inj hr
    have hs : s.toList = (before none).toList ++ last := hjoin.symm
    exact exists_of_last hs nofun (hparts last (by simp)) hname
  case h_2 qualifier last hsplit =>
    rw [hsplit] at hjoin hparts
    obtain ⟨hne, hr⟩ := Option.ite_none_left_eq_some.mp hchars
    obtain rfl := Option.some.inj hr
    obtain ⟨hname, hne⟩ := not_or.mp hne
    have hslash := hparts qualifier (by simp)
    have hs : s.toList = (before (some (String.ofList qualifier))).toList ++ last := by
      rw [before_toList, ← hjoin]
      simp [joinWith]
    exact exists_of_last hs (by simpa using ⟨hne, hslash⟩) (hparts last (by simp)) hname
  case h_3 => cases hchars

end Writing

/-- The texts that are read as references are those put together from the parts of one, each from one choice of parts
    only, and what is read are its parts. Any other text is refused before a catalog is asked. -/
theorem parse_exact (s : String) :
    ((∃ r, Reference.parse s = .ok r) ↔ ∃! w : Writing, w.text = s) ∧
    (∀ w : Writing, w.text = s → Reference.parse s = .ok ⟨w.qualifier, w.name⟩) ∧
    ((¬∃ w : Writing, w.text = s) → Reference.parse s = .error (.invalidReference s) ∧
      ∀ (catalog : Catalog) (known : Directory), (Images.directory catalog known).pull s =
        .done (.error (.invalidReference s), .directory catalog known)) := by
  refine ⟨⟨fun ⟨r, hr⟩ => ?_, fun ⟨w, hw, _⟩ => ⟨w.reference, hw ▸ w.parse_text⟩⟩, fun w hw => hw ▸ w.parse_text,
    fun hnone => ?_⟩
  · obtain ⟨w, rfl, -⟩ := Writing.exists_of_parse hr
    exact ⟨w, rfl, fun w' => Writing.text_inj⟩
  · have hparse : Reference.parse s = .error (.invalidReference s) := by
      refine (Reference.parse_cases s).resolve_right fun hr => hnone ?_
      obtain ⟨r, hr⟩ := hr
      obtain ⟨w, hw, -⟩ := Writing.exists_of_parse hr
      exact ⟨w, hw⟩
    refine ⟨hparse, fun catalog known => ?_⟩
    simp only [Images.pull, Images.asked, hparse]
    rfl

/-- A port and a tag with a colon of its own are read; a path of three parts is refused. -/
theorem parse_exact_port :
    (∃ w : Writing, w.text = "registry:5000/agent:v1:x" ∧
      Reference.parse "registry:5000/agent:v1:x" = .ok ⟨some "registry:5000", "agent"⟩) ∧
    (¬∃ w : Writing, w.text = "gcr.io/demo/agent") ∧
    Reference.parse "gcr.io/demo/agent" = .error (.invalidReference "gcr.io/demo/agent") := by
  let w : Writing := ⟨some "registry:5000", "agent", some "v1:x", by simp, by decide, by simp⟩
  have hw : w.text = "registry:5000/agent:v1:x" := by decide
  have hdeep : ¬∃ w : Writing, w.text = "gcr.io/demo/agent" := fun hw => by
    obtain ⟨w, hw⟩ := hw
    have hnone : Reference.ofChars? "gcr.io/demo/agent".toList = none := by decide
    have hparse := (parse_exact "gcr.io/demo/agent").2.1 w hw
    rw [Reference.parse, hnone] at hparse
    exact nomatch hparse
  exact ⟨⟨w, hw, (parse_exact _).2.1 w hw⟩, hdeep, ((parse_exact _).2.2 hdeep).1⟩

end Image
end PodMachines
