import PodMachines.Images

/-! What was done to the images of a catalog, and what is kept of them then. Main statement: under every text is the
    image that the last successful pull of the text found, unless the text was removed afterwards. -/

namespace PodMachines.Image

/-- Something that was done to images. -/
inductive Deed where
  | pull (reference : String) (found : Except Failure (List Record))
  | remove (reference : String)

/-- Whether something that was done decides what is under a text: it removes the text, or pulls exactly one image under
    it. -/
def Deed.Settles (d : Deed) (text : String) : Prop :=
  d = .remove text ∨ ∃ image, d = .pull text (.ok [image])

/-- Whether an image is under a text after all that was done: the last successful pull of the text found it, and the text
    was not removed since. -/
def Holds (history : List Deed) (text : String) (image : Record) : Prop :=
  ∃ before after, history = before ++ .pull text (.ok [image]) :: after ∧ ∀ d ∈ after, ¬d.Settles text

section
variable {history more : List Deed} {deed : Deed} {text reference : String} {image : Record}
  {found : Except Failure (List Record)}

theorem not_holds_nil : ¬Holds [] text image := by
  rintro ⟨before, after, h, -⟩
  simp at h

theorem holds_singleton : Holds [deed] text image ↔ deed = .pull text (.ok [image]) := by
  constructor
  · rintro ⟨before, after, h, -⟩
    cases before with
    | nil => exact (List.cons.inj h).1
    | cons d rest => simp at h
  · rintro rfl
    exact ⟨[], [], rfl, nofun⟩

/-- What is held after more was done was pulled then, or was held before and not settled since. -/
theorem holds_append : Holds (history ++ more) text image ↔
    Holds more text image ∨ (Holds history text image ∧ ∀ d ∈ more, ¬d.Settles text) := by
  constructor
  · rintro ⟨first, rest, h, hrest⟩
    obtain ⟨mid, rfl, hmid⟩ | ⟨mid, rfl, hmid⟩ := List.append_eq_append_iff.mp h
    · exact .inl ⟨mid, rest, hmid, hrest⟩
    · cases mid with
      | nil => exact .inl ⟨[], rest, hmid.symm, hrest⟩
      | cons d since =>
        obtain ⟨rfl, rfl⟩ := List.cons.inj hmid
        exact .inr ⟨⟨first, since, rfl, fun d hd => hrest d (List.mem_append_left _ hd)⟩,
          fun d hd => hrest d (List.mem_append_right _ hd)⟩
  · rintro (⟨first, rest, rfl, hrest⟩ | ⟨⟨first, rest, rfl, hrest⟩, hmore⟩)
    · exact ⟨history ++ first, rest, (List.append_assoc ..).symm, hrest⟩
    · refine ⟨first, rest ++ more, List.append_assoc .., fun d hd => ?_⟩
      exact (List.mem_append.mp hd).elim (hrest d) (hmore d)

/-- After a removal, and until the text is pulled again, a text holds what it held before, if it is neither the one that
    was removed nor removed later. -/
theorem holds_remove (hmore : ∀ d ∈ more, ∀ image, d ≠ .pull text (.ok [image])) :
    Holds (history ++ .remove reference :: more) text image ↔
      Holds history text image ∧ text ≠ reference ∧ .remove text ∉ more := by
  have hpulled : ¬Holds (.remove reference :: more) text image := by
    rintro ⟨before, after, h, -⟩
    have hmem : Deed.pull text (.ok [image]) ∈ .remove reference :: more := h ▸ List.mem_append_right _ List.mem_cons_self
    obtain h | h := List.mem_cons.mp hmem
    · cases h
    · exact hmore _ h image rfl
  rw [holds_append, or_iff_right hpulled]
  refine and_congr_right fun _ => ?_
  constructor
  · intro h
    refine ⟨fun he => ?_, fun hm => h _ (List.mem_cons_of_mem _ hm) (.inl rfl)⟩
    exact h _ List.mem_cons_self (.inl (congrArg _ he.symm))
  · rintro ⟨hne, hrem⟩ d hd (rfl | ⟨image, rfl⟩)
    · obtain h | h := List.mem_cons.mp hd
      · exact hne (Deed.remove.inj h)
      · exact hrem h
    · obtain h | h := List.mem_cons.mp hd
      · cases h
      · exact hmore _ h image rfl

/-! ### Directories -/

namespace Directory

def after (d : Directory) : Deed → Directory
  | .pull reference found => (d.pulled reference found).2
  | .remove reference => d.forget reference

/-- Whether a directory has under every text what is held after all that was done. -/
def Keeps (d : Directory) (history : List Deed) : Prop :=
  ∀ text image, d.known.find? text = some image ↔ Holds history text image

/-- A pull that does not find exactly one image leaves everything as it was. -/
theorem pulled_of_ne (d : Directory) (h : ∀ image, found ≠ .ok [image]) : (d.pulled reference found).2 = d := by
  cases found with
  | error f => rfl
  | ok images =>
    match images, h with
    | [], _ => rfl
    | [image], h => exact absurd rfl (h image)
    | _ :: _ :: _, _ => rfl

theorem pulled_result (d : Directory) :
    (d.pulled reference found).1 = (found.bind (unique reference)).map (·.id) := by
  cases found with
  | error f => rfl
  | ok images =>
    simp only [pulled, Except.bind]
    cases unique reference images <;> rfl

/-- Under a text is what was pulled under it just now, else what was there, if the text was not settled just now. -/
theorem find?_after (d : Directory) : (d.after deed).known.find? text = some image ↔
    deed = .pull text (.ok [image]) ∨ (d.known.find? text = some image ∧ ¬deed.Settles text) := by
  cases deed with
  | remove reference =>
    have hfind : (d.after (.remove reference)).known.find? text = if reference = text then none else d.known.find? text :=
      Table.find?_erase d.known reference text
    rw [hfind]
    by_cases h : reference = text <;> simp [Deed.Settles, h]
  | pull reference found =>
    by_cases h : ∃ image, found = .ok [image]
    · obtain ⟨new, rfl⟩ := h
      have hfind : (d.after (.pull reference (.ok [new]))).known.find? text =
          if reference = text then some new else d.known.find? text := Table.find?_insert d.known reference text new
      rw [hfind]
      by_cases h : reference = text <;> simp [Deed.Settles, h]
    · have hne : ∀ image, found ≠ .ok [image] := fun image he => h ⟨image, he⟩
      have hsame : d.after (.pull reference found) = d := d.pulled_of_ne hne
      have hsettles : ¬(Deed.pull reference found).Settles text := by
        rintro (he | ⟨image, he⟩)
        · cases he
        · cases he
          exact hne image rfl
      rw [hsame, and_iff_left hsettles, or_iff_right]
      intro he
      cases he
      exact hne image rfl

theorem keeps_empty : empty.Keeps [] :=
  fun _ _ => iff_of_false nofun not_holds_nil

theorem Keeps.after {d : Directory} (h : d.Keeps history) (deed : Deed) : (d.after deed).Keeps (history ++ [deed]) := by
  intro text image
  rw [find?_after, holds_append, holds_singleton, h text image]
  simp

theorem Keeps.foldl {d : Directory} (h : d.Keeps history) (more : List Deed) :
    (more.foldl Directory.after d).Keeps (history ++ more) := by
  induction more generalizing d history with
  | nil => exact (List.append_nil history).symm ▸ h
  | cons deed more ih => simpa using ih (h.after deed)

theorem mem_entries_iff {d : Directory} : (text, image) ∈ d.known.entries ↔ d.known.find? text = some image := by
  refine ⟨Table.find?_of_mem, fun h => ?_⟩
  obtain ⟨⟨key, value⟩, hfind, rfl⟩ := Option.map_eq_some_iff.mp h
  have hkey := List.find?_some hfind
  simp only [decide_eq_true_eq] at hkey
  exact hkey ▸ List.mem_of_find?_eq_some hfind

end Directory
end
end PodMachines.Image

namespace PodMachines.Images
open Image

def after (i : Images) : Deed → Images
  | .pull reference found => (i.pulled reference found).2
  | .remove reference => i.forget reference

theorem foldl_after (own : Catalog) (d : Directory) (history : List Deed) :
    history.foldl Images.after (.directory own d) = .directory own (history.foldl Directory.after d) := by
  induction history generalizing d with
  | nil => rfl
  | cons deed rest ih => cases deed <;> exact ih _

/-- Whether a provider has what is held after all that was done, and nothing else. -/
structure Recalls (i : Images) (history : List Deed) : Prop where
  /-- The image of a reference is the one under its normalized text. -/
  status : ∀ reference image, i.status reference = some image ↔ Holds history (Reference.normalize reference) image
  one : ∀ reference, i.list (some reference) = (i.status reference).toList
  /-- All images are those under the texts that hold one, each once. -/
  all : ∃ entries : List (String × Record), i.list none = entries.map (·.2) ∧ (entries.map (·.1)).Nodup ∧
    ∀ text image, (text, image) ∈ entries ↔ Holds history text image

theorem recalls_of_keeps {own : Catalog} {d : Directory} {history : List Deed} (h : d.Keeps history) :
    (directory own d).Recalls history where
  status reference image := h (Reference.normalize reference) image
  one _ := rfl
  all := ⟨d.known.entries, rfl, d.known.nodup, fun text image => Directory.mem_entries_iff.trans (h text image)⟩

end PodMachines.Images
