import PodMachines.Proofs.Image.Normalizing
import PodMachines.Proofs.Shim.Remembering

/-! What is left of an image that was removed. A removal takes away what is under the text that it is given, and a status
    looks under the normalized text. Main statement: until the normalized text is pulled again, the image is absent exactly
    if the removal gave a tag, or nothing was there before it, or the normalized text was removed as well. -/

namespace PodMachines
open Service Session Image

namespace Shim
variable {backend : String} {catalog : Option String} {now : Nat} {stock : Catalog} {ms : List (Move Answer)}
  {log : List Pods.Note} {t : Shim Answer} {n : Nat} {job : Job Answer} {name : String} {spec : Message.ImageSpec}
  {answer : Answer}

/-- What one job did alone to the images stands once among all that was done. -/
theorem split_of_doneBy {history : List (Nat × Deed)} {d : Deed} (h : doneBy n history = [d]) :
    ∃ before after, history = before ++ (n, d) :: after ∧ doneBy n before = [] ∧ doneBy n after = [] := by
  have hmem : (n, d) ∈ history := mem_doneBy.mp (h ▸ List.mem_singleton_self d)
  obtain ⟨before, after, rfl⟩ := List.append_of_mem hmem
  refine ⟨before, after, rfl, ?_⟩
  have hsplit : doneBy n before ++ d :: doneBy n after = [d] := by
    rw [← h, doneBy_append]
    simp [doneBy]
  cases hb : doneBy n before with
  | nil =>
    rw [hb] at hsplit
    exact ⟨rfl, (List.cons.inj hsplit).2⟩
  | cons first rest =>
    rw [hb] at hsplit
    simp at hsplit

/-- How the removal of a reference leaves the images: until the normalized reference is pulled again, it has no image
    exactly if it was given with its tag, or had no image before, or was also removed with its tag afterwards. -/
def Forgets (first t : Shim Answer) (ms : List (Move Answer)) (n : Nat) (reference : String) : Prop :=
  ∃ before after i, first.imaged ms = before ++ (n, .remove reference) :: after ∧ doneBy n before = [] ∧
    doneBy n after = [] ∧ t.images = some i ∧
    ((∀ image, .pull (Reference.normalize reference) (.ok [image]) ∉ after.map (·.2)) →
      ((i.status reference = none ∧ i.list (some reference) = []) ↔
        Reference.isTagged reference.toList = true ∨
          (∀ image, ¬Holds (before.map (·.2)) (Reference.normalize reference) image) ∨
          .remove (Reference.normalize reference) ∈ after.map (·.2)))

theorem images_forgotten (h : Run (.ofCatalog backend catalog now stock) ms log t) (hj : t.jobs[n]? = some job)
    (hcourse : job.course = requested name (.removeImage (some spec))) (hleft : job.left = .done answer) :
    answer = .response (.removeImage (some spec)) () ∧
      Forgets (.ofCatalog backend catalog now stock) t ms n spec.image := by
  obtain ⟨rfl, hdone⟩ := h.forgetEnds hj hcourse hleft
  rw [← h.doneBy_eq rfl hj] at hdone
  obtain ⟨before, after, hhistory, hbefore, hafter⟩ := split_of_doneBy hdone
  obtain ⟨d, hd, hkeeps⟩ := h.directory
  refine ⟨rfl, before, after, _, hhistory, hbefore, hafter, hd, fun hpull => ?_⟩
  have hrecalls : (Images.directory stock d).Recalls _ := Images.recalls_of_keeps hkeeps
  have hlist : (Images.directory stock d).list (some spec.image) = [] ↔
      (Images.directory stock d).status spec.image = none := by
    rw [hrecalls.one, Option.toList_eq_nil_iff]
  have habsent : (Images.directory stock d).status spec.image = none ↔
      ∀ image, ¬Holds (((Shim.ofCatalog backend catalog now stock).imaged ms).map (·.2))
        (Reference.normalize spec.image) image := by
    simp only [← hrecalls.status, Option.eq_none_iff_forall_ne_some, ne_eq]
  have hmore : ∀ deed ∈ after.map (·.2), ∀ image, deed ≠ .pull (Reference.normalize spec.image) (.ok [image]) := by
    rintro deed hdeed image rfl
    exact hpull image hdeed
  rw [hlist, and_self, habsent, hhistory, List.map_append, List.map_cons, ← Reference.normalize_eq_iff]
  simp only [holds_remove hmore]
  constructor
  · intro hnone
    by_cases htag : Reference.normalize spec.image = spec.image
    · exact .inl htag
    by_cases hrem : .remove (Reference.normalize spec.image) ∈ after.map (·.2)
    · exact .inr (.inr hrem)
    · exact .inr (.inl fun image hholds => hnone image ⟨hholds, htag, hrem⟩)
  · rintro (htag | hnone | hrem) image ⟨hholds, hne, hnot⟩
    · exact hne htag
    · exact hnone image hholds
    · exact hnot hrem

/-- In the tour the image that was pulled with a tag is removed by the same reference, and gone. -/
theorem images_forgotten_tour :
    ∃ job, Shelf.final.jobs[5]? = some job ∧
      job.course = requested "fake" (.removeImage (some { image := "img:latest" })) ∧
      job.left = .done (.response (.removeImage (some { image := "img:latest" })) ()) ∧
      Forgets Shelf.first Shelf.final Shelf.moves 5 "img:latest" ∧
      Shelf.final.images.map (·.status "img:latest") = some none := by
  obtain ⟨job, hj⟩ : ∃ job, Shelf.final.jobs[5]? = some job := ⟨_, rfl⟩
  have hcourse : Shelf.final.jobs[5]?.map (·.course) =
      some (requested "fake" (.removeImage (some { image := "img:latest" }))) := rfl
  have hleft : Shelf.final.jobs[5]?.map (·.left) =
      some (.done (.response (.removeImage (some { image := "img:latest" })) ())) := rfl
  rw [hj] at hcourse hleft
  have hforgets := images_forgotten Shelf.run hj (Option.some.inj hcourse) (Option.some.inj hleft)
  exact ⟨job, hj, Option.some.inj hcourse, Option.some.inj hleft, hforgets.2, rfl⟩

/-- An image is pulled with a tag, removed without one, and looked for. -/
def Shelf.outlast : List (Move Answer) :=
  pull 0 "img:latest" [image "a"] ++ ask 1 2 (.removeImage (some { image := "img" })) ++
    ask 2 1 (.imageStatus (some { image := "img" }))

/-- An image that was pulled with a tag outlasts the removal of the reference without it, though nothing is pulled
    afterwards. -/
theorem image_outlasts_removal :
    ∃ log t, Run Shelf.first Shelf.outlast log t ∧
      (Shelf.first.imaged Shelf.outlast).map (·.2) = [.pull "img:latest" (.ok [Shelf.image "a"]), .remove "img"] ∧
      ([1, 2].map fun n => t.jobs[n]?.map (·.left)) =
        [some (.done (.response (.removeImage (some { image := "img" })) ())),
          some (.done (.response (.imageStatus (some { image := "img" }))
            (some ((Shelf.image "a").toMessage (some "img")))))] ∧
      t.images.map (·.list (some "img")) = some [Shelf.image "a"] :=
  ⟨_, _, run_played rfl, rfl, rfl, rfl⟩

end Shim
end PodMachines
