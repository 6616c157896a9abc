import PodMachines.Proofs.Image.Writing
import PodMachines.Proofs.Shim.Pulling

/-! What requests about images come to in a run, where the images are those of a catalog and none is there at first. Main
    statement: the provider has at any time what the last successful pulls have found and no later removal has taken away,
    requests are answered accordingly, and a pull that fails changes nothing. -/

namespace PodMachines
open Service Session Image

def searched (talk : Program.Talk Act Act.Reply) : List (Reference × Except Failure (List Record)) :=
  talk.filterMap fun
    | ⟨.find reference, found⟩ => some (reference, found)
    | _ => none

namespace Shim

section
variable {α : Type} {first s t : Shim α} {ms : List (Move α)} {log : List Pods.Note} {n : Nat} {job : Job α}

theorem Run.received (h : Run first ms log t) (hfirst : first.jobs = []) (hj : t.jobs[n]? = some job) :
    .receive job.course ∈ ms := by
  induction h generalizing job with
  | rest => simp [hfirst] at hj
  | @move ms log t u h m hm ih =>
    rcases (goes_of_move hm).turn hj with ⟨course, rfl, -, rfl⟩ | ⟨old, hold, hturn⟩
    · exact List.mem_append_right _ (List.mem_singleton_self _)
    · have hcourse : job.course = old.course := by
        cases hturn <;> rfl
      exact hcourse ▸ List.mem_append_left _ (ih hold)

@[simp] theorem searched_append (talk rest : Program.Talk Act Act.Reply) :
    searched (talk ++ rest) = searched talk ++ searched rest :=
  List.filterMap_append

/-- Whether a job can be brought to its end from a state, where the catalog finds this. -/
def Concludes (s : Shim α) (n : Nat) (job : Job α) (find : Reference → Except Failure (List Record)) : Prop :=
  ∃ more t job' a, Run s more [] t ∧ t.jobs[n]? = some job' ∧ job'.course = job.course ∧ job'.left = .done a ∧
    ∀ x ∈ searched job'.talk, x ∈ searched job.talk ∨ x.2 = find x.1

theorem concludes_of_uses (hj : s.jobs[n]? = some job) (huses : job.left.Uses Act.OfImages) (hsturdy : job.left.Sturdy)
    (find : Reference → Except Failure (List Record)) : s.Concludes n job find := by
  generalize hleft : job.left = left at huses hsturdy
  induction left generalizing s job with
  | done a => exact ⟨[], s, job, a, .rest, hj, rfl, hleft, fun x hx => .inl hx⟩
  | crash why => exact hsturdy.elim
  | ask act next ih =>
    -- After a reply the rest of the course is as good.
    have goOn {m : Move α} {t : Shim α} {reply : act.Reply} (hm : s.move? m = some t) (hnotes : s.notes m = [])
        (ht : t.jobs[n]? = some (job.replied act reply next))
        (hf : ∀ x ∈ searched [⟨act, reply⟩], x.2 = find x.1) : s.Concludes n job find := by
      obtain ⟨more, u, job', a, hrun, hu, hcourse, ha, hall⟩ := ih reply ht rfl (huses.2 reply) (hsturdy reply)
      have hfirst : Run s [m] [] t := hnotes ▸ Run.rest.move m hm
      refine ⟨_, u, job', a, hfirst.trans hrun, hu, hcourse, ha, fun x hx => ?_⟩
      rcases hall x hx with hold | hnew
      · rw [Job.replied, searched_append] at hold
        exact (List.mem_append.mp hold).imp_right (hf x)
      · exact .inr hnew
    have hlen := (List.getElem?_eq_some_iff.mp hj).1
    have told {t : Shim α} {reply : act.Reply} (ho : s.own act = some (reply, t)) (hpods : ∀ c, act ≠ .pods c)
        (hf : ∀ x ∈ searched [⟨act, reply⟩], x.2 = find x.1) : s.Concludes n job find := by
      have hm : s.move? (.proceed n) = some (t.told n job act reply next) := by
        simp only [move?, hj, Option.bind_some, proceed?, hleft]
        cases act with
        | pods c => exact absurd rfl (hpods c)
        | _ => simp only [ho, Option.map_some]
      refine goOn hm rfl ?_ hf
      rw [Shim.told, own_jobs ho]
      exact List.getElem?_set_self hlen
    rcases huses.1 with rfl | rfl | ⟨reference, rfl⟩ | ⟨d, hd⟩
    · exact told rfl (by simp) (by simp [searched])
    · exact told rfl (by simp) (by simp [searched])
    · have hm : s.move? (.hear n (.found (find reference))) =
          some (s.told n job (.find reference) (find reference) next) := by
        simp only [move?, hj, Option.bind_some, hear?, hleft]
        rfl
      exact goOn hm rfl (List.getElem?_set_self hlen) (by simp [searched])
    · cases act with
      | keep reference found =>
        obtain ⟨reply, t, ho⟩ : ∃ reply t, s.own (.keep reference found) = some (reply, t) := by
          simp only [own]
          split <;> exact ⟨_, _, rfl⟩
        exact told ho (by simp) (by simp [searched])
      | forget reference => exact told rfl (by simp) (by simp [searched])
      | _ => cases hd

/-- Whether a provider is as a job found it: at some state that the run passed, before the job was replied to anything,
    these were the images, and what had been done to them until then is what they recall. -/
def Views (first : Shim α) (ms : List (Move α)) (n : Nat) (i : Images) : Prop :=
  ∃ before rest earlier s job, ms = before ++ rest ∧ Run first before earlier s ∧ s.jobs[n]? = some job ∧ job.talk = [] ∧
    s.images = some i ∧ i.Recalls ((first.imaged before).map (·.2))

end

/-- The service over the images of a catalog, before it has received anything. -/
abbrev ofCatalog {α : Type} (backend : String) (catalog : Option String) (now : Nat) (stock : Catalog) : Shim α :=
  .new backend catalog now (some (.ofCatalog stock))

section
variable {α : Type} {backend : String} {catalog : Option String} {now : Nat} {stock : Catalog} {s t : Shim α}
  {ms : List (Move α)} {log : List Pods.Note} {n : Nat} {job : Job α}

theorem Run.directory (h : Run (.ofCatalog backend catalog now stock) ms log t) :
    ∃ d, t.images = some (.directory stock d) ∧
      d.Keeps (((Shim.ofCatalog backend catalog now stock).imaged ms).map (·.2)) := by
  have himages : t.images = some ((((Shim.ofCatalog backend catalog now stock).imaged ms).map (·.2)).foldl Images.after
    (.ofCatalog stock)) := h.images
  rw [Images.ofCatalog, Images.foldl_after] at himages
  exact ⟨_, himages, Directory.keeps_empty.foldl _⟩

theorem Run.views (h : Run (.ofCatalog backend catalog now stock) ms log t) (hj : t.jobs[n]? = some job)
    {images : Option Images} {rest : Program.Talk Act Act.Reply} (htalk : job.talk = ⟨.images, images⟩ :: rest) :
    ∃ d, images = some (.directory stock d) ∧ Views (.ofCatalog backend catalog now stock) ms n (.directory stock d) := by
  obtain ⟨s, since, old, ⟨before, later, earlier, rfl, -, hbefore, -⟩, hs, ht, rfl⟩ := h.images_at (Nat.zero_le n) hj htalk
  obtain ⟨d, hd, hkeeps⟩ := hbefore.directory
  exact ⟨d, hd, before, later, earlier, s, old, rfl, hbefore, hs, ht, hd, Images.recalls_of_keeps hkeeps⟩

theorem Run.kept_result (h : Run (.ofCatalog backend catalog now stock) ms log t) (hj : t.jobs[n]? = some job)
    {reference : String} {found : Except Failure (List Record)} {result : Except Failure String}
    (hmem : ⟨.keep reference found, result⟩ ∈ job.talk) :
    result = (found.bind (Directory.unique reference)).map (·.id) := by
  obtain ⟨talk, rest, htalk⟩ := List.append_of_mem hmem
  obtain ⟨s, since, old, u, ⟨before, later, earlier, -, -, hbefore, -⟩, -, -, -, ho⟩ :=
    h.replied_at (Nat.zero_le n) hj htalk ⟨by simp, fun word => by cases word <;> rfl⟩
  obtain ⟨d, hd, -⟩ := hbefore.directory
  simp only [own, hd] at ho
  cases ho
  exact d.pulled_result

theorem Run.steady (h : Run (.ofCatalog backend catalog now stock) ms log s) {m : Move α} (hm : s.move? m = some t)
    (hsettles : ∀ n d text, (n, d) ∈ s.imaging m → ¬Deed.Settles d text) : t.images = s.images := by
  obtain ⟨d, hd, -⟩ := h.directory
  have hkept : ∀ e ∈ s.imaging m, (Images.directory stock d).after e.2 = .directory stock d := by
    rintro ⟨n, deed⟩ he
    cases deed with
    | remove reference => exact absurd (.inl rfl) (hsettles n _ reference he)
    | pull reference found =>
      refine congrArg (Images.directory stock) (d.pulled_of_ne fun image hfound => ?_)
      exact hsettles n _ reference he (.inr ⟨image, congrArg _ hfound⟩)
  rw [(goes_of_move hm).images, hd, Option.map_some]
  -- A move does at most one thing.
  have hone : s.imaging m = [] ∨ ∃ e, s.imaging m = [e] := by
    cases m with
    | proceed n =>
      simp only [imaging]
      cases s.jobs[n]?.bind Job.deed? with
      | none => exact .inl rfl
      | some deed => exact .inr ⟨_, rfl⟩
    | _ => exact .inl rfl
  rcases hone with hnone | ⟨e, he⟩
  · rw [hnone]
    rfl
  · rw [he] at hkept ⊢
    exact congrArg some (hkept e (List.mem_singleton_self e))

end

section
variable {backend : String} {catalog : Option String} {now : Nat} {stock : Catalog} {ms : List (Move Answer)}
  {log : List Pods.Note} {t : Shim Answer} {n : Nat} {job : Job Answer}

/-- Whether nothing that is received does something to the images but requests. -/
def OnlyRequests (ms : List (Move Answer)) : Prop :=
  ∀ course, .receive course ∈ ms → (∃ name r, course = requested name r) ∨ course.Uses Act.Quiet

/-- How a pull ends, by what the catalog was asked and found, and with what it did to the images. -/
inductive PullEnds (spec : Message.ImageSpec) : List (Reference × Except Failure (List Record)) → List Deed → Answer → Prop
  | unreadable (h : Reference.parse spec.image = .error (.invalidReference spec.image)) :
      PullEnds spec [] [] (.refused (Failure.invalidReference spec.image).status)
  | failed {parsed : Reference} (h : Reference.parse spec.image = .ok parsed) (f : Failure) :
      PullEnds spec [(parsed, .error f)] [.pull spec.image (.error f)] (.refused f.status)
  | missing {parsed : Reference} (h : Reference.parse spec.image = .ok parsed) :
      PullEnds spec [(parsed, .ok [])] [.pull spec.image (.ok [])] (.refused (Failure.noImage spec.image).status)
  | ambiguous {parsed : Reference} (h : Reference.parse spec.image = .ok parsed) {images : List Record}
      (hn : 1 < images.length) : PullEnds spec [(parsed, .ok images)] [.pull spec.image (.ok images)]
        (.refused (Failure.ambiguousImage spec.image images.length).status)
  | pulled {parsed : Reference} (h : Reference.parse spec.image = .ok parsed) (image : Record) :
      PullEnds spec [(parsed, .ok [image])] [.pull spec.image (.ok [image])]
        (.response (.pullImage (some spec)) image.id)

theorem PullEnds.parsed {spec : Message.ImageSpec} {asked : List (Reference × Except Failure (List Record))}
    {done : List Deed} {answer : Answer} (h : PullEnds spec asked done answer) (hdone : done ≠ []) :
    ∃ parsed, Reference.parse spec.image = .ok parsed := by
  cases h with
  | unreadable => exact absurd rfl hdone
  | failed h | missing h | ambiguous h | pulled h => exact ⟨_, h⟩

theorem pullEnds_of_found {spec : Message.ImageSpec} {parsed : Reference} (h : Reference.parse spec.image = .ok parsed)
    (found : Except Failure (List Record)) :
    PullEnds spec [(parsed, found)] [.pull spec.image found]
      (pullAnswer spec ((found.bind (Directory.unique spec.image)).map (·.id))) := by
  rcases found with f | images
  · exact .failed h f
  match images with
  | [] => exact .missing h
  | [image] => exact .pulled h image
  | _ :: _ :: _ => exact .ambiguous h (by simp)

/-- What provider a pull has found decides how it goes on only by the text of its reference. -/
theorem asked_directory (d : Directory) (text : String) :
    (Images.directory stock d).asked text = (Reference.parse text).mapError .error := by
  simp only [Images.asked]
  cases Reference.parse text <;> rfl

theorem Run.pullEnds (h : Run (.ofCatalog backend catalog now stock) ms log t) (hj : t.jobs[n]? = some job) {name : String}
    {spec : Message.ImageSpec} {answer : Answer} (hcourse : job.course = requested name (.pullImage (some spec)))
    (hleft : job.left = .done answer) : PullEnds spec (searched job.talk) (deeds job.talk) answer := by
  have hleads := (h.sound (Nat.zero_le n) hj).leads
  rw [hcourse, hleft] at hleads
  have hpulling := pulling_of_leads hleads
  generalize htalk : job.talk = talk at hpulling ⊢
  generalize hp : Program.done answer = p at hpulling
  cases hpulling with
  | going hd hl => exact absurd hp.symm (hl answer)
  | unprovided =>
    obtain ⟨d, hd, -⟩ := h.views hj htalk
    cases hd
  | @settled images result hasked =>
    obtain ⟨d, hd, -⟩ := h.views hj htalk
    cases hd
    cases hp
    rw [asked_directory] at hasked
    rcases Reference.parse_cases spec.image with hparse | ⟨parsed, hparse⟩
    · rw [hparse] at hasked
      cases hasked
      exact .unreadable hparse
    · rw [hparse] at hasked
      cases hasked
  | @looked images parsed hasked found result =>
    obtain ⟨d, hd, -⟩ := h.views hj htalk
    cases hd
    cases hp
    have hkept : (⟨.keep spec.image found, result⟩ : (act : Act) × act.Reply) ∈ job.talk := by simp [htalk]
    rw [asked_directory] at hasked
    rcases Reference.parse_cases spec.image with hparse | ⟨other, hparse⟩
    · rw [hparse] at hasked
      cases hasked
    · rw [hparse] at hasked
      cases hasked
      rw [h.kept_result hj hkept]
      exact pullEnds_of_found hparse found

/-- What was done to the images was done by a request to pull or to remove an image, which has ended. -/
theorem Run.of_deed (h : Run (.ofCatalog backend catalog now stock) ms log t) (hms : OnlyRequests ms) {d : Deed}
    (hd : (n, d) ∈ (Shim.ofCatalog backend catalog now stock).imaged ms) :
    ∃ job name spec, t.jobs[n]? = some job ∧
      ((job.course = requested name (.pullImage (some spec)) ∧ ∃ found, d = .pull spec.image found ∧
          job.left = .done (pullAnswer spec ((found.bind (Directory.unique spec.image)).map (·.id)))) ∨
        (job.course = requested name (.removeImage (some spec)) ∧ d = .remove spec.image ∧
          job.left = .done (.response (.removeImage (some spec)) ()))) := by
  obtain ⟨job, hj⟩ := h.imaged_job hd
  have hmem : d ∈ deeds job.talk := h.doneBy_eq rfl hj ▸ mem_doneBy.mpr hd
  have hleads := (h.sound (Nat.zero_le n) hj).leads
  have hloud : ¬job.course.Uses Act.Quiet := by
    intro hquiet
    obtain ⟨x, hx, hdeed⟩ := List.mem_filterMap.mp hmem
    cases (hleads.allowed hquiet x hx).symm.trans hdeed
  obtain ⟨name, r, hcourse⟩ := (hms _ (h.received rfl hj)).resolve_right hloud
  rw [hcourse] at hloud
  obtain ⟨spec, rfl⟩ | ⟨spec, rfl⟩ : (∃ spec, r = .pullImage (some spec)) ∨ ∃ spec, r = .removeImage (some spec) := by
    rcases requested_cases r with h | h | h
    · exact .inl h
    · exact .inr h
    · exact absurd h hloud
  · rw [hcourse] at hleads
    have hpulling := pulling_of_leads hleads
    generalize htalk : job.talk = talk at hpulling hmem
    generalize hleft : job.left = left at hpulling
    cases hpulling with
    | going hnone => exact absurd (hnone ▸ hmem) List.not_mem_nil
    | unprovided => exact absurd hmem List.not_mem_nil
    | settled => exact absurd hmem List.not_mem_nil
    | looked hasked found result =>
      obtain rfl := List.mem_singleton.mp hmem
      have hkept : (⟨.keep spec.image found, result⟩ : (act : Act) × act.Reply) ∈ job.talk := by simp [htalk]
      rw [h.kept_result hj hkept] at hleft
      exact ⟨job, name, spec, hj, .inl ⟨hcourse, found, rfl, hleft⟩⟩
  · rw [hcourse] at hleads
    have hforgetting := forgetting_of_leads hleads
    generalize job.talk = talk at hforgetting hmem
    generalize hleft : job.left = left at hforgetting
    cases hforgetting with
    | going hnone => exact absurd (hnone ▸ hmem) List.not_mem_nil
    | unprovided => exact absurd hmem List.not_mem_nil
    | forgot images =>
      obtain rfl := List.mem_singleton.mp hmem
      exact ⟨job, name, spec, hj, .inr ⟨hcourse, rfl, hleft⟩⟩

/-- A removal that has ended has succeeded, and has removed the text that it was given. -/
theorem Run.forgetEnds (h : Run (.ofCatalog backend catalog now stock) ms log t) (hj : t.jobs[n]? = some job)
    {name : String} {spec : Message.ImageSpec} {answer : Answer}
    (hcourse : job.course = requested name (.removeImage (some spec))) (hleft : job.left = .done answer) :
    answer = .response (.removeImage (some spec)) () ∧ deeds job.talk = [.remove spec.image] := by
  have hleads := (h.sound (Nat.zero_le n) hj).leads
  rw [hcourse, hleft] at hleads
  have hforgetting := forgetting_of_leads hleads
  generalize htalk : job.talk = talk at hforgetting ⊢
  generalize hp : Program.done answer = p at hforgetting
  cases hforgetting with
  | going hd hl => exact absurd hp.symm (hl answer)
  | unprovided =>
    obtain ⟨d, hd, -⟩ := h.views hj htalk
    cases hd
  | forgot images =>
    cases hp
    exact ⟨rfl, rfl⟩

/-- A request that only asks for the images and answers has found a provider, and answers by it. -/
theorem Run.viewEnds (h : Run (.ofCatalog backend catalog now stock) ms log t) (hj : t.jobs[n]? = some job)
    {made : Images → Answer} {answer : Answer}
    (hcourse : job.course = Program.ask .images fun
      | none => .done (.refused noImages)
      | some images => .done (made images))
    (hleft : job.left = .done answer) :
    ∃ d, Views (.ofCatalog backend catalog now stock) ms n (.directory stock d) ∧ answer = made (.directory stock d) := by
  have hleads := (h.sound (Nat.zero_le n) hj).leads
  rw [hcourse, hleft] at hleads
  obtain ⟨images, rest, htalk, hrest⟩ := Program.leads_ask_done.mp hleads
  obtain ⟨d, rfl, hviews⟩ := h.views hj htalk
  obtain ⟨-, hanswer⟩ := Program.leads_done.mp hrest
  cases hanswer
  exact ⟨d, hviews, rfl⟩

/-- Every text that has an image under it was pulled, and is one that a reference is read from. -/
theorem Run.readable (h : Run (.ofCatalog backend catalog now stock) ms log t) (hms : OnlyRequests ms) {text : String}
    {image : Record} (hholds : Holds (((Shim.ofCatalog backend catalog now stock).imaged ms).map (·.2)) text image) :
    ∃ parsed, Reference.parse text = .ok parsed := by
  obtain ⟨before, after, hhistory, -⟩ := hholds
  have hmem : Deed.pull text (.ok [image]) ∈ ((Shim.ofCatalog backend catalog now stock).imaged ms).map (·.2) :=
    hhistory ▸ List.mem_append_right _ List.mem_cons_self
  obtain ⟨⟨n, d⟩, hd, rfl⟩ := List.mem_map.mp hmem
  obtain ⟨job, name, spec, hj, ⟨hcourse, found, heq, hleft⟩ | ⟨-, heq, -⟩⟩ := h.of_deed hms hd
  · cases heq
    refine (h.pullEnds hj hcourse hleft).parsed ?_
    rw [← h.doneBy_eq rfl hj]
    exact List.ne_nil_of_mem (mem_doneBy.mpr hd)
  · cases heq

/-- What the images of a catalog come to in a run, and how the requests about them are answered. -/
structure Remembered (first : Shim Answer) (stock : Catalog) (ms : List (Move Answer)) (t : Shim Answer) : Prop where
  /-- The provider has what all that was done has left, under texts that references are read from. -/
  recalls : ∃ d, t.images = some (.directory stock d) ∧
    (Images.directory stock d).Recalls ((first.imaged ms).map (·.2)) ∧
    ∀ text ∈ d.known.keys, ∃ parsed, Reference.parse text = .ok parsed
  /-- What was done to the images was done by a request to pull or to remove an image, which has ended so. -/
  owned : ∀ {n : Nat} {d : Deed}, (n, d) ∈ first.imaged ms → ∃ job name spec, t.jobs[n]? = some job ∧
    ((job.course = requested name (.pullImage (some spec)) ∧ ∃ found, d = .pull spec.image found ∧
        job.left = .done (pullAnswer spec ((found.bind (Directory.unique spec.image)).map (·.id)))) ∨
      (job.course = requested name (.removeImage (some spec)) ∧ d = .remove spec.image ∧
        job.left = .done (.response (.removeImage (some spec)) ())))
  pulled : ∀ {n : Nat} {job : Job Answer} {name : String} {spec : Message.ImageSpec} {answer : Answer},
    t.jobs[n]? = some job → job.course = requested name (.pullImage (some spec)) → job.left = .done answer →
      PullEnds spec (searched job.talk) (doneBy n (first.imaged ms)) answer
  removed : ∀ {n : Nat} {job : Job Answer} {name : String} {spec : Message.ImageSpec} {answer : Answer},
    t.jobs[n]? = some job → job.course = requested name (.removeImage (some spec)) → job.left = .done answer →
      answer = .response (.removeImage (some spec)) () ∧ doneBy n (first.imaged ms) = [.remove spec.image]
  /-- The status of an image is as the request has found the images. -/
  status : ∀ {n : Nat} {job : Job Answer} {name : String} {spec : Message.ImageSpec} {answer : Answer},
    t.jobs[n]? = some job → job.course = requested name (.imageStatus (some spec)) → job.left = .done answer →
      ∃ i, Views first ms n i ∧ answer = .response (.imageStatus (some spec))
        ((i.status spec.image).map (Record.toMessage (some spec.image)))
  /-- So is the list of all images, or of those of a reference. -/
  listed : ∀ {n : Nat} {job : Job Answer} {name : String} {image : Option Message.ImageSpec} {answer : Answer},
    t.jobs[n]? = some job → job.course = requested name (.listImages image) → job.left = .done answer →
      ∃ i, Views first ms n i ∧ answer = .response (.listImages image) (listImages i image)
  /-- A request about images can be brought to its end from wherever it is, whatever the catalog finds. -/
  answered : ∀ {n : Nat} {job : Job Answer} {name : String} {r : Request}, t.jobs[n]? = some job →
    job.course = requested name r → r.OfImages → ∀ find, t.Concludes n job find
  /-- Whatever happens next, only a removal or a pull that finds exactly one image changes the images. -/
  steady : ∀ {m : Move Answer} {u : Shim Answer}, t.move? m = some u →
    (∀ n d text, (n, d) ∈ t.imaging m → ¬Deed.Settles d text) → u.images = t.images

theorem images_remembered (h : Run (.ofCatalog backend catalog now stock) ms log t) (hms : OnlyRequests ms) :
    Remembered (.ofCatalog backend catalog now stock) stock ms t where
  recalls := by
    obtain ⟨d, hd, hkeeps⟩ := h.directory
    refine ⟨d, hd, Images.recalls_of_keeps hkeeps, fun text htext => ?_⟩
    obtain ⟨image, himage⟩ := Table.mem_keys_iff.mp htext
    exact h.readable hms ((hkeeps text image).mp himage)
  owned hd := h.of_deed hms hd
  pulled hj hcourse hleft := h.doneBy_eq rfl hj ▸ h.pullEnds hj hcourse hleft
  removed hj hcourse hleft := h.doneBy_eq rfl hj ▸ h.forgetEnds hj hcourse hleft
  status hj hcourse hleft := by
    obtain ⟨d, hviews, hanswer⟩ := h.viewEnds hj (hcourse.trans requested_imageStatus) hleft
    exact ⟨_, hviews, hanswer⟩
  listed hj hcourse hleft := by
    obtain ⟨d, hviews, hanswer⟩ := h.viewEnds hj (hcourse.trans requested_listImages) hleft
    exact ⟨_, hviews, hanswer⟩
  answered := by
    intro n job name r hj hcourse hr find
    have hleads := (h.sound (Nat.zero_le n) hj).leads
    rw [hcourse] at hleads
    have huses := hleads.uses (requested_uses_ofImages hr)
    exact concludes_of_uses hj huses (hleads.sturdy (requested_sturdy_ofImages hr)) find
  steady hm hsettles := h.steady hm hsettles

end

/-! ### A run with pulls of every kind -/

namespace Shelf

def shelf : Catalog :=
  .simulated "aws"

def first : Shim Answer :=
  .ofCatalog "fake" none 0 shelf

def image (id : String) : Record :=
  ⟨id, ["img"], [id], 1⟩

/-- The `n`-th request is received, and goes on so often. -/
def ask (n steps : Nat) (r : Request) : List (Move Answer) :=
  .receive (requested "fake" r) :: List.replicate steps (.proceed n)

/-- The `n`-th request is a pull, of which the catalog has these images. -/
def pull (n : Nat) (reference : String) (found : List Record) : List (Move Answer) :=
  ask n 1 (.pullImage (some { image := reference })) ++ [.hear n (.found (.ok found)), .proceed n]

/-- An image is pulled with a tag and another one without; one reference has two images, and another cannot be read. -/
def fill : List (Move Answer) :=
  pull 0 "img:latest" [image "a"] ++ pull 1 "img" [image "b"] ++ pull 2 "dup:latest" [image "c", image "d"] ++
    ask 3 1 (.pullImage (some { image := "x/y/z" }))

/-- The first image is looked for, and forgotten; then it is looked for again, and all images are. -/
def use : List (Move Answer) :=
  ask 4 1 (.imageStatus (some { image := "img" })) ++ ask 5 2 (.removeImage (some { image := "img:latest" })) ++
    ask 6 1 (.imageStatus (some { image := "img" })) ++ ask 7 1 (.listImages none)

def moves : List (Move Answer) :=
  fill ++ use

def final : Shim Answer :=
  (first.played moves).2

theorem run : Run first moves (first.played moves).1 final :=
  run_played rfl

theorem onlyRequests_append {ms more : List (Move Answer)} (h : OnlyRequests ms) (h' : OnlyRequests more) :
    OnlyRequests (ms ++ more) :=
  fun course hc => (List.mem_append.mp hc).elim (h course) (h' course)

theorem onlyRequests_ask (n steps : Nat) (r : Request) : OnlyRequests (ask n steps r) := by
  intro course hc
  rcases List.mem_cons.mp hc with he | he
  · cases he
    exact .inl ⟨"fake", r, rfl⟩
  · cases List.eq_of_mem_replicate he

theorem onlyRequests_pull (n : Nat) (reference : String) (found : List Record) : OnlyRequests (pull n reference found) :=
  onlyRequests_append (onlyRequests_ask n 1 _) (by simp [OnlyRequests])

theorem onlyRequests : OnlyRequests moves :=
  onlyRequests_append
    (onlyRequests_append (onlyRequests_append (onlyRequests_append (onlyRequests_pull _ _ _) (onlyRequests_pull _ _ _))
      (onlyRequests_pull _ _ _)) (onlyRequests_ask _ _ _))
    (onlyRequests_append (onlyRequests_append (onlyRequests_append (onlyRequests_ask _ _ _) (onlyRequests_ask _ _ _))
      (onlyRequests_ask _ _ _)) (onlyRequests_ask _ _ _))

end Shelf

/-- In the tour the image that was pulled with a tag is there until it is removed; the one without a tag is in the list of
    all images, but has no status. -/
theorem images_remembered_tour :
    OnlyRequests Shelf.moves ∧ Remembered Shelf.first Shelf.shelf Shelf.moves Shelf.final ∧
      ([0, 1, 2, 3].map fun n => Shelf.final.jobs[n]?.map (·.left)) =
        [some (.done (.response (.pullImage (some { image := "img:latest" })) "a")),
          some (.done (.response (.pullImage (some { image := "img" })) "b")),
          some (.done (.refused (Failure.ambiguousImage "dup:latest" 2).status)),
          some (.done (.refused (Failure.invalidReference "x/y/z").status))] ∧
      ([4, 5, 6, 7].map fun n => Shelf.final.jobs[n]?.map (·.left)) =
        [some (.done (.response (.imageStatus (some { image := "img" }))
            (some ((Shelf.image "a").toMessage (some "img"))))),
          some (.done (.response (.removeImage (some { image := "img:latest" })) ())),
          some (.done (.response (.imageStatus (some { image := "img" })) none)),
          some (.done (.response (.listImages none) [(Shelf.image "b").toMessage none]))] :=
  ⟨Shelf.onlyRequests, images_remembered Shelf.run Shelf.onlyRequests, rfl, rfl⟩

end Shim
end PodMachines
