import PodMachines.Doc.Standard
import PodMachines.Proofs.Backend.Booted
import PodMachines.Proofs.Pods.Boot
import PodMachines.Proofs.Shim.Remembering

/-! Which images are booted in a run where providers of images are offered to the pods and sandboxes are asked for. Main
    statement: a machine is asked for with the image that its sandbox names exactly when a provider of the backend's own
    catalog was offered before, and the command that makes it names that image, else the configured one. -/

namespace PodMachines
open Service Session

/-! ### Providers that are offered -/

/-- Whether a provider has the images of a backend's catalog. -/
def Images.Of (i : Images) (catalog : Option String) : Prop :=
  ∃ stock known, i = .directory stock known ∧ catalog = some stock.name

theorem Images.integrates_iff {i : Images} {catalog : Option String} : i.integrates catalog = true ↔ i.Of catalog := by
  cases i with
  | directory stock known =>
    constructor
    · intro h
      exact ⟨stock, known, rfl, of_decide_eq_true h⟩
    · rintro ⟨_, _, heq, h⟩
      cases heq
      exact decide_eq_true h
  | prefixing start => exact iff_of_false nofun (by rintro ⟨_, _, heq, -⟩; cases heq)

def Boots (talk : Program.Talk Act Act.Reply) : Prop :=
  ⟨.bootImages, ()⟩ ∈ talk

/-- How far the offer of a provider has come with a talk, and what is left of it. -/
inductive Integrating (i : Images) (catalog : Option String) : Program.Talk Act Act.Reply → Course Answer → Prop
  | going {left : Course Answer} (hl : ∀ a, left ≠ .done a) : Integrating i catalog [] left
  | booted (h : i.Of catalog) : Integrating i catalog [⟨.bootImages, ()⟩] (.done (.integrated (some true)))
  | unfit (h : ¬i.Of catalog) : Integrating i catalog [] (.done (.integrated (some false)))

section
variable {catalog : Option String} {i : Images} {talk : Program.Talk Act Act.Reply} {left : Course Answer}

theorem integrating_of_leads (h : (integrating i catalog).Leads talk left) : Integrating i catalog talk left := by
  unfold integrating integrate at h
  cases hi : i.integrates catalog with
  | true =>
    simp only [hi, if_true] at h
    rcases h with _ | ⟨reply, h⟩
    · exact .going nofun
    · obtain ⟨rfl, rfl⟩ := Program.leads_done.mp h
      exact .booted (Images.integrates_iff.mp hi)
  | false =>
    simp only [hi, Bool.false_eq_true, if_false] at h
    obtain ⟨rfl, rfl⟩ := Program.leads_done.mp h
    exact .unfit fun hof => Bool.false_ne_true (hi.symm.trans (Images.integrates_iff.mpr hof))

/-- Whether a job offers a provider: this very one, or the service's own, which was this one. -/
def Offers (catalog : Option String) (job : Job Answer) (i : Images) : Prop :=
  job.course = integrating i catalog ∨ job.course = offering catalog ∧ ∃ rest, job.talk = ⟨.images, some i⟩ :: rest

theorem Offers.leads {job : Job Answer} (h : Offers catalog job i) (hleads : job.course.Leads job.talk job.left) :
    ∃ talk, Integrating i catalog talk job.left ∧ (Boots job.talk ↔ Boots talk) := by
  rcases h with hcourse | ⟨hcourse, rest, htalk⟩
  · rw [hcourse] at hleads
    exact ⟨job.talk, integrating_of_leads hleads, Iff.rfl⟩
  · rw [hcourse, htalk] at hleads
    rcases hleads with _ | ⟨reply, h⟩
    refine ⟨rest, integrating_of_leads h, ?_⟩
    rw [htalk, Boots, List.mem_cons]
    exact or_iff_right nofun

theorem integrating_sturdy : (integrating i catalog).Sturdy := by
  refine Program.Sturdy.bind ?_ fun _ => trivial
  unfold integrate
  split
  · exact fun _ => trivial
  · trivial

theorem integrating_uses : (integrating i catalog).Uses Act.OfImages :=
  (integrate_uses i (.inr (.inl rfl))).bind fun _ => trivial

theorem Offers.uses {job : Job Answer} (h : Offers catalog job i) : job.course.Uses Act.OfImages := by
  rcases h with hcourse | ⟨hcourse, -⟩
  · exact hcourse ▸ integrating_uses
  · rw [hcourse]
    refine ⟨.inl rfl, fun images => ?_⟩
    cases images with
    | none => trivial
    | some i => exact integrating_uses

theorem Offers.sturdy {job : Job Answer} (h : Offers catalog job i) : job.course.Sturdy := by
  rcases h with hcourse | ⟨hcourse, -⟩
  · exact hcourse ▸ integrating_sturdy
  · rw [hcourse]
    intro images
    cases images with
    | none => trivial
    | some i => exact integrating_sturdy

/-! ### What lets the pods boot images -/

def Service.Act.NoBoot (act : Act) : Prop :=
  act ≠ .bootImages

theorem requested_noBoot {name : String} (r : Request) : (requested name r).Uses Act.NoBoot := by
  refine Program.Uses.bind ?_ fun _ => trivial
  refine serve_uses r ?_ (fun _ => ⟨?_, fun _ => ?_, fun _ _ => ?_, fun _ _ => ?_, fun _ => ?_⟩)
    (fun _ _ => ⟨fun _ => ?_, fun _ => ?_⟩) fun _ _ => ?_
  all_goals simp [Act.NoBoot]

/-- Among what can be done in a session, only an offer lets the pods boot images. -/
theorem noBoot_or_offering {x : Session} {action : Action} {course : Course Answer} (h : action.course x = some course) :
    course.Uses Act.NoBoot ∨ course = offering x.pods.catalog := by
  rcases course_cases h with ⟨name, r, rfl⟩ | hoffer | haside
  · exact .inl (requested_noBoot r)
  · exact .inr hoffer
  · exact .inl (haside.mono fun _ hact => hact.2)

end

/-! ### Requests for sandboxes -/

namespace Shim

section
variable {α : Type} {first s t : Shim α} {m : Move α} {ms : List (Move α)} {log since : List Pods.Note}

/-- Whether a move lets the pods boot images, of their own accord or for a job that asks for it. -/
def Enables (s : Shim α) (m : Move α) : Prop :=
  m = .pods .enableImageBoot ∨
    ∃ n job next, m = .proceed n ∧ s.jobs[n]? = some job ∧ job.left = Program.ask .bootImages next

theorem not_enables {n : Nat} {job : Job α} {act : Act} {next : act.Reply → Course α} (hj : s.jobs[n]? = some job)
    (hl : job.left = Program.ask act next) (hact : act ≠ .bootImages) : ¬s.Enables (.proceed n) := by
  rintro (h | ⟨n', job', next', h, hj', hl'⟩)
  · cases h
  · cases h
    cases hj.symm.trans hj'
    cases hl.symm.trans hl'
    exact hact rfl

theorem Goes.imageBoot (hg : s.Goes m t) :
    t.pods.store.imageBoot = true ↔ s.pods.store.imageBoot = true ∨ s.Enables m := by
  cases hg with
  | receive course => exact (or_iff_left (by rintro (h | ⟨_, _, _, h, -⟩) <;> cases h)).symm
  | call hj hl hc => exact (or_iff_left (not_enables hj hl (by simp))).symm
  | take hj hl hc hr => exact (or_iff_left (not_enables hj hl (by simp))).symm
  | @own n job act next reply u hj hl ho =>
    rw [told_pods]
    by_cases hact : act = .bootImages
    · subst hact
      cases ho
      exact iff_of_true rfl (.inr (.inr ⟨n, job, next, rfl, hj, hl⟩))
    · rw [(own_pods ho).resolve_right fun h => hact h.1]
      exact (or_iff_left (not_enables hj hl hact)).symm
  | hear hj hl hw =>
    rw [told_pods, closing_pods]
    exact (or_iff_left (by rintro (h | ⟨_, _, _, h, -⟩) <;> cases h)).symm
  | seek | find | learn => exact (or_iff_left (by rintro (h | ⟨_, _, _, h, -⟩) <;> cases h)).symm
  | @pods pm _ h =>
    refine (Pods.System.imageBoot_of_move h).trans (or_congr_right ?_)
    constructor
    · rintro rfl
      exact .inl rfl
    · rintro (h | ⟨_, _, _, h, -⟩)
      · cases h
        rfl
      · cases h

theorem Run.imageBoot (h : Run first ms log t) (hb : first.pods.store.imageBoot = true) :
    t.pods.store.imageBoot = true :=
  Run.induct (P := fun _ _ t => t.pods.store.imageBoot = true) hb (fun _ ih hg => hg.imageBoot.mpr (.inl ih)) h

theorem Run.noted (h : Run first ms log t) {e : Pods.Note} (he : e ∈ log) :
    ∃ s since m u, Passes first ms log t s since ∧ s.move? m = some u ∧ e ∈ s.notes m := by
  induction h with
  | rest => cases he
  | @move ms log t u h m hm ih =>
    rcases List.mem_append.mp he with he | he
    · obtain ⟨s, since, m', v, hpasses, hm', he'⟩ := ih he
      exact ⟨s, _, m', v, hpasses.move hm, hm', he'⟩
    · exact ⟨t, _, m, u, h.passes.move hm, hm, he⟩

end

section
variable {first s t : Shim Answer} {m : Move Answer} {ms : List (Move Answer)} {log since : List Pods.Note} {n : Nat}
  {job : Job Answer}

/-- Whether nothing lets the pods boot images but offers of providers. -/
def OnlyOffers (catalog : Option String) (ms : List (Move Answer)) : Prop :=
  .pods .enableImageBoot ∉ ms ∧ ∀ course, .receive course ∈ ms →
    course.Uses Act.NoBoot ∨ (∃ i, course = integrating i catalog) ∨ course = offering catalog

theorem OnlyOffers.of_append {catalog : Option String} {more : List (Move Answer)} (h : OnlyOffers catalog (ms ++ more)) :
    OnlyOffers catalog ms :=
  ⟨fun hmem => h.1 (List.mem_append_left _ hmem), fun course hc => h.2 course (List.mem_append_left _ hc)⟩

end

section
variable {backend : String} {catalog : Option String} {now : Nat} {images : Option Images} {s t : Shim Answer}
  {ms : List (Move Answer)} {log since : List Pods.Note} {n : Nat} {job : Job Answer} {i : Images}

theorem Run.offer (h : Run (.new backend catalog now images) ms log t) (hj : t.jobs[n]? = some job)
    (ho : Offers catalog job i) : ∃ talk, Integrating i catalog talk job.left ∧ (Boots job.talk ↔ Boots talk) :=
  ho.leads (h.sound (Nat.zero_le n) hj).leads

end

/-! ### A run with sandboxes before and after an offer -/

namespace Offered

def first : Shim Answer :=
  .new "fake" (some "aws") 0 (some (.prefixing "my/"))

/-- The provider of a catalog is offered, as the `n`-th course, which goes on so often. -/
def offer (n steps : Nat) (name : String) : List (Move Answer) :=
  .receive (integrating (.ofCatalog (.simulated name)) (some "aws")) :: List.replicate steps (.proceed n)

/-- The `n`-th course is a request for a sandbox with an image, whose call, the `k`-th, goes on to ask for a machine. -/
def sandbox (n k : Nat) (image : String) : List (Move Answer) :=
  .receive (requested "fake" (.runPod (some { annotations := Table.empty.insert bootImageAnnotation image }) "")) ::
    [.proceed n, .hear n (.suffix 0), .proceed n, .pods (.advance ⟨k, 0⟩)]

def moves : List (Move Answer) :=
  offer 0 0 "gcp" ++ sandbox 1 0 "x" ++ offer 2 1 "aws" ++ sandbox 3 1 "x" ++ sandbox 4 2 ""

def log : List Pods.Note :=
  (first.played moves).1

def final : Shim Answer :=
  (first.played moves).2

theorem run : Run first moves log final :=
  run_played rfl

def asked (log : List Pods.Note) : List (Option String) :=
  log.filterMap fun e =>
    match e.deed with
    | .asks (.backend (.provision vm)) => some vm.image
    | _ => none

end Offered

end Shim
end PodMachines
