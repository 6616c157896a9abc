import PodMachines.Proofs.Image.History
import PodMachines.Proofs.Shim.Sight

/-! What courses do to the images in a run, and what they are replied of them. Main statements: the images are at any time
    what all that was done has made of those at the start; what was done for a job is what the job was replied to; and
    what only the service itself replies to, it replied to at a state that the run passed. -/

namespace PodMachines
open Service Image

/-- What is done to the images when this is asked. -/
def Service.Act.deed? : Act → Option Deed
  | .keep reference found => some (.pull reference found)
  | .forget reference => some (.remove reference)
  | _ => none

def Job.deed? {α : Type} (job : Job α) : Option Deed :=
  match job.left with
  | Program.ask act _ => act.deed?
  | _ => none

def deeds (talk : Program.Talk Act Act.Reply) : List Deed :=
  talk.filterMap fun x => x.1.deed?

@[simp] theorem deeds_append (talk rest : Program.Talk Act Act.Reply) : deeds (talk ++ rest) = deeds talk ++ deeds rest :=
  List.filterMap_append

def doneBy (n : Nat) (history : List (Nat × Deed)) : List Deed :=
  (history.filter fun e => e.1 = n).map (·.2)

@[simp] theorem doneBy_append (n : Nat) (history more : List (Nat × Deed)) :
    doneBy n (history ++ more) = doneBy n history ++ doneBy n more := by
  rw [doneBy, List.filter_append, List.map_append, doneBy, doneBy]

theorem mem_doneBy {n : Nat} {d : Deed} {history : List (Nat × Deed)} : d ∈ doneBy n history ↔ (n, d) ∈ history := by
  simp [doneBy]

namespace Shim
variable {α : Type} {first s t : Shim α} {m : Move α} {ms more : List (Move α)} {log : List Pods.Note} {n : Nat}
  {job : Job α}

/-- What a move does to the images, and for which job. -/
def imaging (s : Shim α) : Move α → List (Nat × Deed)
  | .proceed n => ((s.jobs[n]?.bind Job.deed?).map fun d => (n, d)).toList
  | _ => []

/-- What the moves of a run do to the images, in order. -/
def imaged (s : Shim α) : List (Move α) → List (Nat × Deed)
  | [] => []
  | m :: ms => s.imaging m ++ ((s.move? m).map fun t => t.imaged ms).getD []

theorem imaging_proceed (hj : s.jobs[n]? = some job) {act : Act} {next : act.Reply → Course α}
    (hl : job.left = Program.ask act next) : s.imaging (.proceed n) = (act.deed?.map fun d => (n, d)).toList := by
  simp only [imaging, hj, Option.bind_some, Job.deed?, hl]

/-! ### The images -/

/-- What the service itself replies does to the images what was asked. -/
theorem own_images {act : Act} {reply : act.Reply} (h : s.own act = some (reply, t)) :
    t.images = s.images.map fun i => act.deed?.toList.foldl Images.after i := by
  cases act with
  | keep reference found =>
    cases hi : s.images with
    | none =>
      simp only [own, hi] at h
      cases h
      exact hi
    | some images =>
      simp only [own, hi] at h
      cases h
      rfl
  | await inquiries =>
    rw [(own_await h).1]
    exact Option.map_id'.symm
  | bootImages | images | inquire filter ids =>
    cases h
    exact Option.map_id'.symm
  | forget reference =>
    cases h
    rfl
  | _ => cases h

theorem Goes.images (hg : s.Goes m t) :
    t.images = s.images.map fun i => ((s.imaging m).map (·.2)).foldl Images.after i := by
  have same (h : s.imaging m = []) : s.images = s.images.map fun i => ((s.imaging m).map (·.2)).foldl Images.after i := by
    rw [h]
    exact Option.map_id'.symm
  cases hg with
  | receive course => exact same rfl
  | call hj hl hc => exact same (by rw [imaging_proceed hj hl]; rfl)
  | take hj hl hc hr => exact same (by rw [imaging_proceed hj hl]; rfl)
  | @own k job act next reply u hj hl ho =>
    rw [imaging_proceed hj hl]
    refine (own_images ho).trans ?_
    cases act.deed? <;> rfl
  | @hear k word job act next reply hj hl hw =>
    rw [told, show (s.closing act).images = s.images by cases act <;> rfl]
    exact same rfl
  | seek | find | learn => exact same rfl
  | pods h => exact same rfl

theorem Run.imaged_append (h : Run s ms log t) (more : List (Move α)) :
    s.imaged (ms ++ more) = s.imaged ms ++ t.imaged more := by
  induction h generalizing more with
  | rest => rfl
  | @move ms log t u _ m hm ih =>
    have hlast : t.imaged [m] = t.imaging m := by
      simp only [imaged, hm, Option.map_some, Option.getD_some, List.append_nil]
    rw [List.append_assoc, List.singleton_append, ih, ih, hlast, List.append_assoc]
    simp only [imaged, hm, Option.map_some, Option.getD_some]

theorem Run.imaged_concat (h : Run s ms log t) {u : Shim α} (hm : t.move? m = some u) :
    s.imaged (ms ++ [m]) = s.imaged ms ++ t.imaging m := by
  rw [h.imaged_append]
  simp only [imaged, hm, Option.map_some, Option.getD_some, List.append_nil]

/-- The images after a run are what all that was done in it has made of them. -/
theorem Run.images (h : Run s ms log t) :
    t.images = s.images.map fun i => ((s.imaged ms).map (·.2)).foldl Images.after i := by
  induction h with
  | rest => exact Option.map_id'.symm
  | move h m hm ih =>
    rw [(goes_of_move hm).images, ih, h.imaged_concat hm, Option.map_map]
    simp only [List.map_append, List.foldl_append, Function.comp_def]

/-! ### Jobs -/

/-- What a move does to the images for a job is what the job is replied to. -/
theorem deeds_of_turn {job' : Job α} (h : Job.Turn s t n m job job') (hj : s.jobs[n]? = some job) :
    deeds job'.talk = deeds job.talk ++ doneBy n (s.imaging m) := by
  cases h with
  | stay hm hw =>
    have hnone : doneBy n (s.imaging m) = [] := by
      cases m with
      | proceed k =>
        have hk : k ≠ n := fun h => hm (congrArg _ h)
        simp only [imaging]
        cases s.jobs[k]?.bind Job.deed? <;> simp [doneBy, hk]
      | _ => rfl
    rw [hnone, List.append_nil]
  | call hl hc ht =>
    rw [imaging_proceed hj hl]
    exact (List.append_nil _).symm
  | take hl hc hr ht =>
    rw [imaging_proceed hj hl, Job.replied, deeds_append]
    rfl
  | @own _ act next reply u hl ho ht =>
    rw [imaging_proceed hj hl, Job.replied, deeds_append]
    cases hd : act.deed? <;> simp [PodMachines.deeds, doneBy, hd]
  | @hear _ word act next reply hl hw ht =>
    have hnone : act.deed? = none := by
      cases word <;> cases act <;> first | rfl | cases hw
    rw [Job.replied, deeds_append]
    simp [PodMachines.deeds, doneBy, hnone, imaging]

theorem Run.imaged_job (h : Run first ms log t) {e : Nat × Deed} (he : e ∈ first.imaged ms) :
    ∃ job, t.jobs[e.1]? = some job := by
  induction h with
  | rest => exact absurd he List.not_mem_nil
  | move h m hm ih =>
    rw [h.imaged_concat hm] at he
    have hjob := (List.mem_append.mp he).elim ih fun he => by
      cases m with
      | proceed k =>
        simp only [imaging, Option.mem_toList, Option.map_eq_some_iff, Option.bind_eq_some_iff] at he
        obtain ⟨d, ⟨job, hj, -⟩, rfl⟩ := he
        exact ⟨job, hj⟩
      | _ => exact absurd he List.not_mem_nil
    obtain ⟨job, hj⟩ := hjob
    obtain ⟨job', hj', -⟩ := (goes_of_move hm).kept hj
    exact ⟨job', hj'⟩

/-- What was done for a job in a run is what the job was replied to. -/
theorem Run.doneBy_eq (h : Run first ms log t) (hfirst : first.jobs = []) (hj : t.jobs[n]? = some job) :
    doneBy n (first.imaged ms) = deeds job.talk := by
  induction h generalizing job with
  | rest => simp [hfirst] at hj
  | @move ms log t u h m hm ih =>
    rw [h.imaged_concat hm, doneBy_append]
    rcases (goes_of_move hm).turn hj with ⟨course, rfl, rfl, rfl⟩ | ⟨old, hold, hturn⟩
    · -- Nothing was done yet for a job that is received now.
      have hnone : doneBy t.jobs.length (first.imaged ms) = [] := by
        refine List.eq_nil_iff_forall_not_mem.mpr fun d hd => ?_
        obtain ⟨old, hold⟩ := h.imaged_job (mem_doneBy.mp hd)
        exact absurd (List.getElem?_eq_some_iff.mp hold).1 (Nat.lt_irrefl _)
      rw [hnone]
      rfl
    · rw [ih hold, deeds_of_turn hturn hold]

/-! ### Replies of the service itself -/

/-- Whether only the service itself replies to this, and at once. -/
def Inner (act : Act) : Prop :=
  (∀ c, act ≠ .pods c) ∧ ∀ word : Word, word.reply? act = none

/-- What only the service itself replies to, it replied to a job at a state that the run passed. -/
theorem Run.replied_at (h : Run first ms log t) (hn : first.jobs.length ≤ n) (hj : t.jobs[n]? = some job)
    {talk rest : Program.Talk Act Act.Reply} {act : Act} {reply : act.Reply}
    (htalk : job.talk = talk ++ ⟨act, reply⟩ :: rest) (hact : Inner act) :
    ∃ s since old u, Passes first ms log t s since ∧ s.jobs[n]? = some old ∧ old.course = job.course ∧ old.talk = talk ∧
      s.own act = some (reply, u) := by
  induction h generalizing job rest with
  | rest => exact absurd (List.getElem?_eq_some_iff.mp hj).1 (Nat.not_lt_of_le hn)
  | @move ms log t u h m hm ih =>
    rcases (goes_of_move hm).turn hj with ⟨course, -, -, rfl⟩ | ⟨job₀, hold, hturn⟩
    · simp [Job.fresh] at htalk
    · have earlier {rest : Program.Talk Act Act.Reply} (hcourse : job₀.course = job.course)
          (htalk : job₀.talk = talk ++ ⟨act, reply⟩ :: rest) :
          ∃ s since old v, Passes first (ms ++ [m]) (log ++ t.notes m) u s since ∧ s.jobs[n]? = some old ∧
            old.course = job.course ∧ old.talk = talk ∧ s.own act = some (reply, v) := by
        obtain ⟨s, since, old, v, hp, hs, hc, ht, ho⟩ := ih hold htalk
        exact ⟨s, _, old, v, hp.move hm, hs, hc.trans hcourse, ht, ho⟩
      cases hturn with
      | stay => exact earlier rfl htalk
      | call => exact earlier rfl htalk
      | take hl hc hr ht =>
        rcases of_concat_eq htalk with ⟨-, heq⟩ | ⟨rest', htalk'⟩
        · cases heq
          exact absurd rfl (hact.1 _)
        · exact earlier rfl htalk'
      | own hl ho ht =>
        rcases of_concat_eq htalk with ⟨rfl, heq⟩ | ⟨rest', htalk'⟩
        · cases heq
          exact ⟨t, _, job₀, _, h.passes.move hm, hold, rfl, rfl, ho⟩
        · exact earlier rfl htalk'
      | @hear _ word _ _ _ hl hw ht =>
        rcases of_concat_eq htalk with ⟨-, heq⟩ | ⟨rest', htalk'⟩
        · cases heq
          cases (hact.2 word).symm.trans hw
        · exact earlier rfl htalk'

theorem Run.images_at (h : Run first ms log t) (hn : first.jobs.length ≤ n) (hj : t.jobs[n]? = some job)
    {images : Option Images} {rest : Program.Talk Act Act.Reply} (htalk : job.talk = ⟨.images, images⟩ :: rest) :
    ∃ s since old, Passes first ms log t s since ∧ s.jobs[n]? = some old ∧ old.talk = [] ∧ images = s.images := by
  have hinner : Inner .images := ⟨by simp, fun word => by cases word <;> rfl⟩
  obtain ⟨s, since, old, u, hpasses, hs, -, ht, ho⟩ := h.replied_at hn hj (htalk.trans (List.nil_append _).symm) hinner
  cases ho
  exact ⟨s, since, old, hpasses, hs, ht, rfl⟩

end Shim
end PodMachines
