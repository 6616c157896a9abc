import PodMachines.Proofs.Shim.Inquiry

/-! Lists of the containers of all sandboxes. Such a request looks which sandboxes there are, begins an inquiry for each,
    and waits until all of these are over. Main statement: it can be brought to its answer from wherever it is, whatever
    the agents answer. -/

namespace PodMachines
open Service Session

section
variable {backend : String} {filter : Option Message.ContainerFilter} {talk : Program.Talk Act Act.Reply}
  {left : Course Answer}

/-- What is left of a list of all containers when it knows what its inquiries came to. -/
def gathered (filter : Option Message.ContainerFilter) (results : List (Except Failure (List Message.Container))) :
    Course Answer :=
  .done (.response (.containers (.listContainers filter)) (results.flatMap listed))

/-- What is left of it when it has begun its inquiries. -/
def awaiting (filter : Option Message.ContainerFilter) (numbers : List Nat) : Course Answer :=
  Program.ask (.await numbers) (gathered filter)

/-- What is left of it when it knows which sandboxes there are. -/
def inquiring (filter : Option Message.ContainerFilter) (ids : List String) : Course Answer :=
  Program.ask (.inquire filter ids) (awaiting filter)

theorem requested_all (h : listedSandbox filter = none) :
    requested backend (.containers (.listContainers filter)) = Program.ask (.pods .ids) (inquiring filter) := by
  have hs : serve backend (.containers (.listContainers filter)) = _ := serveContainers_all h
  rw [requested, hs]
  rfl

/-- How far a list of all containers is, by what it was replied. -/
inductive Gathering (filter : Option Message.ContainerFilter) : Program.Talk Act Act.Reply → Course Answer → Prop
  | looks : Gathering filter [] (Program.ask (.pods .ids) (inquiring filter))
  | inquires (ids : List String) : Gathering filter [⟨.pods .ids, ids⟩] (inquiring filter ids)
  | awaits (ids : List String) (numbers : List Nat) :
      Gathering filter [⟨.pods .ids, ids⟩, ⟨.inquire filter ids, numbers⟩] (awaiting filter numbers)
  | lists (ids : List String) (numbers : List Nat) (results : List (Except Failure (List Message.Container))) :
      Gathering filter [⟨.pods .ids, ids⟩, ⟨.inquire filter ids, numbers⟩, ⟨.await numbers, results⟩]
        (gathered filter results)

theorem gathering_of_leads (hall : listedSandbox filter = none)
    (h : (requested backend (.containers (.listContainers filter))).Leads talk left) : Gathering filter talk left := by
  rw [requested_all hall] at h
  cases h with
  | rest => exact .looks
  | reply ids h =>
    cases h with
    | rest => exact .inquires ids
    | reply numbers h =>
      cases h with
      | rest => exact .awaits ids numbers
      | reply results h =>
        cases h with
        | rest => exact .lists ids numbers results

theorem Gathering.forwarded_eq (h : Gathering filter talk left) : Shim.forwarded talk = [] := by
  cases h <;> rfl

end

namespace Shim

/-- What was forwarded for a job: what it has forwarded itself, and what its inquiries have. -/
def forwards {α : Type} (s : Shim α) (job : Job α) : List Forwarded :=
  forwarded job.talk ++ job.inquiries.flatMap fun k => (s.inquiries[k]?.map fun i => forwarded i.talk).getD []

theorem mem_forwards {α : Type} {s : Shim α} {job : Job α} {f : Forwarded} : f ∈ s.forwards job ↔
    f ∈ forwarded job.talk ∨ ∃ k ∈ job.inquiries, ∃ i, s.inquiries[k]? = some i ∧ f ∈ forwarded i.talk := by
  rw [forwards, List.mem_append, List.mem_flatMap]
  refine or_congr_right (exists_congr fun k => and_congr_right fun _ => ?_)
  cases s.inquiries[k]? <;> simp

section
variable {backend : String} {catalog : Option String} {now : Nat} {images : Option Images} {s : Shim Answer}
  {ms : List (Move Answer)} {log : List Pods.Note} {n : Nat} {job : Job Answer} {filter : Option Message.ContainerFilter}
  (agent : Connection → (request : Agent.Request) → Except Failure request.Answer)

/-- A job that waits for inquiries of its own can be told what they come to. -/
theorem Run.gathers_awaiting (h : Run (.new backend catalog now images) ms log s) (hj : s.jobs[n]? = some job)
    {ids : List String} {numbers : List Nat} (hmem : (⟨.inquire filter ids, numbers⟩ : (act : Act) × act.Reply) ∈ job.talk)
    (hl : job.left = awaiting filter numbers) :
    ∃ more after t job' containers, Run s more after t ∧ t.jobs[n]? = some job' ∧ job'.course = job.course ∧
      job'.left = Program.done (.response (.containers (.listContainers filter)) containers) ∧
      ∀ f ∈ t.forwards job', f ∈ s.forwards job ∨ f.answer = agent f.connection f.request := by
  obtain ⟨-, hbegun⟩ := (h.accounted (Nat.zero_le n) hj).begun hmem
  have hnumbers : ∀ k ∈ numbers, ∃ i, s.inquiries[k]? = some i := fun k hk => by
    obtain ⟨m, hm, rfl⟩ := List.getElem_of_mem hk
    obtain ⟨i, hi, -⟩ := hbegun.get (hbegun.length_eq ▸ hm) hm
    exact ⟨i, hi⟩
  obtain ⟨t, hb, hover⟩ := h.inquiries_end hnumbers agent
  obtain ⟨more, after, hrun⟩ := hb.run
  obtain ⟨results, hresults⟩ : ∃ results, (numbers.mapM fun k => t.inquiries[k]?.bind Job.result?) = some results := by
    refine exists_mapM_eq_some fun k hk => ?_
    obtain ⟨i, result, hi, hdone⟩ := hover k hk
    exact ⟨result, Option.bind_eq_some_iff.mpr ⟨i, hi, Job.result?_eq_some.mpr hdone⟩⟩
  have hj' : t.jobs[n]? = some job := hb.jobs ▸ hj
  have hm : t.move? (.proceed n) = some (t.told n job (.await numbers) results (gathered filter)) := by
    simp only [move?, hj', Option.bind_some, proceed?, hl, awaiting, own, hresults, Option.map_some]
  have hsame := @Job.inquiries_replied _ job (.await numbers) results (gathered filter) (by simp)
  refine ⟨_, _, _, _, results.flatMap listed, hrun.move _ hm,
    List.getElem?_set_self (List.getElem?_eq_some_iff.mp hj').1, rfl, rfl, fun f hf => ?_⟩
  obtain hf | ⟨k, hk, i, hi, hf⟩ := mem_forwards.mp hf
  · rw [Job.replied, forwarded_append] at hf
    exact .inl (mem_forwards.mpr (.inl ((List.mem_append.mp hf).resolve_right (by simp [forwarded]))))
  · obtain ⟨i', hi', hanswers⟩ := hb.answers hi
    exact (hanswers f hf).imp_left fun hf => mem_forwards.mpr (.inr ⟨k, hsame ▸ hk, i', hi', hf⟩)

/-- A job that knows which sandboxes there are can be told what the inquiries come to that it begins for them. -/
theorem Run.gathers_inquiring (h : Run (.new backend catalog now images) ms log s) (hj : s.jobs[n]? = some job)
    {ids : List String} (htalk : job.talk = [⟨.pods .ids, ids⟩]) (hl : job.left = inquiring filter ids) :
    ∃ more after t job' containers, Run s more after t ∧ t.jobs[n]? = some job' ∧ job'.course = job.course ∧
      job'.left = Program.done (.response (.containers (.listContainers filter)) containers) ∧
      ∀ f ∈ t.forwards job', f.answer = agent f.connection f.request := by
  obtain ⟨numbers, v, ho, hnew⟩ : ∃ (numbers : List Nat) (v : Shim Answer),
      s.own (.inquire filter ids) = some (numbers, v) ∧ ∀ k ∈ numbers, s.inquiries.length ≤ k :=
    ⟨_, _, rfl, fun k hk => (List.mem_range'_1.mp hk).1⟩
  have hm : s.move? (.proceed n) = some (v.told n job (.inquire filter ids) numbers (awaiting filter)) := by
    simp only [move?, hj, Option.bind_some, proceed?, hl, inquiring, ho, Option.map_some]
  have hj' : (v.told n job (.inquire filter ids) numbers (awaiting filter)).jobs[n]? =
      some (job.replied (.inquire filter ids) numbers (awaiting filter)) :=
    List.getElem?_set_self (own_jobs ho ▸ (List.getElem?_eq_some_iff.mp hj).1)
  obtain ⟨more, after, t, job', containers, hrun, ht, hcourse, hleft, hanswers⟩ :=
    (h.move _ hm).gathers_awaiting agent hj' (List.mem_append_right _ (List.mem_singleton_self _)) rfl
  refine ⟨_, _, t, job', containers, (Run.rest.move _ hm).trans hrun, ht, hcourse, hleft, fun f hf => ?_⟩
  -- The inquiries that it has begun have forwarded nothing yet.
  refine (hanswers f hf).resolve_left fun hold => ?_
  obtain hown | ⟨k, hk, i, hi, hown⟩ := mem_forwards.mp hold
  · simp [Job.replied, htalk, forwarded] at hown
  · obtain ⟨-, _, _, rfl⟩ | ⟨old, hold, -⟩ := (goes_of_move hm).inquiry_before hi
    · exact absurd hown List.not_mem_nil
    · rw [Job.inquiries_inquire, Job.inquiries, htalk] at hk
      exact absurd (List.getElem?_eq_some_iff.mp hold).1 (Nat.not_lt_of_le (hnew k hk))

/-- A list of all containers can be brought to its answer from wherever it is, whatever the agents answer. -/
theorem Run.gathers (h : Run (.new backend catalog now images) ms log s) (hj : s.jobs[n]? = some job)
    (hall : listedSandbox filter = none) {name : String}
    (hcourse : job.course = requested name (.containers (.listContainers filter))) :
    ∃ more after t job' containers, Run s more after t ∧ t.jobs[n]? = some job' ∧ job'.course = job.course ∧
      job'.left = Program.done (.response (.containers (.listContainers filter)) containers) ∧
      ∀ f ∈ t.forwards job', f ∈ s.forwards job ∨ f.answer = agent f.connection f.request := by
  have hleads := (h.sound (Nat.zero_le n) hj).leads
  rw [hcourse] at hleads
  have hgathering := gathering_of_leads hall hleads
  generalize htalk : job.talk = talk at hgathering
  generalize hl : job.left = left at hgathering
  cases hgathering with
  | lists ids numbers results => exact ⟨[], [], s, job, _, .rest, hj, rfl, hl, fun _ => .inl⟩
  | awaits ids numbers =>
    have hmem : (⟨.inquire filter ids, numbers⟩ : (act : Act) × act.Reply) ∈ job.talk := by
      rw [htalk]
      exact List.mem_cons_of_mem _ List.mem_cons_self
    exact h.gathers_awaiting agent hj hmem hl
  | inquires ids =>
    obtain ⟨more, after, t, job', containers, hrun, ht, hkept, hleft, hanswers⟩ := h.gathers_inquiring agent hj htalk hl
    exact ⟨more, after, t, job', containers, hrun, ht, hkept, hleft, fun f hf => .inr (hanswers f hf)⟩
  | looks =>
    obtain ⟨mid, noted, v, ids, hv, hjv⟩ := h.told_of_glances hj hl (.inr (.inr rfl))
    obtain ⟨more, after, t, job', containers, hrun, ht, hkept, hleft, hanswers⟩ :=
      (h.trans hv).gathers_inquiring agent hjv (congrArg (· ++ [_]) htalk) rfl
    exact ⟨_, _, t, job', containers, hv.trans hrun, ht, hkept, hleft, fun f hf => .inr (hanswers f hf)⟩

end

end Shim
end PodMachines
