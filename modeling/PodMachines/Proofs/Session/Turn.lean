import PodMachines.Proofs.Session.Task
import PodMachines.Proofs.Shim.Teardown
import PodMachines.Session.Launch

/-! Steps of a session. Main statement: every state that a session comes to is one that a run of the service with those
    who work for it comes to, and what its steps answer is what the requests have come to in that run. So what holds
    of every such run holds of sessions. -/

namespace PodMachines
open Service

namespace Session
variable {α : Type} {x y z : Session} {s t u : Rig α} {n base count : Nat}

/-! ### Schedules -/

/-- The tasks of a schedule are so many jobs of the service, the first one after those before. -/
structure Schedule.Fits (z : Schedule α) (base count : Nat) (s : Rig α) : Prop where
  models : z.session.Models s
  length : z.tasks.length = count
  tasks : ∀ {i : Nat} {task : Task α}, z.tasks[i]? = some task → task.Matches s (base + i)

namespace Schedule
variable {z : Schedule α}

theorem take_eq {i : Nat} {task : Task α} (h : z.tasks[i]? = some task) :
    (z.take i).session = (task.turn z.session).2 ∧ (z.take i).tasks = z.tasks.set i (task.turn z.session).1 := by
  unfold take
  rw [h]
  dsimp only
  split <;> exact ⟨rfl, rfl⟩

/-- The turn of a task is a run, which the others are left alone by. -/
theorem Fits.take_run (h : z.Fits base count s) (i : Nat) :
    ∃ log t, Rig.Run s log t ∧ (z.take i).Fits base count t := by
  cases hi : z.tasks[i]? with
  | none =>
    have heq : z.take i = z := by rw [take, hi]
    rw [heq]
    exact ⟨[], s, .rest, h⟩
  | some task =>
    obtain ⟨t, ht, hmatches⟩ := Task.turn_run h.models (h.tasks hi)
    obtain ⟨log, hrun⟩ := ht.run
    obtain ⟨hsession, htasks⟩ := take_eq hi
    refine ⟨log, t, hrun, hsession ▸ ht.models, by rw [htasks, List.length_set, h.length], fun {k other} hk => ?_⟩
    rw [htasks] at hk
    obtain ⟨rfl, rfl⟩ | ⟨hne, hk⟩ := Pods.of_getElem?_set hk
    · exact hmatches
    · exact (h.tasks hk).leaves h.models.reached ht.leaves (by omega)

theorem Fits.moveTo_run (h : z.Fits base count s) (time : Nat) :
    ∃ log t, Rig.Run s log t ∧ (z.moveTo time).Fits base count t := by
  obtain ⟨log, t, hrun, hm, hjobs, -, herrands⟩ := h.models.pods_run (m := .pass (time - z.session.now)) rfl rfl
  refine ⟨log, t, hrun, hm, h.length, fun {i task} hi => ?_⟩
  exact (h.tasks hi).leaves (k := base + i + 1) h.models.reached (.of_work hrun hjobs (.of_eq herrands)) (by omega)

theorem Fits.run_run (most : Nat) (h : z.Fits base count s) :
    ∃ log t, Rig.Run s log t ∧ (z.run most).Fits base count t := by
  induction most generalizing z s with
  | zero => exact ⟨[], s, .rest, h⟩
  | succ most ih =>
    -- What comes after the first turn.
    have later {z' : Schedule α} {log : List Pods.Note} {t : Rig α} (hrun : Rig.Run s log t)
        (hfits : z'.Fits base count t) : ∃ log u, Rig.Run s log u ∧ (z'.run most).Fits base count u := by
      obtain ⟨more, u, hmore, hu⟩ := ih hfits
      exact ⟨_, u, hrun.trans hmore, hu⟩
    unfold Schedule.run
    split
    · rename_i i rest _
      obtain ⟨log, t, hrun, ht⟩ := Fits.take_run (z := { z with ready := rest }) ⟨h.models, h.length, h.tasks⟩ i
      exact later hrun ht
    · split
      · exact later .rest ⟨h.models, h.length, h.tasks⟩
      · split
        · rename_i time _
          obtain ⟨log, t, hrun, ht⟩ := h.moveTo_run time
          exact later hrun ht
        · exact ⟨[], s, .rest, h⟩

theorem ended_of_answers {answers : List α} (h : z.answers = .ok answers) : z.tasks = answers.map .ended := by
  unfold Schedule.answers at h
  generalize z.tasks = tasks at h
  induction tasks generalizing answers with
  | nil =>
    cases h
    rfl
  | cons task tasks ih =>
    rw [List.mapM_cons] at h
    cases task with
    | ended answer =>
      cases hrest : tasks.mapM answer? with
      | error why =>
        rw [hrest] at h
        cases h
      | ok rest =>
        rw [hrest] at h
        cases h
        rw [ih hrest]
        rfl
    | _ => cases h

end Schedule

/-! ### Courses that start together -/

theorem Models.receive_run (hm : x.Models s) (courses : List (Course α)) :
    ∃ log t, Rig.Run s log t ∧ x.Models t ∧ t.shim.jobs = s.shim.jobs ++ courses.map Job.fresh ∧
      t.errands = s.errands := by
  induction courses generalizing s with
  | nil => exact ⟨[], s, .rest, hm, (List.append_nil _).symm, rfl⟩
  | cons course courses ih =>
    obtain ⟨log, hrun, hmt⟩ := hm.shim_run (y := x) (m := .receive course) rfl rfl rfl rfl hm.pods hm.images
      hm.inquiries
    obtain ⟨more, t, hmore, ht, hjobs, herrands⟩ := ih hmt
    exact ⟨_, t, hrun.trans hmore, ht, hjobs.trans (List.append_assoc ..), herrands⟩

theorem Models.idle (hm : x.Models s) (hn : s.shim.jobs.length ≤ n) : s.busy (.inr n) = false := by
  obtain ⟨backend, connector, now, images, log, hrun⟩ := hm.reached
  refine Rig.busy_eq_false.mpr fun e he _ hgiver => ?_
  cases horder : e.order with
  | strand me request =>
    rw [horder] at hgiver
    cases hgiver
  | search k reference =>
    rw [horder] at hgiver
    cases hgiver
    obtain ⟨job, hj, -⟩ := hrun.searched e he n reference horder
    exact absurd (List.getElem?_eq_some_iff.mp hj).1 (Nat.not_lt_of_le hn)

/-- What courses that start together answer is what they have come to in a run. -/
theorem Models.together_run (hm : x.Models s) {courses : List (Course α)} {answers : List α}
    (h : x.together courses = .ok (answers, y)) :
    ∃ log t, Rig.Run s log t ∧ y.Models t ∧ ∀ {i : Nat} {course : Course α}, courses[i]? = some course →
      ∃ job answer, answers[i]? = some answer ∧ t.shim.jobs[s.shim.jobs.length + i]? = some job ∧
        job.course = course ∧ job.left = .done answer := by
  unfold together at h
  generalize patience = most at h
  obtain ⟨log, t, hrun, hmt, hjobs, herrands⟩ := hm.receive_run courses
  have job {i : Nat} {course : Course α} (hi : courses[i]? = some course) :
      t.shim.jobs[s.shim.jobs.length + i]? = some (.fresh course) := by
    rw [hjobs, List.getElem?_append_right (Nat.le_add_right ..), Nat.add_sub_cancel_left, List.getElem?_map, hi]
    rfl
  have hfits : (Schedule.ofCourses x courses).Fits s.shim.jobs.length courses.length t := by
    refine ⟨hmt, List.length_map _, fun {i task} hi => ?_⟩
    obtain ⟨course, hcourse, rfl⟩ := Option.map_eq_some_iff.mp ((List.getElem?_map ..).symm.trans hi)
    refine ⟨⟨_, job hcourse, rfl, rfl⟩, ?_⟩
    have hidle := hm.idle (n := s.shim.jobs.length + i) (Nat.le_add_right ..)
    rw [Rig.busy, herrands]
    exact hidle
  obtain ⟨more, u, hmore, hu⟩ := hfits.run_run most
  generalize (Schedule.ofCourses x courses).run most = done at h hu
  dsimp only at h
  cases hanswers : done.answers with
  | error why =>
    rw [hanswers] at h
    cases h
  | ok got =>
    rw [hanswers] at h
    cases h
    refine ⟨_, u, hrun.trans hmore, hu.models, fun {i course} hi => ?_⟩
    have hended := Schedule.ended_of_answers hanswers
    have hlt : i < answers.length := by
      have hlength := hu.length
      rw [hended, List.length_map] at hlength
      exact hlength ▸ (List.getElem?_eq_some_iff.mp hi).1
    have htask : done.tasks[i]? = some (.ended answers[i]) := by
      rw [hended, List.getElem?_map, List.getElem?_eq_getElem hlt]
      rfl
    obtain ⟨⟨new, hnew, hleft, -⟩, -⟩ := hu.tasks htask
    obtain ⟨ms, hms⟩ := hmore.shim
    obtain ⟨kept, hkept, hcourse⟩ := hms.kept (job hi)
    obtain rfl := Option.some.inj (hkept.symm.trans hnew)
    exact ⟨kept, _, List.getElem?_eq_getElem hlt, hkept, hcourse, hleft⟩

/-! ### Steps -/

/-- What only the outside or the session's own notes have changed in is in the same state. -/
theorem Models.of_eq (hm : x.Models s) (hbackend : y.backend = x.backend) (hconnector : y.connector = x.connector)
    (hpods : y.pods = x.pods) (himages : y.images = x.images) (hinquiries : y.inquiries = x.inquiries) : y.Models s :=
  ⟨hm.backend.trans hbackend.symm, hm.connector.trans hconnector.symm, hm.pods.trans hpods.symm,
    hm.images.trans himages.symm, hm.inquiries.trans hinquiries.symm, hm.reached⟩

/-- An action that takes no time is a run, or changes nothing for the service. -/
theorem Models.direct_run (hm : x.Models s) {action : Action} {answer : Answer}
    (h : action.direct x = some (answer, y)) :
    ∃ log t, Rig.Run s log t ∧ y.Models t ∧ t.shim.jobs = s.shim.jobs ∧ y.pods.backend = x.pods.backend := by
  have same (h : y.Models s) (hbackend : y.pods.backend = x.pods.backend) :
      ∃ log t, Rig.Run s log t ∧ y.Models t ∧ t.shim.jobs = s.shim.jobs ∧ y.pods.backend = x.pods.backend :=
    ⟨[], s, .rest, h, rfl, hbackend⟩
  cases action with
  | integration | inspect =>
    cases h
    exact same hm rfl
  | machineState | switch | agentRefuses | agentLists | plan =>
    cases h
    exact same (hm.of_eq rfl rfl rfl rfl rfl) rfl
  | hold id =>
    have hheld : x.holdAgent id = (answer, y) := Option.some.inj h
    unfold holdAgent at hheld
    split at hheld
    · cases hheld
      exact same (hm.of_eq rfl rfl rfl rfl rfl) rfl
    · cases hheld
      exact same hm rfl
  | enableImageBoot =>
    obtain ⟨-, hy⟩ := Prod.mk.inj (Option.some.inj h)
    split at hy
    · subst hy
      obtain ⟨log, t, hrun, hmt, hjobs, -⟩ := hm.pods_run (m := .enableImageBoot) rfl rfl
      exact ⟨log, t, hrun, hmt, hjobs, rfl⟩
    · subst hy
      exact same hm rfl
  | advance milliseconds =>
    cases h
    obtain ⟨log, t, hrun, hmt, hjobs, -⟩ := hm.pods_run (m := .pass milliseconds) rfl rfl
    exact ⟨log, t, hrun, hmt, hjobs, rfl⟩
  | _ => cases h

/-- The actions of a step begin with a run; a request among them has its course. -/
theorem Models.start_run (hm : x.Models s) {actions : List Action} {courses : List (Course Answer)}
    (h : x.start actions = .ok (courses, y)) :
    ∃ log t, Rig.Run s log t ∧ y.Models t ∧ t.shim.jobs = s.shim.jobs ∧
      ∀ {i : Nat} {r : Request}, actions[i]? = some (.request r) →
        courses[i]? = some (requested x.pods.backend r) := by
  induction actions generalizing x s courses with
  | nil =>
    cases h
    exact ⟨[], s, .rest, hm, rfl, nofun⟩
  | cons action actions ih =>
    rw [Session.start] at h
    split at h
    · rename_i course hcourse
      cases hrest : x.start actions with
      | error why =>
        rw [hrest] at h
        cases h
      | ok rest =>
        obtain ⟨rest, z⟩ := rest
        rw [hrest] at h
        cases h
        obtain ⟨log, t, hrun, hmt, hjobs, hrequests⟩ := ih hm hrest
        refine ⟨log, t, hrun, hmt, hjobs, fun {i r} hi => ?_⟩
        cases i with
        | zero =>
          cases hi
          rw [course_request] at hcourse
          exact hcourse.symm
        | succ i => exact hrequests hi
    · rename_i hcourse
      split at h
      · rename_i answer z hdirect
        obtain ⟨log, t, hrun, hmt, hjobs, hbackend⟩ := hm.direct_run hdirect
        cases hrest : z.start actions with
        | error why =>
          rw [hrest] at h
          cases h
        | ok rest =>
          obtain ⟨rest, z'⟩ := rest
          rw [hrest] at h
          cases h
          obtain ⟨more, u, hmore, hmu, hjobs', hrequests⟩ := ih hmt hrest
          refine ⟨_, u, hrun.trans hmore, hmu, hjobs'.trans hjobs, fun {i r} hi => ?_⟩
          cases i with
          | zero =>
            cases hi
            rw [course_request] at hcourse
            cases hcourse
          | succ i => exact hbackend ▸ hrequests hi
      · cases h

/-- Actions together are a run, and what a request among them answers is what it has come to. -/
theorem Models.perform_run {s : Rig Answer} (hm : x.Models s) {actions : List Action} {answers : List Answer}
    (h : x.perform actions = .ok (answers, y)) :
    ∃ log t, Rig.Run s log t ∧ y.Models t ∧ ∀ {i : Nat} {r : Request}, actions[i]? = some (.request r) →
      ∃ job answer, answers[i]? = some answer ∧ t.shim.jobs[s.shim.jobs.length + i]? = some job ∧
        job.course = requested x.pods.backend r ∧ job.left = .done answer := by
  unfold perform at h
  cases hstart : x.start actions with
  | error why =>
    rw [hstart] at h
    cases h
  | ok started =>
    obtain ⟨courses, z⟩ := started
    rw [hstart] at h
    obtain ⟨log, t, hrun, hmt, hjobs, hrequests⟩ := hm.start_run hstart
    cases htogether : z.together courses with
    | error why =>
      have h : (z.together courses).bind _ = _ := h
      rw [htogether] at h
      cases h
    | ok done =>
      obtain ⟨got, z'⟩ := done
      have h : (z.together courses).bind _ = _ := h
      rw [htogether] at h
      cases h
      obtain ⟨more, u, hmore, hmu, hends⟩ := hmt.together_run htogether
      refine ⟨_, u, hrun.trans hmore, hmu.of_eq rfl rfl rfl rfl rfl, fun hi => ?_⟩
      obtain ⟨job, answer, hanswer, hj, hcourse, hleft⟩ := hends (hrequests hi)
      exact ⟨job, answer, hanswer, hjobs ▸ hj, hcourse, hleft⟩

/-- What a step answers to its requests. -/
def Step.Answers : Step → Answer → Request → Answer → Prop
  | .one action, all, r, answer => action = .request r ∧ all = answer
  | .together actions, all, r, answer =>
    ∃ (i : Nat) (answers : List Answer), all = .several answers ∧ actions[i]? = some (.request r) ∧
      answers[i]? = some answer

/-- A step is a run, and what it answers to a request is what the request has come to. -/
theorem Models.step_run {s : Rig Answer} (hm : x.Models s) {step : Step} {all : Answer}
    (h : x.step step = .ok (all, y)) :
    ∃ log t, Rig.Run s log t ∧ y.Models t ∧ ∀ {r : Request} {answer : Answer}, step.Answers all r answer →
      ∃ job ∈ t.shim.jobs, job.course = requested x.pods.backend r ∧ job.left = .done answer := by
  cases step with
  | one action =>
    cases hperform : x.perform [action] with
    | error why =>
      have h : (x.perform [action]).map _ = _ := h
      rw [hperform] at h
      cases h
    | ok went =>
      obtain ⟨answers, z⟩ := went
      have h : (x.perform [action]).map _ = _ := h
      rw [hperform] at h
      cases h
      obtain ⟨log, t, hrun, hmt, hends⟩ := hm.perform_run hperform
      refine ⟨log, t, hrun, hmt, ?_⟩
      rintro r answer ⟨rfl, rfl⟩
      obtain ⟨job, answer, hanswer, hj, hcourse, hleft⟩ := hends (i := 0) rfl
      refine ⟨job, List.mem_of_getElem? hj, hcourse, ?_⟩
      rw [List.headD_eq_head?_getD, List.head?_eq_getElem?, hanswer]
      exact hleft
  | together actions =>
    cases hperform : x.perform actions with
    | error why =>
      have h : (x.perform actions).map _ = _ := h
      rw [hperform] at h
      cases h
    | ok went =>
      obtain ⟨answers, z⟩ := went
      have h : (x.perform actions).map _ = _ := h
      rw [hperform] at h
      cases h
      obtain ⟨log, t, hrun, hmt, hends⟩ := hm.perform_run hperform
      refine ⟨log, t, hrun, hmt, ?_⟩
      rintro r answer ⟨i, got, heq, hi, hanswer⟩
      cases heq
      obtain ⟨job, answer', hanswer', hj, hcourse, hleft⟩ := hends hi
      obtain rfl := Option.some.inj (hanswer.symm.trans hanswer')
      exact ⟨job, List.mem_of_getElem? hj, hcourse, hleft⟩

/-! ### Sessions -/

/-- A program that was launched is in the state of a service that is new, but for the images that it may boot. -/
theorem ofStarted_run (args : CommandLine.Args) (started : CommandLine.Started) (world : World) (now : Nat) :
    ∃ (log : List Pods.Note) (s : Rig α),
      Rig.Run (.new started.backend (CommandLine.connector args) now started.images) log s ∧
        (ofStarted args started world now).Models s := by
  let x : Session := ofStarted args { started with imageBoot := false } world now
  have hnew : x.Models (.new started.backend (CommandLine.connector args) now started.images : Rig α) :=
    ⟨rfl, rfl, rfl, rfl, rfl, _, _, _, _, [], .rest⟩
  cases hboot : started.imageBoot with
  | false =>
    refine ⟨[], _, .rest, ?_⟩
    rw [ofStarted, hboot]
    exact hnew
  | true =>
    obtain ⟨log, t, hrun, hmt, -⟩ := hnew.pods_run (m := .enableImageBoot) rfl rfl
    refine ⟨log, t, hrun, ?_⟩
    rw [ofStarted, hboot]
    exact hmt

namespace Setup

/-- Offering images to the pods is a run, or changes nothing. -/
theorem offered_run {s : Rig Answer} (hm : x.Models s) : ∃ log t, Rig.Run s log t ∧ (offered x).session.Models t := by
  unfold offered
  split
  · exact ⟨[], s, .rest, hm⟩
  · dsimp only
    split
    · obtain ⟨log, t, hrun, hmt, -⟩ := hm.pods_run (m := .enableImageBoot) rfl rfl
      exact ⟨log, t, hrun, hmt⟩
    · exact ⟨[], s, .rest, hm⟩

variable [Doc.Parsers] {setup : Setup}

/-- The states that a session comes to. -/
inductive Reaches (setup : Setup) : Session → Prop
  | opened {o : Opened} (h : setup.open_.1 = .ok o) : Reaches setup o.session
  | step {x y : Session} {step : Step} {answer : Answer} (h : Reaches setup x) (hs : x.step step = .ok (answer, y)) :
      Reaches setup y

/-- A session is in the state that a run of the service comes to, with those who work for it as they were started. -/
def Runs (setup : Setup) (x : Session) (s : Rig Answer) : Prop :=
  ∃ (talk : Program.Talk Ask Ask.Reply) (backend : Backend) (images : Option Images) (now : Nat) (log : List Pods.Note),
    setup.startBoth.Leads talk (.done (.ok (backend, images))) ∧
      Rig.Run (.new backend setup.connector now images) log s ∧ x.Models s

/-- A session is opened in the state of a service that is new, but for the images that it may boot. -/
theorem open_run {o : Opened} (h : setup.open_.1 = .ok o) : ∃ s, setup.Runs o.session s := by
  unfold open_ at h
  dsimp only at h
  generalize hstarted : setup.startBoth.run World.answerAlone _ = started at h
  obtain ⟨outcome, world, now⟩ := started
  split at h
  · cases h
  · cases h
  · rename_i backend images heq
    cases heq
    obtain ⟨talk, htalk⟩ := Program.leads_of_run hstarted
    have hnew : (setup.sessionOf backend images world now).Models
        (.new backend setup.connector now images : Rig Answer) :=
      ⟨rfl, rfl, rfl, rfl, rfl, _, _, _, _, [], .rest⟩
    have ho := Except.ok.inj h
    split at ho
    · subst ho
      obtain ⟨log, t, hrun, hmt⟩ := offered_run hnew
      exact ⟨t, talk, backend, images, now, log, htalk, hrun, hmt⟩
    · subst ho
      exact ⟨_, talk, backend, images, now, [], htalk, .rest, hnew⟩

/-- A step of a session goes on with the run that the session is in the state of. -/
theorem Runs.step {s : Rig Answer} (h : setup.Runs x s) {step : Step} {all : Answer} (hs : x.step step = .ok (all, y)) :
    ∃ t, setup.Runs y t ∧ ∀ {r : Request} {answer : Answer}, step.Answers all r answer →
      ∃ job ∈ t.shim.jobs, job.course = requested x.pods.backend r ∧ job.left = .done answer := by
  obtain ⟨talk, backend, images, now, log, htalk, hrun, hm⟩ := h
  obtain ⟨more, t, hmore, hmt, hends⟩ := hm.step_run hs
  exact ⟨t, ⟨talk, backend, images, now, _, htalk, hrun.trans hmore, hmt⟩, hends⟩

/-- Whatever state a session comes to, a run of the service comes to it. -/
theorem Reaches.runs (h : setup.Reaches x) : ∃ s, setup.Runs x s := by
  induction h with
  | opened h => exact open_run h
  | step h hs ih =>
    obtain ⟨s, hruns⟩ := ih
    obtain ⟨t, ht, -⟩ := hruns.step hs
    exact ⟨t, ht⟩

/-- What a session answers to a request is what the request has come to in a run of the service. -/
theorem Reaches.answers (h : setup.Reaches x) {step : Step} {all : Answer} (hs : x.step step = .ok (all, y))
    {r : Request} {answer : Answer} (ha : step.Answers all r answer) :
    ∃ t, setup.Runs y t ∧ ∃ job ∈ t.shim.jobs, job.course = requested x.pods.backend r ∧ job.left = .done answer := by
  obtain ⟨s, hruns⟩ := h.runs
  obtain ⟨t, ht, hends⟩ := hruns.step hs
  exact ⟨t, ht, hends ha⟩

/-- A session with pods of a provider by name contains what it does to machines. -/
theorem Reaches.contained (h : setup.Reaches x) {name : String} (hpods : setup.pods = some name) :
    ∃ (b : Tooled) (now : Nat) (log : List Pods.Note) (s : Rig Answer), x.Models s ∧ Rig.Contained b now log s := by
  obtain ⟨s, talk, backend, images, now, log, htalk, hrun, hm⟩ := h.runs
  obtain ⟨-, hyields⟩ := startBoth_starts hpods
  obtain ⟨⟨b, rfl⟩, hi⟩ := htalk.yields hyields _ rfl
  exact ⟨b, now, log, s, hm, hrun.contained hi⟩

end Setup
end Session
end PodMachines
