import PodMachines.Proofs.Pods.Gather
import PodMachines.Proofs.Shim.Handling

/-! Which sandboxes a list tells of that is served alone, where a machine is found the same as often as it is asked for.
    Main statement: those that its filter matches, each as it is after a refresh and as its status is right afterwards;
    a filter with a state that is none is refused before anything is asked. -/

namespace PodMachines
open Service Session

/-! ### Filters -/

/-- The number that a filter gives for a state, if it is none. -/
def Misnames (filter : Option Message.PodFilter) (n : Int) : Prop :=
  ∃ f, filter = some f ∧ f.state = some n ∧ n ≠ 0 ∧ n ≠ 1

/-- Whether a filter matches a sandbox. What it leaves empty matches every sandbox. -/
def Matches (filter : Option Message.PodFilter) (s : Sandbox.Status) : Prop :=
  ∀ f, filter = some f → (f.id = "" ∨ f.id = s.id) ∧ (∀ n, f.state = some n → s.state.number = n) ∧
    ∀ key value, f.labelSelector.find? key = some value → s.spec.labels.find? key = some value

theorem within_iff {small large : Message.Texts} : small.within large = true ↔
    ∀ key value, small.find? key = some value → large.find? key = some value := by
  simp only [Table.within, List.all_eq_true, decide_eq_true_eq]
  constructor
  · intro h key value hfind
    obtain ⟨⟨name, text⟩, he, rfl⟩ := Option.map_eq_some_iff.mp hfind
    have hname := List.find?_some he
    simp only [decide_eq_true_eq] at hname
    subst hname
    exact h _ (List.mem_of_find?_eq_some he)
  · rintro h ⟨key, value⟩ hmem
    exact h key value (Table.find?_of_mem hmem)

theorem number_eq_iff {state : Sandbox.State} {n : Int} :
    state.number = n ↔ Sandbox.State.ofNumber? n = some state := by
  unfold Sandbox.State.ofNumber?
  constructor
  · rintro rfl
    cases state <;> rfl
  · intro h
    split at h
    · cases h
      exact Eq.symm ‹_›
    · split at h
      · cases h
        exact Eq.symm ‹_›
      · cases h

theorem ofMessage_of_misnames {filter : Option Message.PodFilter} {n : Int} (h : Misnames filter n) :
    Sandbox.Filter.ofMessage filter = .error ⟨.invalidArgument, "unknown pod sandbox state " ++ toString n⟩ := by
  obtain ⟨f, rfl, hn, hzero, hone⟩ := h
  simp [Sandbox.Filter.ofMessage, hn, Sandbox.State.ofNumber?, hzero, hone]

/-- A filter that gives no number for a state but that of one is understood, and selects what it matches. -/
theorem ofMessage_of_not_misnames {filter : Option Message.PodFilter} (h : ∀ n, ¬Misnames filter n) :
    ∃ f, Sandbox.Filter.ofMessage filter = .ok f ∧ ∀ s, f.selects s = true ↔ Matches filter s := by
  cases filter with
  | none => exact ⟨_, rfl, fun s => iff_of_true rfl nofun⟩
  | some g =>
    -- An id that is empty is none.
    have hid (s : Sandbox.Status) : ((if g.id = "" then none else some g.id).all (· = s.id)) = true ↔
        g.id = "" ∨ g.id = s.id := by
      by_cases he : g.id = ""
      · simp [he]
      · simp [he]
    cases hs : g.state with
    | none =>
      have hof : Sandbox.Filter.ofMessage (some g) =
          .ok ⟨if g.id.isEmpty then none else some g.id, none, g.labelSelector⟩ := by
        simp only [Sandbox.Filter.ofMessage, hs]
      refine ⟨_, hof, fun s => ?_⟩
      simp [Sandbox.Filter.selects, Matches, hs, within_iff, hid]
    | some n =>
      cases ho : Sandbox.State.ofNumber? n with
      | none =>
        refine absurd ⟨g, rfl, hs, ?_, ?_⟩ (h n)
        · rintro rfl
          cases ho
        · rintro rfl
          cases ho
      | some state =>
        have hof : Sandbox.Filter.ofMessage (some g) =
            .ok ⟨if g.id.isEmpty then none else some g.id, some state, g.labelSelector⟩ := by
          simp only [Sandbox.Filter.ofMessage, hs, ho]
        refine ⟨_, hof, fun s => ?_⟩
        have hstate : state = s.state ↔ s.state.number = n := by
          rw [number_eq_iff, ho, Option.some.injEq]
        simp [Sandbox.Filter.selects, Matches, hs, within_iff, hid, hstate, and_assoc]

/-! ### Served alone -/

namespace Shim
variable {V G : Type} {manners : Pods.Manners V G} {backend id : String} {catalog : Option String} {now : Nat}
  {images : Option Images} {ms : List (Move Answer)} {log : List Pods.Note} {s t u : Shim Answer}
  {o o₁ o₂ : Pods.Outer V G} {x y : Answer} {filter : Option Message.PodFilter} {f : Sandbox.Filter}

theorem plain_listPods (hf : Sandbox.Filter.ofMessage filter = .ok f) :
    (requested backend (.listPods filter)).Uses Act.Plain := by
  rw [requested_listPods hf]
  exact ⟨.inl ⟨_, rfl⟩, fun _ => trivial⟩

section
variable (h : Run (.new backend catalog now images) ms log s) (hidle : s.pods.Idle)
  (hfixed : ∀ v, (manners.state v).2 = v) (hf : Sandbox.Filter.ofMessage filter = .ok f)
include h hidle hfixed hf

theorem Serves.list (hs : Serves manners s o (.listPods filter) x t o₁) : o₁ = o ∧
    s.pods.store.Refreshed (manners.found o) (Pods.Point.listed s.pods.store f) t.pods.store ∧
      x = .response (.listPods filter) ((((Pods.Point.listed s.pods.store f).filterMap
        (s.pods.store.seen (manners.found o))).filter f.selects).map Sandbox.Status.toItem) := by
  obtain ⟨hcomes, -⟩ := Executes.comes (plain_listPods hf) hs
  rw [requested_listPods hf, comes_call fun _ => rfl] at hcomes
  obtain ⟨statuses, hends, rfl⟩ := hcomes
  obtain ⟨rfl, hrefreshed, rfl⟩ := hends.of_list (h.pods.calm hidle) h.pods.orderly.placed hfixed
  exact ⟨rfl, hrefreshed, rfl⟩

theorem exists_serves_list (o : Pods.Outer V G) : ∃ x t, Serves manners s o (.listPods filter) x t o := by
  obtain ⟨statuses, st, hends⟩ := Pods.exists_ends_list (h.pods.calm hidle) h.pods.orderly.placed hfixed
  have hcomes : (requested s.pods.backend (.listPods filter)).Comes manners s.pods.backend
      (.response (.listPods filter) (statuses.map Sandbox.Status.toItem)) st o s.pods.calls.length s.pods.store o := by
    rw [requested_listPods hf, comes_call fun _ => rfl]
    exact ⟨statuses, hends, rfl⟩
  obtain ⟨t, ht, -⟩ := exists_executes hcomes
  exact ⟨_, t, ht⟩

end

theorem outcome_status {st st' : Pods.Store} {i : Nat} {r : Pods.Record} {verbose : Bool}
    (hfixed : ∀ v, (manners.state v).2 = v) (hg : st.guard = .free) (hi : st.directory.find? id = some i)
    (hr : st.records[i]? = some r) (hready : r.Ready) {z : Pods.Treatment Answer V G}
    (hz : (Request.podStatus id verbose).treatment? manners backend id = some z) {status : Sandbox.Status}
    (hstatus : (r.refreshed st.now (manners.found o r.machine)).snapshot = status) :
    z.Outcome id st o x st' o₁ ↔
      x = .response (.podStatus id verbose) (status.toMessage, details backend verbose status) ∧
        st' = st.put i (r.refreshed st.now (manners.found o r.machine)) ∧ o₁ = o := by
  cases hz
  subst hstatus
  have hopen := Pods.Guard.ne_writer hg
  rw [Pods.outcome_of_some hi hr rfl]
  simp [Pods.Treatment.map, hready.present, hready.free, hopen, hfixed, Pods.Store.dealt_of_kept, Pods.Outer.dealt_self,
    Pods.Manners.found]

/-- How a sandbox is listed agrees with its status. -/
structure Agrees (item : Message.Pod) (status : Message.PodStatus) : Prop where
  id : item.id = status.id
  metadata : item.metadata = status.metadata
  state : item.state = status.state
  createdAt : item.createdAt = status.createdAt
  labels : item.labels = status.labels
  annotations : item.annotations = status.annotations
  runtimeHandler : item.runtimeHandler = status.runtimeHandler

theorem requested_of_misnames {n : Int} (hn : Misnames filter n) : requested backend (.listPods filter) =
    .done (.refused ⟨.invalidArgument, "unknown pod sandbox state " ++ toString n⟩) := by
  simp only [requested, serve, ofMessage_of_misnames hn]
  rfl

/-- Items of one id that differ in their ids are at most one. -/
theorem items_eq (id : String) {items all : List Message.Pod} (hitems : (items.map (·.id)).Nodup) (hall : (all.map (·.id)).Nodup)
    (hid : ∀ item ∈ items, item.id = id) (hmem : ∀ item, item ∈ items ↔ item ∈ all) : items = all := by
  have short {l : List Message.Pod} (hl : (l.map (·.id)).Nodup) (hlid : ∀ item ∈ l, item.id = id) :
      l = [] ∨ ∃ item, l = [item] := by
    rcases l with - | ⟨item, - | ⟨other, rest⟩⟩
    · exact .inl rfl
    · exact .inr ⟨item, rfl⟩
    · have hsame : item.id = other.id := (hlid item (by simp)).trans (hlid other (by simp)).symm
      simp [hsame] at hl
  rcases short hitems hid with rfl | ⟨item, rfl⟩
  · rcases all with - | ⟨other, rest⟩
    · rfl
    · exact absurd ((hmem other).mpr List.mem_cons_self) List.not_mem_nil
  · have hallid : ∀ other ∈ all, other.id = id := fun other hother => hid other ((hmem other).mpr hother)
    have hone := (hmem item).mp List.mem_cons_self
    rcases short hall hallid with rfl | ⟨other, rfl⟩
    · cases hone
    · rw [List.mem_singleton.mp hone]

/-- Which sandboxes a list tells of that is served alone. -/
structure Selects (manners : Pods.Manners V G) (s : Shim Answer) (o : Pods.Outer V G)
    (filter : Option Message.PodFilter) : Prop where
  /-- A filter that gives a number for a state that is none is refused, and nothing is asked. -/
  refused : ∀ {n : Int} {x : Answer} {t : Shim Answer} {o₁ : Pods.Outer V G}, Misnames filter n →
    (Serves manners s o (.listPods filter) x t o₁ ↔
      x = .refused ⟨.invalidArgument, "unknown pod sandbox state " ++ toString n⟩ ∧
        t = { s with jobs := s.jobs ++ [.fresh (requested s.pods.backend (.listPods filter))] } ∧ o₁ = o)
  /-- With any other a list can be served. -/
  served : (∀ n, ¬Misnames filter n) → ∃ x t, Serves manners s o (.listPods filter) x t o
  /-- It tells once of each sandbox that the filter matches after a refresh, and of no other. -/
  exact : (∀ n, ¬Misnames filter n) → ∀ {x : Answer} {t : Shim Answer} {o₁ : Pods.Outer V G},
    Serves manners s o (.listPods filter) x t o₁ → ∃ items, x = .response (.listPods filter) items ∧
      (items.map (·.id)).Nodup ∧ ∀ item, item ∈ items ↔
        ∃ status, s.pods.store.Displays (manners.found o) status ∧ Matches filter status ∧ item = status.toItem
  /-- What it tells of a sandbox agrees with the sandbox's status right afterwards. -/
  agrees : ∀ {items : List Message.Pod} {t : Shim Answer} {o₁ : Pods.Outer V G},
    Serves manners s o (.listPods filter) (.response (.listPods filter) items) t o₁ → ∀ item ∈ items, ∀ verbose : Bool,
      (∃ y u o₂, Serves manners t o₁ (.podStatus item.id verbose) y u o₂) ∧
        ∀ {y : Answer} {u : Shim Answer} {o₂ : Pods.Outer V G}, Serves manners t o₁ (.podStatus item.id verbose) y u o₂ →
          ∃ status more, y = .response (.podStatus item.id verbose) (status, more) ∧ Agrees item status
  /-- With an id it tells what it would without and has the id. -/
  direct : ∀ {g : Message.PodFilter} {items all : List Message.Pod} {t u : Shim Answer} {o₁ o₂ : Pods.Outer V G},
    filter = some g → g.id ≠ "" → Serves manners s o (.listPods filter) (.response (.listPods filter) items) t o₁ →
      Serves manners s o (.listPods (some { g with id := "" }))
        (.response (.listPods (some { g with id := "" })) all) u o₂ → items = all.filter (·.id = g.id)

theorem refused_iff {n : Int} (hn : Misnames filter n) : Serves manners s o (.listPods filter) x t o₁ ↔
    x = .refused ⟨.invalidArgument, "unknown pod sandbox state " ++ toString n⟩ ∧
      t = { s with jobs := s.jobs ++ [.fresh (requested s.pods.backend (.listPods filter))] } ∧ o₁ = o := by
  rw [Serves, requested_of_misnames hn]
  exact executes_done

theorem not_misnames_of_response {items : List Message.Pod}
    (hs : Serves manners s o (.listPods filter) (.response (.listPods filter) items) t o₁) : ∀ n, ¬Misnames filter n := by
  intro n hn
  obtain ⟨hx, -⟩ := (refused_iff hn).mp hs
  cases hx

section
variable (h : Run (.new backend catalog now images) ms log s) (hidle : s.pods.Idle)
  (hfixed : ∀ v, (manners.state v).2 = v)
include h hidle hfixed

theorem Serves.list_exact (hn : ∀ n, ¬Misnames filter n) (hs : Serves manners s o (.listPods filter) x t o₁) :
    ∃ items, x = .response (.listPods filter) items ∧ (items.map (·.id)).Nodup ∧ ∀ item, item ∈ items ↔
      ∃ status, s.pods.store.Displays (manners.found o) status ∧ Matches filter status ∧ item = status.toItem := by
  obtain ⟨f, hf, hmatches⟩ := ofMessage_of_not_misnames hn
  obtain ⟨-, -, rfl⟩ := Serves.list h hidle hfixed hf hs
  refine ⟨_, rfl, ?_, fun item => ?_⟩
  · rw [List.map_map]
    exact h.pods.orderly.placed.nodup_seen
  · rw [List.mem_map]
    constructor
    · rintro ⟨status, hstatus, rfl⟩
      obtain ⟨hdisplays, hselects⟩ := h.pods.orderly.placed.mem_seen.mp hstatus
      exact ⟨status, hdisplays, (hmatches status).mp hselects, rfl⟩
    · rintro ⟨status, hdisplays, hstatus, rfl⟩
      exact ⟨status, h.pods.orderly.placed.mem_seen.mpr ⟨hdisplays, (hmatches status).mpr hstatus⟩, rfl⟩

theorem Serves.list_agrees {items : List Message.Pod}
    (hs : Serves manners s o (.listPods filter) (.response (.listPods filter) items) t o₁) {item : Message.Pod}
    (hitem : item ∈ items) (verbose : Bool) :
    (∃ y u o₂, Serves manners t o₁ (.podStatus item.id verbose) y u o₂) ∧
      ∀ {y : Answer} {u : Shim Answer} {o₂ : Pods.Outer V G}, Serves manners t o₁ (.podStatus item.id verbose) y u o₂ →
        ∃ status more, y = .response (.podStatus item.id verbose) (status, more) ∧ Agrees item status := by
  obtain ⟨f, hf, -⟩ := ofMessage_of_not_misnames (not_misnames_of_response hs)
  obtain ⟨rfl, hrefreshed, hx⟩ := Serves.list h hidle hfixed hf hs
  cases hx
  obtain ⟨status, hstatus, rfl⟩ := List.mem_map.mp hitem
  obtain ⟨hdisplays, hselects⟩ := h.pods.orderly.placed.mem_seen.mp hstatus
  obtain ⟨hguard, i, r, hi, hr, hready, hagain⟩ := hdisplays.after (h.pods.calm hidle) hselects hrefreshed
  obtain ⟨more, after, hrun⟩ := Executes.run hs
  have ht := h.trans hrun
  have hgives : (Request.podStatus status.id verbose).Gives status.id := rfl
  obtain ⟨z, hz⟩ : ∃ z, (Request.podStatus status.id verbose).treatment? manners t.pods.backend status.id = some z :=
    ⟨_, rfl⟩
  have houtcome {y : Answer} {st : Pods.Store} {o₂ : Pods.Outer V G} : z.Outcome status.id t.pods.store o₁ y st o₂ ↔
      y = .response (.podStatus status.id verbose) (status.toMessage, details t.pods.backend verbose status) ∧
        st = t.pods.store.put i (r.refreshed t.pods.store.now (manners.found o₁ r.machine)) ∧ o₂ = o₁ :=
    outcome_status hfixed hguard hi hr hready hz hagain
  constructor
  · obtain ⟨u, hu, -⟩ := exists_serves ht hgives hz (houtcome.mpr ⟨rfl, rfl, rfl⟩)
    exact ⟨_, u, _, hu⟩
  · intro y u o₂ hu
    obtain ⟨rfl, -, -⟩ := houtcome.mp (hu.outcome ht hgives hz).1
    exact ⟨_, _, rfl, rfl, rfl, rfl, rfl, rfl, rfl, rfl⟩

theorem Serves.list_direct {g : Message.PodFilter} {items all : List Message.Pod} (hg : g.id ≠ "")
    (hs : Serves manners s o (.listPods (some g)) (.response (.listPods (some g)) items) t o₁)
    (hs' : Serves manners s o (.listPods (some { g with id := "" }))
      (.response (.listPods (some { g with id := "" })) all) u o₂) : items = all.filter (·.id = g.id) := by
  obtain ⟨_, heq, hnodup, hmem⟩ := Serves.list_exact h hidle hfixed (not_misnames_of_response hs) hs
  obtain ⟨_, heq', hnodup', hmem'⟩ := Serves.list_exact h hidle hfixed (not_misnames_of_response hs') hs'
  cases heq
  cases heq'
  -- The one filter matches what the other matches and has the id.
  have hmatches (status : Sandbox.Status) :
      Matches (some g) status ↔ Matches (some { g with id := "" }) status ∧ status.id = g.id := by
    constructor
    · intro hm
      obtain ⟨hid, hrest⟩ := hm g rfl
      have hid := hid.resolve_left hg
      refine ⟨fun f hf => ?_, hid.symm⟩
      cases hf
      exact ⟨.inl rfl, hrest⟩
    · rintro ⟨hm, hid⟩ f hf
      cases hf
      exact ⟨.inr hid.symm, (hm _ rfl).2⟩
  refine items_eq g.id hnodup ((List.filter_sublist.map _).nodup hnodup') ?_ ?_
  · intro item hitem
    obtain ⟨status, -, hm, rfl⟩ := (hmem item).mp hitem
    exact ((hmatches status).mp hm).2
  · intro item
    rw [hmem, List.mem_filter, hmem', decide_eq_true_eq]
    constructor
    · rintro ⟨status, hdisplays, hm, rfl⟩
      obtain ⟨hm, hid⟩ := (hmatches status).mp hm
      exact ⟨⟨status, hdisplays, hm, rfl⟩, hid⟩
    · rintro ⟨⟨status, hdisplays, hm, rfl⟩, hid⟩
      exact ⟨status, hdisplays, (hmatches status).mpr ⟨hm, hid⟩, rfl⟩

theorem list_selects (o : Pods.Outer V G) (filter : Option Message.PodFilter) : Selects manners s o filter where
  refused hn := refused_iff hn
  served := by
    intro hn
    obtain ⟨f, hf, -⟩ := ofMessage_of_not_misnames hn
    exact exists_serves_list h hidle hfixed hf o
  exact hn _ _ _ hs := Serves.list_exact h hidle hfixed hn hs
  agrees hs _ hitem verbose := Serves.list_agrees h hidle hfixed hs hitem verbose
  direct := by
    rintro g items all t u o₁ o₂ rfl hg hs hs'
    exact Serves.list_direct h hidle hfixed hg hs hs'

end

/-- In the tour the samples of two machines are too old, and one of the machines has stopped since. -/
theorem list_selects_tour : Tour.both.pods.Idle ∧ (∀ v, (Tour.manners.state v).2 = v) ∧
    Selects Tour.manners Tour.both Tour.outside (some { state := some 1 }) ∧
      (Tour.both.pods.store.records.map fun r =>
        (r.id, r.lifecycle, (r.refreshed Tour.both.pods.store.now (Tour.manners.found Tour.outside r.machine)).lifecycle)) =
          [("vm", .ready, .ready), ("other", .ready, .notReady)] :=
  ⟨by decide, fun _ => rfl, list_selects Tour.run_pair (by decide) (fun _ => rfl) _ _, rfl⟩

end Shim
end PodMachines
