import PodMachines.Proofs.Pods.Removal

/-! What calls change. A step of a call changes the directory, the records but for their locks, or whether images are
    booted only on the way to an end that is no failure. -/

namespace PodMachines.Pods

/-! ### What is kept -/

/-- A record but for its lock. -/
def Record.unlocked (r : Record) : Record :=
  { r with lock := .free }

/-- Two stores differ in the time, the guard and the locks at most. -/
structure Store.Alike (s t : Store) : Prop where
  directory : t.directory = s.directory
  records : t.records.map Record.unlocked = s.records.map Record.unlocked
  imageBoot : t.imageBoot = s.imageBoot

theorem Store.Alike.refl (s : Store) : s.Alike s :=
  ⟨rfl, rfl, rfl⟩

theorem Store.alike_put {s : Store} {i : Nat} {r r' : Record} (hr : s.records[i]? = some r)
    (hu : r'.unlocked = r.unlocked) : s.Alike (s.put i r') := by
  refine ⟨rfl, ?_, rfl⟩
  show (s.records.set i r').map Record.unlocked = _
  rw [List.map_set, hu]
  exact (set_self (by rw [List.getElem?_map, hr]; rfl)).symm

theorem Store.alike_requestLock (s : Store) (i : Nat) (me : Strand) : s.Alike (s.requestLock i me) := by
  refine ⟨rfl, ?_, rfl⟩
  refine List.ext_getElem? fun j => ?_
  simp only [requestLock, modify, List.getElem?_map, List.getElem?_modify]
  by_cases hij : i = j
  · cases s.records[j]? <;> simp [hij, Record.unlocked]
  · simp [hij]

/-- Whether a call that ends so may have changed something. -/
def Call.Alters : (c : Call) → c.Result → Prop
  | .create .., .ok _ | .stop _, .ok _ | .remove _, .ok _ | .status _, .ok _ | .list _, _ => True
  | _, _ => False

/-- Where a call can only come to an end that is no failure. -/
inductive Sure : Running → Prop
  | made {spec : Sandbox.Spec} {suffix : UInt32} (id : String) (i : Nat) :
      Sure ⟨.create spec suffix, .entering (.enroll id i)⟩
  | enrolling {spec : Sandbox.Spec} {suffix : UInt32} (id : String) (i : Nat) :
      Sure ⟨.create spec suffix, .inside (.enroll id i)⟩
  | created {spec : Sandbox.Spec} {suffix : UInt32} (id : String) : Sure ⟨.create spec suffix, .finished (.ok id)⟩
  | stopped {id : String} : Sure ⟨.stop id, .finished (.ok ())⟩
  | closing {id : String} (i : Nat) : Sure ⟨.remove id, .closing i⟩
  | closed {name : String} (id : String) (i : Nat) : Sure ⟨.remove name, .entering (.forget id i)⟩
  | forgetting {name : String} (id : String) (i : Nat) : Sure ⟨.remove name, .inside (.forget id i)⟩
  | removed {id : String} : Sure ⟨.remove id, .finished (.ok ())⟩
  | told {id : String} (status : Sandbox.Status) : Sure ⟨.status id, .finished (.ok status)⟩
  | list {filter : Sandbox.Filter} (p : Point (.list filter)) : Sure ⟨.list filter, p⟩

theorem Sure.alters {c : Call} {result : c.Result} (h : Sure ⟨c, .finished result⟩) : c.Alters result := by
  cases h <;> trivial

section
variable {backend : String} {me : Strand} {s t : Store} {p q : Running} {ds : List Deed}

theorem Sure.pace (hs : Sure p) (h : Pace backend me s p ds q t) : Sure q := by
  cases hs with
  | made id i =>
    cases h with
    | enter hg => exact .enrolling id i
  | enrolling id i =>
    cases h with
    | enroll => exact .created id
  | closing i =>
    cases h with
    | closed hr => exact .closed _ i
  | closed id i =>
    cases h with
    | enter hg => exact .forgetting id i
  | forgetting id i =>
    cases h with
    | forget => exact .removed
  | list p =>
    obtain ⟨c, p'⟩ := q
    obtain rfl : c = _ := h.may.1
    exact .list p'
  | _ => cases h

/-- A check that has come to its end and found its record there leads its status to an end that is no failure. -/
theorem Check.Pace.alike_or_sure {check next : Check} (h : check.Pace me s ds next t) (id : String) :
    s.Alike t ∧ (∀ d ∈ ds, d.closed = false) ∨ Sure ⟨.status id, .ofCheck id next⟩ := by
  cases h with
  | arrive i => exact .inl ⟨s.alike_requestLock i me, by simp⟩
  | refuse hr hl hd => exact .inl ⟨Store.alike_put hr rfl, by simp [Deed.closed]⟩
  | query hr hl hd hf => exact .inl ⟨.refl s, by simp [Deed.closed]⟩
  | fresh | sample | fail => exact .inr (.told _)

/-- A step that changes something leads to where the call cannot fail any more. -/
theorem Pace.alike_or_sure (h : Pace backend me s p ds q t) :
    s.Alike t ∧ (∀ d ∈ ds, d.closed = false) ∨ Sure q := by
  cases h with
  | connected agent => exact .inr (.made _ _)
  | enroll id i => exact .inr (.created id)
  | forget id i => exact .inr .removed
  | stopped => exact .inr .stopped
  | closed => exact .inr (.closed _ _)
  | listed => exact .inr (.list _)
  | gather => exact .inr (.list _)
  | @check id check next ds t h =>
    refine (h.alike_or_sure id).imp_left fun ⟨ha, hd⟩ => ⟨ha, fun d hmem => ?_⟩
    obtain hmem | hmem := List.mem_append.mp hmem
    · exact hd d hmem
    · obtain ⟨id, result, rfl⟩ | ⟨filter, result, rfl⟩ := endsCheck_of_ofCheck d hmem <;> rfl
  | arrive i => exact .inl ⟨s.alike_requestLock i me, by simp⟩
  | stopRefused hr | removeRefused hr => exact .inl ⟨Store.alike_put hr rfl, by simp [Deed.closed]⟩
  | undestroyed hr f => exact .inl ⟨Store.alike_put hr rfl, by simp [Deed.closed]⟩
  | _ => exact .inl ⟨⟨rfl, rfl, rfl⟩, by simp [Deed.closed]⟩

end

end PodMachines.Pods
