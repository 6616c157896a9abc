import PodMachines.Proofs.Pods.Turn

/-! What has been noted of a call, by where the call stands. The course of a call knows nothing of other calls:
    what it needs of the store is what the records were made with, which no step changes, and that an id leads to
    a record that was made with it. -/

namespace PodMachines.Pods

/-- What a record was made with. -/
structure Origin where
  id : String
  spec : Sandbox.Spec
  createdAt : Nat
  address : Address
  machine : Machine.Handle
  agent : Connection

def Record.origin (r : Record) : Origin :=
  ⟨r.id, r.spec, r.createdAt, r.address, r.machine, r.agent⟩

abbrev Origins := Nat → Option Origin

def Store.origins (s : Store) : Origins :=
  fun i => s.records[i]?.map Record.origin

/-- A record was made with an id. -/
def Origins.Names (o : Origins) (i : Nat) (id : String) : Prop :=
  ∃ b, o i = some b ∧ b.id = id

/-- What records were made with stays, though there may be more records. -/
def Origins.Grows (o o' : Origins) : Prop :=
  ∀ i b, o i = some b → o' i = some b

/-- An id leads to a record that was made with it. -/
def Store.Placed (s : Store) : Prop :=
  ∀ id i, s.directory.find? id = some i → s.origins.Names i id

theorem Store.origins_eq {s : Store} {i : Nat} {r : Record} (h : s.records[i]? = some r) :
    s.origins i = some r.origin := by
  rw [origins, h]
  rfl

theorem Origins.Names.mono {o o' : Origins} {i : Nat} {id : String} (h : o.Names i id) (hg : o.Grows o') :
    o'.Names i id := by
  obtain ⟨b, hb, hid⟩ := h
  exact ⟨b, hg i b hb, hid⟩

theorem Record.downgraded_origin (r : Record) : r.downgraded.origin = r.origin := by
  unfold downgraded
  split <;> rfl

theorem Turn.origin_eq {me : Strand} {now : Nat} {r r' : Record} {w w' : Option Work} {ds : List Deed}
    (h : Turn me now r w ds r' w') : r'.origin = r.origin := by
  cases h with
  | fresh hl hd hf hrest => exact r.downgraded_origin
  | sample x hrest => exact (r.sampled x now).downgraded_origin
  | fail f hrest => exact r.downgraded_origin
  | _ => rfl

theorem Pace.grows {backend : String} {me : Strand} {s t : Store} {p q : Running} {ds : List Deed}
    (h : Pace backend me s p ds q t) : s.origins.Grows t.origins := by
  intro i b hb
  obtain ⟨r, hr, rfl⟩ := Option.map_eq_some_iff.mp hb
  cases h.touch with
  | away _ ht _ _ => exact Store.origins_eq (ht ▸ hr)
  | pass _ _ ht _ _ => exact Store.origins_eq (ht ▸ hr)
  | born _ _ ht _ _ =>
    refine Store.origins_eq ?_
    rw [ht, List.getElem?_append_left (List.getElem?_eq_some_iff.mp hr).1, hr]
  | @request j _ ht _ _ =>
    subst ht
    by_cases hij : j = i
    · subst hij
      have : (s.requestLock j me).records[j]? = some { r with lock := r.lock.request me } := by
        simp [Store.requestLock, Store.modify, hr]
      exact (Store.origins_eq this).trans rfl
    · have : (s.requestLock j me).records[i]? = some r := by simp [Store.requestLock, Store.modify, hij, hr]
      exact Store.origins_eq this
  | @turn j _ r₀ r' hr₀ w w' ht htr _ _ =>
    by_cases hij : j = i
    · subst hij
      rw [hr] at hr₀
      cases hr₀
      rw [← ht.origin_eq]
      refine Store.origins_eq ?_
      rw [htr, List.getElem?_set_self (List.getElem?_eq_some_iff.mp hr).1]
    · refine Store.origins_eq ?_
      rw [htr, List.getElem?_set_ne hij, hr]

/-! ### The courses -/

/-- What is noted, and at which record. -/
abbrev Entry := Option Nat × Deed

def Note.entry (n : Note) : Entry :=
  (n.record, n.deed)

def entries (record : Option Nat) (ds : List Deed) : List Entry :=
  ds.map (record, ·)

inductive Check.Course (b : Origin) (i : Nat) : Check → List Deed → Prop
  | arriving : Course b i (.arriving i) []
  | queued : Course b i (.queued i) []
  | refused : Course b i (.settled none) [.locks, .reports none]
  | fresh {status : Sandbox.Status} (hid : status.id = b.id) :
      Course b i (.settled (some status)) [.locks, .reports (some status)]
  | refreshing : Course b i (.refreshing i) [.locks, .asks (.backend (.state b.machine))]
  | refreshed (a : Except Failure Machine.State) {status : Sandbox.Status} (hid : status.id = b.id) :
      Course b i (.settled (some status))
        [.locks, .asks (.backend (.state b.machine)), .hears (.backend (.state b.machine)) a, .reports (some status)]

/-- What is noted of a create up to its question for addresses. -/
def provided (vm : Machine.Spec) (machine : Machine.Handle) : List Deed :=
  [.asks (.backend (.provision vm)), .hears (.backend (.provision vm)) (.ok machine),
    .asks (.backend (.addresses machine))]

/-- What is noted of a create from its question for addresses to its question for a connection. -/
def located (machine : Machine.Handle) (address : Address) (rest : List Address) : List Deed :=
  [.hears (.backend (.addresses machine)) (.ok (address :: rest)), .asks (.connect address)]

/-- What is noted of a create from its question for addresses on that ends with a failure. -/
inductive Lost (machine : Machine.Handle) : List Deed → Failure → Prop
  | unaddressed (found : Except Failure (List Address)) {why : Failure}
      (hw : (found = .ok [] ∧ why = .network machine.id "backend reported no address") ∨
        ∃ f, found = .error f ∧ why = f.asNetwork machine.id) :
      Lost machine [.hears (.backend (.addresses machine)) found] why
  | unconnected (address : Address) (rest : List Address) (f : Failure) :
      Lost machine (located machine address rest ++ [.hears (.connect address) (.error f)])
        (f.asUnreachable address.toText)

inductive Creation (backend : String) (o : Origins) (spec : Sandbox.Spec) (suffix : UInt32) :
    Point (.create spec suffix) → List Entry → Prop
  | starting : Creation backend o spec suffix .starting []
  | provisioning (vm : Machine.Spec) :
      Creation backend o spec suffix (.provisioning vm) (entries none [.asks (.backend (.provision vm))])
  | unprovisioned (vm : Machine.Spec) (f : Failure) :
      Creation backend o spec suffix (.finished (.error (f.asProvision backend)))
        (entries none [.asks (.backend (.provision vm)), .hears (.backend (.provision vm)) (.error f),
          .ends (.create spec suffix) (.error (f.asProvision backend))])
  | addressing (vm : Machine.Spec) (machine : Machine.Handle) :
      Creation backend o spec suffix (.addressing machine) (entries none (provided vm machine))
  | connecting (vm : Machine.Spec) (machine : Machine.Handle) (address : Address) (rest : List Address) :
      Creation backend o spec suffix (.connecting machine address)
        (entries none (provided vm machine ++ located machine address rest))
  | discarding (vm : Machine.Spec) {machine : Machine.Handle} {ds : List Deed} {why : Failure}
      (h : Lost machine ds why) :
      Creation backend o spec suffix (.discarding machine why)
        (entries none (provided vm machine ++ ds ++ [.asks (.backend (.destroy machine))]))
  | discarded (vm : Machine.Spec) {machine : Machine.Handle} {ds : List Deed} {why : Failure}
      (h : Lost machine ds why) (a : Except Failure Unit) :
      Creation backend o spec suffix (.finished (.error why))
        (entries none (provided vm machine ++ ds ++ [.asks (.backend (.destroy machine)),
          .hears (.backend (.destroy machine)) a, .ends (.create spec suffix) (.error why)]))
  | connected (vm : Machine.Spec) {machine : Machine.Handle} {address : Address} (rest : List Address)
      {agent : Connection} {i now : Nat} (hi : o i = some ⟨machine.id, spec, now, address, machine, agent⟩) :
      Creation backend o spec suffix (.entering (.enroll machine.id i))
        (entries none (provided vm machine ++ located machine address rest) ++
          entries (some i) [.hears (.connect address) (.ok agent)])
  | enrolling (vm : Machine.Spec) {machine : Machine.Handle} {address : Address} (rest : List Address)
      {agent : Connection} {i now : Nat} (hi : o i = some ⟨machine.id, spec, now, address, machine, agent⟩) :
      Creation backend o spec suffix (.inside (.enroll machine.id i))
        (entries none (provided vm machine ++ located machine address rest) ++
          entries (some i) [.hears (.connect address) (.ok agent)])
  | enrolled (vm : Machine.Spec) {machine : Machine.Handle} {address : Address} (rest : List Address)
      {agent : Connection} {i now : Nat} (hi : o i = some ⟨machine.id, spec, now, address, machine, agent⟩) :
      Creation backend o spec suffix (.finished (.ok machine.id))
        (entries none (provided vm machine ++ located machine address rest) ++
          entries (some i) [.hears (.connect address) (.ok agent), .ends (.create spec suffix) (.ok machine.id)])

inductive Stopping (o : Origins) (id : String) : Point (.stop id) → List Entry → Prop
  | starting : Stopping o id (.entering .lookup) []
  | looking : Stopping o id (.inside .lookup) []
  | missing : Stopping o id (.finished (Point.missing id)) (entries none [.ends (.stop id) (Point.missing id)])
  | arriving {i : Nat} (hi : o.Names i id) : Stopping o id (.arriving i) []
  | queued {i : Nat} (hi : o.Names i id) : Stopping o id (.queued i) []
  | refused {i : Nat} (hi : o.Names i id) :
      Stopping o id (.finished (Point.missing id)) (entries (some i) [.locks, .ends (.stop id) (Point.missing id)])
  | stopped {i : Nat} (hi : o.Names i id) :
      Stopping o id (.finished (.ok ())) (entries (some i) [.locks, .ends (.stop id) (.ok ())])

/-- What is noted of a remove up to its question to close the connection. -/
def destroyed (b : Origin) : List Deed :=
  [.locks, .asks (.backend (.destroy b.machine)), .hears (.backend (.destroy b.machine)) (.ok ()), .asks (.close b.agent)]

inductive Removing (o : Origins) (id : String) : Point (.remove id) → List Entry → Prop
  | starting : Removing o id (.entering .lookup) []
  | looking : Removing o id (.inside .lookup) []
  | missing : Removing o id (.finished (Point.missing id)) (entries none [.ends (.remove id) (Point.missing id)])
  | arriving {i : Nat} (hi : o.Names i id) : Removing o id (.arriving i) []
  | queued {i : Nat} (hi : o.Names i id) : Removing o id (.queued i) []
  | refused {i : Nat} (hi : o.Names i id) :
      Removing o id (.finished (Point.missing id)) (entries (some i) [.locks, .ends (.remove id) (Point.missing id)])
  | destroying {i : Nat} {b : Origin} (hb : o i = some b) (hid : b.id = id) :
      Removing o id (.destroying i) (entries (some i) [.locks, .asks (.backend (.destroy b.machine))])
  | undestroyed {i : Nat} {b : Origin} (hb : o i = some b) (hid : b.id = id) (f : Failure) :
      Removing o id (.finished (.error (f.asDestroy id)))
        (entries (some i) [.locks, .asks (.backend (.destroy b.machine)),
          .hears (.backend (.destroy b.machine)) (.error f), .ends (.remove id) (.error (f.asDestroy id))])
  | closing {i : Nat} {b : Origin} (hb : o i = some b) (hid : b.id = id) :
      Removing o id (.closing i) (entries (some i) (destroyed b))
  | closed {i : Nat} {b : Origin} (hb : o i = some b) (hid : b.id = id) :
      Removing o id (.entering (.forget id i)) (entries (some i) (destroyed b ++ [.hears (.close b.agent) ()]))
  | forgetting {i : Nat} {b : Origin} (hb : o i = some b) (hid : b.id = id) :
      Removing o id (.inside (.forget id i)) (entries (some i) (destroyed b ++ [.hears (.close b.agent) ()]))
  | removed {i : Nat} {b : Origin} (hb : o i = some b) (hid : b.id = id) :
      Removing o id (.finished (.ok ()))
        (entries (some i) (destroyed b ++ [.hears (.close b.agent) (), .ends (.remove id) (.ok ())]))

inductive Asking (o : Origins) (id : String) : Point (.status id) → List Entry → Prop
  | starting : Asking o id (.entering .lookup) []
  | looking : Asking o id (.inside .lookup) []
  | missing : Asking o id (.finished (Point.missing id)) (entries none [.ends (.status id) (Point.missing id)])
  | checking {i : Nat} {b : Origin} (hb : o i = some b) (hid : b.id = id) {check : Check} {ds : List Deed}
      (h : check.Course b i ds) (hn : check.report? = none) : Asking o id (.checking check) (entries (some i) ds)
  | refused {i : Nat} {b : Origin} (hb : o i = some b) (hid : b.id = id) {ds : List Deed}
      (h : Check.Course b i (.settled none) ds) :
      Asking o id (.finished (Point.missing id))
        (entries (some i) (ds ++ [.ends (.status id) (Point.missing id)]))
  | told {i : Nat} {b : Origin} (hb : o i = some b) (hid : b.id = id) {status : Sandbox.Status} {ds : List Deed}
      (h : Check.Course b i (.settled (some status)) ds) :
      Asking o id (.finished (.ok status)) (entries (some i) (ds ++ [.ends (.status id) (.ok status)]))

/-- What is noted of a strand, of all that is noted of its call. -/
def strandDeeds (part : Nat) (ns : List Note) : List Deed :=
  (ns.filter (·.strand.part = part)).map (·.deed)

/-- The courses of the checks of a list. Their records were made with distinct ids. -/
structure Rounds (o : Origins) (targets : List Nat) (checks : List Check) (ns : List Note) : Prop where
  distinct : ∃ ids : List String, ids.Nodup ∧ targets.map (fun i => (o i).map (·.id)) = ids.map some
  length_eq : checks.length = targets.length
  course : ∀ {k i : Nat} {check : Check}, targets[k]? = some i → checks[k]? = some check →
    ∃ b, o i = some b ∧ check.Course b i (strandDeeds k ns)
  record : ∀ n ∈ ns, ∃ i, targets[n.strand.part]? = some i ∧ n.record = some i

inductive Listing (o : Origins) (filter : Sandbox.Filter) : Point (.list filter) → List Note → Prop
  | starting : Listing o filter (.entering .lookup) []
  | looking : Listing o filter (.inside .lookup) []
  | gathering {targets : List Nat} {checks : List Check} {ns : List Note} (h : Rounds o targets checks ns) :
      Listing o filter (.gathering checks) ns
  | gathered {targets : List Nat} {reports : List (Option Sandbox.Status)} {ns : List Note}
      (h : Rounds o targets (reports.map .settled) ns) {n : Note} (hi : ∀ i, n.record = some i → i ∈ targets)
      (hn : n.deed = .ends (.list filter) ((reports.filterMap fun report => report).filter filter.selects)) :
      Listing o filter (.finished ((reports.filterMap fun report => report).filter filter.selects)) (ns ++ [n])

/-- The course of a call that only looks into the directory. -/
inductive Telling (c : Call) : Point c → List Entry → Prop
  | starting : Telling c (.entering .lookup) []
  | looking : Telling c (.inside .lookup) []
  | told (result : c.Result) : Telling c (.finished result) (entries none [.ends c result])

/-- The course of a call. -/
inductive Course (backend : String) (o : Origins) (ns : List Note) : Running → Prop
  | create {spec : Sandbox.Spec} {suffix : UInt32} {p : Point (.create spec suffix)} {es : List Entry}
      (hes : ns.map Note.entry = es) (h : Creation backend o spec suffix p es) :
      Course backend o ns ⟨.create spec suffix, p⟩
  | stop {id : String} {p : Point (.stop id)} {es : List Entry} (hes : ns.map Note.entry = es)
      (h : Stopping o id p es) : Course backend o ns ⟨.stop id, p⟩
  | remove {id : String} {p : Point (.remove id)} {es : List Entry} (hes : ns.map Note.entry = es)
      (h : Removing o id p es) : Course backend o ns ⟨.remove id, p⟩
  | status {id : String} {p : Point (.status id)} {es : List Entry} (hes : ns.map Note.entry = es)
      (h : Asking o id p es) : Course backend o ns ⟨.status id, p⟩
  | list {filter : Sandbox.Filter} {p : Point (.list filter)} (h : Listing o filter p ns) :
      Course backend o ns ⟨.list filter, p⟩
  | agent {id : String} {p : Point (.agent id)} {es : List Entry} (hes : ns.map Note.entry = es)
      (h : Telling (.agent id) p es) : Course backend o ns ⟨.agent id, p⟩
  | address {id : String} {p : Point (.address id)} {es : List Entry} (hes : ns.map Note.entry = es)
      (h : Telling (.address id) p es) : Course backend o ns ⟨.address id, p⟩
  | ids {p : Point .ids} {es : List Entry} (hes : ns.map Note.entry = es) (h : Telling .ids p es) :
      Course backend o ns ⟨.ids, p⟩

/-! ### Courses in a store that grows -/

section
variable {backend : String} {o o' : Origins} (hg : o.Grows o')
include hg

theorem Creation.mono {spec : Sandbox.Spec} {suffix : UInt32} {p : Point (.create spec suffix)} {es : List Entry}
    (h : Creation backend o spec suffix p es) : Creation backend o' spec suffix p es := by
  cases h with
  | starting => exact .starting
  | provisioning vm => exact .provisioning vm
  | unprovisioned vm f => exact .unprovisioned vm f
  | addressing vm machine => exact .addressing vm machine
  | connecting vm machine address rest => exact .connecting vm machine address rest
  | discarding vm h => exact .discarding vm h
  | discarded vm h a => exact .discarded vm h a
  | connected vm rest hi => exact .connected vm rest (hg _ _ hi)
  | enrolling vm rest hi => exact .enrolling vm rest (hg _ _ hi)
  | enrolled vm rest hi => exact .enrolled vm rest (hg _ _ hi)

theorem Stopping.mono {id : String} {p : Point (.stop id)} {es : List Entry} (h : Stopping o id p es) :
    Stopping o' id p es := by
  cases h with
  | starting => exact .starting
  | looking => exact .looking
  | missing => exact .missing
  | arriving hi => exact .arriving (hi.mono hg)
  | queued hi => exact .queued (hi.mono hg)
  | refused hi => exact .refused (hi.mono hg)
  | stopped hi => exact .stopped (hi.mono hg)

theorem Removing.mono {id : String} {p : Point (.remove id)} {es : List Entry} (h : Removing o id p es) :
    Removing o' id p es := by
  cases h with
  | starting => exact .starting
  | looking => exact .looking
  | missing => exact .missing
  | arriving hi => exact .arriving (hi.mono hg)
  | queued hi => exact .queued (hi.mono hg)
  | refused hi => exact .refused (hi.mono hg)
  | destroying hb hid => exact .destroying (hg _ _ hb) hid
  | undestroyed hb hid f => exact .undestroyed (hg _ _ hb) hid f
  | closing hb hid => exact .closing (hg _ _ hb) hid
  | closed hb hid => exact .closed (hg _ _ hb) hid
  | forgetting hb hid => exact .forgetting (hg _ _ hb) hid
  | removed hb hid => exact .removed (hg _ _ hb) hid

theorem Asking.mono {id : String} {p : Point (.status id)} {es : List Entry} (h : Asking o id p es) :
    Asking o' id p es := by
  cases h with
  | starting => exact .starting
  | looking => exact .looking
  | missing => exact .missing
  | checking hb hid h hn => exact .checking (hg _ _ hb) hid h hn
  | refused hb hid h => exact .refused (hg _ _ hb) hid h
  | told hb hid h => exact .told (hg _ _ hb) hid h

omit hg in
theorem Rounds.known {targets : List Nat} {checks : List Check} {ns : List Note} (h : Rounds o targets checks ns)
    {i : Nat} (hi : i ∈ targets) : ∃ b, o i = some b := by
  obtain ⟨ids, -, hids⟩ := h.distinct
  have : (o i).map (·.id) ∈ ids.map some := hids ▸ List.mem_map_of_mem hi
  obtain ⟨id, -, hid⟩ := List.mem_map.mp this
  obtain ⟨b, hb, -⟩ := Option.map_eq_some_iff.mp hid.symm
  exact ⟨b, hb⟩

theorem Rounds.mono {targets : List Nat} {checks : List Check} {ns : List Note} (h : Rounds o targets checks ns) :
    Rounds o' targets checks ns where
  distinct := by
    obtain ⟨ids, hn, hids⟩ := h.distinct
    refine ⟨ids, hn, ?_⟩
    rw [← hids]
    refine List.map_congr_left fun i hi => ?_
    obtain ⟨b, hb⟩ := h.known hi
    rw [hb, hg i b hb]
  length_eq := h.length_eq
  course ht hc := by
    obtain ⟨b, hb, h⟩ := h.course ht hc
    exact ⟨b, hg _ b hb, h⟩
  record := h.record

theorem Listing.mono {filter : Sandbox.Filter} {p : Point (.list filter)} {ns : List Note}
    (h : Listing o filter p ns) : Listing o' filter p ns := by
  cases h with
  | starting => exact .starting
  | looking => exact .looking
  | gathering h => exact .gathering (h.mono hg)
  | gathered h hi hn => exact .gathered (h.mono hg) hi hn

theorem Course.mono {p : Running} {ns : List Note} (h : Course backend o ns p) : Course backend o' ns p := by
  cases h with
  | create hes h => exact .create hes (h.mono hg)
  | stop hes h => exact .stop hes (h.mono hg)
  | remove hes h => exact .remove hes (h.mono hg)
  | status hes h => exact .status hes (h.mono hg)
  | list h => exact .list (h.mono hg)
  | agent hes h => exact .agent hes h
  | address hes h => exact .address hes h
  | ids hes h => exact .ids hes h

end

end PodMachines.Pods
