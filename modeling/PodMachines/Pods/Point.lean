import PodMachines.Pods.Store

/-!
# Where a call stands

The points of a call between which nothing else can come in: what it does from one point to the next, what it
asks of others at a point, and where the answer takes it. A record is only read or changed while its lock is
held, and the directory while its guard is; never both at once.
-/

namespace PodMachines.Pods

/-! ### Checks -/

/-- Where a check of one record stands, which a status makes and a list for each record. -/
inductive Check
  /-- Before it asks for the record's lock. -/
  | arriving (record : Nat)
  /-- Waiting for the lock, or holding it. -/
  | queued (record : Nat)
  /-- Holding the lock, and waiting for the state of the machine. -/
  | refreshing (record : Nat)
  /-- At its end: what it reports, none of a removed sandbox. -/
  | settled (status : Option Sandbox.Status)
  deriving DecidableEq

namespace Check

/-- The end of a check that holds a record's lock: the record is downgraded if its machine was last seen not
    running, reported, and let go. -/
def settle (s : Store) (record : Nat) (r : Record) : Check × Store :=
  (.settled (some r.downgraded.snapshot), s.modify record fun _ => r.downgraded.released)

/-- The next point, where nothing has to be waited for. -/
def advance (me : Strand) (s : Store) : Check → Option (Check × Store)
  | .arriving record => some (.queued record, s.requestLock record me)
  | .queued record =>
    match s.held? record me with
    | none => none
    | some r =>
      if r.removed then some (.settled none, s.modify record Record.released)
      else if r.isStale s.now then some (.refreshing record, s)
      else some (settle s record r)
  | .refreshing _ | .settled _ => none

/-- What is asked of others. -/
def request? (s : Store) : Check → Option Request
  | .refreshing record => s.records[record]?.map fun r => .backend (.state r.machine)
  | _ => none

/-- Where an answer takes the check. A failed query leaves the sample as it was. -/
def answer (s : Store) (request : Request) (a : request.Answer) : Check → Option (Check × Store)
  | .refreshing record =>
    match s.records[record]?, request, a with
    | some r, .backend (.state _), .ok sample => some (settle s record (r.sampled sample s.now))
    | some r, .backend (.state _), .error _ => some (settle s record r)
    | _, _, _ => none
  | _ => none

/-- What the check reports, at its end. -/
def report? : Check → Option (Option Sandbox.Status)
  | .settled status => some status
  | _ => none

end Check

/-! ### Points -/

/-- Where a call stands. -/
inductive Point (c : Call)
  /-- At the start of a create. -/
  | starting
  /-- Waiting for a machine. -/
  | provisioning (spec : Machine.Spec)
  /-- Waiting for the addresses of a machine. -/
  | addressing (machine : Machine.Handle)
  /-- Waiting for a connection to the agent of a machine. -/
  | connecting (machine : Machine.Handle) (address : Address)
  /-- Waiting for the end of a machine that becomes no sandbox, and why it becomes none. -/
  | discarding (machine : Machine.Handle) (why : Failure)
  /-- Before the directory's guard. -/
  | entering (visit : Visit)
  /-- In the directory. -/
  | inside (visit : Visit)
  /-- Before a record's lock. -/
  | arriving (record : Nat)
  /-- Waiting for a record's lock, or holding it. -/
  | queued (record : Nat)
  /-- Holding a record's lock, and waiting for the end of its machine. -/
  | destroying (record : Nat)
  /-- Holding a record's lock, and waiting for its agent's connection to close. -/
  | closing (record : Nat)
  /-- Checking the one record of a status. -/
  | checking (check : Check)
  /-- Checking the records of a list. -/
  | gathering (checks : List Check)
  /-- At the end. -/
  | finished (result : c.Result)

namespace Point

/-- Where a call starts. -/
def initial : (c : Call) → Point c
  | .create .. => .starting
  | _ => .entering .lookup

/-- The end of a call whose record is gone. -/
def missing (id : String) {α : Type} : Except Failure α :=
  .error (.noSandbox id)

/-- A status whose check has come to its end, or has not. -/
def ofCheck (id : String) (check : Check) : Point (.status id) :=
  match check.report? with
  | some (some status) => .finished (.ok status)
  | some none => .finished (missing id)
  | none => .checking check

/-- A list whose checks have all come to their end, or have not. Removed sandboxes are dropped. -/
def ofChecks (filter : Sandbox.Filter) (checks : List Check) : Point (.list filter) :=
  match checks.mapM Check.report? with
  | some reports => .finished ((reports.filterMap fun report => report).filter filter.selects)
  | none => .gathering checks

/-- Where a single record's call goes from the directory: to the record under its id, or to its end. -/
def found {c : Call} (s : Store) (id : String) (gone : Point c) (go : Nat → Point c) : Point c :=
  match s.directory.find? id with
  | some record => go record
  | none => gone

/-- The records that a list checks. -/
def listed (s : Store) (filter : Sandbox.Filter) : List Nat :=
  match filter.id with
  | some id => (s.directory.find? id).toList
  | none => s.directory.values

/-- What a call does in the directory, and the directory after it. -/
def visit (s : Store) : (c : Call) → Visit → Option (Point c × Store)
  | .create .., .enroll id record => some (.finished (.ok id), { s with directory := s.directory.insert id record })
  | .remove _, .forget id record =>
    some (.finished (.ok ()),
      if s.directory.find? id = some record then { s with directory := s.directory.erase id } else s)
  | .stop id, .lookup => some (found s id (.finished (missing id)) .arriving, s)
  | .remove id, .lookup => some (found s id (.finished (missing id)) .arriving, s)
  | .status id, .lookup =>
    some (found s id (.finished (missing id)) fun record => .checking (.arriving record), s)
  | .list filter, .lookup => some (ofChecks filter ((listed s filter).map .arriving), s)
  | .agent id, .lookup =>
    some (.finished (match (s.directory.find? id).bind (s.records[·]?) with
      | some r => .ok r.agent
      | none => missing id), s)
  | .address id, .lookup =>
    some (.finished (match (s.directory.find? id).bind (s.records[·]?) with
      | some r => .ok r.address
      | none => missing id), s)
  | .ids, .lookup => some (.finished s.directory.keys, s)
  | _, _ => none

/-- What a stop or a remove does once it holds a record's lock. -/
def locked (s : Store) (record : Nat) (r : Record) : (c : Call) → Option (Point c × Store)
  | .stop id =>
    if r.removed then some (.finished (missing id), s.modify record Record.released)
    else
      some (.finished (.ok ()), s.modify record fun r => { r with lifecycle := .notReady }.released)
  | .remove id =>
    if r.removed then some (.finished (missing id), s.modify record Record.released)
    else some (.destroying record, s)
  | _ => none

/-- The next point of a strand of a call, where nothing has to be waited for. -/
def advance (me : Strand) (s : Store) : {c : Call} → Point c → Option (Point c × Store)
  | .create spec suffix, .starting =>
    let image := if s.imageBoot then spec.bootImage else none
    some (.provisioning (.forPod spec.nspace spec.name image suffix), s)
  | _, .entering v => (s.guard.enter v).map fun guard => (.inside v, { s with guard := guard })
  | c, .inside v => visit { s with guard := s.guard.leave } c v
  | _, .arriving record => some (.queued record, s.requestLock record me)
  | c, .queued record =>
    match s.held? record me with
    | some r => locked s record r c
    | none => none
  | .status id, .checking check => (check.advance me s).map fun (check, s) => (ofCheck id check, s)
  | .list filter, .gathering checks =>
    match checks[me.part]? with
    | some check => (check.advance me s).map fun (check, s) => (ofChecks filter (checks.set me.part check), s)
    | none => none
  | _, _ => none

/-- What a strand of a call asks of others. -/
def request? (me : Strand) (s : Store) : {c : Call} → Point c → Option Request
  | _, .provisioning spec => some (.backend (.provision spec))
  | _, .addressing machine => some (.backend (.addresses machine))
  | _, .connecting _ address => some (.connect address)
  | _, .discarding machine _ => some (.backend (.destroy machine))
  | _, .destroying record => s.records[record]?.map fun r => .backend (.destroy r.machine)
  | _, .closing record => s.records[record]?.map fun r => .close r.agent
  | _, .checking check => check.request? s
  | _, .gathering checks => checks[me.part]?.bind (Check.request? s)
  | _, _ => none

/-- Where the addresses of a machine take its create: to the agent at the first one. -/
def addressed {c : Call} (machine : Machine.Handle) : Except Failure (List Address) → Point c
  | .ok (address :: _) => .connecting machine address
  | .ok [] => .discarding machine (.network machine.id "backend reported no address")
  | .error f => .discarding machine (f.asNetwork machine.id)

/-- Where an answer takes a strand of a call. `backend` is the name of the backend. -/
def answer (backend : String) (me : Strand) (s : Store) (request : Request) (a : request.Answer) :
    {c : Call} → Point c → Option (Point c × Store)
  | .create .., .provisioning _ =>
    match request, a with
    | .backend (.provision _), .ok machine => some (.addressing machine, s)
    | .backend (.provision _), .error f => some (.finished (.error (f.asProvision backend)), s)
    | _, _ => none
  | .create .., .addressing machine =>
    match request, a with
    | .backend (.addresses _), found => some (addressed machine found, s)
    | _, _ => none
  | .create spec _, .connecting machine address =>
    match request, a with
    | .connect _, .ok agent =>
      some (.entering (.enroll machine.id s.records.length),
        { s with records := s.records ++ [Record.new spec machine address agent s.now] })
    | .connect _, .error f => some (.discarding machine (f.asUnreachable address.toText), s)
    | _, _ => none
  | .create .., .discarding _ why =>
    match request with
    | .backend (.destroy _) => some (.finished (.error why), s)
    | _ => none
  | .remove id, .destroying record =>
    match request, a with
    | .backend (.destroy _), .ok () => some (.closing record, s)
    | .backend (.destroy _), .error f =>
      some (.finished (.error (f.asDestroy id)), s.modify record Record.released)
    | _, _ => none
  | .remove id, .closing record =>
    match request with
    | .close _ =>
      some (.entering (.forget id record), s.modify record fun r => { r with removed := true }.released)
    | _ => none
  | .status id, .checking check =>
    (check.answer s request a).map fun (check, s) => (ofCheck id check, s)
  | .list filter, .gathering checks =>
    match checks[me.part]? with
    | some check =>
      (check.answer s request a).map fun (check, s) => (ofChecks filter (checks.set me.part check), s)
    | none => none
  | _, _ => none

end Point
end PodMachines.Pods
