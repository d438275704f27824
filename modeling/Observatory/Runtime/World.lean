/-
# The world of the lifecycle manager

The manager works over three things: the store with its tables, the host that runs the VMMs, and
its own memory (claims, the deletes under way, the stop waves). Each call on one of them is
atomic; what it answers is decided by the world and by an environment that may fail any call.

The record `log` is not part of the program: it keeps which boots were launched and which were
proven gone, so that properties of the reservations can be stated.
-/
import Observatory.Lib.Pool
import Observatory.Store.Vms

namespace Observatory.Runtime

open Lib Store Function

/-! ## Requests -/

/-- What the host runtime answers: nil, `ErrCleanupPending`, `UnavailableError` or any other
error. -/
inductive HostReply where
  | ok | cleanupPending | unavailable | failed
deriving DecidableEq

/-- The VMM is proven gone, whatever is left to clean up. -/
def HostReply.settled : HostReply → Bool
  | .ok | .cleanupPending => true
  | _ => false

/-- What a launch answers; `pending` is `ErrLaunchPending`, a host worker that is still alive. -/
inductive LaunchReply where
  | ok | pending | failed
deriving DecidableEq

inductive Action where
  | start | pause | resume | stop | forceStop
deriving DecidableEq

/-- What caused a run to conclude. -/
inductive ConcludeTrigger where
  | guestResult | vmTerminal | interrupted | launchFail
deriving DecidableEq

inductive ReservationMode where
  | atomicReservation | bestEffort
deriving DecidableEq

inductive OnFailure where
  | keepSuccessful | stopSuccessful
deriving DecidableEq

structure BatchMember where
  vmID : Bytes
  run : Option Run
deriving DecidableEq

/-- What the startup scan of the host found out about the VMs it saw. -/
structure Startup where
  adoptedVMs : List Bytes
  ambiguousVMs : List Bytes
deriving DecidableEq

/-- The members of a batch that were admitted and what happens to them when one fails. -/
structure BatchCoord where
  id : Nat
  onFailure : OnFailure
  members : List Bytes
deriving DecidableEq

/-- The calls of the manager's interface, and the work it starts in the background. -/
inductive Job where
  | createVM (vmID : Bytes) (run : Option Run)
  | launch (vmID : Bytes)
  | createBatch (members : List BatchMember) (mode : ReservationMode) (onFailure : OnFailure)
  | launchMember (coord : BatchCoord) (vmID : Bytes)
  | stopSiblings (coord : BatchCoord) (failedVMID : Bytes)
  | action (vmID : Bytes) (action : Action) (expectedRevision : Option Int)
  | delete (vmID : Bytes) (force : Bool) (expectedRevision : Option Int)
  | notifyVMMExit (vmID : Bytes) (bootID : Option Nat) (graceful : Bool)
  | stopVMAfterRun (vmID : Bytes)
  | retryCleanup
  | reconcile (cfg : Startup)
  | createRun (row : Run)
  | submitRunResult (runID : Bytes) (status : ResultStatus)
  | concludeRun (runID : Bytes) (trigger : ConcludeTrigger)
  | concludeByOperator (runID : Bytes) (verdict : Option ResultStatus) (abort : Bool)
deriving DecidableEq

/-! ## Calls and their replies -/

inductive StoreCall where
  | getVM (vmID : Bytes)
  | getReservation (vmID : Bytes)
  | transitionVM (inp : TransitionInput)
  | createVMWithOperation (vmID : Bytes) (run : Option Run)
  | createVMBatch (members : List BatchMember) (mode : ReservationMode)
  | listVMs (q : VMQuery)
  | insertActionOperation (vmID : Bytes)
  | failOperations
  | hasCleanupDebt (vmID : Bytes)
  | clearCleanupDebt (vmID : Bytes)
  | recordCleanupFailure (vmID : Bytes) (state : VMState)
  | recordReconcileAmbiguity (vmID : Bytes) (state : VMState)
  | releaseVMReservations (vmID : Bytes)
  | getRun (runID : Bytes)
  | activeRunForVM (vmID : Bytes)
  | listRunsInPhases (phases : List RunPhase)
  | createRun (row : Run)
  | transitionRun (runID : Bytes) (frm : RunPhase) (dest : RunPhase)
  | submitRunResult (runID : Bytes) (status : ResultStatus)

inductive HostCall where
  | availability
  | launch (vmID : Bytes) (bootID : Nat)
  | pause (vmID : Bytes)
  | resume (vmID : Bytes)
  | stop (vmID : Bytes)
  | forceStop (vmID : Bytes)
  | release (vmID : Bytes)
  /-- The exit of a VMM is seen; without a boot it is the exit of the boot that is current. -/
  | observeExit (vmID : Bytes) (bootID : Option Nat)

inductive ManagerCall where
  | newID
  | claimLifecycle (vmID : Bytes)
  | releaseClaim (vmID : Bytes)
  | claimCleanup (vmID : Bytes)
  | releaseCleanup (vmID : Bytes)
  | contextErr
  | beginDelete (vmID : Bytes)
  | endDelete (vmID : Bytes)
  | tryLockPass
  | unlockPass
  | cleanupAfter
  | setCleanupAfter (rowID : Nat)
  | acquireSlot
  | beginStopWave (coord : Nat)
  | stopWaveStarted (coord : Nat)
  | goTracked (job : Job)

inductive Call where
  | store (c : StoreCall)
  | host (c : HostCall)
  | manager (c : ManagerCall)

@[reducible] def StoreCall.Reply : StoreCall → Type
  | getVM _ => Except VMError VM
  | getReservation _ => Except VMError VM
  | transitionVM _ => Except VMError VM
  | createVMWithOperation _ _ => Except VMError Unit
  | createVMBatch _ _ => Except VMError (List Bytes)
  | listVMs _ => Except VMError (List (Nat × VM))
  | insertActionOperation _ => Bool
  | failOperations => Bool
  | hasCleanupDebt _ => Except VMError Bool
  | clearCleanupDebt _ => Except VMError Unit
  | recordCleanupFailure _ _ => Unit
  | recordReconcileAmbiguity _ _ => Unit
  | releaseVMReservations _ => Except VMError Unit
  | getRun _ => Except RunError Run
  | activeRunForVM _ => Except RunError (Option Run)
  | listRunsInPhases _ => Except RunError (List Run)
  | createRun _ => Except RunError Unit
  | transitionRun _ _ _ => Except RunError Run
  | submitRunResult _ _ => Except RunError Unit

@[reducible] def HostCall.Reply : HostCall → Type
  | availability => Bool
  | launch _ _ => LaunchReply
  | observeExit _ _ => Unit
  | _ => HostReply

@[reducible] def ManagerCall.Reply : ManagerCall → Type
  | newID | cleanupAfter => Nat
  | releaseClaim _ | releaseCleanup _ | endDelete _ | unlockPass | setCleanupAfter _ => Unit
  | _ => Bool

@[reducible] def Call.Reply : Call → Type
  | store c => c.Reply
  | host c => c.Reply
  | manager c => c.Reply

/-! ## The state -/

/-- The tables of the store. -/
structure Tables where
  vms : List VM
  runs : List Run

/-- What is known about the boots of a VM. -/
inductive Evidence where
  | launched (vmID : Bytes) (bootID : Nat)
  | stopped (vmID : Bytes) (bootID : Option Nat)
  | exited (vmID : Bytes) (bootID : Option Nat)
deriving DecidableEq

/-- The users of a VM, or the one retry that works on it. -/
structure LifecycleClaim where
  users : Nat
  retry : Bool

/-- The manager's own memory: it is gone after a crash, but fresh ids stay fresh. -/
structure Memory where
  claims : Bytes → LifecycleClaim
  deleting : Bytes → Bool
  stopped : Nat → Bool
  pass : Bool
  after : Nat
  nextID : Nat

structure World where
  tables : Tables
  vmm : Bytes → Bool
  log : List Evidence
  memory : Memory

def Memory.new (nextID : Nat) : Memory where
  claims _ := ⟨0, false⟩
  deleting _ := false
  stopped _ := false
  pass := false
  after := 0
  nextID := nextID

/-- A fresh store on a host without VMMs. -/
def World.new : World := ⟨⟨[], []⟩, fun _ => false, [], Memory.new 0⟩

/-- A crash takes the memory; the VMMs are daemons of the host and survive it. -/
def World.restart (w : World) : World := { w with memory := Memory.new w.memory.nextID }

def World.row (w : World) (vmID : Bytes) : Option VM := Store.getVM w.tables.vms vmID

/-- What the environment decides about one call. -/
structure Env where
  /-- The store fails the call, without an effect. -/
  fault : Bool := false
  /-- The store has committed a batch and then fails to read it back. -/
  readBackFault : Bool := false
  /-- Admission grants what is asked for. -/
  admitted : Bool := true
  /-- The members of a batch that admission refuses. -/
  refused : List Bytes := []
  /-- The call's context is over. -/
  ctxDone : Bool := false
  /-- The manager still takes background work. -/
  tracked : Bool := true
  launch : LaunchReply := .ok
  host : HostReply := .ok
  /-- A host call that did not succeed leaves the VMM alive. -/
  alive : Bool := false

/-! ## What calls do -/

def attachRun (runs : List Run) (vmID : Bytes) : Option Run → Except RunError (List Run)
  | none => .ok runs
  | some run =>
    Store.createRun runs
      { run with vmID := vmID, phase := .pending, resultStatus := none, progressSeq := 0 }

/-- Create one admitted VM with its run, in one transaction. -/
def Tables.admitVM (t : Tables) (vmID : Bytes) (run : Option Run) : Except VMError Tables :=
  match insertVM t.vms vmID with
  | .error err => .error err
  | .ok vms =>
    match attachRun t.runs vmID run with
    | .error _ => .error .database
    | .ok runs => .ok ⟨vms, runs⟩

def Tables.admitMembers (t : Tables) : List BatchMember → Except VMError Tables
  | [] => .ok t
  | m :: ms =>
    match t.admitVM m.vmID m.run with
    | .error err => .error err
    | .ok t' => t'.admitMembers ms

/-- The members that admission lets in: all or none of an atomic batch. -/
def admittedMembers (e : Env) (mode : ReservationMode) (members : List BatchMember) :
    List BatchMember :=
  match mode with
  | .atomicReservation => if e.admitted then members else []
  | .bestEffort => members.filter fun m => !e.refused.contains m.vmID

/-- The store's answer to a read. -/
def answer {ε α : Type} (e : Env) (down missing : ε) (found : Option α) : Except ε α :=
  if e.fault then .error down
  else
    match found with
    | none => .error missing
    | some a => .ok a

/-- The store's answer to a write, and the tables after it. -/
def commit {ε α : Type} (t : Tables) (e : Env) (down : ε) (result : Except ε (Tables × α)) :
    Tables × Except ε α :=
  if e.fault then (t, .error down)
  else
    match result with
    | .error err => (t, .error err)
    | .ok (t', a) => (t', .ok a)

def StoreCall.exec (t : Tables) (e : Env) : (c : StoreCall) → Tables × c.Reply
  | getVM v => (t, answer e .database .vmUnknown (Store.getVM t.vms v))
  | getReservation v => (t, answer e .database .vmUnknown (Store.getVM t.vms v))
  | transitionVM inp =>
    commit t e .database
      ((Store.transitionVM t.vms inp e.admitted).map fun (vms, vm) => ({ t with vms := vms }, vm))
  | createVMWithOperation v run =>
    commit t e .database
      (if e.admitted then (t.admitVM v run).map fun t' => (t', ()) else .error .admissionRefusal)
  | createVMBatch members mode =>
    let admitted := admittedMembers e mode members
    let (t', reply) :=
      commit t e .database ((t.admitMembers admitted).map fun t' => (t', admitted.map (·.vmID)))
    (t', if e.readBackFault then .error .database else reply)
  | listVMs q => (t, answer e .database .database (Store.listVMs t.vms q))
  | insertActionOperation _ => (t, !e.fault)
  | failOperations => (t, !e.fault)
  | hasCleanupDebt v =>
    (t, answer e .database .database (some (t.vms.any fun vm => vm.vmID = v && vm.cleanupDebt)))
  | clearCleanupDebt v =>
    commit t e .database (.ok ({ t with vms := Store.clearCleanupDebt t.vms v }, ()))
  | recordCleanupFailure v state =>
    (if e.fault then t else { t with vms := Store.recordCleanupFailure t.vms v state }, ())
  | recordReconcileAmbiguity _ _ => (t, ())
  | releaseVMReservations v =>
    commit t e .database (.ok ({ t with vms := Store.releaseVMReservations t.vms v }, ()))
  | getRun r => (t, answer e .database .runNotFound (Store.getRun t.runs r))
  | activeRunForVM v => (t, answer e .database .database (some (Store.activeRunForVM t.runs v)))
  | listRunsInPhases phases =>
    (t, answer e .database .database (some (Store.listRunsInPhases t.runs phases)))
  | createRun row =>
    commit t e .database
      ((Store.createRun t.runs row).map fun runs => ({ t with runs := runs }, ()))
  | transitionRun r frm dest =>
    commit t e .database
      ((Store.transitionRun t.runs r (some frm) dest).map fun (runs, run) =>
        ({ t with runs := runs }, run))
  | submitRunResult r status =>
    commit t e .database
      ((Store.submitRunResult t.runs r status).map fun runs => ({ t with runs := runs }, ()))

def World.boot (w : World) (vmID : Bytes) : Option Nat := (w.row vmID).bind VM.currentBootID

/-- The host after a stop of either kind. -/
def World.stopped (w : World) (v : Bytes) (e : Env) : World :=
  if e.host.settled then
    { w with vmm := update w.vmm v false, log := w.log ++ [.stopped v (w.boot v)] }
  else { w with vmm := update w.vmm v (w.vmm v && e.alive) }

def HostCall.exec (w : World) (e : Env) : (c : HostCall) → World × c.Reply
  | availability => (w, e.host = .ok)
  | launch v b =>
    ({ w with
        vmm := update w.vmm v (e.launch = .ok || e.alive), log := w.log ++ [.launched v b] },
      e.launch)
  | pause _ => (w, e.host)
  | resume _ => (w, e.host)
  | stop v => (w.stopped v e, e.host)
  | forceStop v => (w.stopped v e, e.host)
  | release v =>
    ({ w with vmm := update w.vmm v (!(e.host = .ok) && w.vmm v && e.alive) }, e.host)
  | observeExit v b => ({ w with log := w.log ++ [.exited v (b.or (w.boot v))] }, ())

/-- It is `none` when the call waits: a foreground call waits for the retry that holds its VM. -/
def ManagerCall.exec (m : Memory) (e : Env) : (c : ManagerCall) → Option (Memory × c.Reply)
  | newID => some ({ m with nextID := m.nextID + 1 }, m.nextID)
  | claimLifecycle v =>
    if (m.claims v).retry then
      if e.ctxDone then some (m, false) else none
    else
      let claim : LifecycleClaim := ⟨(m.claims v).users + 1, false⟩
      some ({ m with claims := update m.claims v claim }, true)
  | releaseClaim v =>
    let claim : LifecycleClaim := ⟨(m.claims v).users - 1, (m.claims v).retry⟩
    some ({ m with claims := update m.claims v claim }, ())
  | claimCleanup v =>
    if (m.claims v).users = 0 ∧ (m.claims v).retry = false then
      some ({ m with claims := update m.claims v ⟨0, true⟩ }, true)
    else some (m, false)
  | releaseCleanup v =>
    some ({ m with claims := update m.claims v ⟨(m.claims v).users, false⟩ }, ())
  | contextErr => some (m, e.ctxDone)
  | beginDelete v =>
    if m.deleting v then some (m, false)
    else some ({ m with deleting := update m.deleting v true }, true)
  | endDelete v => some ({ m with deleting := update m.deleting v false }, ())
  | tryLockPass => if m.pass then some (m, false) else some ({ m with pass := true }, true)
  | unlockPass => some ({ m with pass := false }, ())
  | cleanupAfter => some (m, m.after)
  | setCleanupAfter n => some ({ m with after := n }, ())
  | acquireSlot => some (m, !e.ctxDone)
  | beginStopWave id =>
    if m.stopped id then some (m, false)
    else some ({ m with stopped := update m.stopped id true }, true)
  | stopWaveStarted id => some (m, m.stopped id)
  | goTracked _ => some (m, e.tracked)

def Call.exec (w : World) (c : Call) (e : Env) : Option (World × c.Reply) :=
  match c with
  | store c =>
    let (tables, reply) := c.exec w.tables e
    some ({ w with tables := tables }, reply)
  | host c => some (c.exec w e)
  | manager c =>
    match c.exec w.memory e with
    | none => none
    | some (memory, reply) => some ({ w with memory := memory }, reply)

end Observatory.Runtime
