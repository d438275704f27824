/-
# The lifecycle manager

The calls that move a VM through its life: the launch of a new VM, the typed actions, the
delete, the notice that a VMM has exited, and the stop that follows a run. Each is a program
of calls on the store, the host and the manager's own memory; between any two of them another
call of the manager may run.
-/
import Observatory.Runtime.Runs

namespace Observatory.Runtime

open Lib Store

/-! ## Launching -/

/-- Where a launch failed. -/
inductive LaunchStage where
  | enqueue | starting | launch | launchPending | running
deriving DecidableEq

/-- Whether compute goes back when a launch fails: a VMM that may exist is stopped first. -/
def failLaunchRelease (vmID : Bytes) (stage : LaunchStage) : M Bool := do
  if stage = .launch ∨ stage = .running then
    let reply ← rt (.forceStop vmID)
    pure reply.settled
  else pure (stage ≠ .launchPending)

/-- Record a failed launch and conclude the run that waited for it. -/
def failLaunch (vmID : Bytes) (stage : LaunchStage) : M Unit := do
  let releaseCompute ← failLaunchRelease vmID stage
  let frm := if stage = .enqueue ∨ stage = .starting then VMState.provisioning else .starting
  let _ ← st (.transitionVM
      { vmID := vmID
        frm := some frm
        dest := .failed
        releaseCompute := releaseCompute })
  onVMLaunchFailed vmID

/-- The provisioning sequence, provisioning → starting → running, with what follows a failure. A
refused pin means that someone superseded the launch: it walks away. -/
def launchSequence (vmID : Bytes) (onFailed : M Unit) : M Unit := do
  let bootID ← mgr .newID
  match ← st (.transitionVM
      { vmID := vmID
        frm := some .provisioning
        dest := .starting
        bootID := some bootID }) with
  | .error err =>
    if isInvalidTransition err then pure ()
    else
      failLaunch vmID .starting
      onFailed
  | .ok _ =>
    match ← rt (.launch vmID bootID) with
    | .pending =>
      failLaunch vmID .launchPending
      onFailed
    | .failed =>
      failLaunch vmID .launch
      onFailed
    | .ok =>
      match ← st (.transitionVM { vmID := vmID, frm := some .starting, dest := .running }) with
      | .error err =>
        if isInvalidTransition err then pure ()
        else
          failLaunch vmID .running
          onFailed
      | .ok _ => onVMRunning vmID

def runLaunch (vmID : Bytes) : M Unit := launchSequence vmID (pure ())

def launch (vmID : Bytes) : M Unit := do
  let slot ← mgr .acquireSlot
  (if slot then runLaunch vmID else failLaunch vmID .enqueue)
  mgr (.releaseClaim vmID)

/-- Claim a VM and start its launch in the background. -/
def enqueue (vmID : Bytes) (job : Job) : M Unit := do
  if ← mgr (.claimLifecycle vmID) then
    if ← mgr (.goTracked job) then pure ()
    else
      mgr (.releaseClaim vmID)
      failLaunch vmID .enqueue
  else failLaunch vmID .enqueue

def enqueueLaunch (vmID : Bytes) : M Unit := enqueue vmID (.launch vmID)

def createVM (vmID : Bytes) (run : Option Run) : M (Except ManagerError Unit) := do
  if ← rt .availability then
    match ← st (.createVMWithOperation vmID run) with
    | .error err => pure (.error (.store err))
    | .ok _ =>
      enqueueLaunch vmID
      pure (.ok ())
  else pure (.error .unavailable)

def withClaim {α : Type} (vmID : Bytes) (work : M (Except ManagerError α)) :
    M (Except ManagerError α) := do
  if ← mgr (.claimLifecycle vmID) then
    let result ← work
    mgr (.releaseClaim vmID)
    pure result
  else pure (.error .context)

/-! ## Actions -/

def failAction (vmID : Bytes) (cause : ManagerError) : M (Except ManagerError VM) := do
  let _ ← st (.getVM vmID)
  pure (.error cause)

/-- The cleanup a stop finished without. -/
def recordDebt (vmID : Bytes) (state : VMState) (debt : Bool) : M Unit :=
  if debt then st (.recordCleanupFailure vmID state) else pure ()

/-- The hooks of the states an action can end in. -/
def lifecycleHook (vmID : Bytes) (newState : VMState) : M Unit :=
  if newState = .stopped then onVMTerminal vmID
  else if newState = .running then onVMRunning vmID
  else pure ()

/-- The tail of an action: record what the runtime call did, then the hooks. -/
def settleAction (vmID : Bytes) (tailRevision : Option Int) (newState : VMState)
    (releaseC debt : Bool) : M (Except ManagerError VM) := do
  match ← st (.transitionVM
      { vmID := vmID
        expectedRevision := tailRevision
        dest := newState
        desiredState := some newState
        releaseCompute := releaseC }) with
  | .error err => failAction vmID (.store err)
  | .ok updVM =>
    recordDebt vmID newState debt
    lifecycleHook vmID newState
    pure (.ok updVM)

/-- The revision is spent on the transition to `starting`; the one to `running` carries no pin. -/
def doStart (vmID : Bytes) (vm : VM) (expectedRevision : Option Int) :
    M (Except ManagerError VM) := do
  if vm.observedState ≠ .stopped then
    failAction vmID (.store (.invalidTransition vm.observedState .starting))
  else
    match ← st (.getReservation vmID) with
    | .error err => failAction vmID (.store err)
    | .ok _ =>
      let bootID ← mgr .newID
      match ← st (.transitionVM
          { vmID := vmID
            expectedRevision := expectedRevision
            dest := .starting
            desiredState := some .running
            bootID := some bootID
            acquireCompute := true }) with
      | .error err => failAction vmID (.store err)
      | .ok _ =>
        match ← rt (.launch vmID bootID) with
        | .pending =>
          failLaunch vmID .launchPending
          pure (.error .runtimeOpFailed)
        | .failed =>
          failLaunch vmID .launch
          pure (.error .runtimeOpFailed)
        | .ok =>
          match ← st (.transitionVM { vmID := vmID, dest := .running }) with
          | .error err => failAction vmID (.store err)
          | .ok updVM =>
            onVMRunning vmID
            pure (.ok updVM)

def doPause (vmID : Bytes) (vm : VM) (expectedRevision : Option Int) :
    M (Except ManagerError VM) := do
  if vm.observedState ≠ .running then
    failAction vmID (.store (.invalidTransition vm.observedState .paused))
  else
    let reply ← rt (.pause vmID)
    if reply ≠ .ok then failAction vmID .runtimeOpFailed
    else settleAction vmID expectedRevision .paused false false

def doResume (vmID : Bytes) (vm : VM) (expectedRevision : Option Int) :
    M (Except ManagerError VM) := do
  if vm.observedState ≠ .paused then
    failAction vmID (.store (.invalidTransition vm.observedState .running))
  else
    let reply ← rt (.resume vmID)
    if reply ≠ .ok then failAction vmID .runtimeOpFailed
    else settleAction vmID expectedRevision .running false false

/-- The host's stop of either kind. -/
def hostStop (forced : Bool) (vmID : Bytes) : M HostReply :=
  if forced then rt (.forceStop vmID) else rt (.stop vmID)

def finishStop (vmID : Bytes) (forced : Bool) (tailRevision : Option Int) :
    M (Except ManagerError VM) := do
  let reply ← hostStop forced vmID
  if reply.settled then
    settleAction vmID tailRevision .stopped true (reply = .cleanupPending)
  else failAction vmID .runtimeOpFailed

/-- The actions `stop` and `force_stop`. A VM that is stopping already keeps the pin for the tail. -/
def doStop (vmID : Bytes) (vm : VM) (forced : Bool) (expectedRevision : Option Int) :
    M (Except ManagerError VM) := do
  if vm.observedState = .stopping then finishStop vmID forced expectedRevision
  else if vm.observedState = .running ∨ vm.observedState = .paused then
    match ← st (.transitionVM
        { vmID := vmID
          expectedRevision := expectedRevision
          dest := .stopping
          desiredState := some .stopped }) with
    | .error err => failAction vmID (.store err)
    | .ok _ => finishStop vmID forced none
  else failAction vmID (.store (.invalidTransition vm.observedState .stopping))

def doAction (vmID : Bytes) (vm : VM) (action : Action) (expectedRevision : Option Int) :
    M (Except ManagerError VM) :=
  match action with
  | .start => doStart vmID vm expectedRevision
  | .pause => doPause vmID vm expectedRevision
  | .resume => doResume vmID vm expectedRevision
  | .stop => doStop vmID vm false expectedRevision
  | .forceStop => doStop vmID vm true expectedRevision

def action (vmID : Bytes) (action : Action) (expectedRevision : Option Int) :
    M (Except ManagerError VM) :=
  withClaim vmID do
    match ← st (.getVM vmID) with
    | .error err => pure (.error (.store err))
    | .ok vm =>
      if ← st (.insertActionOperation vmID) then doAction vmID vm action expectedRevision
      else pure (.error .operation)

/-! ## Delete -/

/-- Release before flipping the row to `deleted`. -/
def releaseForDelete (vmID : Bytes) : M (Except ManagerError VM) := do
  let reply ← rt (.release vmID)
  if reply ≠ .ok then
    st (.recordCleanupFailure vmID .deleting)
    pure (.error .releaseFailed)
  else
    match ← st (.transitionVM
        { vmID := vmID
          dest := .deleted
          desiredState := some .deleted
          releaseAll := true }) with
    | .error err => pure (.error (.store err))
    | .ok vm => pure (.ok vm)

/-- A host call for a delete: a failure is recorded beside the row and ends the call. -/
def forceStopOr (vmID : Bytes) (state : VMState) (next : M (Except ManagerError VM)) :
    M (Except ManagerError VM) := do
  let reply ← rt (.forceStop vmID)
  if reply ≠ .ok then
    st (.recordCleanupFailure vmID state)
    pure (.error .runtimeOpFailed)
  else next

/-- From a row that is down to `deleted`; `signalled` says that this call has asked the VMM to
die already. -/
def finishDelete (vmID : Bytes) (vm : VM) (pin : Option Int) (signalled : Bool) :
    M (Except ManagerError VM) := do
  if vm.observedState = .failed ∨ vm.observedState = .stopped then
    match ← st (.transitionVM
        { vmID := vmID
          expectedRevision := pin
          dest := .deleting
          desiredState := some .deleted }) with
    | .error err => pure (.error (.store err))
    | .ok vm =>
      if signalled then releaseForDelete vmID
      else forceStopOr vmID vm.observedState (releaseForDelete vmID)
  else if signalled then releaseForDelete vmID
  else forceStopOr vmID vm.observedState (releaseForDelete vmID)

/-- The forced stop of a live VM; the pin is spent on the first transition that is accepted. -/
def forceStopForDelete (vmID : Bytes) (state : VMState) (pin : Option Int) :
    M (Except ManagerError VM) :=
  forceStopOr vmID state do
    let spent ← st (.transitionVM
        { vmID := vmID
          expectedRevision := pin
          dest := .stopped
          desiredState := some .deleted
          releaseCompute := true })
    match spent with
    | .error err =>
      if isInvalidTransition err then reread vmID pin else pure (.error (.store err))
    | .ok _ => reread vmID none
where
  reread (vmID : Bytes) (pin : Option Int) : M (Except ManagerError VM) := do
    match ← st (.getVM vmID) with
    | .error err => pure (.error (.store err))
    | .ok vm => finishDelete vmID vm pin true

def doDelete (vmID : Bytes) (vm : VM) (force : Bool) (expectedRevision : Option Int) :
    M (Except ManagerError VM) := do
  if vm.observedState.live then
    if !force then pure (.error .vmLive)
    else if vm.observedState = .stopping then
      forceStopForDelete vmID vm.observedState expectedRevision
    else
      match ← st (.transitionVM
          { vmID := vmID
            expectedRevision := expectedRevision
            dest := .stopping
            desiredState := some .deleted }) with
      | .error err =>
        if isInvalidTransition err then forceStopForDelete vmID vm.observedState expectedRevision
        else pure (.error (.store err))
      | .ok stopping => forceStopForDelete vmID stopping.observedState none
  else finishDelete vmID vm expectedRevision false

def delete (vmID : Bytes) (force : Bool) (expectedRevision : Option Int) :
    M (Except ManagerError VM) :=
  withClaim vmID do
    match ← st (.getVM vmID) with
    | .error err => pure (.error (.store err))
    | .ok vm =>
      if vm.observedState = .deleted then pure (.ok vm)
      else if ← mgr (.beginDelete vmID) then
        let result ← doDelete vmID vm force expectedRevision
        mgr (.endDelete vmID)
        pure result
      else pure (.ok vm)

/-! ## Exit notices and the stop after a run -/

/-- The last write of a notice; a transition that became invalid is somebody else's. -/
def settleExit (vmID : Bytes) (dest : VMState) : M (Except ManagerError Unit) := do
  match ← st (.transitionVM { vmID := vmID, dest := dest, releaseCompute := true }) with
  | .error err => if isInvalidTransition err then pure (.ok ()) else pure (.error (.store err))
  | .ok _ =>
    onVMTerminal vmID
    pure (.ok ())

/-- The call `NotifyVMMExit`: the exit of a boot, or of the current one when the notice names none. -/
def notifyVMMExit (vmID : Bytes) (bootID : Option Nat) (graceful : Bool) :
    M (Except ManagerError Unit) := do
  rt (.observeExit vmID bootID)
  withClaim vmID do
    match ← st (.getVM vmID) with
    | .error _ => pure (.ok ())
    | .ok vm =>
      if bootID.isSome ∧ vm.currentBootID.isSome ∧ bootID ≠ vm.currentBootID then pure (.ok ())
      else if vm.observedState = .provisioning ∨ vm.observedState = .starting then
        settleExit vmID .failed
      else if vm.observedState = .running ∨ vm.observedState = .paused then
        let _ ← st (.transitionVM { vmID := vmID, dest := .stopping })
        settleExit vmID (if graceful then .stopped else .failed)
      else pure (.ok ())

/-- An immediate stop, forced when it fails; what came of it is not looked at. -/
def stopAtAnyRate (vmID : Bytes) : M Unit := do
  let reply ← rt (.stop vmID)
  if reply ≠ .ok then
    let _ ← rt (.forceStop vmID)
    pure ()
  else pure ()

def stopVMAfterRun (vmID : Bytes) : M Unit := do
  match ← st (.getVM vmID) with
  | .error _ => pure ()
  | .ok vm =>
    if vm.observedState = .running ∨ vm.observedState = .paused then
      match ← st (.transitionVM
          { vmID := vmID
            dest := .stopping
            desiredState := some .stopped }) with
      | .error _ => pure ()
      | .ok _ =>
        stopAtAnyRate vmID
        let _ ← st (.transitionVM
            { vmID := vmID
              dest := .stopped
              desiredState := some .stopped
              releaseCompute := true })
        pure ()
    else pure ()

end Observatory.Runtime
