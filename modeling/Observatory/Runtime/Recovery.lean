/-
# Recovery

Cleanup that did not complete is retried in passes over the registry, outside of foreground
work. After a restart `reconcile` settles what the last controller left: rows in transitional
states, and runs whose VM is no longer live.
-/
import Observatory.Runtime.Manager

namespace Observatory.Runtime

open Lib Store

/-! ## Cleanup retry -/

def cleanupRetryPage : Nat := 16

/-- A retry that failed is recorded unless it was cancelled. -/
def recordRetryFailure (vmID : Bytes) (state : VMState) : M (Except ManagerError Unit) := do
  if ← mgr .contextErr then pure (.error .context)
  else
    st (.recordCleanupFailure vmID state)
    pure (.error .runtimeOpFailed)

def storeResult {α : Type} (result : Except VMError α) : Except ManagerError Unit :=
  match result with
  | .error err => .error (.store err)
  | .ok _ => .ok ()

/-- The last step of a delete that a retry finishes. -/
def retryDelete (vmID : Bytes) (vm : VM) : M (Except ManagerError Unit) := do
  let result ← st (.transitionVM
      { vmID := vmID
        frm := some vm.observedState
        expectedRevision := some vm.revision
        dest := .deleted
        releaseAll := true })
  pure (storeResult result)

/-- The row has not moved since the retry read it: both pins are on what was read. -/
def retryStopped (vmID : Bytes) (vm : VM) : M (Except VMError VM) :=
  st (.transitionVM
    { vmID := vmID
      frm := some vm.observedState
      expectedRevision := some vm.revision
      dest := .stopped
      releaseCompute := true })

def retryRelease (vmID : Bytes) (vm : VM) : M (Except ManagerError Unit) := do
  let reply ← rt (.release vmID)
  if reply ≠ .ok then recordRetryFailure vmID vm.observedState
  else if ← mgr .contextErr then pure (.error .context)
  else if vm.observedState = .failed then
    let result ← st (.releaseVMReservations vmID)
    pure (storeResult result)
  else if vm.observedState = .stopping then
    match ← retryStopped vmID vm with
    | .error err => pure (.error (.store err))
    | .ok stopped =>
      match ← st (.transitionVM
          { vmID := vmID
            frm := some stopped.observedState
            dest := .deleting }) with
      | .error err => pure (.error (.store err))
      | .ok deleting => retryDelete vmID deleting
  else retryDelete vmID vm

/-- A forced stop observes the process that is there now; what follows depends on the row. -/
def retryStop (vmID : Bytes) (vm : VM) : M (Except ManagerError Unit) := do
  let reply ← rt (.forceStop vmID)
  if !reply.settled then recordRetryFailure vmID vm.observedState
  else if ← mgr .contextErr then pure (.error .context)
  else if vm.observedState = .stopped then
    if reply ≠ .ok then recordRetryFailure vmID vm.observedState
    else
      let result ← st (.clearCleanupDebt vmID)
      pure (storeResult result)
  else if vm.observedState = .stopping ∧ vm.desiredState ≠ .deleted then
    if reply ≠ .ok then recordRetryFailure vmID vm.observedState
    else
      match ← retryStopped vmID vm with
      | .error err => pure (.error (.store err))
      | .ok _ =>
        onVMTerminal vmID
        pure (.ok ())
  else retryRelease vmID vm

def retryVM (vmID : Bytes) : M (Except ManagerError Unit) := do
  match ← st (.getVM vmID) with
  | .error err => pure (.error (.store err))
  | .ok vm =>
    if vm.observedState = .stopping ∨ vm.observedState = .deleting then retryStop vmID vm
    else if vm.observedState = .stopped then
      match ← st (.hasCleanupDebt vmID) with
      | .error err => pure (.error (.store err))
      | .ok pending => if pending then retryStop vmID vm else pure (.ok ())
    else if vm.observedState = .failed then
      match ← st (.getReservation vmID) with
      | .error err => pure (.error (.store err))
      | .ok reservation => if reservation.released then pure (.ok ()) else retryStop vmID vm
    else pure (.ok ())

/-- Whether a pass ends here: the retry failed and the pass's own context is over. -/
def passOver (result : Except ManagerError Unit) : M Bool :=
  match result with
  | .error _ => mgr .contextErr
  | .ok _ => pure false

/-- Work through a page; false when the pass's context ended. -/
def retryRows : List (Nat × VM) → M Bool
  | [] => pure true
  | (rowID, candidate) :: rest => do
    if ← mgr .contextErr then pure false
    else
      mgr (.setCleanupAfter rowID)
      if ← mgr (.claimCleanup candidate.vmID) then
        let result ← retryVM candidate.vmID
        mgr (.releaseCleanup candidate.vmID)
        if ← passOver result then pure false else retryRows rest
      else retryRows rest

/-- One page of stalled work; the next pass goes on after it, or starts again. -/
def retryPass : M (Except ManagerError Unit) := do
  let after ← mgr .cleanupAfter
  match ← st (.listVMs
      { after := after
        limit := cleanupRetryPage
        states := [.stopping, .deleting, .failed]
        includeStoppedCleanup := true }) with
  | .error err => pure (.error (.store err))
  | .ok rows =>
    if ← retryRows rows then
      if rows.length < cleanupRetryPage then
        mgr (.setCleanupAfter 0)
        pure (.ok ())
      else pure (.ok ())
    else pure (.error .context)

def retryCleanup : M (Except ManagerError Unit) := do
  if ← mgr .tryLockPass then
    let result ← retryPass
    mgr .unlockPass
    pure result
  else pure (.ok ())

/-! ## Reconcile -/

/-- A VM that never ran, or may have: only an observed stop gives its compute back. -/
def reconcileLaunch (vm : VM) : M Unit := do
  let releaseCompute ←
    if vm.observedState = .provisioning then pure true
    else do
      let reply ← rt (.forceStop vm.vmID)
      pure reply.settled
  let _ ← st (.transitionVM
      { vmID := vm.vmID
        dest := .failed
        releaseCompute := releaseCompute })
  pure ()

/-- Adopted VMs are left alone, and so is one the scan could not tell about. -/
def reconcileLive (cfg : Startup) (vm : VM) : M Unit := do
  if cfg.adoptedVMs.contains vm.vmID then pure ()
  else if cfg.ambiguousVMs.contains vm.vmID then
    st (.recordReconcileAmbiguity vm.vmID vm.observedState)
  else
    let _ ← st (.transitionVM
        { vmID := vm.vmID
          dest := .failed
          releaseCompute := true })
    pure ()

/-- Whether an interrupted stop may be settled; the stop of an adopted VM is finished first. -/
def finishAdoptedStop (cfg : Startup) (vm : VM) : M Bool := do
  if cfg.adoptedVMs.contains vm.vmID then
    let reply ← rt (.forceStop vm.vmID)
    if reply = .ok ∨ reply = .unavailable then pure true
    else if reply = .cleanupPending then
      st (.recordCleanupFailure vm.vmID .stopped)
      pure true
    else
      st (.recordCleanupFailure vm.vmID .stopping)
      pure false
  else pure true

def reconcileStopping (cfg : Startup) (vm : VM) : M Unit := do
  if cfg.ambiguousVMs.contains vm.vmID then
    st (.recordReconcileAmbiguity vm.vmID vm.observedState)
  else if ← finishAdoptedStop cfg vm then
    let _ ← st (.transitionVM
        { vmID := vm.vmID
          dest := .stopped
          releaseCompute := true })
    pure ()
  else pure ()

/-- A runtime that is absent does not wedge a delete: its answer is tolerated. -/
def tolerated (reply : HostReply) : Bool := reply = .ok || reply = .unavailable

def finishReconciledDelete (vm : VM) : M Unit := do
  let reply ← rt (.release vm.vmID)
  if tolerated reply then
    let _ ← st (.transitionVM
        { vmID := vm.vmID
          dest := .deleted
          desiredState := some .deleted
          releaseAll := true })
    pure ()
  else st (.recordCleanupFailure vm.vmID .deleting)

def reconcileDeleting (vm : VM) : M Unit := do
  let reply ← rt (.forceStop vm.vmID)
  if tolerated reply then finishReconciledDelete vm
  else st (.recordCleanupFailure vm.vmID .deleting)

def reconcileVM (cfg : Startup) (vm : VM) : M Unit :=
  match vm.observedState with
  | .provisioning | .starting => reconcileLaunch vm
  | .running | .paused => reconcileLive cfg vm
  | .stopping => reconcileStopping cfg vm
  | .deleting => reconcileDeleting vm
  | .stopped | .failed | .deleted => pure ()

def keepsRuns (state : VMState) : Bool := state = .running || state = .paused

/-- The run is over when its VM is not live any more, or not known. -/
def interrupted (found : Except VMError VM) : Bool :=
  match found with
  | .error _ => true
  | .ok vm => !keepsRuns vm.observedState

def reconcileRun (run : Run) : M Unit := do
  let found ← st (.getVM run.vmID)
  if interrupted found then
    let _ ← concludeRun run.runID .interrupted
    pure ()
  else pure ()

def reconcileRuns : M (Except ManagerError Unit) := do
  match ← st (.listRunsInPhases [.pending, .running, .concluding]) with
  | .error err => pure (.error (.run err))
  | .ok activeRuns =>
    Prog.forEach reconcileRun activeRuns
    pure (.ok ())

def reconcile (cfg : Startup) : M (Except ManagerError Unit) := do
  if ← st .failOperations then
    match ← st (.listVMs { limit := maxPageLimit }) with
    | .error err => pure (.error (.store err))
    | .ok allVMs =>
      Prog.forEach (fun row => reconcileVM cfg row.2) allVMs
      reconcileRuns
  else pure (.error .operation)

end Observatory.Runtime
