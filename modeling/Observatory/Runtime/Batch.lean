/-
# Batches of VMs

The members of a batch launch each on its own. When one of them fails and the batch asks for
it, a stop wave takes the others down: it reads each member, pins the state it read in its
transitions, and reads again when a pin is refused.
-/
import Observatory.Runtime.Manager

namespace Observatory.Runtime

open Lib Store

/-! ## The stop wave -/

/-- A member that was still provisioning has no VMM: there is nothing to stop. -/
def stopMemberHost (vmID : Bytes) (state : VMState) : M HostReply :=
  if state = .provisioning then pure .ok else rt (.stop vmID)

def stopMember (vmID : Bytes) : Nat → M Unit
  | 0 => pure ()
  | attempts + 1 => do
    match ← st (.getVM vmID) with
    | .error _ => pure ()
    | .ok vm =>
      -- a member that is down or being stopped by someone else is left alone
      if vm.observedState.live = false ∨ vm.observedState = .stopping then pure ()
      else
        match ← st (.transitionVM
            { vmID := vmID
              frm := some vm.observedState
              dest := .stopping }) with
        | .error _ => stopMember vmID attempts
        | .ok _ =>
          let reply ← stopMemberHost vmID vm.observedState
          if !reply.settled then st (.recordCleanupFailure vmID .stopping)
          else
            match ← st (.transitionVM
                { vmID := vmID
                  frm := some .stopping
                  dest := .stopped
                  releaseCompute := true }) with
            | .error _ => stopMember vmID attempts
            | .ok _ =>
              recordDebt vmID .stopped (reply ≠ .ok)
              onVMTerminal vmID

/-- The wave over the members; the claims it takes are released when it is over. -/
def stopMembers (failedVMID : Bytes) : List Bytes → M Unit
  | [] => pure ()
  | vmID :: rest => do
    if vmID = failedVMID then stopMembers failedVMID rest
    else if ← mgr (.claimLifecycle vmID) then
      stopMember vmID 3
      stopMembers failedVMID rest
      mgr (.releaseClaim vmID)
    else pure ()

/-- Only the first failure of a batch starts the wave. -/
def stopSiblings (coord : BatchCoord) (failedVMID : Bytes) : M Unit := do
  if coord.onFailure ≠ .stopSuccessful then pure ()
  else if ← mgr (.beginStopWave coord.id) then stopMembers failedVMID coord.members
  else pure ()

/-! ## Creation -/

def runBatchMemberLaunch (coord : BatchCoord) (vmID : Bytes) : M Unit :=
  launchSequence vmID (stopSiblings coord vmID)

def launchUnlessStopped (coord : BatchCoord) (vmID : Bytes) : M Unit := do
  if ← mgr (.stopWaveStarted coord.id) then pure () else runBatchMemberLaunch coord vmID

def launchMember (coord : BatchCoord) (vmID : Bytes) : M Unit := do
  let slot ← mgr .acquireSlot
  (if slot then launchUnlessStopped coord vmID else failLaunch vmID .enqueue)
  mgr (.releaseClaim vmID)

def createBatch (members : List BatchMember) (mode : ReservationMode) (onFailure : OnFailure) :
    M (Except ManagerError Unit) := do
  if ← rt .availability then
    if members = [] then pure (.error .invalidRequest)
    else
      match ← st (.createVMBatch members mode) with
      | .error err => pure (.error (.store err))
      | .ok launchable =>
        let id ← mgr .newID
        let coord : BatchCoord := ⟨id, onFailure, launchable⟩
        Prog.forEach (fun vmID => enqueue vmID (.launchMember coord vmID)) launchable
        pure (.ok ())
  else pure (.error .unavailable)

end Observatory.Runtime
