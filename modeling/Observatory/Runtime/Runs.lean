/-
# The run engine

Runs are created on running VMs and concluded in two steps, by whichever path gets there first:
the phase a path read is pinned in its transition to `concluding`, so the loser of a race finds
the run moved and walks away. The hooks connect the life of a VM to the run on it.
-/
import Observatory.Runtime.World

namespace Observatory.Runtime

open Lib Store

/-- A program of the manager. -/
abbrev M : Type → Type := Prog Call Call.Reply

/-- A call on the store. -/
abbrev st (c : StoreCall) : M c.Reply := Prog.perform (Call.store c) id

/-- A call on the host runtime. -/
abbrev rt (c : HostCall) : M c.Reply := Prog.perform (Call.host c) id

/-- A call on the manager's own memory. -/
abbrev mgr (c : ManagerCall) : M c.Reply := Prog.perform (Call.manager c) id

/-- What a call of the manager's interface fails with. -/
inductive ManagerError where
  | store (err : VMError)
  | run (err : RunError)
  | runtimeOpFailed
  | releaseFailed
  | unavailable
  | context
  | operation
  | invalidRequest
  | vmLive
  | vmNotRunning
  | runConcluded
  | verdictCriteriaMismatch
  | concludeArgsMissing

def isInvalidTransition : VMError → Bool
  | .invalidTransition _ _ => true
  | _ => false

def isInvalidRunTransition : RunError → Bool
  | .invalidRunTransition _ _ => true
  | _ => false

/-! ## Conclusion -/

/-- The truth table of the criteria. -/
def evaluateRun (run : Run) (trigger : ConcludeTrigger) : RunPhase :=
  if trigger = .launchFail then .inconclusive
  else
    match run.criteriaType, run.resultStatus with
    | .guestResult, some .succeeded => .succeeded
    | .guestResult, some .failed => .failed
    | _, _ => .inconclusive

def postConclude (run : Run) : M Unit := do
  if run.onCompletion = .stop then
    let _ ← mgr (.goTracked (.stopVMAfterRun run.vmID))
    pure ()
  else pure ()

/-- The second step of a conclusion; a lost race only reads the run again. -/
def settleRun (runID : Bytes) (terminal : RunPhase) : M (Except RunError Run) := do
  match ← st (.transitionRun runID .concluding terminal) with
  | .error err => if isInvalidRunTransition err then st (.getRun runID) else pure (.error err)
  | .ok concluded =>
    postConclude concluded
    pure (.ok concluded)

/-- The single conclusion path of everything but the operator. -/
def concludeRun (runID : Bytes) (trigger : ConcludeTrigger) : M (Except RunError Run) := do
  match ← st (.getRun runID) with
  | .error err => pure (.error err)
  | .ok run =>
    if run.phase.terminal then pure (.ok run)
    else
      match ← st (.transitionRun runID run.phase .concluding) with
      | .error err => if isInvalidRunTransition err then st (.getRun runID) else pure (.error err)
      | .ok _ =>
        match ← st (.getRun runID) with
        | .error err => pure (.error err)
        | .ok run => settleRun runID (evaluateRun run trigger)

/-- The operator's conclusion: the outcome is theirs. -/
def concludeAs (runID : Bytes) (terminal : RunPhase) : M (Except RunError Run) := do
  match ← st (.getRun runID) with
  | .error err => pure (.error err)
  | .ok run =>
    match ← st (.transitionRun runID run.phase .concluding) with
    | .error err => if isInvalidRunTransition err then st (.getRun runID) else pure (.error err)
    | .ok _ => settleRun runID terminal

def concludeRunAbort (runID : Bytes) : M (Except RunError Run) := concludeAs runID .aborted

def concludeRunWithVerdict (runID : Bytes) : ResultStatus → M (Except RunError Run)
  | .succeeded => concludeAs runID .succeeded
  | .failed => concludeAs runID .failed

def runResult (result : Except RunError Run) : Except ManagerError Run :=
  match result with
  | .error err => .error (.run err)
  | .ok run => .ok run

/-- The call `ConcludeRun`: an abort is allowed on any run, a verdict on an `operator_verdict` run only. -/
def concludeByOperator (runID : Bytes) (verdict : Option ResultStatus) (abort : Bool) :
    M (Except ManagerError Run) := do
  match ← st (.getRun runID) with
  | .error err => pure (.error (.run err))
  | .ok run =>
    if run.phase.terminal then pure (.error .runConcluded)
    else if !abort && verdict.isSome && run.criteriaType ≠ .operatorVerdict then
      pure (.error .verdictCriteriaMismatch)
    else if abort then return runResult (← concludeRunAbort runID)
    else
      match verdict with
      | none => pure (.error .concludeArgsMissing)
      | some verdict => return runResult (← concludeRunWithVerdict runID verdict)

/-! ## Hooks -/

def onVMRunning (vmID : Bytes) : M Unit := do
  match ← st (.activeRunForVM vmID) with
  | .error _ => pure ()
  | .ok none => pure ()
  | .ok (some run) =>
    if run.phase = .pending then
      let _ ← st (.transitionRun run.runID .pending .running)
      pure ()
    else pure ()

def concludeActive (vmID : Bytes) (trigger : ConcludeTrigger) : M Unit := do
  match ← st (.activeRunForVM vmID) with
  | .error _ => pure ()
  | .ok none => pure ()
  | .ok (some run) =>
    if run.phase.terminal then pure ()
    else
      let _ ← concludeRun run.runID trigger
      pure ()

def onVMTerminal (vmID : Bytes) : M Unit := concludeActive vmID .vmTerminal

def onVMLaunchFailed (vmID : Bytes) : M Unit := concludeActive vmID .launchFail

/-! ## Requests -/

/-- The call `CreateRun`: a standalone run starts on a VM that is observed running. -/
def createRun (row : Run) : M (Except ManagerError Unit) := do
  match ← st (.getVM row.vmID) with
  | .error err => pure (.error (.store err))
  | .ok vm =>
    if vm.observedState ≠ .running then pure (.error .vmNotRunning)
    else
      let fresh := { row with phase := .running, resultStatus := none, progressSeq := 0 }
      match ← st (.createRun fresh) with
      | .error err => pure (.error (.run err))
      | .ok _ => pure (.ok ())

/-- The call `SubmitRunResult`: record the guest's result, then conclude in the background. -/
def submitRunResult (runID : Bytes) (status : ResultStatus) : M (Except ManagerError Unit) := do
  match ← st (.submitRunResult runID status) with
  | .error err => pure (.error (.run err))
  | .ok _ =>
    let _ ← mgr (.goTracked (.concludeRun runID .guestResult))
    pure (.ok ())

end Observatory.Runtime
