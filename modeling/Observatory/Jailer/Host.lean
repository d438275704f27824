/-
# The launch, stop and release transactions

The adapter's transactions as programs of calls to the host. A call that touches the manifests
or the subnet allocator has its effect here; what the other calls do on the host (staging, the
root daemon, processes, the runner) is left to the environment, which picks their replies. One
transaction runs at a time (`launchMu`), and the daemon can crash between any two calls.
-/
import Observatory.Jailer.Manifest
import Observatory.Lib.Episodes
import Observatory.Privd.Pid

namespace Observatory.Jailer

open Lib Lib.Ipv4 Network Privd

/-! ## Calls and replies -/

inductive ManifestRead where
  | ok (m : Manifest)
  | notExist
  | failed
deriving DecidableEq

/-- `start_vm`: the process, an error the root daemon vouches for, or no answer. -/
inductive StartReply where
  | started (pid : Int) (starttime : Bytes)
  | refused
  | unknown

/-- What the root daemon's journal says about an operation. A success carries the response, if
it can be read. -/
inductive OperationOutcome where
  | failed
  | succeeded (start : Option (Int × Bytes))
  | pending
deriving DecidableEq

inductive ReleaseReply where
  | ok
  | notFound
  | invalidState
  | failed
deriving DecidableEq

inductive StatReply where
  | present
  | notExist
  | failed
deriving DecidableEq

inductive CtlReply where
  | unreachable
  | refused
  | accepted
deriving DecidableEq

/-- The runner's phases, as its state file has them. -/
inductive Phase where
  | unread
  | starting
  | attached
  | degraded
  | vmmExited
  | finalized
deriving DecidableEq

structure RunnerState where
  phase : Phase
  vmmPID : Int
  vmmStart : Bytes

inductive SignalKind where
  | term
  | kill

/-- Steps on the host that work or fail, and touch neither manifests nor leases. -/
inductive HostStep where
  | mkdirStateDir
  | doStage
  | allocateNetwork
  | computeStagedFiles
  | openRunnerLog
  | waitAttached
  | killRunner
  | signalVM (kind : SignalKind)
  | rescueFailedLaunch
  /-- A lease that the root daemon does not know counts as released. -/
  | releaseNetwork
  | removeStageDir
  | finalize

inductive Call where
  | restoreNetworkLeases
  | allocateSlot (vmID : Bytes)
  | acquire (vmID : Bytes)
  | releaseLease (vmID : Bytes)
  | readManifest (vmID : Bytes)
  | writeManifest (m : Manifest)
  | removeStateDir (vmID : Bytes)
  | newUUID
  | newOpID
  | host (step : HostStep)
  | startVM (vmID : Bytes)
  | spawnRunner
  | queryOperation (opID : Bytes)
  | releaseVM
  | statChroot
  | runnerAlive
  | readRunnerState
  | shutdownGuest
  | pollRunnerPhase
  | statProc (pid : Int)
  | readProcStat (pid : Int)
  /-- Wait for the next tick; no when the window closes or the context ends. -/
  | tick

abbrev Call.Reply : Call → Type
  | restoreNetworkLeases => Bool
  | allocateSlot _ => Option Nat
  | acquire _ => Option Prefix
  | releaseLease _ => Unit
  | readManifest _ => ManifestRead
  | writeManifest _ => Bool
  | removeStateDir _ => Bool
  | newUUID => Option Bytes
  | newOpID => Bytes
  | host _ => Bool
  | startVM _ => StartReply
  | spawnRunner => Option (Int × Bytes)
  | queryOperation _ => Option OperationOutcome
  | releaseVM => ReleaseReply
  | statChroot => StatReply
  | runnerAlive => Bool
  | readRunnerState => Option RunnerState
  | shutdownGuest => CtlReply
  | pollRunnerPhase => Phase
  | statProc _ => StatReply
  | readProcStat _ => ProcRead
  | tick => Bool

/-! ## What the calls do -/

/-- How far a write got: the old manifest is still there; the new one is, but the sync of its
directory failed; the write worked. -/
inductive Write where
  | kept
  | unsynced
  | done
deriving DecidableEq

/-- How far the removal of a VM's directory got: it failed with the manifest still there; it
failed with the manifest gone; it worked. -/
inductive Removal where
  | kept
  | cut
  | done

/-- What the environment chooses for a call. Reading fails or shows what is there. -/
abbrev Call.Choice : Call → Type
  | restoreNetworkLeases => Option (List (Bytes × Prefix))
  | allocateSlot _ => Bool
  | acquire _ => Unit
  | releaseLease _ => Unit
  | readManifest _ => Bool
  | writeManifest _ => Write
  | removeStateDir _ => Removal
  | c => c.Reply

/-- The manifests on disk, the allocator in memory, and for each VM the identities it was given
and has not been released from: `held` is set when a manifest becomes visible and cleared when
the removal of the VM's directory has returned nil. -/
structure Host where
  manifests : List Manifest
  alloc : Allocator
  held : Bytes → Option Identity

/-- The daemon is started: nothing is in memory. -/
def Host.restart (cfg : Config) (h : Host) : Host :=
  { h with alloc := ⟨cfg.pools, [], fun _ => none, fun _ => none⟩ }

/-- No VM was ever launched. -/
def Host.initial (cfg : Config) : Host :=
  ⟨[], ⟨cfg.pools, [], fun _ => none, fun _ => none⟩, fun _ => none⟩

namespace Host

def writeManifest (h : Host) (m : Manifest) : Write → Host × Bool
  | .kept => (h, false)
  | w => ({ h with
      manifests := publish h.manifests m
      held := Function.update h.held m.vmID (some m.identity) }, w = .done)

def removeStateDir (h : Host) (vmID : Bytes) : Removal → Host × Bool
  | .kept => (h, false)
  | .cut => ({ h with manifests := unpublish h.manifests vmID }, false)
  | .done => ({ h with
      manifests := unpublish h.manifests vmID
      held := Function.update h.held vmID none }, true)

def readManifest (h : Host) (vmID : Bytes) (readable : Bool) : ManifestRead :=
  if !readable then .failed
  else
    match manifestOf h.manifests vmID with
    | some m => .ok m
    | none => .notExist

def allocateSlot (h : Host) (vmID : Bytes) (maxSlots : Nat) (readable : Bool) : Option Nat :=
  if readable then Jailer.allocateSlot h.manifests vmID maxSlots else none

def acquire (h : Host) (vmID : Bytes) : Host × Option Prefix :=
  match h.alloc.acquire vmID with
  | some (.ok p, alloc) => ({ h with alloc := alloc }, some p)
  | some (.error _, alloc) => ({ h with alloc := alloc }, none)
  | none => (h, none)

/-- The scan of the manifests and the root daemon's inventory can both fail. -/
def restoreNetworkLeases (h : Host) : Option (List (Bytes × Prefix)) → Host × Bool
  | none => (h, false)
  | some claims =>
    let restored := Jailer.restoreNetworkLeases h.alloc h.manifests claims
    ({ h with alloc := restored.2 }, restored.1)

end Host

def Call.exec (cfg : Config) (h : Host) : (c : Call) → c.Choice → Host × c.Reply
  | restoreNetworkLeases, e => h.restoreNetworkLeases e
  | allocateSlot vmID, e => (h, h.allocateSlot vmID cfg.maxSlots e)
  | acquire vmID, _ => h.acquire vmID
  | releaseLease vmID, _ => ({ h with alloc := h.alloc.release vmID }, ())
  | readManifest vmID, e => (h, h.readManifest vmID e)
  | writeManifest m, e => h.writeManifest m e
  | removeStateDir vmID, e => h.removeStateDir vmID e
  | newUUID, e => (h, e)
  | newOpID, e => (h, e)
  | host _, e => (h, e)
  | startVM _, e => (h, e)
  | spawnRunner, e => (h, e)
  | queryOperation _, e => (h, e)
  | releaseVM, e => (h, e)
  | statChroot, e => (h, e)
  | runnerAlive, e => (h, e)
  | readRunnerState, e => (h, e)
  | shutdownGuest, e => (h, e)
  | pollRunnerPhase, e => (h, e)
  | statProc _, e => (h, e)
  | readProcStat _, e => (h, e)
  | tick, e => (h, e)

/-! ## The transactions -/

/-- A transaction of the adapter. -/
abbrev Txn := Prog Call Call.Reply

def ask (c : Call) : Txn c.Reply := Prog.perform c id

/-- Do something if a condition holds. -/
def whenever (b : Bool) (p : Txn Unit) : Txn Unit := if b then p else pure ()

/-- A host step whose failure is only reported. -/
def attempt (step : HostStep) : Txn Unit := Prog.perform (.host step) fun _ => ()

/-- Recover the process of a start whose reply was lost; none is an error. -/
def resolveStartOutcome (m : Manifest) : Txn (Option Manifest) :=
  if m.startOpID = [] ∨ 0 < m.vmmPID then pure (some m)
  else do
    let outcome ← ask (.queryOperation m.startOpID)
    match outcome with
    | some .failed => pure (some m)
    | some (.succeeded (some (pid, starttime))) =>
      if pid ≤ 0 ∨ starttime = [] then pure none
      else do
        let m' := { m with
          vmmPID := pid, vmmStart := starttime, stages := m.stages ++ [.vmmStarted] }
        let ok ← ask (.writeManifest m')
        pure (if ok = true then some m' else none)
    | _ => pure none

/-- Ask for the release of the jail, again while the root daemon still sees the process. -/
def releaseVMWhenDead : Nat → Txn ReleaseReply
  | 0 => ask .releaseVM
  | retries + 1 => do
    let reply ← ask .releaseVM
    if reply ≠ .invalidState then pure reply
    else do
      let again ← ask .tick
      if again = true then releaseVMWhenDead retries else pure reply

/-- What is left of the jail after its release: the verdict is the file system's, and an error
other than not-found counts even when nothing is left. -/
def chrootDebt (vmErr : ReleaseReply) : Txn Bool := do
  let stat ← ask .statChroot
  pure (match stat with
    | .present => true
    | .failed => true
    | .notExist => vmErr ≠ .ok && vmErr ≠ .notFound)

/-- The half of a release after the start outcome is known. The manifest goes last. -/
def releaseHost (cfg : Config) (vmID : Bytes) : Txn Bool := do
  let vmErr ← releaseVMWhenDead cfg.releaseRetries
  let netOk ← ask (.host .releaseNetwork)
  let stageOk ← ask (.host .removeStageDir)
  if stageOk ≠ true then pure false
  else do
    let debt ← chrootDebt vmErr
    if debt then pure false
    else if netOk ≠ true then pure false
    else do
      let removed ← ask (.removeStateDir vmID)
      if removed = true then do
        let _ ← ask (.releaseLease vmID)
        pure true
      else pure false

/-- Release all that a VM holds; yes when it worked. -/
def doRelease (cfg : Config) (vmID : Bytes) : Txn Bool := do
  let read ← ask (.readManifest vmID)
  match read with
  | .ok m => do
    let resolved ← resolveStartOutcome m
    match resolved with
    | some _ => releaseHost cfg vmID
    | none => pure false
  | .notExist => releaseHost cfg vmID
  | .failed => pure false

/-- Tear down what a failed launch has made, as far as that goes. -/
def doRollback (cfg : Config) (vmID : Bytes) : Txn Unit := do
  let read ← ask (.readManifest vmID)
  match read with
  | .ok m => do
    let resolved ← resolveStartOutcome m
    match resolved with
    | none => pure ()
    | some m => do
      whenever (decide (.runnerSpawned ∈ m.stages ∧ 0 < m.runnerPID)) (attempt .killRunner)
      whenever (decide (.vmmStarted ∈ m.stages ∧ 0 < m.vmmPID)) (do
        attempt (.signalVM .term)
        attempt (.signalVM .kill))
      attempt .rescueFailedLaunch
      let _ ← doRelease cfg vmID
      pure ()
  | _ => pure ()

inductive LaunchError where
  | failedAt (stage : Stage)
  | startOutcomeUnknown
  | startRefusedManifestRetained

def rollback (cfg : Config) (vmID : Bytes) (stage : Stage) : Txn (Except LaunchError Unit) := do
  doRollback cfg vmID
  pure (.error (.failedAt stage))

/-- Publish the manifest and go on, or roll back. -/
def record (cfg : Config) (m : Manifest) (stage : Stage)
    (next : Txn (Except LaunchError Unit)) : Txn (Except LaunchError Unit) := do
  let ok ← ask (.writeManifest m)
  if ok = true then next else rollback cfg m.vmID stage

def Manifest.reached (m : Manifest) (stage : Stage) : Manifest :=
  { m with stages := m.stages ++ [stage] }

/-- Step 7: wait until the runner is attached. That the last stage is not recorded is tolerated. -/
def launchAttach (cfg : Config) (m : Manifest) : Txn (Except LaunchError Unit) := do
  let ok ← ask (.host .waitAttached)
  if ok = true then do
    let _ ← ask (.writeManifest (m.reached .attached))
    pure (.ok ())
  else rollback cfg m.vmID .attached

def launchRunner (cfg : Config) (m : Manifest) : Txn (Except LaunchError Unit) := do
  let instanceID ← ask .newUUID
  if instanceID = none then rollback cfg m.vmID .runnerSpawned
  else do
    let opened ← ask (.host .openRunnerLog)
    if opened ≠ true then rollback cfg m.vmID .runnerSpawned
    else do
      let spawned ← ask .spawnRunner
      match spawned with
      | none => rollback cfg m.vmID .runnerSpawned
      | some (pid, starttime) =>
        let m' := { m with runnerPID := pid, runnerStart := starttime }.reached .runnerSpawned
        record cfg m' .runnerSpawned (launchAttach cfg m')

/-- Step 5: the VMM. The operation's id is on disk before the root daemon is asked, and stays
there when its answer is lost. -/
def launchVMM (cfg : Config) (m : Manifest) : Txn (Except LaunchError Unit) := do
  let hashed ← ask (.host .computeStagedFiles)
  if hashed ≠ true then rollback cfg m.vmID .vmmStarted
  else do
    let opID ← ask .newOpID
    let m := { m with startOpID := opID }
    record cfg m .vmmStarted do
      let reply ← ask (.startVM m.vmID)
      match reply with
      | .unknown => pure (.error .startOutcomeUnknown)
      | .refused => do
        let ok ← ask (.writeManifest { m with startOpID := [] })
        if ok = true then rollback cfg m.vmID .vmmStarted
        else pure (.error .startRefusedManifestRetained)
      | .started pid starttime =>
        let m' := { m with vmmPID := pid, vmmStart := starttime }.reached .vmmStarted
        record cfg m' .vmmStarted (launchRunner cfg m')

def launchNetwork (cfg : Config) (m : Manifest) : Txn (Except LaunchError Unit) := do
  let ok ← ask (.host .allocateNetwork)
  if ok = true then
    record cfg (m.reached .network) .network (launchVMM cfg (m.reached .network))
  else rollback cfg m.vmID .network

/-- Step 3: the disk images. -/
def launchStage (cfg : Config) (m : Manifest) : Txn (Except LaunchError Unit) := do
  let ok ← ask (.host .doStage)
  if ok = true then
    record cfg (m.reached .staged) .staged (launchNetwork cfg (m.reached .staged))
  else rollback cfg m.vmID .staged

/-- Step 2: the first manifest. When it cannot be published, the directory of a VM that had none
is taken away again, and the subnet with it. -/
def launchReserved (cfg : Config) (m : Manifest) (fresh : Bool) :
    Txn (Except LaunchError Unit) := do
  let ok ← ask (.writeManifest m)
  if ok = true then launchStage cfg m
  else do
    whenever fresh (do
      let removed ← ask (.removeStateDir m.vmID)
      whenever removed (ask (.releaseLease m.vmID)))
    pure (.error (.failedAt .reserved))

def newManifest (cfg : Config) (vmID bootID : Bytes) (slot : Nat) (p : Prefix) : Manifest where
  vmID := vmID
  bootID := bootID
  slot := slot
  uid := cfg.jailUIDBase + slot
  gid := cfg.jailGID
  cid := (cfg.cidBase + slot) % 2 ^ 32
  cidr := p
  stages := [.reserved]

def chooseBootID (bootID : Bytes) : Txn (Option Bytes) :=
  if bootID = [] then ask .newUUID else pure (some bootID)

/-- The VM's directory and its subnet, for the first manifest. -/
def launchSubnet (cfg : Config) (vmID bootID : Bytes) (slot : Nat) (fresh : Bool) :
    Txn (Except LaunchError Unit) := do
  let made ← ask (.host .mkdirStateDir)
  if made ≠ true then pure (.error (.failedAt .reserved))
  else do
    let p ← ask (.acquire vmID)
    match p with
    | none => pure (.error (.failedAt .reserved))
    | some p => launchReserved cfg (newManifest cfg vmID bootID slot p) fresh

def launch (cfg : Config) (vmID specBootID : Bytes) : Txn (Except LaunchError Unit) := do
  let restored ← ask .restoreNetworkLeases
  if restored ≠ true then pure (.error (.failedAt .reserved))
  else do
    let slot ← ask (.allocateSlot vmID)
    match slot with
    | none => pure (.error (.failedAt .reserved))
    | some slot => do
      let existing ← ask (.readManifest vmID)
      let bootID ← chooseBootID specBootID
      match bootID with
      | none => pure (.error (.failedAt .reserved))
      | some bootID => launchSubnet cfg vmID bootID slot (decide (existing = .notExist))

/-! ## Stopping -/

inductive StopError where
  /-- The VMM is not known to be gone. -/
  | stopNotProven
  /-- The VM has stopped; its jail is still there. -/
  | cleanupPending
  | manifestUnreadable
  | startOutcomeUnknown
  | chrootUnreadable
  | chrootSurvives
deriving DecidableEq

structure StopResult where
  forced : Bool
  err : Option StopError
deriving DecidableEq

/-- Whether the process that the manifest names is gone. -/
def vmmProvenGone (m : Manifest) : Txn Bool :=
  if m.vmmPID ≤ 0 then pure true
  else if m.vmmStart = [] then
    -- without a start time only the absence of the pid is proof
    Prog.perform (.statProc m.vmmPID) fun stat => decide (stat = .notExist)
  else Prog.perform (.readProcStat m.vmmPID) fun stat => !PIDAlive m.vmmPID m.vmmStart stat

/-- Probe again at each tick until the process is gone or the window closes. -/
def pollVMMGone (m : Manifest) : Nat → Txn Bool
  | 0 => pure false
  | ticks + 1 => do
    let more ← ask .tick
    if more = true then do
      let gone ← vmmProvenGone m
      if gone then pure true else pollVMMGone m ticks
    else pure false

def awaitVMMGone (m : Manifest) (ticks : Nat) : Txn Bool := do
  let gone ← vmmProvenGone m
  if gone then pure true else pollVMMGone m ticks

/-- Ask the runner to shut the guest down; yes when it reports the end of the VMM in time. -/
def requestShutdown (m : Manifest) (forceImmediate : Bool) : Txn Bool :=
  if forceImmediate = true ∨ m.runnerPID ≤ 0 then pure false
  else do
    let alive ← ask .runnerAlive
    if alive ≠ true then pure false
    else do
      let reply ← ask .shutdownGuest
      if reply ≠ .accepted then pure false
      else do
        let phase ← ask .pollRunnerPhase
        pure (decide (phase = .vmmExited ∨ phase = .finalized))

/-- The runner's phase is a claim; the manifest's process decides. -/
def confirmShutdown (m : Manifest) (claimed : Bool) : Txn Bool :=
  if claimed then vmmProvenGone m else pure false

/-- SIGTERM, and SIGKILL if the process does not go. -/
def signalVMM (cfg : Config) (m : Manifest) (forceImmediate : Bool) : Txn Unit := do
  if forceImmediate = true then attempt (.signalVM .kill)
  else do
    attempt (.signalVM .term)
    let gone ← awaitVMMGone m cfg.termTicks
    whenever (!gone) (attempt (.signalVM .kill))

/-- After the proof: the runner is told to finish and the jail is removed. -/
def finishStop (cfg : Config) (forced : Bool) : Txn StopResult := do
  attempt .finalize
  let vmErr ← releaseVMWhenDead cfg.releaseRetries
  let debt ← chrootDebt vmErr
  pure ⟨forced, if debt then some .cleanupPending else none⟩

def stopVMM (cfg : Config) (m : Manifest) (forceImmediate : Bool) : Txn StopResult := do
  let claimed ← requestShutdown m forceImmediate
  let graceful ← confirmShutdown m claimed
  whenever (!graceful && decide (0 < m.vmmPID)) (signalVMM cfg m forceImmediate)
  -- the proof gate
  let gone ← awaitVMMGone m cfg.proofTicks
  if gone then finishStop cfg (!graceful)
  else pure ⟨!graceful, some .stopNotProven⟩

/-- Stop a VM whose manifest is gone: whatever jail is left is killed and released. -/
def stopWithoutManifest (cfg : Config) : Txn StopResult := do
  let stat ← ask .statChroot
  match stat with
  | .notExist => pure ⟨false, none⟩
  | .failed => pure ⟨false, some .chrootUnreadable⟩
  | .present => do
    attempt (.signalVM .kill)
    let _ ← releaseVMWhenDead cfg.releaseRetries
    let stat ← ask .statChroot
    pure ⟨true, if stat = .notExist then none else some .chrootSurvives⟩

def doStop (cfg : Config) (vmID : Bytes) (forceImmediate : Bool) : Txn StopResult := do
  let read ← ask (.readManifest vmID)
  match read with
  | .notExist => stopWithoutManifest cfg
  | .failed => pure ⟨false, some .manifestUnreadable⟩
  | .ok m => do
    let resolved ← resolveStartOutcome m
    match resolved with
    | none => pure ⟨false, some .startOutcomeUnknown⟩
    | some m => stopVMM cfg m forceImmediate

/-! ## After a restart -/

inductive Finding where
  | adopted
  | vmmGone
  | ambiguous

/-- A new runner for a VMM that has none. -/
def respawnRunner (m : Manifest) : Txn Finding := do
  let opened ← ask (.host .openRunnerLog)
  if opened ≠ true then pure .ambiguous
  else do
    let spawned ← ask .spawnRunner
    match spawned with
    | none => pure .ambiguous
    | some (pid, starttime) => do
      let _ ← ask (.writeManifest { m with runnerPID := pid, runnerStart := starttime })
      pure .adopted

/-- What has become of a VM whose VMM is alive. -/
def adoptRunner (m : Manifest) : Txn Finding := do
  let state ← ask .readRunnerState
  let alive ← ask .runnerAlive
  match state with
  | none => respawnRunner m
  | some s =>
    if s.phase = .attached ∧ alive = true then
      pure (if s.vmmPID = m.vmmPID ∧ s.vmmStart = m.vmmStart then .adopted else .ambiguous)
    else respawnRunner m

def reconcileOne (vmID : Bytes) : Txn Finding := do
  let read ← ask (.readManifest vmID)
  match read with
  | .ok m => do
    let resolved ← resolveStartOutcome m
    match resolved with
    | none => pure .ambiguous
    | some m =>
      if m.vmmPID ≤ 0 ∨ m.vmmStart = [] then pure .vmmGone
      else do
        let stat ← ask (.readProcStat m.vmmPID)
        if PIDAlive m.vmmPID m.vmmStart stat = true then adoptRunner m else pure .vmmGone
  | _ => pure .ambiguous

/-! ## The calls of the parts that only act on the host -/

/-- A call that touches no manifest and no lease, and tells nothing about the VMM's process. -/
def Neutral : Call → Prop
  | .host _ | .releaseVM | .statChroot | .runnerAlive | .shutdownGuest | .pollRunnerPhase
  | .tick => True
  | _ => False

lemma neutral_attempt (step : HostStep) : (attempt step).Uses Neutral :=
  ⟨trivial, fun _ => trivial⟩

lemma neutral_chrootDebt (vmErr : ReleaseReply) : (chrootDebt vmErr).Uses Neutral :=
  ⟨trivial, fun _ => trivial⟩

lemma neutral_releaseVMWhenDead (retries : Nat) : (releaseVMWhenDead retries).Uses Neutral := by
  induction retries with
  | zero => exact ⟨trivial, fun _ => trivial⟩
  | succ retries ih =>
    refine ⟨trivial, fun reply => ?_⟩
    show Prog.Uses _ (if _ then _ else _)
    split
    · trivial
    · refine ⟨trivial, fun again => ?_⟩
      show Prog.Uses _ (if _ then _ else _)
      split
      · exact ih
      · trivial

lemma neutral_requestShutdown (m : Manifest) (forceImmediate : Bool) :
    (requestShutdown m forceImmediate).Uses Neutral := by
  rw [requestShutdown]
  split
  · trivial
  refine ⟨trivial, fun alive => ?_⟩
  show Prog.Uses _ (if _ then _ else _)
  split
  · trivial
  refine ⟨trivial, fun reply => ?_⟩
  show Prog.Uses _ (if _ then _ else _)
  split
  · trivial
  · exact ⟨trivial, fun _ => trivial⟩

lemma neutral_finishStop (cfg : Config) (forced : Bool) : (finishStop cfg forced).Uses Neutral := by
  refine (neutral_attempt _).bind fun _ => ?_
  refine (neutral_releaseVMWhenDead _).bind fun vmErr => ?_
  exact (neutral_chrootDebt vmErr).bind fun _ => trivial

lemma neutral_stopWithoutManifest (cfg : Config) : (stopWithoutManifest cfg).Uses Neutral := by
  refine ⟨trivial, fun stat => ?_⟩
  cases stat with
  | notExist | failed => trivial
  | present =>
    refine (neutral_attempt _).bind fun _ => ?_
    exact (neutral_releaseVMWhenDead _).bind fun _ => ⟨trivial, fun _ => trivial⟩

/-! ## Sequences of transactions -/

/-- The transactions of the adapter. `new` is its construction, which only warms the allocator. -/
inductive Job where
  | new
  | launch (vmID bootID : Bytes)
  | stop (vmID : Bytes) (forceImmediate : Bool)
  | release (vmID : Bytes)
  | rollback (vmID : Bytes)
  | reconcile (vmID : Bytes)

/-- Run a transaction for its effects. -/
def ignore {α : Type} (p : Txn α) : Txn Unit := do
  let _ ← p
  pure ()

def Job.prog (cfg : Config) : Job → Txn Unit
  | new => ignore (ask .restoreNetworkLeases)
  | launch vmID bootID => ignore (Jailer.launch cfg vmID bootID)
  | stop vmID forceImmediate => ignore (doStop cfg vmID forceImmediate)
  | release vmID => ignore (doRelease cfg vmID)
  | rollback vmID => doRollback cfg vmID
  | reconcile vmID => ignore (reconcileOne vmID)

/-- One transaction, run to its end or to a crash of the daemon. -/
def Host.step (cfg : Config) : Host → Episode Call.Choice Job → Option Host :=
  episode (Call.exec cfg) (Job.prog cfg) (Host.restart cfg)

end Observatory.Jailer
