/-
# The registry with its operations, batches and events

The tables behind the VM rows: what each VM was created as and what it reserves, the operations
and batches that asked for it, the runs attached to it, and the events written along. Every
call is one transaction of a single writer: it commits as a whole, or is rolled back and leaves
the tables as they were.
-/
import Observatory.Store.Vms

namespace Observatory.Store

open Lib

/-! ## Rows -/

/-- What a VM is created as; these columns of its row are never updated. -/
structure VMSpec where
  name : Bytes
  templateID : Bytes
  templateDigest : Bytes
  vcpuCount : Int
  memoryMiB : Int
  rootDiskMiB : Int
  workspaceDiskMiB : Int
  networkProfile : Bytes
  networkPolicyID : Bytes
  /-- The text of the column. -/
  labels : Bytes
deriving DecidableEq

/-- The sizes of a reservation. Whether they were released is kept with the VM. -/
structure Reservation where
  memoryTotalMiB : Int
  vcpu : Int
  diskMiB : Int

structure VMRow where
  vm : VM
  owner : Bytes
  spec : VMSpec
  reservation : Reservation

def VMRow.vmID (row : VMRow) : Bytes := row.vm.vmID

/-- A transition of a row; what the VM was created as stays. -/
def VMRow.move (inp : TransitionInput) (row : VMRow) : VMRow :=
  { row with vm := inp.apply row.vm }

/-- Why admission refused a request. -/
structure AdmissionRefusal where
  cause : Bytes
  message : Bytes
deriving DecidableEq

inductive OperationKind where
  | vmCreate | vmBatchCreate
deriving DecidableEq

inductive OperationPhase where
  | admission | admitted

inductive OperationState where
  | running | failed
deriving DecidableEq

structure Operation where
  operationID : Nat
  owner : Bytes
  kind : OperationKind
  idempotencyKey : Option Bytes
  requestHash : Bytes
  vmID : Option Bytes
  phase : OperationPhase
  state : OperationState
  error : Option AdmissionRefusal

def Operation.key (op : Operation) : Option (Bytes × OperationKind × Bytes) :=
  op.idempotencyKey.map fun k => (op.owner, op.kind, k)

inductive BatchMode where
  | atomicReservation | bestEffort
deriving DecidableEq

structure Batch where
  batchID : Nat
  owner : Bytes
  idempotencyKey : Option Bytes
  requestHash : Bytes
  reservationMode : BatchMode
  onFailure : Bytes
  batchOpID : Option Nat

def Batch.link (operationID : Nat) (b : Batch) : Batch := { b with batchOpID := some operationID }

def Batch.key (b : Batch) : Option (Bytes × Bytes) := b.idempotencyKey.map fun k => (b.owner, k)

/-- What became of a member of a batch: the VM with its operation, or the refusal. -/
inductive MemberOutcome where
  | admitted (vmID : Bytes) (operationID : Nat)
  | refused (refusal : AdmissionRefusal)
deriving DecidableEq

structure BatchMemberRow where
  batchID : Nat
  position : Nat
  name : Bytes
  outcome : MemberOutcome
deriving DecidableEq

/-- What a run is asked to be. The store takes any text for the criteria and the completion. -/
structure RunAttachment where
  goal : Bytes
  criteriaType : Bytes
  onCompletion : Bytes
  progressEvents : Bool
deriving DecidableEq

structure RunRow where
  runID : Bytes
  vmID : Bytes
  owner : Bytes
  attachment : RunAttachment
  phase : RunPhase
  idempotencyKey : Option Bytes
  requestHash : Bytes
  createdEventID : Nat

def RunRow.key (run : RunRow) : Option (Bytes × Bytes) :=
  run.idempotencyKey.map fun k => (run.owner, k)

/-- The index that keeps a VM to one run that has not ended. -/
def RunRow.activeVM (run : RunRow) : Option Bytes :=
  if run.phase.terminal then none else some run.vmID

/-- The events the registry writes about itself. -/
inductive RegistryEvent where
  | vmCreated (vmID : Bytes) (owner : Bytes) (spec : VMSpec) (operationID : Nat)
  | vmStateChanged (vmID : Bytes) (frm dest : VMState) (reason : Bytes) (operationID : Nat)
      (revision : Int) (bootID : Option Nat)
  | vmDeleted (vmID : Bytes) (operationID : Nat)
  | operationStateChanged (op : Operation)
  | runCreated (runID vmID owner : Bytes) (attachment : RunAttachment) (phase : RunPhase)

def RegistryEvent.aboutState : RegistryEvent → Bool
  | .vmStateChanged .. => true
  | _ => false

/-- The tables. Rows are only ever added, so the next number of a numbered table is one more
than its length; events are in the order of their cursors. -/
structure Registry where
  vms : List VMRow
  operations : List Operation
  batches : List Batch
  members : List BatchMemberRow
  runs : List RunRow
  events : List RegistryEvent

def Registry.empty : Registry := ⟨[], [], [], [], [], []⟩

inductive StoreError where
  | vm (err : VMError)
  | idempotencyConflict
  | admissionRefusal (refusal : AdmissionRefusal)
  /-- A replayed operation that has neither a VM nor a refusal. -/
  | noRecordedRefusal
  | activeRunExists
  | batchUnknown
  | database

/-! ## Reading -/

namespace Registry

def getVM (r : Registry) (vmID : Bytes) : Option VMRow := Table.find VMRow.vmID vmID r.vms

def getOperation (r : Registry) (id : Nat) : Option Operation :=
  Table.find Operation.operationID id r.operations

def getRun (r : Registry) (runID : Bytes) : Option RunRow := Table.find RunRow.runID runID r.runs

def getBatch (r : Registry) (id : Nat) : Option Batch := Table.find Batch.batchID id r.batches

def membersOf (r : Registry) (id : Nat) : List BatchMemberRow :=
  r.members.filter fun m => m.batchID = id

def operationByKey (r : Registry) (owner : Bytes) (kind : OperationKind) (key : Bytes) :
    Option Operation :=
  Table.findBy Operation.key (owner, kind, key) r.operations

def batchByKey (r : Registry) (owner key : Bytes) : Option Batch :=
  Table.findBy Batch.key (owner, key) r.batches

def runByKey (r : Registry) (owner key : Bytes) : Option RunRow :=
  Table.findBy RunRow.key (owner, key) r.runs

end Registry

/-! ## Totals -/

def int64Min : Int := -2 ^ 63

def int64Max : Int := 2 ^ 63 - 1

/-- The value a 64-bit machine integer holds after an operation on `n`. -/
def wrap64 (n : Int) : Int := (n + 2 ^ 63) % 2 ^ 64 - 2 ^ 63

/-- The sum of a column: SQLite stops with an error where a partial sum leaves the 64 bits. -/
def sumColumn : Int → List Int → Option Int
  | acc, [] => some acc
  | acc, n :: ns =>
    if int64Min ≤ acc + n ∧ acc + n ≤ int64Max then sumColumn (acc + n) ns else none

/-- What admission sees of the reservations. -/
structure ReservationTotals where
  /-- The unreleased disks with the VMs they belong to. -/
  disks : List (Bytes × Int)
  memoryMiB : Int
  vcpu : Int
  diskMiB : Int
  activeVMs : Nat

def heldRows (vms : List VMRow) : List VMRow := vms.filter fun row => !row.vm.released

def computeColumn (f : Reservation → Int) (vms : List VMRow) : List Int :=
  (heldRows vms).map fun row => if row.vm.computeReleased then 0 else f row.reservation

def diskColumn (vms : List VMRow) : List Int :=
  (heldRows vms).map fun row => row.reservation.diskMiB

/-- The totals as one snapshot of the tables; none when a sum overflows. -/
def reservationTotals (vms : List VMRow) : Option ReservationTotals := do
  let memoryMiB ← sumColumn 0 (computeColumn Reservation.memoryTotalMiB vms)
  let vcpu ← sumColumn 0 (computeColumn Reservation.vcpu vms)
  let diskMiB ← sumColumn 0 (diskColumn vms)
  pure {
    disks := ((heldRows vms).map fun row => (row.vmID, row.reservation.diskMiB)).mergeSort
      fun a b => a.1 ≤ b.1
    memoryMiB, vcpu, diskMiB
    activeVMs := (heldRows vms).length }

/-- What an admission callback answers: nil, a refusal, or an error of its own. -/
inductive Admission where
  | granted
  | refused (refusal : AdmissionRefusal)
  | failed
deriving DecidableEq

/-! ## Requests -/

/-- What a new run is inserted from. -/
structure CreateRunInput where
  vmID : Bytes
  owner : Bytes
  attachment : RunAttachment
  idempotencyKey : Option Bytes
  requestHash : Bytes
  initialPhase : RunPhase
deriving DecidableEq

/-- One VM to be created: who it is, what it is, the memory with the host's overhead, and the run
attached to it with the identifier that is drawn for the run. -/
structure NewVM where
  vmID : Bytes
  spec : VMSpec
  memoryTotalMiB : Int
  run : Option RunAttachment
  newRunID : Bytes
deriving DecidableEq

def VMSpec.diskMiB (s : VMSpec) : Int := wrap64 (s.rootDiskMiB + s.workspaceDiskMiB)

def NewVM.row (m : NewVM) (owner : Bytes) : VMRow where
  vm := VM.new m.vmID
  owner := owner
  spec := m.spec
  reservation := ⟨m.memoryTotalMiB, m.spec.vcpuCount, m.spec.diskMiB⟩

structure CreateVMInput where
  owner : Bytes
  vm : NewVM
  idempotencyKey : Option Bytes
  requestHash : Bytes
deriving DecidableEq

structure CreateVMBatchInput where
  owner : Bytes
  idempotencyKey : Option Bytes
  requestHash : Bytes
  reservationMode : BatchMode
  onFailure : Bytes
  members : List NewVM
deriving DecidableEq

/-- The decisions the manager passes in with a batch: on its whole cost at once, or on one member
of the sizes given. They read the host as it is then, so that members of one size need not get
the same answer. -/
structure BatchAdmission where
  batch : ReservationTotals → Admission
  member : (position : Nat) → ReservationTotals → Reservation → Admission

/-! ## Transactions -/

namespace Registry

/-- Run a transaction. One that stops with an error is rolled back; `fault` is a failure of the
database in its course, commit included. -/
def transact {α : Type} (r : Registry) (fault : Bool) (tx : Except StoreError (α × Registry)) :
    Except StoreError α × Registry :=
  if fault then (.error .database, r)
  else
    match tx with
    | .error err => (.error err, r)
    | .ok (a, r') => (.ok a, r')

/-- Append an event of the registry's own stream. -/
@[simps vms operations batches members runs]
def emit (r : Registry) (e : RegistryEvent) : Registry := { r with events := r.events ++ [e] }

/-- Insert an operation under the next number. The keys of one owner and kind are unique. -/
def openOperation (r : Registry) (op : Operation) : Except StoreError (Operation × Registry) :=
  let op := { op with operationID := r.operations.length + 1 }
  if Table.taken Operation.key op r.operations then .error .database
  else .ok (op, { r with operations := r.operations ++ [op] })

def announce (r : Registry) (op : Operation) : Registry := r.emit (.operationStateChanged op)

/-- The row of a new run, under the identifier that was drawn for it; its event comes first. -/
def newRun (r : Registry) (inp : CreateRunInput) (runID : Bytes) : RunRow where
  runID := runID
  vmID := inp.vmID
  owner := inp.owner
  attachment := inp.attachment
  phase := inp.initialPhase
  idempotencyKey := inp.idempotencyKey
  requestHash := inp.requestHash
  createdEventID := r.events.length + 1

/-- Insert a run and announce it. Identifiers are unique, keys are unique per owner, and a VM has
at most one run that has not ended. -/
def insertRun (r : Registry) (inp : CreateRunInput) (runID : Bytes) :
    Except StoreError (RunRow × Registry) :=
  let row := r.newRun inp runID
  if (r.getRun runID).isSome || Table.taken RunRow.key row r.runs then .error .database
  else if Table.taken RunRow.activeVM row r.runs then .error .activeRunExists
  else
    let created := .runCreated runID inp.vmID inp.owner inp.attachment inp.initialPhase
    .ok (row, { r.emit created with runs := r.runs ++ [row] })

/-! ### Creating one VM -/

def admittedOperation (owner : Bytes) (key : Option Bytes) (hash vmID : Bytes) : Operation where
  operationID := 0
  owner := owner
  kind := .vmCreate
  idempotencyKey := key
  requestHash := hash
  vmID := some vmID
  phase := .admitted
  state := .running
  error := none

def refusedOperation (inp : CreateVMInput) (refusal : AdmissionRefusal) : Operation where
  operationID := 0
  owner := inp.owner
  kind := .vmCreate
  idempotencyKey := inp.idempotencyKey
  requestHash := inp.requestHash
  vmID := none
  phase := .admission
  state := .failed
  error := some refusal

/-- The run attached to a new VM; it has no key of its own. -/
def attachedRun (owner vmID : Bytes) (attachment : RunAttachment) : CreateRunInput where
  vmID := vmID
  owner := owner
  attachment := attachment
  idempotencyKey := none
  requestHash := []
  initialPhase := .pending

/-- Insert a VM with its reservation; identifiers are unique. -/
def insertRow (r : Registry) (row : VMRow) : Except StoreError Registry :=
  match Table.insert VMRow.vmID row r.vms with
  | none => .error .database
  | some vms => .ok { r with vms }

/-- Create the run a VM is submitted with, if there is one. -/
def attachRun (r : Registry) (owner : Bytes) (m : NewVM) : Except StoreError Registry :=
  match m.run with
  | none => .ok r
  | some attachment => do
    let (_, r) ← r.insertRun (attachedRun owner m.vmID attachment) m.newRunID
    pure r

def insertAdmitted (r : Registry) (owner : Bytes) (key : Option Bytes) (hash : Bytes) (m : NewVM) :
    Except StoreError (Operation × Registry) := do
  let r ← r.insertRow (m.row owner)
  let (op, r) ← r.openOperation (admittedOperation owner key hash m.vmID)
  let r := (r.emit (.vmCreated m.vmID owner m.spec op.operationID)).announce op
  let r ← r.attachRun owner m
  pure (op, r)

/-- How the transaction of a create ends when it commits, or finds the key taken. -/
inductive CreateVMReply where
  | replay (op : Operation)
  | refused (refusal : AdmissionRefusal) (op : Operation)
  | created (vmID : Bytes) (op : Operation)

/-- The decision on a new VM. A refusal is committed too, as a failed operation. -/
def decideVM (r : Registry) (inp : CreateVMInput) (admission : ReservationTotals → Admission) :
    Except StoreError (CreateVMReply × Registry) :=
  match reservationTotals r.vms with
  | none => .error .database
  | some totals =>
    match admission totals with
    | .failed => .error .database
    | .refused refusal => do
      let (op, r) ← r.openOperation (refusedOperation inp refusal)
      pure (.refused refusal op, r.announce op)
    | .granted => do
      let (op, r) ← r.insertAdmitted inp.owner inp.idempotencyKey inp.requestHash inp.vm
      pure (.created inp.vm.vmID op, r)

/-- The transaction of `CreateVMWithOperation`: the key is looked up again before anything is
decided. -/
def createVMTx (r : Registry) (inp : CreateVMInput) (admission : ReservationTotals → Admission) :
    Except StoreError (CreateVMReply × Registry) :=
  match inp.idempotencyKey.bind (r.operationByKey inp.owner .vmCreate) with
  | some op =>
    if op.requestHash ≠ inp.requestHash then .error .idempotencyConflict
    else .ok (.replay op, r)
  | none => r.decideVM inp admission

/-! ### Creating a batch -/

def insertOneMember (r : Registry) (batchID position : Nat) (owner : Bytes) (m : NewVM) :
    Except StoreError (BatchMemberRow × Registry) := do
  let (op, r) ← r.insertAdmitted owner none [] m
  let row := ⟨batchID, position, m.spec.name, .admitted m.vmID op.operationID⟩
  pure (row, { r with members := r.members ++ [row] })

def refuseMember (r : Registry) (batchID position : Nat) (refusal : AdmissionRefusal) (m : NewVM) :
    BatchMemberRow × Registry :=
  let row := ⟨batchID, position, m.spec.name, .refused refusal⟩
  (row, { r with members := r.members ++ [row] })

/-- What working through the members came to. -/
structure MembersReply where
  rows : List BatchMemberRow
  anyAdmitted : Bool
  lastRefusal : Option AdmissionRefusal

/-- Work through the members from a position on, with a decision on each that sees the rows of
those before it. -/
def processMembers (batchID : Nat) (owner : Bytes)
    (decision : Nat → List VMRow → NewVM → Option Admission) :
    Nat → List NewVM → Registry → Except StoreError (MembersReply × Registry)
  | _, [], r => .ok (⟨[], false, none⟩, r)
  | position, m :: ms, r =>
    match decision position r.vms m with
    | none | some .failed => .error .database
    | some (.refused refusal) => do
      let (row, r) := r.refuseMember batchID position refusal m
      let (reply, r) ← processMembers batchID owner decision (position + 1) ms r
      pure ({ reply with rows := row :: reply.rows
                         lastRefusal := reply.lastRefusal.or (some refusal) }, r)
    | some .granted => do
      let (row, r) ← r.insertOneMember batchID position owner m
      let (reply, r) ← processMembers batchID owner decision (position + 1) ms r
      pure ({ reply with rows := row :: reply.rows, anyAdmitted := true }, r)

/-- What a batch came to: the rows of its members, and the state of its operation with the refusal
that stands for it. -/
structure BatchOutcome where
  rows : List BatchMemberRow
  state : OperationState
  refusal : Option AdmissionRefusal

/-- All or nothing: one decision on the whole batch, which its members share. -/
def processAtomicBatch (r : Registry) (batchID : Nat) (inp : CreateVMBatchInput)
    (admission : BatchAdmission) : Except StoreError (BatchOutcome × Registry) :=
  match reservationTotals r.vms with
  | none => .error .database
  | some totals =>
    match admission.batch totals with
    | .failed => .error .database
    | .refused refusal => do
      let (reply, r) ← processMembers batchID inp.owner (fun _ _ _ => some (.refused refusal)) 0
        inp.members r
      pure (⟨reply.rows, .failed, some refusal⟩, r)
    | .granted => do
      let (reply, r) ← processMembers batchID inp.owner (fun _ _ _ => some .granted) 0 inp.members r
      pure (⟨reply.rows, .running, none⟩, r)

def memberDecision (admission : BatchAdmission) (position : Nat) (vms : List VMRow) (m : NewVM) :
    Option Admission :=
  (reservationTotals vms).map fun totals =>
    admission.member position totals ⟨m.memoryTotalMiB, m.spec.vcpuCount, m.spec.diskMiB⟩

/-- Each member on its own; the batch failed when none was admitted. -/
def processBestEffortBatch (r : Registry) (batchID : Nat) (inp : CreateVMBatchInput)
    (admission : BatchAdmission) : Except StoreError (BatchOutcome × Registry) := do
  let (reply, r) ← processMembers batchID inp.owner (memberDecision admission) 0 inp.members r
  if reply.anyAdmitted then pure (⟨reply.rows, .running, none⟩, r)
  else pure (⟨reply.rows, .failed, reply.lastRefusal⟩, r)

def processBatch (r : Registry) (batchID : Nat) (inp : CreateVMBatchInput)
    (admission : BatchAdmission) : Except StoreError (BatchOutcome × Registry) :=
  match inp.reservationMode with
  | .atomicReservation => r.processAtomicBatch batchID inp admission
  | .bestEffort => r.processBestEffortBatch batchID inp admission

inductive CreateBatchReply where
  | replay (batchID : Nat)
  | created (batchID : Nat) (op : Operation) (rows : List BatchMemberRow)

/-- The row of a batch; its operation is filled in at the end. -/
def newBatch (r : Registry) (inp : CreateVMBatchInput) (batchOpID : Option Nat) : Batch where
  batchID := r.batches.length + 1
  owner := inp.owner
  idempotencyKey := inp.idempotencyKey
  requestHash := inp.requestHash
  reservationMode := inp.reservationMode
  onFailure := inp.onFailure
  batchOpID := batchOpID

def addBatch (r : Registry) (inp : CreateVMBatchInput) : Registry :=
  { r with batches := r.batches ++ [r.newBatch inp none] }

def linkBatch (r : Registry) (batchID operationID : Nat) : Registry :=
  { r with batches := Table.modify Batch.batchID batchID (Batch.link operationID) r.batches }

def batchOperation (inp : CreateVMBatchInput) (out : BatchOutcome) : Operation where
  operationID := 0
  owner := inp.owner
  kind := .vmBatchCreate
  idempotencyKey := inp.idempotencyKey
  requestHash := inp.requestHash
  vmID := none
  phase := if out.state = .failed then .admission else .admitted
  state := out.state
  error := out.refusal

/-- The batch with its members and its operation, once the key is known to be free. -/
def decideBatch (r : Registry) (inp : CreateVMBatchInput) (admission : BatchAdmission) :
    Except StoreError (CreateBatchReply × Registry) := do
  let batchID := r.batches.length + 1
  let (out, r) ← (r.addBatch inp).processBatch batchID inp admission
  let (op, r) ← r.openOperation (batchOperation inp out)
  let r := r.linkBatch batchID op.operationID
  pure (.created batchID op out.rows, r.announce op)

def createVMBatchTx (r : Registry) (inp : CreateVMBatchInput) (admission : BatchAdmission) :
    Except StoreError (CreateBatchReply × Registry) :=
  match inp.idempotencyKey.bind (r.batchByKey inp.owner) with
  | some b =>
    if b.requestHash ≠ inp.requestHash then .error .idempotencyConflict
    else .ok (.replay b.batchID, r)
  | none => r.decideBatch inp admission

/-! ### Creating a run -/

inductive CreateRunReply where
  | replay (runID : Bytes)
  | created (row : RunRow)

/-- The transaction of `CreateRun`, with the identifier it draws. -/
def createRunTx (r : Registry) (inp : CreateRunInput) (runID : Bytes) :
    Except StoreError (CreateRunReply × Registry) :=
  match inp.idempotencyKey.bind (r.runByKey inp.owner) with
  | some run =>
    if run.requestHash ≠ inp.requestHash then .error .idempotencyConflict
    else .ok (.replay run.runID, r)
  | none => do
    let (row, r) ← r.insertRun inp runID
    pure (.created row, r)

/-! ### Transitions -/

/-- The rows of the VMs without what they were created as. -/
def rows (r : Registry) : List VM := r.vms.map VMRow.vm

/-- Whether the callback affords the compute a transition takes back. -/
def affords (r : Registry) (admission : ReservationTotals → Admission) : Bool :=
  match reservationTotals r.vms with
  | none => false
  | some totals => admission totals = .granted

def transitionEvents (inp : TransitionInput) (reason : Bytes) (operationID : Nat) (vm : VM) :
    List RegistryEvent :=
  .vmStateChanged inp.vmID vm.observedState inp.dest reason operationID (vm.revision + 1)
      inp.bootID ::
    if inp.dest = .deleted then [.vmDeleted inp.vmID operationID] else []

def transitionVMTx (r : Registry) (inp : TransitionInput) (reason : Bytes) (operationID : Nat)
    (admission : ReservationTotals → Admission) : Except StoreError (VM × Registry) :=
  match transitionVM r.rows inp (r.affords admission), Store.getVM r.rows inp.vmID with
  | .error err, _ => .error (.vm err)
  | .ok _, none => .error (.vm .vmUnknown)
  | .ok (_, vm'), some vm =>
    .ok (vm', { r with
      vms := Table.modify VMRow.vmID inp.vmID (VMRow.move inp) r.vms
      events := r.events ++ transitionEvents inp reason operationID vm })

end Registry

end Observatory.Store
