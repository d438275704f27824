/-
# Creating under a key

A create call that carries a key looks the key up twice: first among the readers, without a lock,
and again inside the transaction that decides. Between the two, and between the transaction and
the reads that follow it, other calls run. Each call here is a program over the registry, so that
any number of them can be interleaved; its answer is its last step.

The three kinds of resource are created by one program. What differs is the table the key is
looked up in, and the transaction.
-/
import Observatory.Lib.Pool
import Observatory.Store.History

namespace Observatory.Store.Registry

open Lib List Option

/-! ## Keys and what is under them -/

/-- A key, in the index of its kind of resource. -/
inductive Key where
  | vm (owner key : Bytes)
  | batch (owner key : Bytes)
  | run (owner key : Bytes)

/-- The row a create left behind. -/
inductive Ref where
  | operation (operationID : Nat)
  | batch (batchID : Nat)
  | run (runID : Bytes)

/-- What a create came to. A batch is returned with its members, refused ones included. -/
inductive Outcome where
  | vm (vmID : Bytes) (operationID : Nat)
  | refused (refusal : AdmissionRefusal) (operationID : Nat)
  | batch (batchID : Nat) (members : List BatchMemberRow)
  | run (runID : Bytes)
deriving DecidableEq

def find (r : Registry) : Key → Option (Ref × Bytes)
  | .vm owner key => (r.operationByKey owner .vmCreate key).map fun op =>
      (.operation op.operationID, op.requestHash)
  | .batch owner key => (r.batchByKey owner key).map fun b => (.batch b.batchID, b.requestHash)
  | .run owner key => (r.runByKey owner key).map fun run => (.run run.runID, run.requestHash)

def replayedRefusal (op : Operation) : Except StoreError AdmissionRefusal :=
  match op.state, op.error with
  | .failed, some refusal => .ok refusal
  | _, _ => .error .noRecordedRefusal

/-- An operation with the VM it created, or the refusal. -/
def readOperation (r : Registry) (id : Nat) : Except StoreError Outcome :=
  match r.getOperation id with
  | none => .error .database
  | some op =>
    match op.vmID with
    | none => (replayedRefusal op).map fun refusal => .refused refusal id
    | some v => if (r.getVM v).isSome then .ok (.vm v id) else .error (.vm .vmUnknown)

/-- A batch with its operation and its members. -/
def readBatch (r : Registry) (id : Nat) : Except StoreError Outcome :=
  match r.getBatch id with
  | none => .error .batchUnknown
  | some b =>
    if b.batchOpID.any fun opID => (r.getOperation opID).isNone then .error .database
    else .ok (.batch id (r.membersOf id))

/-- Read a row back, with the rows it refers to. These are never updated or removed once they are
there, so that reading them one after the other comes to the same. -/
def read (r : Registry) : Ref → Except StoreError Outcome
  | .operation id => r.readOperation id
  | .batch id => r.readBatch id
  | .run runID => if (r.getRun runID).isSome then .ok (.run runID) else .error .database

/-! ## The calls of a create -/

inductive Create where
  | vm (inp : CreateVMInput)
  | batch (inp : CreateVMBatchInput)
  | run (inp : CreateRunInput)
deriving DecidableEq

def Create.key : Create → Option Key
  | vm inp => inp.idempotencyKey.map (.vm inp.owner)
  | batch inp => inp.idempotencyKey.map (.batch inp.owner)
  | run inp => inp.idempotencyKey.map (.run inp.owner)

def Create.requestHash : Create → Bytes
  | vm inp => inp.requestHash
  | batch inp => inp.requestHash
  | run inp => inp.requestHash

/-- What the environment contributes to a call: a failure of the database, the decisions of the
admission callbacks, and the identifier drawn for a run. -/
structure Env where
  fault : Bool := false
  admission : ReservationTotals → Admission := fun _ => .granted
  batchAdmission : BatchAdmission := ⟨fun _ => .granted, fun _ _ _ => .granted⟩
  runID : Bytes := []

/-- How the transaction of a create ends: the key is taken, or it was decided. -/
inductive TxReply where
  | replay (ref : Ref)
  | done (out : Outcome)

def CreateVMReply.toTx : CreateVMReply → TxReply
  | replay op => .replay (.operation op.operationID)
  | refused refusal op => .done (.refused refusal op.operationID)
  | created v op => .done (.vm v op.operationID)

def CreateBatchReply.toTx : CreateBatchReply → TxReply
  | replay id => .replay (.batch id)
  | created id _ rows => .done (.batch id rows)

def CreateRunReply.toTx : CreateRunReply → TxReply
  | replay runID => .replay (.run runID)
  | created row => .done (.run row.runID)

def Create.tx (r : Registry) (e : Env) : Create → Except StoreError (TxReply × Registry)
  | vm inp => (r.createVMTx inp e.admission).map fun p => (p.1.toTx, p.2)
  | batch inp => (r.createVMBatchTx inp e.batchAdmission).map fun p => (p.1.toTx, p.2)
  | run inp => (r.createRunTx inp e.runID).map fun p => (p.1.toTx, p.2)

inductive Call where
  | find (k : Key)
  | read (ref : Ref)
  | create (q : Create)
  | transition (inp : TransitionInput) (reason : Bytes) (operationID : Nat)
  | answer (q : Create) (out : Except StoreError Outcome)

abbrev Call.Reply : Call → Type
  | find _ => Except StoreError (Option (Ref × Bytes))
  | read _ => Except StoreError Outcome
  | create _ => Except StoreError TxReply
  | transition .. => Except StoreError VM
  | answer .. => Unit

/-- A read that may fail with the database. -/
def readers {α : Type} (e : Env) (x : Except StoreError α) : Except StoreError α :=
  if e.fault then .error .database else x

def Call.exec (r : Registry) (e : Env) : (c : Call) → Registry × c.Reply
  | find k => (r, readers e (.ok (r.find k)))
  | read ref => (r, readers e (r.read ref))
  | create q => let p := r.transact e.fault (q.tx r e); (p.2, p.1)
  | transition inp reason operationID =>
    let p := r.transact e.fault (r.transitionVMTx inp reason operationID e.admission)
    (p.2, p.1)
  | answer _ _ => (r, ())

abbrev M := Prog Call Call.Reply

def perform (c : Call) : M c.Reply := Prog.perform c id

/-! ## The programs -/

/-- The transaction, and the reads that follow it when the key was taken meanwhile. -/
def writer (q : Create) : M (Except StoreError Outcome) := do
  match ← perform (.create q) with
  | .error err => pure (.error err)
  | .ok (.done out) => pure (.ok out)
  | .ok (.replay ref) => perform (.read ref)

/-- A refusal found among the readers is left to the transaction to return. -/
def Outcome.isRefused : Outcome → Bool
  | .refused .. => true
  | _ => false

/-- A create: the key among the readers, and then the transaction. -/
def create (q : Create) : M (Except StoreError Outcome) := do
  match q.key with
  | none => writer q
  | some k =>
    match ← perform (.find k) with
    | .error err => pure (.error err)
    | .ok none => writer q
    | .ok (some (ref, hash)) =>
      if hash ≠ q.requestHash then pure (.error .idempotencyConflict)
      else
        match ← perform (.read ref) with
        | .error err => pure (.error err)
        | .ok out => if out.isRefused then writer q else pure (.ok out)

def createVMWithOperation (inp : CreateVMInput) : M (Except StoreError Outcome) := create (.vm inp)

def createVMBatch (inp : CreateVMBatchInput) : M (Except StoreError Outcome) := create (.batch inp)

def createRun (inp : CreateRunInput) : M (Except StoreError Outcome) := create (.run inp)

/-- A create call with its answer, or a transition of some VM in between. -/
inductive Job where
  | create (q : Create)
  | transition (inp : TransitionInput) (reason : Bytes) (operationID : Nat)

def submit (q : Create) : M Unit := do
  let out ← match q with
    | .vm inp => createVMWithOperation inp
    | .batch inp => createVMBatch inp
    | .run inp => createRun inp
  perform (.answer q out)

def Job.prog : Job → M Unit
  | create q => submit q
  | transition inp reason operationID => do
    let _ ← perform (.transition inp reason operationID)
    pure ()

/-- The store with its callers. Calls come at any time; a crash loses the callers and keeps the
registry. -/
def callers : System Call Call.Reply Registry Env Job where
  exec r c e := some (Call.exec r e c)
  spawn _ _ := none
  prog := Job.prog
  entry _ := true
  boot _ := true
  restart := id

/-! ## The registry only grows -/

variable {r r' : Registry} {q : Create} {e : Env}

/-- Whatever happens, the rows a create left behind stay. -/
structure Grown (r r' : Registry) : Prop where
  operations : r.operations <+: r'.operations
  runs : r.runs <+: r'.runs
  batches : r.batches <+: r'.batches
  members : ∀ id ≤ r.batches.length, r'.membersOf id = r.membersOf id
  vms : ∀ v, (r.getVM v).isSome → (r'.getVM v).isSome

lemma Grown.refl (r : Registry) : Grown r r :=
  ⟨prefix_rfl, prefix_rfl, prefix_rfl, fun _ _ => rfl, fun _ h => h⟩

variable {k : Key} {mrows : List BatchMemberRow} {rows : List VMRow} {op : Operation} {ref : Ref}
  {α : Type}

lemma find_of_prefix {κ : Type} [DecidableEq κ] {key : α → κ} {k : κ} {t t' : List α} {row : α}
    (hle : t <+: t') (h : Table.find key k t = some row) : Table.find key k t' = some row := by
  obtain ⟨more, rfl⟩ := hle
  simp only [Table.find] at h
  simp [Table.find, List.find?_append, h]

lemma findBy_of_prefix {κ : Type} [DecidableEq κ] {keyOf : α → Option κ} {k : κ} {t t' : List α}
    {row : α} (hle : t <+: t') (h : Table.findBy keyOf k t = some row) :
    Table.findBy keyOf k t' = some row := by
  obtain ⟨more, rfl⟩ := hle
  exact Table.findBy_append_of_some h

attribute [local simp] Registry.find

/-- A key that is taken stays taken, by the same row. -/
lemma Grown.find (h : Grown r r') {x : Ref × Bytes} (hfind : r.find k = some x) :
    r'.find k = some x := by
  cases k with
  | vm owner key =>
    obtain ⟨op, hop, rfl⟩ := map_eq_some_iff.1 hfind
    have hop' : r'.operationByKey owner .vmCreate key = some op := findBy_of_prefix h.operations hop
    simp [hop']
  | batch owner key =>
    obtain ⟨b, hb, rfl⟩ := map_eq_some_iff.1 hfind
    have hb' : r'.batchByKey owner key = some b := findBy_of_prefix h.batches hb
    simp [hb']
  | run owner key =>
    obtain ⟨row, hrow, rfl⟩ := map_eq_some_iff.1 hfind
    have hrow' : r'.runByKey owner key = some row := findBy_of_prefix h.runs hrow
    simp [hrow']

/-- The number of a batch is at most their count. -/
lemma Wf.batchID_le (hr : r.Wf) {id : Nat} {b : Batch} (h : r.getBatch id = some b) :
    id ≤ r.batches.length := by
  obtain ⟨hmem, rfl⟩ := Table.mem_of_find h
  have hid : b.batchID ∈ r.batches.map Batch.batchID := mem_map_of_mem hmem
  rw [hr.batchIDs, mem_range'_1] at hid
  omega

lemma Grown.read (h : Grown r r') (hr : r.Wf) {out : Outcome} (hread : r.read ref = .ok out) :
    r'.read ref = .ok out := by
  cases ref with
  | operation id =>
    simp only [Registry.read, readOperation] at hread ⊢
    cases hop : r.getOperation id with
    | none => simp [hop] at hread
    | some op =>
      have hop' : r'.getOperation id = some op := find_of_prefix h.operations hop
      simp only [hop, hop'] at hread ⊢
      cases hv : op.vmID with
      | none => simpa [hv] using hread
      | some v =>
        by_cases hsome : (r.getVM v).isSome = true
        · simpa [hv, hsome, h.vms v hsome] using hread
        · simp [hv, hsome] at hread
  | batch id =>
    simp only [Registry.read, readBatch] at hread ⊢
    cases hb : r.getBatch id with
    | none => simp [hb] at hread
    | some b =>
      have hb' : r'.getBatch id = some b := find_of_prefix h.batches hb
      simp only [hb, hb'] at hread ⊢
      cases hop : b.batchOpID with
      | none => simpa [hop, h.members id (hr.batchID_le hb)] using hread
      | some opID =>
        cases hrow : r.getOperation opID with
        | none => simp [hop, hrow] at hread
        | some op =>
          have hrow' : r'.getOperation opID = some op := find_of_prefix h.operations hrow
          simpa [hop, hrow, hrow', h.members id (hr.batchID_le hb)] using hread
  | run runID =>
    simp only [Registry.read] at hread ⊢
    cases hrun : r.getRun runID with
    | none => simp [hrun] at hread
    | some row =>
      have hrun' : r'.getRun runID = some row := find_of_prefix h.runs hrun
      simpa [hrun, hrun'] using hread

/-! ## Every transaction grows the registry -/

lemma vms_of_append (h : r'.vms = r.vms ++ rows) (v : Bytes) (hv : (r.getVM v).isSome) :
    (r'.getVM v).isSome := by
  obtain ⟨row, hrow⟩ := isSome_iff_exists.1 hv
  have hrow' : r'.getVM v = some row :=
    find_of_prefix (h ▸ prefix_append r.vms rows) hrow
  simp [hrow']

lemma membersOf_append (h : r'.members = r.members ++ mrows)
    (hnumber : ∀ row ∈ mrows, row.batchID = r.batches.length + 1) (id : Nat)
    (hid : id ≤ r.batches.length) : r'.membersOf id = r.membersOf id := by
  have hnone : mrows.filter (fun m => m.batchID = id) = [] := by
    refine filter_eq_nil_iff.2 fun row hrow => ?_
    have hrow := hnumber row hrow
    simp only [decide_eq_true_eq]
    omega
  rw [membersOf, h, filter_append, hnone, append_nil, membersOf]

lemma membersOf_new (hr : r.Wf) (h : r'.members = r.members ++ mrows)
    (hnumber : ∀ row ∈ mrows, row.batchID = r.batches.length + 1) :
    r'.membersOf (r.batches.length + 1) = mrows := by
  have hnone : r.members.filter (fun m => m.batchID = r.batches.length + 1) = [] := by
    refine filter_eq_nil_iff.2 fun row hrow => ?_
    have hle := hr.members row hrow
    simp only [decide_eq_true_eq]
    omega
  have hall : mrows.filter (fun m => m.batchID = r.batches.length + 1) = mrows :=
    filter_eq_self.2 fun row hrow => by simpa using hnumber row hrow
  rw [membersOf, h, filter_append, hnone, hall, nil_append]

lemma Adds.grown (h : Adds r r' rows) (hmembers : r'.members = r.members) :
    Grown r r' where
  operations := h.operations
  runs := h.runs
  batches := h.batches ▸ prefix_rfl
  members id _ := by rw [membersOf, hmembers, membersOf]
  vms := vms_of_append h.vms

lemma AddsBatch.grown {inp : CreateVMBatchInput} {granted : List NewVM}
    (h : AddsBatch r inp granted op mrows r') (hr : r.Wf) : Grown r r' where
  operations := by
    obtain ⟨ops, hops, -⟩ := h.operations
    rw [hops, append_assoc]
    exact prefix_append _ _
  runs := h.runs
  batches := h.batches hr ▸ prefix_append _ _
  members := membersOf_append h.members h.numbered
  vms := vms_of_append h.vms

/-! ## What is found can be read -/

/-- An operation under a key can be read: its VM is there, or it tells why it was refused. -/
def Readable (r : Registry) (op : Operation) : Prop :=
  op.idempotencyKey ≠ none → op.kind = .vmCreate →
    (∀ v, op.vmID = some v → (r.getVM v).isSome) ∧
      (op.vmID = none → ∃ refusal, op.state = .failed ∧ op.error = some refusal)

/-- The rows that others refer to are there. -/
structure Sound (r : Registry) : Prop where
  wf : r.Wf
  operations : ∀ op ∈ r.operations, r.Readable op
  batches : ∀ b ∈ r.batches, ∀ id, b.batchOpID = some id → (r.getOperation id).isSome

lemma sound_empty : Sound Registry.empty :=
  ⟨wf_empty, by simp [Registry.empty], by simp [Registry.empty]⟩

def recorded (op : Operation) : Option Outcome :=
  match op.vmID with
  | some v => some (.vm v op.operationID)
  | none => op.error.map fun refusal => .refused refusal op.operationID

lemma Sound.readOperation (hr : r.Sound) (hmem : op ∈ r.operations) (hkind : op.kind = .vmCreate)
    (hkey : op.idempotencyKey ≠ none) :
    ∃ out, recorded op = some out ∧ r.read (.operation op.operationID) = .ok out := by
  have hget : r.getOperation op.operationID = some op := find_numbered hr.wf.operationIDs hmem
  obtain ⟨hvm, hrefused⟩ := hr.operations op hmem hkey hkind
  simp only [Registry.read, Registry.readOperation, hget, recorded]
  cases hv : op.vmID with
  | some v => exact ⟨_, rfl, by simp [hvm v hv]⟩
  | none =>
    obtain ⟨refusal, hstate, herror⟩ := hrefused hv
    exact ⟨_, by rw [herror]; rfl, by simp [replayedRefusal, hstate, herror, Except.map]⟩

lemma Sound.readBatch (hr : r.Sound) {b : Batch} (hmem : b ∈ r.batches) :
    r.read (.batch b.batchID) = .ok (.batch b.batchID (r.membersOf b.batchID)) := by
  have hget : r.getBatch b.batchID = some b := find_numbered hr.wf.batchIDs hmem
  simp only [Registry.read, Registry.readBatch, hget]
  cases hop : b.batchOpID with
  | none => simp
  | some id =>
    obtain ⟨op, hop'⟩ := isSome_iff_exists.1 (hr.batches b hmem id hop)
    simp [hop']

lemma Sound.readRun (hr : r.Sound) {row : RunRow} (hmem : row ∈ r.runs) :
    r.read (.run row.runID) = .ok (.run row.runID) := by
  have hget : r.getRun row.runID = some row := Table.find_of_mem hr.wf.runIDs hmem
  simp [Registry.read, hget]

lemma Sound.readable (hr : r.Sound) {hash : Bytes} (hfind : r.find k = some (ref, hash)) :
    ∃ out, r.read ref = .ok out := by
  cases k with
  | vm owner key =>
    obtain ⟨op, hop, heq⟩ := map_eq_some_iff.1 hfind
    obtain ⟨rfl, -⟩ := Prod.mk.inj heq
    obtain ⟨hmem, hkey⟩ := Table.mem_of_findBy hop
    obtain ⟨key', hkey', heq⟩ := map_eq_some_iff.1 hkey
    have hkind : op.kind = .vmCreate := congrArg (fun x => x.2.1) heq
    obtain ⟨out, -, hread⟩ := hr.readOperation hmem hkind (by simp [hkey'])
    exact ⟨out, hread⟩
  | batch owner key =>
    obtain ⟨b, hb, heq⟩ := map_eq_some_iff.1 hfind
    obtain ⟨rfl, -⟩ := Prod.mk.inj heq
    exact ⟨_, hr.readBatch (Table.mem_of_findBy hb).1⟩
  | run owner key =>
    obtain ⟨row, hrow, heq⟩ := map_eq_some_iff.1 hfind
    obtain ⟨rfl, -⟩ := Prod.mk.inj heq
    exact ⟨_, hr.readRun (Table.mem_of_findBy hrow).1⟩

/-! ## What a transaction does for its key -/

lemma tx_of_taken (hkey : q.key = some k) (hfind : r.find k = some (ref, q.requestHash)) :
    q.tx r e = .ok (.replay ref, r) := by
  cases q with
  | vm inp =>
    obtain ⟨key, hinp, rfl⟩ := map_eq_some_iff.1 hkey
    obtain ⟨op, hop, heq⟩ := map_eq_some_iff.1 hfind
    obtain ⟨rfl, hhash⟩ := Prod.mk.inj heq
    have hhash' : op.requestHash = inp.requestHash := hhash
    simp [Create.tx, createVMTx, hinp, hop, hhash', Except.map, CreateVMReply.toTx]
  | batch inp =>
    obtain ⟨key, hinp, rfl⟩ := map_eq_some_iff.1 hkey
    obtain ⟨b, hb, heq⟩ := map_eq_some_iff.1 hfind
    obtain ⟨rfl, hhash⟩ := Prod.mk.inj heq
    have hhash' : b.requestHash = inp.requestHash := hhash
    simp [Create.tx, createVMBatchTx, hinp, hb, hhash', Except.map, CreateBatchReply.toTx]
  | run inp =>
    obtain ⟨key, hinp, rfl⟩ := map_eq_some_iff.1 hkey
    obtain ⟨row, hrow, heq⟩ := map_eq_some_iff.1 hfind
    obtain ⟨rfl, hhash⟩ := Prod.mk.inj heq
    have hhash' : row.requestHash = inp.requestHash := hhash
    simp [Create.tx, createRunTx, hinp, hrow, hhash', Except.map, CreateRunReply.toTx]

def Settles (r : Registry) (q : Create) : TxReply → Prop
  | .replay ref => ∀ k, q.key = some k → r.find k = some (ref, q.requestHash)
  | .done out => ∀ k, q.key = some k →
      ∃ ref, r.find k = some (ref, q.requestHash) ∧ r.read ref = .ok out

lemma Grown.getOperation (h : Grown r r') {id : Nat} (hid : (r.getOperation id).isSome) :
    (r'.getOperation id).isSome := by
  obtain ⟨op, hop⟩ := isSome_iff_exists.1 hid
  have hop' : r'.getOperation id = some op := find_of_prefix h.operations hop
  simp [hop']

/-- A registry that grew is sound when the rows it gained are. -/
lemma Sound.grow (hr : r.Sound) (hgrown : Grown r r') (hwf : r'.Wf) {ops : List Operation}
    (hops : r'.operations = r.operations ++ ops) (hnew : ∀ op ∈ ops, r'.Readable op)
    {bs : List Batch} (hbs : r'.batches = r.batches ++ bs)
    (hlinked : ∀ b ∈ bs, ∀ id, b.batchOpID = some id → (r'.getOperation id).isSome) :
    r'.Sound := by
  refine ⟨hwf, fun op hop => ?_, fun b hb id hid => ?_⟩
  · rw [hops, mem_append] at hop
    rcases hop with hop | hop
    · intro hkey hkind
      obtain ⟨hvm, hrefused⟩ := hr.operations op hop hkey hkind
      exact ⟨fun v hv => hgrown.vms v (hvm v hv), hrefused⟩
    · exact hnew op hop
  · rw [hbs, mem_append] at hb
    rcases hb with hb | hb
    · exact hgrown.getOperation (hr.batches b hb id hid)
    · exact hlinked b hb id hid

/-- The effect of a transaction on a sound registry. -/
structure TxEffect (r : Registry) (q : Create) (reply : TxReply) (r' : Registry) : Prop where
  sound : r'.Sound
  grown : Grown r r'
  settles : Settles r' q reply

attribute [local simp] Create.requestHash

lemma txEffect_opened {inp : CreateVMInput} {out : Outcome} (hr : r.Sound) (hadds : Adds r r' rows)
    (hmembers : r'.members = r.members) (hops : r'.operations = r.operations ++ [op])
    (hfree : Table.taken Operation.key op r.operations = false)
    (hkey : op.key = inp.idempotencyKey.map fun k => (inp.owner, .vmCreate, k))
    (hhash : op.requestHash = inp.requestHash) (hreadable : r'.Readable op)
    (hout : recorded op = some out) : TxEffect r (.vm inp) (.done out) r' := by
  have hgrown := hadds.grown hmembers
  have hsound : r'.Sound := by
    refine hr.grow hgrown (hadds.wf hr.wf) hops (fun o ho => ?_)
      (hadds.batches.trans (append_nil _).symm) (by simp)
    cases mem_singleton.1 ho
    exact hreadable
  refine ⟨hsound, hgrown, fun k hk => ?_⟩
  obtain ⟨key, hinp, rfl⟩ := map_eq_some_iff.1 hk
  rw [hinp, map_some] at hkey
  obtain ⟨key', hkey', heq⟩ := map_eq_some_iff.1 hkey
  have hmem : op ∈ r'.operations := by simp [hops]
  obtain ⟨out', hout', hread⟩ :=
    hsound.readOperation hmem (congrArg (fun x => x.2.1) heq) (by simp [hkey'])
  obtain rfl : out = out' := Option.some.inj (hout.symm.trans hout')
  have hfound : r'.operationByKey inp.owner .vmCreate key = some op := by
    rw [operationByKey, hops]
    exact Table.findBy_append_self hkey hfree
  exact ⟨_, by simp [hfound, hhash], hread⟩

lemma txEffect_vm {inp : CreateVMInput} {admission : ReservationTotals → Admission}
    {reply : CreateVMReply} (hr : r.Sound) (h : r.createVMTx inp admission = .ok (reply, r')) :
    TxEffect r (.vm inp) reply.toTx r' := by
  cases createVMTx_ok h with
  | @replay op key hkey hfound hhash =>
    refine ⟨hr, .refl r, fun k hk => ?_⟩
    obtain ⟨key', hkey', rfl⟩ := map_eq_some_iff.1 hk
    obtain rfl : key = key' := Option.some.inj (hkey.symm.trans hkey')
    simp [hfound, hhash]
  | @refused refusal op _ hop hfree hops hmembers hadds =>
    subst hop
    refine txEffect_opened hr hadds hmembers hops hfree rfl rfl (fun _ _ => ?_) rfl
    exact ⟨nofun, fun _ => ⟨refusal, rfl, rfl⟩⟩
  | @created totals op _ _ _ hop hfree hops hmembers hadds =>
    subst hop
    refine txEffect_opened hr hadds hmembers hops hfree rfl rfl (fun _ _ => ?_) rfl
    refine ⟨fun v hv => ?_, nofun⟩
    obtain rfl : inp.vm.vmID = v := Option.some.inj hv
    rw [Registry.getVM, Table.find, List.find?_isSome, hadds.vms]
    exact ⟨inp.vm.row inp.owner, by simp, by simp [VMRow.vmID, NewVM.row, VM.new]⟩

lemma txEffect_batch {inp : CreateVMBatchInput} {admission : BatchAdmission}
    {reply : CreateBatchReply} (hr : r.Sound)
    (h : r.createVMBatchTx inp admission = .ok (reply, r')) :
    TxEffect r (.batch inp) reply.toTx r' := by
  cases createVMBatchTx_ok h with
  | @replay b key hkey hfound hhash =>
    refine ⟨hr, .refl r, fun k hk => ?_⟩
    obtain ⟨key', hkey', rfl⟩ := map_eq_some_iff.1 hk
    obtain rfl : key = key' := Option.some.inj (hkey.symm.trans hkey')
    simp [hfound, hhash]
  | @created decision mreply r₁ r₂ op out _ hprocess _ hopen hfree =>
    have hadds := createBatch_adds hprocess hopen hfree
    generalize (r₂.linkBatch (r.batches.length + 1) op.operationID).announce op = r' at hadds ⊢
    have hgrown := hadds.grown hr.wf
    have hbatches := hadds.batches hr.wf
    have hwf := hadds.wf hr.wf
    obtain ⟨ops, hops, hkeyless⟩ := hadds.operations
    have hsound : r'.Sound := by
      refine hr.grow hgrown hwf (by rw [hops, append_assoc]) (fun o ho => ?_) hbatches
        fun b hb id hid => ?_
      · rcases mem_append.1 ho with ho | ho
        · exact fun hkey => absurd (hkeyless o ho) hkey
        · cases mem_singleton.1 ho
          exact fun _ hkind => absurd (hadds.kind.symm.trans hkind) (by simp)
      · cases mem_singleton.1 hb
        obtain rfl : op.operationID = id := Option.some.inj hid
        have hmem : op ∈ r'.operations := by simp [hops]
        simp [Registry.getOperation, find_numbered hwf.operationIDs hmem]
    refine ⟨hsound, hgrown, fun k hk => ?_⟩
    obtain ⟨key, hinp, rfl⟩ := map_eq_some_iff.1 hk
    have hnone : r.batchByKey inp.owner key = none := hfree key hinp
    have hfound : r'.batchByKey inp.owner key = some (r.newBatch inp (some op.operationID)) := by
      rw [batchByKey, hbatches, Table.findBy_append_of_none hnone]
      simp [Table.findBy, Batch.key, newBatch, hinp]
    have hmem : r.newBatch inp (some op.operationID) ∈ r'.batches := by simp [hbatches]
    have hread := hsound.readBatch hmem
    refine ⟨.batch (r.batches.length + 1), ?_, ?_⟩
    · simp [hfound, newBatch]
    · rw [← membersOf_new hr.wf hadds.members hadds.numbered]
      exact hread

lemma txEffect_run {inp : CreateRunInput} {runID : Bytes} {reply : CreateRunReply} (hr : r.Sound)
    (h : r.createRunTx inp runID = .ok (reply, r')) : TxEffect r (.run inp) reply.toTx r' := by
  cases createRunTx_ok h with
  | @replay row key hkey hfound hhash =>
    refine ⟨hr, .refl r, fun k hk => ?_⟩
    obtain ⟨key', hkey', rfl⟩ := map_eq_some_iff.1 hk
    obtain rfl : key = key' := Option.some.inj (hkey.symm.trans hkey')
    simp [hfound, hhash]
  | @created row _ hins =>
    have hadds := adds_insertRun hins
    obtain ⟨hrow, -, hfree, hr'⟩ := insertRun_ok hins
    have hgrown : Grown r r' := hadds.grown (by rw [hr']; rfl)
    have hsound : r'.Sound :=
      hr.grow hgrown (hadds.wf hr.wf) (by rw [hr']; exact (append_nil _).symm)
        (by simp : ∀ op ∈ ([] : List Operation), r'.Readable op)
        (hadds.batches.trans (append_nil _).symm) (by simp)
    refine ⟨hsound, hgrown, fun k hk => ?_⟩
    obtain ⟨key, hinp, rfl⟩ := map_eq_some_iff.1 hk
    have hruns : r'.runs = r.runs ++ [row] := by rw [hr']
    have hfound : r'.runByKey inp.owner key = some row := by
      rw [runByKey, hruns]
      refine Table.findBy_append_self ?_ hfree
      rw [hrow, RunRow.key, newRun, hinp]
      rfl
    have hmem : row ∈ r'.runs := by simp [hruns]
    refine ⟨_, ?_, hsound.readRun hmem⟩
    rw [Registry.find, hfound, hrow]
    rfl

lemma map_pair_ok {β : Type} {x : Except StoreError (α × Registry)} {f : α → β} {b : β}
    (h : (x.map fun p => (f p.1, p.2)) = .ok (b, r')) : ∃ a, x = .ok (a, r') ∧ f a = b := by
  rcases x with err | ⟨a, r₁⟩
  · cases h
  · cases h
    exact ⟨a, rfl, rfl⟩

lemma txEffect {reply : TxReply} (hr : r.Sound) (h : q.tx r e = .ok (reply, r')) :
    TxEffect r q reply r' := by
  cases q with
  | vm inp =>
    obtain ⟨a, ha, rfl⟩ := map_pair_ok h
    exact txEffect_vm hr ha
  | batch inp =>
    obtain ⟨a, ha, rfl⟩ := map_pair_ok h
    exact txEffect_batch hr ha
  | run inp =>
    obtain ⟨a, ha, rfl⟩ := map_pair_ok h
    exact txEffect_run hr ha

/-- A transition takes nothing away that a create left behind. -/
lemma transition_effect {inp : TransitionInput} {reason : Bytes} {operationID : Nat}
    {admission : ReservationTotals → Admission} {vm : VM} (hr : r.Sound)
    (h : r.transitionVMTx inp reason operationID admission = .ok (vm, r')) :
    r'.Sound ∧ Grown r r' := by
  obtain ⟨current, -, -, -, rfl⟩ := transitionVMTx_ok h
  have hvms : ∀ v, (r.getVM v).isSome →
      (Table.find VMRow.vmID v (Table.modify VMRow.vmID inp.vmID (VMRow.move inp) r.vms)).isSome := by
    intro v hv
    rw [find_move]
    split_ifs
    · simpa [Registry.getVM] using hv
    · exact hv
  refine ⟨⟨{ hr.wf with vmIDs := (keys_move inp r.vms).symm ▸ hr.wf.vmIDs }, ?_, hr.batches⟩,
    prefix_rfl, prefix_rfl, prefix_rfl, fun _ _ => rfl, hvms⟩
  intro op hop hkey hkind
  obtain ⟨hvm, hrefused⟩ := hr.operations op hop hkey hkind
  exact ⟨fun v hv => hvms v (hvm v hv), hrefused⟩

lemma exec_effect (hr : r.Sound) (e : Env) (c : Call) :
    (c.exec r e).1.Sound ∧ Grown r (c.exec r e).1 := by
  cases c with
  | find k | read ref | answer q out => exact ⟨hr, .refl r⟩
  | create q =>
    simp only [Call.exec, transact]
    split_ifs
    · exact ⟨hr, .refl r⟩
    · cases htx : q.tx r e with
      | error err => exact ⟨hr, .refl r⟩
      | ok p => exact ⟨(txEffect hr htx).sound, (txEffect hr htx).grown⟩
  | transition inp reason operationID =>
    simp only [Call.exec, transact]
    split_ifs
    · exact ⟨hr, .refl r⟩
    · cases htx : r.transitionVMTx inp reason operationID e.admission with
      | error err => exact ⟨hr, .refl r⟩
      | ok p => exact transition_effect hr htx

end Observatory.Store.Registry
