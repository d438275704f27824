/-
# What a transaction adds

A creation adds rows at the end of the tables and never touches the rows that are there. This
module says so once for each building block; what holds of a whole call follows by composing.
-/
import Observatory.Store.Registry

namespace Observatory.Store.Registry

open Lib List Table

variable {runID : Bytes} {inp : CreateVMBatchInput}
  {decision : Nat → List VMRow → NewVM → Option Admission} {op : Operation} {α : Type}

/-- A computation that went through went through in both its parts. -/
lemma bind_ok_iff {β ε : Type} {x : Except ε α} {f : α → Except ε β} {b : β} :
    (x >>= f) = .ok b ↔ ∃ a, x = .ok a ∧ f a = .ok b := by
  rcases x with err | a
  · exact ⟨nofun, fun ⟨_, h, _⟩ => (nomatch h)⟩
  · exact ⟨fun h => ⟨a, rfl, h⟩, fun ⟨_, heq, h⟩ => Except.ok.inj heq ▸ h⟩

/-! ## Consistent tables -/

/-- The tables are consistent: numbers are positions, identifiers and keys are unique, and the
members of batches belong to batches. -/
structure Wf (r : Registry) : Prop where
  vmIDs : (r.vms.map VMRow.vmID).Nodup
  operationIDs : r.operations.map Operation.operationID = List.range' 1 r.operations.length
  operationKeys : (r.operations.filterMap Operation.key).Nodup
  batchIDs : r.batches.map Batch.batchID = List.range' 1 r.batches.length
  batchKeys : (r.batches.filterMap Batch.key).Nodup
  members : ∀ m ∈ r.members, m.batchID ≤ r.batches.length
  runIDs : (r.runs.map RunRow.runID).Nodup
  runKeys : (r.runs.filterMap RunRow.key).Nodup

lemma wf_empty : Registry.empty.Wf := by
  constructor <;> simp [Registry.empty]

lemma numbered_append {id : α → Nat} {t : List α} {row : α} (h : t.map id = List.range' 1 t.length)
    (hrow : id row = t.length + 1) : (t ++ [row]).map id = List.range' 1 (t ++ [row]).length := by
  rw [map_append, h, map_singleton, hrow, length_append, length_singleton,
    List.range'_concat, Nat.one_mul, Nat.add_comm 1]

lemma find_numbered {id : α → Nat} {t : List α} {row : α} (h : t.map id = List.range' 1 t.length)
    (hmem : row ∈ t) :
    find id (id row) t = some row := by
  refine find_of_mem ?_ hmem
  rw [h]
  exact nodup_range'

/-! ## Adding -/

/-- A transaction that adds the VMs `rows`, and leaves the batches alone. -/
structure Adds (r r' : Registry) (rows : List VMRow) : Prop where
  vms : r'.vms = r.vms ++ rows
  new : ∀ row ∈ rows, row.vm = VM.new row.vmID
  operations : r.operations <+: r'.operations
  runs : r.runs <+: r'.runs
  batches : r'.batches = r.batches
  events : ∃ evs, r'.events = r.events ++ evs ∧ ∀ e ∈ evs, e.aboutState = false
  wf : r.Wf → r'.Wf

namespace Adds

variable {r r' r'' : Registry} {rows rows' : List VMRow}

lemma refl (r : Registry) : Adds r r [] where
  vms := (append_nil _).symm
  new := by simp
  operations := prefix_rfl
  runs := prefix_rfl
  batches := rfl
  events := ⟨[], by simp, by simp⟩
  wf := id

lemma trans (h : Adds r r' rows) (h' : Adds r' r'' rows') : Adds r r'' (rows ++ rows') where
  vms := by rw [h'.vms, h.vms, append_assoc]
  new row hrow := by
    rcases mem_append.1 hrow with hrow | hrow
    · exact h.new row hrow
    · exact h'.new row hrow
  operations := h.operations.trans h'.operations
  runs := h.runs.trans h'.runs
  batches := h'.batches.trans h.batches
  events := by
    obtain ⟨evs, heq, hquiet⟩ := h.events
    obtain ⟨evs', heq', hquiet'⟩ := h'.events
    refine ⟨evs ++ evs', by rw [heq', heq, append_assoc], fun e he => ?_⟩
    rcases mem_append.1 he with he | he
    · exact hquiet e he
    · exact hquiet' e he
  wf hr := h'.wf (h.wf hr)

end Adds

/-! ## The building blocks -/

variable {r r' : Registry} {owner hash : Bytes} {key : Option Bytes} {m : NewVM}
  {batchID position : Nat}

lemma adds_emit {e : RegistryEvent} (h : e.aboutState = false) : Adds r (r.emit e) [] :=
  { Adds.refl r with
    vms := (append_nil _).symm
    events := ⟨[e], rfl, by simpa using h⟩
    wf := fun hr => ⟨hr.1, hr.2, hr.3, hr.4, hr.5, hr.6, hr.7, hr.8⟩ }

lemma adds_announce (op : Operation) : Adds r (r.announce op) [] := adds_emit rfl

lemma openOperation_ok {op' : Operation} (h : r.openOperation op = .ok (op', r')) :
    op' = { op with operationID := r.operations.length + 1 } ∧
      taken Operation.key op' r.operations = false ∧
      r' = { r with operations := r.operations ++ [op'] } := by
  simp only [openOperation] at h
  split_ifs at h with htaken
  cases h
  exact ⟨rfl, by simpa using htaken, rfl⟩

lemma adds_openOperation {op' : Operation} (h : r.openOperation op = .ok (op', r')) :
    Adds r r' [] := by
  obtain ⟨hop, hfree, rfl⟩ := openOperation_ok h
  refine { Adds.refl r with vms := (append_nil _).symm, operations := ?_, wf := fun hr => ?_ }
  · exact prefix_append _ _
  · exact { hr with
      operationIDs := numbered_append hr.operationIDs (by rw [hop])
      operationKeys := unique_append hr.operationKeys hfree }

lemma insertRun_ok {inp : CreateRunInput} {row : RunRow}
    (h : r.insertRun inp runID = .ok (row, r')) :
    row = r.newRun inp runID ∧ r.getRun runID = none ∧
      taken RunRow.key row r.runs = false ∧
      r' = { r.emit (.runCreated runID inp.vmID inp.owner inp.attachment inp.initialPhase) with
        runs := r.runs ++ [row] } := by
  simp only [insertRun] at h
  by_cases htaken : ((r.getRun runID).isSome ||
      taken RunRow.key (r.newRun inp runID) r.runs) = true
  · simp [htaken] at h
  by_cases hactive : taken RunRow.activeVM (r.newRun inp runID) r.runs = true
  · simp [htaken, hactive] at h
  rw [if_neg htaken, if_neg hactive] at h
  cases h
  rw [Bool.or_eq_true, not_or] at htaken
  exact ⟨rfl, by simpa using htaken.1, by simpa using htaken.2, rfl⟩

lemma adds_insertRun {inp : CreateRunInput} {row : RunRow}
    (h : r.insertRun inp runID = .ok (row, r')) : Adds r r' [] := by
  obtain ⟨rfl, hid, hkey, rfl⟩ := insertRun_ok h
  refine ⟨(append_nil _).symm, by simp, prefix_rfl, prefix_append _ _, rfl,
    ⟨[_], rfl, by simp [RegistryEvent.aboutState]⟩, fun hr => ?_⟩
  exact { hr with
    runIDs := keys_insert hr.runIDs
      (show insert RunRow.runID (r.newRun inp runID) r.runs = some _ from
        insert_eq_some.2 ⟨hid, rfl⟩)
    runKeys := unique_append hr.runKeys hkey }

/-! ### VMs -/

lemma insertRow_ok {row : VMRow} (h : r.insertRow row = .ok r') :
    r.getVM row.vmID = none ∧ r' = { r with vms := r.vms ++ [row] } := by
  simp only [insertRow] at h
  cases hins : insert VMRow.vmID row r.vms with
  | none => simp [hins] at h
  | some vms =>
    obtain ⟨hnone, rfl⟩ := insert_eq_some.1 hins
    simp only [hins, Except.ok.injEq] at h
    exact ⟨hnone, h.symm⟩

lemma adds_insertRow (h : r.insertRow (m.row owner) = .ok r') : Adds r r' [m.row owner] := by
  obtain ⟨hnone, rfl⟩ := insertRow_ok h
  refine { Adds.refl r with vms := rfl, new := fun row hrow => ?_, wf := fun hr => ?_ }
  · cases mem_singleton.1 hrow
    rfl
  · exact { hr with vmIDs := keys_insert hr.vmIDs (insert_eq_some.2 ⟨hnone, rfl⟩) }

lemma attachRun_ok (h : r.attachRun owner m = .ok r') :
    r'.operations = r.operations ∧ r'.members = r.members ∧ Adds r r' [] := by
  simp only [attachRun] at h
  cases hrun : m.run with
  | none =>
    obtain rfl : r = r' := by simpa [hrun] using h
    exact ⟨rfl, rfl, Adds.refl r⟩
  | some attachment =>
    simp only [hrun, bind_ok_iff] at h
    obtain ⟨⟨row, r₁⟩, hins, h⟩ := h
    cases h
    have hadds := adds_insertRun hins
    obtain ⟨-, -, -, rfl⟩ := insertRun_ok hins
    exact ⟨rfl, rfl, hadds⟩

lemma insertAdmitted_ok (h : r.insertAdmitted owner key hash m = .ok (op, r')) :
    op = { admittedOperation owner key hash m.vmID with
        operationID := r.operations.length + 1 } ∧
      r'.operations = r.operations ++ [op] ∧ r'.members = r.members ∧
      taken Operation.key op r.operations = false ∧ Adds r r' [m.row owner] := by
  simp only [insertAdmitted, bind_ok_iff] at h
  obtain ⟨r₁, hrow, ⟨op', r₂⟩, hop, r₃, hrun, h⟩ := h
  obtain ⟨rfl, rfl⟩ : op' = op ∧ r₃ = r' := Prod.mk.inj (Except.ok.inj h)
  obtain ⟨hops, hmembers, hattach⟩ := attachRun_ok hrun
  have hopen := adds_openOperation hop
  obtain ⟨hnumber, hfree, rfl⟩ := openOperation_ok hop
  have hadds := adds_insertRow hrow
  obtain ⟨-, rfl⟩ := insertRow_ok hrow
  refine ⟨hnumber, hops, hmembers, hfree, ?_⟩
  have hevent : Adds _ _ [] :=
    adds_emit (r := { r with vms := r.vms ++ [m.row owner], operations := r.operations ++ [op'] })
      (e := .vmCreated m.vmID owner m.spec op'.operationID) rfl
  exact (((hadds.trans hopen).trans hevent).trans (adds_announce op')).trans hattach

/-! ### Batches -/

lemma insertOneMember_ok {row : BatchMemberRow} (hid : batchID ≤ r.batches.length)
    (h : r.insertOneMember batchID position owner m = .ok (row, r')) :
    row.batchID = batchID ∧ r'.members = r.members ++ [row] ∧ Adds r r' [m.row owner] ∧
      ∃ op, op.idempotencyKey = none ∧ r'.operations = r.operations ++ [op] := by
  simp only [insertOneMember, bind_ok_iff] at h
  obtain ⟨⟨op, r₁⟩, hins, h⟩ := h
  cases h
  obtain ⟨hop, hops, hmembers, -, hadds⟩ := insertAdmitted_ok hins
  refine ⟨rfl, by rw [hmembers], ?_, op, by rw [hop]; rfl, hops⟩
  refine { hadds with wf := fun hr => ?_ }
  refine { hadds.wf hr with members := fun row hrow => ?_ }
  rcases mem_append.1 hrow with hrow | hrow
  · exact (hadds.wf hr).members row hrow
  · cases mem_singleton.1 hrow
    exact hadds.batches ▸ hid

lemma refuseMember_adds (refusal : AdmissionRefusal) (hid : batchID ≤ r.batches.length) :
    Adds r (r.refuseMember batchID position refusal m).2 [] := by
  refine { Adds.refl r with vms := (append_nil _).symm, wf := fun hr => ?_ }
  refine { hr with members := fun row hrow => ?_ }
  rcases mem_append.1 hrow with hrow | hrow
  · exact hr.members row hrow
  · cases mem_singleton.1 hrow
    exact hid

def grantedMembers (owner : Bytes) (decision : Nat → List VMRow → NewVM → Option Admission) :
    Nat → List NewVM → List VMRow → List NewVM
  | _, [], _ => []
  | position, m :: ms, vms =>
    if decision position vms m = some .granted then
      m :: grantedMembers owner decision (position + 1) ms (vms ++ [m.row owner])
    else grantedMembers owner decision (position + 1) ms vms

lemma mem_of_mem_grantedMembers {ms : List NewVM} {vms : List VMRow}
    (h : m ∈ grantedMembers owner decision position ms vms) :
    m ∈ ms := by
  induction ms generalizing position vms with
  | nil => exact h
  | cons m' ms ih =>
    rw [grantedMembers] at h
    split_ifs at h with hgranted
    · rcases mem_cons.1 h with rfl | h
      · exact mem_cons_self
      · exact .tail _ (ih h)
    · exact .tail _ (ih h)

lemma grantedMembers_const {answer : Admission} (ms : List NewVM) (vms : List VMRow) :
    grantedMembers owner (fun _ _ _ => some answer) position ms vms =
      if answer = .granted then ms else [] := by
  induction ms generalizing position vms with
  | nil => simp [grantedMembers]
  | cons m ms ih =>
    rw [grantedMembers, ih, ih]
    by_cases h : answer = .granted <;> simp [h]

lemma processMembers_ok {ms : List NewVM} {reply : MembersReply} (hid : batchID ≤ r.batches.length)
    (h : processMembers batchID owner decision position ms r = .ok (reply, r')) :
    Adds r r' ((grantedMembers owner decision position ms r.vms).map fun m => m.row owner) ∧
      r'.members = r.members ++ reply.rows ∧ (∀ row ∈ reply.rows, row.batchID = batchID) ∧
      ∃ ops, r'.operations = r.operations ++ ops ∧ ∀ op ∈ ops, op.idempotencyKey = none := by
  induction ms generalizing position r reply with
  | nil =>
    obtain ⟨rfl, rfl⟩ := Prod.mk.inj (Except.ok.inj h)
    exact ⟨Adds.refl r, by simp, by simp, [], by simp, by simp⟩
  | cons m ms ih =>
    rw [processMembers] at h
    rcases hdecision : decision position r.vms m with - | (- | refusal | -)
    · simp [hdecision] at h
    · simp only [hdecision, bind_ok_iff] at h
      obtain ⟨⟨row, r₁⟩, hins, ⟨reply', r₂⟩, hrest, h⟩ := h
      obtain ⟨rfl, rfl⟩ : _ ∧ r₂ = r' := Prod.mk.inj (Except.ok.inj h)
      obtain ⟨hrow, hmembers, hadds, op, hkey, hops⟩ := insertOneMember_ok hid hins
      obtain ⟨hrest', hmembers', hrows, ops, hops', hkeys⟩ := ih (hadds.batches ▸ hid) hrest
      rw [grantedMembers, if_pos hdecision, map_cons, ← hadds.vms]
      refine ⟨hadds.trans hrest', by simp [hmembers', hmembers], ?_, op :: ops,
        by simp [hops', hops], ?_⟩
      · simpa [hrow] using hrows
      · simpa [hkey] using hkeys
    · simp only [hdecision, bind_ok_iff] at h
      obtain ⟨⟨reply', r₂⟩, hrest, h⟩ := h
      obtain ⟨rfl, rfl⟩ : _ ∧ r₂ = r' := Prod.mk.inj (Except.ok.inj h)
      obtain ⟨hrest', hmembers', hrows, ops, hops, hkeys⟩ :=
        ih (r := (r.refuseMember batchID position refusal m).2) hid hrest
      rw [grantedMembers, if_neg (by simp [hdecision])]
      refine ⟨(refuseMember_adds refusal hid).trans hrest', ?_, ?_, ops, hops, hkeys⟩
      · simp [hmembers', refuseMember]
      · simpa [refuseMember] using hrows
    · simp [hdecision] at h

/-- How a mode decides on the members: once for all of them over the rows it found, or on each over
the rows as they have become. -/
def Decides (admission : BatchAdmission) (vms : List VMRow) :
    BatchMode → (Nat → List VMRow → NewVM → Option Admission) → Prop
  | .atomicReservation, decision => ∃ totals, reservationTotals vms = some totals ∧
      decision = fun _ _ _ => some (admission.batch totals)
  | .bestEffort, decision => decision = memberDecision admission

lemma processBatch_members {admission : BatchAdmission} {out : BatchOutcome}
    (h : r.processBatch batchID inp admission = .ok (out, r')) :
    ∃ decision reply, Decides admission r.vms inp.reservationMode decision ∧
      processMembers batchID inp.owner decision 0 inp.members r = .ok (reply, r') ∧
      out.rows = reply.rows := by
  cases hmode : inp.reservationMode with
  | atomicReservation =>
    simp only [processBatch, hmode, processAtomicBatch] at h
    cases htotals : reservationTotals r.vms with
    | none => simp [htotals] at h
    | some totals =>
      refine ⟨fun _ _ _ => some (admission.batch totals), ?_⟩
      cases hadmission : admission.batch totals with
      | failed => simp [htotals, hadmission] at h
      | refused refusal | granted =>
        simp only [htotals, hadmission, bind_ok_iff] at h
        obtain ⟨⟨reply, r₁⟩, hmembers, h⟩ := h
        obtain ⟨rfl, rfl⟩ : _ ∧ r₁ = r' := Prod.mk.inj (Except.ok.inj h)
        exact ⟨reply, ⟨totals, htotals, by rw [hadmission]⟩, hmembers, rfl⟩
  | bestEffort =>
    simp only [processBatch, hmode, processBestEffortBatch, bind_ok_iff] at h
    obtain ⟨⟨reply, r₁⟩, hmembers, h⟩ := h
    refine ⟨_, reply, rfl, ?_⟩
    by_cases hany : reply.anyAdmitted = true
    · rw [if_pos hany] at h
      obtain ⟨rfl, rfl⟩ : _ ∧ r₁ = r' := Prod.mk.inj (Except.ok.inj h)
      exact ⟨hmembers, rfl⟩
    · rw [if_neg hany] at h
      obtain ⟨rfl, rfl⟩ : _ ∧ r₁ = r' := Prod.mk.inj (Except.ok.inj h)
      exact ⟨hmembers, rfl⟩

/-! ## Whole transactions -/

/-- How the transaction of a VM create ends. -/
inductive CreateVMCase (r : Registry) (inp : CreateVMInput)
    (admission : ReservationTotals → Admission) : CreateVMReply → Registry → Prop
  | replay {op : Operation} {k : Bytes} (hkey : inp.idempotencyKey = some k)
      (hfound : r.operationByKey inp.owner .vmCreate k = some op)
      (hhash : op.requestHash = inp.requestHash) : CreateVMCase r inp admission (.replay op) r
  | refused {refusal : AdmissionRefusal} {op : Operation} {r' : Registry}
      (hop : op = { refusedOperation inp refusal with operationID := r.operations.length + 1 })
      (hfree : Table.taken Operation.key op r.operations = false)
      (hops : r'.operations = r.operations ++ [op]) (hmembers : r'.members = r.members)
      (hadds : Adds r r' []) : CreateVMCase r inp admission (.refused refusal op) r'
  | created {totals : ReservationTotals} {op : Operation} {r' : Registry}
      (htotals : reservationTotals r.vms = some totals) (hgranted : admission totals = .granted)
      (hop : op = { admittedOperation inp.owner inp.idempotencyKey inp.requestHash inp.vm.vmID with
        operationID := r.operations.length + 1 })
      (hfree : Table.taken Operation.key op r.operations = false)
      (hops : r'.operations = r.operations ++ [op]) (hmembers : r'.members = r.members)
      (hadds : Adds r r' [inp.vm.row inp.owner]) :
      CreateVMCase r inp admission (.created inp.vm.vmID op) r'

lemma createVMTx_ok {inp : CreateVMInput} {admission : ReservationTotals → Admission}
    {reply : CreateVMReply} (h : r.createVMTx inp admission = .ok (reply, r')) :
    CreateVMCase r inp admission reply r' := by
  simp only [createVMTx] at h
  cases hfound : inp.idempotencyKey.bind (r.operationByKey inp.owner .vmCreate) with
  | some op =>
    obtain ⟨k, hkey, hlook⟩ := Option.bind_eq_some_iff.1 hfound
    by_cases hhash : op.requestHash = inp.requestHash
    · simp only [hfound, hhash, ne_eq, not_true_eq_false, if_false] at h
      cases h
      exact .replay hkey hlook hhash
    · simp [hfound, hhash] at h
  | none =>
    simp only [hfound, decideVM] at h
    cases htotals : reservationTotals r.vms with
    | none => simp [htotals] at h
    | some totals =>
      cases hadmission : admission totals with
      | failed => simp [htotals, hadmission] at h
      | refused refusal =>
        simp only [htotals, hadmission, bind_ok_iff] at h
        obtain ⟨⟨op, r₁⟩, hopen, h⟩ := h
        cases h
        have hadds := (adds_openOperation hopen).trans (adds_announce op)
        obtain ⟨hop, hfree, rfl⟩ := openOperation_ok hopen
        exact .refused hop hfree rfl rfl hadds
      | granted =>
        simp only [htotals, hadmission, bind_ok_iff] at h
        obtain ⟨⟨op, r₁⟩, hins, h⟩ := h
        cases h
        obtain ⟨hop, hops, hmembers, hfree, hadds⟩ := insertAdmitted_ok hins
        exact .created htotals hadmission hop hfree hops hmembers hadds

/-- How the transaction of a batch ends. -/
inductive CreateBatchCase (r : Registry) (inp : CreateVMBatchInput) (admission : BatchAdmission) :
    CreateBatchReply → Registry → Prop
  | replay {b : Batch} {k : Bytes} (hkey : inp.idempotencyKey = some k)
      (hfound : r.batchByKey inp.owner k = some b) (hhash : b.requestHash = inp.requestHash) :
      CreateBatchCase r inp admission (.replay b.batchID) r
  | created {decision : Nat → List VMRow → NewVM → Option Admission} {reply : MembersReply}
      {r₁ r' : Registry} {op : Operation} {out : BatchOutcome}
      (hdecides : Decides admission r.vms inp.reservationMode decision)
      (hprocess : processMembers (r.batches.length + 1) inp.owner decision 0 inp.members
        (r.addBatch inp) = .ok (reply, r₁))
      (hrows : out.rows = reply.rows)
      (hopen : r₁.openOperation (batchOperation inp out) = .ok (op, r'))
      (hfree : ∀ k, inp.idempotencyKey = some k → r.batchByKey inp.owner k = none) :
      CreateBatchCase r inp admission (.created (r.batches.length + 1) op reply.rows)
        ((r'.linkBatch (r.batches.length + 1) op.operationID).announce op)

lemma createVMBatchTx_ok {admission : BatchAdmission} {reply : CreateBatchReply}
    (h : r.createVMBatchTx inp admission = .ok (reply, r')) :
    CreateBatchCase r inp admission reply r' := by
  simp only [createVMBatchTx] at h
  cases hfound : inp.idempotencyKey.bind (r.batchByKey inp.owner) with
  | some b =>
    obtain ⟨k, hkey, hlook⟩ := Option.bind_eq_some_iff.1 hfound
    by_cases hhash : b.requestHash = inp.requestHash
    · simp only [hfound, hhash, ne_eq, not_true_eq_false, if_false] at h
      cases h
      exact .replay hkey hlook hhash
    · simp [hfound, hhash] at h
  | none =>
    simp only [hfound, decideBatch, bind_ok_iff] at h
    obtain ⟨⟨out, r₁⟩, hprocess, ⟨op, r₂⟩, hopen, h⟩ := h
    cases h
    obtain ⟨decision, mreply, hdecides, hmembers, hrows⟩ := processBatch_members hprocess
    rw [hrows]
    refine .created hdecides hmembers hrows hopen fun k hkey => ?_
    simpa [hkey] using hfound

lemma wf_addBatch (hr : r.Wf)
    (hfree : ∀ k, inp.idempotencyKey = some k → r.batchByKey inp.owner k = none) :
    (r.addBatch inp).Wf := by
  have htaken : taken Batch.key (r.newBatch inp none) r.batches = false := by
    cases hkey : inp.idempotencyKey with
    | none => simp [taken, Batch.key, newBatch, hkey]
    | some k =>
      have hnone := hfree k hkey
      simp only [batchByKey] at hnone
      simp [taken, Batch.key, newBatch, hkey, hnone]
  refine { hr with
    batchIDs := numbered_append hr.batchIDs rfl
    batchKeys := unique_append hr.batchKeys htaken
    members := fun m hm => ?_ }
  have hle := hr.members m hm
  simp only [addBatch, length_append, length_singleton]
  omega

lemma wf_linkBatch (hr : r.Wf) (operationID : Nat) : (r.linkBatch batchID operationID).Wf := by
  have hids : (r.linkBatch batchID operationID).batches.map Batch.batchID =
      r.batches.map Batch.batchID := keys_modify fun _ => rfl
  have hkeys : (r.linkBatch batchID operationID).batches.filterMap Batch.key =
      r.batches.filterMap Batch.key := by
    rw [linkBatch, Table.modify, filterMap_map]
    refine filterMap_congr fun b _ => ?_
    by_cases hb : b.batchID = batchID <;> simp [hb, Batch.key, Batch.link]
  have hlength : (r.linkBatch batchID operationID).batches.length = r.batches.length := by
    simpa using congrArg List.length hids
  exact { hr with
    batchIDs := by rw [hids, hlength, hr.batchIDs]
    batchKeys := hkeys ▸ hr.batchKeys
    members := fun m hm => hlength ▸ hr.members m hm }

lemma link_addBatch (hr : r.Wf) (operationID : Nat) :
    modify Batch.batchID (r.batches.length + 1) (Batch.link operationID)
      (r.batches ++ [r.newBatch inp none]) = r.batches ++ [r.newBatch inp (some operationID)] := by
  have hold : modify Batch.batchID (r.batches.length + 1) (Batch.link operationID) r.batches =
      r.batches := by
    refine modify_of_ne fun b hb heq => ?_
    have hmem : b.batchID ∈ r.batches.map Batch.batchID := mem_map_of_mem hb
    rw [hr.batchIDs, mem_range'_1] at hmem
    omega
  rw [Table.modify] at hold
  rw [Table.modify, map_append, hold]
  simp [newBatch, Batch.link]

/-- What a batch adds when it is created with these members admitted. -/
structure AddsBatch (r : Registry) (inp : CreateVMBatchInput) (granted : List NewVM)
    (op : Operation) (mrows : List BatchMemberRow) (r' : Registry) : Prop where
  vms : r'.vms = r.vms ++ granted.map fun m => m.row inp.owner
  operations : ∃ ops, r'.operations = r.operations ++ ops ++ [op] ∧
    ∀ o ∈ ops, o.idempotencyKey = none
  kind : op.kind = .vmBatchCreate
  batches : r.Wf → r'.batches = r.batches ++ [r.newBatch inp (some op.operationID)]
  members : r'.members = r.members ++ mrows
  numbered : ∀ row ∈ mrows, row.batchID = r.batches.length + 1
  runs : r.runs <+: r'.runs
  events : ∃ evs, r'.events = r.events ++ evs ∧ ∀ e ∈ evs, e.aboutState = false
  wf : r.Wf → r'.Wf

lemma createBatch_adds {reply : MembersReply} {r₁ : Registry} {out : BatchOutcome}
    (hprocess : processMembers (r.batches.length + 1) inp.owner decision 0 inp.members
      (r.addBatch inp) = .ok (reply, r₁))
    (hopen : r₁.openOperation (batchOperation inp out) = .ok (op, r'))
    (hfree : ∀ k, inp.idempotencyKey = some k → r.batchByKey inp.owner k = none) :
    AddsBatch r inp (grantedMembers inp.owner decision 0 inp.members r.vms) op reply.rows
      ((r'.linkBatch (r.batches.length + 1) op.operationID).announce op) := by
  have hid : r.batches.length + 1 ≤ (r.addBatch inp).batches.length := by simp [addBatch]
  obtain ⟨hadds, hmembers, hrows, ops, hops, hkeys⟩ := processMembers_ok hid hprocess
  have hopened := adds_openOperation hopen
  obtain ⟨hop, -, rfl⟩ := openOperation_ok hopen
  obtain ⟨evs, hevs, hquiet⟩ := hadds.events
  refine ⟨hadds.vms, ⟨ops, ?_, hkeys⟩, by rw [hop]; rfl, fun hr => ?_,
    hmembers, hrows, hadds.runs, ⟨evs ++ [.operationStateChanged op], ?_, ?_⟩, fun hr => ?_⟩
  · exact congrArg (· ++ [op]) hops
  · show modify Batch.batchID _ (Batch.link _) r₁.batches = _
    rw [hadds.batches]
    exact link_addBatch hr _
  · show r₁.events ++ [_] = _
    rw [hevs, ← append_assoc]
    rfl
  · rintro e he
    rcases mem_append.1 he with he | he
    · exact hquiet e he
    · cases mem_singleton.1 he
      rfl
  · exact (adds_announce op).wf (wf_linkBatch (hopened.wf (hadds.wf (wf_addBatch hr hfree))) _)

inductive CreateRunCase (r : Registry) (inp : CreateRunInput) (runID : Bytes) :
    CreateRunReply → Registry → Prop
  | replay {run : RunRow} {k : Bytes} (hkey : inp.idempotencyKey = some k)
      (hfound : r.runByKey inp.owner k = some run) (hhash : run.requestHash = inp.requestHash) :
      CreateRunCase r inp runID (.replay run.runID) r
  | created {row : RunRow} {r' : Registry} (hins : r.insertRun inp runID = .ok (row, r')) :
      CreateRunCase r inp runID (.created row) r'

lemma createRunTx_ok {inp : CreateRunInput} {reply : CreateRunReply}
    (h : r.createRunTx inp runID = .ok (reply, r')) : CreateRunCase r inp runID reply r' := by
  simp only [createRunTx] at h
  cases hfound : inp.idempotencyKey.bind (r.runByKey inp.owner) with
  | some run =>
    obtain ⟨k, hkey, hlook⟩ := Option.bind_eq_some_iff.1 hfound
    by_cases hhash : run.requestHash = inp.requestHash
    · simp only [hfound, hhash, ne_eq, not_true_eq_false, if_false] at h
      cases h
      exact .replay hkey hlook hhash
    · simp [hfound, hhash] at h
  | none =>
    simp only [hfound, bind_ok_iff] at h
    obtain ⟨⟨row, r₁⟩, hins, h⟩ := h
    cases h
    exact .created hins

/-- What an accepted transition does: the row it found moves along an edge, and says so. -/
lemma transitionVMTx_ok {inp : TransitionInput} {reason : Bytes} {operationID : Nat}
    {admission : ReservationTotals → Admission} {vm : VM}
    (h : r.transitionVMTx inp reason operationID admission = .ok (vm, r')) :
    ∃ current, Store.getVM r.rows inp.vmID = some current ∧
      inp.Accepted current (r.affords admission) ∧ vm = inp.apply current ∧
      r' = { r with
        vms := modify VMRow.vmID inp.vmID (VMRow.move inp) r.vms
        events := r.events ++ transitionEvents inp reason operationID current } := by
  simp only [transitionVMTx] at h
  cases htransition : transitionVM r.rows inp (r.affords admission) with
  | error err => simp [htransition] at h
  | ok moved =>
    obtain ⟨vms, vm'⟩ := moved
    obtain ⟨current, hget, haccepted, hvm, -⟩ := transitionVM_ok htransition
    simp only [htransition, hget] at h
    cases h
    exact ⟨current, hget, haccepted, hvm, rfl⟩

end Observatory.Store.Registry
