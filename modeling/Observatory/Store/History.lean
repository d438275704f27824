/-
# Rows and their history

A VM's row is what its events say: replaying the changes of state in the order of the events
leads from `provisioning` to the state of the row, along the edges of the state machine, and the
revision counts them. Creations and transitions are taken in any order, whether they are
accepted, refused, or fail in the database.
-/
import Observatory.Store.Growth

namespace Observatory.Store.Registry

open Lib List Registry

/-! ## Calls that write -/

inductive Request where
  | createVM (inp : CreateVMInput) (admission : ReservationTotals → Admission)
  | createVMBatch (inp : CreateVMBatchInput) (admission : BatchAdmission)
  | createRun (inp : CreateRunInput) (runID : Bytes)
  | transitionVM (inp : TransitionInput) (reason : Bytes) (operationID : Nat)
      (admission : ReservationTotals → Admission)

/-- The tables a request leaves behind when its transaction goes through. -/
def Request.tx (r : Registry) : Request → Except StoreError (Unit × Registry)
  | createVM inp admission => (r.createVMTx inp admission).map fun p => ((), p.2)
  | createVMBatch inp admission => (r.createVMBatchTx inp admission).map fun p => ((), p.2)
  | createRun inp runID => (r.createRunTx inp runID).map fun p => ((), p.2)
  | transitionVM inp reason operationID admission =>
    (r.transitionVMTx inp reason operationID admission).map fun p => ((), p.2)

/-- A request, and whether the database fails while it is served. -/
abbrev Served := Request × Bool

def serve (r : Registry) (q : Served) : Except StoreError Unit × Registry :=
  r.transact q.2 (q.1.tx r)

/-- The registry as a machine: every request can be made, refused or not. -/
def step (r : Registry) (q : Served) : Option Registry := some (r.serve q).2

def Request.moves (v : Bytes) : Request → Bool
  | transitionVM inp .. => inp.vmID = v
  | _ => false

def moved (v : Bytes) (r : Registry) (q : Served) : Bool := q.1.moves v && (r.serve q).1.isOk

/-- How many transitions of the VM succeed in a run. -/
def movedIn (v : Bytes) : Registry → List Served → Nat
  | _, [] => 0
  | r, q :: qs => (if moved v r q then 1 else 0) + movedIn v (r.serve q).2 qs

/-! ## Events and their replay -/

/-- A change of state, as its event tells it. -/
structure Change where
  frm : VMState
  dest : VMState

def changeOf (v : Bytes) : RegistryEvent → Option Change
  | .vmStateChanged u frm dest .. => if u = v then some ⟨frm, dest⟩ else none
  | _ => none

/-- The changes of a VM's state, in the order of the events. -/
def changes (v : Bytes) (events : List RegistryEvent) : List Change := events.filterMap (changeOf v)

/-- Follow one change: it has to start where the last one ended, and be an edge. -/
def follow (s : VMState) (c : Change) : Option VMState :=
  if c.frm = s ∧ transitionAllowed c.frm c.dest then some c.dest else none

lemma changes_append (v : Bytes) (evs evs' : List RegistryEvent) :
    changes v (evs ++ evs') = changes v evs ++ changes v evs' :=
  filterMap_append

lemma changes_of_quiet {v : Bytes} {evs : List RegistryEvent}
    (h : ∀ e ∈ evs, e.aboutState = false) : changes v evs = [] := by
  refine filterMap_eq_nil_iff.2 fun e he => ?_
  have hquiet := h e he
  cases e <;> simp_all [changeOf, RegistryEvent.aboutState]

lemma changes_transitionEvents (v : Bytes) (inp : TransitionInput) (reason : Bytes)
    (operationID : Nat) (vm : VM) :
    changes v (transitionEvents inp reason operationID vm) =
      if inp.vmID = v then [⟨vm.observedState, inp.dest⟩] else [] := by
  by_cases hv : inp.vmID = v <;> by_cases hd : inp.dest = .deleted <;>
    simp [changes, transitionEvents, changeOf, hv, hd]

/-! ## What a request does -/

variable {r r' : Registry} {q : Served} {v : Bytes} {row : VMRow}

/-- What serving a request comes to. -/
inductive ServeCase (r : Registry) (q : Served) : Registry → Prop
  /-- Refused or failed: nothing is written. -/
  | rolledBack (h : (r.serve q).1.isOk = false) : ServeCase r q r
  /-- A creation: rows are added and no state changes. -/
  | added {r' : Registry} {rows : List VMRow} (hmoves : ∀ v, q.1.moves v = false)
      (hvms : r'.vms = r.vms ++ rows) (hnew : ∀ row ∈ rows, row.vm = VM.new row.vmID)
      (hquiet : ∃ evs, r'.events = r.events ++ evs ∧ ∀ e ∈ evs, e.aboutState = false)
      (hwf : r.Wf → r'.Wf) : ServeCase r q r'
  /-- An accepted transition. -/
  | moved {r' : Registry} {inp : TransitionInput} {reason : Bytes} {operationID : Nat} {vm : VM}
      {admitted : Bool} (hmoves : ∀ v, q.1.moves v = decide (inp.vmID = v))
      (hok : (r.serve q).1.isOk = true) (hget : Store.getVM r.rows inp.vmID = some vm)
      (haccepted : inp.Accepted vm admitted)
      (hvms : r'.vms = Table.modify VMRow.vmID inp.vmID (VMRow.move inp) r.vms)
      (hevents : r'.events = r.events ++ transitionEvents inp reason operationID vm)
      (hwf : r.Wf → r'.Wf) : ServeCase r q r'

lemma serve_ok {q : Served} (h : q.1.tx r = .ok ((), r')) (hfault : q.2 = false) :
    r.serve q = (.ok (), r') := by
  simp [serve, transact, h, hfault]

lemma of_map_ok {α : Type} {x : Except StoreError (α × Registry)}
    (h : (x.map fun p => ((), p.2)) = .ok ((), r')) : ∃ reply, x = .ok (reply, r') := by
  rcases x with err | ⟨reply, r₁⟩
  · cases h
  · exact ⟨reply, congrArg (fun r => Except.ok (reply, r)) (congrArg Prod.snd (Except.ok.inj h))⟩

lemma move_vmID (inp : TransitionInput) (row : VMRow) : (VMRow.move inp row).vmID = row.vmID := rfl

lemma keys_move (inp : TransitionInput) (vms : List VMRow) :
    (Table.modify VMRow.vmID inp.vmID (VMRow.move inp) vms).map VMRow.vmID =
      vms.map VMRow.vmID :=
  Table.keys_modify (move_vmID inp)

lemma find_move (v : Bytes) (inp : TransitionInput) (vms : List VMRow) :
    Table.find VMRow.vmID v (Table.modify VMRow.vmID inp.vmID (VMRow.move inp) vms) =
      if v = inp.vmID then (Table.find VMRow.vmID v vms).map (VMRow.move inp)
      else Table.find VMRow.vmID v vms :=
  Table.find_modify (move_vmID inp) v inp.vmID vms

/-- Every request ends in one of the three ways. -/
lemma serveCase (r : Registry) (q : Served) : ServeCase r q (r.serve q).2 := by
  obtain ⟨req, fault⟩ := q
  cases fault with
  | true => exact .rolledBack rfl
  | false =>
    cases htx : req.tx r with
    | error err =>
      have hserve : r.serve (req, false) = (.error err, r) := by simp [serve, transact, htx]
      rw [hserve]
      exact .rolledBack (by rw [hserve]; rfl)
    | ok p =>
      obtain ⟨⟨⟩, r'⟩ := p
      have hserve : r.serve (req, false) = (.ok (), r') := serve_ok htx rfl
      rw [hserve]
      have hok : (r.serve (req, false)).1.isOk = true := by rw [hserve]; rfl
      cases req with
      | createVM inp admission =>
        obtain ⟨reply, h⟩ := of_map_ok htx
        cases createVMTx_ok h with
        | replay => exact .added (fun _ => rfl) (append_nil _).symm (by simp) ⟨[], by simp⟩ id
        | refused _ _ _ _ hadds | created _ _ _ _ _ _ hadds =>
          exact .added (fun _ => rfl) hadds.vms hadds.new hadds.events hadds.wf
      | createVMBatch inp admission =>
        obtain ⟨reply, h⟩ := of_map_ok htx
        cases createVMBatchTx_ok h with
        | replay => exact .added (fun _ => rfl) (append_nil _).symm (by simp) ⟨[], by simp⟩ id
        | created _ hprocess _ hopen hfree =>
          have hadds := createBatch_adds hprocess hopen hfree
          refine .added (fun _ => rfl) hadds.vms (fun row hrow => ?_) hadds.events hadds.wf
          obtain ⟨m, -, rfl⟩ := mem_map.1 hrow
          rfl
      | createRun inp runID =>
        obtain ⟨reply, h⟩ := of_map_ok htx
        cases createRunTx_ok h with
        | replay => exact .added (fun _ => rfl) (append_nil _).symm (by simp) ⟨[], by simp⟩ id
        | created hins =>
          have hadds := adds_insertRun hins
          exact .added (fun _ => rfl) hadds.vms hadds.new hadds.events hadds.wf
      | transitionVM inp reason operationID admission =>
        obtain ⟨vm, h⟩ := of_map_ok htx
        obtain ⟨current, hget, haccepted, -, rfl⟩ := transitionVMTx_ok h
        refine .moved (fun _ => rfl) hok hget haccepted rfl rfl fun hr => ?_
        exact { hr with vmIDs := (keys_move inp r.vms).symm ▸ hr.vmIDs }

/-! ## Rows tell their history -/

lemma getVM_rows (r : Registry) (v : Bytes) :
    Store.getVM r.rows v = (r.getVM v).map VMRow.vm := by
  simp only [Store.getVM, getVM, rows, Table.find, List.find?_map]
  rfl

/-- What a request does to the row of a VM: nothing, or one step along an edge with the next
revision, when it is a transition of the VM that succeeds. -/
inductive RowCase (r : Registry) (q : Served) (v : Bytes) (row : VMRow) (r' : Registry) : Prop
  | still (hrow : r'.getVM v = some row) (hmoved : moved v r q = false)
      (hchanges : changes v r'.events = changes v r.events)
  | moved (dest : VMState) (row' : VMRow) (hrow : r'.getVM v = some row')
      (hedge : transitionAllowed row.vm.observedState dest = true)
      (hstate : row'.vm.observedState = dest) (hrev : row'.vm.revision = row.vm.revision + 1)
      (hmoved : moved v r q = true)
      (hchanges : changes v r'.events = changes v r.events ++ [⟨row.vm.observedState, dest⟩])

lemma rowCase (hrow : r.getVM v = some row) (q : Served) : RowCase r q v row (r.serve q).2 := by
  have hcase := serveCase r q
  generalize (r.serve q).2 = r' at hcase ⊢
  cases hcase with
  | rolledBack h => exact .still hrow (by simp [moved, h]) rfl
  | added hmoves hvms hnew hquiet hwf =>
    obtain ⟨evs, hevs, hquiet⟩ := hquiet
    refine .still ?_ (by simp [moved, hmoves v]) ?_
    · simp only [getVM, Table.find] at hrow
      simp [getVM, Table.find, hvms, List.find?_append, hrow]
    · rw [hevs, changes_append, changes_of_quiet hquiet, append_nil]
  | @moved _ inp reason operationID vm admitted hmoves hok hget haccepted hvms hevents hwf =>
    by_cases hv : inp.vmID = v
    · subst hv
      obtain rfl : row.vm = vm := by simpa [getVM_rows, hrow] using hget
      refine .moved inp.dest (VMRow.move inp row) ?_ haccepted.edge rfl rfl
        (by simp [moved, hmoves, hok]) ?_
      · rw [getVM] at hrow
        rw [getVM, hvms, find_move, if_pos rfl, hrow, Option.map_some]
      · rw [hevents, changes_append, changes_transitionEvents, if_pos rfl]
    · refine .still ?_ (by simp [moved, hmoves, hv]) ?_
      · rw [getVM, hvms, find_move, if_neg (Ne.symm hv)]
        exact hrow
      · rw [hevents, changes_append, changes_transitionEvents, if_neg hv, append_nil]

/-- The row of a VM that has none, after a request: still none, or the row of a new VM. Nothing
is told of its state either way. -/
lemma new_of_absent (habsent : r.getVM v = none) (q : Served) :
    (∀ row, (r.serve q).2.getVM v = some row → row.vm = VM.new v) ∧
      changes v (r.serve q).2.events = changes v r.events ∧ moved v r q = false := by
  have hcase := serveCase r q
  generalize (r.serve q).2 = r' at hcase ⊢
  cases hcase with
  | rolledBack h => exact ⟨by simp [habsent], rfl, by simp [moved, h]⟩
  | added hmoves hvms hnew hquiet hwf =>
    obtain ⟨evs, hevs, hquiet⟩ := hquiet
    refine ⟨fun row hrow => ?_, ?_, by simp [moved, hmoves v]⟩
    · simp only [getVM, Table.find] at habsent hrow
      rw [hvms, List.find?_append, habsent, Option.none_or] at hrow
      obtain ⟨hmem, rfl⟩ := Table.mem_of_find hrow
      exact hnew row hmem
    · rw [hevs, changes_append, changes_of_quiet hquiet, append_nil]
  | @moved _ inp reason operationID vm admitted hmoves hok hget haccepted hvms hevents hwf =>
    have hv : inp.vmID ≠ v := by
      rintro rfl
      simp [getVM_rows, habsent] at hget
    refine ⟨fun row hrow => ?_, ?_, by simp [moved, hmoves, hv]⟩
    · rw [getVM] at habsent
      rw [getVM, hvms, find_move, if_neg (Ne.symm hv), habsent] at hrow
      cases hrow
    · rw [hevents, changes_append, changes_transitionEvents, if_neg hv, append_nil]

/-- The events tell what the rows are: nothing of a VM without a row, and of every other VM an
unbroken chain of edges from `provisioning` to its state, as long as its revision says. -/
structure Tells (r : Registry) : Prop where
  absent : ∀ v, r.getVM v = none → changes v r.events = []
  chain : ∀ v row, r.getVM v = some row →
    run follow .provisioning (changes v r.events) = some row.vm.observedState
  revision : ∀ v row, r.getVM v = some row →
    row.vm.revision = (VM.new v).revision + (changes v r.events).length

lemma tells_empty : empty.Tells :=
  ⟨fun _ _ => rfl, fun _ _ h => (nomatch h), fun _ _ h => (nomatch h)⟩

/-- One more edge at the end of a chain. -/
lemma follow_append {cs : List Change} {s dest : VMState}
    (h : run follow .provisioning cs = some s) (hedge : transitionAllowed s dest = true) :
    run follow .provisioning (cs ++ [⟨s, dest⟩]) = some dest := by
  rw [run_append_eq_some]
  exact ⟨s, h, by simp [run, follow, hedge]⟩

lemma Tells.serve (h : r.Tells) (q : Served) : (r.serve q).2.Tells := by
  refine ⟨fun v hnone => ?_, fun v row' hrow' => ?_, fun v row' hrow' => ?_⟩ <;>
    rcases hrow : r.getVM v with - | row
  · rw [(new_of_absent hrow q).2.1, h.absent v hrow]
  · cases rowCase hrow q with
    | still hsame | moved _ _ hsame => simp [hsame] at hnone
  · obtain ⟨hnew, hchanges, -⟩ := new_of_absent hrow q
    rw [hchanges, h.absent v hrow, hnew row' hrow']
    rfl
  · cases rowCase hrow q with
    | still hsame _ hchanges =>
      obtain rfl : row = row' := Option.some.inj (hsame.symm.trans hrow')
      rw [hchanges, h.chain v row hrow]
    | moved dest row'' hsame hedge hstate _ _ hchanges =>
      obtain rfl : row'' = row' := Option.some.inj (hsame.symm.trans hrow')
      rw [hchanges, follow_append (h.chain v row hrow) hedge, hstate]
  · obtain ⟨hnew, hchanges, -⟩ := new_of_absent hrow q
    rw [hchanges, h.absent v hrow, hnew row' hrow']
    rfl
  · cases rowCase hrow q with
    | still hsame _ hchanges =>
      obtain rfl : row = row' := Option.some.inj (hsame.symm.trans hrow')
      rw [hchanges, h.revision v row hrow]
    | moved dest row'' hsame hedge hstate hrev _ hchanges =>
      obtain rfl : row'' = row' := Option.some.inj (hsame.symm.trans hrow')
      rw [hrev, hchanges, h.revision v row hrow, length_append, length_singleton]
      push_cast
      ring

lemma tells_run {qs : List Served} (hrun : run step empty qs = some r) : r.Tells :=
  run_preserves (fun _ q _ h hstep => Option.some.inj hstep ▸ h.serve q) tells_empty hrun

/-! ## Counting the transitions -/

/-- A request tells of one more change of a VM exactly when it moves it. -/
lemma length_changes_serve (v : Bytes) (r : Registry) (q : Served) :
    (changes v (r.serve q).2.events).length =
      (changes v r.events).length + if moved v r q then 1 else 0 := by
  rcases hrow : r.getVM v with - | row
  · obtain ⟨-, hchanges, hmoved⟩ := new_of_absent hrow q
    simp [hchanges, hmoved]
  · cases rowCase hrow q with
    | still _ hmoved hchanges | moved _ _ _ _ _ _ hmoved hchanges => simp [hchanges, hmoved]

lemma length_changes_run (v : Bytes) {qs : List Served} (hrun : run step r qs = some r') :
    (changes v r'.events).length = (changes v r.events).length + movedIn v r qs := by
  induction qs generalizing r with
  | nil =>
    obtain rfl : r = r' := Option.some.inj hrun
    rfl
  | cons q qs ih =>
    obtain ⟨r₁, hstep, hrest⟩ := run_cons_eq_some.1 hrun
    cases hstep
    rw [ih hrest, length_changes_serve, movedIn, Nat.add_assoc]

/-! ## The row is the fold of its history -/

lemma deleted_run {qs : List Served} (hrow : r.getVM v = some row)
    (hdeleted : row.vm.observedState = .deleted) (hrun : run step r qs = some r') :
    r'.getVM v = some row := by
  refine run_preserves (I := fun r => r.getVM v = some row) (fun r₁ q r₂ h hstep => ?_) hrow hrun
  cases hstep
  cases rowCase h q with
  | still hsame => exact hsame
  | moved dest _ _ hedge =>
    rw [hdeleted] at hedge
    cases dest <;> simp [transitionAllowed, validTransitions] at hedge

/-- A transition that is refused, or fails, writes nothing. -/
lemma serve_refused (r : Registry) (q : Served) (h : (r.serve q).1.isOk = false) :
    (r.serve q).2 = r := by
  simp only [serve, transact] at h ⊢
  split_ifs with hfault
  · rfl
  · rw [if_neg hfault] at h
    cases htx : q.1.tx r with
    | error err => rfl
    | ok p => simp [htx, Except.isOk, Except.toBool] at h

/-- **A VM's row is the fold of its history.**  After any requests, refused or not: the events of
the VM's state form an unbroken chain of edges from `provisioning` to the state of its row; its
revision is the first one plus the transitions that succeeded; the next request leaves the state
or moves it along an edge; a deleted VM stays deleted; and a transition that does not succeed
leaves rows and events alone. -/
theorem row_is_fold_of_history {qs : List Served} {r : Registry}
    (hrun : run step Registry.empty qs = some r) {v : Bytes} {row : VMRow}
    (hrow : r.getVM v = some row) :
    run follow .provisioning (changes v r.events) = some row.vm.observedState ∧
      row.vm.revision = (VM.new v).revision + movedIn v Registry.empty qs ∧
      (∀ q, ∃ row', (r.serve q).2.getVM v = some row' ∧
        (row'.vm.observedState = row.vm.observedState ∨
          transitionAllowed row.vm.observedState row'.vm.observedState = true)) ∧
      (row.vm.observedState = .deleted →
        ∀ qs' r', run step r qs' = some r' → r'.getVM v = some row) ∧
      ∀ inp reason operationID admission fault,
        (r.serve (.transitionVM inp reason operationID admission, fault)).1.isOk = false →
        (r.serve (.transitionVM inp reason operationID admission, fault)).2 = r := by
  have htells := tells_run hrun
  refine ⟨htells.chain v row hrow, ?_, fun q => ?_, fun hdeleted qs' r' hrun' => ?_,
    fun inp reason operationID admission fault => serve_refused r _⟩
  · have hcount : (changes v r.events).length = movedIn v empty qs := by
      simpa [changes, empty] using length_changes_run v hrun
    rw [htells.revision v row hrow, hcount]
  · cases rowCase hrow q with
    | still hsame => exact ⟨row, hsame, .inl rfl⟩
    | moved dest row' hrow' hedge hstate => exact ⟨row', hrow', .inr (hstate ▸ hedge)⟩
  · exact deleted_run hrow hdeleted hrun'

/-! ## The tables as a whole -/

lemma wf_serve (h : r.Wf) (q : Served) : (r.serve q).2.Wf := by
  have hcase := serveCase r q
  generalize (r.serve q).2 = r' at hcase ⊢
  cases hcase with
  | rolledBack => exact h
  | added _ _ _ _ hwf | moved _ _ _ _ _ _ hwf => exact hwf h

/-- Nothing that was ever told or created is forgotten. -/
def Grows (r r' : Registry) : Prop :=
  r.vms.map VMRow.vmID <+: r'.vms.map VMRow.vmID ∧ r.events <+: r'.events

def demoSpec : VMSpec where
  name := ascii "vm"
  templateID := ascii "base"
  templateDigest := ascii "d0"
  vcpuCount := 1
  memoryMiB := 512
  rootDiskMiB := 1024
  workspaceDiskMiB := 1024
  networkProfile := ascii "none"
  networkPolicyID := ascii "p0"
  labels := ascii "\x7b\x7d"

def demoNewVM : NewVM where
  vmID := ascii "v1"
  spec := demoSpec
  memoryTotalMiB := 640
  run := none
  newRunID := []

def demoCreate : CreateVMInput where
  owner := ascii "op"
  vm := demoNewVM
  idempotencyKey := some (ascii "k1")
  requestHash := ascii "h1"

/-- A VM is created and starts; deleting it at once is refused; it fails. -/
def demoLife : List Served :=
  [(.createVM demoCreate fun _ => .granted, false),
    (.transitionVM { vmID := ascii "v1", dest := .starting } [] 1 fun _ => .granted, false),
    (.transitionVM { vmID := ascii "v1", dest := .deleted } [] 1 fun _ => .granted, false),
    (.transitionVM { vmID := ascii "v1", dest := .failed } [] 1 fun _ => .granted, false)]

theorem row_is_fold_of_history_demoLife : ∃ r row,
    run step Registry.empty demoLife = some r ∧ r.getVM (ascii "v1") = some row ∧
      row.vm.revision = 3 ∧
      run follow .provisioning (changes (ascii "v1") r.events) = some row.vm.observedState ∧
      row.vm.revision = (VM.new (ascii "v1")).revision +
        movedIn (ascii "v1") Registry.empty demoLife := by
  obtain ⟨r, hrun, row, hrow, hrev⟩ : ∃ r, run step empty demoLife = some r ∧
      ∃ row, r.getVM (ascii "v1") = some row ∧ row.vm.revision = 3 := by decide +kernel
  have hfold := row_is_fold_of_history hrun hrow
  exact ⟨r, row, hrun, hrow, hrev, hfold.1, hfold.2.1⟩

end Observatory.Store.Registry
