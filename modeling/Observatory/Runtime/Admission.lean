/-
# Admission keeps within the host

Creations, starts, stops and deletions of VMs against one registry, with the decisions of the
admission policy. After each admission the memory that is held is to be within the usable memory,
and the disk within the capacity the admission was decided on, in exact sums. The policy adds in
64 bits, so this holds as long as the sums it forms fit; one that does not is admitted by its
wrapped value.
-/
import Mathlib.Algebra.Order.BigOperators.Group.List
import Observatory.Runtime.Requests

namespace Observatory.Runtime.Requests

open Lib Store Store.Registry List

/-! ## What is held -/

def heldMemory (row : VMRow) : Int :=
  if row.vm.released || row.vm.computeReleased then 0 else row.reservation.memoryTotalMiB

def heldDisk (row : VMRow) : Int := if row.vm.released then 0 else row.reservation.diskMiB

def memoryHeld (vms : List VMRow) : Int := (vms.map heldMemory).sum

/-- The disk of the reservations that are not released. -/
def diskHeld (vms : List VMRow) : Int := (vms.map heldDisk).sum

/-! ## The manager's steps -/

namespace Manager

variable (m : Manager)

/-- A call of the manager, with the identifiers it draws and the disk as it is measured. -/
inductive Action where
  | createVM (owner : Bytes) (req : CreateRequest) (vmID newRunID : Bytes) (probe : DiskProbe)
  | createBatch (owner : Bytes) (req : CreateBatchRequest) (ids : Nat → Bytes × Bytes)
      (probe : Nat → DiskProbe)
  | start (vmID : Bytes) (expectedRevision : Option Int) (operationID bootID : Nat)
      (probe : DiskProbe)
  /-- Any other transition: none of them takes compute back. -/
  | transition (inp : TransitionInput) (reason : Bytes) (operationID : Nat)

/-- The disk as the decisions of a call see it. -/
def Action.probe : Action → Nat → DiskProbe
  | createVM _ _ _ _ probe | start _ _ _ _ probe => fun _ => probe
  | createBatch _ _ _ probe => probe
  | transition .. => fun _ => .error []

def startInput (vmID : Bytes) (expectedRevision : Option Int) (bootID : Nat) : TransitionInput where
  vmID := vmID
  expectedRevision := expectedRevision
  dest := .starting
  desiredState := some .running
  acquireCompute := true
  bootID := some bootID

/-- The transition of a start: the VM has to be stopped, and its reservation is asked for again. -/
def startRequest (r : Registry) (vmID : Bytes) (expectedRevision : Option Int)
    (operationID bootID : Nat) (probe : DiskProbe) : Except RequestError Request :=
  match r.getVM vmID with
  | none => .error (.store (.vm .vmUnknown))
  | some row =>
    if row.vm.observedState ≠ .stopped then
      .error (.store (.vm (.invalidTransition row.vm.observedState .starting)))
    else
      .ok (.transitionVM (startInput vmID expectedRevision bootID) (ascii "start") operationID
        (m.admitStart probe row.reservation))

/-- What the store is asked for, once the checks of the manager are passed. -/
def request (r : Registry) : Action → Except RequestError Request
  | .createVM owner req vmID newRunID probe => do
    let inp ← m.createVMInput owner req vmID newRunID
    pure (.createVM inp (m.admitVM probe inp.vm))
  | .createBatch owner req ids probe => do
    let inp ← m.createBatchInput owner req ids
    pure (.createVMBatch inp (m.admitBatch probe inp.members))
  | .start vmID expectedRevision operationID bootID probe =>
    m.startRequest r vmID expectedRevision operationID bootID probe
  | .transition inp reason operationID =>
    .ok (.transitionVM { inp with acquireCompute := false } reason operationID fun _ => .failed)

/-- A call, which the database may fail, or the release of what a failed VM still holds. -/
inductive Step where
  | call (a : Action) (fault : Bool)
  | release (vmID : Bytes)

def releaseRow (row : VMRow) : VMRow :=
  if row.vm.observedState = .failed then
    { row with vm := { row.vm with computeReleased := true, released := true } }
  else row

def serve (r : Registry) : Step → Registry
  | .call a fault =>
    match m.request r a with
    | .error _ => r
    | .ok q => (r.serve (q, fault)).2
  | .release vmID => { r with vms := Table.modify VMRow.vmID vmID releaseRow r.vms }

def step (r : Registry) (s : Step) : Option Registry := some (m.serve r s)

/-! ## Admissions -/

/-- One admission: the rows it was decided on, the rows it left, and the disk as it was seen. -/
structure Grant where
  before : List VMRow
  after : List VMRow
  probe : DiskProbe

def memberGrants (admission : BatchAdmission) (owner : Bytes) (probe : Nat → DiskProbe) :
    Nat → List NewVM → List VMRow → List Grant
  | _, [], _ => []
  | i, vm :: vms, rows =>
    if memberDecision admission i rows vm = some .granted then
      ⟨rows, rows ++ [vm.row owner], probe i⟩ ::
        memberGrants admission owner probe (i + 1) vms (rows ++ [vm.row owner])
    else memberGrants admission owner probe (i + 1) vms rows

def batchGrants (r r' : Registry) (inp : CreateVMBatchInput) (admission : BatchAdmission)
    (probe : Nat → DiskProbe) : List Grant :=
  match inp.reservationMode with
  | .atomicReservation =>
    if r.affords admission.batch then [⟨r.vms, r'.vms, probe 0⟩] else []
  | .bestEffort => memberGrants admission inp.owner probe 0 inp.members r.vms

/-- The admissions a transaction makes. -/
def grants (r : Registry) (probe : Nat → DiskProbe) : Request → List Grant
  | .createVM inp admission =>
    match r.createVMTx inp admission with
    | .ok (.created _ _, r') => [⟨r.vms, r'.vms, probe 0⟩]
    | _ => []
  | .createVMBatch inp admission =>
    match r.createVMBatchTx inp admission with
    | .ok (.created _ _ _, r') => batchGrants r r' inp admission probe
    | _ => []
  | .transitionVM inp reason operationID admission =>
    match r.transitionVMTx inp reason operationID admission with
    | .ok (_, r') => if inp.acquireCompute then [⟨r.vms, r'.vms, probe 0⟩] else []
    | _ => []
  | .createRun _ _ => []

def admissions (r : Registry) : Step → List Grant
  | .call a _ =>
    match m.request r a with
    | .error _ => []
    | .ok q => grants r a.probe q
  | .release _ => []

def capacity (g : Grant) : Option Int :=
  (reservationTotals g.before).bind fun totals => (m.policy.diskCapacity g.probe totals).toOption

def Within (g : Grant) : Prop :=
  memoryHeld g.after ≤ m.policy.usableMemoryMiB ∧
    ∃ cap, m.capacity g = some cap ∧ diskHeld g.after ≤ cap

/-! ## Sums that fit -/

/-- A size that 64 bits hold. -/
def fits64 (n : Int) : Bool := decide (0 ≤ n ∧ n < 2 ^ 63)

def memoryOf (spec : VMSpec) : Int :=
  spec.memoryMiB + m.policy.admission.reservePerVMHostOverheadMiB

def diskOf (spec : VMSpec) : Int := spec.rootDiskMiB + spec.workspaceDiskMiB

def fitsNew (r : Registry) (specs : List VMSpec) : Bool :=
  specs.all (fun spec => fits64 (m.memoryOf spec) && fits64 (diskOf spec)) &&
    fits64 (memoryHeld r.vms + (specs.map m.memoryOf).sum) &&
    fits64 (diskHeld r.vms + (specs.map diskOf).sum)

def fitsStart (r : Registry) (vmID : Bytes) : Bool :=
  (r.getVM vmID).all fun row => fits64 (memoryHeld r.vms + row.reservation.memoryTotalMiB)

/-- The sums that deciding a step forms all fit. -/
def fits (r : Registry) : Step → Bool
  | .call a _ =>
    match m.request r a with
    | .ok (.createVM inp _) => m.fitsNew r [inp.vm.spec]
    | .ok (.createVMBatch inp _) => m.fitsNew r (inp.members.map NewVM.spec)
    | .ok (.transitionVM inp ..) => !inp.acquireCompute || fitsStart r inp.vmID
    | _ => true
  | .release _ => true

abbrev Fits (r : Registry) (s : Step) : Prop := m.fits r s = true

end Manager

/-! ## Exact sums -/

lemma wrap64_of_fits {n : Int} (h : Manager.fits64 n = true) : wrap64 n = n := by
  have hn := of_decide_eq_true h
  rw [wrap64]
  omega

variable {acc : Int} {ns : List Int} {totals : ReservationTotals}

lemma sumColumn_eq {t : Int} (h : sumColumn acc ns = some t) :
    t = acc + ns.sum := by
  induction ns generalizing acc with
  | nil => simpa [sumColumn, eq_comm] using h
  | cons n ns ih =>
    rw [sumColumn] at h
    split_ifs at h
    rw [ih h, sum_cons, add_assoc]

lemma sum_computeColumn (vms : List VMRow) :
    (computeColumn Reservation.memoryTotalMiB vms).sum = memoryHeld vms := by
  induction vms with
  | nil => rfl
  | cons row vms ih =>
    simp only [computeColumn, heldRows, memoryHeld] at ih ⊢
    by_cases hreleased : row.vm.released = true <;>
      by_cases hcompute : row.vm.computeReleased = true <;>
      simp [heldMemory, hreleased, hcompute, ih]

lemma sum_diskColumn (vms : List VMRow) : (diskColumn vms).sum = diskHeld vms := by
  induction vms with
  | nil => rfl
  | cons row vms ih =>
    simp only [diskColumn, heldRows, diskHeld] at ih ⊢
    by_cases hreleased : row.vm.released = true <;> simp [heldDisk, hreleased, ih]

/-- The totals admission sees are exact: the database does not wrap, it fails. -/
lemma totals_exact {vms : List VMRow} (h : reservationTotals vms = some totals) :
    totals.memoryMiB = memoryHeld vms ∧ totals.diskMiB = diskHeld vms := by
  simp only [reservationTotals, Option.bind_eq_bind, Option.bind_eq_some_iff] at h
  obtain ⟨mem, hmem, vcpu, -, disk, hdisk, heq⟩ := h
  cases heq
  exact ⟨by rw [sumColumn_eq hmem, sum_computeColumn, zero_add],
    by rw [sumColumn_eq hdisk, sum_diskColumn, zero_add]⟩

lemma sumColumn_le {t : Int} (hacc : acc ≤ int64Max) (h : sumColumn acc ns = some t) :
    t ≤ int64Max := by
  induction ns generalizing acc with
  | nil => exact Option.some.inj h ▸ hacc
  | cons n ns ih =>
    rw [sumColumn] at h
    split_ifs at h with hrange
    exact ih hrange.2 h

lemma diskHeld_lt {vms : List VMRow} (h : reservationTotals vms = some totals) :
    diskHeld vms < 2 ^ 63 := by
  rw [← (totals_exact h).2]
  simp only [reservationTotals, Option.bind_eq_bind, Option.bind_eq_some_iff] at h
  obtain ⟨mem, -, vcpu, -, disk, hdisk, heq⟩ := h
  cases heq
  have hle := sumColumn_le (by decide) hdisk
  rw [int64Max] at hle
  show disk < 2 ^ 63
  omega

lemma admits_granted_iff {p : Policy} {probe : DiskProbe} {mem vcpu disk : Int} :
    p.admits probe totals mem vcpu disk = .granted ↔
      (p.admission.allowMemoryOvercommit = false →
        wrap64 (totals.memoryMiB + mem) ≤ p.usableMemoryMiB) ∧
      p.floats.vcpuFits totals.vcpu vcpu = true ∧
      ∃ cap, p.diskCapacity probe totals = .ok cap ∧ wrap64 (totals.diskMiB + disk) ≤ cap := by
  rw [Policy.admits]
  cases hcap : p.diskCapacity probe totals with
  | error text => split_ifs <;> simp [Policy.refuse]
  | ok cap => split_ifs <;> simp_all [Policy.refuse]

/-- The reservations are sizes: none is negative. -/
def Sized (vms : List VMRow) : Prop :=
  ∀ row ∈ vms, 0 ≤ row.reservation.memoryTotalMiB ∧ 0 ≤ row.reservation.diskMiB

namespace Sized

variable {vms rows : List VMRow}

lemma append (h : Sized vms) (h' : Sized rows) : Sized (vms ++ rows) := by
  intro row hrow
  rcases mem_append.1 hrow with hrow | hrow
  · exact h row hrow
  · exact h' row hrow

lemma modify (h : Sized vms) {vmID : Bytes} {f : VMRow → VMRow}
    (hf : ∀ row, (f row).reservation = row.reservation) :
    Sized (Table.modify VMRow.vmID vmID f vms) := by
  intro row hrow
  rcases Table.mem_modify hrow with ⟨hmem, -⟩ | ⟨old, hmem, -, rfl⟩
  · exact h row hmem
  · rw [hf]
    exact h old hmem

lemma heldMemory_nonneg (h : Sized vms) {row : VMRow} (hrow : row ∈ vms) : 0 ≤ heldMemory row := by
  rw [heldMemory]
  split_ifs
  · exact le_refl 0
  · exact (h row hrow).1

lemma memoryHeld_nonneg (h : Sized vms) : 0 ≤ memoryHeld vms := by
  refine sum_nonneg fun n hn => ?_
  obtain ⟨row, hrow, rfl⟩ := mem_map.1 hn
  exact h.heldMemory_nonneg hrow

lemma diskHeld_nonneg (h : Sized vms) : 0 ≤ diskHeld vms := by
  refine sum_nonneg fun n hn => ?_
  obtain ⟨row, hrow, rfl⟩ := mem_map.1 hn
  rw [heldDisk]
  split_ifs
  · exact le_refl 0
  · exact (h row hrow).2

end Sized

lemma memoryHeld_append (vms rows : List VMRow) :
    memoryHeld (vms ++ rows) = memoryHeld vms + memoryHeld rows := by
  simp [memoryHeld]

lemma diskHeld_append (vms rows : List VMRow) :
    diskHeld (vms ++ rows) = diskHeld vms + diskHeld rows := by
  simp [diskHeld]

/-- A running total of sizes whose sum fits is exact. -/
lemma foldl_wrap64 (hacc : 0 ≤ acc) (hns : ∀ n ∈ ns, 0 ≤ n) (hsum : acc + ns.sum < 2 ^ 63) :
    ns.foldl (fun acc n => wrap64 (acc + n)) acc = acc + ns.sum := by
  induction ns generalizing acc with
  | nil => simp
  | cons n ns ih =>
    have hn : 0 ≤ n := hns n mem_cons_self
    have hrest : ∀ n' ∈ ns, 0 ≤ n' := fun n' hn' => hns n' (mem_cons_of_mem n hn')
    have hpos : 0 ≤ ns.sum := sum_nonneg hrest
    rw [sum_cons] at hsum ⊢
    have hwrap : wrap64 (acc + n) = acc + n :=
      wrap64_of_fits (decide_eq_true ⟨by omega, by omega⟩)
    rw [foldl_cons, hwrap, ih (by omega) hrest (by omega), add_assoc]

/-! ## One admission -/

namespace Manager

variable {m : Manager} {r r' : Registry}

/-- An admission that was decided on sums that fit, and left no more than it asked for. -/
lemma within_of_granted (hover : m.policy.admission.allowMemoryOvercommit = false)
    {before after : List VMRow} {probe : DiskProbe} {totals : ReservationTotals}
    {mem vcpu disk : Int} (htotals : reservationTotals before = some totals)
    (hgranted : m.policy.admits probe totals mem vcpu disk = .granted)
    (hmem : fits64 (memoryHeld before + mem) = true)
    (hdisk : fits64 (diskHeld before + disk) = true)
    (hafter : memoryHeld after ≤ memoryHeld before + mem)
    (hafter' : diskHeld after ≤ diskHeld before + disk) : m.Within ⟨before, after, probe⟩ := by
  obtain ⟨htotalMem, htotalDisk⟩ := totals_exact htotals
  obtain ⟨hle, -, cap, hcap, hle'⟩ := admits_granted_iff.1 hgranted
  replace hle := hle hover
  rw [htotalMem, wrap64_of_fits hmem] at hle
  rw [htotalDisk, wrap64_of_fits hdisk] at hle'
  refine ⟨hafter.trans hle, cap, ?_, hafter'.trans hle'⟩
  simp [capacity, htotals, hcap, Except.toOption]

/-! ### New VMs -/

def Priced (m : Manager) (vm : NewVM) : Prop := vm.memoryTotalMiB = wrap64 (m.memoryOf vm.spec)

def Fit (m : Manager) (vm : NewVM) : Prop :=
  fits64 (m.memoryOf vm.spec) = true ∧ fits64 (diskOf vm.spec) = true

lemma resolveMember_priced {req : VMRequest} {vmID newRunID : Bytes} {vm : NewVM}
    (h : m.resolveMember req vmID newRunID = .ok vm) : m.Priced vm := by
  obtain ⟨tpl, -, -, rfl⟩ := resolveMember_ok h
  rfl

lemma resolveMembers_priced {ids : Nat → Bytes × Bytes} {i : Nat} {reqs : List VMRequest}
    {vms : List NewVM} (h : m.resolveMembers ids i reqs = .ok vms) : ∀ vm ∈ vms, m.Priced vm := by
  have hall := resolveMembers_ok h
  clear h
  induction hall with
  | nil => simp
  | cons hreq _ ih =>
    obtain ⟨vmID, newRunID, hvm⟩ := hreq
    exact forall_mem_cons.2 ⟨resolveMember_priced hvm, ih⟩

section new

variable {vm : NewVM} {owner : Bytes}

lemma memoryTotal_of_fit (hpriced : m.Priced vm) (hfit : m.Fit vm) :
    vm.memoryTotalMiB = m.memoryOf vm.spec := by
  rw [hpriced, wrap64_of_fits hfit.1]

lemma disk_of_fit (hfit : m.Fit vm) : vm.spec.diskMiB = diskOf vm.spec := wrap64_of_fits hfit.2

lemma sized_row (hpriced : m.Priced vm) (hfit : m.Fit vm) : Sized [vm.row owner] := by
  intro row hrow
  cases mem_singleton.1 hrow
  obtain ⟨hmem, hdisk⟩ := hfit
  refine ⟨?_, ?_⟩
  · show 0 ≤ vm.memoryTotalMiB
    rw [memoryTotal_of_fit hpriced ⟨hmem, hdisk⟩]
    exact (of_decide_eq_true hmem).1
  · show 0 ≤ vm.spec.diskMiB
    rw [disk_of_fit ⟨hmem, hdisk⟩]
    exact (of_decide_eq_true hdisk).1

variable {vms : List NewVM}

lemma sized_rows (hpriced : ∀ vm ∈ vms, m.Priced vm) (hfit : ∀ vm ∈ vms, m.Fit vm) :
    Sized (vms.map fun vm => vm.row owner) := by
  intro row hrow
  obtain ⟨vm, hvm, rfl⟩ := mem_map.1 hrow
  exact sized_row (hpriced vm hvm) (hfit vm hvm) _ (mem_singleton_self _)

lemma memoryHeld_rows (owner : Bytes) (hpriced : ∀ vm ∈ vms, m.Priced vm)
    (hfit : ∀ vm ∈ vms, m.Fit vm) :
    memoryHeld (vms.map fun vm => vm.row owner) =
      (vms.map fun vm => m.memoryOf vm.spec).sum := by
  rw [memoryHeld, map_map]
  refine congrArg List.sum (map_congr_left fun vm hvm => ?_)
  exact memoryTotal_of_fit (hpriced vm hvm) (hfit vm hvm)

lemma diskHeld_rows (owner : Bytes) (hfit : ∀ vm ∈ vms, m.Fit vm) :
    diskHeld (vms.map fun vm => vm.row owner) = (vms.map fun vm => diskOf vm.spec).sum := by
  rw [diskHeld, map_map]
  exact congrArg List.sum (map_congr_left fun vm hvm => disk_of_fit (hfit vm hvm))

end new

/-- What `fitsNew` says. -/
lemma fitsNew_iff {vms : List NewVM} : m.fitsNew r (vms.map NewVM.spec) = true ↔
    (∀ vm ∈ vms, m.Fit vm) ∧
      fits64 (memoryHeld r.vms + (vms.map fun vm => m.memoryOf vm.spec).sum) = true ∧
      fits64 (diskHeld r.vms + (vms.map fun vm => diskOf vm.spec).sum) = true := by
  simp [fitsNew, Fit, Function.comp_def, and_assoc]

/-! ### What a call comes to -/

/-- The requests to the store that calls come to. -/
inductive RequestCase (m : Manager) (r : Registry) (a : Action) : Request → Prop
  | createVM {inp : CreateVMInput} (hpriced : m.Priced inp.vm) :
      RequestCase m r a (.createVM inp (m.admitVM (a.probe 0) inp.vm))
  | createBatch {inp : CreateVMBatchInput} (hpriced : ∀ vm ∈ inp.members, m.Priced vm) :
      RequestCase m r a (.createVMBatch inp (m.admitBatch a.probe inp.members))
  | start {vmID : Bytes} {expectedRevision : Option Int} {operationID bootID : Nat} {row : VMRow}
      (hrow : r.getVM vmID = some row) :
      RequestCase m r a (.transitionVM (startInput vmID expectedRevision bootID) (ascii "start")
        operationID (m.admitStart (a.probe 0) row.reservation))
  | transition {inp : TransitionInput} {reason : Bytes} {operationID : Nat}
      {admission : ReservationTotals → Store.Admission} (hacquire : inp.acquireCompute = false) :
      RequestCase m r a (.transitionVM inp reason operationID admission)

lemma requestCase {a : Action} {q : Request} (h : m.request r a = .ok q) :
    RequestCase m r a q := by
  cases a with
  | createVM owner req vmID newRunID probe =>
    simp only [request, createVMInput, bind_ok_iff] at h
    obtain ⟨inp, ⟨vm, hvm, hinp⟩, h⟩ := h
    cases hinp
    cases h
    exact .createVM (resolveMember_priced hvm)
  | createBatch owner req ids probe =>
    simp only [request, createBatchInput, bind_ok_iff] at h
    obtain ⟨inp, ⟨-, -, mode, -, -, -, members, hmembers, hinp⟩, h⟩ := h
    cases hinp
    cases h
    exact .createBatch (resolveMembers_priced hmembers)
  | start vmID expectedRevision operationID bootID probe =>
    simp only [request, startRequest] at h
    cases hrow : r.getVM vmID with
    | none => simp [hrow] at h
    | some row =>
      simp only [hrow] at h
      split_ifs at h
      cases h
      exact .start hrow
  | transition inp reason operationID =>
    cases h
    exact .transition rfl

/-! ### The admissions of each call -/

section cases

variable (hover : m.policy.admission.allowMemoryOvercommit = false)
include hover

variable {probe : Nat → DiskProbe}

lemma within_createVM {inp : CreateVMInput} (hpriced : m.Priced inp.vm)
    (hfits : m.fitsNew r [inp.vm.spec] = true) :
    ∀ g ∈ grants r probe (.createVM inp (m.admitVM (probe 0) inp.vm)), m.Within g := by
  have hfits : m.fitsNew r ([inp.vm].map NewVM.spec) = true := hfits
  obtain ⟨hfit, hmem, hdisk⟩ := fitsNew_iff.1 hfits
  have hpriced : ∀ vm ∈ [inp.vm], m.Priced vm := by simpa using hpriced
  intro g hg
  rw [grants] at hg
  split at hg
  · rename_i vmID op r' htx
    cases mem_singleton.1 hg
    cases createVMTx_ok htx with
    | created htotals hgranted _ _ _ _ hadds =>
      have hfit' := hfit inp.vm (mem_singleton_self _)
      refine within_of_granted hover htotals hgranted ?_ ?_ ?_ ?_
      · rw [memoryTotal_of_fit (hpriced _ (mem_singleton_self _)) hfit']
        simpa using hmem
      · rw [disk_of_fit hfit']
        simpa using hdisk
      · rw [hadds.vms, memoryHeld_append]
        exact le_of_eq (congrArg _ (by simp [memoryHeld, heldMemory, NewVM.row, VM.new]))
      · rw [hadds.vms, diskHeld_append]
        exact le_of_eq (congrArg _ (by simp [diskHeld, heldDisk, NewVM.row, VM.new]))
  · cases hg

lemma within_memberGrants {owner : Bytes} {all ms : List NewVM} {i : Nat} {rows : List VMRow}
    (hpriced : ∀ vm ∈ ms, m.Priced vm) (hfit : ∀ vm ∈ ms, m.Fit vm) (hrows : Sized rows)
    (hmem : memoryHeld rows + (ms.map fun vm => m.memoryOf vm.spec).sum < 2 ^ 63)
    (hdisk : diskHeld rows + (ms.map fun vm => diskOf vm.spec).sum < 2 ^ 63) :
    ∀ g ∈ memberGrants (m.admitBatch probe all) owner probe i ms rows, m.Within g := by
  induction ms generalizing i rows with
  | nil => exact nofun
  | cons vm ms ih =>
    obtain ⟨hpriced₀, hpriced⟩ := forall_mem_cons.1 hpriced
    obtain ⟨hfit₀, hfit⟩ := forall_mem_cons.1 hfit
    rw [map_cons, sum_cons] at hmem hdisk
    have hmemRest : 0 ≤ (ms.map fun vm => m.memoryOf vm.spec).sum := by
      rw [← memoryHeld_rows owner hpriced hfit]
      exact (sized_rows hpriced hfit).memoryHeld_nonneg
    have hdiskRest : 0 ≤ (ms.map fun vm => diskOf vm.spec).sum := by
      rw [← diskHeld_rows owner hfit]
      exact (sized_rows hpriced hfit).diskHeld_nonneg
    have hmem₀ : memoryHeld [vm.row owner] = m.memoryOf vm.spec := by
      simpa using memoryHeld_rows owner (forall_mem_singleton.2 hpriced₀)
        (forall_mem_singleton.2 hfit₀)
    have hdisk₀ : diskHeld [vm.row owner] = diskOf vm.spec := by
      simpa using diskHeld_rows owner (forall_mem_singleton.2 hfit₀)
    have hpos := hrows.memoryHeld_nonneg
    have hpos' := hrows.diskHeld_nonneg
    have hmemVM := (of_decide_eq_true hfit₀.1).1
    have hdiskVM := (of_decide_eq_true hfit₀.2).1
    intro g hg
    rw [memberGrants] at hg
    split_ifs at hg with hgranted
    · rcases mem_cons.1 hg with rfl | hg
      · obtain ⟨totals, htotals, hadmits⟩ := Option.map_eq_some_iff.1 hgranted
        refine within_of_granted hover htotals hadmits ?_ ?_ ?_ ?_
        · show fits64 (memoryHeld rows + vm.memoryTotalMiB) = true
          rw [memoryTotal_of_fit hpriced₀ hfit₀]
          exact decide_eq_true ⟨by omega, by omega⟩
        · show fits64 (diskHeld rows + vm.spec.diskMiB) = true
          rw [disk_of_fit hfit₀]
          exact decide_eq_true ⟨by omega, by omega⟩
        · rw [memoryHeld_append, hmem₀, memoryTotal_of_fit hpriced₀ hfit₀]
        · rw [diskHeld_append, hdisk₀, disk_of_fit hfit₀]
      · refine ih hpriced hfit (hrows.append (sized_row hpriced₀ hfit₀)) ?_ ?_ g hg
        · rw [memoryHeld_append, hmem₀]
          omega
        · rw [diskHeld_append, hdisk₀]
          omega
    · exact ih hpriced hfit hrows (by omega) (by omega) g hg

lemma within_atomic (hsized : Sized r.vms) {inp : CreateVMBatchInput}
    (hpriced : ∀ vm ∈ inp.members, m.Priced vm)
    (hfits : m.fitsNew r (inp.members.map NewVM.spec) = true) {totals : ReservationTotals}
    (htotals : reservationTotals r.vms = some totals)
    (hgranted : (m.admitBatch probe inp.members).batch totals = .granted)
    (hvms : r'.vms = r.vms ++ inp.members.map fun vm => vm.row inp.owner) :
    m.Within ⟨r.vms, r'.vms, probe 0⟩ := by
  obtain ⟨hfit, hmem, hdisk⟩ := fitsNew_iff.1 hfits
  have hpos := hsized.memoryHeld_nonneg
  have hpos' := hsized.diskHeld_nonneg
  have hmem' := (of_decide_eq_true hmem).2
  have hdisk' := (of_decide_eq_true hdisk).2
  have hmemTotal : wrapSum (inp.members.map NewVM.memoryTotalMiB) =
      (inp.members.map fun vm => m.memoryOf vm.spec).sum := by
    have hmap : inp.members.map NewVM.memoryTotalMiB =
        inp.members.map fun vm => m.memoryOf vm.spec :=
      map_congr_left fun vm hvm => memoryTotal_of_fit (hpriced vm hvm) (hfit vm hvm)
    rw [hmap, wrapSum, foldl_wrap64 (le_refl 0) (fun n hn => ?_) (by omega), zero_add]
    obtain ⟨vm, hvm, rfl⟩ := mem_map.1 hn
    exact (of_decide_eq_true (hfit vm hvm).1).1
  have hdiskTotal :
      wrapSum (inp.members.map fun vm => vm.spec.rootDiskMiB + vm.spec.workspaceDiskMiB) =
        (inp.members.map fun vm => diskOf vm.spec).sum := by
    have hsum : 0 + (inp.members.map fun vm => diskOf vm.spec).sum < 2 ^ 63 := by omega
    rw [wrapSum]
    refine (foldl_wrap64 (le_refl 0) (fun n hn => ?_) hsum).trans (zero_add _)
    obtain ⟨vm, hvm, rfl⟩ := mem_map.1 hn
    exact (of_decide_eq_true (hfit vm hvm).2).1
  refine within_of_granted hover htotals hgranted ?_ ?_ ?_ ?_
  · rw [hmemTotal]
    exact hmem
  · rw [hdiskTotal]
    exact hdisk
  · rw [hvms, memoryHeld_append, memoryHeld_rows inp.owner hpriced hfit, hmemTotal]
  · rw [hvms, diskHeld_append, diskHeld_rows inp.owner hfit, hdiskTotal]

lemma within_createBatch (hsized : Sized r.vms) {inp : CreateVMBatchInput}
    (hpriced : ∀ vm ∈ inp.members, m.Priced vm)
    (hfits : m.fitsNew r (inp.members.map NewVM.spec) = true) :
    ∀ g ∈ grants r probe (.createVMBatch inp (m.admitBatch probe inp.members)), m.Within g := by
  intro g hg
  rw [grants] at hg
  split at hg
  · rename_i id op rows r' htx
    cases createVMBatchTx_ok htx with
    | created hdecides hprocess _ hopen hfree =>
      have hvms := (createBatch_adds hprocess hopen hfree).vms
      cases hmode : inp.reservationMode with
      | atomicReservation =>
        simp only [batchGrants, hmode] at hg
        split_ifs at hg with hafford
        · cases mem_singleton.1 hg
          simp only [Decides, hmode] at hdecides
          obtain ⟨totals, htotals, rfl⟩ := hdecides
          have hgranted : (m.admitBatch probe inp.members).batch totals = .granted := by
            simpa [affords, htotals] using hafford
          rw [grantedMembers_const, if_pos hgranted] at hvms
          exact within_atomic hover hsized hpriced hfits htotals hgranted hvms
        · cases hg
      | bestEffort =>
        simp only [batchGrants, hmode] at hg
        obtain ⟨hfit, hmem, hdisk⟩ := fitsNew_iff.1 hfits
        exact within_memberGrants hover hpriced hfit hsized (of_decide_eq_true hmem).2
          (of_decide_eq_true hdisk).2 g hg
  · cases hg

/-- A VM that is started again takes back at most its reservation, and no disk. -/
lemma within_start (hwf : r.Wf) (hsized : Sized r.vms) {vmID : Bytes}
    {expectedRevision : Option Int} {operationID bootID : Nat} {row : VMRow}
    (hrow : r.getVM vmID = some row) (hfits : fitsStart r vmID = true) :
    ∀ g ∈ grants r probe (.transitionVM (startInput vmID expectedRevision bootID) (ascii "start")
      operationID (m.admitStart (probe 0) row.reservation)), m.Within g := by
  intro g hg
  rw [grants] at hg
  split at hg
  · rename_i vm r' htx
    have hg : g ∈ [(⟨r.vms, r'.vms, probe 0⟩ : Grant)] := hg
    cases mem_singleton.1 hg
    obtain ⟨current, -, haccepted, -, hr'⟩ := transitionVMTx_ok htx
    have hvms : r'.vms = Table.modify VMRow.vmID vmID
        (VMRow.move (startInput vmID expectedRevision bootID)) r.vms := congrArg Registry.vms hr'
    have hafford := haccepted.afford rfl
    have hmem : fits64 (memoryHeld r.vms + row.reservation.memoryTotalMiB) = true := by
      simpa [fitsStart, hrow] using hfits
    obtain ⟨hmemory, -⟩ := hsized row (Table.mem_of_find hrow).1
    have hheld := hsized.heldMemory_nonneg (Table.mem_of_find hrow).1
    cases htotals : reservationTotals r.vms with
    | none => simp [affords, htotals] at hafford
    | some totals =>
      have hgranted : m.admitStart (probe 0) row.reservation totals = .granted := by
        simpa [affords, htotals] using hafford
      have hdisk := diskHeld_lt htotals
      have hpos := hsized.diskHeld_nonneg
      refine within_of_granted hover htotals hgranted hmem
        (decide_eq_true ⟨by omega, by omega⟩) ?_ ?_
      · rw [hvms, memoryHeld, Table.sum_modify hwf.vmIDs hrow, ← memoryHeld]
        have hle : heldMemory (VMRow.move (startInput vmID expectedRevision bootID) row) ≤
            row.reservation.memoryTotalMiB := by
          rw [heldMemory]
          split_ifs
          · exact hmemory
          · exact le_refl _
        omega
      · rw [hvms, diskHeld, Table.sum_modify hwf.vmIDs hrow, ← diskHeld]
        have heq : heldDisk (VMRow.move (startInput vmID expectedRevision bootID) row) =
            heldDisk row := rfl
        omega
  · cases hg

end cases

/-! ## Whole runs -/

/-- What the registry is like between steps. -/
structure Inv (r : Registry) : Prop where
  wf : r.Wf
  sized : Sized r.vms

lemma within_admissions (hover : m.policy.admission.allowMemoryOvercommit = false) (h : Inv r)
    {s : Step} (hfits : m.Fits r s) : ∀ g ∈ m.admissions r s, m.Within g := by
  cases s with
  | release vmID => exact nofun
  | call a fault =>
    cases hreq : m.request r a with
    | error err => simp [admissions, hreq]
    | ok q =>
      simp only [admissions, hreq, Fits, fits] at hfits ⊢
      cases requestCase hreq with
      | createVM hpriced => exact within_createVM hover hpriced hfits
      | createBatch hpriced => exact within_createBatch hover h.sized hpriced hfits
      | start hrow => exact within_start hover h.wf h.sized hrow hfits
      | transition hacquire =>
        intro g hg
        rw [grants] at hg
        split at hg
        · simp [hacquire] at hg
        · cases hg

lemma sized_tx (hsized : Sized r.vms) {a : Action} {fault : Bool} {q : Request}
    (hreq : m.request r a = .ok q) (hfits : m.Fits r (.call a fault))
    (htx : q.tx r = .ok ((), r')) : Sized r'.vms := by
  simp only [Fits, fits, hreq] at hfits
  cases requestCase hreq with
  | @createVM inp hpriced =>
    have hfits : m.fitsNew r ([inp.vm].map NewVM.spec) = true := hfits
    have hfit := (fitsNew_iff.1 hfits).1 inp.vm (mem_singleton_self _)
    obtain ⟨reply, htx⟩ := of_map_ok htx
    cases createVMTx_ok htx with
    | replay => exact hsized
    | refused _ _ _ _ hadds => rwa [hadds.vms, append_nil]
    | created _ _ _ _ _ _ hadds =>
      rw [hadds.vms]
      exact hsized.append (sized_row hpriced hfit)
  | createBatch hpriced =>
    obtain ⟨hfit, -, -⟩ := fitsNew_iff.1 hfits
    obtain ⟨reply, htx⟩ := of_map_ok htx
    cases createVMBatchTx_ok htx with
    | replay => exact hsized
    | created _ hprocess _ hopen hfree =>
      rw [(createBatch_adds hprocess hopen hfree).vms]
      exact hsized.append (sized_rows (fun vm hvm => hpriced vm (mem_of_mem_grantedMembers hvm))
        fun vm hvm => hfit vm (mem_of_mem_grantedMembers hvm))
  | start _ | transition _ =>
    obtain ⟨vm, htx⟩ := of_map_ok htx
    obtain ⟨current, -, -, -, rfl⟩ := transitionVMTx_ok htx
    exact hsized.modify fun _ => rfl

lemma releaseRow_eq (row : VMRow) :
    (releaseRow row).reservation = row.reservation ∧ (releaseRow row).vmID = row.vmID := by
  rw [releaseRow]
  split_ifs <;> exact ⟨rfl, rfl⟩

lemma Inv.step (h : Inv r) {s : Step} (hfits : m.Fits r s) : Inv (m.serve r s) := by
  cases s with
  | release vmID =>
    refine ⟨{ h.wf with vmIDs := ?_ }, h.sized.modify fun row => (releaseRow_eq row).1⟩
    rw [serve, Table.keys_modify fun row => (releaseRow_eq row).2]
    exact h.wf.vmIDs
  | call a fault =>
    rw [serve]
    cases hreq : m.request r a with
    | error err => exact h
    | ok q =>
      show Inv (r.serve (q, fault)).2
      refine ⟨wf_serve h.wf (q, fault), ?_⟩
      cases fault with
      | true => exact h.sized
      | false =>
        cases htx : q.tx r with
        | error err =>
          have hserve : (r.serve (q, false)).2 = r := by simp [Registry.serve, transact, htx]
          rw [hserve]
          exact h.sized
        | ok p =>
          rw [serve_ok htx rfl]
          exact sized_tx h.sized hreq hfits htx

lemma inv_empty : Inv Registry.empty := ⟨wf_empty, fun _ hrow => nomatch hrow⟩

/-- **Admission keeps within the host.**  In every run of creations, starts, stops, deletions and
releases whose sums fit in 64 bits, with memory overcommit off, every further step whose sums fit
too leaves after each of its admissions no more memory held than is usable, and no more disk
than the capacity that admission was decided on. -/
theorem admissions_within_capacity
    (hover : m.policy.admission.allowMemoryOvercommit = false) {ss : List Step}
    (hfits : Along m.step m.Fits Registry.empty ss)
    (hrun : run m.step Registry.empty ss = some r) {s : Step} (hs : m.Fits r s) :
    ∀ g ∈ m.admissions r s, memoryHeld g.after ≤ m.policy.usableMemoryMiB ∧
      ∃ cap, m.capacity g = some cap ∧ diskHeld g.after ≤ cap := by
  have hinv : Inv r := by
    refine run_invariant (fun r s r' h hs hstep => ?_) inv_empty hfits hrun
    exact Option.some.inj hstep ▸ h.step hs
  exact within_admissions hover hinv hs

/-! ### A host of 16 GiB -/

def demoTemplate : Template := ⟨ascii "base", ascii "sha256:00"⟩

def demoManager : Manager where
  templates := ⟨[demoTemplate], by decide +kernel⟩
  vmDefaults := ⟨1, 512, 1024, 1024, ascii "none", ascii "p0"⟩
  policy :=
    { admission := ⟨false, 0, 128, 0, 0, 0⟩
      host := ⟨16384, 100000⟩
      floats := ⟨0, fun reserved requested => reserved + requested ≤ 8, fun _ => [], []⟩
      observesDisk := false }
  sha256 := id

/-- A VM with the defaults of the host, but for its memory. -/
def demoRequest (memoryMiB : Int) : CreateRequest where
  vm := ⟨ascii "vm", ascii "base", 0, memoryMiB, 0, 0, ⟨[], .nil⟩, none⟩
  idempotencyKey := none

def demoCreateStep (vmID : Bytes) (memoryMiB : Int) : Step :=
  .call (.createVM (ascii "op") (demoRequest memoryMiB) vmID [] (.error [])) false

def demoMove (dest : VMState) (releaseCompute : Bool) : Step :=
  .call (.transition { vmID := ascii "v1", dest, releaseCompute } [] 1) false

/-- A VM is created and stopped. -/
def demoStopped : List Step :=
  [demoCreateStep (ascii "v1") 0, demoMove .stopping false, demoMove .stopped true]

def demoStart : Step := .call (.start (ascii "v1") none 1 7 (.error [])) false

theorem admissions_within_capacity_start : ∃ r g,
    run demoManager.step Registry.empty demoStopped = some r ∧
      memoryHeld r.vms = 0 ∧ g ∈ demoManager.admissions r demoStart ∧ memoryHeld g.after = 640 ∧
      memoryHeld g.after ≤ demoManager.policy.usableMemoryMiB ∧
      ∃ cap, demoManager.capacity g = some cap ∧ diskHeld g.after ≤ cap := by
  obtain ⟨r, hrun, hzero, hs, g, hg, hheld⟩ : ∃ r,
      run demoManager.step Registry.empty demoStopped = some r ∧ memoryHeld r.vms = 0 ∧
      demoManager.Fits r demoStart ∧
      ∃ g ∈ demoManager.admissions r demoStart, memoryHeld g.after = 640 := by
    decide +kernel
  exact ⟨r, g, hrun, hzero, hg, hheld,
    admissions_within_capacity rfl (by decide +kernel) hrun hs g hg⟩

/-- The memory that, with the overhead, is the largest machine integer. -/
def hugeMiB : Int := 2 ^ 63 - 1 - 128

/-- On top of a VM that is there, a request for that much is admitted: the sum the policy compares
wraps around to a negative number. -/
theorem admission_wraps_around : ∃ r g,
    run demoManager.step Registry.empty [demoCreateStep (ascii "v1") 0] = some r ∧
      demoManager.policy.admission.allowMemoryOvercommit = false ∧
      g ∈ demoManager.admissions r (demoCreateStep (ascii "v2") hugeMiB) ∧
      hugeMiB ≤ int64Max ∧ demoManager.policy.usableMemoryMiB < memoryHeld g.after := by
  simp only [exists_and_left]
  decide +kernel

end Manager

end Observatory.Runtime.Requests
