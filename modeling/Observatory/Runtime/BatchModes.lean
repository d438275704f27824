/-
# The two modes of a batch agree

A batch is admitted as a whole, on the sums of its members, or member by member, on totals that
grow. With exact sums the two come to the same: there is room for a batch if there is room for its
first member and, on top of it, for the rest.
-/
import Mathlib.Algebra.Order.Ring.Rat
import Observatory.Runtime.Admission

namespace Observatory.Runtime.BatchModes

open Lib Store Store.Registry Requests Requests.Manager List

/-- Sizes that come on top of a total, with sums that fit in 64 bits. -/
structure Exact (total : Int) (sizes : List Int) : Prop where
  nonneg : ∀ n ∈ sizes, 0 ≤ n
  low : -2 ^ 63 ≤ total
  sum : sizes.sum < 2 ^ 63
  all : total + sizes.sum < 2 ^ 63

structure ExactBatch (totals : ReservationTotals) (ms : List NewVM) : Prop where
  memory : Exact totals.memoryMiB (ms.map NewVM.memoryTotalMiB)
  vcpu : Exact totals.vcpu (ms.map fun vm => vm.spec.vcpuCount)
  disk : Exact totals.diskMiB (ms.map fun vm => diskOf vm.spec)

def AdmitsEvery (result : Except StoreError (BatchOutcome × Registry)) : Prop :=
  ∃ out r', result = .ok (out, r') ∧ ∀ row ∈ out.rows, ∃ vmID op, row.outcome = .admitted vmID op

/-- What admission asks for, in exact numbers. -/
@[mk_iff]
structure Room (p : Policy) (cores : ℚ) (probe : DiskProbe) (totals : ReservationTotals)
    (ms : List NewVM) : Prop where
  memory : p.admission.allowMemoryOvercommit = false →
    totals.memoryMiB + (ms.map NewVM.memoryTotalMiB).sum ≤ p.usableMemoryMiB
  vcpu : ((totals.vcpu + (ms.map fun vm => vm.spec.vcpuCount).sum : Int) : ℚ) ≤ cores
  disk : ∃ usable, p.diskCapacity probe totals = .ok usable ∧
    totals.diskMiB + (ms.map fun vm => diskOf vm.spec).sum ≤ usable

/-- The totals with one more member. -/
structure Plus (totals : ReservationTotals) (vm : NewVM) (totals' : ReservationTotals) : Prop where
  memory : totals'.memoryMiB = totals.memoryMiB + vm.memoryTotalMiB
  vcpu : totals'.vcpu = totals.vcpu + vm.spec.vcpuCount
  disk : totals'.diskMiB = totals.diskMiB + diskOf vm.spec

/-! ## Exact sums -/

namespace Exact

variable {t n : Int} {ns : List Int}

lemma sum_nonneg (h : Exact t ns) : 0 ≤ ns.sum := List.sum_nonneg h.nonneg

lemma wrapSum_eq (h : Exact t ns) : wrapSum ns = ns.sum :=
  (foldl_wrap64 le_rfl h.nonneg (by simpa using h.sum)).trans (zero_add _)

lemma wrap64_eq (h : Exact t ns) : wrap64 (t + ns.sum) = t + ns.sum := by
  have hlow := h.low
  have hall := h.all
  have hsum := h.sum_nonneg
  rw [wrap64]
  omega

lemma head (h : Exact t (n :: ns)) : Exact t [n] := by
  obtain ⟨hn, hns⟩ := forall_mem_cons.1 h.nonneg
  have hrest := List.sum_nonneg hns
  have hsum := h.sum
  have hall := h.all
  rw [sum_cons] at hsum hall
  exact ⟨forall_mem_singleton.2 hn, h.low, by rw [sum_singleton]; omega,
    by rw [sum_singleton]; omega⟩

lemma tail (h : Exact t (n :: ns)) : Exact (t + n) ns := by
  obtain ⟨hn, hns⟩ := forall_mem_cons.1 h.nonneg
  have hlow := h.low
  have hsum := h.sum
  have hall := h.all
  rw [sum_cons] at hsum hall
  exact ⟨hns, by omega, by omega, by omega⟩

lemma sumColumn_append (h : Exact t (n :: ns)) {acc : Int} {column : List Int}
    (hcolumn : sumColumn acc column = some t) : sumColumn acc (column ++ [n]) = some (t + n) := by
  induction column generalizing acc with
  | nil =>
    cases hcolumn
    have hlow := h.tail.low
    have hall := h.head.all
    rw [sum_singleton] at hall
    exact if_pos ⟨hlow, Int.le_of_lt_add_one hall⟩
  | cons k column ih =>
    rw [sumColumn] at hcolumn
    split_ifs at hcolumn with hfits
    rw [cons_append, sumColumn, if_pos hfits, ih hcolumn]

end Exact

variable {m : Manager} {cores : ℚ} {probe : DiskProbe} {totals totals' : ReservationTotals}
  {vm : NewVM} {ms all : List NewVM} {r r' : Registry} {batchID position : Nat} {owner : Bytes}

lemma ExactBatch.diskMiB_eq (h : ExactBatch totals (vm :: ms)) :
    vm.spec.diskMiB = diskOf vm.spec := by
  have hsum : wrap64 (0 + diskOf vm.spec) = diskOf vm.spec + 0 := h.disk.head.wrapSum_eq
  rwa [zero_add, add_zero] at hsum

lemma reservationTotals_append (owner : Bytes) (h : ExactBatch totals (vm :: ms))
    {vms : List VMRow} (htotals : reservationTotals vms = some totals) :
    ∃ totals', reservationTotals (vms ++ [vm.row owner]) = some totals' ∧ Plus totals vm totals' ∧
      ExactBatch totals' ms := by
  simp only [reservationTotals, Option.bind_eq_bind, Option.bind_eq_some_iff] at htotals
  obtain ⟨mem, hmem, vcpu, hvcpu, disk, hdisk, heq⟩ := htotals
  cases heq
  have hcompute : ∀ f, computeColumn f (vms ++ [vm.row owner]) =
      computeColumn f vms ++ [f ⟨vm.memoryTotalMiB, vm.spec.vcpuCount, vm.spec.diskMiB⟩] := by
    intro f
    simp [computeColumn, heldRows, NewVM.row, VM.new]
  have hcolumn : diskColumn (vms ++ [vm.row owner]) = diskColumn vms ++ [diskOf vm.spec] := by
    simp [diskColumn, heldRows, NewVM.row, VM.new, h.diskMiB_eq]
  simp only [reservationTotals, hcompute, hcolumn, h.memory.sumColumn_append hmem,
    h.vcpu.sumColumn_append hvcpu, h.disk.sumColumn_append hdisk]
  exact ⟨_, rfl, ⟨rfl, rfl, rfl⟩, h.memory.tail, h.vcpu.tail, h.disk.tail⟩

/-! ## Room for a batch -/

lemma diskCapacity_of_le {p : Policy} {usable : Int} (hle : totals.diskMiB ≤ totals'.diskMiB)
    (hok : p.diskCapacity probe totals = .ok usable) : p.diskCapacity probe totals' = .ok usable := by
  simp only [Policy.diskCapacity] at hok ⊢
  split_ifs at hok ⊢
  · cases probe with
    | error text => exact hok
    | ok seen =>
      dsimp only at hok ⊢
      split_ifs at hok with hinvalid
      rw [if_neg (by omega)]
      exact hok
  · exact hok

/-- There is room for a batch if there is room for its first member and, with that one there, for
the others. -/
lemma room_cons_iff {p : Policy} (h : ExactBatch totals (vm :: ms)) (hplus : Plus totals vm totals') :
    Room p cores probe totals (vm :: ms) ↔
      Room p cores probe totals [vm] ∧ Room p cores probe totals' ms := by
  obtain ⟨hmemory, hvcpu, hdisk⟩ := hplus
  have hmemRest := h.memory.tail.sum_nonneg
  have hvcpuRest := h.vcpu.tail.sum_nonneg
  have hdiskRest := h.disk.tail.sum_nonneg
  have hdiskFirst := h.disk.head.sum_nonneg
  simp only [room_iff, map_cons, map_nil, sum_cons, sum_nil, add_zero, hmemory, hvcpu, hdisk,
    add_assoc] at hdiskFirst ⊢
  constructor
  · rintro ⟨hmem, hcores, usable, hcap, hle⟩
    refine ⟨⟨fun hover => ?_, ?_, usable, hcap, by omega⟩, hmem, hcores, usable, ?_, hle⟩
    · have := hmem hover
      omega
    · exact le_trans (Int.cast_mono (by omega)) hcores
    · exact diskCapacity_of_le (by omega) hcap
  · rintro ⟨⟨-, -, usable, hcap, -⟩, hmem, hcores, usable', hcap', hle⟩
    have hsame : p.diskCapacity probe totals' = .ok usable := diskCapacity_of_le (by omega) hcap
    obtain rfl : usable = usable' := Except.ok.inj (hsame.symm.trans hcap')
    exact ⟨hmem, hcores, usable, hcap, hle⟩

/-- The policy counts the CPUs against an exact number. -/
def CountsCores (p : Policy) (cores : ℚ) : Prop := ∀ reserved requested,
  p.floats.vcpuFits reserved requested = true ↔ ((reserved + requested : Int) : ℚ) ≤ cores

lemma batch_granted_iff (hcores : CountsCores m.policy cores) (h : ExactBatch totals ms) :
    (m.admitBatch (fun _ => probe) ms).batch totals = .granted ↔
      Room m.policy cores probe totals ms := by
  have hdisk : wrapSum (ms.map fun vm => vm.spec.rootDiskMiB + vm.spec.workspaceDiskMiB) = _ :=
    h.disk.wrapSum_eq
  rw [admitBatch, admits_granted_iff, hcores, h.memory.wrapSum_eq, h.memory.wrap64_eq,
    h.vcpu.wrapSum_eq, hdisk, h.disk.wrap64_eq, room_iff]

lemma memberDecision_granted_iff (hcores : CountsCores m.policy cores)
    (h : ExactBatch totals (vm :: ms)) (htotals : reservationTotals r.vms = some totals) :
    memberDecision (m.admitBatch (fun _ => probe) all) position r.vms vm = some .granted ↔
      Room m.policy cores probe totals [vm] := by
  have hone : ExactBatch totals [vm] := ⟨h.memory.head, h.vcpu.head, h.disk.head⟩
  rw [← batch_granted_iff hcores hone, memberDecision, htotals, Option.map_some,
    Option.some.injEq]
  have hmem := hone.memory.wrapSum_eq
  have hvcpu := hone.vcpu.wrapSum_eq
  have hdisk := hone.disk.wrapSum_eq
  simp only [admitBatch, map_cons, map_nil, sum_cons, sum_nil, add_zero, h.diskMiB_eq, diskOf] at *
  rw [hmem, hvcpu, hdisk]

/-! ## The members one after another -/

variable {reply : MembersReply}

lemma insertOneMember_vms {row : BatchMemberRow}
    (h : r.insertOneMember batchID position owner vm = .ok (row, r')) :
    r'.vms = r.vms ++ [vm.row owner] ∧ ∃ vmID op, row.outcome = .admitted vmID op := by
  simp only [insertOneMember, bind_ok_iff] at h
  obtain ⟨⟨op, r₁⟩, hins, h⟩ := h
  cases h
  obtain ⟨-, -, -, -, hadds⟩ := insertAdmitted_ok hins
  exact ⟨hadds.vms, _, _, rfl⟩

lemma processMembers_granted
    (h : processMembers batchID owner (fun _ _ _ => some .granted) position ms r =
      .ok (reply, r')) :
    ∀ row ∈ reply.rows, ∃ vmID op, row.outcome = .admitted vmID op := by
  induction ms generalizing position r reply with
  | nil =>
    cases h
    simp
  | cons vm ms ih =>
    simp only [processMembers, bind_ok_iff] at h
    obtain ⟨⟨row, r₁⟩, hins, ⟨rest, r₂⟩, hrest, h⟩ := h
    cases h
    exact forall_mem_cons.2 ⟨(insertOneMember_vms hins).2, ih hrest⟩

lemma processMembers_refused (batchID position : Nat) (owner : Bytes) (refusal : AdmissionRefusal)
    (ms : List NewVM) (r : Registry) : ∃ reply r', processMembers batchID owner
        (fun _ _ _ => some (.refused refusal)) position ms r = .ok (reply, r') ∧
      r'.vms = r.vms ∧ (ms ≠ [] → ∃ row ∈ reply.rows, row.outcome = .refused refusal) := by
  induction ms generalizing position r with
  | nil => exact ⟨_, r, rfl, rfl, by simp⟩
  | cons vm ms ih =>
    obtain ⟨reply, r', hrest, hvms, -⟩ :=
      ih (position + 1) (r.refuseMember batchID position refusal vm).2
    simp only [processMembers, hrest]
    exact ⟨_, r', rfl, hvms, fun _ => ⟨_, mem_cons_self, rfl⟩⟩

lemma processMembers_of_room (hcores : CountsCores m.policy cores) (h : ExactBatch totals ms)
    (htotals : reservationTotals r.vms = some totals) (hroom : Room m.policy cores probe totals ms) :
    processMembers batchID owner (memberDecision (m.admitBatch (fun _ => probe) all)) position ms r =
      processMembers batchID owner (fun _ _ _ => some .granted) position ms r := by
  induction ms generalizing position r totals with
  | nil => rfl
  | cons vm ms ih =>
    obtain ⟨totals', htotals', hplus, hrest⟩ := reservationTotals_append owner h htotals
    obtain ⟨hfirst, hroom⟩ := (room_cons_iff h hplus).1 hroom
    rw [processMembers, processMembers, (memberDecision_granted_iff hcores h htotals).2 hfirst]
    cases hins : r.insertOneMember batchID position owner vm with
    | error err => rfl
    | ok p =>
      obtain ⟨row, r₁⟩ := p
      have hvms := (insertOneMember_vms hins).1
      simp only [bind, Except.bind]
      rw [ih hrest (hvms ▸ htotals') hroom]

/-- If every member was granted in its turn, there was room for all of them. -/
lemma room_of_processMembers (hcores : CountsCores m.policy cores) (h : ExactBatch totals ms)
    (htotals : reservationTotals r.vms = some totals) (hms : ms ≠ [])
    (hok : processMembers batchID owner (memberDecision (m.admitBatch (fun _ => probe) all)) position
      ms r = .ok (reply, r'))
    (hrows : ∀ row ∈ reply.rows, ∃ vmID op, row.outcome = .admitted vmID op) :
    Room m.policy cores probe totals ms := by
  induction ms generalizing position r totals reply with
  | nil => exact absurd rfl hms
  | cons vm ms ih =>
    rw [processMembers] at hok
    rcases hdecision : memberDecision (m.admitBatch (fun _ => probe) all) position r.vms vm with
      - | (- | refusal | -)
    · simp [hdecision] at hok
    · have hfirst := (memberDecision_granted_iff hcores h htotals).1 hdecision
      simp only [hdecision, bind_ok_iff] at hok
      obtain ⟨⟨row, r₁⟩, hins, ⟨rest, r₂⟩, hrest, hok⟩ := hok
      cases hok
      rcases eq_or_ne ms [] with rfl | hms
      · exact hfirst
      obtain ⟨totals', htotals', hplus, hexact⟩ := reservationTotals_append owner h htotals
      refine (room_cons_iff h hplus).2 ⟨hfirst, ih hexact ?_ hms hrest ?_⟩
      · rwa [(insertOneMember_vms hins).1]
      · exact (forall_mem_cons.1 hrows).2
    · simp only [hdecision, bind_ok_iff] at hok
      obtain ⟨⟨rest, r₂⟩, -, hok⟩ := hok
      cases hok
      obtain ⟨vmID, op, hadmitted⟩ := hrows _ mem_cons_self
      cases hadmitted
    · simp [hdecision] at hok

lemma admits_ne_failed {p : Policy} {mem vcpu disk : Int} :
    p.admits probe totals mem vcpu disk ≠ .failed := by
  rw [Policy.admits]
  cases p.diskCapacity probe totals <;> dsimp only <;> split_ifs <;> simp [Policy.refuse]

lemma admitsEvery_bestEffort_iff {inp : CreateVMBatchInput} {admission : BatchAdmission} :
    AdmitsEvery (r.processBestEffortBatch batchID inp admission) ↔ ∃ reply r',
      processMembers batchID inp.owner (memberDecision admission) 0 inp.members r =
        .ok (reply, r') ∧ ∀ row ∈ reply.rows, ∃ vmID op, row.outcome = .admitted vmID op := by
  rw [AdmitsEvery, processBestEffortBatch]
  rcases processMembers batchID inp.owner (memberDecision admission) 0 inp.members r with
    err | ⟨reply, r'⟩
  · simp [bind, Except.bind]
  · cases hany : reply.anyAdmitted <;> simp [bind, Except.bind, hany, pure, Except.pure]

/-- **The modes of a batch agree.**  With exact sums and an exact number of CPUs, the batch is
admitted as a whole if and only if every member is admitted when they come one after another; and
a batch that is refused as a whole leaves the VMs and their reservations as they were. -/
theorem atomic_iff_bestEffort (m : Manager) (cores : ℚ) (probe : DiskProbe) (r : Registry)
    (batchID : Nat) (inp : CreateVMBatchInput) (totals : ReservationTotals)
    (hcores : CountsCores m.policy cores) (htotals : reservationTotals r.vms = some totals)
    (hexact : ExactBatch totals inp.members) :
    (AdmitsEvery (r.processAtomicBatch batchID inp (m.admitBatch (fun _ => probe) inp.members)) ↔
      AdmitsEvery
        (r.processBestEffortBatch batchID inp (m.admitBatch (fun _ => probe) inp.members))) ∧
    ∀ out r', r.processAtomicBatch batchID inp (m.admitBatch (fun _ => probe) inp.members) =
      .ok (out, r') → out.state = .failed → r'.vms = r.vms := by
  have hbatch : (m.admitBatch (fun _ => probe) inp.members).batch totals = .granted ↔
      Room m.policy cores probe totals inp.members := batch_granted_iff hcores hexact
  rw [admitsEvery_bestEffort_iff]
  simp only [processAtomicBatch, htotals]
  cases hadmission : (m.admitBatch (fun _ => probe) inp.members).batch totals with
  | failed => exact absurd hadmission admits_ne_failed
  | granted =>
    rw [processMembers_of_room hcores hexact htotals (hbatch.1 hadmission)]
    rcases hmembers : processMembers batchID inp.owner (fun _ _ _ => some .granted) 0 inp.members r
      with err | ⟨reply, r'⟩
    · simp [AdmitsEvery, bind, Except.bind]
    · have hrows := processMembers_granted hmembers
      refine ⟨iff_of_true ⟨_, _, rfl, hrows⟩ ⟨_, _, rfl, hrows⟩, fun out r'' hok hfailed => ?_⟩
      cases hok
      cases hfailed
  | refused refusal =>
    obtain ⟨reply, r', hmembers, hvms, hrefused⟩ :=
      processMembers_refused batchID 0 inp.owner refusal inp.members r
    simp only [hmembers]
    refine ⟨?_, fun out r'' hok _ => ?_⟩
    · rcases eq_or_ne inp.members [] with hnil | hms
      · rw [hnil] at hmembers ⊢
        cases hmembers
        exact iff_of_true ⟨_, _, rfl, by simp⟩ ⟨_, _, rfl, by simp⟩
      · refine iff_of_false ?_ ?_
        · rintro ⟨out, r'', hok, hrows⟩
          cases hok
          obtain ⟨row, hrow, houtcome⟩ := hrefused hms
          obtain ⟨vmID, op, hadmitted⟩ := hrows row hrow
          simp [houtcome] at hadmitted
        · rintro ⟨reply, r'', hok, hrows⟩
          have hgranted := hbatch.2 (room_of_processMembers hcores hexact htotals hms hok hrows)
          simp [hadmission] at hgranted
    · cases hok
      exact hvms

/-- Two VMs with the defaults of the host. -/
def demoBatch : CreateVMBatchInput where
  owner := ascii "op"
  idempotencyKey := none
  requestHash := []
  reservationMode := .bestEffort
  onFailure := ascii "keep_successful"
  members := [ascii "v1", ascii "v2"].map fun vmID =>
    demoManager.newVM (demoRequest 0).vm demoTemplate vmID []

theorem atomic_iff_bestEffort_demo : AdmitsEvery (Registry.empty.processBestEffortBatch 1 demoBatch
    (demoManager.admitBatch (fun _ => .error []) demoBatch.members)) := by
  refine (atomic_iff_bestEffort demoManager 8 (.error []) .empty 1 demoBatch ⟨[], 0, 0, 0, 0⟩
    (fun reserved requested => ?_) ?_ ⟨⟨?_, ?_, ?_, ?_⟩, ⟨?_, ?_, ?_, ?_⟩, ⟨?_, ?_, ?_, ?_⟩⟩).1.1
    ⟨_, _, rfl, forall_mem_cons.2 ⟨⟨_, _, rfl⟩, forall_mem_singleton.2 ⟨_, _, rfl⟩⟩⟩
  · show decide (reserved + requested ≤ 8) = true ↔ _
    rw [decide_eq_true_iff]
    exact_mod_cast Iff.rfl
  · simp [reservationTotals, Registry.empty, heldRows, computeColumn, diskColumn, sumColumn]
  all_goals decide +kernel

end Observatory.Runtime.BatchModes
