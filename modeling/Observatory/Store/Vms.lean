/-
# The VM registry

One row per VM: where it is in its life, on which boot, and what it still holds of the host's
capacity. Rows move only along the edges of the state machine, by `transitionVM`; a call can
pin the revision and the state it read the row in. The reservation and the cleanup marker of
a VM live in tables of their own, keyed by the VM; here they are fields of its row.
-/
import Observatory.Store.Query

namespace Observatory.Store

open Lib

/-! ## States -/

inductive VMState where
  | provisioning | starting | running | paused | stopping | stopped | failed | deleting | deleted
deriving DecidableEq

/-- The edges of the state machine. -/
def validTransitions : VMState → List VMState
  | .provisioning => [.starting, .failed, .stopping]
  | .starting => [.running, .failed, .stopping]
  | .running => [.paused, .stopping, .failed]
  | .paused => [.running, .stopping, .failed]
  | .stopping => [.stopped, .failed]
  | .stopped => [.starting, .deleting]
  | .failed => [.deleting]
  | .deleting => [.deleted]
  | .deleted => []

def transitionAllowed (frm dest : VMState) : Bool := (validTransitions frm).contains dest

/-- The states of a VM that may hold a VMM. -/
def VMState.live : VMState → Bool
  | .provisioning | .starting | .running | .paused | .stopping => true
  | _ => false

/-! ## Rows -/

/-- One row of the registry, with the VM's reservation and its cleanup marker. -/
structure VM where
  vmID : Bytes
  desiredState : VMState
  observedState : VMState
  revision : Int
  /-- The boot the VM is on; none before its first. -/
  currentBootID : Option Nat
  /-- Memory and CPUs went back to the host. -/
  computeReleased : Bool
  /-- The disk went back too. -/
  released : Bool
  cleanupDebt : Bool
deriving DecidableEq

inductive VMError where
  | vmUnknown
  | revisionMismatch (current : Int)
  | invalidTransition (frm dest : VMState)
  | admissionRefusal
  | database

/-- What a transition asks for. -/
structure TransitionInput where
  vmID : Bytes
  expectedRevision : Option Int := none
  frm : Option VMState := none
  dest : VMState
  desiredState : Option VMState := none
  releaseCompute : Bool := false
  acquireCompute : Bool := false
  releaseAll : Bool := false
  bootID : Option Nat := none

/-- The row a transition leaves. -/
def TransitionInput.apply (inp : TransitionInput) (vm : VM) : VM where
  vmID := vm.vmID
  observedState := inp.dest
  desiredState := inp.desiredState.getD vm.desiredState
  revision := vm.revision + 1
  currentBootID := inp.bootID.or vm.currentBootID
  computeReleased :=
    if inp.releaseAll || inp.releaseCompute then true
    else if inp.acquireCompute then false
    else vm.computeReleased
  released := inp.releaseAll || vm.released
  -- every other destination supersedes the cleanup of a stop
  cleanupDebt := inp.dest = .stopped && vm.cleanupDebt

/-! ## Calls -/

def getVM (vms : List VM) (vmID : Bytes) : Option VM := Table.find VM.vmID vmID vms

/-- The row of a VM that was just admitted. -/
def VM.new (vmID : Bytes) : VM where
  vmID := vmID
  desiredState := .running
  observedState := .provisioning
  revision := 1
  currentBootID := none
  computeReleased := false
  released := false
  cleanupDebt := false

def insertVM (vms : List VM) (vmID : Bytes) : Except VMError (List VM) :=
  match Table.insert VM.vmID (VM.new vmID) vms with
  | none => .error .database
  | some vms' => .ok vms'

/-- Advance a VM's observed state: the revision is checked first, then the pin on the state it
was read in, then the edge, and at last whether the host can afford it. -/
def transitionVM (vms : List VM) (inp : TransitionInput) (admitted : Bool) :
    Except VMError (List VM × VM) :=
  match getVM vms inp.vmID with
  | none => .error .vmUnknown
  | some current =>
    if inp.expectedRevision.isSome ∧ inp.expectedRevision ≠ some current.revision then
      .error (.revisionMismatch current.revision)
    else if inp.frm.isSome ∧ inp.frm ≠ some current.observedState then
      .error (.invalidTransition current.observedState inp.dest)
    else if !transitionAllowed current.observedState inp.dest then
      .error (.invalidTransition current.observedState inp.dest)
    else if inp.acquireCompute && !admitted then .error .admissionRefusal
    else .ok (Table.modify VM.vmID inp.vmID inp.apply vms, inp.apply current)

def releaseVMReservations (vms : List VM) (vmID : Bytes) : List VM :=
  Table.modify VM.vmID vmID (fun vm =>
    if vm.observedState = .failed then { vm with computeReleased := true, released := true }
    else vm) vms

/-- Record that a cleanup did not complete; a stop that is done otherwise leaves a marker. -/
def recordCleanupFailure (vms : List VM) (vmID : Bytes) (state : VMState) : List VM :=
  Table.modify VM.vmID vmID (fun vm =>
    if state = .stopped ∧ (vm.observedState = .stopping ∨ vm.observedState = .stopped) then
      { vm with cleanupDebt := true }
    else vm) vms

def clearCleanupDebt (vms : List VM) (vmID : Bytes) : List VM :=
  Table.modify VM.vmID vmID (fun vm => { vm with cleanupDebt := false }) vms

/-- A page of rows after the row with number `after`; rows are numbered from 1 as inserted. -/
structure VMQuery where
  after : Nat := 0
  limit : Int
  states : List VMState := []
  includeStoppedCleanup : Bool := false

def VMQuery.wants (q : VMQuery) (vm : VM) : Bool :=
  q.states.isEmpty || q.states.contains vm.observedState ||
    (q.includeStoppedCleanup && vm.observedState = .stopped && vm.cleanupDebt)

/-- The rows of a page, each with its number; none when the limit is out of bounds. -/
def listVMs (vms : List VM) (q : VMQuery) : Option (List (Nat × VM)) :=
  let limit := if q.limit = 0 then defaultPageLimit else q.limit
  if limit < 0 ∨ maxPageLimit < limit then none
  else
    let numbered := vms.zipIdx.map fun (vm, i) => (i + 1, vm)
    some ((numbered.filter fun (n, vm) => q.after < n && q.wants vm).take limit.toNat)

/-! ## What a transition does -/

/-- A transition that is accepted: the row it found passed every check. -/
structure TransitionInput.Accepted (inp : TransitionInput) (vm : VM) (admitted : Bool) : Prop where
  revision : ∀ n, inp.expectedRevision = some n → n = vm.revision
  frm : ∀ st, inp.frm = some st → st = vm.observedState
  edge : transitionAllowed vm.observedState inp.dest = true
  afford : inp.acquireCompute = true → admitted = true

lemma pin_passes {α : Type} {pin : Option α} {x : α} (h : ¬ (pin.isSome = true ∧ pin ≠ some x)) :
    ∀ y, pin = some y → y = x := by
  rintro y rfl
  by_contra hne
  exact h ⟨rfl, fun heq => hne (Option.some.inj heq)⟩

variable {admitted : Bool} {vms : List VM} {inp : TransitionInput}

lemma transitionVM_ok {vms' : List VM} {vm : VM}
    (h : transitionVM vms inp admitted = .ok (vms', vm)) :
    ∃ current, getVM vms inp.vmID = some current ∧ inp.Accepted current admitted ∧
      vm = inp.apply current ∧ vms' = Table.modify VM.vmID inp.vmID inp.apply vms := by
  unfold transitionVM at h
  cases hget : getVM vms inp.vmID with
  | none => simp [hget] at h
  | some current =>
    simp only [hget] at h
    by_cases hrev : inp.expectedRevision.isSome = true ∧
        inp.expectedRevision ≠ some current.revision
    · simp [hrev] at h
    rw [if_neg hrev] at h
    by_cases hfrm : inp.frm.isSome = true ∧ inp.frm ≠ some current.observedState
    · simp [hfrm] at h
    rw [if_neg hfrm] at h
    by_cases hedge : transitionAllowed current.observedState inp.dest = true
    · by_cases hafford : (inp.acquireCompute && !admitted) = true
      · simp [hedge, hafford] at h
      · simp only [hedge, hafford, Bool.not_true, Bool.false_eq_true, if_false, Except.ok.injEq,
          Prod.mk.injEq] at h
        refine ⟨current, rfl, ⟨pin_passes hrev, pin_passes hfrm, hedge, ?_⟩, h.2.symm, h.1.symm⟩
        intro hacquire
        simpa [hacquire] using hafford
    · simp [hedge] at h

/-- The registry knows every VM a transition is refused for, but the one it does not find. -/
lemma transitionVM_error {e : VMError} (h : transitionVM vms inp admitted = .error e) :
    (e = .vmUnknown ∧ getVM vms inp.vmID = none) ∨
      ((∃ current, getVM vms inp.vmID = some current) ∧ e ≠ .vmUnknown ∧ e ≠ .database) := by
  unfold transitionVM at h
  cases hget : getVM vms inp.vmID with
  | none => exact .inl ⟨by simpa [hget, eq_comm] using h, rfl⟩
  | some current =>
    refine .inr ⟨⟨current, rfl⟩, ?_⟩
    simp only [hget] at h
    split_ifs at h <;> cases h <;> simp

/-- A stale pin is found out before anything else is checked. -/
lemma transitionVM_stale {n : Int} (hpin : inp.expectedRevision = some n)
    (hstale : ∀ vm, getVM vms inp.vmID = some vm → vm.revision ≠ n) :
    ∃ e, transitionVM vms inp admitted = .error e ∧ ∀ frm dest, e ≠ .invalidTransition frm dest := by
  unfold transitionVM
  cases hget : getVM vms inp.vmID with
  | none => exact ⟨.vmUnknown, rfl, by simp⟩
  | some current =>
    have hne : ¬ n = current.revision := fun heq => hstale current hget heq.symm
    exact ⟨.revisionMismatch current.revision, by simp [hpin, hne], by simp⟩

@[simp] lemma apply_vmID (inp : TransitionInput) (vm : VM) : (inp.apply vm).vmID = vm.vmID := rfl

@[simp] lemma apply_observedState (inp : TransitionInput) (vm : VM) :
    (inp.apply vm).observedState = inp.dest := rfl

end Observatory.Store
