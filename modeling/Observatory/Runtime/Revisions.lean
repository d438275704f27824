/-
# Stale revisions

A call can pin the revision its caller read. The pin is checked by the first transition the call
makes; where an action calls the host before that, or resumes what another call began, nothing
checks it. Away from those cases a call whose pin is stale does nothing at all.
-/
import Observatory.Runtime.Capacity

namespace Observatory.Runtime

open Lib Store Function List

/-- The VM of a call that pins a revision, and the revision. -/
def Job.pin : Job → Option (Bytes × Int)
  | .action v _ (some n) => some (v, n)
  | .delete v _ (some n) => some (v, n)
  | _ => none

/-- The calls that reach the host before a transition checks their pin, by the state they read. -/
def Job.pinUnchecked : Job → VMState → Bool
  | .action _ .pause _, .running => true
  | .action _ .resume _, .paused => true
  | .action _ .stop _, .stopping => true
  | .action _ .forceStop _, .stopping => true
  | .delete _ force _, .stopping => force
  | .delete _ _ _, .deleting => true
  | _, _ => false

/-! ## The protocol of a pinned call -/

/-- The calls that have no effect on a row whose revision differs from the pin. -/
def Call.idle (v : Bytes) (n : Int) : Call → Prop
  | .store (.transitionVM inp) => inp.vmID = v ∧ inp.expectedRevision = some n
  | .store (.getVM _) | .store (.getReservation _) | .store (.insertActionOperation _) => True
  | .store _ => False
  | .host _ => False
  | .manager (.goTracked _) => False
  | .manager _ => True

/-- The state says whether the VM was read; it is `none` once the pin was found to be current, or
the state to be one where it is not checked. -/
def pinned (j : Job) : Protocol Call Call.Reply (Option Bool) where
  guarantee g c :=
    match g, j.pin with
    | some _, some (v, n) => c.idle v n
    | _, _ => True
  rely _ _ _ := True
  next g c r :=
    match g with
    | none => none
    | some b =>
      match c, r with
      | .store (.transitionVM _), .ok _ => none
      | .store (.transitionVM _), .error err => if isInvalidTransition err then none else some b
      | .store (.getVM _), .ok vm =>
        if b = false ∧ j.pinUnchecked vm.observedState then none else some true
      | .store (.getVM _), .error _ => some true
      | _, _ => some b

namespace Revisions

variable {j : Job} {g : Option Bool} {b : Bool} {v : Bytes} {n : Int} {α : Type}

variable {force : Bool} {c : Call} {Φ : Option Bool → Except ManagerError VM → Prop} {vm : VM}
  {r : c.Reply}

@[simp] lemma guarantee_lost : (pinned j).guarantee none c := trivial

@[simp] lemma guarantee_some : (pinned j).guarantee (some b) c =
    match j.pin with
    | some (v, n) => c.idle v n
    | none => True := by
  rcases h : j.pin with _ | ⟨v, n⟩ <;> simp [pinned, h]

lemma guarantee_of_idle (h : ∀ v n, c.idle v n) : (pinned j).guarantee g c := by
  simp only [pinned]
  split
  · exact h _ _
  · trivial

@[simp] lemma rely_eq : (pinned j).rely g c r = True := rfl

@[simp] lemma next_lost : (pinned j).next none c r = none := rfl

@[simp] lemma next_some : (pinned j).next (some b) c r =
    match c, r with
    | .store (.transitionVM _), .ok _ => none
    | .store (.transitionVM _), .error err => if isInvalidTransition err then none else some b
    | .store (.getVM _), .ok vm =>
      if b = false ∧ j.pinUnchecked vm.observedState then none else some true
    | .store (.getVM _), .error _ => some true
    | _, _ => some b := rfl

/-- A thread that is not held to anything any more. -/
lemma wp_lost {p : M α} {Φ : Option Bool → α → Prop} (h : ∀ a, Φ none a) :
    p.wp (pinned j) none Φ :=
  Prog.wp_of_uses p.uses_true (fun _ _ => ⟨trivial, fun _ => rfl⟩) h

attribute [local simp] Call.idle

lemma wp_failAction {cause : ManagerError} (h : ∀ g a, Φ g a) :
    (failAction v cause).wp (pinned j) g Φ := by
  rcases g with _ | b
  · exact wp_lost (h none)
  · rcases hpin : j.pin with _ | ⟨u, n⟩ <;> simp [failAction, hpin, h]

lemma wp_doAction {a : Action} (h : ∀ g a, Φ g a)
    (hchecked : Job.pinUnchecked (.action v a (some n)) vm.observedState = false) :
    (doAction v vm a (some n)).wp (pinned (.action v a (some n))) (some true) Φ := by
  cases a
  all_goals
    simp [doAction, doStart, doPause, doResume, doStop, Job.pin, wp_failAction, wp_lost, h]
  -- what is left are the states in which the action begins with the host
  all_goals
    intro hstate
    rw [hstate] at hchecked
    cases hchecked

lemma wp_finishDelete (h : ∀ g a, Φ g a)
    (hdown : vm.observedState = .failed ∨ vm.observedState = .stopped) :
    (finishDelete v vm (some n) false).wp (pinned (.delete v force (some n))) (some true) Φ := by
  simp [finishDelete, hdown, Job.pin, wp_lost, h]

lemma wp_doDelete (h : ∀ g a, Φ g a)
    (hchecked : Job.pinUnchecked (.delete v force (some n)) vm.observedState = false)
    (hstate : vm.observedState ≠ .deleted) :
    (doDelete v vm force (some n)).wp (pinned (.delete v force (some n))) (some true) Φ := by
  simp +contextual [doDelete, Job.pin, wp_lost, h]
  cases hst : vm.observedState <;> simp_all [VMState.live, Job.pinUnchecked, wp_finishDelete]

lemma wp_action {a : Action} :
    (action v a (some n)).wp (pinned (.action v a (some n))) (some false) fun _ _ => True := by
  simp [action, withClaim, Job.pin]
  intro vm
  by_cases hchecked : Job.pinUnchecked (.action v a (some n)) vm.observedState = true
  · simp [hchecked, wp_lost]
  · have hclaim : ∀ g, (pinned (.action v a (some n))).guarantee g
        (.manager (.releaseClaim v)) := fun g => guarantee_of_idle fun _ _ => trivial
    simp only [Bool.not_eq_true] at hchecked
    simp [hchecked, Job.pin, wp_doAction, hclaim]

lemma wp_delete : (delete v force (some n)).wp (pinned (.delete v force (some n))) (some false)
      fun _ _ => True := by
  simp [delete, withClaim, Job.pin]
  intro vm
  by_cases hchecked : Job.pinUnchecked (.delete v force (some n)) vm.observedState = true
  · simp [hchecked, wp_lost]
  · have hend : ∀ g, (pinned (.delete v force (some n))).guarantee g
        (.manager (.endDelete v)) := fun g => guarantee_of_idle fun _ _ => trivial
    have hclaim : ∀ g, (pinned (.delete v force (some n))).guarantee g
        (.manager (.releaseClaim v)) := fun g => guarantee_of_idle fun _ _ => trivial
    simp only [Bool.not_eq_true] at hchecked
    refine ⟨fun _ => hclaim _, fun hstate => ?_⟩
    simp [hchecked, hstate, Job.pin, wp_doDelete, hclaim, hend]

lemma follows (j : Job) : j.prog.wp (pinned j) (some false) fun _ _ => True := by
  by_cases hpin : j.pin = none
  · refine Prog.wp_of_guarantee (fun g c => ?_) _
    rcases g with _ | b
    · trivial
    · simp [hpin]
  · rcases j with _ | _ | _ | _ | _ | ⟨v, a, _ | n⟩ | ⟨v, force, _ | n⟩ | _ | _ | _ | _ | _ | _ | _ | _
    all_goals first
      | exact absurd rfl hpin
      | exact wp_ignore.2 wp_action
      | exact wp_ignore.2 wp_delete

end Revisions

/-! ## Runs -/

/-- The VM of the call thread `i` runs is not at the revision the call pins, whenever the thread
makes a step. -/
def revisionDiffers (i : Nat) (s : ManagerPool) : ManagerMove → Bool
  | .step i' _ =>
    match s.next? i with
    | some (j, _) =>
      match j.pin with
      | some (v, n) => i' ≠ i || (s.world.row v).all fun vm => vm.revision ≠ n
      | none => true
    | none => true
  | _ => true

def Call.reads : Call → Bool
  | .store (.getVM _) => true
  | _ => false

def hasRead (s : ManagerPool) (i : Nat) : Bool := s.trace.any fun x => x.1 = i && x.2.1.reads

/-- When thread `i` first reads its VM, it is not in a state where the call's pin goes unchecked. -/
def pinChecked (i : Nat) (s : ManagerPool) : ManagerMove → Bool
  | .step i' _ =>
    match s.next? i with
    | some (j, .store (.getVM v)) =>
      i' ≠ i || hasRead s i || (s.world.row v).all fun vm => !j.pinUnchecked vm.observedState
    | _ => true
  | _ => true

abbrev RevisionDiffers (i : Nat) (s : ManagerPool) (a : ManagerMove) : Prop :=
  revisionDiffers i s a = true

abbrev StaleAndChecked (i : Nat) (s : ManagerPool) (a : ManagerMove) : Prop :=
  (revisionDiffers i s a && pinChecked i s a) = true

namespace Revisions

variable {γ : Nat → Option Bool} {s : ManagerPool} {i : Nat} {e : Env} {j : Job} {v : Bytes} {n : Int}

def discipline : Discipline lifecycle (Option Bool) where
  protocol := pinned
  init _ := some false
  idle := some false
  done _ := True
  jobs _ := True
  done_idle := trivial
  follows j _ := follows j

/-- What every run keeps: the trace is of the threads that are there, and thread `i`, if it runs a
pinned call, has found nothing that frees it from the pin. -/
structure Inv (i : Nat) (γ : Nat → Option Bool) (s : ManagerPool) : Prop where
  trace : ∀ x ∈ s.trace, x.1 < s.threads.length
  state : ∀ {j : Job} {c : Call} {k : c.Reply → M Unit}, s.threads[i]? = some (j, .call c k) →
    j.pin.isSome = true → γ i = some (hasRead s i)

variable {c : Call} {w : World} {r : c.Reply} {k : c.Reply → M Unit}

lemma differs (hp : RevisionDiffers i s (.step i e))
    (hthread : s.threads[i]? = some (j, .call c k)) (hpin : j.pin = some (v, n)) :
    ∀ vm, s.world.row v = some vm → vm.revision ≠ n := by
  intro vm hrow
  simpa [RevisionDiffers, revisionDiffers, Pool.next?_eq_some hthread, hpin, hrow] using hp

lemma checked (hp : pinChecked i s (.step i e) = true) {u : Bytes}
    {k : (Call.store (.getVM u)).Reply → M Unit}
    (hthread : s.threads[i]? = some (j, .call (.store (.getVM u)) k)) (hread : hasRead s i = false) :
    ∀ vm, s.world.row u = some vm → j.pinUnchecked vm.observedState = false := by
  intro vm hrow
  simpa [pinChecked, Pool.next?_eq_some hthread, hread, hrow] using hp

lemma hasRead_called {k : Nat} {f : c.Reply → M Unit} :
    hasRead (s.called k j c f w r) i = (hasRead s i || (k = i && c.reads)) := by
  simp [hasRead, Pool.called]

lemma hasRead_of_length_le (h : ∀ x ∈ s.trace, x.1 < s.threads.length)
    (hi : s.threads.length ≤ i) : hasRead s i = false := by
  refine any_eq_false.2 fun x hx => ?_
  have := h x hx
  have hne : ¬ x.1 = i := by omega
  simp [hne]

/-- A pinned transition of a VM that has moved on is refused, and not as an invalid one. -/
lemma transition_stale {w' : World} {inp : TransitionInput} {r : Except VMError VM}
    (hpin : inp.expectedRevision = some n)
    (hdiffers : ∀ vm, w.row inp.vmID = some vm → vm.revision ≠ n)
    (hexec : Call.exec w (.store (.transitionVM inp)) e = some (w', r)) :
    ∃ err, r = .error err ∧ isInvalidTransition err = false := by
  obtain ⟨err, herr, hvalid⟩ : ∃ err, transitionVM w.tables.vms inp e.admitted = .error err ∧
      ∀ frm dest, err ≠ .invalidTransition frm dest := transitionVM_stale hpin hdiffers
  simp only [Call.exec, StoreCall.exec, Option.some.injEq, Prod.mk.injEq] at hexec
  rw [← hexec.2, herr]
  unfold commit
  split_ifs
  · exact ⟨_, rfl, rfl⟩
  · refine ⟨err, rfl, ?_⟩
    cases err with
    | invalidTransition frm dest => exact absurd rfl (hvalid frm dest)
    | _ => rfl

attribute [local simp] Call.reads

lemma next_eq (hp : StaleAndChecked i s (.step i e))
    (hthread : s.threads[i]? = some (j, .call c k)) (hpin : j.pin = some (v, n))
    (hidle : c.idle v n) (hexec : Call.exec s.world c e = some (w, r)) :
    (pinned j).next (some (hasRead s i)) c r = some (hasRead s i || c.reads) := by
  obtain ⟨hdiffers, hchecked⟩ := Bool.and_eq_true_iff.1 hp
  rcases c with c | c | c
  · cases c with
    | transitionVM inp =>
      obtain ⟨rfl, hrev⟩ := hidle
      obtain ⟨err, rfl, hvalid⟩ := transition_stale hrev (differs hdiffers hthread hpin) hexec
      simp [hvalid]
    | getVM u =>
      rcases r with err | vm
      · simp
      · cases hread : hasRead s i with
        | true => simp
        | false =>
          simp [checked hchecked hthread hread vm (row_of_getVM hexec)]
    | _ => simp
  · exact hidle.elim
  · simp

lemma Inv.add (h : Inv i γ s) (j : Job) :
    Inv i (update γ s.threads.length (some false)) (lifecycle.add s j) := by
  refine ⟨fun x hx => ?_, fun hthread hpin => ?_⟩
  · have := h.trace x hx
    simp only [System.add, length_append]
    omega
  · rcases System.add_thread hthread with ⟨hne, hold⟩ | ⟨rfl, -, -⟩
    · rw [update_of_ne hne]
      exact h.state hold hpin
    · rw [update_self]
      exact congrArg some (hasRead_of_length_le h.trace le_rfl).symm

lemma Inv.crashed (h : Inv i γ s) :
    Inv i (fun _ => some false) (lifecycle.crashed s) := by
  refine ⟨fun x hx => ?_, fun hthread => ?_⟩
  · simpa [System.crashed] using h.trace x hx
  · simp [System.crashed] at hthread

lemma Inv.called (h : Inv i γ s) {i' : Nat} (hp : StaleAndChecked i s (.step i' e))
    (hthread : s.threads[i']? = some (j, .call c k)) (hguarantee : (pinned j).guarantee (γ i') c)
    (hexec : Call.exec s.world c e = some (w, r)) :
    Inv i (update γ i' ((pinned j).next (γ i') c r)) (s.called i' j c k w r) := by
  refine ⟨fun x hx => ?_, fun {j' c' k'} hthread' hpin => ?_⟩
  · simp only [Pool.called, mem_append, mem_singleton, length_set] at hx ⊢
    rcases hx with hx | rfl
    · exact h.trace x hx
    · exact (List.getElem?_eq_some_iff.1 hthread).1
  · rw [hasRead_called]
    rcases Pool.called_thread hthread hthread' with ⟨hne, hold⟩ | ⟨rfl, rfl, -⟩
    · rw [update_of_ne hne]
      simp [h.state hold hpin, Ne.symm hne]
    · obtain ⟨⟨v, n⟩, hvn⟩ := Option.isSome_iff_exists.1 hpin
      have hstate := h.state hthread hpin
      have hidle : c.idle v n := by simpa [hstate, hvn] using hguarantee
      rw [update_self, hstate, next_eq hp hthread hvn hidle hexec]
      simp

lemma keeps (i : Nat) : discipline.Keeps (StaleAndChecked i) (Inv i) where
  start _ hinv _ _ := ⟨trivial, hinv.add _⟩
  crash hinv _ _ := by
    have hadd := hinv.crashed.add
    rw [System.crashed_length] at hadd
    exact ⟨trivial, hadd _⟩
  step _ hinv hp hthread hguarantee hexec := by
    have hcalled := hinv.called hp hthread hguarantee hexec
    refine ⟨trivial, hcalled, fun j' _ => ⟨trivial, ?_⟩⟩
    have hadd := hcalled.add j'
    rwa [Pool.called_length] at hadd

end Revisions

end Observatory.Runtime
