/-
# Reservations agree with states

The flags of a VM's reservation are set by optional arguments of the transitions, chosen at more
than ten places, and by one direct update of failed rows. Every place keeps to one discipline
(`TransitionInput.Disciplined`), and a direct update follows a release by the host; so in every
reachable state the flags of a row agree with where the row is.
-/
import Observatory.Runtime.Rows

namespace Observatory.Store

/-- The flags of a transition fit its destination. -/
@[mk_iff] structure TransitionInput.Disciplined (inp : TransitionInput) : Prop where
  releaseCompute : inp.releaseCompute = true → inp.dest = .stopped ∨ inp.dest = .failed
  releaseAll : inp.releaseAll = true ↔ inp.dest = .deleted
  starting : inp.dest = .starting → inp.frm = some .provisioning ∨ inp.acquireCompute = true
  acquireCompute : inp.acquireCompute = true → inp.dest = .starting

end Observatory.Store

namespace Observatory.Runtime

open Lib Store Function

/-! ## The discipline -/

/-- The state of a thread is the VM whose release by the host it has seen. The strict form is for
hosts that are there when the manager starts. -/
@[simps] def capacity (strict startup : Bool) : Protocol Call Call.Reply (Option Bytes) where
  guarantee g
    | .store (.transitionVM inp) =>
      inp.Disciplined ∧ (strict = true → inp.dest = .deleted → g = some inp.vmID)
    | .store (.releaseVMReservations v) => g = some v
    | _ => True
  rely _
    | .host (.release _), reply =>
      strict = true → startup = true → reply ≠ HostReply.unavailable
    | _, _ => True
  next g
    | .host (.release v), reply => if reply = HostReply.ok then some v else g
    | _, _ => g

namespace Capacity

variable {strict startup : Bool} {g : Option Bytes} {v : Bytes} {α : Type}

variable {c : Call} {Φ : Option Bytes → Unit → Prop}

attribute [simp] TransitionInput.disciplined_iff

lemma wp_hook {p : M α} {Φ : Option Bytes → α → Prop} (hp : p.Uses Call.ofHook)
    (h : ∀ a, Φ g a) : p.wp (capacity strict startup) g Φ := by
  refine Prog.wp_of_uses hp (fun c hc => ?_) h
  rcases c with c | c | c <;> cases c <;> simp_all [Call.ofHook]

@[simp] lemma wp_onVMTerminal (h : Φ g ()) :
    (onVMTerminal v).wp (capacity strict startup) g Φ := wp_hook (uses_concludeActive v _) fun _ => h

@[simp] lemma wp_onVMLaunchFailed (h : Φ g ()) :
    (onVMLaunchFailed v).wp (capacity strict startup) g Φ := wp_hook (uses_concludeActive v _) fun _ => h

@[simp] lemma wp_onVMRunning (h : Φ g ()) :
    (onVMRunning v).wp (capacity strict startup) g Φ := wp_hook (uses_onVMRunning v) fun _ => h

@[simp] lemma wp_failLaunch {stage : LaunchStage} (h : Φ g ()) :
    (failLaunch v stage).wp (capacity strict startup) g Φ := by
  simp [failLaunch, failLaunchRelease, h]

lemma wp_enqueue {job : Job} (h : Φ g ()) : (enqueue v job).wp (capacity strict startup) g Φ := by
  simp [enqueue, h]

lemma wp_action {a : Action} {rev : Option Int} :
    (action v a rev).wp (capacity strict startup) g fun _ _ => True := by
  cases a <;> simp [action, withClaim, doAction, doStart, doPause, doResume, doStop, finishStop,
    hostStop, settleAction, failAction, recordDebt, lifecycleHook]

@[simp] lemma wp_releaseForDelete {Φ : Option Bytes → Except ManagerError VM → Prop}
    (h : ∀ g a, Φ g a) : (releaseForDelete v).wp (capacity strict startup) g Φ := by
  simp [releaseForDelete, forall_hostReply, h]

lemma wp_delete {force : Bool} {rev : Option Int} :
    (delete v force rev).wp (capacity strict startup) g fun _ _ => True := by
  simp [delete, withClaim, doDelete, forceStopForDelete, forceStopForDelete.reread, finishDelete,
    forceStopOr]

lemma wp_notifyVMMExit {b : Option Nat} {graceful : Bool} :
    (notifyVMMExit v b graceful).wp (capacity strict startup) g fun _ _ => True := by
  cases graceful <;> simp [notifyVMMExit, withClaim, settleExit]

lemma wp_stopVMAfterRun : (stopVMAfterRun v).wp (capacity strict startup) g fun _ _ => True := by
  simp [stopVMAfterRun, stopAtAnyRate]

@[simp] lemma wp_stopMember {attempts : Nat} (h : Φ g ()) :
    (stopMember v attempts).wp (capacity strict startup) g Φ := by
  induction attempts with
  | zero => simpa [stopMember] using h
  | succ n ih => simp [stopMember, stopMemberHost, recordDebt, ih, h]

@[simp] lemma wp_stopMembers {failed : Bytes} {members : List Bytes} (h : Φ g ()) :
    (stopMembers failed members).wp (capacity strict startup) g Φ := by
  induction members generalizing Φ with
  | nil => simpa [stopMembers] using h
  | cons m ms ih =>
    refine (Prog.wp_ite _ _ _).2 ⟨fun _ => ih h, fun _ => ?_⟩
    simp [h, ih]

lemma wp_launchMember {coord : BatchCoord} :
    (launchMember coord v).wp (capacity strict startup) g fun _ _ => True := by
  simp [launchMember, launchUnlessStopped, runBatchMemberLaunch, launchSequence, stopSiblings]

@[simp] lemma wp_retryRelease {vm : VM} :
    (retryRelease v vm).wp (capacity strict startup) g fun _ _ => True := by
  simp [retryRelease, retryStopped, retryDelete, recordRetryFailure, forall_hostReply]

lemma wp_retryVM : (retryVM v).wp (capacity strict startup) g fun _ _ => True := by
  simp [retryVM, retryStop, retryStopped, recordRetryFailure]

lemma wp_reconcileVM {cfg : Startup} {vm : VM} :
    (reconcileVM cfg vm).wp (capacity strict true) g fun _ _ => True := by
  unfold reconcileVM
  split <;> simp +contextual [reconcileLaunch, reconcileLive, reconcileStopping,
    finishAdoptedStop, reconcileDeleting, finishReconciledDelete, tolerated, forall_hostReply]

lemma wp_reconcileRun {run : Run} : (reconcileRun run).wp (capacity strict startup) g fun _ _ => True := by
  have hconclude : ∀ g, (concludeRun run.runID .interrupted).wp (capacity strict startup) g fun _ _ => True :=
    fun g => wp_hook (uses_concludeRun _ _) fun _ => trivial
  simp [reconcileRun, hconclude]

/-- Every program keeps to the discipline. -/
lemma follows (j : Job) : j.prog.wp (capacity strict j.boot) none fun _ _ => True := by
  cases j with
  | createVM v run => simp [Job.prog, createVM, enqueueLaunch, wp_enqueue]
  | launch v => simp [Job.prog, launch, runLaunch, launchSequence]
  | createBatch members mode onFailure =>
    exact wp_ignore.2 (wp_createBatch (by simp) (by simp) (by simp) fun _ _ _ => wp_enqueue trivial)
  | launchMember coord v => exact wp_launchMember
  | stopSiblings coord v => simp [Job.prog, stopSiblings]
  | action v a rev => exact wp_ignore.2 wp_action
  | delete v force rev => exact wp_ignore.2 wp_delete
  | notifyVMMExit v b graceful => exact wp_ignore.2 wp_notifyVMMExit
  | stopVMAfterRun v => exact wp_stopVMAfterRun
  | retryCleanup =>
    exact wp_ignore.2 (wp_retryCleanup (by simp) (by simp) fun _ _ => wp_retryVM)
  | reconcile cfg =>
    exact wp_ignore.2 (wp_reconcile (by simp) (by simp) (by simp) (fun _ _ => wp_reconcileVM)
      fun _ _ => wp_reconcileRun)
  | createRun row => simp [Job.prog, createRun]
  | submitRunResult r status => simp [Job.prog, submitRunResult]
  | concludeRun r t => exact wp_ignore.2 (wp_hook (uses_concludeRun r t) fun _ => trivial)
  | concludeByOperator r verdict abort =>
    exact wp_ignore.2 (wp_hook (uses_concludeByOperator r verdict abort) fun _ => trivial)

end Capacity

/-! ## The flags of a row -/

/-- The flags of a row agree with its state; `gone` says that the host released the VM. -/
structure Accounted (gone : Prop) (vm : VM) : Prop where
  live : vm.observedState.live = true → vm.computeReleased = false
  disk : vm.observedState ≠ .deleted → vm.released = true →
    (vm.observedState = .failed ∨ vm.observedState = .deleting) ∧ gone
  deleted : vm.observedState = .deleted → vm.computeReleased = true ∧ vm.released = true

variable {gone gone' : Prop} {vm : VM}

lemma Accounted.mono (h : Accounted gone vm) (himp : gone → gone') : Accounted gone' vm :=
  ⟨h.live, fun hnot hrel => (h.disk hnot hrel).imp_right himp, h.deleted⟩

lemma accounted_new (v : Bytes) : Accounted gone (VM.new v) :=
  ⟨fun _ => rfl, fun _ h => absurd h (by simp [VM.new]), nofun⟩

lemma Accounted.transition {inp : TransitionInput} {admitted : Bool} (h : Accounted gone vm)
    (hinp : inp.Disciplined) (haccepted : inp.Accepted vm admitted) :
    Accounted gone (inp.apply vm) := by
  obtain ⟨hcompute, hall, hstarting, hacquire⟩ := hinp
  have hedge := haccepted.edge
  have hfrom : inp.dest = .starting →
      vm.observedState = .provisioning ∨ inp.acquireCompute = true := fun hdest =>
    (hstarting hdest).imp_left fun hfrm => (haccepted.frm _ hfrm).symm
  clear hstarting haccepted
  obtain ⟨hlive, hdisk, hdeleted⟩ := h
  constructor
  · -- a live destination: starting takes compute back, the others come from live states
    intro hnew
    simp only [TransitionInput.apply] at hnew ⊢
    cases hold : vm.observedState <;> cases hdest : inp.dest <;>
      simp_all [transitionAllowed, validTransitions, VMState.live]
  · intro hnot hrel
    simp only [TransitionInput.apply] at hnot hrel ⊢
    cases hold : vm.observedState <;> cases hdest : inp.dest <;>
      simp_all [transitionAllowed, validTransitions]
  · intro hdest
    simp only [TransitionInput.apply] at hdest ⊢
    simp_all

def ReleaseReturned (s : ManagerPool) (v : Bytes) : Prop :=
  ∃ i, (i, ⟨Call.host (.release v), HostReply.ok⟩) ∈ s.trace

namespace Capacity

/-- What every run keeps: the rows are accounted for, and a thread that relies on a release has
seen it. -/
structure Inv (γ : Nat → Option Bytes) (s : ManagerPool) : Prop where
  rows : ∀ v vm, s.world.row v = some vm → Accounted (ReleaseReturned s v) vm
  seen : ∀ i v, γ i = some v → ReleaseReturned s v

def discipline (strict : Bool) : Discipline lifecycle (Option Bytes) where
  protocol j := capacity strict j.boot
  init _ := none
  idle := none
  done _ := True
  jobs _ := True
  done_idle := trivial
  follows j _ := follows j

variable {c : Call} {s : ManagerPool} {r : c.Reply}

lemma releaseReturned_called {v : Bytes} {i : Nat} {j : Job} {k : c.Reply → M Unit} {w : World}
    (h : ReleaseReturned s v) :
    ReleaseReturned (s.called i j c k w r) v := by
  obtain ⟨i', hi'⟩ := h
  exact ⟨i', List.mem_append_left _ hi'⟩

lemma next_cases {g : Option Bytes} {v : Bytes} (h : (capacity strict startup).next g c r = some v) :
    g = some v ∨ (⟨c, r⟩ : (c : Call) × c.Reply) = ⟨.host (.release v), HostReply.ok⟩ := by
  rcases c with c | c | c
  · exact .inl h
  · cases c with
    | release u =>
      simp only [capacity_next] at h
      split_ifs at h with hok
      · obtain rfl := Option.some.inj h
        exact .inr (by rw [← hok])
      · exact .inl h
    | _ => exact .inl h
  · exact .inl h

/-- A new thread has seen nothing yet. -/
lemma Inv.add {γ : Nat → Option Bytes} (h : Inv γ s) (n : Nat) (j : Job) :
    Inv (update γ n none) (lifecycle.add s j) := by
  refine ⟨h.rows, fun i v hi => h.seen i v ?_⟩
  by_cases hin : i = n
  · rw [hin, update_self] at hi
    cases hi
  · rwa [update_of_ne hin] at hi

lemma Inv.called {γ : Nat → Option Bytes} (h : Inv γ s) {i : Nat} {j : Job} {k : c.Reply → M Unit}
    {w : World} {e : Env} (hc : (capacity strict startup).guarantee (γ i) c)
    (hexec : Call.exec s.world c e = some (w, r)) :
    Inv (update γ i ((capacity strict startup).next (γ i) c r)) (s.called i j c k w r) := by
  constructor
  · intro v vm hrow
    have hcase := rowCase hexec v
    rw [show w.row v = some vm from hrow] at hcase
    generalize hold : s.world.row v = old at hcase
    have hmono : ReleaseReturned s v → ReleaseReturned (s.called i j c k w r) v :=
      releaseReturned_called
    cases hcase with
    | same => exact (h.rows v vm hold).mono hmono
    | marked _ debt =>
      have hbefore := (h.rows v _ hold).mono hmono
      exact ⟨hbefore.live, hbefore.disk, hbefore.deleted⟩
    | created => exact accounted_new v
    | released hfailed =>
      -- the direct update: this thread has seen the release
      have hseen := hmono (h.seen i v hc)
      refine ⟨fun hlive => ?_, fun _ _ => ⟨.inl hfailed, hseen⟩, fun _ => ⟨rfl, rfl⟩⟩
      rw [show VMState.live _ = VMState.live .failed from congrArg VMState.live hfailed] at hlive
      cases hlive
    | moved hv haccepted => exact ((h.rows v _ hold).mono hmono).transition hc.1 haccepted
  · intro i' v hi'
    by_cases hii : i' = i
    · subst hii
      rw [update_self] at hi'
      rcases next_cases hi' with hold | hnew
      · exact releaseReturned_called (h.seen i' v hold)
      · exact ⟨i', List.mem_append_right _ (List.mem_singleton.2 (by rw [hnew]))⟩
    · rw [update_of_ne hii] at hi'
      exact releaseReturned_called (h.seen i' v hi')

lemma keeps : (discipline false).Keeps (fun _ _ => True) Inv where
  start _ hinv _ _ := ⟨trivial, hinv.add _ _⟩
  crash hinv _ _ :=
    ⟨trivial, Inv.add (s := lifecycle.crashed _) ⟨hinv.rows, fun _ _ h => by cases h⟩ _ _⟩
  step _ hinv _ _ hc hexec := by
    refine ⟨?_, hinv.called hc hexec, fun _ _ => ⟨trivial, (hinv.called hc hexec).add _ _⟩⟩
    simp only [discipline, capacity_rely]
    split <;> simp

end Capacity

/-- **Live rows count against capacity.**  In every state the manager reaches, by any interleaving
of its calls with any errors and any crashes: a live row holds its compute; a row that is not
deleted holds its disk, unless it is failed or on its way from there to `deleted`, and then the
host's release was answered with nil; a deleted row holds nothing. -/
theorem live_rows_hold_capacity {as : List ManagerMove} {s : ManagerPool}
    (hrun : run lifecycle.step (Pool.quiet World.new) as = some s) (v : Bytes) (vm : VM)
    (hrow : s.world.row v = some vm) : Accounted (ReleaseReturned s v) vm := by
  have hinit : Capacity.Inv (fun _ => none) (Pool.quiet World.new) :=
    ⟨fun v vm h => (by cases h), fun i v h => (by cases h)⟩
  obtain ⟨γ, -, hinv⟩ := Capacity.keeps.run_coupled
    ⟨_, Discipline.coupled_quiet World.new, hinit⟩ (along_of_forall (fun _ _ => trivial) _ _) hrun
  exact hinv.rows v vm hrow

/-- The calls of one thread, all going well. -/
def calls (i n : Nat) : List ManagerMove := List.replicate n (.step i {})

/-- A VM whose launch fails, whose cleanup is retried, and which is then deleted, up to the row's
transition to `deleting`. -/
def deleteAfterRetry (v : Bytes) : List ManagerMove :=
  (Move.start (.createVM v none) :: calls 0 4) ++
    (calls 1 3 ++ .step 1 { launch := .failed } :: calls 1 4) ++
    (.start .retryCleanup :: calls 2 16) ++
    .start (.delete v false none) :: calls 3 4

lemma deleteAfterRetry_row :
    ∃ s vm, run lifecycle.step (Pool.quiet World.new) (deleteAfterRetry [1]) = some s ∧
      s.world.row [1] = some vm ∧ vm.observedState = .deleting ∧ vm.released = true := by
  have h : ((run lifecycle.step (Pool.quiet World.new) (deleteAfterRetry [1])).bind
      fun s => (s.world.row [1]).map fun vm => (vm.observedState, vm.released)) =
        some (.deleting, true) := by decide +kernel
  obtain ⟨s, hs, hrow⟩ := Option.bind_eq_some_iff.1 h
  obtain ⟨vm, hvm, heq⟩ := Option.map_eq_some_iff.1 hrow
  exact ⟨s, vm, hs, hvm, (Prod.mk.inj heq).1, (Prod.mk.inj heq).2⟩

/-- A row that is on its way from `failed` to `deleted` has given its disk back already. -/
theorem disk_released_while_deleting :
    ∃ as s vm, run lifecycle.step (Pool.quiet World.new) as = some s ∧
      s.world.row [1] = some vm ∧ vm.observedState = .deleting ∧ vm.released = true := by
  obtain ⟨s, vm, hrun, hrow⟩ := deleteAfterRetry_row
  exact ⟨_, s, vm, hrun, hrow⟩

theorem live_rows_hold_capacity_deleteAfterRetry :
    ∃ s vm, run lifecycle.step (Pool.quiet World.new) (deleteAfterRetry [1]) = some s ∧
      s.world.row [1] = some vm ∧ Accounted (ReleaseReturned s [1]) vm := by
  obtain ⟨s, vm, hrun, hrow, -⟩ := deleteAfterRetry_row
  exact ⟨s, vm, hrun, hrow, live_rows_hold_capacity hrun [1] vm hrow⟩

end Observatory.Runtime
