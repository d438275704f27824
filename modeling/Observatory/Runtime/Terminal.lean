/-
# No VMM behind a terminal row

A launch writes `starting`, calls the host, and writes `running`. A stop or a delete that gets in
between the first two finds nothing to stop, and the VMM that is created afterwards is nobody's.
While that does not happen, every VMM whose row says that it is being stopped, or is down, is the
duty of a thread that is about to stop it.
-/
import Observatory.Runtime.LiveRuns

namespace Observatory.Runtime

open Lib Store Function Call

/-! ## The discipline -/

/-- Where a thread is between a row and its VMM. -/
inductive Hold where
  | idle
  /-- The row was moved to `starting`: the next call is the launch. -/
  | launching (vmID : Bytes)
  | launched (vmID : Bytes)
  /-- The row was moved to `stopping`: the next call stops the VMM. -/
  | stopping (vmID : Bytes)

/-- The calls of a thread that holds nothing. -/
def Call.unheld : Call → Prop
  | .store (.transitionVM inp) => inp.dest = .failed → inp.frm = some .provisioning
  | .host (.launch _ _) | .host (.observeExit _ _) => False
  | .manager (.goTracked job) =>
    (∃ v, job = .stopVMAfterRun v) ∨ (∃ v, job = .launch v) ∨ ∃ coord v, job = .launchMember coord v
  | _ => True

def Hold.permits : Hold → Call → Prop
  | .idle, c => c.unheld
  | .launching v, .host (.launch u _) => u = v
  | .launched v, .store (.transitionVM inp) =>
    inp.vmID = v ∧ inp.dest = .running ∧ inp.expectedRevision = none ∧ inp.acquireCompute = false
  | .stopping v, .host (.stop u) => u = v
  | .stopping v, .host (.forceStop u) => u = v
  | _, _ => False

/-- A transition that was accepted leaves its VM to the thread. -/
def Call.holds : (c : Call) → c.Reply → Hold
  | .store (.transitionVM inp), .ok _ =>
    if inp.dest = .starting then .launching inp.vmID
    else if inp.dest = .stopping ∧ inp.frm ≠ some .provisioning then .stopping inp.vmID
    else .idle
  | _, _ => .idle

def Hold.after : Hold → (c : Call) → c.Reply → Hold
  | .idle, c, reply => c.holds reply
  | .launching v, _, _ => .launched v
  | _, _, _ => .idle

/-- The host does what it is asked, and a VM that was launched is known to the store. -/
@[simps] def launches : Protocol Call Call.Reply Hold where
  guarantee := Hold.permits
  rely hold
    | .host (.launch _ _), reply => reply = LaunchReply.ok
    | .host (.stop _), reply | .host (.forceStop _), reply | .host (.release _), reply
    | .host (.pause _), reply | .host (.resume _), reply => reply = HostReply.ok
    | .store (.transitionVM _), .error err => (∃ v, hold = .launched v) → isInvalidTransition err = true
    | _, _ => True
  next := Hold.after

namespace Terminal

variable {hold : Hold} {v : Bytes} {α : Type}

variable {c : Call} {Φ : Hold → Unit → Prop} {rev : Option Int} {reply : c.Reply}

@[simp] lemma permits_idle : Hold.permits .idle c = c.unheld := rfl

@[simp] lemma after_idle : Hold.after .idle c reply = c.holds reply := rfl

lemma wp_of_hook {p : M α} (hp : p.Uses ofHook) {Φ : Hold → α → Prop} (h : ∀ a, Φ .idle a) :
    p.wp launches .idle Φ := by
  refine Prog.wp_of_uses hp (fun c hc => ?_) h
  rcases c with c | c | c
  · cases c <;> first | exact hc.elim | exact ⟨trivial, fun _ => rfl⟩
  · exact hc.elim
  · cases c with
    | goTracked job =>
      cases job with
      | stopVMAfterRun v => exact ⟨.inl ⟨v, rfl⟩, fun _ => rfl⟩
      | _ => exact hc.elim
    | _ => exact hc.elim

lemma wp_onVMRunning (h : Φ .idle ()) :
    (onVMRunning v).wp launches .idle Φ := wp_of_hook (uses_onVMRunning v) fun _ => h

lemma wp_concludeActive {trigger : ConcludeTrigger} (h : Φ .idle ()) :
    (concludeActive v trigger).wp launches .idle Φ :=
  wp_of_hook (uses_concludeActive v trigger) fun _ => h

attribute [local simp] Call.unheld.eq_def Call.holds.eq_def

lemma wp_failLaunch {stage : LaunchStage} (hstage : stage = .enqueue ∨ stage = .starting)
    (h : Φ .idle ()) : (failLaunch v stage).wp launches .idle Φ := by
  rcases hstage with rfl | rfl <;>
    simp [failLaunch, failLaunchRelease, onVMLaunchFailed, wp_concludeActive, h]

attribute [local simp] Hold.after Hold.permits

lemma wp_launchSequence {onFailed : M Unit}
    (hfailed : onFailed.wp launches .idle fun hold _ => hold = .idle) (h : Φ .idle ()) :
    (launchSequence v onFailed).wp launches .idle Φ := by
  have hfailed' : onFailed.wp launches .idle Φ := by
    refine Prog.wp_mono ?_ hfailed
    rintro hold - rfl
    exact h
  simp [launchSequence, wp_failLaunch, wp_onVMRunning, hfailed', h]
  -- a launched VM is in the registry: only a pin can refuse it
  intro _ err hinvalid hvalid
  simp [hinvalid] at hvalid

lemma wp_recordDebt {state : VMState} {debt : Bool} (h : Φ .idle ()) :
    (recordDebt v state debt).wp launches .idle Φ := by
  cases debt <;> simp [recordDebt, h]

lemma wp_failAction {cause : ManagerError} {Φ : Hold → Except ManagerError VM → Prop}
    (h : ∀ a, Φ .idle a) : (failAction v cause).wp launches .idle Φ := by
  simp [failAction, h]

lemma wp_settleAction {dest : VMState} {release debt : Bool}
    (hdest : dest = .paused ∨ dest = .running ∨ dest = .stopped)
    {Φ : Hold → Except ManagerError VM → Prop} (h : ∀ a, Φ .idle a) :
    (settleAction v rev dest release debt).wp launches .idle Φ := by
  rcases hdest with rfl | rfl | rfl <;>
    simp [settleAction, lifecycleHook, onVMTerminal, wp_recordDebt, wp_failAction, wp_onVMRunning,
      wp_concludeActive, h]

/-- A stop is called by the thread that moved the row to `stopping`, or by one that found it there. -/
lemma wp_finishStop {forced : Bool} (hhold : hold = .idle ∨ hold = .stopping v)
    {Φ : Hold → Except ManagerError VM → Prop} (h : ∀ a, Φ .idle a) :
    (finishStop v forced rev).wp launches hold Φ := by
  rcases hhold with rfl | rfl <;> cases forced <;>
    simp [finishStop, hostStop, HostReply.settled, wp_settleAction, h]

lemma wp_action {a : Action} : (action v a rev).wp launches .idle fun hold _ => hold = .idle := by
  cases a <;>
    simp [action, withClaim, doAction, doStart, doPause, doResume, doStop, wp_finishStop,
      wp_failAction, wp_settleAction, wp_onVMRunning]

lemma wp_releaseForDelete {Φ : Hold → Except ManagerError VM → Prop} (h : ∀ a, Φ .idle a) :
    (releaseForDelete v).wp launches .idle Φ := by
  simp [releaseForDelete, h]

lemma wp_finishDelete {vm : VM} {pin : Option Int} {signalled : Bool}
    {Φ : Hold → Except ManagerError VM → Prop} (h : ∀ a, Φ .idle a) :
    (finishDelete v vm pin signalled).wp launches .idle Φ := by
  simp [finishDelete, forceStopOr, wp_releaseForDelete, h]

lemma wp_forceStopForDelete {state : VMState} {pin : Option Int}
    (hhold : hold = .idle ∨ hold = .stopping v) {Φ : Hold → Except ManagerError VM → Prop}
    (h : ∀ a, Φ .idle a) : (forceStopForDelete v state pin).wp launches hold Φ := by
  rcases hhold with rfl | rfl <;>
    simp [forceStopForDelete, forceStopForDelete.reread, forceStopOr, wp_finishDelete, h]

lemma wp_delete {force : Bool} :
    (delete v force rev).wp launches .idle fun hold _ => hold = .idle := by
  simp [delete, withClaim, doDelete, wp_forceStopForDelete, wp_finishDelete]

lemma wp_stopVMAfterRun : (stopVMAfterRun v).wp launches .idle fun hold _ => hold = .idle := by
  simp [stopVMAfterRun, stopAtAnyRate]

lemma wp_stopMember {attempts : Nat} (h : Φ .idle ()) :
    (stopMember v attempts).wp launches .idle Φ := by
  induction attempts with
  | zero => exact h
  | succ attempts ih =>
    unfold stopMember
    rw [Prog.wp_bind, Prog.wp_perform]
    refine ⟨trivial, fun reply _ => ?_⟩
    rcases reply with err | vm
    · exact h
    -- a member without a VMM is not stopped on the host
    by_cases hprov : vm.observedState = .provisioning <;>
      simp [stopMemberHost, onVMTerminal, HostReply.settled, wp_recordDebt, wp_concludeActive,
        hprov, ih, h]

lemma wp_stopMembers {vs : List Bytes} (h : Φ .idle ()) :
    (stopMembers v vs).wp launches .idle Φ := by
  induction vs generalizing Φ with
  | nil => exact h
  | cons u vs ih =>
    simp [stopMembers, wp_stopMember, ih, h]

lemma wp_stopSiblings {coord : BatchCoord} :
    (stopSiblings coord v).wp launches .idle fun hold _ => hold = .idle := by
  simp [stopSiblings, wp_stopMembers]

lemma wp_launchMember {coord : BatchCoord} :
    (launchMember coord v).wp launches .idle fun hold _ => hold = .idle := by
  simp [launchMember, launchUnlessStopped, runBatchMemberLaunch, wp_launchSequence,
    wp_stopSiblings, wp_failLaunch]

lemma wp_launch : (launch v).wp launches .idle fun hold _ => hold = .idle := by
  simp [launch, runLaunch, wp_launchSequence, wp_failLaunch]

lemma wp_enqueue {job : Job}
    (hjob : (∃ v, job = .launch v) ∨ ∃ coord v, job = .launchMember coord v) (h : Φ .idle ()) :
    (enqueue v job).wp launches .idle Φ := by
  simp [enqueue, wp_failLaunch, hjob, h]

lemma wp_createVM {row : Option Run} :
    (createVM v row).wp launches .idle fun hold _ => hold = .idle := by
  simp [createVM, enqueueLaunch, wp_enqueue]

lemma wp_createBatch {members : List BatchMember} {mode : ReservationMode} {onFailure : OnFailure} :
    (createBatch members mode onFailure).wp launches .idle fun hold _ => hold = .idle := by
  have hloop : ∀ coord vs, (Prog.forEach (fun v => enqueue v (.launchMember coord v)) vs).wp launches
      .idle fun hold _ => hold = .idle := by
    refine fun coord vs => Prog.wp_forEach (I := fun hold => hold = Hold.idle) ?_ rfl
    rintro v - hold rfl
    exact wp_enqueue (.inr ⟨coord, v, rfl⟩) rfl
  simp [createBatch, hloop]

/-- The launches, the actions, the deletes and the stop waves, and what they start. -/
def jobs : Job → Bool
  | .createVM _ _ | .launch _ | .createBatch _ _ _ | .launchMember _ _ | .stopSiblings _ _
  | .action _ _ _ | .delete _ _ _ | .stopVMAfterRun _ => true
  | _ => false

lemma follows (j : Job) (hj : jobs j = true) :
    j.prog.wp launches .idle fun hold _ => hold = .idle := by
  cases j with
  | createVM v row => exact wp_ignore.2 wp_createVM
  | launch v => exact wp_launch
  | createBatch members mode onFailure => exact wp_ignore.2 wp_createBatch
  | launchMember coord v => exact wp_launchMember
  | stopSiblings coord v => exact wp_stopSiblings
  | action v a rev => exact wp_ignore.2 wp_action
  | delete v force rev => exact wp_ignore.2 wp_delete
  | stopVMAfterRun v => exact wp_stopVMAfterRun
  | _ => cases hj

def discipline : Discipline lifecycle Hold where
  protocol _ := launches
  init _ := .idle
  idle := .idle
  done hold := hold = .idle
  jobs j := jobs j = true
  done_idle := rfl
  follows := follows

end Terminal

/-! ## Runs -/

/-- Some thread other than `i` is about to launch the VM. -/
def launchDue (s : ManagerPool) (i : Nat) (v : Bytes) : Bool :=
  (List.range s.threads.length).any fun i' =>
    i' ≠ i && match s.next? i' with
      | some (_, .host (.launch u _)) => u = v
      | _ => false

/-- The calls the property is about, with no store error, no runtime error and no crash; the row of
a VM is not moved by one thread while another is about to launch it. -/
def launchesUndisturbed (s : ManagerPool) : ManagerMove → Bool
  | .start j => Terminal.jobs j
  | .step i e => !e.fault && !e.readBackFault && e.launch = .ok && e.host = .ok &&
    match s.next? i with
    | some (_, .store (.transitionVM inp)) =>
      !(launchDue s i inp.vmID && (transitionVM s.world.tables.vms inp e.admitted).toBool)
    | _ => true
  | .crash _ => false

abbrev LaunchesUndisturbed (s : ManagerPool) (a : ManagerMove) : Prop :=
  launchesUndisturbed s a = true

namespace Terminal

/-- The states of a VM that has a VMM, or is about to. -/
def up : VMState → Bool
  | .starting | .running | .paused => true
  | _ => false

/-- A VM that a thread is about to launch is `starting`, and a VMM that is not wanted is about to be
stopped. -/
structure Inv (γ : Nat → Hold) (w : World) : Prop where
  due : ∀ i v, γ i = .launching v → ∃ vm, w.row v = some vm ∧ vm.observedState = .starting
  known : ∀ i v, γ i = .launched v → ∃ vm, w.row v = some vm
  wanted : ∀ v, w.vmm v = true → ∃ vm, w.row v = some vm ∧
    (up vm.observedState = true ∨ ∃ i, γ i = .stopping v)

variable {γ : Nat → Hold} {w w' : World} {i : Nat} {e : Env} {v : Bytes} {c : Call}
  {reply : c.Reply}

lemma Inv.frame (h : Inv γ w) (hvmm : ∀ v, w'.vmm v = true → w.vmm v = true)
    (hrow : ∀ v vm, w.row v = some vm →
      ∃ vm', w'.row v = some vm' ∧ vm'.observedState = vm.observedState) : Inv γ w' := by
  refine ⟨fun i v hi => ?_, fun i v hi => ?_, fun v hv => ?_⟩
  · obtain ⟨vm, hvm, hstate⟩ := h.due i v hi
    obtain ⟨vm', hvm', heq⟩ := hrow v vm hvm
    exact ⟨vm', hvm', heq.trans hstate⟩
  · obtain ⟨vm, hvm⟩ := h.known i v hi
    obtain ⟨vm', hvm', -⟩ := hrow v vm hvm
    exact ⟨vm', hvm'⟩
  · obtain ⟨vm, hvm, hwhy⟩ := h.wanted v (hvmm v hv)
    obtain ⟨vm', hvm', heq⟩ := hrow v vm hvm
    exact ⟨vm', hvm', by rwa [heq]⟩

lemma row_of_exec (hexec : exec w c e = some (w', reply))
    (hc : ∀ inp, c ≠ .store (.transitionVM inp)) (v : Bytes) (vm : VM) (hrow : w.row v = some vm) :
    ∃ vm', w'.row v = some vm' ∧ vm'.observedState = vm.observedState := by
  have hcase := rowCase hexec v
  rw [hrow] at hcase
  generalize w'.row v = new at hcase
  cases hcase with
  | same => exact ⟨vm, rfl, rfl⟩
  | marked hc debt | released => exact ⟨_, rfl, rfl⟩
  | moved => exact absurd rfl (hc _)

lemma vmm_of_store {c : StoreCall} {reply : c.Reply}
    (hexec : exec w (.store c) e = some (w', reply)) : w'.vmm = w.vmm := by
  simp only [exec, Option.some.injEq, Prod.mk.injEq] at hexec
  rw [← hexec.1]

lemma vmm_of_manager {c : ManagerCall} {reply : c.Reply}
    (hexec : exec w (.manager c) e = some (w', reply)) : w'.vmm = w.vmm := by
  simp only [exec] at hexec
  split at hexec
  · cases hexec
  · rw [← (Prod.mk.inj (Option.some.inj hexec)).1]

lemma vmm_of_host {c : HostCall} {reply : c.Reply} (hc : ∀ v b, c ≠ .launch v b)
    (hexec : exec w (.host c) e = some (w', reply)) (hv : w'.vmm v = true) :
    w.vmm v = true := by
  simp only [exec, Option.some.injEq] at hexec
  rw [show w' = (HostCall.exec w e c).1 from (congrArg Prod.fst hexec).symm] at hv
  cases c with
  | availability | pause | resume | observeExit => exact hv
  | launch v b => exact absurd rfl (hc v b)
  | stop u | forceStop u =>
    simp only [HostCall.exec, World.stopped] at hv
    split_ifs at hv <;> rcases eq_or_ne v u with rfl | hne <;> simp_all [update_of_ne]
  | release u =>
    simp only [HostCall.exec] at hv
    rcases eq_or_ne v u with rfl | hne <;> simp_all [update_of_ne]

lemma Inv.let_go (h : Inv γ w) (hi : ∀ v, γ i = .stopping v → w.vmm v = false) :
    Inv (update γ i .idle) w := by
  have hback : ∀ {i' hold}, hold ≠ Hold.idle → update γ i .idle i' = hold → γ i' = hold := by
    intro i' hold hne hi'
    by_cases hii : i' = i
    · rw [hii, update_self] at hi'
      exact absurd hi'.symm hne
    · rwa [update_of_ne hii] at hi'
  refine ⟨fun i' v hi' => h.due i' v (hback (by simp) hi'),
    fun i' v hi' => h.known i' v (hback (by simp) hi'), fun v hv => ?_⟩
  obtain ⟨vm, hrow, hup | ⟨i', hi'⟩⟩ := h.wanted v hv
  · exact ⟨vm, hrow, .inl hup⟩
  · refine ⟨vm, hrow, .inr ⟨i', ?_⟩⟩
    rwa [update_of_ne]
    rintro rfl
    exact absurd hv (by simp [hi v hi'])

lemma Inv.launch (h : Inv γ w) (hi : γ i = .launching v) {log : List Evidence} :
    Inv (update γ i (.launched v)) { w with vmm := update w.vmm v true, log := log } := by
  have hback : ∀ {i' hold}, hold ≠ Hold.launched v → update γ i (.launched v) i' = hold →
      γ i' = hold := by
    intro i' hold hne hi'
    by_cases hii : i' = i
    · rw [hii, update_self] at hi'
      exact absurd hi'.symm hne
    · rwa [update_of_ne hii] at hi'
  obtain ⟨vm, hrow, hstate⟩ := h.due i v hi
  refine ⟨fun i' u hi' => h.due i' u (hback (by simp) hi'), fun i' u hi' => ?_, fun u hu => ?_⟩
  · by_cases huv : u = v
    · subst huv
      exact ⟨vm, hrow⟩
    · exact h.known i' u (hback (by simpa using huv) hi')
  · by_cases huv : u = v
    · subst huv
      exact ⟨vm, hrow, .inl (by rw [hstate]; rfl)⟩
    · obtain ⟨vm', hrow', hup | ⟨i', hi'⟩⟩ := h.wanted u (by simpa [update_of_ne huv] using hu)
      · exact ⟨vm', hrow', .inl hup⟩
      · refine ⟨vm', hrow', .inr ⟨i', ?_⟩⟩
        rwa [update_of_ne]
        rintro rfl
        rw [hi] at hi'
        cases hi'

variable {inp : TransitionInput} {vm : VM}

lemma Inv.moved (h : Inv γ w) {admitted : Bool} {hold : Hold} (hi : ∀ v, γ i ≠ .stopping v)
    (hrow : w.row inp.vmID = some vm) (haccepted : inp.Accepted vm admitted)
    (hothers : ∀ i' ≠ i, γ i' ≠ .launching inp.vmID)
    (hlaunching : ∀ v, hold = .launching v → v = inp.vmID ∧ inp.dest = .starting)
    (hlaunched : ∀ v, hold ≠ .launched v)
    (hdown : up vm.observedState = true → up inp.dest = true ∨ hold = .stopping inp.vmID) :
    Inv (update γ i hold) (w.moved inp) := by
  refine ⟨fun i' v hi' => ?_, fun i' v hi' => ?_, fun v hv => ?_⟩
  · by_cases hii : i' = i
    · rw [hii, update_self] at hi'
      obtain ⟨rfl, hdest⟩ := hlaunching v hi'
      exact ⟨inp.apply vm, by rw [World.moved_row, if_pos rfl, hrow]; rfl, hdest⟩
    · rw [update_of_ne hii] at hi'
      have hne : v ≠ inp.vmID := by
        rintro rfl
        exact hothers i' hii hi'
      rw [World.moved_row, if_neg hne]
      exact h.due i' v hi'
  · by_cases hii : i' = i
    · rw [hii, update_self] at hi'
      exact absurd hi' (hlaunched v)
    · rw [update_of_ne hii] at hi'
      obtain ⟨vm', hrow'⟩ := h.known i' v hi'
      rw [World.moved_row, hrow']
      split_ifs <;> exact ⟨_, rfl⟩
  · obtain ⟨vm', hrow', hwhy⟩ := h.wanted v hv
    have hheld : (∃ i', γ i' = .stopping v) → ∃ i', update γ i hold i' = .stopping v := by
      rintro ⟨i', hi'⟩
      refine ⟨i', ?_⟩
      rwa [update_of_ne]
      rintro rfl
      exact hi v hi'
    rw [World.moved_row, hrow']
    by_cases hv' : v = inp.vmID
    · subst hv'
      obtain rfl : vm' = vm := Option.some.inj (hrow'.symm.trans hrow)
      refine ⟨inp.apply vm', by rw [if_pos rfl]; rfl, ?_⟩
      rcases hwhy with hup | hheld'
      · rcases hdown hup with hup' | rfl
        · exact .inl hup'
        · exact .inr ⟨i, update_self ..⟩
      · exact .inr (hheld hheld')
    · refine ⟨vm', if_neg hv', ?_⟩
      exact hwhy.imp_right hheld

/-- A transition that carries no pin on the revision and asks for nothing is refused by the state
machine only. -/
lemma invalid_of_refused {err : VMError} (hfault : e.fault = false)
    (hrow : w.row inp.vmID = some vm) (hpin : inp.expectedRevision = none)
    (hask : inp.acquireCompute = false)
    (hexec : exec w (.store (.transitionVM inp)) e = some (w', .error err)) :
    isInvalidTransition err = true := by
  have hget : Store.getVM w.tables.vms inp.vmID = some vm := hrow
  simp only [exec, StoreCall.exec, commit, hfault, Store.transitionVM, hget, hpin, hask,
    Option.some.injEq, Prod.mk.injEq] at hexec
  replace hexec := hexec.2
  simp only [Option.isSome_none, Bool.false_eq_true, false_and, if_false, Bool.false_and] at hexec
  split_ifs at hexec <;> cases hexec <;> rfl

lemma accepted_of_ok (hexec : exec w (.store (.transitionVM inp)) e = some (w', .ok vm)) :
    (transitionVM w.tables.vms inp e.admitted).toBool = true := by
  simp only [exec, StoreCall.exec, commit, Option.some.injEq, Prod.mk.injEq] at hexec
  replace hexec := hexec.2
  split_ifs at hexec
  cases hok : transitionVM w.tables.vms inp e.admitted with
  | error err => simp [hok, Except.map] at hexec
  | ok p => rfl

/-- A call that is neither a transition nor a launch, by a thread that holds nothing. -/
lemma Inv.unheld (h : Inv γ w) (hi : γ i = .idle) (hexec : exec w c e = some (w', reply))
    (hmove : ∀ inp, c ≠ .store (.transitionVM inp)) (hlaunch : ∀ v b, c ≠ .host (.launch v b)) :
    Inv (update γ i .idle) w' := by
  rw [← hi, update_eq_self]
  refine h.frame ?_ (row_of_exec hexec hmove)
  rcases c with c | c | c
  · intro v hv
    rwa [vmm_of_store hexec] at hv
  · exact fun v => vmm_of_host (fun u b heq => hlaunch u b (by rw [heq])) hexec
  · intro v hv
    rwa [vmm_of_manager hexec] at hv

lemma Inv.stop (h : Inv γ w) (hi : γ i = .stopping v) (hc : c = .host (.stop v) ∨
    c = .host (.forceStop v)) (hhost : e.host = .ok) (hexec : exec w c e = some (w', reply)) :
    Inv (update γ i .idle) w' := by
  have hframe : Inv γ w' := by
    refine h.frame ?_ (row_of_exec hexec ?_)
    · rcases hc with rfl | rfl <;> exact fun u => vmm_of_host (by simp) hexec
    · rcases hc with rfl | rfl <;> simp
  have hstopped : w' = w.stopped v e := by
    rcases hc with rfl | rfl <;>
      exact (congrArg Prod.fst (Option.some.inj hexec)).symm
  refine hframe.let_go fun u hu => ?_
  obtain rfl : v = u := Hold.stopping.inj (hi.symm.trans hu)
  simp [hstopped, World.stopped, hhost, HostReply.settled]

lemma Inv.transition (h : Inv γ w) (hi : γ i = .idle)
    (hc : (store (.transitionVM inp)).unheld) {reply : Except VMError VM}
    (hothers : ∀ vm, reply = .ok vm → ∀ i' ≠ i, γ i' ≠ .launching inp.vmID)
    (hexec : exec w (.store (.transitionVM inp)) e = some (w', reply)) :
    Inv (update γ i ((store (.transitionVM inp)).holds reply)) w' := by
  cases moveCase hexec with
  | refused =>
    show Inv (update γ i .idle) w
    rwa [← hi, update_eq_self]
  | @moved vm hrow haccepted =>
    refine h.moved (by simp [hi]) hrow haccepted (hothers _ rfl) ?_ ?_ ?_
    · intro v hv
      simp only [holds] at hv
      split_ifs at hv with hdest hstop
      exact ⟨(Hold.launching.inj hv).symm, hdest⟩
    · intro v hv
      simp only [holds] at hv
      split_ifs at hv
    · intro hup
      have hfrm : inp.frm ≠ some .provisioning := by
        intro hpin
        rw [← haccepted.frm _ hpin] at hup
        cases hup
      have hedge := haccepted.edge
      cases hdest : inp.dest with
      | starting | running | paused => exact .inl rfl
      | stopping => exact .inr (by simp [holds, hdest, hfrm])
      | failed => exact absurd (hc hdest) hfrm
      | _ =>
        rw [hdest] at hedge
        cases hstate : vm.observedState <;>
          simp_all [transitionAllowed, validTransitions, up]

variable {s : ManagerPool} {j : Job} {k : c.Reply → M Unit}

lemma launchDue_of_coupled (hcoupled : discipline.Coupled γ s) {i' : Nat} (hii : i' ≠ i)
    (hi' : γ i' = .launching v) : launchDue s i v = true := by
  rcases hget : s.threads[i']? with _ | ⟨j, p⟩
  · have hidle : γ i' = .idle := hcoupled.idle i' (List.getElem?_eq_none_iff.1 hget)
    rw [hidle] at hi'
    cases hi'
  · have hfollows := hcoupled.follows hget
    cases p with
    | ret a =>
      have hidle : γ i' = .idle := hfollows
      rw [hidle] at hi'
      cases hi'
    | call c k =>
      have hpermits : (γ i').permits c := hfollows.1
      rw [hi'] at hpermits
      have hlt : i' < s.threads.length := (List.getElem?_eq_some_iff.1 hget).1
      refine List.any_eq_true.2 ⟨i', List.mem_range.2 hlt, ?_⟩
      rw [Pool.next?_eq_some hget]
      rcases c with c | c | c
      · exact hpermits.elim
      · cases c with
        | launch u b =>
          have huv : u = v := hpermits
          simp [hii, huv]
        | _ => exact hpermits.elim
      · exact hpermits.elim

/-- What an undisturbed step may rely on. -/
structure Calm (e : Env) : Prop where
  fault : e.fault = false
  launch : e.launch = .ok
  host : e.host = .ok

lemma Inv.rely (h : Inv γ w) (hcalm : Calm e) (hpermits : (γ i).permits c)
    (hexec : exec w c e = some (w', reply)) : launches.rely (γ i) c reply := by
  rcases c with c | c | c
  · cases c with
    | transitionVM inp =>
      cases reply with
      | ok vm => trivial
      | error err =>
        rintro ⟨v, hi⟩
        rw [hi] at hpermits
        obtain ⟨rfl, -, hpin, hask⟩ := hpermits
        obtain ⟨vm, hrow⟩ := h.known i _ hi
        exact invalid_of_refused hcalm.fault hrow hpin hask hexec
    | _ => trivial
  · have hreply : (HostCall.exec w e c).2 = reply := congrArg Prod.snd (Option.some.inj hexec)
    cases c with
    | availability | observeExit => trivial
    | launch => exact hreply.symm.trans hcalm.launch
    | _ => exact hreply.symm.trans hcalm.host
  · trivial

lemma Inv.call (h : Inv γ w) (hcalm : Calm e) (hpermits : (γ i).permits c)
    (hothers : ∀ inp, c = .store (.transitionVM inp) →
      (transitionVM w.tables.vms inp e.admitted).toBool = true →
      ∀ i' ≠ i, γ i' ≠ .launching inp.vmID) (hexec : exec w c e = some (w', reply)) :
    Inv (update γ i ((γ i).after c reply)) w' := by
  cases hhold : γ i with
  | idle =>
    rw [hhold] at hpermits
    rcases c with c | c | c
    · cases c with
      | transitionVM inp =>
        refine h.transition hhold hpermits ?_ hexec
        rintro vm rfl
        exact hothers inp rfl (accepted_of_ok hexec)
      | _ => exact h.unheld hhold hexec (by simp) (by simp)
    · cases c with
      | launch | observeExit => exact hpermits.elim
      | _ => exact h.unheld hhold hexec (by simp) (by simp)
    · exact h.unheld hhold hexec (by simp) (by simp)
  | launching v =>
    rw [hhold] at hpermits
    rcases c with c | c | c
    · exact hpermits.elim
    · cases c with
      | launch u b =>
        obtain rfl : u = v := hpermits
        have hw : (HostCall.exec w e (.launch u b)).1 = w' :=
          congrArg Prod.fst (Option.some.inj hexec)
        rw [← hw]
        simpa [HostCall.exec, hcalm.launch, Hold.after] using h.launch hhold
      | _ => exact hpermits.elim
    · exact hpermits.elim
  | launched v =>
    rw [hhold] at hpermits
    rcases c with c | c | c
    · cases c with
      | transitionVM inp =>
        obtain ⟨-, hdest, -, -⟩ := hpermits
        cases moveCase hexec with
        | refused => exact h.let_go (by simp [hhold])
        | @moved vm hrow haccepted =>
          exact h.moved (by simp [hhold]) hrow haccepted (hothers inp rfl (accepted_of_ok hexec))
            (by simp [Hold.after]) (by simp [Hold.after]) fun _ => .inl (by rw [hdest]; rfl)
      | _ => exact hpermits.elim
    · exact hpermits.elim
    · exact hpermits.elim
  | stopping v =>
    rw [hhold] at hpermits
    rcases c with c | c | c
    · exact hpermits.elim
    · cases c with
      | stop u =>
        obtain rfl : u = v := hpermits
        exact h.stop hhold (.inl rfl) hcalm.host hexec
      | forceStop u =>
        obtain rfl : u = v := hpermits
        exact h.stop hhold (.inr rfl) hcalm.host hexec
      | _ => exact hpermits.elim
    · exact hpermits.elim

/-- What a thread starts in the background is a job of the discipline. -/
lemma spawn_permitted {hold : Hold} {j' : Job} (hpermits : hold.permits c)
    (h : spawn c reply = some j') : jobs j' = true := by
  obtain rfl := goTracked_of_spawn h
  cases hold with
  | idle => obtain ⟨v, rfl⟩ | ⟨v, rfl⟩ | ⟨coord, v, rfl⟩ := hpermits <;> rfl
  | _ => exact hpermits.elim

lemma keeps : discipline.Keeps LaunchesUndisturbed fun γ s => Inv γ s.world where
  start {γ s j} hcoupled hinv hp _ := by
    refine ⟨hp, ?_⟩
    have hidle : γ s.threads.length = .idle := hcoupled.idle _ le_rfl
    show Inv (update γ s.threads.length .idle) s.world
    rwa [← hidle, update_eq_self]
  crash _ hp _ := by cases hp
  step {γ s i e j c k w r} hcoupled hinv hp hthread hguarantee hexec := by
    simp only [LaunchesUndisturbed, launchesUndisturbed, Pool.next?_eq_some hthread,
      Bool.and_eq_true, Bool.not_eq_true', decide_eq_true_eq] at hp
    obtain ⟨⟨⟨⟨hfault, -⟩, hlaunch⟩, hhost⟩, hdue⟩ := hp
    have hcalm : Calm e := ⟨hfault, hlaunch, hhost⟩
    have hcalled : Inv (update γ i ((γ i).after c r)) w := by
      refine hinv.call hcalm hguarantee ?_ hexec
      rintro inp rfl hok i' hii hi'
      simp [launchDue_of_coupled hcoupled hii hi', hok] at hdue
    refine ⟨hinv.rely hcalm hguarantee hexec, hcalled, fun j' hj' => ⟨spawn_permitted hguarantee hj', ?_⟩⟩
    have hidle : update γ i ((γ i).after c r) s.threads.length = .idle := by
      rw [update_of_ne (Nat.ne_of_gt (List.getElem?_eq_some_iff.1 hthread).1)]
      exact hcoupled.idle _ le_rfl
    show Inv (update (update γ i ((γ i).after c r)) s.threads.length .idle) w
    rwa [← hidle, update_eq_self]

end Terminal

/-- **No VMM is left behind a terminal row.**  The calls are creations, batches, actions, deletes and
stop waves, with the launches and the stops they start; neither the store nor the host fails, and
the row of a VM is not moved by one call while another is about to launch it. If every VMM had a
row that wants it at the beginning, then once every call has returned a VM that is `stopped`,
`failed`, `deleting` or `deleted` has no VMM. -/
theorem no_vmm_behind_terminal_row {w : World} {as : List ManagerMove} {s : ManagerPool}
    (hwanted : ∀ v, w.vmm v = true → ∃ vm, w.row v = some vm ∧
      (vm.observedState = .starting ∨ vm.observedState = .running ∨ vm.observedState = .paused))
    (hrun : run lifecycle.step (Pool.quiet w) as = some s)
    (hundisturbed : Along lifecycle.step LaunchesUndisturbed (Pool.quiet w) as)
    (hsettled : s.Settled) :
    ∀ v vm, s.world.row v = some vm → vm.observedState.dead = true → s.world.vmm v = false := by
  have hinit : Terminal.Inv (fun _ => .idle) w := by
    refine ⟨fun i v h => (by cases h), fun i v h => (by cases h), fun v hv => ?_⟩
    obtain ⟨vm, hrow, hstate⟩ := hwanted v hv
    exact ⟨vm, hrow, .inl (by rcases hstate with h | h | h <;> rw [h] <;> rfl)⟩
  obtain ⟨γ, hcoupled, hinv⟩ := Terminal.keeps.run_coupled
    ⟨_, Discipline.coupled_quiet w, hinit⟩ hundisturbed hrun
  intro v vm hrow hdead
  by_contra hvmm
  obtain ⟨vm', hrow', hup | ⟨i, hi⟩⟩ := hinv.wanted v (by simpa using hvmm)
  · obtain rfl : vm' = vm := Option.some.inj (hrow'.symm.trans hrow)
    cases hstate : vm'.observedState <;> simp_all [Terminal.up, VMState.dead]
  · have hidle : γ i = .idle := hcoupled.done hsettled i
    rw [hidle] at hi
    cases hi

/-- A VM is created, and its launch has written `starting`; before it calls the host, a forced delete
goes all the way. -/
def deleteDuringLaunch : List ManagerMove :=
  (Move.start (.createVM [1] none) :: calls 0 4) ++ calls 1 3 ++
    (.start (.delete [1] true none) :: calls 2 12) ++ calls 1 3

/-- The launch then creates the VMM of a VM that is deleted, and walks away. -/
theorem deleted_vm_has_vmm :
    ∃ s : ManagerPool, run lifecycle.step (Pool.quiet World.new) deleteDuringLaunch = some s ∧
      s.Settled ∧ ∃ vm, s.world.row [1] = some vm ∧ vm.observedState = .deleted ∧
        s.world.vmm [1] = true := by
  decide +kernel

def deleteAfterLaunch : List ManagerMove :=
  (Move.start (.createVM [1] none) :: calls 0 4) ++ calls 1 7 ++
    (.start (.delete [1] true none) :: calls 2 12)

theorem no_vmm_behind_terminal_row_delete :
    ∃ s : ManagerPool, run lifecycle.step (Pool.quiet World.new) deleteAfterLaunch = some s ∧
      s.Settled ∧ ∀ v vm, s.world.row v = some vm → vm.observedState.dead = true →
        s.world.vmm v = false := by
  refine ⟨_, yields (by decide +kernel), by decide +kernel, ?_⟩
  exact no_vmm_behind_terminal_row (fun v hv => by cases hv) (yields _) (by decide +kernel)
    (by decide +kernel)

end Observatory.Runtime
