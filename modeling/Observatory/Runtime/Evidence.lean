/-
# Compute is released for a VMM proven gone

Half a dozen paths give the compute of a VM back. Each of them has to have seen that the boot of
the row is gone: a settled stop, the exit of the boot, or a row that never had one. While calls
follow one another, what a call has seen stays true until it writes; one path, the stop after a
run, releases whatever the host answered.
-/
import Observatory.Runtime.Terminal

namespace Observatory.Runtime

open Lib Store Function List TransitionInput

/-! ## The discipline -/

/-- What a thread has found out. -/
structure Known where
  /-- The VM whose boot is gone. -/
  sure : Option Bytes
  /-- An exit that was observed. -/
  seen : Option (Bytes × Option Nat)
  /-- The VM that is about to be launched on a new boot. -/
  launching : Option Bytes

def Known.nothing : Known := ⟨none, none, none⟩

/-- The row is on the boot whose exit was observed, or on none. -/
def Known.saw (g : Known) (v : Bytes) (vm : VM) : Bool :=
  match g.seen with
  | some (u, b) => u = v && (b.isNone || vm.currentBootID.isNone || b = vm.currentBootID)
  | none => false

/-- Reading a row that was never launched, or whose exit was observed, makes sure. -/
def Known.read (g : Known) (v : Bytes) (vm : VM) : Known :=
  if vm.observedState = .provisioning || g.saw v vm then { g with sure := some v } else g

def Known.stop (g : Known) (v : Bytes) (reply : HostReply) : Known :=
  if reply.settled then { g with sure := some v } else g

def Known.move (g : Known) (inp : TransitionInput) : Known :=
  if inp.bootID.isSome then ⟨none, none, some inp.vmID⟩ else { g with launching := none }

/-- A transition to a new boot takes compute, one that releases it is backed. -/
@[mk_iff] structure Known.Backs (g : Known) (inp : TransitionInput) : Prop where
  boot : inp.bootID.isSome = true → inp.dest = .starting ∧ inp.releaseCompute = false ∧
    inp.releaseAll = false ∧ (inp.frm = some .provisioning ∨ inp.acquireCompute = true)
  release : inp.releaseCompute = true ∨ inp.releaseAll = true →
    g.sure = some inp.vmID ∨ inp.frm = some .provisioning

/-- The flag `tame` is for the stop after a run: its forced stop is relied on. -/
@[simps] def evidence (tame : Bool) : Protocol Call Call.Reply Known where
  guarantee g
    | .store (.transitionVM inp) => g.Backs inp
    | .store (.releaseVMReservations v) => g.sure = some v
    | .host (.launch v _) => g.launching = some v
    | .manager (.goTracked job) => job.boot = false
    | _ => True
  rely _
    | .host (.forceStop _), reply => tame = true → HostReply.settled reply = true
    | _, _ => True
  next g
    | .store (.getVM v), .ok vm => g.read v vm
    | .store (.transitionVM inp), .ok _ => g.move inp
    | .store (.releaseVMReservations _), _ => { g with launching := none }
    | .host (.stop v), reply | .host (.forceStop v), reply => g.stop v reply
    | .host (.launch _ _), _ => .nothing
    | .host (.observeExit v b), _ => ⟨none, some (v, b), none⟩
    | _, _ => g

namespace Evidenced

variable {tame : Bool} {g : Known} {v : Bytes} {α : Type}

variable {c : Call} {Φ : Known → Unit → Prop} {rev : Option Int} {inp : TransitionInput} {vm : VM}
  {state : VMState}

attribute [simp] Known.backs_iff

lemma sure_stop {reply : HostReply} (h : reply.settled = true) : (g.stop v reply).sure = some v := by
  simp [Known.stop, h]

@[simp] lemma move_boot (h : inp.bootID.isSome = true) :
    g.move inp = ⟨none, none, some inp.vmID⟩ := if_pos h

lemma sure_move (h : inp.bootID = none) : (g.move inp).sure = g.sure := by
  simp [Known.move, h]

lemma sure_read (h : g.sure = some v) : (g.read v vm).sure = some v := by
  unfold Known.read
  split_ifs
  · rfl
  · exact h

lemma wp_of_hook {p : M α} (hp : p.Uses Call.ofHook) {Φ : Known → α → Prop} (h : ∀ a, Φ g a) :
    p.wp (evidence tame) g Φ := by
  refine Prog.wp_of_uses hp (fun c hc => ?_) h
  rcases c with c | c | c
  · cases c <;> first | exact hc.elim | exact ⟨trivial, fun _ => rfl⟩
  · exact hc.elim
  · cases c with
    | goTracked job =>
      cases job with
      | stopVMAfterRun v => exact ⟨rfl, fun _ => rfl⟩
      | _ => exact hc.elim
    | _ => exact hc.elim

lemma wp_onVMRunning (h : Φ g ()) :
    (onVMRunning v).wp (evidence tame) g Φ := wp_of_hook (uses_onVMRunning v) fun _ => h

lemma wp_concludeActive {trigger : ConcludeTrigger} (h : Φ g ()) :
    (concludeActive v trigger).wp (evidence tame) g Φ :=
  wp_of_hook (uses_concludeActive v trigger) fun _ => h

attribute [local simp] wp_concludeActive

lemma wp_failLaunch {stage : LaunchStage} (h : ∀ g, Φ g ()) :
    (failLaunch v stage).wp (evidence tame) g Φ := by
  cases stage <;>
    simp +contextual [failLaunch, failLaunchRelease, onVMLaunchFailed, sure_stop, h]

attribute [local simp] wp_failLaunch

lemma wp_launchSequence {onFailed : M Unit}
    (hfailed : ∀ g, onFailed.wp (evidence tame) g fun _ _ => True) (h : ∀ g, Φ g ()) :
    (launchSequence v onFailed).wp (evidence tame) g Φ := by
  have hfailed' : ∀ g, onFailed.wp (evidence tame) g Φ :=
    fun g => Prog.wp_of_forall (hfailed g) fun g _ => h g
  simp [launchSequence, wp_onVMRunning, hfailed', h]

lemma wp_failAction {cause : ManagerError} :
    (failAction v cause).wp (evidence tame) g fun _ _ => True := by
  simp [failAction]

lemma wp_settleAction {dest : VMState} {release debt : Bool}
    (hrelease : release = true → g.sure = some v) :
    (settleAction v rev dest release debt).wp (evidence tame) g fun _ _ => True := by
  have hdebt : ∀ g, (recordDebt v dest debt).wp (evidence tame) g fun g' _ =>
      (lifecycleHook v dest).wp (evidence tame) g' fun _ _ => True := by
    intro g
    cases debt <;> simp [recordDebt, lifecycleHook, onVMTerminal, wp_onVMRunning]
  simp [settleAction, hdebt, wp_failAction]
  exact fun h => hrelease h

lemma wp_finishStop {forced : Bool} :
    (finishStop v forced rev).wp (evidence tame) g fun _ _ => True := by
  cases forced <;>
    simp +contextual [finishStop, hostStop, wp_settleAction, wp_failAction, sure_stop]

lemma wp_action {a : Action} : (action v a rev).wp (evidence tame) g fun _ _ => True := by
  cases a <;>
    simp [action, withClaim, doAction, doStart, doPause, doResume, doStop, wp_finishStop,
      wp_failAction, wp_settleAction, wp_onVMRunning]

lemma wp_releaseForDelete (h : g.sure = some v) :
    (releaseForDelete v).wp (evidence tame) g fun _ _ => True := by
  simp [releaseForDelete, h]

lemma wp_forceStopOr {next : M (Except ManagerError VM)}
    (h : ∀ g, g.sure = some v → next.wp (evidence tame) g fun _ _ => True) :
    (forceStopOr v state next).wp (evidence tame) g fun _ _ => True := by
  rw [forceStopOr, Prog.wp_bind, Prog.wp_perform]
  refine ⟨trivial, fun reply _ => ?_⟩
  cases reply with
  | ok => exact h _ (sure_stop rfl)
  | _ => simp

lemma wp_finishDelete {pin : Option Int} {signalled : Bool}
    (h : signalled = true → g.sure = some v) :
    (finishDelete v vm pin signalled).wp (evidence tame) g fun _ _ => True := by
  have hstop : ∀ state g, (forceStopOr v state (releaseForDelete v)).wp (evidence tame) g
      fun _ _ => True := fun state g => wp_forceStopOr fun _ => wp_releaseForDelete
  cases signalled with
  | false => simp [finishDelete, hstop]
  | true => simp [finishDelete, wp_releaseForDelete, sure_move, h]

lemma wp_forceStopForDelete {pin : Option Int} :
    (forceStopForDelete v state pin).wp (evidence tame) g fun _ _ => True := by
  have hreread : ∀ pin g, g.sure = some v →
      (forceStopForDelete.reread v pin).wp (evidence tame) g fun _ _ => True := by
    intro pin g h
    simp [forceStopForDelete.reread, wp_finishDelete, sure_read h]
  refine wp_forceStopOr fun g h => ?_
  rw [Prog.wp_bind, Prog.wp_perform]
  refine ⟨by simp [h], fun reply _ => ?_⟩
  cases reply with
  | error err => simp [hreread _ _ h]
  | ok vm => exact hreread _ _ ((sure_move rfl).trans h)

lemma wp_delete {force : Bool} : (delete v force rev).wp (evidence tame) g fun _ _ => True := by
  simp [delete, withClaim, doDelete, wp_forceStopForDelete, wp_finishDelete]

lemma wp_settleExit {dest : VMState} (h : g.sure = some v) :
    (settleExit v dest).wp (evidence tame) g fun _ _ => True := by
  simp [settleExit, onVMTerminal, h]

/-- The exit is observed first; a notice about another boot is dropped. -/
lemma wp_notifyVMMExit {b : Option Nat} {graceful : Bool} :
    (notifyVMMExit v b graceful).wp (evidence tame) g fun _ _ => True := by
  have hsure : ∀ vm : VM, ¬ (b.isSome = true ∧ vm.currentBootID.isSome = true ∧
      b ≠ vm.currentBootID) → (Known.read ⟨none, some (v, b), none⟩ v vm).sure = some v := by
    intro vm h
    unfold Known.read
    rw [if_pos]
    cases b <;> cases hboot : vm.currentBootID <;> simp_all [Known.saw]
  simp +contextual [notifyVMMExit, withClaim]
  intro vm h
  have hs := hsure vm (by rintro ⟨h₁, h₂, h₃⟩; exact h₃ (h h₁ h₂))
  simp [wp_settleExit, hs, sure_move]

lemma wp_stopVMAfterRun : (stopVMAfterRun v).wp (evidence true) g fun _ _ => True := by
  have hstop : ∀ g, (stopAtAnyRate v).wp (evidence true) g fun g' _ => g'.sure = some v := by
    intro g
    rw [stopAtAnyRate, Prog.wp_bind, Prog.wp_perform]
    refine ⟨trivial, fun reply _ => ?_⟩
    by_cases hok : reply = .ok
    · simp only [hok, id_eq, ne_eq, not_true_eq_false, if_false]
      exact sure_stop rfl
    · simp +contextual [hok, sure_stop]
  have hsettle : ∀ g, (do
      stopAtAnyRate v
      let _ ← st (.transitionVM { vmID := v, dest := .stopped, desiredState := some .stopped,
                                  releaseCompute := true })
      pure ()).wp (evidence true) g fun _ _ => True := by
    intro g
    rw [Prog.wp_bind]
    refine Prog.wp_mono (fun g' _ hsure => ?_) (hstop g)
    simp [hsure]
  simp only [stopVMAfterRun]
  rw [Prog.wp_bind, Prog.wp_perform]
  refine ⟨trivial, fun reply _ => ?_⟩
  cases reply with
  | error err => trivial
  | ok vm => simp [hsettle]

lemma wp_stopMember {attempts : Nat} (h : ∀ g, Φ g ()) :
    (stopMember v attempts).wp (evidence tame) g Φ := by
  induction attempts generalizing g with
  | zero => exact h g
  | succ attempts ih =>
    unfold stopMember
    rw [Prog.wp_bind, Prog.wp_perform]
    refine ⟨trivial, fun reply _ => ?_⟩
    rcases reply with err | vm
    · exact h _
    have hdebt : ∀ g debt, (recordDebt v .stopped debt).wp (evidence tame) g fun g' _ =>
        (onVMTerminal v).wp (evidence tame) g' Φ := by
      intro g debt
      cases debt <;> simp [recordDebt, onVMTerminal, h]
    -- a member without a VMM is not stopped on the host
    by_cases hprov : vm.observedState = .provisioning <;>
      simp +contextual [stopMemberHost, Known.read, sure_move, sure_stop, hprov, hdebt, ih, h]

lemma wp_stopMembers {vs : List Bytes} (h : ∀ g, Φ g ()) :
    (stopMembers v vs).wp (evidence tame) g Φ := by
  induction vs generalizing g Φ with
  | nil => exact h g
  | cons u vs ih => simp [stopMembers, wp_stopMember, ih, h]

lemma wp_stopSiblings {coord : BatchCoord} :
    (stopSiblings coord v).wp (evidence tame) g fun _ _ => True := by
  simp [stopSiblings, wp_stopMembers]

lemma wp_launchMember {coord : BatchCoord} :
    (launchMember coord v).wp (evidence tame) g fun _ _ => True := by
  simp [launchMember, launchUnlessStopped, runBatchMemberLaunch, wp_launchSequence, wp_stopSiblings]

lemma wp_enqueue {job : Job} (hjob : job.boot = false) :
    (enqueue v job).wp (evidence tame) g fun _ _ => True := by
  simp [enqueue, hjob]

lemma wp_retryStopped (h : g.sure = some v) {Φ : Known → Except VMError VM → Prop}
    (hΦ : ∀ g a, g.sure = some v → Φ g a) : (retryStopped v vm).wp (evidence tame) g Φ := by
  simp [retryStopped, h, hΦ, sure_move]

lemma wp_retryDelete (h : g.sure = some v) :
    (retryDelete v vm).wp (evidence tame) g fun _ _ => True := by
  simp [retryDelete, h]

lemma wp_recordRetryFailure :
    (recordRetryFailure v state).wp (evidence tame) g fun _ _ => True := by
  simp [recordRetryFailure]

lemma wp_retryRelease (h : g.sure = some v) :
    (retryRelease v vm).wp (evidence tame) g fun _ _ => True := by
  have hmoved : ∀ inp g, g.sure = some v → inp.bootID = none → (Known.move g inp).sure = some v :=
    fun inp g h hinp => (sure_move hinp).trans h
  simp [retryRelease, wp_recordRetryFailure, wp_retryDelete, h]
  refine fun _ _ => wp_retryStopped h fun g a hg => ?_
  cases a <;> simp [wp_retryDelete, hmoved, hg]

lemma wp_retryVM : (retryVM v).wp (evidence tame) g fun _ _ => True := by
  have hstop : ∀ vm g, (retryStop v vm).wp (evidence tame) g fun _ _ => True := by
    intro vm g
    rw [retryStop, Prog.wp_bind, Prog.wp_perform]
    refine ⟨trivial, fun reply _ => ?_⟩
    by_cases hreply : reply.settled = true
    · have hsure := sure_stop (g := g) (v := v) hreply
      simp [hreply, wp_recordRetryFailure, wp_retryRelease, hsure]
      intro _ _ _ _
      refine wp_retryStopped hsure fun g' a _ => ?_
      cases a <;> simp [onVMTerminal]
    · simp [hreply, wp_recordRetryFailure]
  simp [retryVM, hstop]

def tameJob : Job → Bool
  | .stopVMAfterRun _ => true
  | _ => false

lemma follows (j : Job) (hj : j.boot = false) :
    j.prog.wp (evidence (tameJob j)) .nothing fun _ _ => True := by
  cases j with
  | createVM v row =>
    have henqueue : ∀ g, (enqueueLaunch v).wp (evidence false) g fun _ _ => True :=
      fun g => wp_enqueue rfl
    simp [Job.prog, createVM, tameJob, henqueue]
  | launch v => simp [Job.prog, launch, runLaunch, wp_launchSequence]
  | createBatch members mode onFailure =>
    exact wp_ignore.2 (wp_createBatch (by simp) (by simp) (by simp) fun _ _ _ => wp_enqueue rfl)
  | launchMember coord v => exact wp_launchMember
  | stopSiblings coord v => exact wp_stopSiblings
  | action v a rev => exact wp_ignore.2 wp_action
  | delete v force rev => exact wp_ignore.2 wp_delete
  | notifyVMMExit v b graceful => exact wp_ignore.2 wp_notifyVMMExit
  | stopVMAfterRun v => exact wp_stopVMAfterRun
  | retryCleanup =>
    refine wp_ignore.2 (wp_retryCleanup (fun g c hc => ?_) (by simp) fun _ _ => wp_retryVM)
    cases c with
    | goTracked job => exact absurd rfl (hc job)
    | _ => trivial
  | reconcile cfg => cases hj
  | createRun row => simp [Job.prog, createRun]
  | submitRunResult r status =>
    have hboot : (Job.concludeRun r .guestResult).boot = false := rfl
    simp [Job.prog, submitRunResult, hboot]
  | concludeRun r t => exact wp_ignore.2 (wp_of_hook (uses_concludeRun r t) fun _ => trivial)
  | concludeByOperator r verdict abort =>
    exact wp_ignore.2 (wp_of_hook (uses_concludeByOperator r verdict abort) fun _ => trivial)

def discipline : Discipline lifecycle Known where
  protocol j := evidence (tameJob j)
  init _ := .nothing
  idle := .nothing
  done _ := True
  jobs j := j.boot = false
  done_idle := trivial
  follows := follows

end Evidenced

/-! ## What the threads know -/

def Gone (log : List Evidence) (v : Bytes) (boot : Option Nat) : Prop :=
  ∀ b, boot = some b →
    .launched v b ∉ log ∨ .stopped v (some b) ∈ log ∨ .exited v (some b) ∈ log

lemma gone_none {log : List Evidence} {v : Bytes} : Gone log v none := nofun

lemma Gone.mono {log log' : List Evidence} {v : Bytes} {boot : Option Nat} (h : Gone log v boot)
    (hlog : ∀ x ∈ log, x ∈ log')
    (hlaunch : ∀ b, Evidence.launched v b ∈ log' → Evidence.launched v b ∈ log) :
    Gone log' v boot := by
  intro b hb
  rcases h b hb with hnot | hstopped | hexited
  · exact .inl fun hin => hnot (hlaunch b hin)
  · exact .inr (.inl (hlog _ hstopped))
  · exact .inr (.inr (hlog _ hexited))

namespace Evidenced

/-- The rows that have given their compute back are proven gone; a row without a launch holds its
compute. -/
structure Rows (w : World) : Prop where
  released : ∀ v vm, w.row v = some vm → vm.computeReleased = true → Gone w.log v vm.currentBootID
  fresh : ∀ v vm, w.row v = some vm → vm.observedState = .provisioning →
    vm.currentBootID = none ∧ vm.computeReleased = false

/-- What a thread knows is true. -/
structure Knows (g : Known) (w : World) : Prop where
  sure : ∀ v, g.sure = some v → ∀ vm, w.row v = some vm → Gone w.log v vm.currentBootID
  seen : ∀ v b, g.seen = some (v, b) → .exited v (b.or (w.boot v)) ∈ w.log
  launching : ∀ v, g.launching = some v → ∀ vm, w.row v = some vm → vm.computeReleased = false

variable {w w' : World} {g : Known} {e : Env} {v : Bytes} {c : Call} {reply : c.Reply}

lemma knows_nothing : Knows .nothing w :=
  ⟨fun v h => (by cases h), fun v b h => (by cases h), fun v h => (by cases h)⟩

/-- The rows of the VMs are as they were, but for new ones. -/
structure Unmoved (w w' : World) : Prop where
  row : ∀ v vm', w'.row v = some vm' →
    (∃ vm, w.row v = some vm ∧ vm'.currentBootID = vm.currentBootID ∧
      vm'.computeReleased = vm.computeReleased ∧ vm'.observedState = vm.observedState) ∨
    (w.row v = none ∧ vm' = VM.new v)
  boot : ∀ v, w'.boot v = w.boot v

lemma Unmoved.of_tables (h : w'.tables = w.tables) : Unmoved w w' := by
  have hrow : ∀ v, w'.row v = w.row v := fun v => by rw [World.row, h]; rfl
  exact ⟨fun v vm' hvm => .inl ⟨vm', hrow v ▸ hvm, rfl, rfl, rfl⟩,
    fun v => by rw [World.boot, hrow v]; rfl⟩

lemma Rows.frame (h : Rows w) (hrow : Unmoved w w') (hlog : ∀ x ∈ w.log, x ∈ w'.log)
    (hlaunch : ∀ v b, Evidence.launched v b ∈ w'.log → Evidence.launched v b ∈ w.log) : Rows w' := by
  constructor
  · intro v vm' hvm hreleased
    rcases hrow.row v vm' hvm with ⟨vm, hold, hboot, hcompute, -⟩ | ⟨-, rfl⟩
    · rw [hboot]
      exact (h.released v vm hold (hcompute ▸ hreleased)).mono hlog (hlaunch v)
    · exact gone_none
  · intro v vm' hvm hstate
    rcases hrow.row v vm' hvm with ⟨vm, hold, hboot, hcompute, hst⟩ | ⟨-, rfl⟩
    · rw [hboot, hcompute]
      exact h.fresh v vm hold (hst ▸ hstate)
    · exact ⟨rfl, rfl⟩

lemma Knows.frame (h : Knows g w) (hrow : Unmoved w w') (hlog : ∀ x ∈ w.log, x ∈ w'.log)
    (hlaunch : ∀ v b, Evidence.launched v b ∈ w'.log → Evidence.launched v b ∈ w.log) :
    Knows g w' := by
  refine ⟨fun v hv vm' hvm => ?_, fun v b hv => ?_, fun v hv vm' hvm => ?_⟩
  · rcases hrow.row v vm' hvm with ⟨vm, hold, hboot, -, -⟩ | ⟨-, rfl⟩
    · rw [hboot]
      exact (h.sure v hv vm hold).mono hlog (hlaunch v)
    · exact gone_none
  · rw [hrow.boot]
    exact hlog _ (h.seen v b hv)
  · rcases hrow.row v vm' hvm with ⟨vm, hold, -, hcompute, -⟩ | ⟨-, rfl⟩
    · rw [hcompute]
      exact h.launching v hv vm hold
    · rfl

/-! ## The calls of the host -/

lemma Rows.launch (h : Rows w) {b : Nat} {vmm : Bytes → Bool}
    (hheld : ∀ vm, w.row v = some vm → vm.computeReleased = false) :
    Rows { w with vmm := vmm, log := w.log ++ [.launched v b] } := by
  refine ⟨fun u vm hvm hreleased => ?_, h.fresh⟩
  have hne : u ≠ v := by
    rintro rfl
    exact absurd hreleased (by simp [hheld vm hvm])
  refine (h.released u vm hvm hreleased).mono (fun x hx => mem_append_left _ hx) ?_
  intro b' hb'
  simpa [hne] using hb'

lemma Knows.stopped (h : Knows g w) {vmm : Bytes → Bool} :
    Knows { g with sure := some v }
      { w with vmm := vmm, log := w.log ++ [.stopped v (w.boot v)] } := by
  have hframe : Knows g { w with vmm := vmm, log := w.log ++ [.stopped v (w.boot v)] } :=
    h.frame (.of_tables rfl) (fun x hx => mem_append_left _ hx) (by simp)
  refine ⟨fun u hu vm hvm b hb => ?_, hframe.seen, hframe.launching⟩
  obtain rfl : v = u := Option.some.inj hu
  have hboot : w.boot v = some b := by
    rw [World.boot, show w.row v = some vm from hvm]
    exact hb
  exact .inr (.inl (by simp [hboot]))

lemma host_step {c : HostCall} {reply : c.Reply} (hrows : Rows w) (hknows : Knows g w)
    (hc : (evidence tame).guarantee g (.host c))
    (hexec : Call.exec w (.host c) e = some (w', reply)) :
    Rows w' ∧ Knows ((evidence tame).next g (.host c) reply) w' := by
  obtain ⟨rfl, rfl⟩ : (HostCall.exec w e c).1 = w' ∧ (HostCall.exec w e c).2 = reply :=
    ⟨congrArg Prod.fst (Option.some.inj hexec), congrArg Prod.snd (Option.some.inj hexec)⟩
  have hsame : ∀ {w' : World}, w'.tables = w.tables → w'.log = w.log → Rows w' ∧ Knows g w' := by
    intro w' htables hlog
    have hl : ∀ x ∈ w.log, x ∈ w'.log := fun x hx => hlog ▸ hx
    have hl' : ∀ v b, Evidence.launched v b ∈ w'.log → Evidence.launched v b ∈ w.log :=
      fun v b hx => hlog ▸ hx
    exact ⟨hrows.frame (.of_tables htables) hl hl', hknows.frame (.of_tables htables) hl hl'⟩
  have hstop : ∀ v, Rows (w.stopped v e) ∧ Knows (g.stop v e.host) (w.stopped v e) := by
    intro v
    unfold World.stopped Known.stop
    split_ifs with hsettled
    · exact ⟨hrows.frame (.of_tables rfl) (fun x hx => mem_append_left _ hx) (by simp),
        hknows.stopped⟩
    · exact hsame rfl rfl
  cases c with
  | availability | pause | resume => exact ⟨hrows, hknows⟩
  | release v => exact hsame rfl rfl
  | stop v | forceStop v => exact hstop v
  | launch v b => exact ⟨hrows.launch (hknows.launching v hc), knows_nothing⟩
  | observeExit v b =>
    refine ⟨hrows.frame (.of_tables rfl) (fun x hx => mem_append_left _ hx)
      (fun u b' h => by simpa [HostCall.exec] using h), ?_⟩
    refine ⟨fun u hu => (by cases hu), fun u b' hu => ?_, fun u hu => (by cases hu)⟩
    cases hu
    exact mem_append_right _ (mem_singleton.2 rfl)

/-! ## The calls of the store -/

lemma unmoved_of_store {c : StoreCall} {reply : c.Reply}
    (hmove : ∀ inp, c ≠ .transitionVM inp) (hrelease : ∀ v, c ≠ .releaseVMReservations v)
    (hexec : Call.exec w (.store c) e = some (w', reply)) : Unmoved w w' := by
  constructor
  · intro v vm' hvm
    have hcase := rowCase hexec v
    rw [hvm] at hcase
    generalize w.row v = old at hcase
    cases hcase with
    | same => exact .inl ⟨vm', rfl, rfl, rfl, rfl⟩
    | marked _ debt => exact .inl ⟨_, rfl, rfl, rfl, rfl⟩
    | created => exact .inr ⟨rfl, rfl⟩
    | released => exact absurd rfl (hrelease v)
    | moved => exact absurd rfl (hmove _)
  · intro v
    have hcase := rowCase hexec v
    unfold World.boot
    generalize w.row v = old at hcase ⊢
    generalize w'.row v = new at hcase ⊢
    cases hcase with
    | same | marked _ debt | created => rfl
    | released => exact absurd rfl (hrelease v)
    | moved => exact absurd rfl (hmove _)

lemma log_of_store {c : StoreCall} {reply : c.Reply}
    (hexec : Call.exec w (.store c) e = some (w', reply)) : w'.log = w.log := by
  simp only [Call.exec, Option.some.injEq, Prod.mk.injEq] at hexec
  rw [← hexec.1]

variable {vm : VM}

/-- A row that was never launched, or whose exit was seen, is proven gone. -/
lemma Knows.read (hrows : Rows w) (h : Knows g w) (hrow : w.row v = some vm) :
    Knows (g.read v vm) w := by
  unfold Known.read
  split_ifs with hread
  · refine ⟨fun u hu vm' hvm' => ?_, h.seen, h.launching⟩
    obtain rfl : v = u := Option.some.inj hu
    obtain rfl : vm = vm' := Option.some.inj (hrow.symm.trans hvm')
    rw [Bool.or_eq_true] at hread
    rcases hread with hprov | hsaw
    · rw [(hrows.fresh v vm hrow (by simpa using hprov)).1]
      exact gone_none
    · unfold Known.saw at hsaw
      split at hsaw
      · rename_i u b hseen
        simp only [Bool.and_eq_true, decide_eq_true_eq] at hsaw
        obtain ⟨rfl, hboot⟩ := hsaw
        have hexit := h.seen u b hseen
        rw [World.boot, hrow] at hexit
        intro b' hb'
        refine .inr (.inr ?_)
        cases b with
        | none => simpa [hb'] using hexit
        | some b =>
          obtain rfl : b = b' := by simpa [hb'] using hboot
          simpa using hexit
      · cases hsaw
  · exact h

lemma Rows.moved (h : Rows w) (hknows : Knows g w) {inp : TransitionInput} {admitted : Bool}
    (hbacks : g.Backs inp) (hrow : w.row inp.vmID = some vm) (haccepted : inp.Accepted vm admitted) :
    Rows (w.moved inp) := by
  have hfrm : inp.frm = some .provisioning → vm.observedState = .provisioning :=
    fun hpin => (haccepted.frm _ hpin).symm
  constructor
  · intro v vm' hvm hreleased
    rw [World.moved_row] at hvm
    split_ifs at hvm with hv
    · subst hv
      rw [hrow] at hvm
      obtain rfl : inp.apply vm = vm' := Option.some.inj hvm
      have hfresh := h.fresh _ vm hrow
      by_cases hboot : inp.bootID = none
      · show Gone w.log inp.vmID (inp.bootID.or vm.currentBootID)
        rw [hboot, Option.none_or]
        by_cases hrel : inp.releaseCompute = true ∨ inp.releaseAll = true
        · rcases hbacks.release hrel with hsure | hpin
          · exact hknows.sure _ hsure vm hrow
          · rw [(hfresh (hfrm hpin)).1]
            exact gone_none
        · -- nothing was released: the row was released before
          refine h.released _ vm hrow ?_
          simp only [not_or, Bool.not_eq_true] at hrel
          simp only [apply, hrel, Bool.or_self, Bool.false_eq_true, if_false] at hreleased
          split_ifs at hreleased
          exact hreleased
      · obtain ⟨-, hcompute, hall, htake⟩ := hbacks.boot (Option.isSome_iff_ne_none.2 hboot)
        exfalso
        rcases htake with hpin | hacquire
        · have hheld := (hfresh (hfrm hpin)).2
          simp [apply, hcompute, hall, hheld] at hreleased
        · simp [apply, hcompute, hall, hacquire] at hreleased
    · exact h.released v vm' hvm hreleased
  · intro v vm' hvm hstate
    rw [World.moved_row] at hvm
    split_ifs at hvm with hv
    · subst hv
      rw [hrow] at hvm
      obtain rfl : inp.apply vm = vm' := Option.some.inj hvm
      have hedge := haccepted.edge
      rw [show inp.dest = .provisioning from hstate] at hedge
      cases hold : vm.observedState <;> simp_all [transitionAllowed, validTransitions]
    · exact h.fresh v vm' hvm hstate

/-- What is known after it. -/
lemma Knows.moved (hrows : Rows w) (h : Knows g w) {inp : TransitionInput} {admitted : Bool}
    (hbacks : g.Backs inp) (hrow : w.row inp.vmID = some vm) (haccepted : inp.Accepted vm admitted) :
    Knows (g.move inp) (w.moved inp) := by
  unfold Known.move
  split_ifs with hboot
  · refine ⟨fun v hv => (by cases hv), fun v b hv => (by cases hv), fun v hv vm' hvm => ?_⟩
    obtain rfl : inp.vmID = v := Option.some.inj hv
    rw [World.moved_row, if_pos rfl, hrow] at hvm
    obtain rfl : inp.apply vm = vm' := Option.some.inj hvm
    obtain ⟨-, hcompute, hall, htake⟩ := hbacks.boot hboot
    rcases htake with hpin | hacquire
    · have hheld := (hrows.fresh _ vm hrow (haccepted.frm _ hpin).symm).2
      simp [apply, hcompute, hall, hheld]
    · simp [apply, hcompute, hall, hacquire]
  · have hnone : inp.bootID = none := by simpa using hboot
    -- every row is on the boot it was on
    have hsame : ∀ v vm', (w.moved inp).row v = some vm' →
        ∃ vm, w.row v = some vm ∧ vm'.currentBootID = vm.currentBootID := by
      intro v vm' hvm
      rw [World.moved_row] at hvm
      split_ifs at hvm with hv
      · obtain ⟨vm₀, hvm₀, rfl⟩ := Option.map_eq_some_iff.1 hvm
        exact ⟨vm₀, hvm₀, by simp [apply, hnone]⟩
      · exact ⟨vm', hvm, rfl⟩
    have hsameBoot : ∀ v, (w.moved inp).boot v = w.boot v := by
      intro v
      rw [World.boot, World.moved_row]
      split_ifs with hv
      · rw [World.boot]
        cases w.row v <;> simp [apply, hnone]
      · rfl
    refine ⟨fun v hv vm' hvm => ?_, fun v b hv => ?_, fun v hv => (by cases hv)⟩
    · obtain ⟨vm₀, hvm₀, heq⟩ := hsame v vm' hvm
      rw [heq]
      exact h.sure v hv vm₀ hvm₀
    · rw [hsameBoot]
      exact h.seen v b hv

lemma release_step {reply : Except VMError Unit} (hrows : Rows w) (hknows : Knows g w)
    (hsure : g.sure = some v)
    (hexec : Call.exec w (.store (.releaseVMReservations v)) e = some (w', reply)) :
    Rows w' ∧ Knows { g with launching := none } w' := by
  have hlog := log_of_store hexec
  -- a row is as it was, or it is the one that gave everything back
  have hrow : ∀ u vm', w'.row u = some vm' → ∃ vm, w.row u = some vm ∧
      vm'.currentBootID = vm.currentBootID ∧ vm'.observedState = vm.observedState ∧
      (vm'.computeReleased = vm.computeReleased ∨ (u = v ∧ vm.observedState = .failed)) := by
    intro u vm' hvm
    have hcase := rowCase hexec u
    rw [hvm] at hcase
    generalize w.row u = old at hcase
    cases hcase with
    | same => exact ⟨vm', rfl, rfl, rfl, .inl rfl⟩
    | marked hc | created hc => exact hc.elim
    | released hfailed => exact ⟨_, rfl, rfl, rfl, .inr ⟨rfl, hfailed⟩⟩
  have hboot : ∀ u, w'.boot u = w.boot u := by
    intro u
    have hcase := rowCase hexec u
    unfold World.boot
    generalize w.row u = old at hcase ⊢
    generalize w'.row u = new at hcase ⊢
    cases hcase with
    | same | released => rfl
    | marked hc | created hc => exact hc.elim
  refine ⟨⟨fun u vm' hvm hreleased => ?_, fun u vm' hvm hstate => ?_⟩,
    ⟨fun u hu vm' hvm => ?_, fun u b hu => ?_, fun u hu => (by cases hu)⟩⟩
  · obtain ⟨vm, hold, heq, -, hcompute | ⟨rfl, -⟩⟩ := hrow u vm' hvm
    · rw [hlog, heq]
      exact hrows.released u vm hold (hcompute ▸ hreleased)
    · rw [hlog, heq]
      exact hknows.sure u hsure vm hold
  · obtain ⟨vm, hold, heq, hst, hcompute | ⟨-, hfailed⟩⟩ := hrow u vm' hvm
    · rw [heq, hcompute]
      exact hrows.fresh u vm hold (hst ▸ hstate)
    · rw [hst, hfailed] at hstate
      cases hstate
  · obtain ⟨vm, hold, heq, -, -⟩ := hrow u vm' hvm
    rw [hlog, heq]
    exact hknows.sure u hu vm hold
  · rw [hlog, hboot]
    exact hknows.seen u b hu

lemma store_step {c : StoreCall} {reply : c.Reply} (hrows : Rows w) (hknows : Knows g w)
    (hc : (evidence tame).guarantee g (.store c))
    (hexec : Call.exec w (.store c) e = some (w', reply)) :
    Rows w' ∧ Knows ((evidence tame).next g (.store c) reply) w' := by
  have hsame : (∀ inp, c ≠ .transitionVM inp) → (∀ v, c ≠ .releaseVMReservations v) →
      Rows w' ∧ Knows g w' := by
    intro hmove hrelease
    have hrow := unmoved_of_store hmove hrelease hexec
    have hlog := log_of_store hexec
    exact ⟨hrows.frame hrow (fun x hx => hlog ▸ hx) fun v b hx => hlog ▸ hx,
      hknows.frame hrow (fun x hx => hlog ▸ hx) fun v b hx => hlog ▸ hx⟩
  cases c with
  | transitionVM inp =>
    cases moveCase hexec with
    | refused => exact ⟨hrows, hknows⟩
    | moved hrow haccepted =>
      exact ⟨hrows.moved hknows hc hrow haccepted, hknows.moved hrows hc hrow haccepted⟩
  | releaseVMReservations v => exact release_step hrows hknows hc hexec
  | getVM v =>
    obtain rfl := world_of_getVM hexec
    cases reply with
    | error err => exact ⟨hrows, hknows⟩
    | ok vm => exact ⟨hrows, hknows.read hrows (row_of_getVM hexec)⟩
  | _ => exact hsame (by simp) (by simp)

lemma call_step (hrows : Rows w) (hknows : Knows g w) (hc : (evidence tame).guarantee g c)
    (hexec : Call.exec w c e = some (w', reply)) :
    Rows w' ∧ Knows ((evidence tame).next g c reply) w' := by
  rcases c with c | c | c
  · exact store_step hrows hknows hc hexec
  · exact host_step hrows hknows hc hexec
  · have htables := tables_of_manager hexec
    have hlog : w'.log = w.log := by
      simp only [Call.exec] at hexec
      split at hexec
      · cases hexec
      · rw [← (Prod.mk.inj (Option.some.inj hexec)).1]
    exact ⟨hrows.frame (.of_tables htables) (fun x hx => hlog ▸ hx) fun v b hx => hlog ▸ hx,
      hknows.frame (.of_tables htables) (fun x hx => hlog ▸ hx) fun v b hx => hlog ▸ hx⟩

end Evidenced

/-! ## Runs -/

/-- The thread has returned, or has not made a call yet. -/
def atRest (s : ManagerPool) (i : Nat) : Bool :=
  (match s.threads[i]? with
    | some (_, p) => p.finished
    | none => true) || s.trace.all fun x => x.1 ≠ i

/-- Calls follow one another: a thread goes on while no other is in the middle of its work. There is
no crash. -/
def serial (s : ManagerPool) : ManagerMove → Bool
  | .start _ => true
  | .step i _ => (List.range s.threads.length).all fun i' => i' = i || atRest s i'
  | .crash _ => false

abbrev Serial (s : ManagerPool) (a : ManagerMove) : Prop := serial s a = true

/-- The forced stop of a stop after a run is settled. -/
def stopsProven (s : ManagerPool) (a : ManagerMove) : Bool := serial s a &&
  match a with
  | .step i e =>
    match s.next? i with
    | some (.stopVMAfterRun _, .host (.forceStop _)) => e.host.settled
    | _ => true
  | _ => true

abbrev StopsProven (s : ManagerPool) (a : ManagerMove) : Prop := stopsProven s a = true

namespace Evidenced

/-- A thread in the middle of its work knows what it knows; one that has not begun knows nothing. -/
structure Inv (γ : Nat → Known) (s : ManagerPool) : Prop where
  rows : Rows s.world
  knows : ∀ i j c k, s.threads[i]? = some (j, .call c k) → Knows (γ i) s.world
  fresh : ∀ i, (∀ x ∈ s.trace, x.1 ≠ i) → γ i = .nothing

variable {γ : Nat → Known} {s : ManagerPool} {i : Nat} {j : Job} {w' : World} {e : Env} {c : Call}
  {k : c.Reply → M Unit}

lemma Inv.add (h : Inv γ s) (j : Job) :
    Inv (update γ s.threads.length .nothing) (lifecycle.add s j) := by
  refine ⟨h.rows, fun i j' c k hget => ?_, fun i hi => ?_⟩
  · rcases System.add_thread hget with ⟨hne, hold⟩ | ⟨rfl, -, -⟩
    · rw [update_of_ne hne]
      exact h.knows i j' c k hold
    · rw [update_self]
      exact knows_nothing
  · by_cases hii : i = s.threads.length
    · rw [hii, update_self]
    · rw [update_of_ne hii]
      exact h.fresh i hi

lemma Inv.called (h : Inv γ s) {reply : c.Reply} (hp : Serial s (.step i e))
    (hthread : s.threads[i]? = some (j, .call c k)) (hc : (evidence (tameJob j)).guarantee (γ i) c)
    (hexec : Call.exec s.world c e = some (w', reply)) :
    Inv (update γ i ((evidence (tameJob j)).next (γ i) c reply)) (s.called i j c k w' reply) := by
  obtain ⟨hrows, hknows⟩ := call_step h.rows (h.knows i j c k hthread) hc hexec
  refine ⟨hrows, fun i' j' c' k' hget => ?_, fun i' hi' => ?_⟩
  · rcases Pool.called_thread hthread hget with ⟨hne, hold⟩ | ⟨rfl, rfl, -⟩
    · -- the other threads are at rest: this one has not begun
      rw [update_of_ne hne]
      have hlt : i' < s.threads.length := (List.getElem?_eq_some_iff.1 hold).1
      have hrest := all_eq_true.1 hp i' (mem_range.2 hlt)
      simp only [hne, decide_false, Bool.false_or, atRest, hold, Prog.finished, Prog.head?,
        Option.isNone_some, all_eq_true, decide_eq_true_eq] at hrest
      rw [h.fresh i' hrest]
      exact knows_nothing
    · rw [update_self]
      exact hknows
  · have hne : i' ≠ i := fun heq => hi' _ (mem_append_right _ mem_cons_self) heq.symm
    rw [update_of_ne hne]
    exact h.fresh i' fun x hx => hi' x (mem_append_left _ hx)

/-- The one answer that is relied on. -/
lemma rely_of_proven {g : Known} {reply : c.Reply} (hp : StopsProven s (.step i e))
    (hthread : s.threads[i]? = some (j, .call c k))
    (hexec : Call.exec s.world c e = some (w', reply)) : (evidence (tameJob j)).rely g c reply := by
  have hproven := (Bool.and_eq_true_iff.1 hp).2
  simp only [Pool.next?_eq_some hthread] at hproven
  rcases c with c | c | c
  · trivial
  · cases c with
    | forceStop v =>
      intro htame
      have hreply : e.host = reply := congrArg Prod.snd (Option.some.inj hexec)
      rw [← hreply]
      cases j with
      | stopVMAfterRun u => exact hproven
      | _ => cases htame
    | _ => trivial
  · trivial

lemma keeps : discipline.Keeps StopsProven Inv where
  start {γ s j} _ hinv _ hentry := by
    refine ⟨?_, hinv.add j⟩
    have hentry' : j.entry = true := hentry
    show j.boot = false
    cases j <;> first | rfl | cases hentry'
  crash _ hp _ := by cases hp
  step {γ s i e j c k w r} _ hinv hp hthread hguarantee hexec := by
    have hcalled := hinv.called (Bool.and_eq_true_iff.1 hp).1 hthread hguarantee hexec
    refine ⟨rely_of_proven hp hthread hexec, hcalled, fun j' hj' => ⟨?_, ?_⟩⟩
    · obtain rfl := goTracked_of_spawn hj'
      exact hguarantee
    · have hadd := hcalled.add j'
      rwa [Pool.called_length] at hadd

end Evidenced

end Observatory.Runtime
