/-
# Dead VMs and their runs

The hook that concludes the run of a VM runs after the VM's row was written, in a transaction of
its own, and so does the conclusion itself, in two steps. In between, what is to be done about a
run is the duty of a thread. A run that is not over, on a VM that is down, is safe as long as some
thread has the duty to conclude it: that is the invariant, and when every thread has returned no
duty is left.
-/
import Observatory.Runtime.Restart

namespace Observatory.Store

/-- The VM is down for good, or until it is started again. -/
def VMState.dead : VMState → Bool
  | .stopped | .failed | .deleting | .deleted => true
  | _ => false

end Observatory.Store

namespace Observatory.Runtime

open Lib Store Function List

/-! ## Duties -/

/-- What a thread still has to do about a run. -/
inductive Duty where
  | idle
  /-- Look for the run of a VM that went down. -/
  | hook (vmID : Bytes)
  | conclude (runID : Bytes)
  /-- Conclude a run that was read in this phase. -/
  | pinned (runID : Bytes) (phase : RunPhase)
  /-- Bring the conclusion it has begun to its end. -/
  | finish (runID : Bytes)
deriving DecidableEq

/-- The calls of a thread without a duty. -/
def Call.free (hooks : Bool) : Call → Prop
  | .store (.transitionVM inp) =>
    if hooks then inp.dest = .stopping ∨ inp.dest = .stopped ∨ inp.dest = .failed
    else inp.dest ≠ .failed
  | .store (.createRun row) => row.phase = .running
  | .store (.transitionRun _ _ _) | .store (.createVMWithOperation _ _)
  | .store (.createVMBatch _ _) | .store (.releaseVMReservations _) => False
  | .manager (.goTracked job) =>
    (∃ v, job = .stopVMAfterRun v) ∨ ∃ r trigger, job = .concludeRun r trigger
  | _ => True

/-- The calls by the duty they are made under. -/
def Duty.permits (hooks : Bool) : Duty → Call → Prop
  | .idle, c => c.free hooks
  | .hook v, .store (.activeRunForVM u) => u = v
  | .hook _, .store (.recordCleanupFailure _ _) => True
  | .conclude r, .store (.getRun r') => r' = r
  | .pinned r ph, .store (.transitionRun r' frm dest) => r' = r ∧ frm = ph ∧ dest = .concluding
  | .finish r, .store (.getRun r') => r' = r
  | .finish r, .store (.transitionRun r' frm dest) =>
    r' = r ∧ frm = .concluding ∧ dest.terminal = true
  | _, _ => False

/-- A thread that takes a VM down has to look for its run. -/
def Call.takesUp (hooks : Bool) : (c : Call) → c.Reply → Duty
  | .store (.transitionVM inp), .ok _ => if hooks ∧ inp.dest.dead then .hook inp.vmID else .idle
  | _, _ => .idle

def Duty.after (hooks : Bool) : Duty → (c : Call) → c.Reply → Duty
  | .idle, c, reply => c.takesUp hooks reply
  | .hook _, .store (.activeRunForVM _), .ok (some run) => .conclude run.runID
  | .hook _, .store (.activeRunForVM _), _ => .idle
  | .conclude r, .store (.getRun _), .ok run =>
    if run.phase.terminal then .idle else .pinned r run.phase
  | .conclude _, .store (.getRun _), .error _ => .idle
  | .pinned r _, .store (.transitionRun _ _ _), .ok _ => .finish r
  | .pinned _ _, .store (.transitionRun _ _ _), .error _ => .idle
  | .finish _, .store (.transitionRun _ _ _), _ => .idle
  | duty, _, _ => duty

/-- The flag `hooks` is for a job that calls the hook when it takes a VM down. A run that is in the way of
the hook has not ended, and a conclusion that was begun is there to be read. -/
@[simps] def concludes (hooks : Bool) : Protocol Call Call.Reply Duty where
  guarantee := Duty.permits hooks
  rely duty
    | .store (.activeRunForVM _), .ok (some run) => run.phase.terminal = false
    | .store (.getRun _), .error _ => ∀ r, duty ≠ .finish r
    | _, _ => True
  next := Duty.after hooks

namespace LiveRuns

variable {hooks : Bool} {duty : Duty} {v r : Bytes} {α : Type}

variable {c : Call} {Φ : Duty → Except ManagerError VM → Prop} {rev : Option Int} {reply : c.Reply}

@[simp] lemma permits_idle : Duty.permits hooks .idle c = c.free hooks := rfl

@[simp] lemma after_idle :
    Duty.after hooks .idle c reply = c.takesUp hooks reply := rfl

attribute [local simp] Call.takesUp.eq_def Call.free.eq_def

lemma wp_postConclude {run : Run} {Φ : Duty → Unit → Prop} (h : Φ .idle ()) :
    (postConclude run).wp (concludes hooks) .idle Φ := by
  simp [postConclude, h]

lemma wp_settleRun {ph : RunPhase} (hterminal : ph.terminal = true)
    {Φ : Duty → Except RunError Run → Prop} (h : ∀ a, Φ .idle a) :
    (settleRun r ph).wp (concludes hooks) (.finish r) Φ := by
  simp [settleRun, Duty.permits, Duty.after, hterminal, wp_postConclude, h]

lemma wp_concludeRun {trigger : ConcludeTrigger} {Φ : Duty → Except RunError Run → Prop}
    (h : ∀ a, Φ .idle a) : (concludeRun r trigger).wp (concludes hooks) (.conclude r) Φ := by
  unfold concludeRun
  rw [Prog.wp_bind, Prog.wp_perform]
  refine ⟨rfl, fun reply _ => ?_⟩
  rcases reply with err | run
  · exact h _
  · by_cases hterminal : run.phase.terminal = true
    · simp [hterminal, Duty.after, h]
    · simp [hterminal, Duty.permits, Duty.after, wp_settleRun, Restart.terminal_evaluateRun, h]

lemma wp_onVMTerminal {Φ : Duty → Unit → Prop} (h : Φ .idle ()) :
    (onVMTerminal v).wp (concludes hooks) (.hook v) Φ := by
  unfold onVMTerminal concludeActive
  rw [Prog.wp_bind, Prog.wp_perform]
  refine ⟨rfl, fun reply hactive => ?_⟩
  rcases reply with err | (_ | run)
  · exact h
  · exact h
  · have hactive' : run.phase.terminal = false := hactive
    simp [hactive', Duty.after, wp_concludeRun, h]

lemma wp_recordDebt {state : VMState} {debt : Bool} {Φ : Duty → Unit → Prop} (h : Φ (.hook v) ()) :
    (recordDebt v state debt).wp (concludes hooks) (.hook v) Φ := by
  cases debt <;> simp [recordDebt, Duty.permits, Duty.after, h]

lemma wp_failAction {cause : ManagerError} (h : ∀ a, Φ .idle a) :
    (failAction v cause).wp (concludes hooks) .idle Φ := by
  simp [failAction, h]

lemma wp_finishStop {forced : Bool} (h : ∀ a, Φ .idle a) :
    (finishStop v forced rev).wp (concludes true) .idle Φ := by
  cases forced <;>
    simp [finishStop, hostStop, settleAction, lifecycleHook, VMState.dead, wp_recordDebt,
      wp_onVMTerminal, wp_failAction, h]

lemma wp_action {a : Action} (ha : a = .stop ∨ a = .forceStop) :
    (action v a rev).wp (concludes true) .idle fun duty _ => duty = .idle := by
  rcases ha with rfl | rfl <;>
    simp [action, withClaim, doAction, doStop, VMState.dead, wp_finishStop, wp_failAction]

lemma wp_releaseForDelete (h : ∀ a, Φ .idle a) :
    (releaseForDelete v).wp (concludes false) .idle Φ := by
  simp [releaseForDelete, h]

lemma wp_finishDelete {vm : VM} {pin : Option Int} {signalled : Bool} (h : ∀ a, Φ .idle a) :
    (finishDelete v vm pin signalled).wp (concludes false) .idle Φ := by
  simp [finishDelete, forceStopOr, wp_releaseForDelete, h]

lemma wp_forceStopForDelete {state : VMState} {pin : Option Int} (h : ∀ a, Φ .idle a) :
    (forceStopForDelete v state pin).wp (concludes false) .idle Φ := by
  simp [forceStopForDelete, forceStopForDelete.reread, forceStopOr, wp_finishDelete, h]

lemma wp_delete {force : Bool} :
    (delete v force rev).wp (concludes false) .idle fun duty _ => duty = .idle := by
  simp [delete, withClaim, doDelete, wp_forceStopForDelete, wp_finishDelete]

lemma wp_settleExit {dest : VMState} (hdest : dest = .stopped ∨ dest = .failed)
    {Φ : Duty → Except ManagerError Unit → Prop} (h : ∀ a, Φ .idle a) :
    (settleExit v dest).wp (concludes true) .idle Φ := by
  rcases hdest with rfl | rfl <;>
    simp [settleExit, VMState.dead, wp_onVMTerminal, h]

lemma wp_notifyVMMExit {b : Option Nat} {graceful : Bool} :
    (notifyVMMExit v b graceful).wp (concludes true) .idle fun duty _ => duty = .idle := by
  simp [notifyVMMExit, withClaim, VMState.dead, wp_settleExit]

lemma wp_stopVMAfterRun :
    (stopVMAfterRun v).wp (concludes false) .idle fun duty _ => duty = .idle := by
  simp [stopVMAfterRun, stopAtAnyRate]

/-! ## The discipline -/

/-- The jobs in question, and what they start. -/
def jobs : Job → Prop
  | .createRun _ | .submitRunResult _ _ | .concludeRun _ _ | .delete _ _ _
  | .notifyVMMExit _ _ _ | .stopVMAfterRun _ => True
  | .action _ a _ => a = .stop ∨ a = .forceStop
  | _ => False

def hooking : Job → Bool
  | .action _ _ _ | .notifyVMMExit _ _ _ => true
  | _ => false

def init : Job → Duty
  | .concludeRun r _ => .conclude r
  | _ => .idle

lemma follows (j : Job) (hj : jobs j) :
    j.prog.wp (concludes (hooking j)) (init j) fun duty _ => duty = .idle := by
  cases j with
  | createRun row => simp [Job.prog, createRun, init]
  | submitRunResult r status => simp [Job.prog, submitRunResult, init]
  | concludeRun r trigger => exact wp_ignore.2 (wp_concludeRun fun _ => rfl)
  | action v a rev => exact wp_ignore.2 (wp_action hj)
  | delete v force rev => exact wp_ignore.2 wp_delete
  | notifyVMMExit v b graceful => exact wp_ignore.2 wp_notifyVMMExit
  | stopVMAfterRun v => exact wp_stopVMAfterRun
  | _ => exact hj.elim

def discipline : Discipline lifecycle Duty where
  protocol j := concludes (hooking j)
  init := init
  idle := .idle
  done duty := duty = .idle
  jobs := jobs
  done_idle := rfl
  follows := follows

end LiveRuns

/-! ## Runs -/

def World.down (w : World) (v : Bytes) : Bool :=
  match w.row v with
  | some vm => vm.observedState.dead
  | none => false

/-- The calls the property is about, with no store error; a run is not inserted on a VM that is
down, and a job that does not call the hook itself (a delete, the stop after a run) takes no VM down
whose run has not ended. -/
def runsGuarded (s : ManagerPool) : ManagerMove → Bool
  | .start j =>
    match j with
    | .createRun _ | .submitRunResult _ _ | .delete _ _ _ | .notifyVMMExit _ _ _ => true
    | .action _ a _ => a = .stop || a = .forceStop
    | _ => false
  | .step i e => !e.fault &&
    match s.next? i with
    | some (_, .store (.createRun row)) => !s.world.down row.vmID
    | some (j, .store (.transitionVM inp)) =>
      LiveRuns.hooking j || inp.dest ≠ .stopped ||
        (activeRunForVM s.world.tables.runs inp.vmID).isNone
    | _ => true
  | .crash _ => false

abbrev RunsGuarded (s : ManagerPool) (a : ManagerMove) : Prop := runsGuarded s a = true

namespace LiveRuns

/-- Every run that needs it is some thread's duty. -/
structure Inv (γ : Nat → Duty) (w : World) : Prop where
  table : RunTable w.tables.runs
  concluding : ∀ run ∈ w.tables.runs, run.phase = .concluding → ∃ i, γ i = .finish run.runID
  finish : ∀ i r, γ i = .finish r → ∃ run, Store.getRun w.tables.runs r = some run ∧
    (run.phase = .concluding ∨ run.phase.terminal = true)
  down : ∀ run ∈ w.tables.runs, run.accepting = true → w.down run.vmID = true →
    ∃ i, γ i = .hook run.vmID ∨ γ i = .conclude run.runID ∨ γ i = .pinned run.runID run.phase

variable {γ : Nat → Duty} {w w' : World} {i : Nat} {e : Env} {v r : Bytes} {duty : Duty}

variable {run : Run} {ph : RunPhase}

lemma accepting_iff :
    run.accepting = true ↔ run.active = true ∧ run.phase ≠ .concluding := by
  unfold Run.accepting Run.active
  cases run.phase <;> simp [RunPhase.terminal]

lemma Inv.take (h : Inv γ w) (hidle : γ i = .idle) (hduty : ∀ r, duty ≠ .finish r) :
    Inv (update γ i duty) w := by
  have hkeep : ∀ {d}, d ≠ Duty.idle → ∀ i', γ i' = d → update γ i duty i' = d := by
    rintro d hd i' rfl
    refine update_of_ne (fun heq => hd ?_) _ _
    rw [heq, hidle]
  refine ⟨h.table, fun run hmem hphase => ?_, fun i' r hi' => ?_, fun run hmem hacc hdown => ?_⟩
  · obtain ⟨i', hi'⟩ := h.concluding run hmem hphase
    exact ⟨i', hkeep (by simp) i' hi'⟩
  · by_cases hii : i' = i
    · rw [hii, update_self] at hi'
      exact absurd hi' (hduty r)
    · rw [update_of_ne hii] at hi'
      exact h.finish i' r hi'
  · obtain ⟨i', hi' | hi' | hi'⟩ := h.down run hmem hacc hdown
    · exact ⟨i', .inl (hkeep (by simp) i' hi')⟩
    · exact ⟨i', .inr (.inl (hkeep (by simp) i' hi'))⟩
    · exact ⟨i', .inr (.inr (hkeep (by simp) i' hi'))⟩

lemma Inv.frame (h : Inv γ w) (hruns : w'.tables.runs = w.tables.runs)
    (hdown : ∀ v, w'.down v = true → w.down v = true) : Inv γ w' := by
  refine ⟨hruns ▸ h.table, fun run hmem => ?_, fun i r hi => ?_, fun run hmem hacc hd => ?_⟩
  · rw [hruns] at hmem
    exact h.concluding run hmem
  · rw [hruns]
    exact h.finish i r hi
  · rw [hruns] at hmem
    exact h.down run hmem hacc (hdown _ hd)

/-- A thread changes its duty while the runs and the VMs stay as they are: the runs that counted on
it count on it still, or need nobody. -/
lemma Inv.pass (h : Inv γ w) {duty' : Duty} (hfinish : ∀ r, duty' ≠ .finish r)
    (hconcluding : ∀ run ∈ w.tables.runs, run.phase = .concluding → γ i ≠ .finish run.runID)
    (hdown : ∀ run ∈ w.tables.runs, run.accepting = true → w.down run.vmID = true →
      γ i = .hook run.vmID ∨ γ i = .conclude run.runID ∨ γ i = .pinned run.runID run.phase →
      duty' = .conclude run.runID ∨ duty' = .pinned run.runID run.phase) :
    Inv (update γ i duty') w := by
  refine ⟨h.table, fun run hmem hphase => ?_, fun i' r hi' => ?_, fun run hmem hacc hd => ?_⟩
  · obtain ⟨i', hi'⟩ := h.concluding run hmem hphase
    refine ⟨i', ?_⟩
    rwa [update_of_ne]
    rintro rfl
    exact hconcluding run hmem hphase hi'
  · by_cases hii : i' = i
    · rw [hii, update_self] at hi'
      exact absurd hi' (hfinish r)
    · rw [update_of_ne hii] at hi'
      exact h.finish i' r hi'
  · obtain ⟨i', hi'⟩ := h.down run hmem hacc hd
    by_cases hii : i' = i
    · subst hii
      exact ⟨i', .inr (by rw [update_self]; exact hdown run hmem hacc hd hi')⟩
    · exact ⟨i', by rwa [update_of_ne hii]⟩

lemma Inv.found (h : Inv γ w) (hi : γ i = .hook v)
    (hfound : activeRunForVM w.tables.runs v = some run) :
    Inv (update γ i (.conclude run.runID)) w := by
  refine h.pass (fun r => by simp) (fun run _ _ => by simp [hi]) ?_
  intro run' hmem' hacc _ hcounts
  have hv : v = run'.vmID := by simpa [hi] using hcounts
  obtain ⟨hmem, hv', hactive⟩ := mem_of_activeRunForVM hfound
  rw [h.table.single run hmem run' hmem' hactive (accepting_iff.1 hacc).1 (hv'.trans hv)]
  exact .inl rfl

lemma Inv.notFound (h : Inv γ w) (hi : γ i = .hook v)
    (hfound : activeRunForVM w.tables.runs v = none) : Inv (update γ i .idle) w := by
  refine h.pass (fun r => by simp) (fun run _ _ => by simp [hi]) ?_
  intro run hmem hacc _ hcounts
  have hv : v = run.vmID := by simpa [hi] using hcounts
  have hactive := (accepting_iff.1 hacc).1
  exact absurd (activeRunForVM_eq_none.1 hfound run hmem hv.symm) (by simp [hactive])

lemma Inv.read (h : Inv γ w) (hi : γ i = .conclude r)
    (hrun : Store.getRun w.tables.runs r = some run) :
    Inv (update γ i (if run.phase.terminal then .idle else .pinned r run.phase)) w := by
  refine h.pass (fun r => by split_ifs <;> simp) (fun run _ _ => by simp [hi]) ?_
  intro run' hmem hacc _ hcounts
  have hr : r = run'.runID := by simpa [hi] using hcounts
  obtain rfl : run = run' := Option.some.inj (hrun.symm.trans (hr ▸ h.table.get hmem))
  have hactive := (accepting_iff.1 hacc).1
  simp only [Run.active, Bool.not_eq_true'] at hactive
  exact .inr (by simp [hactive, hr])

lemma Inv.missing (h : Inv γ w) (hi : γ i = .conclude r ∨ ∃ ph, γ i = .pinned r ph)
    (hrun : Store.getRun w.tables.runs r = none) : Inv (update γ i .idle) w := by
  have hno : ∀ run ∈ w.tables.runs, r ≠ run.runID :=
    fun run hmem heq => Table.find_eq_none.1 hrun run hmem heq.symm
  rcases hi with hi | ⟨ph, hi⟩
  · refine h.pass (fun r => by simp) (fun run _ _ => by simp [hi]) ?_
    intro run hmem _ _ hcounts
    exact absurd (by simpa [hi] using hcounts) (hno run hmem)
  · refine h.pass (fun r => by simp) (fun run _ _ => by simp [hi]) ?_
    intro run hmem _ _ hcounts
    exact absurd (by simpa [hi] using hcounts : _ ∧ _).1 (hno run hmem)

lemma Inv.lost (h : Inv γ w) (hi : γ i = .pinned r ph)
    (hrun : Store.getRun w.tables.runs r = some run)
    (hwhy : ph ≠ run.phase ∨ runTransitionAllowed run.phase .concluding = false) :
    Inv (update γ i .idle) w := by
  refine h.pass (fun r => by simp) (fun run _ _ => by simp [hi]) ?_
  intro run' hmem hacc _ hcounts
  obtain ⟨hr, hph⟩ : r = run'.runID ∧ ph = run'.phase := by simpa [hi] using hcounts
  obtain rfl : run = run' := Option.some.inj (hrun.symm.trans (hr ▸ h.table.get hmem))
  rcases hwhy with hne | hedge
  · exact absurd hph hne
  · unfold Run.accepting at hacc
    cases hphase : run.phase <;>
      simp_all [runTransitionAllowed, validRunTransitions]

lemma mem_setPhase {runs : List Run} (h : run ∈ setPhase r ph runs) (hphase : run.phase ≠ ph) :
    run ∈ runs ∧ run.runID ≠ r := by
  rcases Table.mem_modify h with hold | ⟨run', -, -, rfl⟩
  · exact hold
  · exact absurd rfl hphase

/-- The world with one run in another phase. -/
abbrev World.phased (w : World) (r : Bytes) (ph : RunPhase) : World :=
  { w with tables := ⟨w.tables.vms, setPhase r ph w.tables.runs⟩ }

/-- A conclusion begins, which makes it the duty of the thread that began it, or is over. -/
lemma Inv.setPhase (h : Inv γ w) (hi : γ i = .finish r ∨ ∃ ph₀, γ i = .pinned r ph₀)
    (hrun : Store.getRun w.tables.runs r = some run)
    (hedge : runTransitionAllowed run.phase ph = true) {duty' : Duty}
    (hph : ph = .concluding ∧ duty' = .finish r ∨ ph.terminal = true ∧ duty' = .idle) :
    Inv (update γ i duty') (World.phased w r ph) := by
  -- the thread had no duty about another run
  have hother : ∀ {i' : Nat} {run' : Run}, run'.runID ≠ r →
      (γ i' = .finish run'.runID ∨ γ i' = .hook run'.vmID ∨ γ i' = .conclude run'.runID ∨
        γ i' = .pinned run'.runID run'.phase) → i' ≠ i := by
    rintro i' run' hr hi' rfl
    rcases hi with hi | ⟨ph₀, hi⟩ <;> simp [hi, Ne.symm hr] at hi'
  refine ⟨h.table.setPhase hrun hedge, fun run' hmem hphase => ?_, fun i' r' hi' => ?_,
    fun run' hmem hacc hd => ?_⟩
  · by_cases hr : run'.runID = r
    · rcases hph with ⟨-, rfl⟩ | ⟨hterminal, -⟩
      · exact ⟨i, by rw [update_self, hr]⟩
      · have hne : run'.phase ≠ ph := by
          rintro rfl
          rw [hphase] at hterminal
          cases hterminal
        exact absurd hr (mem_setPhase hmem hne).2
    · rcases Table.mem_modify hmem with ⟨hold, -⟩ | ⟨run'', -, hr', rfl⟩
      · obtain ⟨i', hi'⟩ := h.concluding run' hold hphase
        exact ⟨i', by rwa [update_of_ne (hother hr (.inl hi'))]⟩
      · exact absurd hr' hr
  · by_cases hr : r' = r
    · subst hr
      exact ⟨_, getRun_setPhase.trans (by rw [hrun]; rfl), hph.imp And.left And.left⟩
    · rw [update_of_ne] at hi'
      · obtain ⟨run', hrun', hphase⟩ := h.finish i' r' hi'
        exact ⟨run', (getRun_setPhase_of_ne hr).trans hrun', hphase⟩
      · rintro rfl
        rw [update_self] at hi'
        rcases hph with ⟨-, rfl⟩ | ⟨-, rfl⟩ <;> cases hi'
        exact hr rfl
  · have hne : run'.phase ≠ ph := by
      rintro rfl
      obtain ⟨hactive, hnot⟩ := accepting_iff.1 hacc
      rcases hph with ⟨hph, -⟩ | ⟨hterminal, -⟩
      · exact hnot hph
      · simp [Run.active, hterminal] at hactive
    obtain ⟨hold, hr⟩ := mem_setPhase hmem hne
    obtain ⟨i', hi'⟩ := h.down run' hold hacc hd
    exact ⟨i', by rwa [update_of_ne (hother hr (.inr hi'))]⟩

lemma Inv.over (h : Inv γ w) (hi : γ i = .finish r)
    (hrun : Store.getRun w.tables.runs r = some run) (hterminal : ph.terminal = true)
    (hwhy : .concluding ≠ run.phase ∨ runTransitionAllowed run.phase ph = false) :
    Inv (update γ i .idle) w := by
  refine h.pass (fun r => by simp) (fun run' hmem hphase heq => ?_) fun run' _ _ _ hcounts => ?_
  · have hr : r = run'.runID := Duty.finish.inj (hi.symm.trans heq)
    obtain rfl : run = run' := Option.some.inj (hrun.symm.trans (hr ▸ h.table.get hmem))
    rcases hwhy with hne | hedge
    · exact hne hphase.symm
    · rw [hphase, Restart.allowed_of_terminal hterminal] at hedge
      cases hedge
  · simp [hi] at hcounts

lemma Inv.inserted (h : Inv γ w) {row : Run} {runs' : List Run} (hphase : row.phase = .running)
    (hup : w.down row.vmID = false) (hok : Store.createRun w.tables.runs row = .ok runs') :
    Inv γ { w with tables := ⟨w.tables.vms, runs'⟩ } := by
  obtain ⟨-, htable⟩ := createRun_ok hok
  obtain ⟨hfresh, rfl⟩ := Table.insert_eq_some.1 htable
  refine ⟨h.table.insert hok, fun run hmem hrun => ?_, fun i r hi => ?_, fun run hmem hacc hd => ?_⟩
  · rcases mem_append.1 hmem with hold | hnew
    · exact h.concluding run hold hrun
    · obtain rfl := mem_singleton.1 hnew
      rw [hphase] at hrun
      cases hrun
  · obtain ⟨run, hget, hwhere⟩ := h.finish i r hi
    refine ⟨run, ?_, hwhere⟩
    rw [Store.getRun, Table.find_append_singleton, ← Store.getRun, hget]
    rfl
  · rcases mem_append.1 hmem with hold | hnew
    · exact h.down run hold hacc hd
    · obtain rfl := mem_singleton.1 hnew
      exact absurd (hup.symm.trans hd) (by simp)

/-- A result is recorded: nobody's duty changes. -/
lemma Inv.result (h : Inv γ w) {status : ResultStatus} :
    Inv γ { w with tables := ⟨w.tables.vms, Table.modify Run.runID r
      (fun run => { run with resultStatus := some status }) w.tables.runs⟩ } := by
  have horigin : ∀ run ∈ Table.modify Run.runID r
      (fun run => { run with resultStatus := some status }) w.tables.runs,
      ∃ run₀ ∈ w.tables.runs, run₀.runID = run.runID ∧ run₀.vmID = run.vmID ∧
        run₀.phase = run.phase := by
    intro run hmem
    obtain ⟨run₀, hmem₀, rfl⟩ := mem_map.1 hmem
    exact ⟨run₀, hmem₀, by split_ifs <;> exact ⟨rfl, rfl, rfl⟩⟩
  refine ⟨h.table.modify (fun _ => rfl) (fun _ => rfl) fun _ _ _ ha => ha, fun run hmem hphase => ?_,
    fun i r' hi => ?_, fun run hmem hacc hd => ?_⟩
  · obtain ⟨run₀, hmem₀, hid, -, hph⟩ := horigin run hmem
    exact hid ▸ h.concluding run₀ hmem₀ (hph.trans hphase)
  · obtain ⟨run, hget, hwhere⟩ := h.finish i r' hi
    by_cases hr : r' = r
    · refine ⟨{ run with resultStatus := some status }, ?_, hwhere⟩
      rw [getRun_modify (by exact fun _ => rfl), if_pos hr, hget]
      rfl
    · refine ⟨run, ?_, hwhere⟩
      rw [getRun_modify (by exact fun _ => rfl), if_neg hr, hget]
  · obtain ⟨run₀, hmem₀, hid, hvm, hph⟩ := horigin run hmem
    have hacc₀ : run₀.accepting = true := by rwa [Run.accepting, hph]
    have hdown := h.down run₀ hmem₀ hacc₀ (hvm ▸ hd)
    rwa [hid, hvm, hph] at hdown

/-- A VM moves. If it goes down, the thread that takes it down has the duty to look for its run, or
there is none. -/
lemma Inv.moved (h : Inv γ w) (hi : γ i = .idle) {hooks : Bool} {inp : TransitionInput} {vm : VM}
    (hrow : w.row inp.vmID = some vm) (haccepted : inp.Accepted vm e.admitted)
    (hc : (Call.store (.transitionVM inp)).free hooks)
    (hnone : hooks = false → inp.dest = .stopped →
      activeRunForVM w.tables.runs inp.vmID = none) :
    Inv (update γ i (if hooks ∧ inp.dest.dead then .hook inp.vmID else .idle)) (w.moved inp) := by
  have htake : Inv (update γ i (if hooks ∧ inp.dest.dead then .hook inp.vmID else .idle)) w :=
    h.take hi (fun r => by split_ifs <;> simp)
  refine ⟨h.table, htake.concluding, htake.finish, fun run hmem hacc hd => ?_⟩
  by_cases hbefore : w.down run.vmID = true
  · exact htake.down run hmem hacc hbefore
  -- the VM was up: it is the one that moved, and it went down
  have hv : run.vmID = inp.vmID := by
    by_contra hne
    exact hbefore (by simpa [World.down, World.moved_row, hne] using hd)
  have hdead : inp.dest.dead = true := by
    simpa [World.down, World.moved_row, hv, hrow] using hd
  have hlive : vm.observedState.dead = false := by
    simpa [World.down, hv, hrow] using hbefore
  cases hooks with
  | true => exact ⟨i, .inl (by rw [update_self, if_pos ⟨rfl, hdead⟩, hv])⟩
  | false =>
    have hedge := haccepted.edge
    cases hdest : inp.dest with
    | stopped =>
      have hactive := (accepting_iff.1 hacc).1
      have hover := activeRunForVM_eq_none.1 (hnone rfl hdest) run hmem hv
      exact absurd hover (by simp [hactive])
    | failed => exact absurd hdest (by simpa [Call.free] using hc)
    | deleting | deleted =>
      rw [hdest] at hedge
      cases hstate : vm.observedState <;>
        simp_all [transitionAllowed, validTransitions, VMState.dead]
    | _ =>
      rw [hdest] at hdead
      cases hdead

lemma down_of_exec {c : Call} {reply : c.Reply} (hexec : Call.exec w c e = some (w', reply))
    (hc : ∀ inp, c ≠ .store (.transitionVM inp)) (hd : w'.down v = true) : w.down v = true := by
  have hcase := rowCase hexec v
  unfold World.down at hd ⊢
  generalize w.row v = old at hcase ⊢
  generalize w'.row v = new at hcase hd
  cases hcase with
  | same | marked | released => exact hd
  | created => cases hd
  | moved => exact absurd rfl (hc _)

variable {hooks : Bool} {c : Call} {reply : c.Reply}

/-- A call that touches neither runs nor states keeps every duty as it was. -/
lemma Inv.unmoved (h : Inv γ w) (hexec : Call.exec w c e = some (w', reply))
    (hruns : c.onRuns = false) (hc : ∀ inp, c ≠ .store (.transitionVM inp)) : Inv γ w' :=
  h.frame (runs_of_other hruns hexec) fun _ hd => down_of_exec hexec hc hd

lemma Inv.idle_step (h : Inv γ w) (hi : γ i = .idle) (hfree : c.free hooks)
    (hexec : Call.exec w c e = some (w', reply))
    (hup : ∀ row, c = .store (.createRun row) → w.down row.vmID = false)
    (hstop : hooks = false → ∀ inp, c = .store (.transitionVM inp) → inp.dest = .stopped →
      activeRunForVM w.tables.runs inp.vmID = none) :
    Inv (update γ i (c.takesUp hooks reply)) w' := by
  have hstay : ∀ {w'}, Inv γ w' → Inv (update γ i .idle) w' := by
    intro w' h'
    rwa [← hi, update_eq_self]
  rcases c with c | c | c
  · cases c with
    | transitionVM inp =>
      cases moveCase hexec with
      | refused => exact hstay h
      | moved hrow haccepted =>
        exact h.moved hi hrow haccepted hfree fun hhooks => hstop hhooks inp rfl
    | createRun row =>
      rcases createRun_cases hexec with rfl | ⟨runs', hok, rfl⟩
      · exact hstay h
      · exact hstay (h.inserted hfree (hup row rfl) hok)
    | submitRunResult r status =>
      rcases submitRunResult_cases hexec with ⟨rfl, -⟩ | ⟨-, rfl⟩
      · exact hstay h
      · exact hstay h.result
    | transitionRun | createVMWithOperation | createVMBatch => exact hfree.elim
    | _ => exact hstay (h.unmoved hexec rfl (by simp))
  · exact hstay (h.unmoved hexec rfl (by simp))
  · exact hstay (h.unmoved hexec rfl (by simp))

lemma getRun_reply {reply : Except RunError Run} (hfault : e.fault = false)
    (hexec : Call.exec w (.store (.getRun r)) e = some (w', reply)) :
    w' = w ∧ ((∃ run, Store.getRun w.tables.runs r = some run ∧ reply = .ok run) ∨
      (Store.getRun w.tables.runs r = none ∧ reply = .error .runNotFound)) := by
  obtain ⟨rfl, rfl⟩ := hexec
  refine ⟨rfl, ?_⟩
  cases hrun : Store.getRun w.tables.runs r <;> simp [answer, hfault]

lemma activeRun_reply {reply : Except RunError (Option Run)} (hfault : e.fault = false)
    (hexec : Call.exec w (.store (.activeRunForVM v)) e = some (w', reply)) :
    w' = w ∧ reply = .ok (activeRunForVM w.tables.runs v) := by
  obtain ⟨rfl, rfl⟩ := hexec
  exact ⟨rfl, by simp [answer, hfault]⟩

lemma Inv.duty_step (h : Inv γ w) (hi : γ i ≠ .idle) (hpermits : (γ i).permits hooks c)
    (hfault : e.fault = false) (hexec : Call.exec w c e = some (w', reply)) :
    (concludes hooks).rely (γ i) c reply ∧ Inv (update γ i ((γ i).after hooks c reply)) w' := by
  cases hduty : γ i with
  | idle => exact absurd hduty hi
  | hook v =>
    rw [hduty] at hpermits
    rcases c with c | c | c
    · cases c with
      | activeRunForVM u =>
        obtain rfl : u = v := hpermits
        obtain ⟨rfl, rfl⟩ := activeRun_reply hfault hexec
        cases hfound : activeRunForVM w'.tables.runs u with
        | none => exact ⟨trivial, h.notFound hduty hfound⟩
        | some run =>
          have hactive := (mem_of_activeRunForVM hfound).2.2
          simp only [Run.active, Bool.not_eq_true'] at hactive
          exact ⟨hactive, h.found hduty hfound⟩
      | recordCleanupFailure u state =>
        refine ⟨trivial, ?_⟩
        rw [← hduty, show (γ i).after hooks (.store (.recordCleanupFailure u state)) reply = γ i by
          rw [hduty]; rfl, update_eq_self]
        exact h.unmoved hexec rfl (by simp)
      | _ => exact hpermits.elim
    · exact hpermits.elim
    · exact hpermits.elim
  | conclude r =>
    rw [hduty] at hpermits
    rcases c with c | c | c
    · cases c with
      | getRun r' =>
        obtain rfl : r' = r := hpermits
        obtain ⟨rfl, ⟨run, hrun, rfl⟩ | ⟨hrun, rfl⟩⟩ := getRun_reply hfault hexec
        · exact ⟨trivial, h.read hduty hrun⟩
        · exact ⟨fun r => by simp, h.missing (.inl hduty) hrun⟩
      | _ => exact hpermits.elim
    · exact hpermits.elim
    · exact hpermits.elim
  | pinned r ph =>
    rw [hduty] at hpermits
    rcases c with c | c | c
    · cases c with
      | transitionRun r' frm dest =>
        obtain ⟨rfl, rfl, rfl⟩ := hpermits
        refine ⟨trivial, ?_⟩
        cases phaseCase hexec with
        | fault hbad => exact absurd hbad (by simp [hfault])
        | missing hrun => exact h.missing (.inr ⟨_, hduty⟩) hrun
        | invalid hrun hwhy => exact h.lost hduty hrun hwhy
        | moved hrun _ hedge => exact h.setPhase (.inr ⟨_, hduty⟩) hrun hedge (.inl ⟨rfl, rfl⟩)
      | _ => exact hpermits.elim
    · exact hpermits.elim
    · exact hpermits.elim
  | finish r =>
    rw [hduty] at hpermits
    obtain ⟨run, hrun, -⟩ := h.finish i r hduty
    rcases c with c | c | c
    · cases c with
      | getRun r' =>
        obtain rfl : r' = r := hpermits
        obtain ⟨rfl, ⟨run', -, rfl⟩ | ⟨hnone, -⟩⟩ := getRun_reply hfault hexec
        · refine ⟨trivial, ?_⟩
          rw [show Duty.after hooks (.finish r') (.store (.getRun r')) (.ok run') = γ i from
            hduty.symm, update_eq_self]
          exact h
        · rw [hrun] at hnone
          cases hnone
      | transitionRun r' frm dest =>
        obtain ⟨rfl, rfl, hterminal⟩ := hpermits
        refine ⟨trivial, ?_⟩
        cases phaseCase hexec with
        | fault hbad => exact absurd hbad (by simp [hfault])
        | missing hnone =>
          rw [hrun] at hnone
          cases hnone
        | invalid hrun' hwhy => exact h.over hduty hrun' hterminal hwhy
        | moved hrun' _ hedge => exact h.setPhase (.inl hduty) hrun' hedge (.inr ⟨hterminal, rfl⟩)
      | _ => exact hpermits.elim
    · exact hpermits.elim
    · exact hpermits.elim

variable {s : ManagerPool} {j : Job} {k : c.Reply → M Unit}

lemma rely_idle (hfault : e.fault = false) (hexec : Call.exec w c e = some (w', reply)) :
    (concludes hooks).rely .idle c reply := by
  rw [concludes_rely]
  split
  · rename_i v run
    have hfound := (activeRun_reply hfault hexec).2
    have hactive := (mem_of_activeRunForVM (Except.ok.inj hfound).symm).2.2
    simpa [Run.active] using hactive
  · simp
  · trivial

lemma Inv.step (h : Inv γ s.world) (hp : RunsGuarded s (.step i e))
    (hthread : s.threads[i]? = some (j, .call c k)) (hpermits : (γ i).permits (hooking j) c)
    (hexec : Call.exec s.world c e = some (w', reply)) :
    (concludes (hooking j)).rely (γ i) c reply ∧
      Inv (update γ i ((γ i).after (hooking j) c reply)) w' := by
  obtain ⟨hnofault, hguard⟩ := Bool.and_eq_true_iff.1 hp
  have hfault : e.fault = false := by simpa using hnofault
  rw [Pool.next?_eq_some hthread] at hguard
  by_cases hi : γ i = .idle
  · rw [hi] at hpermits ⊢
    refine ⟨rely_idle hfault hexec, h.idle_step hi hpermits hexec ?_ ?_⟩
    · rintro row rfl
      simpa using hguard
    · rintro hhooks inp rfl hdest
      simpa [hhooks, hdest] using hguard
  · exact h.duty_step hi hpermits hfault hexec

/-- What a thread starts in the background is a job of the discipline. -/
lemma spawn_permitted {j' : Job} (hpermits : duty.permits hooks c) (h : spawn c reply = some j') :
    jobs j' ∧ ∀ r, init j' ≠ .finish r := by
  obtain rfl := goTracked_of_spawn h
  cases duty with
  | idle => obtain ⟨v, rfl⟩ | ⟨r, trigger, rfl⟩ := hpermits <;> exact ⟨trivial, by simp [init]⟩
  | _ => exact hpermits.elim

lemma keeps : discipline.Keeps RunsGuarded fun γ s => Inv γ s.world where
  start {γ s j} hcoupled hinv hp _ := by
    have hidle : γ s.threads.length = .idle := hcoupled.idle _ le_rfl
    cases j with
    | createRun | submitRunResult | delete | notifyVMMExit =>
      exact ⟨trivial, hinv.take hidle (by simp [discipline, init])⟩
    | action v a rev =>
      have ha : a = .stop ∨ a = .forceStop := by simpa [RunsGuarded, runsGuarded] using hp
      exact ⟨ha, hinv.take hidle (by simp [discipline, init])⟩
    | _ => cases hp
  crash _ hp _ := by cases hp
  step {γ s i e j c k w r} hcoupled hinv hp hthread hguarantee hexec := by
    obtain ⟨hrely, hcalled⟩ := hinv.step hp hthread hguarantee hexec
    refine ⟨hrely, hcalled, fun j' hj' => ?_⟩
    obtain ⟨hjob, hduty⟩ := spawn_permitted hguarantee hj'
    refine ⟨hjob, hcalled.take ?_ hduty⟩
    rw [update_of_ne (Nat.ne_of_gt (List.getElem?_eq_some_iff.1 hthread).1)]
    exact hcoupled.idle _ le_rfl

end LiveRuns

/-- **A dead VM has no live run.**  The calls are those of the run engine, stops, deletes and exit
notices, with whatever they start in the background; the store does not fail, runs are inserted on
VMs that are not down, and a delete or a stop after a run takes a VM down only when its run has
ended. If nothing was wrong at the beginning, then once every call has returned no run that has
not ended is on a VM that is `stopped`, `failed`, `deleting` or `deleted`. -/
theorem dead_vm_has_no_live_run {w : World} {as : List ManagerMove} {s : ManagerPool}
    (htable : RunTable w.tables.runs) (hphase : ∀ run ∈ w.tables.runs, run.phase ≠ .concluding)
    (hup : ∀ run ∈ w.tables.runs, run.active = true → ∀ vm, w.row run.vmID = some vm →
      vm.observedState.dead = false) (hrun : run lifecycle.step (Pool.quiet w) as = some s)
    (hguarded : Along lifecycle.step RunsGuarded (Pool.quiet w) as) (hsettled : s.Settled) :
    ∀ run ∈ s.world.tables.runs, run.active = true → ∀ vm, s.world.row run.vmID = some vm →
      vm.observedState.dead = false := by
  have hinit : LiveRuns.Inv (fun _ => .idle) w := by
    refine ⟨htable, fun run hmem h => absurd h (hphase run hmem), fun i r h => (by cases h),
      fun run hmem hacc hdown => ?_⟩
    exfalso
    unfold World.down at hdown
    cases hrow : w.row run.vmID with
    | none => simp [hrow] at hdown
    | some vm =>
      have hlive := hup run hmem (LiveRuns.accepting_iff.1 hacc).1 vm hrow
      simp [hrow, hlive] at hdown
  obtain ⟨γ, hcoupled, hinv⟩ := LiveRuns.keeps.run_coupled
    ⟨_, Discipline.coupled_quiet w, hinit⟩ hguarded hrun
  have hidle : ∀ i, γ i = .idle := hcoupled.done hsettled
  intro run hmem hactive vm hrow
  by_contra hdead
  have hconcluding : run.phase ≠ .concluding := by
    intro h
    obtain ⟨i, hi⟩ := hinv.concluding run hmem h
    simp [hidle] at hi
  have hdown : s.world.down run.vmID = true := by simpa [World.down, hrow] using hdead
  obtain ⟨i, hi⟩ := hinv.down run hmem (LiveRuns.accepting_iff.2 ⟨hactive, hconcluding⟩) hdown
  simp [hidle] at hi

def runningWithRun : World :=
  { World.new with
    tables := ⟨[{ VM.new [1] with observedState := .running }], [{ guestRun with phase := .running }]⟩ }

lemma runningWithRun_ok : RunTable runningWithRun.tables.runs ∧
    (∀ run ∈ runningWithRun.tables.runs, run.phase ≠ .concluding) ∧
    ∀ run ∈ runningWithRun.tables.runs, run.active = true → ∀ vm,
      runningWithRun.row run.vmID = some vm → vm.observedState.dead = false := by
  refine ⟨⟨nodup_singleton _, fun a ha b hb _ _ _ => ?_⟩, fun run hmem => ?_,
    fun run hmem _ vm hrow => ?_⟩
  · rw [mem_singleton.1 ha, mem_singleton.1 hb]
  · rw [mem_singleton.1 hmem]
    simp
  · rw [mem_singleton.1 hmem] at hrow
    rw [← Option.some.inj hrow]
    rfl

/-- A forced delete never looks for the run of its VM. -/
theorem deleted_vm_keeps_run :
    ∃ s : ManagerPool, run lifecycle.step (Pool.quiet runningWithRun)
        (.start (.delete [1] true none) :: calls 0 12) = some s ∧ s.Settled ∧
      ∃ run ∈ s.world.tables.runs, run.active = true ∧
        ∃ vm, s.world.row run.vmID = some vm ∧ vm.observedState = .deleted := by
  decide +kernel

theorem dead_vm_has_no_live_run_stop :
    ∃ s : ManagerPool, run lifecycle.step (Pool.quiet runningWithRun)
        (.start (.action [1] .stop none) :: calls 0 12) = some s ∧ s.Settled ∧
      ∀ run ∈ s.world.tables.runs, run.active = true → ∀ vm, s.world.row run.vmID = some vm →
        vm.observedState.dead = false := by
  refine ⟨_, yields (by decide +kernel), by decide +kernel, ?_⟩
  exact dead_vm_has_no_live_run runningWithRun_ok.1 runningWithRun_ok.2.1 runningWithRun_ok.2.2
    (yields _) (by decide +kernel) (by decide +kernel)

/-! ## Verdicts -/

/-- **A verdict is final.** However the manager's jobs interleave and wherever the process crashes
and starts again: a run keeps its row and its VM, its phase only moves along the edges, and a run
that has ended stays as it ended, whoever else is about to conclude it. -/
theorem verdict_final {s s' : ManagerPool} {as : List ManagerMove} {r : Bytes} {run : Run}
    (hget : Store.getRun s.world.tables.runs r = some run)
    (hrun : Lib.run lifecycle.step s as = some s') :
    ∃ run', Store.getRun s'.world.tables.runs r = some run' ∧ run'.vmID = run.vmID ∧
      LeadsTo run.phase run'.phase ∧ (run.phase.terminal = true → run'.phase = run.phase) := by
  obtain ⟨run', hget', hvm, hpath⟩ : Followed r run s'.world.tables.runs := by
    refine runs_run (fun h hins => h.insert hins) (fun h hfound hedge => ?_)
      (fun r' status h => ?_) ⟨run, hget, rfl, .refl⟩ hrun
    · exact h.modify (fun _ => rfl) (fun _ => rfl) fun a ha =>
        .inr (Option.some.inj (hfound.symm.trans ha) ▸ hedge)
    · exact h.modify (fun _ => rfl) (fun _ => rfl) fun _ _ => .inl rfl
  refine ⟨run', hget', hvm, hpath, fun hterminal => ?_⟩
  -- no edge leads out of a terminal phase
  rcases hpath.cases_head with heq | ⟨ph, hedge, -⟩
  · exact heq.symm
  · cases hphase : run.phase <;>
      simp_all [RunPhase.terminal, runTransitionAllowed, validRunTransitions]

theorem verdict_final_stop :
    ∃ s : ManagerPool, run lifecycle.step (Pool.quiet runningWithRun)
        (.start (.action [1] .stop none) :: calls 0 12) = some s ∧
      ∃ run', Store.getRun s.world.tables.runs guestRun.runID = some run' ∧
        LeadsTo .running run'.phase := by
  refine ⟨_, yields (by decide +kernel), ?_⟩
  exact (verdict_final (s := Pool.quiet runningWithRun) (r := guestRun.runID) rfl (yields _)).imp
    fun run' h => ⟨h.1, h.2.2.1⟩

end Observatory.Runtime
