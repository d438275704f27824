/-
# What a restart settles

After a crash nothing runs but `reconcile`, and the work it starts in the background looks at VMs
that are not live any more and finds nothing to do. So `reconcile` owns the tables: what it may
rely on is what it left there itself, and its proof is that of a sequential program. The state of
its protocol is the tables as they are.
-/
import Observatory.Runtime.Capacity
import Observatory.Runtime.RunRows

namespace Observatory.Store

/-- A launch is under way. -/
def VMState.early : VMState → Bool
  | .provisioning | .starting => true
  | _ => false

end Observatory.Store

namespace Observatory.Runtime

open Lib Store Function List Prog Store

/-! ## Owning the tables -/

/-- The VM is running or paused. -/
def Live (vms : List VM) (v : Bytes) : Prop :=
  ∃ vm, Store.getVM vms v = some vm ∧ keepsRuns vm.observedState = true

structure Owned where
  tables : Tables
  listed : List VM

/-- The calls of an owner. It brings no VM back to life, and starts only stops of VMs that are not
live. -/
def Owned.permits (o : Owned) : Call → Prop
  | .store (.transitionVM inp) => inp.acquireCompute = false ∧ keepsRuns inp.dest = false
  | .store (.createVMWithOperation _ _) | .store (.createVMBatch _ _) => False
  | .manager (.goTracked job) => ∃ v, job = .stopVMAfterRun v ∧ ¬ Live o.tables.vms v
  | _ => True

def StoreCall.listing (listed : List VM) : (c : StoreCall) → c.Reply → List VM
  | .listVMs _, .ok rows => rows.map Prod.snd
  | _, _ => listed

def Owned.after (o : Owned) : (c : Call) → c.Reply → Owned
  | .store c, reply => ⟨(c.exec o.tables {}).1, c.listing o.listed reply⟩
  | _, _ => o

/-- The store answers an owner from the tables it left. -/
def owner : Protocol Call Call.Reply (Option Owned) where
  guarantee g c := ∃ o, g = some o ∧ o.permits c
  rely g
    | .store c, r => ∀ o, g = some o → r = (c.exec o.tables {}).2
    | _, _ => True
  next g c r := g.map fun o => o.after c r

/-- The stop after a run of a VM that is not live reads it and returns. -/
def bystander (v : Bytes) : Protocol Call Call.Reply (Option Owned) where
  guarantee _
    | .store (.getVM u) => u = v
    | _ => False
  rely _
    | .store (.getVM _), .ok vm => keepsRuns vm.observedState = false
    | _, _ => True
  next g _ _ := g

namespace Restart

variable {o : Owned} {v : Bytes} {α : Type}

@[simp] lemma guarantee_some {c : Call} : owner.guarantee (some o) c = o.permits c := by
  simp [owner]

variable {r : Bytes} {g : Option Owned} {ph : RunPhase} {c : StoreCall}

@[simp] lemma rely_store {r : c.Reply} :
    owner.rely (some o) (.store c) r = (r = (c.exec o.tables {}).2) := by
  simp [owner]

@[simp] lemma rely_host {c : HostCall} {r : c.Reply} :
    owner.rely g (.host c) r = True := rfl

@[simp] lemma rely_manager {c : ManagerCall} {r : c.Reply} :
    owner.rely g (.manager c) r = True := rfl

@[simp] lemma next_some {c : Call} {r : c.Reply} :
    owner.next (some o) c r = some (o.after c r) := rfl

lemma wp_st {β : Type} {k : c.Reply → M β} {Φ : Option Owned → β → Prop} {t : Tables}
    {reply : c.Reply} (hexec : c.exec o.tables {} = (t, reply)) (hpermits : o.permits (.store c))
    (h : (k reply).wp owner (some ⟨t, c.listing o.listed reply⟩) Φ) :
    (st c >>= k).wp owner (some o) Φ := by
  refine wp_bind.2 ⟨guarantee_some.symm ▸ hpermits, fun r hr => ?_⟩
  rw [rely_store, hexec] at hr
  subst hr
  rw [next_some, Owned.after, hexec]
  exact h

lemma wp_stopVMAfterRun {Φ : Option Owned → Unit → Prop} (h : Φ g ()) :
    (stopVMAfterRun v).wp (bystander v) g Φ := by
  simp [stopVMAfterRun, bystander, h]
  intro vm hstate
  cases hst : vm.observedState <;> simp_all [keepsRuns]

/-! ### The rows -/

/-- The calls of the sweep over the rows: it ends launches and stops, and begins none. -/
def sweeps : Call → Prop
  | .store (.transitionVM inp) =>
    inp.acquireCompute = false ∧ keepsRuns inp.dest = false ∧ inp.dest.early = false
  | .store (.recordCleanupFailure _ _) | .store (.recordReconcileAmbiguity _ _) => True
  | .host _ => True
  | _ => False

lemma uses_reconcileVM (cfg : Startup) (vm : VM) : (reconcileVM cfg vm).Uses sweeps := by
  rw [uses_iff_wp]
  cases hstate : vm.observedState
  all_goals
    simp [reconcileVM, hstate, reconcileLaunch, reconcileLive, reconcileStopping,
      finishAdoptedStop, reconcileDeleting, finishReconciledDelete, sweeps, keepsRuns,
      VMState.early]

/-- No launch is under way that was not before, and the runs are the same. -/
structure Later (t t' : Tables) : Prop where
  runs : t'.runs = t.runs
  rows : ∀ u vm', Store.getVM t'.vms u = some vm' → vm'.observedState.early = true →
    ∃ vm, Store.getVM t.vms u = some vm ∧ vm.observedState.early = true

lemma Later.refl (t : Tables) : Later t t := ⟨rfl, fun _ vm h hearly => ⟨vm, h, hearly⟩⟩

lemma Later.trans {t₁ t₂ t₃ : Tables} (h : Later t₁ t₂) (h' : Later t₂ t₃) : Later t₁ t₃ := by
  refine ⟨h'.runs.trans h.runs, fun u vm' hrow hearly => ?_⟩
  obtain ⟨vm, hvm, hvm'⟩ := h'.rows u vm' hrow hearly
  exact h.rows u vm hvm hvm'

lemma later_exec {t : Tables} (hc : sweeps (.store c)) :
    Later t (c.exec t {}).1 := by
  refine ⟨?_, fun u vm' hrow hearly => ?_⟩
  · cases c with
    | transitionVM inp =>
      have hcase := transitionCase t {} inp
      generalize (StoreCall.transitionVM inp).exec t {} = result at hcase
      cases hcase <;> rfl
    | recordCleanupFailure | recordReconcileAmbiguity => rfl
    | _ => exact hc.elim
  · have hcase := rowCase_store (v := u) (e := {}) (c := c) (t := t)
    rw [hrow] at hcase
    generalize getVM t.vms u = old at hcase
    cases hcase with
    | same => exact ⟨vm', rfl, hearly⟩
    | marked => exact ⟨_, rfl, hearly⟩
    | created hcreates => cases c <;> first | exact hcreates.elim | exact hc.elim
    | released => exact hc.elim
    | moved => exact absurd hearly (by simp [hc.2.2])

attribute [local simp] Owned.permits

lemma wp_sweep {p : M α} (hp : p.Uses sweeps) :
    p.wp owner (some o) fun g' _ =>
      ∃ o', g' = some o' ∧ o'.listed = o.listed ∧ Later o.tables o'.tables := by
  refine wp_invariant hp ?_ ⟨o, rfl, rfl, .refl _⟩
  rintro _ c hc ⟨o', rfl, hlisted, hlater⟩
  rcases c with c | c | c
  · refine ⟨?_, fun r _ => ⟨_, next_some, ?_⟩⟩
    · cases c with
      | transitionVM inp => simpa using ⟨hc.1, hc.2.1⟩
      | recordCleanupFailure | recordReconcileAmbiguity => simp
      | _ => exact hc.elim
    · have hstep := hlater.trans (later_exec hc)
      cases c with
      | transitionVM | recordCleanupFailure | recordReconcileAmbiguity => exact ⟨hlisted, hstep⟩
      | _ => exact hc.elim
  · exact ⟨by simp, fun r _ => ⟨o', rfl, hlisted, hlater⟩⟩
  · exact hc.elim

attribute [local simp] StoreCall.exec

lemma not_early_of_failed {t : Tables} {inp : TransitionInput} (hdest : inp.dest = .failed)
    (hrev : inp.expectedRevision = none) (hfrm : inp.frm = none)
    (hacquire : inp.acquireCompute = false) :
    ∀ vm', getVM ((StoreCall.transitionVM inp).exec t {}).1.vms inp.vmID = some vm' →
      vm'.observedState.early = false := by
  intro vm' hrow
  cases hget : getVM t.vms inp.vmID with
  | none =>
    simp [transitionVM, hget, commit, Except.map] at hrow
  | some vm =>
    by_cases hedge : transitionAllowed vm.observedState .failed = true
    · simp [transitionVM, hget, commit, Except.map, hdest, hrev, hfrm, hacquire, hedge] at hrow
      rw [getVM_modify (apply_vmID inp), if_pos rfl, hget] at hrow
      rw [← Option.some.inj hrow, apply_observedState, hdest]
      rfl
    · simp [transitionVM, hget, commit, Except.map, hdest, hrev, hfrm, hedge] at hrow
      rw [← hrow]
      cases hstate : vm.observedState <;> simp_all [VMState.early, transitionAllowed,
        validTransitions]

lemma wp_reconcileLaunch (vm : VM) :
    (reconcileLaunch vm).wp owner (some o) fun g' _ => ∃ o', g' = some o' ∧
      ∀ vm', getVM o'.tables.vms vm.vmID = some vm' → vm'.observedState.early = false := by
  simp [reconcileLaunch, Owned.after, keepsRuns, -forall_except]
  exact ⟨fun _ => not_early_of_failed rfl rfl rfl rfl,
    fun _ _ => not_early_of_failed rfl rfl rfl rfl⟩

/-- A row of the sweep: no launch begins, and its own is over. -/
lemma wp_reconcileVM (cfg : Startup) (vm : VM) :
    (reconcileVM cfg vm).wp owner (some o) fun g' _ => ∃ o', g' = some o' ∧ o'.listed = o.listed ∧
      Later o.tables o'.tables ∧ (vm.observedState.early = true →
        ∀ vm', getVM o'.tables.vms vm.vmID = some vm' → vm'.observedState.early = false) := by
  have hsweep := wp_sweep (o := o) (uses_reconcileVM cfg vm)
  by_cases hearly : vm.observedState.early = true
  · have hprog : reconcileVM cfg vm = reconcileLaunch vm := by
      unfold reconcileVM
      cases hstate : vm.observedState <;> simp_all [VMState.early]
    have hlaunch := wp_reconcileLaunch (o := o) vm
    rw [← hprog] at hlaunch
    refine wp_mono ?_ (wp_and hsweep hlaunch)
    rintro _ _ ⟨⟨o', rfl, hlisted, hlater⟩, o'', heq, hover⟩
    cases heq
    exact ⟨o', rfl, hlisted, hlater, fun _ => hover⟩
  · refine wp_mono ?_ hsweep
    rintro _ _ ⟨o', rfl, hlisted, hlater⟩
    exact ⟨o', rfl, hlisted, hlater, fun h => absurd h hearly⟩

/-- Every launch under way is that of a row still to come. -/
def Covers (rows : List (Nat × VM)) (t : Tables) : Prop :=
  ∀ u vm, Store.getVM t.vms u = some vm → vm.observedState.early = true →
    ∃ row ∈ rows, row.2.vmID = u ∧ row.2.observedState.early = true

lemma wp_rows (cfg : Startup) (rows : List (Nat × VM)) :
    (forEach (fun row => reconcileVM cfg row.2) rows).wp owner (some o) fun g' _ =>
      ∃ o', g' = some o' ∧ o'.listed = o.listed ∧ Later o.tables o'.tables ∧
        (Covers rows o.tables → Covers [] o'.tables) := by
  induction rows generalizing o with
  | nil => exact ⟨o, rfl, rfl, .refl _, id⟩
  | cons row rows ih =>
    refine wp_bind.2 (wp_mono ?_ (wp_reconcileVM cfg row.2))
    rintro _ _ ⟨o₁, rfl, hlisted, hlater, hover⟩
    refine wp_mono ?_ (ih (o := o₁))
    rintro _ _ ⟨o₂, rfl, hlisted', hlater', hrest⟩
    refine ⟨o₂, rfl, hlisted'.trans hlisted, hlater.trans hlater', fun hcovers => hrest ?_⟩
    -- a launch the body left under way was there before, and is not the body's own
    intro u vm hrow hearly
    obtain ⟨vm₀, hrow₀, hearly₀⟩ := hlater.rows u vm hrow hearly
    obtain ⟨row', hmem, rfl, hrow'⟩ := hcovers u vm₀ hrow₀ hearly₀
    rcases mem_cons.1 hmem with rfl | hmem
    · exact absurd hearly (by simp [hover hrow' vm hrow])
    · exact ⟨row', hmem, rfl, hrow'⟩

/-! ### The runs -/

lemma exec_transitionRun {t : Tables} {run : Run} {dest : RunPhase}
    (hrun : getRun t.runs r = some run) (hedge : runTransitionAllowed run.phase dest = true) :
    (StoreCall.transitionRun r run.phase dest).exec t {} =
      ({ t with runs := setPhase r dest t.runs }, .ok { run with phase := dest }) := by
  simp [transitionRun, hrun, hedge, commit, Except.map, setPhase]

lemma terminal_evaluateRun (run : Run) (trigger : ConcludeTrigger) :
    (evaluateRun run trigger).terminal = true := by
  unfold evaluateRun
  split_ifs
  · rfl
  · split <;> rfl

lemma allowed_of_terminal (h : ph.terminal = true) :
    runTransitionAllowed .concluding ph = true := by
  cases ph <;> first | rfl | cases h

lemma exec_getRun {t : Tables} {run : Run} (hrun : getRun t.runs r = some run) :
    (StoreCall.getRun r).exec t {} = (t, .ok run) := by
  simp [answer, hrun]

lemma wp_postConclude {run : Run} (hdead : ¬ Live o.tables.vms run.vmID)
    {Φ : Option Owned → Unit → Prop} (h : Φ (some o) ()) :
    (postConclude run).wp owner (some o) Φ := by
  simp [postConclude, Owned.after, hdead, h]

lemma wp_settleRun {run : Run} (hrun : getRun o.tables.runs r = some run)
    (hphase : run.phase = .concluding) (hdead : ¬ Live o.tables.vms run.vmID)
    (hterminal : ph.terminal = true) : (settleRun r ph).wp owner (some o) fun g' _ =>
      g' = some { o with tables := ⟨o.tables.vms, setPhase r ph o.tables.runs⟩ } := by
  have hedge : runTransitionAllowed run.phase ph = true := by
    rw [hphase]
    exact allowed_of_terminal hterminal
  have hexec := exec_transitionRun (t := o.tables) hrun hedge
  rw [hphase] at hexec
  refine wp_st hexec trivial (wp_bind.2 (wp_postConclude ?_ ?_))
  · exact hdead
  · exact (wp_pure _).2 rfl

attribute [local simp] RunPhase.terminal

lemma wp_concludeRun {run : Run} {trigger : ConcludeTrigger}
    (hrun : getRun o.tables.runs r = some run) (hdead : ¬ Live o.tables.vms run.vmID) :
    (concludeRun r trigger).wp owner (some o) fun g' _ =>
      (run.accepting = false ∧ g' = some o) ∨ ∃ ph, ph.terminal = true ∧ g' = some { o with
        tables := ⟨o.tables.vms, setPhase r ph (setPhase r .concluding o.tables.runs)⟩ } := by
  refine wp_st (exec_getRun hrun) trivial ((wp_ite ..).2 ⟨fun hterminal => ?_, fun hlive => ?_⟩)
  · refine .inl ⟨?_, rfl⟩
    unfold Run.accepting
    cases hphase : run.phase <;> simp_all
  by_cases hphase : run.phase = .concluding
  · -- the run is being concluded already: the pinned transition is refused
    have hexec : (StoreCall.transitionRun r run.phase .concluding).exec o.tables {} =
        (o.tables, .error (.invalidRunTransition .concluding .concluding)) := by
      simp [transitionRun, hrun, hphase, commit, Except.map, runTransitionAllowed,
        validRunTransitions]
    refine wp_st hexec trivial ?_
    simp [isInvalidRunTransition, Owned.after, StoreCall.listing, Run.accepting, hphase,
      -forall_except]
  · have hedge : runTransitionAllowed run.phase .concluding = true := by
      cases hph : run.phase <;> simp_all <;> rfl
    have hrun' : getRun (setPhase r .concluding o.tables.runs) r =
        some { run with phase := .concluding } := by
      rw [getRun_setPhase, hrun]
      rfl
    refine wp_st (exec_transitionRun hrun hedge) trivial (wp_st (exec_getRun hrun') trivial ?_)
    refine wp_mono ?_ (wp_settleRun hrun' rfl hdead (terminal_evaluateRun _ trigger))
    rintro _ _ rfl
    exact .inr ⟨_, terminal_evaluateRun _ trigger, rfl⟩

/-- What a step of the loop over the runs keeps, `rest` being the runs still to come. -/
structure Sweeping (t₀ : Tables) (calm : Prop) (rest : List Run) (t : Tables) : Prop where
  vms : t.vms = t₀.vms
  keys : (t.runs.map Run.runID).Nodup
  known : ∀ run' ∈ rest, ∃ run ∈ t.runs, run.runID = run'.runID ∧ run.vmID = run'.vmID
  settled : calm → ∀ run ∈ t.runs, run.active = true → run.phase ≠ .concluding ∧
    (Live t₀.vms run.vmID ∨ ∃ run' ∈ rest, run'.runID = run.runID)

lemma mem_setPhase_twice {runs : List Run} {ph' : RunPhase} {run : Run}
    (h : run ∈ setPhase r ph (setPhase r ph' runs)) :
    (run ∈ runs ∧ run.runID ≠ r) ∨ (run.runID = r ∧ run.phase = ph) := by
  rcases Table.mem_modify h with ⟨h', hne⟩ | ⟨run', -, hkey, rfl⟩
  · rcases Table.mem_modify h' with hold | ⟨run', -, hkey, rfl⟩
    · exact .inl hold
    · exact absurd hkey hne
  · exact .inr ⟨hkey, rfl⟩

lemma exists_setPhase {runs : List Run} {u : Bytes}
    (h : ∃ run ∈ runs, run.runID = u ∧ run.vmID = v) :
    ∃ run ∈ setPhase r ph runs, run.runID = u ∧ run.vmID = v := by
  obtain ⟨run, hmem, hu, hv⟩ := h
  refine ⟨_, mem_map_of_mem hmem, ?_⟩
  split_ifs <;> exact ⟨hu, hv⟩

variable {t₀ t : Tables} {calm : Prop} {run : Run} {rest : List Run}

lemma Sweeping.next (h : Sweeping t₀ calm (run :: rest) t) :
    ∃ run', getRun t.runs run.runID = some run' ∧ run'.vmID = run.vmID := by
  obtain ⟨run', hmem, hid, hvm⟩ := h.known run mem_cons_self
  refine ⟨run', ?_, hvm⟩
  rw [← hid]
  exact Table.find_of_mem h.keys hmem

lemma Sweeping.skip (h : Sweeping t₀ calm (run :: rest) t)
    (hover : ∀ run' ∈ t.runs, run'.runID = run.runID → run'.active = true →
      run'.phase ≠ .concluding → Live t₀.vms run'.vmID) : Sweeping t₀ calm rest t := by
  refine ⟨h.vms, h.keys, fun run' hmem => h.known run' (.tail _ hmem), ?_⟩
  intro hcalm run' hmem hactive
  obtain ⟨hphase, hlive | ⟨run'', hrest, hid⟩⟩ := h.settled hcalm run' hmem hactive
  · exact ⟨hphase, .inl hlive⟩
  · rcases mem_cons.1 hrest with rfl | hrest
    · exact ⟨hphase, .inl (hover run' hmem hid.symm hactive hphase)⟩
    · exact ⟨hphase, .inr ⟨run'', hrest, hid⟩⟩

lemma Sweeping.conclude (h : Sweeping t₀ calm (run :: rest) t) (hterminal : ph.terminal = true) :
    Sweeping t₀ calm rest
      ⟨t.vms, setPhase run.runID ph (setPhase run.runID .concluding t.runs)⟩ := by
  refine ⟨h.vms, by rw [keys_setPhase, keys_setPhase]; exact h.keys, fun run' hmem => ?_, ?_⟩
  · exact exists_setPhase (exists_setPhase (h.known run' (.tail _ hmem)))
  · intro hcalm run' hmem hactive
    rcases mem_setPhase_twice hmem with ⟨hold, hne⟩ | ⟨-, hphase⟩
    · obtain ⟨hphase, hlive | ⟨run'', hrest, hid⟩⟩ := h.settled hcalm run' hold hactive
      · exact ⟨hphase, .inl hlive⟩
      · rcases mem_cons.1 hrest with rfl | hrest
        · exact absurd hid.symm hne
        · exact ⟨hphase, .inr ⟨run'', hrest, hid⟩⟩
    · rw [Run.active, hphase, hterminal] at hactive
      cases hactive

lemma interrupted_iff : interrupted (answer {} .database .vmUnknown (getVM t.vms v)) = true ↔
    ¬ Live t.vms v := by
  cases hrow : getVM t.vms v <;> simp [interrupted, answer, Live, hrow]

lemma wp_reconcileRun (h : Sweeping t₀ calm (run :: rest) o.tables) :
    (reconcileRun run).wp owner (some o) fun g' _ =>
      ∃ o', g' = some o' ∧ o'.listed = o.listed ∧ Sweeping t₀ calm rest o'.tables := by
  obtain ⟨run', hrun', hvm⟩ := h.next
  refine wp_st (c := .getVM run.vmID) (t := o.tables) rfl trivial ?_
  refine (wp_ite ..).2 ⟨fun hdead => ?_, fun hlive => ?_⟩
  · have hdead' : ¬ Live o.tables.vms run'.vmID := by
      rw [hvm]
      exact interrupted_iff.1 hdead
    refine wp_bind.2 (wp_mono ?_ (wp_concludeRun (o := o) hrun' hdead'))
    rintro _ _ (⟨haccepting, rfl⟩ | ⟨ph, hterminal, rfl⟩)
    · refine ⟨o, rfl, rfl, h.skip fun r hmem hid hactive hphase => ?_⟩
      have hfound : getRun o.tables.runs run.runID = some r :=
        hid ▸ Table.find_of_mem h.keys hmem
      obtain rfl := Option.some.inj (hrun'.symm.trans hfound)
      unfold Run.accepting at haccepting
      unfold Run.active at hactive
      cases hph : run'.phase <;> simp_all
    · exact ⟨_, rfl, rfl, h.conclude hterminal⟩
  · refine ⟨o, rfl, rfl, h.skip fun r hmem hid _ _ => ?_⟩
    have hfound : getRun o.tables.runs run.runID = some r :=
      hid ▸ Table.find_of_mem h.keys hmem
    obtain rfl := Option.some.inj (hrun'.symm.trans hfound)
    rw [hvm, ← h.vms]
    exact not_not.1 fun hdead => hlive (interrupted_iff.2 hdead)

lemma wp_runs (h : Sweeping t₀ calm rest o.tables) :
    (forEach reconcileRun rest).wp owner (some o) fun g' _ =>
      ∃ o', g' = some o' ∧ o'.listed = o.listed ∧ Sweeping t₀ calm [] o'.tables := by
  induction rest generalizing o with
  | nil => exact ⟨o, rfl, rfl, h⟩
  | cons run rest ih =>
    refine wp_bind.2 (wp_mono ?_ (wp_reconcileRun h))
    rintro _ _ ⟨o₁, rfl, hlisted, hrest⟩
    refine wp_mono ?_ (ih hrest)
    rintro _ _ ⟨o₂, rfl, hlisted', hnil⟩
    exact ⟨o₂, rfl, hlisted'.trans hlisted, hnil⟩

/-- The loop over the runs begins with all that have not ended. -/
lemma sweeping_active (hkeys : (t.runs.map Run.runID).Nodup) :
    Sweeping t (∀ run ∈ t.runs, run.phase ≠ .concluding)
      (listRunsInPhases t.runs [.pending, .running, .concluding]) t := by
  refine ⟨rfl, hkeys, fun run' hmem => ⟨run', (mem_filter.1 hmem).1, rfl, rfl⟩, ?_⟩
  intro hcalm run hmem hactive
  refine ⟨hcalm run hmem, .inr ⟨run, mem_filter.2 ⟨hmem, ?_⟩, rfl⟩⟩
  unfold Run.active at hactive
  cases hphase : run.phase <;> simp_all

lemma listVMs_page (vms : List VM) : ∃ rows, listVMs vms { limit := maxPageLimit } = some rows ∧
    rows.map Prod.snd = vms.take maxPageLimit.toNat := by
  refine ⟨_, rfl, ?_⟩
  have hall : ∀ row ∈ vms.zipIdx.map fun p => (p.2 + 1, p.1),
      (decide (0 < row.1) && VMQuery.wants { limit := maxPageLimit } row.2) = true := by
    intro row hrow
    obtain ⟨x, -, rfl⟩ := mem_map.1 hrow
    simp [VMQuery.wants]
  have hfst : (vms.zipIdx.map fun p => (p.2 + 1, p.1)).map Prod.snd = vms := by
    simp [Function.comp_def]
  show List.map Prod.snd (((vms.zipIdx.map fun p => (p.2 + 1, p.1)).filter fun row =>
    decide (0 < row.1) && VMQuery.wants { limit := maxPageLimit } row.2).take
      maxPageLimit.toNat) = _
  rw [filter_eq_self.2 hall, map_take, hfst]

/-- What a startup leaves of the tables it found. -/
structure Settled (t₀ : Tables) (o : Owned) : Prop where
  listed : o.listed = t₀.vms.take maxPageLimit.toNat
  rows : t₀.vms.length ≤ maxPageLimit.toNat → Covers [] o.tables
  runs : (∀ run ∈ t₀.runs, run.phase ≠ .concluding) →
    ∀ run ∈ o.tables.runs, run.active = true → Live o.tables.vms run.vmID

lemma wp_reconcile (cfg : Startup) (hkeys : (t₀.runs.map Run.runID).Nodup) :
    (reconcile cfg).wp owner (some ⟨t₀, []⟩) fun g' _ => ∃ o, g' = some o ∧ Settled t₀ o := by
  obtain ⟨rows, hrows, hpage⟩ := listVMs_page t₀.vms
  refine wp_st (t := t₀) rfl trivial ?_
  refine (wp_ite ..).2 ⟨fun _ => ?_, fun h => absurd rfl h⟩
  have hlist : (StoreCall.listVMs { limit := maxPageLimit }).exec t₀ {} =
      (t₀, .ok rows) := by simp [answer, hrows]
  refine wp_st hlist trivial ?_
  refine wp_bind.2 (wp_mono ?_ (wp_rows cfg rows))
  rintro _ _ ⟨o, rfl, hlisted, hlater, hcovers⟩
  refine wp_st (t := o.tables) rfl trivial ?_
  have hruns : o.tables.runs = t₀.runs := hlater.runs
  refine wp_bind.2 (wp_mono ?_ (wp_runs (o := o) (sweeping_active (hruns ▸ hkeys))))
  rintro _ _ ⟨o', rfl, hlisted', hsweeping⟩
  refine ⟨o', rfl, ?_, fun hlength => ?_, fun hcalm run hmem hactive => ?_⟩
  · rw [hlisted', hlisted]
    exact hpage
  · intro u vm hrow hearly
    rw [hsweeping.vms] at hrow
    refine hcovers (fun u vm hrow hearly => ?_) u vm hrow hearly
    obtain ⟨hmem, rfl⟩ := Table.mem_of_find hrow
    rw [take_of_length_le hlength] at hpage
    rw [← hpage] at hmem
    obtain ⟨row, hrow', rfl⟩ := mem_map.1 hmem
    exact ⟨row, hrow', rfl, hearly⟩
  · obtain ⟨-, hlive | ⟨run', hnil, -⟩⟩ := hsweeping.settled (by rwa [hruns]) run hmem hactive
    · rwa [hsweeping.vms]
    · cases hnil

/-! ### The discipline -/

def protocol : Job → Protocol Call Call.Reply (Option Owned)
  | .reconcile _ => owner
  | .stopVMAfterRun v => bystander v
  | _ => .free

def discipline (t₀ : Tables) (hkeys : (t₀.runs.map Run.runID).Nodup) :
    Discipline lifecycle (Option Owned) where
  protocol := protocol
  init
    | .reconcile _ => some ⟨t₀, []⟩
    | _ => none
  idle := none
  done g := ∀ o, g = some o → Settled t₀ o
  jobs _ := True
  done_idle o h := by cases h
  follows j _ := by
    have hidle : ∀ o : Owned, none = some o → Settled t₀ o := fun o h => by cases h
    cases j with
    | reconcile cfg =>
      refine wp_ignore.2 (Prog.wp_mono ?_ (wp_reconcile cfg hkeys))
      rintro _ _ ⟨o, rfl, hsettled⟩ o' heq
      exact Option.some.inj heq ▸ hsettled
    | stopVMAfterRun v => exact wp_stopVMAfterRun hidle
    | _ => exact Prog.wp_free fun _ => hidle

end Restart

/-! ## Runs -/

/-- Nothing starts and no store call fails. -/
def undisturbed : ManagerMove → Bool
  | .step _ e => !e.fault
  | _ => false

abbrev Undisturbed (_ : ManagerPool) (a : ManagerMove) : Prop := undisturbed a = true

namespace Restart

/-- Thread `i` owns the tables; what else runs is a stop of a VM that is not live. -/
structure Inv (i : Nat) (γ : Nat → Option Owned) (s : ManagerPool) : Prop where
  tables : ∃ o, γ i = some o ∧ s.world.tables = o.tables
  listed : ∀ o, γ i = some o → o.listed = [] ∨
    ∃ q rows, (i, ⟨.store (.listVMs q), .ok rows⟩) ∈ s.trace ∧ o.listed = rows.map Prod.snd
  job : ∀ {i' : Nat} {j : Job} {c : Call} {k : c.Reply → M Unit},
    s.threads[i']? = some (j, .call c k) →
      (i' = i ∧ ∃ cfg, j = .reconcile cfg) ∨
        (i' ≠ i ∧ ∃ v, j = .stopVMAfterRun v ∧ ¬ Live s.world.tables.vms v)

variable {γ : Nat → Option Owned} {s : ManagerPool} {i : Nat} {e : Env} {o : Owned} {t t₀ : Tables}
  {v : Bytes}

/-- The environment has no say in the calls of an owner but by failing them. -/
lemma exec_eq {c : StoreCall} (hc : o.permits (.store c)) (hfault : e.fault = false) :
    c.exec t e = c.exec t {} := by
  cases c with
  | transitionVM inp =>
    have hadmitted : transitionVM t.vms inp e.admitted = transitionVM t.vms inp true := by
      unfold transitionVM
      simp [hc.1]
    simp [StoreCall.exec, commit, hfault, hadmitted]
  | createVMWithOperation | createVMBatch => exact hc.elim
  | _ => simp [StoreCall.exec, commit, answer, hfault]

/-- An owner brings no VM back to life. -/
lemma not_live_exec {c : StoreCall} (hc : o.permits (.store c)) (h : ¬ Live t.vms v) :
    ¬ Live (c.exec t e).1.vms v := by
  rintro ⟨vm', hrow, hlive⟩
  refine h ?_
  have hcase := rowCase_store (v := v) (e := e) (c := c) (t := t)
  rw [hrow] at hcase
  generalize hold : getVM t.vms v = old at hcase
  cases hcase with
  | same => exact ⟨vm', hold, hlive⟩
  | marked | released => exact ⟨_, hold, hlive⟩
  | created hcreates => cases c <;> first | exact hcreates.elim | exact hc.elim
  | moved => exact absurd hlive (by simp [hc.2])

lemma owned_exec {w w' : World} {c : Call} {r : c.Reply} (htables : w.tables = o.tables)
    (hc : o.permits c) (hfault : e.fault = false) (hexec : Call.exec w c e = some (w', r)) :
    owner.rely (some o) c r ∧ w'.tables = (o.after c r).tables ∧
      ∀ v, ¬ Live w.tables.vms v → ¬ Live w'.tables.vms v := by
  rcases c with c | c | c
  · simp only [Call.exec, Option.some.injEq, Prod.mk.injEq] at hexec
    obtain ⟨rfl, rfl⟩ := hexec
    rw [rely_store, exec_eq hc hfault, htables]
    exact ⟨rfl, rfl, fun v hv => not_live_exec hc hv⟩
  · have hsame := tables_of_host hexec
    exact ⟨trivial, hsame.trans htables, fun v hv => by rwa [hsame]⟩
  · have hsame := tables_of_manager hexec
    exact ⟨trivial, hsame.trans htables, fun v hv => by rwa [hsame]⟩

lemma listed_after (c : Call) (r : c.Reply) : (o.after c r).listed = o.listed ∨
    ∃ q rows, (⟨c, r⟩ : (c : Call) × c.Reply) = ⟨.store (.listVMs q), .ok rows⟩ ∧
      (o.after c r).listed = rows.map Prod.snd := by
  rcases c with c | c | c
  · cases c with
    | listVMs q =>
      rcases r with err | rows
      · exact .inl rfl
      · exact .inr ⟨q, rows, rfl, rfl⟩
    | _ => exact .inl rfl
  · exact .inl rfl
  · exact .inl rfl

variable {cfg : Startup} {c : Call} {k : c.Reply → M Unit} {w : World} {r : c.Reply}

lemma Inv.owned (h : Inv i γ s) (hγ : γ i = some o)
    (hthread : s.threads[i]? = some (.reconcile cfg, .call c k))
    (hafter : w.tables = (o.after c r).tables)
    (hdead : ∀ v, ¬ Live s.world.tables.vms v → ¬ Live w.tables.vms v) :
    Inv i (update γ i (some (o.after c r))) (s.called i (.reconcile cfg) c k w r) := by
  refine ⟨⟨_, update_self .., hafter⟩, fun o' ho' => ?_, fun {i'} {j} {c'} {k'} hthread' => ?_⟩
  · rw [update_self] at ho'
    cases ho'
    rcases listed_after (o := o) c r with hsame | ⟨q, rows, heq, hrows⟩
    · rw [hsame]
      rcases h.listed o hγ with hnil | ⟨q, rows, hmem, hrows⟩
      · exact .inl hnil
      · exact .inr ⟨q, rows, mem_append_left _ hmem, hrows⟩
    · refine .inr ⟨q, rows, mem_append_right _ (mem_singleton.2 ?_), hrows⟩
      rw [heq]
  · rcases Pool.called_thread hthread hthread' with ⟨-, hold⟩ | ⟨rfl, rfl, -⟩
    · rcases h.job hold with hown | ⟨hne, v, rfl, hv⟩
      · exact .inl hown
      · exact .inr ⟨hne, v, rfl, hdead v hv⟩
    · exact .inl ⟨rfl, cfg, rfl⟩

lemma Inv.bystander (h : Inv i γ s) {i' : Nat} (hne : i' ≠ i)
    (hthread : s.threads[i']? = some (.stopVMAfterRun v, .call c k))
    (hw : w = s.world) : Inv i (update γ i' (γ i')) (s.called i' (.stopVMAfterRun v) c k w r) := by
  subst hw
  rw [update_eq_self]
  refine ⟨h.tables, fun o ho => ?_, fun {i''} {j} {c'} {k'} hthread' => ?_⟩
  · rcases h.listed o ho with hnil | ⟨q, rows, hmem, hrows⟩
    · exact .inl hnil
    · exact .inr ⟨q, rows, mem_append_left _ hmem, hrows⟩
  · rcases Pool.called_thread hthread hthread' with ⟨-, hold⟩ | ⟨rfl, rfl, -⟩
    · exact h.job hold
    · exact h.job hthread

lemma Inv.add (h : Inv i γ s) (hi : i < s.threads.length) (hv : ¬ Live s.world.tables.vms v) :
    Inv i (update γ s.threads.length none) (lifecycle.add s (.stopVMAfterRun v)) := by
  have hne : i ≠ s.threads.length := Nat.ne_of_lt hi
  refine ⟨?_, fun o ho => ?_, fun {i'} {j} {c'} {k'} hthread' => ?_⟩
  · rw [update_of_ne hne]
    exact h.tables
  · rw [update_of_ne hne] at ho
    exact h.listed o ho
  · rcases System.add_thread hthread' with ⟨-, hold⟩ | ⟨rfl, rfl, -⟩
    · exact h.job hold
    · exact .inr ⟨hne.symm, v, rfl, hv⟩

/-- What the owner starts in the background. -/
lemma spawn_permitted {j : Job} (hc : o.permits c) (h : spawn c r = some j) :
    ∃ v, j = .stopVMAfterRun v ∧ ¬ Live o.tables.vms v := by
  obtain rfl := goTracked_of_spawn h
  exact hc

lemma keeps (hkeys : (t₀.runs.map Run.runID).Nodup) (i : Nat) :
    (discipline t₀ hkeys).Keeps Undisturbed (Inv i) where
  start _ _ hp _ := by cases hp
  crash _ hp _ := by cases hp
  step {γ s i' e j c k w r} hcoupled hinv hp hthread hguarantee hexec := by
    have hfault : e.fault = false := by simpa [Undisturbed, undisturbed] using hp
    rcases hinv.job hthread with ⟨rfl, cfg, rfl⟩ | ⟨hne, v, rfl, hv⟩
    · obtain ⟨o, hγ, htables⟩ := hinv.tables
      replace hguarantee : owner.guarantee (γ i') c := hguarantee
      rw [hγ, guarantee_some] at hguarantee
      obtain ⟨hrely, hafter, hdead⟩ := owned_exec htables hguarantee hfault hexec
      have hcalled := hinv.owned hγ hthread hafter hdead
      have hnext : (discipline t₀ hkeys).protocol (.reconcile cfg) = owner := rfl
      rw [hnext, hγ, next_some]
      refine ⟨hrely, hcalled, fun j' hj' => ⟨trivial, ?_⟩⟩
      obtain ⟨v, rfl, hv⟩ := spawn_permitted hguarantee hj'
      have hlt : i' < (s.called i' (.reconcile cfg) c k w r).threads.length := by
        rw [Pool.called_length]
        exact (List.getElem?_eq_some_iff.1 hthread).1
      have hadd := hcalled.add hlt (v := v) (hdead v (htables ▸ hv))
      rwa [Pool.called_length] at hadd
    · replace hguarantee : (bystander v).guarantee (γ i') c := hguarantee
      have hget : c = .store (.getVM v) := by
        rcases c with c | c | c
        · cases c <;> first | exact hguarantee.elim | exact congrArg _ (congrArg _ hguarantee)
        · exact hguarantee.elim
        · exact hguarantee.elim
      subst hget
      refine ⟨?_, hinv.bystander hne hthread (world_of_getVM hexec), fun j' hj' => by cases hj'⟩
      rcases r with err | vm
      · trivial
      · show keepsRuns vm.observedState = false
        by_contra hlive
        exact hv ⟨vm, row_of_getVM hexec, by simpa using hlive⟩

lemma settled_of_run {s₀ : ManagerPool} {as : List ManagerMove}
    (hkeys : (s₀.world.tables.runs.map Run.runID).Nodup)
    (hrun : run lifecycle.step s₀ (.crash (.reconcile cfg) :: as) = some s)
    (hcalm : ∀ a ∈ as, undisturbed a = true)
    (hdone : s.threads[s₀.threads.length]? = some (.reconcile cfg, .ret ())) :
    ∃ o, Settled s₀.world.tables o ∧ s.world.tables = o.tables ∧ (o.listed = [] ∨
      ∃ q rows, (s₀.threads.length, ⟨.store (.listVMs q), .ok rows⟩) ∈ s.trace ∧
        o.listed = rows.map Prod.snd) := by
  obtain ⟨s₁, hcrash, hrest⟩ := run_cons_eq_some.1 hrun
  obtain rfl : lifecycle.add (lifecycle.crashed s₀) (.reconcile cfg) = s₁ :=
    Option.some.inj hcrash
  set D := discipline s₀.world.tables hkeys
  have hcoupled : D.Coupled (update (fun _ => none) s₀.threads.length
      (some ⟨s₀.world.tables, []⟩)) (lifecycle.add (lifecycle.crashed s₀) (.reconcile cfg)) := by
    have hadd := (Discipline.coupled_crashed (D := D) (s := s₀) fun _ => trivial).add
      (j := .reconcile cfg) trivial
    rwa [System.crashed_length] at hadd
  have hinv : Inv s₀.threads.length (update (fun _ => none) s₀.threads.length
      (some ⟨s₀.world.tables, []⟩)) (lifecycle.add (lifecycle.crashed s₀) (.reconcile cfg)) := by
    refine ⟨⟨_, update_self .., rfl⟩, fun o ho => ?_, fun hthread => ?_⟩
    · rw [update_self] at ho
      exact .inl (Option.some.inj ho ▸ rfl)
    · rcases System.add_thread hthread with ⟨-, hold⟩ | ⟨hi, rfl, -⟩
      · cases (System.crashed_thread hold).1
      · exact .inl ⟨hi.trans System.crashed_length, cfg, rfl⟩
  obtain ⟨γ, hγ, hK⟩ := (keeps hkeys s₀.threads.length).run_coupled ⟨_, hcoupled, hinv⟩
    (along_of_forall_mem (fun a ha _ => hcalm a ha) _) hrest
  obtain ⟨o, ho, htables⟩ := hK.tables
  have hsettled : ∀ o, γ s₀.threads.length = some o → Settled s₀.world.tables o :=
    hγ.follows hdone
  exact ⟨o, hsettled o ho, htables, hK.listed o ho⟩

end Restart

/-- **A restart settles the runs.**  The manager crashes in any state it can reach, with no run in
the middle of its conclusion; it starts again, and no store call fails. Once the startup has
returned, a run that has not ended is on a VM that is running or paused. -/
theorem restart_settles_runs {as bs : List ManagerMove} {s₀ s : ManagerPool} {cfg : Startup}
    (hbefore : run lifecycle.step (Pool.quiet World.new) as = some s₀)
    (hrun : run lifecycle.step s₀ (.crash (.reconcile cfg) :: bs) = some s)
    (hcalm : ∀ a ∈ bs, undisturbed a = true)
    (hphase : ∀ run ∈ s₀.world.tables.runs, run.phase ≠ .concluding)
    (hdone : s.threads[s₀.threads.length]? = some (.reconcile cfg, .ret ())) :
    ∀ run ∈ s.world.tables.runs, run.active = true →
      ∃ vm, s.world.row run.vmID = some vm ∧
        (vm.observedState = .running ∨ vm.observedState = .paused) := by
  have htable : RunTable s₀.world.tables.runs :=
    runTable_run (s := Pool.quiet World.new) ⟨nodup_nil, fun a ha => by cases ha⟩ hbefore
  obtain ⟨o, hsettled, htables, -⟩ := Restart.settled_of_run htable.keys hrun hcalm hdone
  intro run hmem hactive
  rw [htables] at hmem
  obtain ⟨vm, hrow, hlive⟩ := hsettled.runs hphase run hmem hactive
  refine ⟨vm, ?_, by simpa [keepsRuns] using hlive⟩
  rw [World.row, htables]
  exact hrow

/-- A run for the tests below. -/
def guestRun : Run where
  runID := [9]
  vmID := [1]
  criteriaType := .guestResult
  onCompletion := .keepRunning
  progressEvents := false
  phase := .pending
  resultStatus := none
  progressSeq := 0

def launchWithRun : List ManagerMove :=
  (Move.start (.createVM [1] (some guestRun)) :: calls 0 4) ++ calls 1 8

def returned (s : ManagerPool) (i : Nat) : Option (Job × Bool) :=
  (s.threads[i]?).map fun t => (t.1, t.2.finished)

lemma thread_of_returned {s : ManagerPool} {i : Nat} {j : Job} (h : returned s i = some (j, true)) :
    s.threads[i]? = some (j, .ret ()) := by
  obtain ⟨⟨j', p⟩, hthread, heq⟩ := Option.map_eq_some_iff.1 h
  obtain ⟨rfl, hfinished⟩ := Prod.mk.inj heq
  obtain ⟨a, rfl⟩ := finished_iff.1 hfinished
  exact hthread

/-- A run that was being concluded at the crash stays in that phase, on a VM that has failed. -/
theorem restart_leaves_concluding :
    ∃ as bs s₀ s cfg, run lifecycle.step (Pool.quiet World.new) as = some s₀ ∧
      run lifecycle.step s₀ (.crash (.reconcile cfg) :: bs) = some s ∧
      (∀ a ∈ bs, undisturbed a = true) ∧
      s.threads[s₀.threads.length]? = some (.reconcile cfg, .ret ()) ∧
      ∃ run ∈ s.world.tables.runs, run.active = true ∧
        ∃ vm, s.world.row run.vmID = some vm ∧ vm.observedState = .failed := by
  refine ⟨launchWithRun ++ (.start (.submitRunResult [9] .succeeded) :: calls 2 2) ++ calls 3 2,
    calls 4 8, _, _, ⟨[], []⟩, yields (by decide +kernel), yields (by decide +kernel), by decide,
    thread_of_returned (by decide +kernel), by decide +kernel⟩

theorem restart_settles_runs_running :
    ∃ s₀ s : ManagerPool, run lifecycle.step (Pool.quiet World.new) launchWithRun = some s₀ ∧
      run lifecycle.step s₀ (.crash (.reconcile ⟨[], []⟩) :: calls 2 9) = some s ∧
      ∀ run ∈ s.world.tables.runs, run.active = true →
        ∃ vm, s.world.row run.vmID = some vm ∧
          (vm.observedState = .running ∨ vm.observedState = .paused) := by
  refine ⟨_, _, yields (by decide +kernel), yields (by decide +kernel), ?_⟩
  exact restart_settles_runs (yields _) (yields _) (by decide) (by decide +kernel)
    (thread_of_returned (by decide +kernel))

end Observatory.Runtime
