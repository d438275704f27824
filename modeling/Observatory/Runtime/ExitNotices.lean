/-
# Exit notices

A notice that a VMM has exited names the boot it is about. It reads the VM, compares the boots,
and then writes the row by transitions that carry no pin at all. So it is as good as its read:
while nobody else moves the row between the read and the last of its own transitions, a notice
changes only the row of a VM that is on the boot it names, and it ends no stop but its own.
-/
import Observatory.Runtime.Capacity

namespace Observatory.Runtime

open Lib Store Function

/-! ## The discipline of a notice -/

def noticeActs : VMState → Bool
  | .provisioning | .starting | .running | .paused => true
  | _ => false

/-- The state says that the notice has read the row it is about to write: every call it makes then
is a transition of it. -/
@[simps] def exitNotice (v : Bytes) (b : Nat) : Protocol Call Call.Reply Bool where
  guarantee sure
    | .store (.transitionVM inp) => sure = true ∧ inp.vmID = v ∧ inp.bootID = none
    | .store (.getVM u) => sure = false ∧ u = v
    | .store (.getRun _) | .store (.activeRunForVM _) | .store (.transitionRun _ _ _) =>
      sure = false
    | .store _ => False
    | _ => sure = false
  rely _
    | .store (.getVM _), .ok vm => vm.currentBootID.isSome = true
    | _, _ => True
  next sure
    | .store (.getVM _), .ok vm => vm.currentBootID = some b ∧ noticeActs vm.observedState
    | .store (.transitionVM inp), _ => sure && inp.dest = .stopping
    | _, _ => sure

namespace ExitNotices

variable {v : Bytes} {b : Nat} {sure : Bool} {α : Type}

variable {c : Call}

lemma wp_onVMTerminal {u : Bytes} {Φ : Bool → Unit → Prop} (h : Φ false ()) :
    (onVMTerminal u).wp (exitNotice v b) false Φ := by
  refine Prog.wp_of_uses (uses_concludeActive u .vmTerminal) (fun c hc => ?_) fun _ => h
  rcases c with c | c | c
  · cases c <;> first | exact hc.elim | exact ⟨rfl, fun _ => rfl⟩
  · exact hc.elim
  · cases c <;> first | exact hc.elim | exact ⟨rfl, fun _ => rfl⟩

lemma wp_settleExit {d : VMState} (hdest : d ≠ .stopping)
    {Φ : Bool → Except ManagerError Unit → Prop} (h : ∀ a, Φ false a) :
    (settleExit v d).wp (exitNotice v b) true Φ := by
  simp [settleExit, hdest, wp_onVMTerminal, h]

lemma wp_notifyVMMExit {graceful : Bool} :
    (notifyVMMExit v (some b) graceful).wp (exitNotice v b) false fun sure _ => sure = false := by
  simp [notifyVMMExit, withClaim]
  intro vm hsome
  have hdest : (if graceful = true then VMState.stopped else .failed) ≠ .stopping := by
    split_ifs <;> simp
  refine ⟨fun _ hne heq => absurd heq.symm hne, fun hpin => ?_⟩
  have hboot : vm.currentBootID = some b := (hpin hsome).symm
  refine ⟨fun hearly => ?_, fun hprov hstart => ⟨fun hrun => ?_, fun hrun hpaused _ => ?_⟩⟩
  · have hacts : noticeActs vm.observedState = true := by
      rcases hearly with h | h <;> rw [h] <;> rfl
    have hsettle := wp_settleExit (v := v) (b := b) (d := .failed) (by simp)
      (Φ := fun sure _ => sure = false) fun _ => rfl
    simpa [hboot, hacts] using hsettle
  · have hacts : noticeActs vm.observedState = true := by
      rcases hrun with h | h <;> rw [h] <;> rfl
    have hsettle := wp_settleExit (v := v) (b := b) hdest
      (Φ := fun sure _ => sure = false) fun _ => rfl
    simp only [hboot, hacts, and_self, decide_true, Bool.and_self, true_and]
    exact ⟨fun _ => hsettle, fun _ => hsettle⟩
  · clear hpin hdest
    cases hstate : vm.observedState <;> simp_all [noticeActs]

end ExitNotices

/-! ## Runs -/

def movedRow (v : Bytes) : (c : Call) × c.Reply → Bool
  | ⟨.store (.transitionVM inp), .ok _⟩ => inp.vmID = v
  | _ => false

def lastMover (s : ManagerPool) (v : Bytes) : Option Nat :=
  (s.trace.filter fun x => movedRow v x.2).getLast?.map Prod.fst

/-- Thread `i` is a notice for `v` between its read of the row and its last transition of it. -/
def midNotice (s : ManagerPool) (v : Bytes) (i : Nat) : Bool :=
  match s.next? i with
  | some (.notifyVMMExit u (some _) _, .store (.transitionVM _)) => u = v
  | _ => false

/-- Nobody else moves the row of a VM while a notice for it is under way, and a notice finds a VM
that has booted. -/
def noticesAlone (s : ManagerPool) : ManagerMove → Bool
  | .step i _ =>
    match s.next? i with
    | some (_, .store (.transitionVM inp)) =>
      (List.range s.threads.length).all fun i' => i' = i || !midNotice s inp.vmID i'
    | some (.notifyVMMExit _ (some _) _, .store (.getVM v)) =>
      (s.world.row v).all fun vm => vm.currentBootID.isSome
    | _ => true
  | _ => true

abbrev NoticesAlone (s : ManagerPool) (a : ManagerMove) : Prop := noticesAlone s a = true

namespace ExitNotices

def protocol : Job → Protocol Call Call.Reply Bool
  | .notifyVMMExit v (some b) _ => exitNotice v b
  | _ => .free

lemma follows (j : Job) : j.prog.wp (protocol j) false fun sure _ => sure = false := by
  rcases j with _ | _ | _ | _ | _ | _ | _ | ⟨v, _ | b, graceful⟩ | _ | _ | _ | _ | _ | _ | _
  all_goals first
    | exact Prog.wp_free fun _ => rfl
    | exact wp_ignore.2 wp_notifyVMMExit

def discipline : Discipline lifecycle Bool where
  protocol := protocol
  init _ := false
  idle := false
  done sure := sure = false
  jobs _ := True
  done_idle := rfl
  follows j _ := follows j

/-- What a notice that is about to write may count on. -/
def Sure (s : ManagerPool) (i : Nat) (v : Bytes) (b : Nat) : Prop :=
  ∃ vm, s.world.row v = some vm ∧ vm.currentBootID = some b ∧ vm.observedState ≠ .deleting ∧
    (vm.observedState = .stopping → lastMover s v = some i)

def Inv (γ : Nat → Bool) (s : ManagerPool) : Prop :=
  ∀ ⦃i : Nat⦄ ⦃v : Bytes⦄ ⦃b : Nat⦄ ⦃graceful : Bool⦄ ⦃p : M Unit⦄,
    s.threads[i]? = some (.notifyVMMExit v (some b) graceful, p) → γ i = true → Sure s i v b

variable {γ : Nat → Bool} {s : ManagerPool} {i : Nat} {e : Env} {j : Job} {v : Bytes} {b : Nat}

variable {c : Call} {w : World} {r : c.Reply} {f : c.Reply → M Unit}

lemma lastMover_called {k : Nat} :
    lastMover (s.called k j c f w r) v =
      if movedRow v ⟨c, r⟩ then some k else lastMover s v := by
  simp only [lastMover, Pool.called, List.filter_append]
  by_cases hmoved : movedRow v ⟨c, r⟩ = true <;> simp [hmoved]

lemma midNotice_of_sure (hcoupled : discipline.Coupled γ s) {graceful : Bool} {p : M Unit}
    (hthread : s.threads[i]? = some (.notifyVMMExit v (some b) graceful, p)) (hsure : γ i = true) :
    midNotice s v i = true := by
  have hfollows := hcoupled.follows hthread
  cases p with
  | ret a => cases hsure.symm.trans hfollows
  | call c k =>
    have hguarantee : (exitNotice v b).guarantee (γ i) c := hfollows.1
    rw [hsure, exitNotice_guarantee] at hguarantee
    rw [midNotice, Pool.next?_eq_some hthread]
    rcases c with c | c | c
    · cases c <;> simp_all
    · simp at hguarantee
    · simp at hguarantee

lemma not_moving (hp : NoticesAlone s (.step i e)) {i' : Nat} (hne : i' ≠ i)
    (hmid : midNotice s v i' = true) {inp : TransitionInput}
    (hnext : s.next? i = some (j, .store (.transitionVM inp))) : inp.vmID ≠ v := by
  rintro rfl
  have hlt : i' < s.threads.length := by
    by_contra hge
    simp [midNotice, Pool.next?, List.getElem?_eq_none (Nat.le_of_not_lt hge)] at hmid
  simp only [NoticesAlone, noticesAlone, hnext] at hp
  have hother := List.all_eq_true.1 hp i' (List.mem_range.2 hlt)
  simp [hne, hmid] at hother

lemma movedRow_eq_false (h : ∀ inp, c = .store (.transitionVM inp) → inp.vmID ≠ v) :
    movedRow v ⟨c, r⟩ = false := by
  rcases c with c | c | c
  · cases c with
    | transitionVM inp => cases r <;> simp [movedRow, h inp rfl]
    | _ => rfl
  · rfl
  · rfl

lemma Sure.called (h : Sure s i v b) {k : Nat} (hexec : Call.exec s.world c e = some (w, r))
    (hmove : ∀ inp, c = .store (.transitionVM inp) → inp.vmID ≠ v) :
    Sure (s.called k j c f w r) i v b := by
  obtain ⟨vm, hrow, hboot, hdeleting, hown⟩ := h
  have hmover : lastMover (s.called k j c f w r) v = lastMover s v := by
    simp [lastMover_called, movedRow_eq_false hmove]
  have hcase := rowCase hexec v
  rw [hrow] at hcase
  unfold Sure
  rw [hmover]
  show ∃ vm, w.row v = some vm ∧ _
  generalize w.row v = new at hcase
  cases hcase with
  | same => exact ⟨vm, rfl, hboot, hdeleting, hown⟩
  | marked | released => exact ⟨_, rfl, hboot, hdeleting, hown⟩
  | moved hv => exact absurd hv (hmove _ rfl)

lemma sure_of_read {vm : VM} (hrow : w.row v = some vm) (hboot : vm.currentBootID = some b)
    (hacts : noticeActs vm.observedState = true) : Sure (s.called i j c f w r) i v b := by
  refine ⟨vm, hrow, hboot, fun h => ?_, fun h => ?_⟩
  · rw [h] at hacts
    cases hacts
  · rw [h] at hacts
    cases hacts

/-- The stop a notice begins is its own. -/
lemma Sure.stopping (h : Sure s i v b) {inp : TransitionInput}
    {f : (Call.store (.transitionVM inp)).Reply → M Unit} {r : Except VMError VM}
    (hv : inp.vmID = v) (hbootID : inp.bootID = none) (hdest : inp.dest = .stopping)
    (hexec : Call.exec s.world (.store (.transitionVM inp)) e = some (w, r)) :
    Sure (s.called i j (.store (.transitionVM inp)) f w r) i v b := by
  obtain ⟨vm, hrow, hboot, hdeleting, hown⟩ := h
  cases moveCase hexec with
  | refused =>
    refine ⟨vm, hrow, hboot, hdeleting, fun hstopping => ?_⟩
    rw [lastMover_called]
    exact hown hstopping
  | moved hrow' =>
    subst hv
    obtain rfl := Option.some.inj (hrow.symm.trans hrow')
    refine ⟨inp.apply vm, ?_, ?_, ?_, fun _ => ?_⟩
    · simp [Pool.called, World.moved_row, hrow]
    · simpa [TransitionInput.apply, hbootID] using hboot
    · simp [hdest]
    · simp [lastMover_called, movedRow]

lemma Inv.add (h : Inv γ s) (j : Job) :
    Inv (update γ s.threads.length false) (lifecycle.add s j) := by
  intro i v b graceful p hthread hi
  rcases System.add_thread hthread with ⟨hne, hold⟩ | ⟨rfl, -, -⟩
  · rw [update_of_ne hne] at hi
    exact h hold hi
  · rw [update_self] at hi
    cases hi

lemma inv_crashed : Inv (fun _ => false) (lifecycle.crashed s) := nofun

lemma Inv.called (hinv : Inv γ s) (hcoupled : discipline.Coupled γ s)
    (hp : NoticesAlone s (.step i e)) {k : c.Reply → M Unit}
    (hthread : s.threads[i]? = some (j, .call c k)) (hexec : Call.exec s.world c e = some (w, r)) :
    Inv (update γ i ((protocol j).next (γ i) c r)) (s.called i j c k w r) := by
  intro i' v b graceful p hthread' hi'
  rcases Pool.called_thread hthread hthread' with ⟨hne, hold⟩ | ⟨rfl, rfl, -⟩
  · -- another thread's call: it does not move the row of a notice under way
    rw [update_of_ne hne] at hi'
    refine (hinv hold hi').called hexec fun inp hc => ?_
    subst hc
    exact not_moving hp hne (midNotice_of_sure hcoupled hold hi') (Pool.next?_eq_some hthread)
  · rw [update_self] at hi'
    have hguarantee : (exitNotice v b).guarantee (γ i') c := hcoupled.guarantee hthread
    replace hi' : (exitNotice v b).next (γ i') c r = true := hi'
    rcases c with c | c | c
    · cases c with
      | getVM u =>
        obtain ⟨hsure, rfl⟩ := hguarantee
        rcases r with err | vm
        · cases hsure.symm.trans hi'
        · simp only [exitNotice_next, decide_eq_true_eq] at hi'
          refine sure_of_read ?_ hi'.1 hi'.2
          rw [world_of_getVM hexec]
          exact row_of_getVM hexec
      | transitionVM inp =>
        obtain ⟨hsure, hv, hbootID⟩ := hguarantee
        simp only [exitNotice_next, hsure, Bool.true_and, decide_eq_true_eq] at hi'
        exact (hinv hthread hsure).stopping hv hbootID hi' hexec
      | _ => simp_all
    · simp_all
    · simp_all

/-- A notice reads a VM that has booted. -/
lemma rely_of_alone (hp : NoticesAlone s (.step i e)) {k : c.Reply → M Unit}
    (hthread : s.threads[i]? = some (j, .call c k)) (hexec : Call.exec s.world c e = some (w, r)) :
    (protocol j).rely (γ i) c r := by
  rcases j with _ | _ | _ | _ | _ | _ | _ | ⟨v, _ | b, graceful⟩ | _ | _ | _ | _ | _ | _ | _
  case notifyVMMExit.some =>
    show (exitNotice v b).rely _ _ _
    rw [exitNotice_rely]
    split
    · rename_i vm
      simpa [NoticesAlone, noticesAlone, Pool.next?_eq_some hthread, row_of_getVM hexec] using hp
    · trivial
  all_goals trivial

lemma keeps : discipline.Keeps NoticesAlone Inv where
  start _ hinv _ _ := ⟨trivial, hinv.add _⟩
  crash {_ s j} _ _ _ := by
    have hadd := (inv_crashed (s := s)).add j
    rw [System.crashed_length] at hadd
    exact ⟨trivial, hadd⟩
  step hcoupled hinv hp hthread _ hexec := by
    have hcalled := hinv.called hcoupled hp hthread hexec
    refine ⟨rely_of_alone hp hthread hexec, hcalled, fun j' _ => ⟨trivial, ?_⟩⟩
    have hadd := hcalled.add j'
    rwa [Pool.called_length] at hadd

end ExitNotices

/-- **Exit notices are pinned to their boot.**  In every run in which nobody else moves the row of
a VM between the read and the last transition of a notice for it, and in which notices find VMs
that have booted: a step of a notice that changes a row changes the row of its own VM, which is
then on the boot the notice names and is not being deleted; and if it is being stopped, the stop
is the notice's own. -/
theorem exit_notice_pinned {w : World} {as : List ManagerMove} {s s' : ManagerPool} {i : Nat}
    {e : Env} {v u : Bytes} {b : Nat} {graceful : Bool} {c : Call}
    (hrun : run lifecycle.step (Pool.quiet w) as = some s)
    (hstep : lifecycle.step s (.step i e) = some s')
    (halone : Along lifecycle.step NoticesAlone (Pool.quiet w) as)
    (hnotice : s.next? i = some (.notifyVMMExit v (some b) graceful, c))
    (hchanged : s'.world.row u ≠ s.world.row u) :
    u = v ∧ ∃ vm, s.world.row v = some vm ∧ vm.currentBootID = some b ∧
      vm.observedState ≠ .deleting ∧ (vm.observedState = .stopping → lastMover s v = some i) := by
  have hinit : ExitNotices.Inv (fun _ => false) (Pool.quiet w) := nofun
  obtain ⟨γ, hcoupled, hinv⟩ := ExitNotices.keeps.run_coupled
    ⟨_, Discipline.coupled_quiet w, hinit⟩ halone hrun
  cases System.stepCase hstep with
  | @step _ _ j' c' k w' r hthread hexec =>
    obtain ⟨rfl, rfl⟩ :=
      Prod.mk.inj (Option.some.inj ((Pool.next?_eq_some hthread).symm.trans hnotice))
    have hguarantee : (exitNotice v b).guarantee (γ i) c' := hcoupled.guarantee hthread
    rw [System.spawned_world] at hchanged
    have hcase := rowCase hexec u
    replace hchanged : w'.row u ≠ s.world.row u := hchanged
    generalize w'.row u = new at hcase hchanged
    generalize s.world.row u = old at hcase hchanged
    cases hcase with
    | same => exact absurd rfl hchanged
    | marked hc | created hc =>
      rcases c' with c | c | c
      · cases c <;> first | exact hc.elim | exact hguarantee.elim
      · exact hc.elim
      · exact hc.elim
    | released => exact hguarantee.elim
    | moved hv =>
      obtain ⟨hsure, hv', -⟩ := hguarantee
      exact ⟨hv.symm.trans hv', hinv hthread hsure⟩

/-- A VM that is created and launched, and a notice for its first boot, up to the notice's first
transition; `between` happens after the notice has read the row. -/
def noticeAfterLaunch (v : Bytes) (between : List ManagerMove) : List ManagerMove :=
  (Move.start (.createVM v none) :: calls 0 4) ++ calls 1 7 ++
    (.start (.notifyVMMExit v (some 0) true) :: calls 2 3) ++ between

/-- A stop and a start fit between the read and the write of a notice: it then stops the VM's
second boot. -/
theorem exit_notice_stops_next_boot :
    ∃ as s s' e c, run lifecycle.step (Pool.quiet World.new) as = some s ∧
      lifecycle.step s (.step 2 e) = some s' ∧
      s.next? 2 = some (.notifyVMMExit [1] (some 0) true, c) ∧
      (∃ vm, s.world.row [1] = some vm ∧ vm.currentBootID = some 1) ∧
      s'.world.row [1] ≠ s.world.row [1] := by
  obtain ⟨s, hs, s', hs', ⟨j, c⟩, hnext, rfl, hfacts⟩ : ∃ s, run lifecycle.step
      (Pool.quiet World.new) (noticeAfterLaunch [1] ((.start (.action [1] .stop none) ::
        calls 3 8) ++ .start (.action [1] .start none) :: calls 4 8)) = some s ∧
      ∃ s', lifecycle.step s (.step 2 {}) = some s' ∧
      ∃ x, s.next? 2 = some x ∧ x.1 = .notifyVMMExit [1] (some 0) true ∧
        (∃ vm, s.world.row [1] = some vm ∧ vm.currentBootID = some 1) ∧
        s'.world.row [1] ≠ s.world.row [1] := by
    decide +kernel
  exact ⟨_, s, s', {}, c, hs, hs', hnext, hfacts⟩

theorem exit_notice_pinned_alone :
    ∃ s s' : ManagerPool,
      run lifecycle.step (Pool.quiet World.new) (noticeAfterLaunch [1] []) = some s ∧
      lifecycle.step s (.step 2 {}) = some s' ∧
      ∃ vm, s.world.row [1] = some vm ∧ vm.currentBootID = some 0 := by
  obtain ⟨s, hs, s', hs', ⟨j, c⟩, hnext, rfl, hchanged⟩ : ∃ s,
      run lifecycle.step (Pool.quiet World.new) (noticeAfterLaunch [1] []) = some s ∧
      ∃ s', lifecycle.step s (.step 2 {}) = some s' ∧
      ∃ x, s.next? 2 = some x ∧ x.1 = .notifyVMMExit [1] (some 0) true ∧
        s'.world.row [1] ≠ s.world.row [1] := by
    decide +kernel
  obtain ⟨-, vm, hrow, hboot, -⟩ := exit_notice_pinned hs hs' (by decide +kernel) hnext hchanged
  exact ⟨s, s', hs, hs', vm, hrow, hboot⟩

end Observatory.Runtime
