/-
# What calls do to the runs

Like `Runtime/Rows.lean`, for the other table: a call inserts a run, moves one to another phase,
records a result, or leaves the runs alone. The ids of the runs stay distinct, and a VM keeps at
most one run that has not ended.
-/
import Observatory.Runtime.Rows

namespace Observatory.Runtime

open Lib Store Function List

variable {w w' : World} {e : Env} {r v : Bytes} {runs runs' : List Run} {run : Run} {ph : RunPhase}

/-! ## Phases -/

def setPhase (r : Bytes) (ph : RunPhase) (runs : List Run) : List Run :=
  Table.modify Run.runID r (fun run => { run with phase := ph }) runs

lemma getRun_modify {r' : Bytes} {f : Run → Run} (hf : ∀ a, (f a).runID = a.runID) :
    Store.getRun (Table.modify Run.runID r f runs) r' =
      if r' = r then (Store.getRun runs r').map f else Store.getRun runs r' :=
  Table.find_modify hf r' r runs

lemma getRun_setPhase : Store.getRun (setPhase r ph runs) r =
    (Store.getRun runs r).map fun run => { run with phase := ph } :=
  Table.find_modify_self fun _ => rfl

lemma getRun_setPhase_of_ne {r' : Bytes} (h : r' ≠ r) :
    Store.getRun (setPhase r ph runs) r' = Store.getRun runs r' :=
  Table.find_modify_of_ne (fun _ => rfl) h

lemma keys_setPhase : (setPhase r ph runs).map Run.runID = runs.map Run.runID :=
  Table.keys_modify fun _ => rfl

/-- A transition is refused for a reason, or it moves the run it found. -/
inductive PhaseCase (w : World) (e : Env) (r : Bytes) (frm dest : RunPhase) :
    World → Except RunError Run → Prop
  | fault (h : e.fault = true) : PhaseCase w e r frm dest w (.error .database)
  | missing (h : Store.getRun w.tables.runs r = none) :
      PhaseCase w e r frm dest w (.error .runNotFound)
  | invalid {run : Run} (h : Store.getRun w.tables.runs r = some run)
      (hwhy : frm ≠ run.phase ∨ runTransitionAllowed run.phase dest = false) :
      PhaseCase w e r frm dest w (.error (.invalidRunTransition run.phase dest))
  | moved {run : Run} (h : Store.getRun w.tables.runs r = some run) (hpin : frm = run.phase)
      (hedge : runTransitionAllowed run.phase dest = true) :
      PhaseCase w e r frm dest
        { w with tables := ⟨w.tables.vms, setPhase r dest w.tables.runs⟩ }
        (.ok { run with phase := dest })

lemma phaseCase {frm dest : RunPhase} {reply : Except RunError Run}
    (h : Call.exec w (.store (.transitionRun r frm dest)) e = some (w', reply)) :
    PhaseCase w e r frm dest w' reply := by
  simp only [Call.exec, StoreCall.exec, Option.some.injEq, Prod.mk.injEq] at h
  obtain ⟨rfl, rfl⟩ := h
  by_cases hfault : e.fault = true
  · simpa [commit, hfault] using PhaseCase.fault hfault
  cases hget : Store.getRun w.tables.runs r with
  | none => simpa [commit, hfault, transitionRun, hget, Except.map] using PhaseCase.missing hget
  | some run =>
    by_cases hpin : frm = run.phase
    · by_cases hedge : runTransitionAllowed run.phase dest = true
      · simpa [commit, hfault, transitionRun, hget, hpin, hedge, Except.map, setPhase] using
          (PhaseCase.moved hget hpin hedge : PhaseCase w e r frm dest _ _)
      · simpa [commit, hfault, transitionRun, hget, hpin, hedge, Except.map] using
          (PhaseCase.invalid hget (.inr (by simpa using hedge)) : PhaseCase w e r frm dest _ _)
    · simpa [commit, hfault, transitionRun, hget, hpin, Except.map] using
        (PhaseCase.invalid hget (.inl hpin) : PhaseCase w e r frm dest _ _)

/-! ## The table -/

/-- What the keys of the table keep up: ids are distinct, and a VM has at most one run that has not
ended. -/
structure RunTable (runs : List Run) : Prop where
  keys : (runs.map Run.runID).Nodup
  single : ∀ a ∈ runs, ∀ b ∈ runs, a.active = true → b.active = true → a.vmID = b.vmID → a = b

lemma RunTable.get (h : RunTable runs) (hmem : run ∈ runs) :
    Store.getRun runs run.runID = some run := Table.find_of_mem h.keys hmem

/-- Rows that are changed but for their keys, and without coming back to life. -/
lemma RunTable.modify (h : RunTable runs) {f : Run → Run} (hid : ∀ a, (f a).runID = a.runID)
    (hvm : ∀ a, (f a).vmID = a.vmID)
    (hactive : ∀ a ∈ runs, a.runID = r → (f a).active = true → a.active = true) :
    RunTable (Table.modify Run.runID r f runs) := by
  refine ⟨by rw [Table.keys_modify hid]; exact h.keys, fun a ha b hb haactive hbactive hab => ?_⟩
  -- each row comes from one that was active on the same VM
  have horigin : ∀ a ∈ Table.modify Run.runID r f runs, a.active = true →
      ∃ a₀ ∈ runs, a₀.active = true ∧ a₀.vmID = a.vmID ∧ a = if a₀.runID = r then f a₀ else a₀ := by
    intro a ha haactive
    obtain ⟨a₀, hmem, rfl⟩ := mem_map.1 ha
    refine ⟨a₀, hmem, ?_, ?_, rfl⟩
    · split_ifs at haactive with hr
      · exact hactive a₀ hmem hr haactive
      · exact haactive
    · split_ifs
      · exact (hvm a₀).symm
      · rfl
  obtain ⟨a₀, ha₀, haactive₀, hav, rfl⟩ := horigin a ha haactive
  obtain ⟨b₀, hb₀, hbactive₀, hbv, rfl⟩ := horigin b hb hbactive
  rw [h.single a₀ ha₀ b₀ hb₀ haactive₀ hbactive₀ (hav.trans (hab.trans hbv.symm))]

lemma RunTable.insert (h : RunTable runs) (hins : Store.createRun runs run = .ok runs') :
    RunTable runs' := by
  obtain ⟨hfree, htable⟩ := createRun_ok hins
  refine ⟨Table.keys_insert h.keys htable, ?_⟩
  obtain ⟨-, rfl⟩ := Table.insert_eq_some.1 htable
  have hnone : ∀ a ∈ runs, run.active = true → a.vmID = run.vmID → a.active = false :=
    fun a ha hrun hvm => activeRunForVM_eq_none.1 (hfree hrun) a ha hvm
  intro a ha b hb haactive hbactive hab
  rcases mem_append.1 ha with hold | hnew <;> rcases mem_append.1 hb with hold' | hnew'
  · exact h.single a hold b hold' haactive hbactive hab
  · obtain rfl := mem_singleton.1 hnew'
    exact absurd haactive (by simp [hnone a hold hbactive hab])
  · obtain rfl := mem_singleton.1 hnew
    exact absurd hbactive (by simp [hnone b hold' haactive hab.symm])
  · rw [mem_singleton.1 hnew, mem_singleton.1 hnew']

lemma RunTable.setPhase (h : RunTable runs) (hrun : Store.getRun runs r = some run)
    (hedge : runTransitionAllowed run.phase ph = true) : RunTable (setPhase r ph runs) := by
  refine h.modify (fun _ => rfl) (fun _ => rfl) fun a ha har _ => ?_
  obtain rfl : run = a := Option.some.inj (hrun.symm.trans (har ▸ h.get ha))
  unfold Run.active
  cases hphase : run.phase <;> simp_all [RunPhase.terminal, runTransitionAllowed, validRunTransitions]

/-- A call that is not about runs leaves them alone. -/
def Call.onRuns : Call → Bool
  | .store (.createVMWithOperation _ _) | .store (.createVMBatch _ _) | .store (.createRun _)
  | .store (.transitionRun _ _ _) | .store (.submitRunResult _ _) => true
  | _ => false

lemma runs_of_other {c : Call} {reply : c.Reply} (hc : c.onRuns = false)
    (h : Call.exec w c e = some (w', reply)) : w'.tables.runs = w.tables.runs := by
  rcases c with c | c | c
  · simp only [Call.exec, Option.some.injEq, Prod.mk.injEq] at h
    obtain ⟨rfl, -⟩ := h
    cases c with
    | createVMWithOperation | createVMBatch | createRun | transitionRun | submitRunResult => cases hc
    | transitionVM inp =>
      have hcase := transitionCase w.tables e inp
      generalize (StoreCall.transitionVM inp).exec w.tables e = result at hcase
      cases hcase <;> rfl
    | clearCleanupDebt | recordCleanupFailure | releaseVMReservations =>
      simp only [StoreCall.exec, commit]
      split_ifs <;> rfl
    | _ => rfl
  · rw [tables_of_host h]
  · rw [tables_of_manager h]

/-- The outcomes of an insert. -/
lemma createRun_cases {row : Run} {reply : Except RunError Unit}
    (h : Call.exec w (.store (.createRun row)) e = some (w', reply)) :
    w' = w ∨ ∃ runs', Store.createRun w.tables.runs row = .ok runs' ∧
      w' = { w with tables := ⟨w.tables.vms, runs'⟩ } := by
  simp only [Call.exec, StoreCall.exec, Option.some.injEq, Prod.mk.injEq] at h
  obtain ⟨rfl, -⟩ := h
  rcases commit_map_cases w.tables e RunError.database (Store.createRun w.tables.runs row)
      (fun runs => ({ w.tables with runs := runs }, ())) with
    ⟨err, hcommit, -⟩ | ⟨runs', hcommit, -, hok⟩
  · exact .inl (by rw [hcommit])
  · exact .inr ⟨runs', hok, by rw [hcommit]⟩

/-- A result changes nothing but itself. -/
lemma submitRunResult_cases {status : ResultStatus} {reply : Except RunError Unit}
    (h : Call.exec w (.store (.submitRunResult r status)) e = some (w', reply)) :
    (w' = w ∧ ∃ err, reply = .error err) ∨ ((∃ run, Store.getRun w.tables.runs r = some run) ∧
      w' = { w with tables := ⟨w.tables.vms, Table.modify Run.runID r
        (fun run => { run with resultStatus := some status }) w.tables.runs⟩ }) := by
  simp only [Call.exec, StoreCall.exec, Option.some.injEq, Prod.mk.injEq] at h
  obtain ⟨rfl, rfl⟩ := h
  rcases commit_map_cases w.tables e RunError.database (Store.submitRunResult w.tables.runs r status)
      (fun runs => ({ w.tables with runs := runs }, ())) with
    ⟨err, hcommit, -⟩ | ⟨runs', hcommit, -, hok⟩
  · exact .inl ⟨by rw [hcommit], err, by rw [hcommit]⟩
  · refine .inr ?_
    rw [hcommit]
    unfold Store.submitRunResult at hok
    cases hget : Store.getRun w.tables.runs r with
    | none => simp [hget] at hok
    | some run =>
      simp only [hget] at hok
      split_ifs at hok
      obtain rfl := Except.ok.inj hok
      exact ⟨⟨run, rfl⟩, rfl⟩

section Rule

variable {P : List Run → Prop} (hinsert : ∀ {runs runs' row}, P runs →
  Store.createRun runs row = .ok runs' → P runs')

include hinsert

lemma attachRun_preserves {attached : Option Run} (h : P runs)
    (hattach : attachRun runs v attached = .ok runs') : P runs' := by
  cases attached with
  | none => exact (Except.ok.inj hattach) ▸ h
  | some run => exact hinsert h hattach

lemma admitMembers_preserves {t t' : Tables} {members : List BatchMember} (h : P t.runs)
    (hadmitted : t.admitMembers members = .ok t') : P t'.runs := by
  induction members generalizing t with
  | nil => exact (Except.ok.inj hadmitted) ▸ h
  | cons m ms ih =>
    unfold Tables.admitMembers at hadmitted
    cases hone : t.admitVM m.vmID m.run with
    | error err => simp [hone] at hadmitted
    | ok t₁ =>
      simp only [hone] at hadmitted
      exact ih (attachRun_preserves hinsert h (admitVM_ok hone).2.2) hadmitted

variable (hphase : ∀ {runs r run ph}, P runs → Store.getRun runs r = some run →
    runTransitionAllowed run.phase ph = true → P (setPhase r ph runs))
  (hresult : ∀ {runs} r status, P runs → P (Table.modify Run.runID r
    (fun run => { run with resultStatus := some status }) runs))

include hphase hresult

/-- What an insert, a move along an edge and a result keep, every call keeps. -/
lemma runs_exec {c : Call} {reply : c.Reply} (h : Call.exec w c e = some (w', reply))
    (hP : P w.tables.runs) : P w'.tables.runs := by
  by_cases hc : c.onRuns = false
  · rwa [runs_of_other hc h]
  rcases c with c | c | c
  · cases c with
    | createRun row =>
      rcases createRun_cases h with rfl | ⟨runs', hok, rfl⟩
      · exact hP
      · exact hinsert hP hok
    | transitionRun r frm dest =>
      cases phaseCase h with
      | fault | missing | invalid => exact hP
      | moved hrun _ hedge => exact hphase hP hrun hedge
    | submitRunResult r status =>
      rcases submitRunResult_cases h with ⟨rfl, -⟩ | ⟨-, rfl⟩
      · exact hP
      · exact hresult r status hP
    | createVMWithOperation v attached =>
      simp only [Call.exec, StoreCall.exec, Option.some.injEq, Prod.mk.injEq] at h
      obtain ⟨rfl, -⟩ := h
      simp only [commit]
      split_ifs
      · exact hP
      · cases hadmitted : w.tables.admitVM v attached with
        | error err => exact hP
        | ok t => exact attachRun_preserves hinsert hP (admitVM_ok hadmitted).2.2
      · exact hP
    | createVMBatch members mode =>
      simp only [Call.exec, StoreCall.exec, Option.some.injEq, Prod.mk.injEq] at h
      obtain ⟨rfl, -⟩ := h
      rcases commit_map_cases w.tables e VMError.database
          (w.tables.admitMembers (admittedMembers e mode members))
          (fun t' => (t', (admittedMembers e mode members).map (·.vmID))) with
        ⟨err, hcommit, -⟩ | ⟨t', hcommit, -, hok⟩
      · rw [hcommit]
        exact hP
      · rw [hcommit]
        exact admitMembers_preserves hinsert hP hok
    | _ => exact absurd rfl hc
  · exact absurd rfl hc
  · exact absurd rfl hc

lemma runs_run {s s' : ManagerPool} {as : List ManagerMove} (hP : P s.world.tables.runs)
    (hrun : Lib.run lifecycle.step s as = some s') : P s'.world.tables.runs := by
  refine run_preserves (I := fun s => P s.world.tables.runs) (fun s a s' h hstep => ?_) hP hrun
  cases System.stepCase hstep with
  | start | crash => exact h
  | step hthread hexec =>
    rw [System.spawned_world]
    exact runs_exec hinsert hphase hresult hexec h

end Rule

/-- **The runs stay a table**, whatever is called and wherever the process crashes. -/
lemma runTable_run {s s' : ManagerPool} {as : List ManagerMove} (htable : RunTable s.world.tables.runs)
    (hrun : Lib.run lifecycle.step s as = some s') : RunTable s'.world.tables.runs :=
  runs_run (fun h hins => h.insert hins) (fun h hget hedge => h.setPhase hget hedge)
    (fun _ _ h => h.modify (fun _ => rfl) (fun _ => rfl) fun _ _ _ hactive => hactive) htable hrun

/-! ## Verdicts -/

def LeadsTo : RunPhase → RunPhase → Prop :=
  Relation.ReflTransGen fun a b => runTransitionAllowed a b = true

/-- The run `r` has its row still, of the same VM, in a phase that the edges lead to. -/
def Followed (r : Bytes) (run : Run) (runs : List Run) : Prop :=
  ∃ run', Store.getRun runs r = some run' ∧ run'.vmID = run.vmID ∧ LeadsTo run.phase run'.phase

lemma Followed.insert {row : Run} (h : Followed r run runs)
    (hins : Store.createRun runs row = .ok runs') : Followed r run runs' := by
  obtain ⟨run', hget, hrest⟩ := h
  obtain ⟨-, rfl⟩ := Table.insert_eq_some.1 (createRun_ok hins).2
  refine ⟨run', ?_, hrest⟩
  rw [Store.getRun] at hget ⊢
  rw [Table.find_append_singleton, hget, Option.some_or]

lemma Followed.modify {r' : Bytes} {f : Run → Run} (h : Followed r run runs)
    (hid : ∀ a, (f a).runID = a.runID) (hvm : ∀ a, (f a).vmID = a.vmID)
    (hphase : ∀ a, Store.getRun runs r' = some a →
      (f a).phase = a.phase ∨ runTransitionAllowed a.phase (f a).phase = true) :
    Followed r run (Table.modify Run.runID r' f runs) := by
  obtain ⟨run', hget, hsame, hpath⟩ := h
  rw [Followed, getRun_modify hid, hget]
  split_ifs with hr
  · refine ⟨f run', rfl, (hvm run').trans hsame, ?_⟩
    rcases hphase run' (hr ▸ hget) with heq | hedge
    · rwa [heq]
    · exact hpath.tail hedge
  · exact ⟨run', rfl, hsame, hpath⟩

end Observatory.Runtime
