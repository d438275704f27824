/-
# What calls do to the rows

Properties of the registry are properties of the row of each VM. One call changes a row in
one of four ways, and which of them is possible can be read off the call (`RowCase`); the rest
of the module says the same of the answers and of the host.
-/
import Observatory.Runtime.System

namespace Observatory.Runtime

open Lib Store Function Store

/-! ## Calls on a row -/

def Call.creates (v : Bytes) : Call → Prop
  | .store (.createVMWithOperation v' _) => v' = v
  | .store (.createVMBatch members _) => ∃ m ∈ members, m.vmID = v
  | _ => False

/-- The call is about the cleanup marker of a VM. -/
def Call.marks : Call → Prop
  | .store (.clearCleanupDebt _) | .store (.recordCleanupFailure _ _) => True
  | _ => False

/-- What a call can do to the row of VM `v`, before and after. -/
inductive RowCase (v : Bytes) : Call → Option VM → Option VM → Prop
  | same {c : Call} {row : Option VM} : RowCase v c row row
  | marked {c : Call} {vm : VM} (hc : c.marks) (debt : Bool) :
      RowCase v c (some vm) (some { vm with cleanupDebt := debt })
  | created {c : Call} (hc : c.creates v) : RowCase v c none (some (VM.new v))
  | released {vm : VM} (hfailed : vm.observedState = .failed) :
      RowCase v (.store (.releaseVMReservations v)) (some vm)
        (some { vm with computeReleased := true, released := true })
  | moved {inp : TransitionInput} {vm : VM} (hv : inp.vmID = v) {admitted : Bool}
      (accepted : inp.Accepted vm admitted) :
      RowCase v (.store (.transitionVM inp)) (some vm) (some (inp.apply vm))

variable {w w' : World} {e : Env} {v : Bytes}

variable {u : Bytes} {vms : List VM} {t : Tables} {α : Type}

lemma commit_map_cases {ε β : Type} (t : Tables) (e : Env) (down : ε) (result : Except ε β)
    (f : β → Tables × α) : (∃ err, commit t e down (result.map f) = (t, .error err) ∧
        ((e.fault = true ∧ err = down) ∨ (e.fault = false ∧ result = .error err))) ∨
      (∃ b, commit t e down (result.map f) = ((f b).1, .ok (f b).2) ∧ e.fault = false ∧
        result = .ok b) := by
  unfold commit
  by_cases hfault : e.fault = true
  · exact .inl ⟨down, by simp [hfault], .inl ⟨hfault, rfl⟩⟩
  · have hfault' : e.fault = false := by simpa using hfault
    cases result with
    | error err => exact .inl ⟨err, by simp [hfault, Except.map], .inr ⟨hfault', rfl⟩⟩
    | ok b => exact .inr ⟨b, by simp [hfault, Except.map], hfault', rfl⟩

lemma answer_ok {ε : Type} {down missing : ε} {found : Option α} {a : α}
    (h : answer e down missing found = .ok a) : found = some a := by
  unfold answer at h
  split_ifs at h
  cases found with
  | none => cases h
  | some b => exact congrArg some (Except.ok.inj h)

lemma row_of_getVM {vm : VM} (h : Call.exec w (.store (.getVM v)) e = some (w', .ok vm)) :
    w.row v = some vm := by
  simp only [Call.exec, StoreCall.exec, Option.some.injEq, Prod.mk.injEq] at h
  exact answer_ok h.2

lemma world_of_getVM {r : Except VMError VM}
    (h : Call.exec w (.store (.getVM v)) e = some (w', r)) : w' = w := by
  simp only [Call.exec, StoreCall.exec, Option.some.injEq, Prod.mk.injEq] at h
  exact h.1.symm

/-! ## Creation -/

lemma insertVM_ok {vms' : List VM} (h : insertVM vms v = .ok vms') :
    getVM vms v = none ∧ vms' = vms ++ [VM.new v] := by
  unfold insertVM at h
  cases hins : Table.insert VM.vmID (VM.new v) vms with
  | none => simp [hins] at h
  | some t =>
    obtain rfl : t = vms' := by simpa [hins] using h
    exact Table.insert_eq_some.1 hins

lemma admitVM_ok {t' : Tables} {run : Option Run} (h : t.admitVM v run = .ok t') :
    getVM t.vms v = none ∧ t'.vms = t.vms ++ [VM.new v] ∧
      attachRun t.runs v run = .ok t'.runs := by
  unfold Tables.admitVM at h
  cases hins : insertVM t.vms v with
  | error err => simp [hins] at h
  | ok vms =>
    cases hrun : attachRun t.runs v run with
    | error err => simp [hins, hrun] at h
    | ok runs =>
      obtain rfl : (⟨vms, runs⟩ : Tables) = t' := by simpa [hins, hrun] using h
      exact ⟨(insertVM_ok hins).1, (insertVM_ok hins).2, rfl⟩

lemma getVM_append_new (h : getVM vms v = none) :
    getVM (vms ++ [VM.new v]) u = getVM vms u ∨
      (u = v ∧ getVM vms u = none ∧ getVM (vms ++ [VM.new v]) u = some (VM.new u)) := by
  simp only [getVM, Table.find_append_singleton] at h ⊢
  by_cases huv : u = v
  · subst huv
    exact .inr ⟨rfl, h, by simp [h, VM.new]⟩
  · have hne : ¬ (VM.new v).vmID = u := fun heq => huv heq.symm
    exact .inl (by simp [hne])

lemma admitMembers_row {t' : Tables} {members : List BatchMember}
    (h : t.admitMembers members = .ok t') :
    getVM t'.vms u = getVM t.vms u ∨
      (getVM t.vms u = none ∧ getVM t'.vms u = some (VM.new u) ∧
        ∃ m ∈ members, m.vmID = u) := by
  induction members generalizing t with
  | nil =>
    obtain rfl : t = t' := by simpa [Tables.admitMembers] using h
    exact .inl rfl
  | cons m ms ih =>
    unfold Tables.admitMembers at h
    cases hadmitted : t.admitVM m.vmID m.run with
    | error err => simp [hadmitted] at h
    | ok t₁ =>
      simp only [hadmitted] at h
      obtain ⟨hnone, hvms, -⟩ := admitVM_ok hadmitted
      rcases ih h with hsame | ⟨hnone', hnew, m', hm', rfl⟩
      · rcases getVM_append_new (u := u) hnone with hold | ⟨rfl, hold, hnew⟩
        · exact .inl (by rw [hsame, hvms, hold])
        · exact .inr ⟨hold, by rw [hsame, hvms, hnew], m, List.mem_cons_self, rfl⟩
      · refine .inr ⟨?_, hnew, m', List.mem_cons_of_mem m hm', rfl⟩
        rcases getVM_append_new (u := m'.vmID) hnone with hold | ⟨-, -, hnew'⟩
        · rw [← hold, ← hvms, hnone']
        · rw [hvms, hnew'] at hnone'
          cases hnone'

lemma mem_of_mem_admittedMembers {mode : ReservationMode} {members : List BatchMember}
    {m : BatchMember} (h : m ∈ admittedMembers e mode members) : m ∈ members := by
  unfold admittedMembers at h
  cases mode with
  | atomicReservation => split_ifs at h with ha; exacts [h, absurd h List.not_mem_nil]
  | bestEffort => exact (List.mem_filter.1 h).1

/-! ## The inversion -/

lemma getVM_modify {f : VM → VM} (hf : ∀ vm, (f vm).vmID = vm.vmID) :
    getVM (Table.modify VM.vmID u f vms) v =
      if v = u then (getVM vms v).map f else getVM vms v :=
  Table.find_modify hf v u vms

/-- A transition is refused and changes nothing, or it moves the row it found. -/
inductive TransitionCase (t : Tables) (e : Env) (inp : TransitionInput) :
    Tables × Except VMError VM → Prop
  | refused {err : VMError} (hunknown : err = .vmUnknown → Store.getVM t.vms inp.vmID = none)
      (hfault : err = .database → e.fault = true) : TransitionCase t e inp (t, .error err)
  | moved {vm : VM} (hrow : Store.getVM t.vms inp.vmID = some vm)
      (haccepted : inp.Accepted vm e.admitted) :
      TransitionCase t e inp
        (⟨Table.modify VM.vmID inp.vmID inp.apply t.vms, t.runs⟩, .ok (inp.apply vm))

lemma transitionCase (t : Tables) (e : Env) (inp : TransitionInput) :
    TransitionCase t e inp ((StoreCall.transitionVM inp).exec t e) := by
  rw [StoreCall.exec]
  rcases commit_map_cases t e VMError.database (transitionVM t.vms inp e.admitted)
      (fun p => ({ t with vms := p.1 }, p.2)) with ⟨err, hcommit, hwhy⟩ | ⟨p, hcommit, -, hok⟩
  · rw [hcommit]
    refine .refused ?_ ?_
    · rintro rfl
      rcases hwhy with ⟨-, hbad⟩ | ⟨-, herr⟩
      · cases hbad
      · rcases transitionVM_error herr with ⟨-, hnone⟩ | ⟨-, hne, -⟩
        · exact hnone
        · exact absurd rfl hne
    · rintro rfl
      rcases hwhy with ⟨hfault, -⟩ | ⟨-, herr⟩
      · exact hfault
      · rcases transitionVM_error herr with ⟨hbad, -⟩ | ⟨-, -, hne⟩
        · cases hbad
        · exact absurd rfl hne
  · rw [hcommit]
    obtain ⟨current, hget, haccepted, hrow, hvms⟩ := transitionVM_ok hok
    rw [hrow, hvms]
    exact .moved hget haccepted

lemma vms_commit_runs {β : Type} (t : Tables) (e : Env) (result : Except RunError β)
    (f : β → Tables × α) (hf : ∀ b, (f b).1.vms = t.vms) :
    (commit t e RunError.database (result.map f)).1.vms = t.vms := by
  rcases commit_map_cases t e RunError.database result f with
    ⟨err, hcommit, -⟩ | ⟨b, hcommit, -, -⟩ <;> rw [hcommit]
  exact hf b

lemma rowCase_marked {c : Call} {f : VM → VM} (hc : c.marks)
    (hf : ∀ vm, ∃ debt, f vm = { vm with cleanupDebt := debt }) :
    RowCase v c (getVM vms v) (getVM (Table.modify VM.vmID u f vms) v) := by
  rw [getVM_modify fun vm => by obtain ⟨debt, h⟩ := hf vm; rw [h]]
  by_cases hv : v = u
  · rw [if_pos hv]
    cases hrow : getVM vms v with
    | none => exact .same
    | some vm =>
      obtain ⟨debt, h⟩ := hf vm
      rw [Option.map_some, h]
      exact .marked hc debt
  · rw [if_neg hv]
    exact .same

lemma rowCase_store {c : StoreCall} :
    RowCase v (.store c) (getVM t.vms v) (getVM (c.exec t e).1.vms v) := by
  cases c with
  | getVM | getReservation | listVMs | insertActionOperation | failOperations | hasCleanupDebt
  | recordReconcileAmbiguity | getRun | activeRunForVM | listRunsInPhases => exact .same
  | createRun row | transitionRun r frm dest | submitRunResult r status =>
    rw [StoreCall.exec, vms_commit_runs]
    · exact .same
    · exact fun _ => rfl
  | clearCleanupDebt u =>
    simp only [StoreCall.exec, commit]
    split_ifs
    · exact .same
    · exact rowCase_marked trivial fun vm => ⟨false, rfl⟩
  | recordCleanupFailure u state =>
    simp only [StoreCall.exec]
    split_ifs
    · exact .same
    · refine rowCase_marked trivial fun vm => ?_
      split_ifs
      · exact ⟨true, rfl⟩
      · exact ⟨vm.cleanupDebt, rfl⟩
  | releaseVMReservations u =>
    simp only [StoreCall.exec, commit]
    split_ifs
    · exact .same
    · simp only [releaseVMReservations]
      rw [getVM_modify fun vm => by split_ifs <;> rfl]
      by_cases hv : v = u
      · subst hv
        rw [if_pos rfl]
        cases hrow : getVM t.vms v with
        | none => exact .same
        | some vm =>
          rw [Option.map_some]
          by_cases hfailed : vm.observedState = .failed
          · rw [if_pos hfailed]
            exact .released hfailed
          · rw [if_neg hfailed]
            exact .same
      · rw [if_neg hv]
        exact .same
  | transitionVM inp =>
    have hcase := transitionCase t e inp
    generalize (StoreCall.transitionVM inp).exec t e = result at hcase
    cases hcase with
    | refused => exact .same
    | @moved vm hrow haccepted =>
      rw [getVM_modify (apply_vmID inp)]
      by_cases hv : v = inp.vmID
      · subst hv
        rw [if_pos rfl, hrow]
        exact .moved rfl haccepted
      · rw [if_neg hv]
        exact .same
  | createVMWithOperation u run =>
    simp only [StoreCall.exec, commit]
    split_ifs
    · exact .same
    · cases hadmitted : t.admitVM u run with
      | error err => exact .same
      | ok t' =>
        obtain ⟨hnone, hvms, -⟩ := admitVM_ok hadmitted
        simp only [Except.map, hvms]
        rcases getVM_append_new (u := v) hnone with hold | ⟨rfl, hold, hnew⟩
        · rw [hold]
          exact .same
        · rw [hold, hnew]
          exact .created rfl
    · exact .same
  | createVMBatch members mode =>
    simp only [StoreCall.exec]
    rcases commit_map_cases t e VMError.database (t.admitMembers (admittedMembers e mode members))
      (fun t' => (t', (admittedMembers e mode members).map (·.vmID))) with
      ⟨err, hcommit, -⟩ | ⟨t', hcommit, -, hok⟩
    · rw [hcommit]
      exact .same
    · rw [hcommit]
      rcases admitMembers_row (u := v) hok with hsame | ⟨hnone, hnew, m, hm, rfl⟩
      · show RowCase v _ _ (getVM t'.vms v)
        rw [hsame]
        exact .same
      · show RowCase m.vmID _ _ (getVM t'.vms m.vmID)
        rw [hnone, hnew]
        exact .created ⟨m, mem_of_mem_admittedMembers hm, rfl⟩

/-- Neither the host nor the manager's memory holds a table. -/
lemma tables_of_host {c : HostCall} {r : c.Reply} (h : Call.exec w (.host c) e = some (w', r)) :
    w'.tables = w.tables := by
  simp only [Call.exec, Option.some.injEq] at h
  rw [show w' = (HostCall.exec w e c).1 from (congrArg Prod.fst h).symm]
  cases c <;> first | rfl | (simp only [HostCall.exec, World.stopped]; split_ifs <;> rfl)

lemma tables_of_manager {c : ManagerCall} {r : c.Reply}
    (h : Call.exec w (.manager c) e = some (w', r)) : w'.tables = w.tables := by
  simp only [Call.exec] at h
  split at h
  · cases h
  · obtain ⟨rfl, -⟩ := Prod.mk.inj (Option.some.inj h)
    rfl

theorem rowCase {c : Call} {r : c.Reply} (h : Call.exec w c e = some (w', r)) (v : Bytes) :
    RowCase v c (w.row v) (w'.row v) := by
  cases c with
  | store c =>
    simp only [Call.exec, Option.some.injEq, Prod.mk.injEq] at h
    obtain ⟨rfl, -⟩ := h
    exact rowCase_store
  | host c =>
    rw [World.row, World.row, tables_of_host h]
    exact .same
  | manager c =>
    rw [World.row, World.row, tables_of_manager h]
    exact .same

/-! ## Transitions -/

def World.moved (w : World) (inp : TransitionInput) : World :=
  { w with tables := ⟨Table.modify VM.vmID inp.vmID inp.apply w.tables.vms, w.tables.runs⟩ }

lemma World.moved_row {inp : TransitionInput} (u : Bytes) : (w.moved inp).row u =
    if u = inp.vmID then (w.row u).map inp.apply else w.row u :=
  getVM_modify (apply_vmID inp)

/-- The two outcomes of a transition. -/
inductive MoveCase (w : World) (e : Env) (inp : TransitionInput) :
    World → Except VMError VM → Prop
  | refused {err : VMError} (hunknown : err = .vmUnknown → w.row inp.vmID = none)
      (hfault : err = .database → e.fault = true) : MoveCase w e inp w (.error err)
  | moved {vm : VM} (hrow : w.row inp.vmID = some vm) (haccepted : inp.Accepted vm e.admitted) :
      MoveCase w e inp (w.moved inp) (.ok (inp.apply vm))

lemma moveCase {inp : TransitionInput} {r : Except VMError VM}
    (h : Call.exec w (.store (.transitionVM inp)) e = some (w', r)) : MoveCase w e inp w' r := by
  have hcase := transitionCase w.tables e inp
  simp only [Call.exec, Option.some.injEq, Prod.mk.injEq] at h
  obtain ⟨rfl, rfl⟩ := h
  generalize (StoreCall.transitionVM inp).exec w.tables e = result at hcase
  cases hcase with
  | refused hunknown hfault => exact .refused hunknown hfault
  | moved hrow haccepted => exact .moved hrow haccepted

end Observatory.Runtime
