/-
# Runs of a labelled state machine

A machine is a partial step function on states, one result for each action it allows.
Runs are lists of actions, so a concrete run can be evaluated and a property of every run
is proved once, by `run_invariant`: what one step preserves is preserved along the run.

`Along p` says that every step of a run is taken in a state and with an action that `p`
allows. It is how a claim about the runs of a restricted environment is stated.
-/
import Mathlib.Data.List.Basic
import Mathlib.Tactic.Common

namespace Observatory.Lib

variable {σ α : Type*}

/-- Run the actions of a list one after the other; `none` when one of them is refused. -/
def run (step : σ → α → Option σ) : σ → List α → Option σ
  | s, [] => some s
  | s, a :: as => (step s a).bind fun s' => run step s' as

/-- Every step of the run is allowed by `p`, a condition on the state before the step and
on the action. -/
def Along (step : σ → α → Option σ) (p : σ → α → Prop) : σ → List α → Prop
  | _, [] => True
  | s, a :: as => p s a ∧ ∀ s', step s a = some s' → Along step p s' as

variable {step : σ → α → Option σ} {p : σ → α → Prop}

instance decidableAlong [∀ s a, Decidable (p s a)] :
    ∀ (s : σ) (as : List α), Decidable (Along step p s as)
  | _, [] => isTrue trivial
  | s, a :: as =>
    haveI : Decidable (∀ s', s' ∈ step s a → Along step p s' as) :=
      @Option.decidableForallMem _ _ (fun s' => decidableAlong s' as) (step s a)
    inferInstanceAs (Decidable (p s a ∧ ∀ s', s' ∈ step s a → Along step p s' as))

/-- What a partial computation yields is decided by running it. -/
instance decidableExistsSome (o : Option σ) (q : σ → Prop) [DecidablePred q] :
    Decidable (∃ s, o = some s ∧ q s) :=
  inferInstanceAs (Decidable (∃ s ∈ o, q s))

/-- A partial computation that goes through, with what it comes to. -/
lemma yields {o : Option σ} (h : o.isSome = true) : o = some (o.get h) := (Option.some_get h).symm

@[simp] lemma run_nil (s : σ) : run step s [] = some s := rfl

lemma run_cons_eq_some {s t : σ} {a : α} {as : List α} :
    run step s (a :: as) = some t ↔ ∃ s', step s a = some s' ∧ run step s' as = some t := by
  simp [run, Option.bind_eq_some_iff]

lemma run_append {s : σ} (as bs : List α) :
    run step s (as ++ bs) = (run step s as).bind fun t => run step t bs := by
  induction as generalizing s with
  | nil => rfl
  | cons a as ih =>
    simp only [List.cons_append, run]
    cases step s a with
    | none => rfl
    | some s' => exact ih

lemma run_append_eq_some {s t : σ} {as bs : List α} :
    run step s (as ++ bs) = some t ↔ ∃ s', run step s as = some s' ∧ run step s' bs = some t := by
  rw [run_append, Option.bind_eq_some_iff]

@[simp] lemma along_nil (s : σ) : Along step p s [] := trivial

/-- A condition that holds of every action in every state holds along every run. -/
lemma along_of_forall (h : ∀ s a, p s a) (s : σ) (as : List α) : Along step p s as := by
  induction as generalizing s with
  | nil => trivial
  | cons a as ih => exact ⟨h s a, fun s' _ => ih s'⟩

/-- So does one that holds of each of its actions. -/
lemma along_of_forall_mem {as : List α} (h : ∀ a ∈ as, ∀ s, p s a) (s : σ) :
    Along step p s as := by
  induction as generalizing s with
  | nil => trivial
  | cons a as ih =>
    have hrest : ∀ b ∈ as, ∀ s, p s b := fun b hb => h b (List.mem_cons_of_mem a hb)
    exact ⟨h a List.mem_cons_self s, fun s' _ => ih hrest s'⟩

/-- **The invariant rule.**  What every allowed step preserves holds at the end of every
run of allowed steps. -/
theorem run_invariant {I : σ → Prop} (hstep : ∀ s a s', I s → p s a → step s a = some s' → I s')
    {s t : σ} {as : List α} (hI : I s) (hp : Along step p s as) (hrun : run step s as = some t) :
    I t := by
  induction as generalizing s with
  | nil =>
    simp only [run_nil, Option.some.injEq] at hrun
    exact hrun ▸ hI
  | cons a as ih =>
    obtain ⟨s', hs', hrest⟩ := run_cons_eq_some.1 hrun
    exact ih (hstep s a s' hI hp.1 hs') (hp.2 s' hs') hrest

/-- The machine that refuses the steps `p` does not allow: one evaluation of it shows where a concrete
run ends and that its steps are allowed. -/
def guarded (step : σ → α → Option σ) (p : σ → α → Prop) [∀ s a, Decidable (p s a)] (s : σ) (a : α) :
    Option σ :=
  if p s a then step s a else none

lemma of_run_guarded [∀ s a, Decidable (p s a)] {s t : σ} {as : List α}
    (hrun : run (guarded step p) s as = some t) : run step s as = some t ∧ Along step p s as := by
  induction as generalizing s with
  | nil => exact ⟨hrun, trivial⟩
  | cons a as ih =>
    obtain ⟨s', hs', hrest⟩ := run_cons_eq_some.1 hrun
    obtain ⟨hp, hs'⟩ := Option.ite_none_right_eq_some.1 hs'
    refine ⟨run_cons_eq_some.2 ⟨s', hs', (ih hrest).1⟩, hp, fun u hu => ?_⟩
    cases hs'.symm.trans hu
    exact (ih hrest).2

/-- What every step preserves holds at the end of every run. -/
theorem run_preserves {I : σ → Prop} (hstep : ∀ s a s', I s → step s a = some s' → I s')
    {s t : σ} {as : List α} (hI : I s) (hrun : run step s as = some t) : I t :=
  run_invariant (p := fun _ _ => True) (fun s a s' h _ => hstep s a s' h) hI
    (along_of_forall (fun _ _ => trivial) s as) hrun

/-- A relation between states that every step respects relates the two ends of a run. -/
theorem run_monotone {I : σ → Prop} {R : σ → σ → Prop} (hrefl : ∀ s, R s s)
    (htrans : ∀ s t u, R s t → R t u → R s u)
    (hinv : ∀ s a s', I s → p s a → step s a = some s' → I s')
    (hstep : ∀ s a s', I s → p s a → step s a = some s' → R s s')
    {s t : σ} {as : List α} (hI : I s) (hp : Along step p s as) (hrun : run step s as = some t) :
    R s t := by
  induction as generalizing s with
  | nil =>
    simp only [run_nil, Option.some.injEq] at hrun
    exact hrun ▸ hrefl s
  | cons a as ih =>
    obtain ⟨s', hs', hrest⟩ := run_cons_eq_some.1 hrun
    exact htrans s s' t (hstep s a s' hI hp.1 hs')
      (ih (hinv s a s' hI hp.1 hs') (hp.2 s' hs') hrest)

end Observatory.Lib
