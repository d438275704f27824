/-
# Programs run one after another, with crashes

Programs run on a world one at a time. The environment answers their calls; where the answers
run out, the program has crashed, and what is left of the world is what survives a restart.

`Safe` is a Hoare logic for such programs: the invariant holds before every call, so that it
holds wherever the crash falls, and the postcondition holds when the program returns.
-/
import Observatory.Lib.Machine
import Observatory.Lib.Prog

namespace Observatory.Lib

/-- What calls do to a world, `E c` being what the environment chooses for the call `c`. -/
abbrev Exec (C : Type) (R E : C → Type) (W : Type) := W → (c : C) → E c → W × R c

/-- One answer to whatever call comes next. -/
abbrev Answer {C : Type} (E : C → Type) := (c : C) → E c

/-- How a run of a program ended: the world it left, its result unless it crashed, and the calls
it made with their replies. -/
structure Outcome (C : Type) (R : C → Type) (W α : Type) where
  world : W
  result : Option α
  trace : List ((c : C) × R c)

namespace Prog

variable {C : Type} {R E : C → Type} {W G α β : Type} (exec : Exec C R E W)

def runOn : Prog C R α → List (Answer E) → W → Outcome C R W α
  | ret a, _, w => ⟨w, some a, []⟩
  | call _ _, [], w => ⟨w, none, []⟩
  | call c k, e :: es, w =>
    let rest := (k (exec w c (e c)).2).runOn es (exec w c (e c)).1
    { rest with trace := ⟨c, (exec w c (e c)).2⟩ :: rest.trace }

/-- Every answer that is used is one of those allowed. -/
def Meets (ok : (c : C) → E c → Prop) : Prog C R α → List (Answer E) → W → Prop
  | ret _, _, _ => True
  | call _ _, [], _ => True
  | call c k, e :: es, w =>
    ok c (e c) ∧ (k (exec w c (e c)).2).Meets ok es (exec w c (e c)).1

variable {es : List (Answer E)} {p : Prog C R α}

/-- Answers that are allowed for every call are. -/
lemma meets_of_forall {ok : (c : C) → E c → Prop} {w : W} (h : ∀ e ∈ es, ∀ c, ok c (e c)) :
    p.Meets exec ok es w := by
  induction p generalizing es w with
  | ret a => trivial
  | call c k ih =>
    cases es with
    | nil => trivial
    | cons e es =>
      exact ⟨h e List.mem_cons_self c, ih _ fun e' he' => h e' (List.mem_cons_of_mem e he')⟩

/-- `I` holds before every call and at the end, and `Φ` of the end, as long as the answers are
allowed ones. -/
def Safe (ok : (c : C) → E c → Prop) (I : W → Prop) :
    Prog C R α → W → (W → α → Prop) → Prop
  | ret a, w, Φ => I w ∧ Φ w a
  | call c k, w, Φ =>
    I w ∧ ∀ e, ok c e → (k (exec w c e).2).Safe ok I (exec w c e).1 Φ

variable {exec} {ok : (c : C) → E c → Prop} {I : W → Prop} {w : W}

lemma Safe.mono {Φ Ψ : W → α → Prop} (h : p.Safe exec ok I w Φ) (hΦ : ∀ w a, I w → Φ w a → Ψ w a) :
    p.Safe exec ok I w Ψ := by
  induction p generalizing w with
  | ret a => exact ⟨h.1, hΦ w a h.1 h.2⟩
  | call c k ih => exact ⟨h.1, fun e he => ih _ (h.2 e he)⟩

lemma Safe.bind {Φ : W → β → Prop} {f : α → Prog C R β}
    (h : p.Safe exec ok I w fun w' a => (f a).Safe exec ok I w' Φ) :
    (p >>= f).Safe exec ok I w Φ := by
  induction p generalizing w with
  | ret a => exact h.2
  | call c k ih => exact ⟨h.1, fun e he => ih _ (h.2 e he)⟩

/-- A program that uses only calls that keep a stronger invariant. -/
lemma safe_of_uses {S : C → Prop} {J : W → Prop} (hp : p.Uses S) (hJI : ∀ w, J w → I w)
    (hS : ∀ w c e, S c → J w → ok c e → J (exec w c e).1) (hw : J w) :
    p.Safe exec ok I w fun w' _ => J w' := by
  induction p generalizing w with
  | ret a => exact ⟨hJI w hw, hw⟩
  | call c k ih => exact ⟨hJI w hw, fun e he => ih _ (hp.2 _) (hS w c e hp.1 hw he)⟩

/-- Wherever the program stops, the invariant holds. -/
lemma Safe.runOn {Φ : W → α → Prop} (h : p.Safe exec ok I w Φ) (hok : p.Meets exec ok es w) :
    I (p.runOn exec es w).world := by
  induction p generalizing es w with
  | ret a => exact h.1
  | call c k ih =>
    cases es with
    | nil => exact h.1
    | cons e es => exact ih _ (h.2 _ hok.1) hok.2

end Prog

/-! ## Sequences of programs -/

section Episodes

variable {C : Type} {R E : C → Type} {W J : Type}

/-- A program that is run, and the answers it gets. -/
structure Episode (E : C → Type) (J : Type) where
  job : J
  answers : List (Answer E)

/-- The world after a program returned, or crashed. -/
def episode (exec : Exec C R E W) (prog : J → Prog C R Unit) (restart : W → W) (w : W)
    (ep : Episode E J) : Option W :=
  let out := (prog ep.job).runOn exec ep.answers w
  some (if out.result.isSome then out.world else restart out.world)

def EpisodeMeets (exec : Exec C R E W) (prog : J → Prog C R Unit) (ok : (c : C) → E c → Prop)
    (w : W) (ep : Episode E J) : Prop :=
  (prog ep.job).Meets exec ok ep.answers w

/-- An invariant that every program is safe for, and that a restart keeps, holds after any
sequence of programs. -/
theorem episodes_invariant {exec : Exec C R E W} {prog : J → Prog C R Unit} {restart : W → W}
    {ok : (c : C) → E c → Prop} {I : W → Prop}
    (hsafe : ∀ j w, I w → (prog j).Safe exec ok I w fun _ _ => True)
    (hrestart : ∀ w, I w → I (restart w)) {w w' : W} {eps : List (Episode E J)} (hw : I w)
    (hmeets : Along (episode exec prog restart) (EpisodeMeets exec prog ok) w eps)
    (hrun : run (episode exec prog restart) w eps = some w') : I w' := by
  refine run_invariant (fun w ep w' hI hok hstep => ?_) hw hmeets hrun
  obtain rfl := Option.some.inj hstep
  have hend := (hsafe ep.job w hI).runOn hok
  split
  · exact hend
  · exact hrestart _ hend

end Episodes

end Observatory.Lib
