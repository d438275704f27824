/-
# Programs of atomic calls

A program makes calls, each answered by a reply of the call's own type, and goes on with what
it got. Nothing is said here about what a call does: a world answers the calls, and the calls
of several programs interleave (`Lib/Pool.lean`).

What a program may do is described by a *protocol*, an automaton over calls and replies whose
states record what the program has learnt so far. `Prog.wp` is the weakest precondition of a
program for a protocol: every call it makes is one the protocol guarantees, as long as every
reply is one the protocol relies on, and the postcondition holds of the last state.
-/
import Mathlib.Data.List.Basic
import Mathlib.Tactic.Common

namespace Observatory.Lib

/-- A program over calls `c : C` with replies in `R c`, returning an `α`. -/
inductive Prog (C : Type) (R : C → Type) (α : Type) : Type where
  | ret (a : α)
  | call (c : C) (k : R c → Prog C R α)

/-- An automaton over calls and replies: the calls it guarantees, the replies it relies on, and
the state after both. -/
structure Protocol (C : Type) (R : C → Type) (G : Type) where
  guarantee : G → C → Prop
  rely : G → (c : C) → R c → Prop
  next : G → (c : C) → R c → G

/-- The protocol that asks for nothing. -/
def Protocol.free {C : Type} {R : C → Type} {G : Type} : Protocol C R G where
  guarantee _ _ := True
  rely _ _ _ := True
  next g _ _ := g

@[simps guarantee rely] def Protocol.only {C : Type} {R : C → Type} (S : C → Prop) : Protocol C R Unit where
  guarantee _ c := S c
  rely _ _ _ := True
  next g _ _ := g

namespace Prog

variable {C : Type} {R : C → Type} {α β ι G : Type}

/-! ## Building programs -/

protected def bind : Prog C R α → (α → Prog C R β) → Prog C R β
  | ret a, f => f a
  | call c k, f => call c fun r => (k r).bind f

instance : Monad (Prog C R) where
  pure := ret
  bind := Prog.bind

/-- One call, and what is read off its reply. -/
def perform (c : C) (f : R c → α) : Prog C R α := call c fun r => ret (f r)

/-- The call a program is about to make. -/
def head? : Prog C R α → Option C
  | ret _ => none
  | call c _ => some c

def finished (p : Prog C R α) : Bool := p.head?.isNone

/-- Run a program for each element of a list. -/
def forEach (f : ι → Prog C R Unit) : List ι → Prog C R Unit
  | [] => pure ()
  | x :: xs => do
    f x
    forEach f xs

variable {c : C} {p : Prog C R α}

lemma finished_iff : p.finished = true ↔ ∃ a, p = ret a := by
  cases p with
  | ret a => exact ⟨fun _ => ⟨a, rfl⟩, fun _ => rfl⟩
  | call c k => simp [finished, head?]

/-! ## The calls a program uses -/

/-- Every call the program can make satisfies `S`. -/
def Uses (S : C → Prop) : Prog C R α → Prop
  | ret _ => True
  | call c k => S c ∧ ∀ r, (k r).Uses S

variable {S : C → Prop}

@[simp] lemma uses_ret (a : α) : (ret a : Prog C R α).Uses S := trivial

@[simp] lemma uses_pure (a : α) : (pure a : Prog C R α).Uses S := trivial

@[simp] lemma uses_perform (c : C) (f : R c → α) : (perform c f).Uses S ↔ S c := by
  simp [perform, Uses]

@[simp] lemma uses_ite (b : Prop) [Decidable b] (p q : Prog C R α) :
    (if b then p else q).Uses S ↔ (b → p.Uses S) ∧ (¬ b → q.Uses S) := by
  by_cases h : b <;> simp [h]

lemma Uses.bind {f : α → Prog C R β} (hp : p.Uses S) (hf : ∀ a, (f a).Uses S) :
    (p >>= f).Uses S := by
  induction p with
  | ret a => exact hf a
  | call c k ih => exact ⟨hp.1, fun r => ih r (hp.2 r)⟩

lemma Uses.mono {T : C → Prop} (hp : p.Uses S) (h : ∀ c, S c → T c) :
    p.Uses T := by
  induction p with
  | ret a => trivial
  | call c k ih => exact ⟨h c hp.1, fun r => ih r (hp.2 r)⟩

lemma uses_true (p : Prog C R α) : p.Uses fun _ => True := by
  induction p with
  | ret a => trivial
  | call c k ih => exact ⟨trivial, ih⟩

/-! ## Weakest preconditions -/

/-- Every call is guaranteed while every reply is relied on, and `Φ` holds at the end. -/
def wp (P : Protocol C R G) : Prog C R α → G → (G → α → Prop) → Prop
  | ret a, g, Φ => Φ g a
  | call c k, g, Φ => P.guarantee g c ∧ ∀ r, P.rely g c r → (k r).wp P (P.next g c r) Φ

variable {P : Protocol C R G} {g : G} {Φ Ψ : G → α → Prop}

@[simp] lemma wp_ret (a : α) : (ret a : Prog C R α).wp P g Φ ↔ Φ g a := Iff.rfl

@[simp] lemma wp_pure (a : α) : (pure a : Prog C R α).wp P g Φ ↔ Φ g a := Iff.rfl

@[simp] lemma wp_perform {f : R c → α} : (perform c f).wp P g Φ ↔
    P.guarantee g c ∧ ∀ r, P.rely g c r → Φ (P.next g c r) (f r) := Iff.rfl

@[simp] lemma wp_bind {f : α → Prog C R β} {Φ : G → β → Prop} :
    (p >>= f).wp P g Φ ↔ p.wp P g fun g' a => (f a).wp P g' Φ := by
  induction p generalizing g with
  | ret a => exact Iff.rfl
  | call c k ih =>
    show (_ ∧ _) ↔ (_ ∧ _)
    exact and_congr_right fun _ => forall_congr' fun r => imp_congr_right fun _ => ih r

@[simp] lemma wp_ite (b : Prop) [Decidable b] (p q : Prog C R α) :
    (if b then p else q).wp P g Φ ↔ (b → p.wp P g Φ) ∧ (¬ b → q.wp P g Φ) := by
  by_cases h : b <;> simp [h]

lemma wp_mono (h : ∀ g a, Φ g a → Ψ g a) (hp : p.wp P g Φ) : p.wp P g Ψ := by
  induction p generalizing g with
  | ret a => exact h g a hp
  | call c k ih => exact ⟨hp.1, fun r hr => ih r (hp.2 r hr)⟩

lemma wp_and (h : p.wp P g Φ) (h' : p.wp P g Ψ) :
    p.wp P g fun g' a => Φ g' a ∧ Ψ g' a := by
  induction p generalizing g with
  | ret a => exact ⟨h, h'⟩
  | call c k ih => exact ⟨h.1, fun r hr => ih r (h.2 r hr) (h'.2 r hr)⟩

/-- What holds of every state and result holds at the end. -/
lemma wp_of_forall (hp : p.wp P g fun _ _ => True) (h : ∀ g a, Φ g a) :
    p.wp P g Φ := wp_mono (fun g a _ => h g a) hp

/-- A program that uses only calls the protocol does not notice. -/
lemma wp_of_uses (hp : p.Uses S) (hS : ∀ c, S c → P.guarantee g c ∧ ∀ r, P.next g c r = g)
    (h : ∀ a, Φ g a) : p.wp P g Φ := by
  induction p with
  | ret a => exact h a
  | call c k ih =>
    refine ⟨(hS c hp.1).1, fun r _ => ?_⟩
    rw [(hS c hp.1).2 r]
    exact ih r (hp.2 r)

/-- The calls of a program by its preconditions, which go through sequencing. -/
lemma uses_iff_wp :
    p.Uses S ↔ p.wp (Protocol.only S) () fun _ _ => True := by
  induction p with
  | ret a => exact Iff.rfl
  | call c k ih =>
    exact and_congr_right fun _ => forall_congr' fun r => (ih r).trans (true_imp_iff).symm

/-- What every call a program uses keeps holds at its end. -/
lemma wp_invariant {I : G → Prop} (hp : p.Uses S)
    (hS : ∀ g c, S c → I g → P.guarantee g c ∧ ∀ r, P.rely g c r → I (P.next g c r)) (hg : I g) :
    p.wp P g fun g' _ => I g' := by
  induction p generalizing g with
  | ret a => exact hg
  | call c k ih =>
    obtain ⟨hguarantee, hnext⟩ := hS g c hp.1 hg
    exact ⟨hguarantee, fun r hr => ih r (hp.2 r) (hnext r hr)⟩

/-- The protocol that asks for nothing is followed by every program, and learns nothing. -/
lemma wp_free (h : ∀ a, Φ g a) : p.wp Protocol.free g Φ :=
  wp_of_uses p.uses_true (fun _ _ => ⟨trivial, fun _ => rfl⟩) h

/-- A protocol that guarantees every call is followed by every program. -/
lemma wp_of_guarantee (h : ∀ g c, P.guarantee g c) (p : Prog C R α) :
    p.wp P g fun _ _ => True := by
  induction p generalizing g with
  | ret a => trivial
  | call c k ih => exact ⟨h g c, fun r _ => ih r⟩

/-- A reply that may be an error is treated case by case. -/
@[simp] lemma forall_except {ε : Type} {p : Except ε α → Prop} :
    (∀ r, p r) ↔ (∀ err, p (.error err)) ∧ ∀ a, p (.ok a) := by
  refine ⟨fun h => ⟨fun err => h _, fun a => h _⟩, fun h r => ?_⟩
  cases r with
  | error err => exact h.1 err
  | ok a => exact h.2 a

/-- The rule of the loop: the body keeps the invariant. -/
lemma wp_forEach {f : ι → Prog C R Unit} {I : G → Prop} {xs : List ι}
    (hf : ∀ x ∈ xs, ∀ g, I g → (f x).wp P g fun g' _ => I g') (hg : I g) :
    (forEach f xs).wp P g fun g' _ => I g' := by
  induction xs generalizing g with
  | nil => exact hg
  | cons x xs ih =>
    refine wp_bind.2 (wp_mono ?_ (hf x List.mem_cons_self g hg))
    intro g' _ hg'
    exact ih (fun y hy => hf y (List.mem_cons_of_mem x hy)) hg'

/-- A loop whose body can be run in any state. -/
lemma wp_forEach_of_forall {f : ι → Prog C R Unit} {xs : List ι} {Φ : G → Unit → Prop}
    (hf : ∀ x g, (f x).wp P g fun _ _ => True) (h : ∀ g, Φ g ()) : (forEach f xs).wp P g Φ :=
  wp_mono (fun g _ _ => h g) (wp_forEach (I := fun _ => True) (fun x _ g _ => hf x g) trivial)

end Prog

end Observatory.Lib
