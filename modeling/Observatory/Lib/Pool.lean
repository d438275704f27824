/-
# Pools of programs

Several programs run over one world. A move of the pool starts the program of a job, lets one
thread make its next call, or crashes: every thread is gone, the world keeps what it keeps over
a restart, and one job starts again. A call can be refused (it blocks: the thread waits), and a
reply can start a job of its own. The trace records every call with its thread and its reply.

A *discipline* gives each job a protocol its program follows. A property of all runs of a pool
is proved once and for all by `Discipline.run_coupled`: one assigns to every thread a state of
its protocol and says how those states and the world belong together.
-/
import Observatory.Lib.Machine
import Observatory.Lib.Prog
import Mathlib.Logic.Function.Basic

namespace Observatory.Lib

open Function List

/-- What the calls do to a world and which programs make them. -/
structure System (C : Type) (R : C → Type) (W E J : Type) where
  /-- The call's effect and reply, `e` being what the environment chooses; `none` when it waits. -/
  exec : W → (c : C) → E → Option (W × R c)
  /-- The job a call starts in the background. -/
  spawn : (c : C) → R c → Option J
  prog : J → Prog C R Unit
  /-- The jobs that can be started at any time. -/
  entry : J → Bool
  /-- The jobs that run after a crash. -/
  boot : J → Bool
  /-- What is left of the world by a crash. -/
  restart : W → W

/-- The world, the threads with the jobs they run, and the calls made so far. -/
structure Pool (C : Type) (R : C → Type) (W J : Type) where
  world : W
  threads : List (J × Prog C R Unit)
  trace : List (Nat × (c : C) × R c)

inductive Move (E J : Type) where
  | start (j : J)
  | step (i : Nat) (e : E)
  | crash (j : J)

namespace Pool

variable {C : Type} {R : C → Type} {W J : Type}

/-- A pool in which nothing runs. -/
def quiet (w : W) : Pool C R W J := ⟨w, [], []⟩

def Settled (s : Pool C R W J) : Prop := ∀ t ∈ s.threads, t.2.finished = true

instance (s : Pool C R W J) : Decidable s.Settled :=
  inferInstanceAs (Decidable (∀ t ∈ s.threads, t.2.finished = true))

/-- The job of thread `i` and the call it is about to make. -/
def next? (s : Pool C R W J) (i : Nat) : Option (J × C) :=
  s.threads[i]?.bind fun t => t.2.head?.map fun c => (t.1, c)

variable {c : C} {j : J} {i : Nat} {s : Pool C R W J} {k : R c → Prog C R Unit}

lemma next?_eq_some (h : s.threads[i]? = some (j, .call c k)) : s.next? i = some (j, c) := by
  simp [next?, h, Prog.head?]

def called (s : Pool C R W J) (i : Nat) (j : J) (c : C) (k : R c → Prog C R Unit) (w : W)
    (r : R c) : Pool C R W J :=
  ⟨w, s.threads.set i (j, k r), s.trace ++ [(i, ⟨c, r⟩)]⟩

lemma called_length {w : W} {r : R c} : (s.called i j c k w r).threads.length = s.threads.length := length_set

lemma called_thread {i' : Nat} {j' : J} {w : W} {r : R c} {p : Prog C R Unit}
    (hthread : s.threads[i]? = some (j, .call c k))
    (h : (s.called i j c k w r).threads[i']? = some (j', p)) :
    (i' ≠ i ∧ s.threads[i']? = some (j', p)) ∨ (i' = i ∧ j' = j ∧ p = k r) := by
  by_cases hi : i' = i
  · subst hi
    have hlt : i' < s.threads.length := (List.getElem?_eq_some_iff.1 hthread).1
    simp only [called, List.getElem?_set_self hlt, Option.some.injEq, Prod.mk.injEq] at h
    exact .inr ⟨rfl, h.1.symm, h.2.symm⟩
  · rw [called, List.getElem?_set_ne (Ne.symm hi)] at h
    exact .inl ⟨hi, h⟩

end Pool

namespace System

variable {C : Type} {R : C → Type} {W E J G : Type} (S : System C R W E J)

/-! ## Moves -/

def add (s : Pool C R W J) (j : J) : Pool C R W J :=
  { s with threads := s.threads ++ [(j, S.prog j)] }

/-- The pool after a crash, before anything has started again. -/
def crashed (s : Pool C R W J) : Pool C R W J :=
  { s with world := S.restart s.world, threads := s.threads.map fun t => (t.1, .ret ()) }

/-- The pool with the job a reply starts. -/
def spawned (s : Pool C R W J) (c : C) (r : R c) : Pool C R W J :=
  match S.spawn c r with
  | none => s
  | some j => S.add s j

def step (s : Pool C R W J) : Move E J → Option (Pool C R W J)
  | .start j => if S.entry j then some (S.add s j) else none
  | .crash j => if S.boot j then some (S.add (S.crashed s) j) else none
  | .step i e =>
    match s.threads[i]? with
    | some (j, .call c k) =>
      match S.exec s.world c e with
      | some (w, r) => some (S.spawned (s.called i j c k w r) c r)
      | none => none
    | _ => none

@[simp] lemma spawned_world (s : Pool C R W J) (c : C) (r : R c) :
    (S.spawned s c r).world = s.world := by
  unfold spawned
  split <;> rfl

/-- What a move can do. -/
inductive StepCase (s : Pool C R W J) : Move E J → Pool C R W J → Prop
  | start {j : J} (h : S.entry j = true) : StepCase s (.start j) (S.add s j)
  | crash {j : J} (h : S.boot j = true) : StepCase s (.crash j) (S.add (S.crashed s) j)
  | step {i : Nat} {e : E} {j : J} {c : C} {k : R c → Prog C R Unit} {w : W} {r : R c}
      (hthread : s.threads[i]? = some (j, .call c k)) (hexec : S.exec s.world c e = some (w, r)) :
      StepCase s (.step i e) (S.spawned (s.called i j c k w r) c r)

variable {S} {s s' : Pool C R W J} {a : Move E J}

lemma add_thread {j j' : J} {i : Nat} {p : Prog C R Unit}
    (h : (S.add s j).threads[i]? = some (j', p)) :
    (i ≠ s.threads.length ∧ s.threads[i]? = some (j', p)) ∨
      (i = s.threads.length ∧ j' = j ∧ p = S.prog j) := by
  rcases Nat.lt_trichotomy i s.threads.length with hlt | rfl | hgt
  · rw [add, List.getElem?_append_left hlt] at h
    exact .inl ⟨Nat.ne_of_lt hlt, h⟩
  · simp only [add, List.getElem?_concat_length, Option.some.injEq, Prod.mk.injEq] at h
    exact .inr ⟨rfl, h.1.symm, h.2.symm⟩
  · rw [add, List.getElem?_eq_none (by simp; omega)] at h
    cases h

lemma crashed_length : (S.crashed s).threads.length = s.threads.length := length_map _

lemma crashed_thread {j : J} {i : Nat} {p : Prog C R Unit}
    (h : (S.crashed s).threads[i]? = some (j, p)) :
    p = .ret () ∧ ∃ q, s.threads[i]? = some (j, q) := by
  simp only [crashed, List.getElem?_map, Option.map_eq_some_iff] at h
  obtain ⟨⟨j', q⟩, hold, heq⟩ := h
  obtain ⟨rfl, rfl⟩ := Prod.mk.inj heq
  exact ⟨rfl, q, hold⟩

lemma stepCase (h : S.step s a = some s') : S.StepCase s a s' := by
  cases a with
  | start j =>
    simp only [step, Option.ite_none_right_eq_some, Option.some.injEq] at h
    exact h.2 ▸ .start h.1
  | crash j =>
    simp only [step, Option.ite_none_right_eq_some, Option.some.injEq] at h
    exact h.2 ▸ .crash h.1
  | step i e =>
    simp only [step] at h
    split at h
    · rename_i j c k hthread
      split at h
      · rename_i w r hexec
        obtain rfl := Option.some.inj h
        exact .step hthread hexec
      · cases h
    · cases h

end System

/-! ## Disciplines -/

/-- A protocol for each job, followed by its program. -/
structure Discipline {C : Type} {R : C → Type} {W E J : Type} (S : System C R W E J)
    (G : Type) where
  protocol : J → Protocol C R G
  /-- The state a job's program starts in. -/
  init : J → G
  /-- The state of a thread that is not there. -/
  idle : G
  /-- The states in which a program may return. -/
  done : G → Prop
  /-- The jobs the discipline is about. -/
  jobs : J → Prop
  done_idle : done idle
  follows : ∀ j, jobs j → (S.prog j).wp (protocol j) (init j) fun g _ => done g

namespace Discipline

variable {C : Type} {R : C → Type} {W E J G : Type} {S : System C R W E J} (D : Discipline S G)

/-- The states `γ` belong to the threads of the pool. -/
structure Coupled (γ : Nat → G) (s : Pool C R W J) : Prop where
  jobs : ∀ {i : Nat} {j : J} {p : Prog C R Unit}, s.threads[i]? = some (j, p) → D.jobs j
  follows : ∀ {i : Nat} {j : J} {p : Prog C R Unit}, s.threads[i]? = some (j, p) →
    p.wp (D.protocol j) (γ i) fun g _ => D.done g
  idle : ∀ i, s.threads.length ≤ i → γ i = D.idle

/-- The invariant `K` is kept by every move that `p` allows, threads following the discipline. -/
structure Keeps (p : Pool C R W J → Move E J → Prop) (K : (Nat → G) → Pool C R W J → Prop) :
    Prop where
  start : ∀ {γ : Nat → G} {s : Pool C R W J} {j : J}, D.Coupled γ s → K γ s → p s (.start j) →
    S.entry j = true → D.jobs j ∧ K (update γ s.threads.length (D.init j)) (S.add s j)
  crash : ∀ {γ : Nat → G} {s : Pool C R W J} {j : J}, K γ s → p s (.crash j) → S.boot j = true →
    D.jobs j ∧ K (update (fun _ => D.idle) s.threads.length (D.init j)) (S.add (S.crashed s) j)
  step : ∀ {γ : Nat → G} {s : Pool C R W J} {i : Nat} {e : E} {j : J} {c : C}
    {k : R c → Prog C R Unit} {w : W} {r : R c}, D.Coupled γ s → K γ s → p s (.step i e) →
    s.threads[i]? = some (j, .call c k) → (D.protocol j).guarantee (γ i) c →
    S.exec s.world c e = some (w, r) →
    (D.protocol j).rely (γ i) c r ∧
      K (update γ i ((D.protocol j).next (γ i) c r)) (s.called i j c k w r) ∧
      ∀ j', S.spawn c r = some j' → D.jobs j' ∧
        K (update (update γ i ((D.protocol j).next (γ i) c r)) s.threads.length (D.init j'))
          (S.add (s.called i j c k w r) j')

variable {D} {γ : Nat → G} {s : Pool C R W J}

lemma coupled_quiet (w : W) : D.Coupled (fun _ => D.idle) (Pool.quiet w) where
  jobs h := by simp [Pool.quiet] at h
  follows h := by simp [Pool.quiet] at h
  idle _ _ := rfl

variable {j : J}

lemma Coupled.guarantee (h : D.Coupled γ s) {i : Nat} {c : C} {k : R c → Prog C R Unit}
    (hthread : s.threads[i]? = some (j, .call c k)) : (D.protocol j).guarantee (γ i) c :=
  (h.follows hthread).1

/-- In a settled pool every state is one a program may return in. -/
lemma Coupled.done (h : D.Coupled γ s) (hs : s.Settled) (i : Nat) : D.done (γ i) := by
  rcases hget : s.threads[i]? with _ | ⟨j, p⟩
  · rw [h.idle i (List.getElem?_eq_none_iff.1 hget)]
    exact D.done_idle
  · have hfollows := h.follows hget
    obtain ⟨a, rfl⟩ := Prog.finished_iff.1 (hs _ (mem_of_getElem? hget))
    exact hfollows

lemma Coupled.add (h : D.Coupled γ s) (hj : D.jobs j) :
    D.Coupled (update γ s.threads.length (D.init j)) (S.add s j) := by
  refine ⟨fun hget => ?_, fun hget => ?_, fun i hi => ?_⟩
  · rcases System.add_thread hget with ⟨-, hold⟩ | ⟨-, rfl, -⟩
    · exact h.jobs hold
    · exact hj
  · rcases System.add_thread hget with ⟨hne, hold⟩ | ⟨rfl, rfl, rfl⟩
    · rw [update_of_ne hne]
      exact h.follows hold
    · rw [update_self]
      exact D.follows _ hj
  · simp only [System.add, length_append, length_singleton] at hi
    rw [update_of_ne (by omega)]
    exact h.idle i (by omega)

lemma coupled_crashed
    (hjobs : ∀ {i : Nat} {j : J} {p : Prog C R Unit}, s.threads[i]? = some (j, p) → D.jobs j) :
    D.Coupled (fun _ => D.idle) (S.crashed s) := by
  refine ⟨fun hget => ?_, fun hget => ?_, fun _ _ => rfl⟩
  · obtain ⟨-, q, hold⟩ := System.crashed_thread hget
    exact hjobs hold
  · obtain ⟨rfl, -⟩ := System.crashed_thread hget
    exact D.done_idle

lemma Coupled.called (h : D.Coupled γ s) {i : Nat} {c : C} {k : R c → Prog C R Unit}
    (hthread : s.threads[i]? = some (j, .call c k)) {w : W} {r : R c}
    (hr : (D.protocol j).rely (γ i) c r) :
    D.Coupled (update γ i ((D.protocol j).next (γ i) c r)) (s.called i j c k w r) := by
  refine ⟨fun hget => ?_, fun hget => ?_, fun i' hi' => ?_⟩
  · rcases Pool.called_thread hthread hget with ⟨-, hold⟩ | ⟨-, rfl, -⟩
    · exact h.jobs hold
    · exact h.jobs hthread
  · rcases Pool.called_thread hthread hget with ⟨hne, hold⟩ | ⟨rfl, rfl, rfl⟩
    · rw [update_of_ne hne]
      exact h.follows hold
    · rw [update_self]
      exact (h.follows hthread).2 r hr
  · have hlt : i < s.threads.length := (List.getElem?_eq_some_iff.1 hthread).1
    simp only [Pool.called, length_set] at hi'
    rw [update_of_ne (by omega)]
    exact h.idle i' hi'

lemma Keeps.step_coupled {p : Pool C R W J → Move E J → Prop} {K : (Nat → G) → Pool C R W J → Prop}
    (hK : D.Keeps p K) {s' : Pool C R W J} {a : Move E J} (h : ∃ γ, D.Coupled γ s ∧ K γ s)
    (hp : p s a) (hstep : S.step s a = some s') : ∃ γ, D.Coupled γ s' ∧ K γ s' := by
  obtain ⟨γ, hγ, hKs⟩ := h
  cases System.stepCase hstep with
  | start hentry =>
    obtain ⟨hj, hKs'⟩ := hK.start hγ hKs hp hentry
    exact ⟨_, hγ.add hj, hKs'⟩
  | crash hboot =>
    obtain ⟨hj, hKs'⟩ := hK.crash hKs hp hboot
    have hadd := (coupled_crashed hγ.jobs).add hj
    rw [System.crashed_length] at hadd
    exact ⟨_, hadd, hKs'⟩
  | @step i e j c k w r hthread hexec =>
    obtain ⟨hr, hcalled, hspawn⟩ := hK.step hγ hKs hp hthread (hγ.guarantee hthread) hexec
    have hcoupled := hγ.called hthread (w := w) hr
    cases hjob : S.spawn c r with
    | none => exact ⟨_, by simpa [System.spawned, hjob] using hcoupled,
        by simpa [System.spawned, hjob] using hcalled⟩
    | some j' =>
      obtain ⟨hj', hadded⟩ := hspawn j' hjob
      have hadd := hcoupled.add hj'
      rw [Pool.called_length] at hadd
      exact ⟨_, by simpa [System.spawned, hjob] using hadd,
        by simpa [System.spawned, hjob] using hadded⟩

/-- **The coupling rule.**  What every allowed move keeps of the threads' states and the world
holds at the end of every run of allowed moves. -/
theorem Keeps.run_coupled {p : Pool C R W J → Move E J → Prop}
    {K : (Nat → G) → Pool C R W J → Prop} (hK : D.Keeps p K) {t : Pool C R W J}
    {as : List (Move E J)} (h : ∃ γ, D.Coupled γ s ∧ K γ s) (hp : Along S.step p s as)
    (hrun : run S.step s as = some t) : ∃ γ, D.Coupled γ t ∧ K γ t :=
  run_invariant (fun _ _ _ h hp hstep => hK.step_coupled h hp hstep) h hp hrun

end Discipline

end Observatory.Lib
