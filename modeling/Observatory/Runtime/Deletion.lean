/-
# Deletion is proven

A row reaches `deleted` on three paths: the delete itself, a cleanup retry, and the reconcile
after a crash. Each of them asks the host to release the VM first. The first two go on only
when the host answers nil; the third also takes the answer of a runtime that is not there, so
it is only as good as the host is at startup.
-/
import Observatory.Runtime.Capacity

namespace Observatory.Runtime

open Lib Store Function

/-- The host does not answer a release of the startup reconcile with `UnavailableError`. -/
def availableAtStartup (s : ManagerPool) : ManagerMove → Bool
  | .step i e =>
    match s.next? i with
    | some (.reconcile _, .host (.release _)) => e.host ≠ .unavailable
    | _ => true
  | _ => true

abbrev AvailableAtStartup (s : ManagerPool) (a : ManagerMove) : Prop := availableAtStartup s a = true

def releaseNil (v : Bytes) : (c : Call) × c.Reply → Bool
  | ⟨.host (.release u), reply⟩ => u = v && reply = HostReply.ok
  | _ => false

/-- What every run keeps: a thread relies on a release only if its own call was answered. -/
def Deletion.Inv (γ : Nat → Option Bytes) (s : ManagerPool) : Prop :=
  ∀ i v, γ i = some v → (i, ⟨Call.host (.release v), HostReply.ok⟩) ∈ s.trace

namespace Deletion

open Capacity (discipline)

variable {γ : Nat → Option Bytes} {s : ManagerPool}

lemma Inv.add (h : Inv γ s) (n : Nat) (j : Job) : Inv (update γ n none) (lifecycle.add s j) := by
  intro i v hi
  by_cases hin : i = n
  · rw [hin, update_self] at hi
    cases hi
  · rw [update_of_ne hin] at hi
    exact h i v hi

lemma Inv.called {strict startup : Bool} (h : Inv γ s) {i : Nat} {j : Job} {c : Call}
    {k : c.Reply → M Unit} {w : World} {r : c.Reply} :
    Inv (update γ i ((capacity strict startup).next (γ i) c r)) (s.called i j c k w r) := by
  intro i' v hi'
  by_cases hii : i' = i
  · subst hii
    rw [update_self] at hi'
    rcases Capacity.next_cases hi' with hold | hnew
    · exact List.mem_append_left _ (h i' v hold)
    · exact List.mem_append_right _ (List.mem_singleton.2 (by rw [hnew]))
  · rw [update_of_ne hii] at hi'
    exact List.mem_append_left _ (h i' v hi')

/-- The host answers as the strict discipline relies on it to. -/
lemma rely_of_available {i : Nat} {e : Env} {j : Job} {c : Call} {k : c.Reply → M Unit} {w : World}
    {r : c.Reply} (havail : AvailableAtStartup s (.step i e))
    (hthread : s.threads[i]? = some (j, .call c k)) (hexec : Call.exec s.world c e = some (w, r)) :
    (capacity true j.boot).rely (γ i) c r := by
  rcases c with c | c | c
  · trivial
  · cases c with
    | release v =>
      intro _ hboot
      cases j with
      | reconcile cfg =>
        simp only [AvailableAtStartup, availableAtStartup, Pool.next?_eq_some hthread,
          decide_eq_true_eq] at havail
        simp only [Call.exec, HostCall.exec, Option.some.injEq, Prod.mk.injEq] at hexec
        rwa [← hexec.2]
      | _ => cases hboot
    | _ => trivial
  · trivial

lemma keeps : (discipline true).Keeps AvailableAtStartup Inv where
  start _ hinv _ _ := ⟨trivial, hinv.add _ _⟩
  crash hinv _ _ := ⟨trivial, Inv.add (s := lifecycle.crashed _) (fun _ _ h => by cases h) _ _⟩
  step _ hinv hp hthread _ hexec :=
    ⟨rely_of_available hp hthread hexec, hinv.called, fun _ _ => ⟨trivial, hinv.called.add _ _⟩⟩

end Deletion

/-- **Deletion is proven.**  Whatever the store held at the beginning and whatever errors the host
answers with, as long as its releases at startup are not answered with `UnavailableError`: a row
reaches `deleted` only by a call of a thread to which the host has answered the release of that
VM with nil. -/
theorem deleted_only_after_release {w : World} {as : List ManagerMove} {a : ManagerMove}
    {s s' : ManagerPool} (hrun : run lifecycle.step (Pool.quiet w) as = some s)
    (hstep : lifecycle.step s a = some s')
    (havail : Along lifecycle.step AvailableAtStartup (Pool.quiet w) as) {v : Bytes} {vm : VM}
    (hbefore : ∀ vm, s.world.row v = some vm → vm.observedState ≠ .deleted)
    (hafter : s'.world.row v = some vm) (hdeleted : vm.observedState = .deleted) :
    ∃ i e, a = .step i e ∧ (i, ⟨Call.host (.release v), HostReply.ok⟩) ∈ s.trace := by
  have hinit : Deletion.Inv (fun _ => none) (Pool.quiet w) := nofun
  obtain ⟨γ, hcoupled, hinv⟩ := Deletion.keeps.run_coupled
    ⟨_, Discipline.coupled_quiet w, hinit⟩ havail hrun
  cases System.stepCase hstep with
  | start | crash => exact absurd hdeleted (hbefore vm hafter)
  | @step i e j c k w' r hthread hexec =>
    refine ⟨i, e, rfl, hinv i v ?_⟩
    have hguarantee := hcoupled.guarantee hthread
    rw [System.spawned_world] at hafter
    have hcase := rowCase hexec v
    rw [show w'.row v = some vm from hafter] at hcase
    generalize hold : s.world.row v = old at hcase
    cases hcase with
    | same => exact absurd hdeleted (hbefore vm hold)
    | marked | released => exact (hbefore _ hold hdeleted).elim
    | created => cases hdeleted
    | moved hv haccepted =>
      subst hv
      exact hguarantee.2 rfl hdeleted

/-- A VM that is created, launched and deleted by force, up to its row's transition to `deleting`;
then the manager restarts. The host answers the calls of the reconcile with `reply`. -/
def deleteOverRestart (v : Bytes) (reply : HostReply) : List ManagerMove :=
  (Move.start (.createVM v none) :: calls 0 4) ++ calls 1 7 ++
    (.start (.delete v true none) :: calls 2 8) ++
    (.crash (.reconcile ⟨[], []⟩) :: calls 3 2) ++ [.step 3 { host := reply }, .step 3 { host := reply }]

/-- The reconcile takes an absent runtime's answer for a release. -/
theorem deleted_without_release :
    ∃ as s, run lifecycle.step (Pool.quiet World.new) as = some s ∧
      (∃ vm, s.world.row [1] = some vm ∧ vm.observedState = .deleted) ∧
      ¬ ReleaseReturned s [1] := by
  obtain ⟨s, hs, hdeleted, htrace⟩ : ∃ s, run lifecycle.step (Pool.quiet World.new)
      (deleteOverRestart [1] .unavailable ++ calls 3 1) = some s ∧
      (∃ vm, s.world.row [1] = some vm ∧ vm.observedState = .deleted) ∧
      ∀ x ∈ s.trace, releaseNil [1] x.2 = false := by
    decide +kernel
  refine ⟨_, s, hs, hdeleted, ?_⟩
  rintro ⟨i, hi⟩
  have hnone := htrace _ hi
  simp [releaseNil] at hnone

theorem deleted_only_after_release_restart :
    ∃ s s' : ManagerPool,
      run lifecycle.step (Pool.quiet World.new) (deleteOverRestart [1] .ok) = some s ∧
      lifecycle.step s (.step 3 {}) = some s' ∧
      ∃ i e, Move.step 3 ({} : Env) = (.step i e : ManagerMove) ∧
        (i, ⟨Call.host (.release [1]), HostReply.ok⟩) ∈ s.trace := by
  obtain ⟨s, hs, hbefore, s', hs', vm, hvm, hdel⟩ : ∃ s,
      run lifecycle.step (Pool.quiet World.new) (deleteOverRestart [1] .ok) = some s ∧
      (s.world.row [1]).map VM.observedState = some .deleting ∧
      ∃ s', lifecycle.step s (.step 3 {}) = some s' ∧
        ∃ vm, s'.world.row [1] = some vm ∧ vm.observedState = .deleted := by
    decide +kernel
  refine ⟨s, s', hs, hs',
    deleted_only_after_release hs hs' (by decide +kernel) (fun vm hrow hbad => ?_) hvm hdel⟩
  rw [hrow, Option.map_some, hbad] at hbefore
  cases hbefore

end Observatory.Runtime
