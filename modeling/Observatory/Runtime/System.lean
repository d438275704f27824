/-
# The manager as a system of programs

Every call of the interface and every piece of background work is a thread over one world. This
module puts the programs together and says once what their calls do to the registry: a store
call moves a row along an edge, creates it, releases what a failed VM holds, or leaves it alone.
-/
import Observatory.Runtime.Batch
import Observatory.Runtime.Recovery

namespace Observatory.Runtime

open Lib Store

/-! ## Jobs -/

/-- Run a program for its effects. -/
def ignore {α : Type} (p : M α) : M Unit := do
  let _ ← p
  pure ()

def Job.prog : Job → M Unit
  | createVM v run => ignore (Runtime.createVM v run)
  | launch v => Runtime.launch v
  | createBatch members mode onFailure => ignore (Runtime.createBatch members mode onFailure)
  | launchMember coord v => Runtime.launchMember coord v
  | stopSiblings coord v => Runtime.stopSiblings coord v
  | action v a rev => ignore (Runtime.action v a rev)
  | delete v force rev => ignore (Runtime.delete v force rev)
  | notifyVMMExit v b graceful => ignore (Runtime.notifyVMMExit v b graceful)
  | stopVMAfterRun v => Runtime.stopVMAfterRun v
  | retryCleanup => ignore Runtime.retryCleanup
  | reconcile cfg => ignore (Runtime.reconcile cfg)
  | createRun row => ignore (Runtime.createRun row)
  | submitRunResult r status => ignore (Runtime.submitRunResult r status)
  | concludeRun r trigger => ignore (Runtime.concludeRun r trigger)
  | concludeByOperator r verdict abort => ignore (Runtime.concludeByOperator r verdict abort)

/-- The calls of the interface. A stop wave counts as one: it starts with the failure of a member
that is not otherwise part of the run. -/
def Job.entry : Job → Bool
  | launch _ | launchMember _ _ | stopVMAfterRun _ | concludeRun _ _ | reconcile _ => false
  | _ => true

/-- What runs first after a crash. -/
def Job.boot : Job → Bool
  | reconcile _ => true
  | _ => false

/-- The background work a call starts. -/
def spawn : (c : Call) → c.Reply → Option Job
  | .manager (.goTracked job), tracked => if tracked then some job else none
  | _, _ => none

lemma goTracked_of_spawn {c : Call} {reply : c.Reply} {j : Job} (h : spawn c reply = some j) :
    c = .manager (.goTracked j) := by
  rcases c with c | c | c
  · cases h
  · cases h
  · cases c with
    | goTracked job =>
      simp only [spawn, Option.ite_none_right_eq_some, Option.some.injEq] at h
      rw [h.2]
    | _ => cases h

def lifecycle : System Call Call.Reply World Env Job where
  exec := Call.exec
  spawn := spawn
  prog := Job.prog
  entry := Job.entry
  boot := Job.boot
  restart := World.restart

abbrev ManagerPool := Pool Call Call.Reply World Job

abbrev ManagerMove := Move Env Job

/-! ## Preconditions of the building blocks -/

section wp

variable {G α : Type} {P : Protocol Call Call.Reply G} {g : G}

@[simp] lemma wp_ignore {p : M α} {Φ : G → Unit → Prop} :
    (ignore p).wp P g Φ ↔ p.wp P g fun g' _ => Φ g' () := by
  simp [ignore]

@[simp] lemma forall_launchReply {p : LaunchReply → Prop} :
    (∀ r, p r) ↔ p .ok ∧ p .pending ∧ p .failed := by
  refine ⟨fun h => ⟨h _, h _, h _⟩, fun h r => ?_⟩
  cases r with
  | ok => exact h.1
  | pending => exact h.2.1
  | failed => exact h.2.2

lemma forall_hostReply {p : HostReply → Prop} :
    (∀ r, p r) ↔ p .ok ∧ p .cleanupPending ∧ p .unavailable ∧ p .failed := by
  refine ⟨fun h => ⟨h _, h _, h _, h _⟩, fun h r => ?_⟩
  cases r with
  | ok => exact h.1
  | cleanupPending => exact h.2.1
  | unavailable => exact h.2.2.1
  | failed => exact h.2.2.2

end wp

/-! ## The calls of the hooks -/

/-- The calls the hooks make: they work on runs, and may start the stop after a run. -/
def Call.ofHook : Call → Prop
  | .store (.getRun _) | .store (.activeRunForVM _) | .store (.transitionRun _ _ _) => True
  | .manager (.goTracked (.stopVMAfterRun _)) => True
  | _ => False

lemma uses_postConclude (run : Run) : (postConclude run).Uses Call.ofHook := by
  unfold postConclude
  refine (Prog.uses_ite _ _ _).2 ⟨fun _ => ⟨trivial, fun _ => trivial⟩, fun _ => trivial⟩

lemma uses_settleRun (r : Bytes) (ph : RunPhase) : (settleRun r ph).Uses Call.ofHook := by
  refine Prog.Uses.bind ⟨trivial, fun _ => trivial⟩ fun reply => ?_
  cases reply with
  | error err =>
    exact (Prog.uses_ite _ _ _).2 ⟨fun _ => ⟨trivial, fun _ => trivial⟩, fun _ => trivial⟩
  | ok run => exact (uses_postConclude run).bind fun _ => trivial

lemma uses_concludeRun (r : Bytes) (t : ConcludeTrigger) : (concludeRun r t).Uses Call.ofHook := by
  refine ⟨trivial, fun reply => ?_⟩
  cases reply with
  | error err => exact trivial
  | ok run =>
    refine (Prog.uses_ite _ _ _).2 ⟨fun _ => trivial, fun _ => ⟨trivial, fun reply => ?_⟩⟩
    cases reply with
    | error err =>
      exact (Prog.uses_ite _ _ _).2 ⟨fun _ => ⟨trivial, fun _ => trivial⟩, fun _ => trivial⟩
    | ok _ =>
      refine ⟨trivial, fun reply => ?_⟩
      cases reply with
      | error err => exact trivial
      | ok run => exact uses_settleRun r _

lemma uses_concludeAs (r : Bytes) (ph : RunPhase) : (concludeAs r ph).Uses Call.ofHook := by
  refine ⟨trivial, fun reply => ?_⟩
  cases reply with
  | error err => exact trivial
  | ok run =>
    refine ⟨trivial, fun reply => ?_⟩
    cases reply with
    | error err =>
      exact (Prog.uses_ite _ _ _).2 ⟨fun _ => ⟨trivial, fun _ => trivial⟩, fun _ => trivial⟩
    | ok _ => exact uses_settleRun r ph

lemma uses_concludeActive (v : Bytes) (t : ConcludeTrigger) :
    (concludeActive v t).Uses Call.ofHook := by
  refine ⟨trivial, fun reply => ?_⟩
  rcases reply with err | found
  · exact trivial
  cases found with
  | none => exact trivial
  | some run =>
    exact (Prog.uses_ite _ _ _).2
      ⟨fun _ => trivial, fun _ => (uses_concludeRun run.runID t).bind fun _ => trivial⟩

lemma uses_onVMRunning (v : Bytes) : (onVMRunning v).Uses Call.ofHook := by
  refine ⟨trivial, fun reply => ?_⟩
  rcases reply with err | found
  · exact trivial
  cases found with
  | none => exact trivial
  | some run =>
    exact (Prog.uses_ite _ _ _).2 ⟨fun _ => ⟨trivial, fun _ => trivial⟩, fun _ => trivial⟩

lemma uses_concludeByOperator (r : Bytes) (verdict : Option ResultStatus) (abort : Bool) :
    (concludeByOperator r verdict abort).Uses Call.ofHook := by
  refine ⟨trivial, fun reply => ?_⟩
  cases reply with
  | error err => exact trivial
  | ok run =>
    refine (Prog.uses_ite _ _ _).2 ⟨fun _ => trivial, fun _ => ?_⟩
    refine (Prog.uses_ite _ _ _).2 ⟨fun _ => trivial, fun _ => ?_⟩
    refine (Prog.uses_ite _ _ _).2 ⟨fun _ => (uses_concludeAs r _).bind fun _ => trivial,
      fun _ => ?_⟩
    cases verdict with
    | none => exact trivial
    | some status => cases status <;> exact (uses_concludeAs r _).bind fun _ => trivial

/-! ## The loops

Rules for the programs that work through a list, for protocols under which the calls between the
bodies are always allowed. -/

section loops

variable {G : Type} {P : Protocol Call Call.Reply G} {g : G}

/-- A pass over the registry, given its body. -/
lemma wp_retryCleanup (hmgr : ∀ g c, (∀ job, c ≠ .goTracked job) → P.guarantee g (.manager c))
    (hlist : ∀ g q, P.guarantee g (.store (.listVMs q)))
    (hretry : ∀ v g, (retryVM v).wp P g fun _ _ => True) :
    retryCleanup.wp P g fun _ _ => True := by
  have hretry' : ∀ v g (Φ : G → Except ManagerError Unit → Prop), (∀ g a, Φ g a) →
      (retryVM v).wp P g Φ := fun v g Φ h => Prog.wp_of_forall (hretry v g) h
  have hover : ∀ result g (Φ : G → Bool → Prop), (∀ g a, Φ g a) → (passOver result).wp P g Φ := by
    intro result g Φ h
    cases result <;> simp [passOver, hmgr, h]
  have hrows : ∀ rows g (Φ : G → Bool → Prop), (∀ g a, Φ g a) → (retryRows rows).wp P g Φ := by
    intro rows
    induction rows with
    | nil => simp +contextual [retryRows]
    | cons row rows ih =>
      intro g Φ h
      simp [retryRows, hmgr, hretry', hover, ih, h]
  simp [retryCleanup, retryPass, hmgr, hlist, hrows]

/-- The two loops of a startup, given their bodies. -/
lemma wp_reconcile {cfg : Startup} (hops : ∀ g, P.guarantee g (.store .failOperations))
    (hlist : ∀ g q, P.guarantee g (.store (.listVMs q)))
    (hruns : ∀ g phases, P.guarantee g (.store (.listRunsInPhases phases)))
    (hvm : ∀ vm g, (reconcileVM cfg vm).wp P g fun _ _ => True)
    (hrun : ∀ run g, (reconcileRun run).wp P g fun _ _ => True) :
    (reconcile cfg).wp P g fun _ _ => True := by
  have hbodies : ∀ g, reconcileRuns.wp P g fun _ _ => True := by
    intro g
    have hloop : ∀ runs g, (Prog.forEach reconcileRun runs).wp P g fun _ _ => True :=
      fun runs g => Prog.wp_forEach_of_forall hrun fun _ => trivial
    simp [reconcileRuns, hruns, hloop]
  have hloop : ∀ rows g, (Prog.forEach (fun row : Nat × VM => reconcileVM cfg row.2) rows).wp P g
      fun g' _ => reconcileRuns.wp P g' fun _ _ => True :=
    fun rows g => Prog.wp_forEach_of_forall (fun row => hvm row.2) hbodies
  simp [reconcile, hops, hlist, hloop]

lemma wp_createBatch {members : List BatchMember} {mode : ReservationMode} {onFailure : OnFailure}
    (havail : ∀ g, P.guarantee g (.host .availability))
    (hcreate : ∀ g, P.guarantee g (.store (.createVMBatch members mode)))
    (hid : ∀ g, P.guarantee g (.manager .newID))
    (hmember : ∀ coord v g, (enqueue v (.launchMember coord v)).wp P g fun _ _ => True) :
    (createBatch members mode onFailure).wp P g fun _ _ => True := by
  have hloop : ∀ coord vs g, (Prog.forEach (fun v => enqueue v (.launchMember coord v)) vs).wp P g
      fun _ _ => True :=
    fun coord vs g => Prog.wp_forEach_of_forall (hmember coord) fun _ => trivial
  simp [createBatch, havail, hcreate, hid, hloop]

end loops

end Observatory.Runtime
