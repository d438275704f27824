/-
# The runs table

A run moves through the phases of its own state machine: it starts pending or running, is
concluding while its outcome is decided, and ends in one of four terminal phases. The table
holds at most one run per VM that has not ended.
-/
import Observatory.Lib.Bytes
import Observatory.Lib.Table

namespace Observatory.Store

open Lib

/-! ## Phases -/

inductive RunPhase where
  | pending | running | concluding | succeeded | failed | inconclusive | aborted
deriving DecidableEq

/-- The edges of the phase machine. -/
def validRunTransitions : RunPhase → List RunPhase
  | .pending => [.running, .concluding]
  | .running => [.concluding]
  | .concluding => [.succeeded, .failed, .inconclusive, .aborted]
  | _ => []

def runTransitionAllowed (frm dest : RunPhase) : Bool := (validRunTransitions frm).contains dest

/-- The phases from which no transition leads on. -/
def RunPhase.terminal : RunPhase → Bool
  | .succeeded | .failed | .inconclusive | .aborted => true
  | _ => false

/-! ## Rows -/

/-- What decides the outcome of a run. -/
inductive CriteriaType where
  | execExitZero | guestResult | operatorVerdict | other
deriving DecidableEq

inductive OnCompletion where
  | keepRunning | stop
deriving DecidableEq

inductive ResultStatus where
  | succeeded | failed
deriving DecidableEq

/-- One row of the runs table: what the run engine reads of it. -/
structure Run where
  runID : Bytes
  vmID : Bytes
  criteriaType : CriteriaType
  onCompletion : OnCompletion
  progressEvents : Bool
  phase : RunPhase
  resultStatus : Option ResultStatus
  progressSeq : Int
deriving DecidableEq

/-- A run that has not ended: the rows the unique index is about. -/
def Run.active (r : Run) : Bool := !r.phase.terminal

/-- Submissions are taken from runs that are not being concluded yet. -/
def Run.accepting (r : Run) : Bool := r.phase = .pending || r.phase = .running

inductive RunError where
  | runNotFound
  | activeRunExists
  | invalidRunTransition (frm dest : RunPhase)
  | notAcceptingSubmissions
  | submissionRejected
  | database

/-! ## Calls -/

def getRun (runs : List Run) (runID : Bytes) : Option Run := Table.find Run.runID runID runs

def activeRunForVM (runs : List Run) (vmID : Bytes) : Option Run :=
  runs.find? fun r => r.vmID = vmID && r.active

def listRunsInPhases (runs : List Run) (phases : List RunPhase) : List Run :=
  runs.filter fun r => phases.contains r.phase

/-- Insert a run. The unique index refuses a second run of a VM that has not ended. -/
def createRun (runs : List Run) (row : Run) : Except RunError (List Run) :=
  if row.active && (activeRunForVM runs row.vmID).isSome then .error .activeRunExists
  else
    match Table.insert Run.runID row runs with
    | none => .error .database
    | some runs' => .ok runs'

/-- Advance a run's phase: the pin on the phase it was read in is checked before the edge. -/
def transitionRun (runs : List Run) (runID : Bytes) (frm : Option RunPhase) (dest : RunPhase) :
    Except RunError (List Run × Run) :=
  match getRun runs runID with
  | none => .error .runNotFound
  | some current =>
    if frm.isSome ∧ frm ≠ some current.phase then
      .error (.invalidRunTransition current.phase dest)
    else if !runTransitionAllowed current.phase dest then
      .error (.invalidRunTransition current.phase dest)
    else
      .ok (Table.modify Run.runID runID (fun r => { r with phase := dest }) runs,
        { current with phase := dest })

/-- Record a guest's final result. The phase is left alone: concluding is the manager's job. -/
def submitRunResult (runs : List Run) (runID : Bytes) (status : ResultStatus) :
    Except RunError (List Run) :=
  match getRun runs runID with
  | none => .error .runNotFound
  | some run =>
    if !run.accepting then .error .notAcceptingSubmissions
    else if run.resultStatus.isSome then .error .submissionRejected
    else
      .ok (Table.modify Run.runID runID (fun r => { r with resultStatus := some status }) runs)

/-! ## The phase machine -/

lemma mem_of_activeRunForVM {runs : List Run} {vmID : Bytes} {r : Run}
    (h : activeRunForVM runs vmID = some r) : r ∈ runs ∧ r.vmID = vmID ∧ r.active = true := by
  refine ⟨List.mem_of_find?_eq_some h, ?_⟩
  simpa using List.find?_some h

lemma activeRunForVM_eq_none {runs : List Run} {vmID : Bytes} :
    activeRunForVM runs vmID = none ↔ ∀ r ∈ runs, r.vmID = vmID → r.active = false := by
  simp [activeRunForVM]

lemma createRun_ok {runs runs' : List Run} {row : Run} (h : createRun runs row = .ok runs') :
    (row.active = true → activeRunForVM runs row.vmID = none) ∧
      Table.insert Run.runID row runs = some runs' := by
  unfold createRun at h
  by_cases hactive : (row.active && (activeRunForVM runs row.vmID).isSome) = true
  · simp [hactive] at h
  rw [if_neg hactive] at h
  cases hins : Table.insert Run.runID row runs with
  | none => simp [hins] at h
  | some t =>
    obtain rfl : t = runs' := by simpa [hins] using h
    refine ⟨fun hrow => ?_, rfl⟩
    simpa [hrow] using hactive

end Observatory.Store
