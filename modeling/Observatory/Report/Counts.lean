/-
# Counts and the requests beside them

A report counts events with a statement of its own and prints beside each count a request for the
same events. The request goes through the public path: it is parsed and checked, and its pages are
decoded. The two agree when every payload of the window decodes, and the window is closed, so they
agree for good.
-/
import Observatory.Report.Generate

namespace Observatory.Report

open Lib Events Store List

variable {H : Type} {conv : FloatText} {dataVM : Bytes → Option Bytes}

/-! ## The request -/

variable {a : Archive H} {family profile vmID : Bytes} {bootIDs : List Bytes} {after upTo : Nat}
  {run : RunRecord} {s t : Store H}

/-- What is selected up to an event that is there does not change when the store grows. -/
lemma filter_of_grown (ht : Log.Ordered Event.eventID t.events) (hpre : s.events <+: t.events)
    (hupTo : ∃ e ∈ s.events, e.eventID = upTo) {p : Event H → Bool}
    (hp : ∀ e, p e = true → e.eventID ≤ upTo) :
    t.events.filter p = s.events.filter p := by
  obtain ⟨added, hadded⟩ := hpre
  obtain ⟨e, he, rfl⟩ := hupTo
  rw [← hadded] at ht ⊢
  rw [filter_append, append_right_eq_self, filter_eq_nil_iff]
  intro e' he' hselected
  have hlater : e.eventID < e'.eventID := (pairwise_append.1 ht).2.2 e he e' he'
  have hwithin := hp e' hselected
  omega

/-- The window of a concluded run does not change any more. -/
lemma between_of_grown (ht : Log.Ordered Event.eventID t.events) (hpre : s.events <+: t.events)
    (hupTo : ∃ e ∈ s.events, e.eventID = upTo) (after : Nat) (p : Event H → Bool) :
    Log.between Event.eventID after upTo (t.events.filter p) =
      Log.between Event.eventID after upTo (s.events.filter p) := by
  rw [Log.between, Log.between, filter_filter, filter_filter]
  refine filter_of_grown ht hpre hupTo fun e he => ?_
  simp only [Bool.and_eq_true, decide_eq_true_eq] at he
  exact he.1.2

/-- A concluded run as the store holds it: on a VM the store knows, with the event that concluded
it. -/
structure Concluded (a : Archive H) (runID : Bytes) (run : RunRecord) : Prop where
  found : a.getRun runID = some run
  phase : run.phase.terminal = true
  vmID : uuidString run.vmID = true
  vm : (a.profiles.lookup run.vmID).isSome = true
  order : 0 < run.createdEventID ∧ run.createdEventID ≤ run.concludedEventID
  event : ∃ e ∈ a.store.events, e.eventID = run.concludedEventID

/-- Once the boots of the window are collected, nothing else can keep the report from being made. -/
lemma generate_eq {runID : Bytes} (hrun : Concluded a runID run)
    (hprofile : a.profiles.lookup run.vmID = some profile)
    (hboot : collectBootIDs conv dataVM a.store run.vmID
      run.createdEventID run.concludedEventID = .ok bootIDs) :
    generate conv dataVM a runID = .ok (assemble dataVM a run profile bootIDs) := by
  have hpositive : run.concludedEventID ≠ 0 := by
    have horder := hrun.order
    omega
  simp [generate, hrun.found, hrun.phase, hpositive, hprofile, hboot]

/-- The VM an event's data names. -/
def extractVM (payload : Bytes) : Option Bytes :=
  match Json.parse maxNestingDepth payload with
  | some (.obj ms) =>
    match ms.lookup (ascii "data") with
    | some (.obj data) => Attention.textOf data (ascii "vm_id")
    | _ => none
  | _ => none

/-- The row of the sample run once it is concluded. -/
def sampleRecord : RunRecord :=
  { runID := sampleRun.runID
    vmID := sampleRun.vmID
    goal := []
    criteriaType := ascii "guest_result"
    phase := .inconclusive
    evaluatedBy := ascii "system"
    reason := ascii "vm stopped"
    resultJSON := []
    createdAt := ascii "2026-01-01T00:00:00Z"
    startedAt := []
    concludedAt := ascii "2026-01-01T00:00:01Z"
    createdEventID := 1
    concludedEventID := 3 }

end Observatory.Report
