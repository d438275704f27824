/-
# The trigger rules

A rule maps an event of one kind to the attention it deserves: a class, a severity, a summary of
what happened and the action the system took. Rules read the event's data leniently: a member
that is missing or of another type reads as the empty text.
-/
import Observatory.Store.Attention

namespace Observatory.Situation

open Lib List
open Store.Attention (Event RaiseInput SuggestedAction textOf)

/-- The host configuration the engine obeys: the classes that are enabled, the bound of the queue,
and whether duplicates collapse. -/
structure Config where
  triggers : List (Bytes × Bool)
  queueMaxItems : Int
  collapseDuplicates : Bool

def Config.enabled (cfg : Config) (triggerClass : Bytes) : Bool :=
  (cfg.triggers.lookup triggerClass).getD false

structure Rule where
  triggerClass : Bytes
  severity : Event → Bytes
  fires : Event → Bool
  summary : Event → Bytes
  systemAction : Bytes
  evidence : Event → List Bytes
  actions : Event → List SuggestedAction

/-! ## Reading an event -/

def dataText (e : Event) (key : String) : Bytes := (textOf e.data (ascii key)).getD []

/-- A member of the object an event's data holds under `error`. -/
def errorText (e : Event) (key : String) : Bytes :=
  match e.data.lookup (ascii "error") with
  | some (.obj members) => (textOf members (ascii key)).getD []
  | _ => []

/-- The VM of an event: that of its envelope, or else the one its data names. -/
def envVMID (e : Event) : Option Bytes :=
  match e.vmID with
  | some vmID => some vmID
  | none => (textOf e.data (ascii "vm_id")).filter fun s => s ≠ []

def runIDFromData (e : Event) : Option Bytes :=
  (textOf e.data (ascii "run_id")).filter fun s => s ≠ []

def reconciliationReason (reason : Bytes) : Bool :=
  reason = ascii "controller_restart" || reason = ascii "vmm_disappeared_on_restart"

def terminalRunPhase (phase : Bytes) : Bool :=
  phase = ascii "succeeded" || phase = ascii "failed" || phase = ascii "inconclusive" ||
    phase = ascii "aborted"

/-- The page of events that starts with the event itself. -/
def eventLink (e : Event) : List Bytes :=
  [ascii "/api/v1/events?after=" ++ formatInt (e.eventID - 1) ++ ascii "&limit=1"]

/-! ## The rules -/

section rules

-- how a text is quoted in a summary
variable (quote : Bytes → Bytes)

def plainRule (triggerClass systemAction : String) (summary : Event → Bytes) : Rule where
  triggerClass := ascii triggerClass
  severity := fun _ => ascii "needs_decision"
  fires := fun _ => true
  summary := summary
  systemAction := ascii systemAction
  evidence := eventLink
  actions := fun _ => []

def telemetryLoss : Rule :=
  plainRule "telemetry_degraded" "recorded the loss as evidence; capture continues" fun e =>
    ascii "telemetry loss reported by sensor " ++ quote e.sensor ++
      ascii "; counts are in the event record"

def telemetryIntegrityFailure : Rule :=
  plainRule "telemetry_degraded" "rejected the conflicting append; the original event stands"
    fun e =>
      let failure := dataText e "failure"
      ascii "telemetry stream integrity failure (" ++
        (if failure = [] then ascii "unspecified" else failure) ++ ascii ")"

def telemetryUnregisteredKind : Rule :=
  plainRule "telemetry_degraded" "rejected the append; kinds must be registered before ingest"
    fun e => ascii "producer sent unregistered event kind " ++ quote (dataText e "kind")

def vmFailed : Rule :=
  { plainRule "lifecycle_failed" "recorded the failure; VM compute released, history preserved"
      fun e =>
        ascii "VM " ++ dataText e "vm_id" ++ ascii " failed from " ++ dataText e "from" ++
          ascii ": " ++ dataText e "reason" with
    fires := fun e =>
      dataText e "to" = ascii "failed" && !reconciliationReason (dataText e "reason") }

def vmSurprise : Rule :=
  { plainRule "reconciliation_surprise"
      "recorded the unexpected state; VM compute released, history preserved" fun e =>
        ascii "VM " ++ dataText e "vm_id" ++ ascii " found in unexpected state on restart: " ++
          dataText e "reason" with
    fires := fun e => reconciliationReason (dataText e "reason") }

def vmCleanupFailed : Rule :=
  { plainRule "lifecycle_failed"
      ("retained the row and its resource reservations; " ++
        "the cleanup is retried at every controller start")
      fun e =>
        ascii "cleanup of VM " ++ dataText e "vm_id" ++
          ascii " did not complete; the row is held at " ++ dataText e "state" ++ ascii ": " ++
            dataText e "reason" with
    actions := fun e =>
      let vmID := dataText e "vm_id"
      if vmID = [] then []
      else
        [{ action := ascii "delete"
           params := [(ascii "path", ascii "/api/v1/vms/" ++ vmID ++ ascii "?force=true")]
           rationale := ascii ("retry the cleanup once the cause named in the summary " ++
             "is cleared on the host") }] }

def vmReconcileAmbiguous : Rule :=
  { plainRule "reconciliation_surprise"
      "left the row and its resource reservations exactly as the last controller wrote them"
      fun e =>
        ascii "VM " ++ dataText e "vm_id" ++
          ascii " could not be classified on restart; the row is held at " ++
            dataText e "state" ++ ascii ": " ++ dataText e "detail" with
    actions := fun e =>
      let vmID := dataText e "vm_id"
      if vmID = [] then []
      else
        [{ action := ascii "get"
           params := [(ascii "path", ascii "/api/v1/events?vm_id=" ++ vmID)]
           rationale := ascii ("the row is the last controller's word; " ++
             "this VM's event history is what led to it") }] }

def followed (lead : String) (text : Bytes) : Bytes := if text = [] then [] else ascii lead ++ text

def runConcluded : Rule where
  triggerClass := ascii "run_concluded"
  severity := fun e =>
    if dataText e "to" = ascii "succeeded" then ascii "info" else ascii "needs_decision"
  fires := fun e => terminalRunPhase (dataText e "to")
  summary := fun e =>
    ascii "run " ++ dataText e "run_id" ++ ascii " on VM " ++ dataText e "vm_id" ++
      ascii " concluded " ++ dataText e "to" ++
        followed "; evaluated_by " (dataText e "evaluated_by") ++
          followed ": " (dataText e "reason")
  systemAction := ascii "recorded the terminal phase; report generation enqueued"
  evidence := fun e =>
    let runID := dataText e "run_id"
    if runID = [] then []
    else
      [ascii "/api/v1/runs/" ++ runID, ascii "/api/v1/runs/" ++ runID ++ ascii "/report"]
  actions := fun e =>
    let runID := dataText e "run_id"
    if runID = [] then []
    else
      [{ action := ascii "get"
         params := [(ascii "path", ascii "/api/v1/runs/" ++ runID ++ ascii "/report")]
         rationale := ascii "review the run report to understand the outcome" }]

def capacityExhausted : Rule :=
  { plainRule "capacity_exhausted" "rejected the create; no VM or reservation was written" fun e =>
      -- the three bytes are a dash
      ascii "create rejected: capacity exhausted " ++ [0xE2, 0x80, 0x94] ++ ascii " " ++
        errorText e "message" with
    fires := fun e =>
      dataText e "state" = ascii "failed" && errorText e "cause" = ascii "insufficient_capacity" }

def rulesByKind : List (Bytes × List Rule) :=
  [(ascii "telemetry.loss", [telemetryLoss quote]),
   (ascii "telemetry.integrity_failure", [telemetryIntegrityFailure]),
   (ascii "telemetry.unregistered_kind", [telemetryUnregisteredKind quote]),
   (ascii "vm.state_changed", [vmFailed, vmSurprise]),
   (ascii "vm.cleanup_failed", [vmCleanupFailed]),
   (ascii "vm.reconcile_ambiguous", [vmReconcileAmbiguous]),
   (ascii "run.state_changed", [runConcluded]),
   (ascii "operation.state_changed", [capacityExhausted])]

def rulesOf (e : Event) : List Rule := ((rulesByKind quote).lookup e.kind).getD []

end rules

/-! ## What an event is due -/

section due

variable (quote : Bytes → Bytes) (cfg : Config)

/-- The durable cursor of the engine. -/
def cursorName : Bytes := ascii "attention_triggers"

def raiseFor (e : Event) (r : Rule) : RaiseInput where
  triggerClass := r.triggerClass
  severity := r.severity e
  vmID := envVMID e
  runID := runIDFromData e
  summary := r.summary e
  systemAction := r.systemAction
  evidenceLinks := r.evidence e
  suggestedActions := r.actions e
  collapse := cfg.collapseDuplicates
  queueMax := cfg.queueMaxItems
  cursorName := cursorName
  cursorTo := e.eventID

def triggered (e : Event) : List Rule :=
  (rulesOf quote e).filter fun r => cfg.enabled r.triggerClass && r.fires e

def due (e : Event) : List RaiseInput := (triggered quote cfg e).map (raiseFor cfg e)

lemma rulesByKind_cases {kind : Bytes} {rs : List Rule} (h : (kind, rs) ∈ rulesByKind quote) :
    rs.length ≤ 1 ∨ rs = [vmFailed, vmSurprise] := by
  simp only [rulesByKind, mem_cons, Prod.mk.injEq, not_mem_nil, or_false] at h
  rcases h with ⟨-, rfl⟩ | ⟨-, rfl⟩ | ⟨-, rfl⟩ | ⟨-, rfl⟩ | ⟨-, rfl⟩ | ⟨-, rfl⟩ | ⟨-, rfl⟩ |
    ⟨-, rfl⟩
  case inr.inr.inr.inl => exact .inr rfl
  all_goals exact .inl le_rfl

lemma length_triggered_le (e : Event) : (triggered quote cfg e).length ≤ 1 := by
  unfold triggered rulesOf
  cases hrules : (rulesByKind quote).lookup e.kind with
  | none => simp
  | some rs =>
    obtain ⟨before, after, heq, -⟩ := lookup_eq_some_iff.1 hrules
    have hmem : (e.kind, rs) ∈ rulesByKind quote := by
      rw [heq]
      exact mem_append_right _ mem_cons_self
    rw [Option.getD_some]
    rcases rulesByKind_cases quote hmem with hone | rfl
    · exact (length_filter_le _ _).trans hone
    · -- a failure is told from a surprise by its reason
      by_cases hreason : reconciliationReason (dataText e "reason") = true
      · have hnot : (cfg.enabled vmFailed.triggerClass && vmFailed.fires e) = false := by
          simp [vmFailed, hreason]
        rw [filter_cons_of_neg (by simp [hnot])]
        exact length_filter_le _ [vmSurprise]
      · have hnot : (cfg.enabled vmSurprise.triggerClass && vmSurprise.fires e) = false := by
          simp [vmSurprise, hreason]
        have hnone : [vmSurprise].filter
            (fun r => cfg.enabled r.triggerClass && r.fires e) = [] := by
          simp [hnot]
        rw [filter_cons, hnone]
        split <;> simp

lemma length_due_le (e : Event) : (due quote cfg e).length ≤ 1 := by
  rw [due, length_map]
  exact length_triggered_le quote cfg e

end due

end Observatory.Situation
