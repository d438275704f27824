/-
# Run reports

The report of a concluded run is made from durable records only: the run's row, the network profile
of its VM, the events of the window between the run's creation and its conclusion, and the
attention items that name the run or were raised for its VM in the window. Counts come from the
database; each stands beside the request that reproduces it.
-/
import Observatory.Api.Events
import Observatory.Store.Attention
import Observatory.Store.Paging

namespace Observatory.Report

open Lib Events Store
open Store.Attention (Item Severity)

/-! ## Records -/

/-- A row of the runs table, as far as a report reads it. -/
structure RunRecord where
  runID : Bytes
  vmID : Bytes
  goal : Bytes
  criteriaType : Bytes
  phase : RunPhase
  evaluatedBy : Bytes
  reason : Bytes
  resultJSON : Bytes
  createdAt : Bytes
  startedAt : Bytes
  concludedAt : Bytes
  createdEventID : Nat
  /-- Zero until the run is concluded. -/
  concludedEventID : Nat
deriving DecidableEq

/-- The tables a report is made from: events, runs, the network profiles of the VMs, and the
attention queue. -/
structure Archive (H : Type) where
  store : Store H
  runs : List RunRecord
  profiles : List (Bytes × Bytes)
  items : List Item
  lastItemID : Nat

variable {H : Type}

def Archive.getRun (a : Archive H) (runID : Bytes) : Option RunRecord :=
  Table.find RunRecord.runID runID a.runs

def phaseName : RunPhase → Bytes
  | .pending => ascii "pending"
  | .running => ascii "running"
  | .concluding => ascii "concluding"
  | .succeeded => ascii "succeeded"
  | .failed => ascii "failed"
  | .inconclusive => ascii "inconclusive"
  | .aborted => ascii "aborted"

def severityName : Severity → Bytes
  | .info => ascii "info"
  | .needsDecision => ascii "needs_decision"
  | .critical => ascii "critical"

/-! ## Reports -/

structure OutcomeBlock where
  status : Bytes
  evaluatedBy : Bytes
  reason : Bytes
  evidenceLinks : List Bytes

structure TimingBlock where
  createdAt : Bytes
  startedAt : Option Bytes
  concludedAt : Bytes

structure Counted where
  count : Nat
  reproduceQuery : Bytes

structure EventRollupRow where
  family : Bytes
  counted : Counted

structure NetworkBlock where
  profile : Bytes
  flows : Counted
  dnsQueries : Counted
  policyDenials : Counted

structure AttentionRow where
  attentionID : Bytes
  kind : Bytes
  severity : Bytes
  acked : Bool
  link : Bytes

structure LinksBlock where
  run : Bytes
  vm : Bytes
  events : Bytes

/-- A report; what is the same in every report is added when it is written. -/
structure RunReport where
  runID : Bytes
  vmID : Bytes
  bootIDs : List Bytes
  goal : Bytes
  successCriteria : Bytes
  outcome : OutcomeBlock
  timing : TimingBlock
  eventRollup : List EventRollupRow
  networkSummary : NetworkBlock
  liveMutationEvents : Counted
  attention : List AttentionRow
  truncated : Bool
  links : LinksBlock

section write

def texts (ss : List Bytes) : Json := .arr (ss.map .str)

def number (n : Nat) : Json := .num (formatUint n)

/-- A member that is left out when its text is empty. -/
def omitEmpty (key : String) (s : Bytes) : List (Bytes × Json) :=
  if s = [] then [] else [(ascii key, .str s)]

def Counted.members (c : Counted) : List (Bytes × Json) :=
  [(ascii "count", number c.count), (ascii "reproduce_query", .str c.reproduceQuery)]

def OutcomeBlock.json (o : OutcomeBlock) : Json :=
  .obj ([(ascii "status", .str o.status), (ascii "evaluated_by", .str o.evaluatedBy)] ++
    omitEmpty "reason" o.reason ++ [(ascii "evidence_links", texts o.evidenceLinks)])

def TimingBlock.json (t : TimingBlock) : Json :=
  .obj ([(ascii "created_at", .str t.createdAt)] ++
    optMember (ascii "started_at") (t.startedAt.map .str) ++
    [(ascii "concluded_at", .str t.concludedAt)])

def EventRollupRow.json (r : EventRollupRow) : Json :=
  .obj ((ascii "family", .str r.family) :: r.counted.members)

/-- No guest channel is built, and the report says so. -/
def coverage : Json :=
  .obj
    [(ascii "telemetry_health_final", .str (ascii "unavailable")),
     (ascii "gaps", .arr [.obj
       [(ascii "kind", .str (ascii "guest_channel_not_built")),
        (ascii "detail", .str (ascii ("no guest telemetry channel exists in this build; " ++
          "guest-side facts limited to explicit submissions"))),
        (ascii "evidence_link", .str (ascii "/api/v1/meta"))]])]

def NetworkBlock.json (n : NetworkBlock) : Json :=
  .obj
    [(ascii "profile", .str n.profile), (ascii "flows", .obj n.flows.members),
     (ascii "dns_queries", .obj n.dnsQueries.members),
     (ascii "policy_denials", .obj n.policyDenials.members)]

def AttentionRow.json (r : AttentionRow) : Json :=
  .obj ([(ascii "attention_id", .str r.attentionID), (ascii "kind", .str r.kind),
    (ascii "severity", .str r.severity), (ascii "acked", .bool r.acked)] ++
    omitEmpty "link" r.link)

def quality (truncated : Bool) : Json :=
  .obj ([(ascii "truncated", .bool truncated), (ascii "redacted", .bool false)] ++
    if truncated then [(ascii "notes", texts [ascii "attention list capped at 128 items"])] else [])

def LinksBlock.json (l : LinksBlock) : Json :=
  .obj [(ascii "run", .str l.run), (ascii "vm", .str l.vm), (ascii "events", .str l.events)]

def RunReport.members (r : RunReport) : List (Bytes × Json) :=
  [(ascii "schema_version", number 1),
   (ascii "run_id", .str r.runID),
   (ascii "vm_id", .str r.vmID),
   (ascii "boot_ids", texts r.bootIDs),
   (ascii "goal", .str r.goal),
   (ascii "success_criteria", .str r.successCriteria),
   (ascii "outcome", r.outcome.json),
   (ascii "timing", r.timing.json),
   (ascii "execs", .arr []),
   (ascii "event_rollup", .arr (r.eventRollup.map EventRollupRow.json)),
   (ascii "coverage", coverage),
   (ascii "network_summary", r.networkSummary.json),
   (ascii "filesystem_summary", .obj
     [(ascii "live_mutation_events", .obj r.liveMutationEvents.members),
      (ascii "final_diff", .obj [(ascii "status", .str (ascii "not_requested"))])]),
   (ascii "artifacts", .arr []),
   (ascii "attention", .arr (r.attention.map AttentionRow.json)),
   (ascii "quality", quality r.truncated),
   (ascii "links", r.links.json)]

/-- The canonical text of a report. -/
def RunReport.marshal (r : RunReport) : Bytes := (Json.obj r.members).encode

end write

/-! ## Reading the store -/

inductive GenerateError where
  | runNotFound
  | notTerminal
  | inconsistent
  | vmNotFound
  | query (e : QueryError)
  | unfinished
deriving DecidableEq

variable (conv : FloatText) (dataVM : Bytes → Option Bytes)

def countEventsForReport (s : Store H) (vmID family : Bytes) (after upTo : Nat) : Nat :=
  let kinds := kindsByFamily family
  if kinds = [] then 0
  else
    (s.events.filter fun e =>
      after < e.eventID && e.eventID ≤ upTo && kinds.contains e.kind &&
        (e.vmID = some vmID || dataVM e.payload = some vmID)).length

/-- The items of a run: those that name it, and those raised for its VM in the window. -/
def relevant (run : RunRecord) (it : Item) : Bool :=
  it.runID = some run.runID ||
    (it.vmID = some run.vmID && run.createdEventID < it.raisedEventID &&
      it.raisedEventID ≤ run.concludedEventID)

def listAttentionForReport (items : List Item) (run : RunRecord) : List Item :=
  (items.filter (relevant run)).take 129

def collectAttention (items : List Item) (run : RunRecord) : List AttentionRow × Bool :=
  let found := listAttentionForReport items run
  ((found.take 128).map fun it =>
    { attentionID := formatUint it.attentionID
      kind := it.triggerClass
      severity := severityName it.severity
      acked := it.acked
      link := ascii "/api/v1/attention/" ++ formatUint it.attentionID },
    128 < found.length)

/-- The boot an event of a state change names. -/
def bootID (env : Envelope) : Option Bytes :=
  (Attention.textOf (env.data.getD []) (ascii "boot_id")).filter fun s => s ≠ []

def addBootIDs (ids : List Bytes) (envs : List Envelope) : List Bytes :=
  envs.foldl (fun ids env =>
    match bootID env with
    | none => ids
    | some id => if ids.contains id then ids else ids ++ [id]) ids

/-- The pages of state changes, until one is not full. -/
def bootPages (s : Store H) : Nat → Query → List Bytes → Except GenerateError (List Bytes)
  | 0, _, _ => .error .unfinished
  | n + 1, q, ids =>
    match s.query conv dataVM q with
    | .error e => .error (.query e)
    | .ok res =>
      let ids := addBootIDs ids res.events
      if res.events.length < 1000 then .ok ids
      else bootPages s n { q with after := res.nextAfter } ids

/-- The boots of the VM in the window. Every page but the last is full, so there are no more pages
than events. -/
def collectBootIDs (s : Store H) (vmID : Bytes) (after upTo : Nat) :
    Except GenerateError (List Bytes) :=
  bootPages conv dataVM s ((Log.between Event.eventID after upTo s.events).length + 1)
    { vmID := some vmID
      kind := ascii "vm.state_changed"
      family := []
      after := formatUint after
      upTo := formatUint upTo
      limit := 1000
      tail := false } []

def families : List Bytes := (mkMap (registry.map fun k => (kindFamily k.kind, ()))).map Prod.fst

def reproduceQuery (vmID family : Bytes) (after upTo : Nat) : Bytes :=
  ascii "/api/v1/events?vm_id=" ++ vmID ++ ascii "&family=" ++ family ++ ascii "&after=" ++
    formatUint after ++ ascii "&until=" ++ formatUint upTo

def countFamily (s : Store H) (vmID family : Bytes) (after upTo : Nat) : Counted where
  count := countEventsForReport dataVM s vmID family after upTo
  reproduceQuery := reproduceQuery vmID family after upTo

/-- The families of the window, those without events left out. -/
def buildEventRollup (s : Store H) (vmID : Bytes) (after upTo : Nat) : List EventRollupRow :=
  families.filterMap fun family =>
    let counted := countFamily dataVM s vmID family after upTo
    if counted.count = 0 then none else some ⟨family, counted⟩

def conclusionLink (run : RunRecord) : Bytes :=
  ascii "/api/v1/events?family=run&vm_id=" ++ run.vmID ++ ascii "&after=" ++
    formatInt (run.concludedEventID - 1) ++ ascii "&until=" ++ formatUint run.concludedEventID

def assemble (a : Archive H) (run : RunRecord) (profile : Bytes) (bootIDs : List Bytes) :
    RunReport :=
  let after := run.createdEventID
  let upTo := run.concludedEventID
  let count (family : String) := countFamily dataVM a.store run.vmID (ascii family) after upTo
  let attention := collectAttention a.items run
  { runID := run.runID
    vmID := run.vmID
    bootIDs := bootIDs
    goal := run.goal
    successCriteria := run.criteriaType
    outcome :=
      { status := phaseName run.phase
        evaluatedBy := run.evaluatedBy
        reason := run.reason
        evidenceLinks := conclusionLink run ::
          if run.resultJSON = [] then [] else [ascii "/api/v1/runs/" ++ run.runID] }
    timing :=
      { createdAt := run.createdAt
        startedAt := if run.startedAt = [] then none else some run.startedAt
        concludedAt := run.concludedAt }
    eventRollup := buildEventRollup dataVM a.store run.vmID after upTo
    networkSummary :=
      { profile := profile
        flows := count "net.flow"
        dnsQueries := count "dns"
        policyDenials := count "policy" }
    liveMutationEvents := count "fs"
    attention := attention.1
    truncated := attention.2
    links :=
      { run := ascii "/api/v1/runs/" ++ run.runID
        vm := ascii "/api/v1/vms/" ++ run.vmID
        events := ascii "/api/v1/events?vm_id=" ++ run.vmID ++ ascii "&after=" ++
          formatUint after ++ ascii "&until=" ++ formatUint upTo } }

/-- The report of a run; only a concluded run has one. -/
def generate (a : Archive H) (runID : Bytes) : Except GenerateError RunReport :=
  match a.getRun runID with
  | none => .error .runNotFound
  | some run =>
    if !run.phase.terminal then .error .notTerminal
    else if run.concludedEventID = 0 then .error .inconsistent
    else
      match a.profiles.lookup run.vmID with
      | none => .error .vmNotFound
      | some profile =>
        match collectBootIDs conv dataVM a.store run.vmID run.createdEventID
            run.concludedEventID with
        | .error e => .error e
        | .ok bootIDs => .ok (assemble dataVM a run profile bootIDs)

end Observatory.Report
