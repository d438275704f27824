/-
# What is written beside a report

The tables a report is made from are written by everything else the host does: sensors append
events, the attention queue opens items and has them acknowledged, annotations are added, VMs and
runs are created and runs are concluded. `Archive.step` is one such call. The lemmas say what a
call leaves as it was: events stay where they are, a run that is concluded keeps its row, and a VM
keeps its profile.
-/
import Observatory.Report.Generate

namespace Observatory.Report

open Lib Events Store List
open Store.Attention (Item Queue RaiseInput)

variable {H : Type} [DecidableEq H]

/-! ## Calls -/

/-- The clocks and the database during a call. -/
structure Tx where
  now : Instant
  /-- The time as the database writes it. -/
  stamp : Bytes
  dbOk : Bool

/-- An event of the store's own stream. -/
structure OwnEvent where
  kind : Bytes
  sensor : Bytes
  provenance : Provenance
  quality : Quality
  data : List (Bytes × Json)

/-- An event that the registry adds with a change of its tables. -/
def registryEvent (kind : String) (data : List (Bytes × Json)) : OwnEvent :=
  ⟨ascii kind, ascii "registry", .hostObserved, notApplicableQuality, mkMap data⟩

structure CreateRunInput where
  vmID : Bytes
  owner : Bytes
  goal : Bytes
  criteriaType : Bytes
  onCompletion : Bytes
  progressEvents : Bool
  initialPhase : RunPhase

inductive Action where
  /-- An event of a sensor. -/
  | append (c : Call)
  /-- An annotation, the progress of a run, a change of a VM or an operation: an event, and tables
  that no report is made from. -/
  | record (tx : Tx) (ev : OwnEvent)
  | raiseAttention (tx : Tx) (inp : RaiseInput)
  | ackAttention (tx : Tx) (attentionID : Nat)
  | createVM (tx : Tx) (vmID profile : Bytes) (data : List (Bytes × Json))
  | createRun (tx : Tx) (runID : Bytes) (inp : CreateRunInput)
  | transitionRun (tx : Tx) (runID : Bytes) (frm : Option RunPhase) (dest : RunPhase)
      (evaluatedBy reason : Bytes)
  /-- A result that has passed its checks. -/
  | submitRunResult (tx : Tx) (runID result status : Bytes)
  /-- The process starts again, with a stream of its own. -/
  | reopen (instanceID : Bytes)

namespace Archive

/-- The tables of a new database. -/
def new (H : Type) (instanceID : Bytes) : Archive H := ⟨Store.new H instanceID, [], [], [], 0⟩

variable (hash : Bytes → H) (redact : Bytes → Bytes)

/-- A transaction that adds an event of the store's own stream; `tables` is what it does beside.
The number of the event on its stream is spent when the transaction fails. Nobody else writes to
the stream, so what is appended to it is new. -/
def emit (a : Archive H) (tx : Tx) (ev : OwnEvent) (tables : Archive H → Option (Archive H)) :
    Archive H :=
  let spent := { a.store with systemSeq := addInt64 a.store.systemSeq }
  let env := { a.store.systemEnvelope ev.kind ev.sensor ev.quality ev.data tx.now with
    provenance := ev.provenance }
  match appendSystemInTx hash spent env with
  | .error _ => { a with store := spent }
  | .ok store =>
    if tx.dbOk ∧ a.store.lastID < store.lastID then
      (tables { a with store := store }).getD { a with store := spent }
    else { a with store := spent }

def queue (a : Archive H) : Queue := ⟨a.items, a.lastItemID, [], a.store.lastID, []⟩

/-- A raise: the queue says which event it is and what becomes of the items. -/
def raiseAttention (a : Archive H) (tx : Tx) (inp : RaiseInput) : Archive H :=
  let queue := (a.queue.raiseAttention redact inp tx.dbOk).1
  match queue.events with
  | [] => a
  | e :: _ =>
    a.emit hash tx ⟨e.kind, e.sensor, .hostObserved, notApplicableQuality, e.data⟩ fun a =>
      some { a with items := queue.items, lastItemID := queue.lastItemID }

def ackAttention (a : Archive H) (tx : Tx) (attentionID : Nat) : Archive H :=
  { a with items := (a.queue.ackAttention attentionID tx.dbOk).1.items }

def newRun (runID : Bytes) (inp : CreateRunInput) (tx : Tx) (eventID : Nat) : RunRecord where
  runID := runID
  vmID := inp.vmID
  goal := inp.goal
  criteriaType := inp.criteriaType
  phase := inp.initialPhase
  evaluatedBy := []
  reason := []
  resultJSON := []
  createdAt := tx.stamp
  startedAt := if inp.initialPhase = .running then tx.stamp else []
  concludedAt := []
  createdEventID := eventID
  concludedEventID := 0

/-- Insert a run; a VM has one run at a time that is not concluded. -/
def createRun (a : Archive H) (tx : Tx) (runID : Bytes) (inp : CreateRunInput) : Archive H :=
  a.emit hash tx
    (registryEvent "run.created"
      [(ascii "run_id", .str runID),
       (ascii "vm_id", .str inp.vmID),
       (ascii "owner", .str inp.owner),
       (ascii "goal", .str inp.goal),
       (ascii "success_criteria", .str inp.criteriaType),
       (ascii "on_completion", .str inp.onCompletion),
       (ascii "progress_events", number (if inp.progressEvents then 1 else 0)),
       (ascii "phase", .str (phaseName inp.initialPhase))])
    fun a =>
      if a.runs.any fun r => !r.phase.terminal && r.vmID = inp.vmID then none
      else some { a with runs := a.runs ++ [newRun runID inp tx a.store.lastID] }

/-- What a transition writes to its row. -/
def move (dest : RunPhase) (evaluatedBy reason : Bytes) (tx : Tx) (eventID : Nat)
    (r : RunRecord) : RunRecord :=
  let r := { r with
    phase := dest
    startedAt := if dest = .running ∧ r.phase = .pending then tx.stamp else r.startedAt }
  if dest.terminal then
    { r with
      evaluatedBy := evaluatedBy
      reason := reason
      concludedAt := tx.stamp
      concludedEventID := eventID }
  else r

def transitionRun (a : Archive H) (tx : Tx) (runID : Bytes) (frm : Option RunPhase)
    (dest : RunPhase) (evaluatedBy reason : Bytes) : Archive H :=
  match a.getRun runID with
  | none => a
  | some current =>
    if frm.any (· ≠ current.phase) ∨ runTransitionAllowed current.phase dest = false then a
    else
      a.emit hash tx
        (registryEvent "run.state_changed"
          ([(ascii "run_id", .str runID),
            (ascii "vm_id", .str current.vmID),
            (ascii "from", .str (phaseName current.phase)),
            (ascii "to", .str (phaseName dest))] ++
            if dest.terminal then
              [(ascii "evaluated_by", .str evaluatedBy), (ascii "reason", .str reason)]
            else []))
        fun a => some { a with
          runs := Table.modify RunRecord.runID runID
            (move dest evaluatedBy reason tx a.store.lastID) a.runs }

/-- Record a result while the run takes submissions; there is one. -/
def submitRunResult (a : Archive H) (tx : Tx) (runID result status : Bytes) : Archive H :=
  match a.getRun runID with
  | none => a
  | some current =>
    if current.phase ≠ .pending ∧ current.phase ≠ .running then a
    else if current.resultJSON ≠ [] then
      a.emit hash tx
        (registryEvent "run.submission_rejected"
          [(ascii "run_id", .str runID),
           (ascii "vm_id", .str current.vmID),
           (ascii "submission", .str (ascii "result")),
           (ascii "reason", .str (ascii "result already recorded")),
           (ascii "size_bytes", number result.length)])
        some
    else
      a.emit hash tx
        (registryEvent "run.result_recorded"
          [(ascii "run_id", .str runID),
           (ascii "vm_id", .str current.vmID),
           (ascii "status", .str status),
           (ascii "size_bytes", number result.length)])
        fun a => some { a with
          runs := Table.modify RunRecord.runID runID (fun r => { r with resultJSON := result })
            a.runs }

/-- One call. Identifiers are fresh uuids, a run starts pending or running, and the VM of a run was
read before. -/
def step (a : Archive H) : Action → Option (Archive H)
  | .append c => some { a with store := (a.store.append hash c).1 }
  | .record tx ev => some (a.emit hash tx ev some)
  | .raiseAttention tx inp => some (a.raiseAttention hash redact tx inp)
  | .ackAttention tx attentionID => some (a.ackAttention tx attentionID)
  | .createVM tx vmID profile data =>
    if uuidString vmID ∧ a.profiles.lookup vmID = none then
      some (a.emit hash tx (registryEvent "vm.created" data) fun a =>
        some { a with profiles := a.profiles ++ [(vmID, profile)] })
    else none
  | .createRun tx runID inp =>
    if a.getRun runID = none ∧ (a.profiles.lookup inp.vmID).isSome ∧
        (inp.initialPhase = .pending ∨ inp.initialPhase = .running) then
      some (a.createRun hash tx runID inp)
    else none
  | .transitionRun tx runID frm dest evaluatedBy reason =>
    some (a.transitionRun hash tx runID frm dest evaluatedBy reason)
  | .submitRunResult tx runID result status => some (a.submitRunResult hash tx runID result status)
  | .reopen instanceID =>
    some { a with store := { a.store with instanceID := instanceID, systemSeq := 0 } }

/-! ## What a call can do -/

/-- Events are numbered upward, up to the last number that was given out. -/
structure Numbered (s : Store H) : Prop where
  ids : Log.Ordered Event.eventID s.events
  ids_le : ∀ e ∈ s.events, e.eventID ≤ s.lastID

/-- One store holds the events of another, and perhaps more behind them. -/
structure Added (s t : Store H) : Prop where
  events : s.events <+: t.events
  lastID : s.lastID ≤ t.lastID
  numbered : Numbered s → Numbered t

section added

omit [DecidableEq H]

variable {s t u : Store H}

lemma Added.of_eq (hevents : t.events = s.events) (hlast : t.lastID = s.lastID) : Added s t where
  events := hevents ▸ prefix_refl _
  lastID := hlast.ge
  numbered := fun h => ⟨hevents ▸ h.ids, fun e he => hlast ▸ h.ids_le e (hevents ▸ he)⟩

lemma Added.trans (h : Added s t) (h' : Added t u) : Added s u where
  events := h.events.trans h'.events
  lastID := h.lastID.trans h'.lastID
  numbered := h'.numbered ∘ h.numbered

lemma Added.of_row {row : Event H} (hevents : t.events = s.events ++ [row])
    (hrow : row.eventID = s.lastID + 1) (hlast : t.lastID = s.lastID + 1) : Added s t where
  events := hevents ▸ prefix_append _ _
  lastID := by omega
  numbered := by
    intro h
    constructor
    · rw [hevents]
      refine pairwise_append.2 ⟨h.ids, pairwise_singleton _ _, fun e he e' he' => ?_⟩
      have hle := h.ids_le e he
      rw [mem_singleton.1 he']
      omega
    · intro e he
      rw [hevents] at he
      rcases mem_append.1 he with he | he
      · have hle := h.ids_le e he
        omega
      · rw [mem_singleton.1 he]
        omega

end added

lemma added_append (s : Store H) (c : Call) : Added s (s.append hash c).1 := by
  refine append_preserves hash (P := Added s) (fun t n h => ?_) (fun t dbOk env h => ?_)
    (.of_eq rfl rfl) c
  · exact h.trans (.of_eq rfl rfl)
  · refine h.trans ?_
    have hcase := appendPlain_cases hash t dbOk env
    generalize t.appendPlain hash dbOk env = r at hcase ⊢
    cases hcase with
    | refused | duplicate => exact .of_eq rfl rfl
    | inserted payload row streams _ _ hrow _ => exact .of_row rfl hrow.1 rfl

lemma emit_cases (a : Archive H) (tx : Tx) (ev : OwnEvent)
    (tables : Archive H → Option (Archive H)) :
    ∃ store, Added a.store store ∧
      (a.emit hash tx ev tables = { a with store := store } ∨
        tables { a with store := store } = some (a.emit hash tx ev tables) ∧
          a.store.lastID < store.lastID ∧ ∃ e ∈ store.events, e.eventID = store.lastID) := by
  have hspent : Added a.store { a.store with systemSeq := addInt64 a.store.systemSeq } :=
    .of_eq rfl rfl
  unfold emit
  dsimp only
  split
  · exact ⟨_, hspent, .inl rfl⟩
  next store hstore =>
  obtain ⟨-, payload, res, -, htx⟩ := appendSystemInTx_eq_ok hash hstore
  by_cases hcommit : tx.dbOk = true ∧ a.store.lastID < store.lastID
  · rw [if_pos hcommit]
    rcases appendInTx_events htx with rfl | ⟨row, hevents, -, hrow, hlast⟩
    · exact absurd hcommit.2 (lt_irrefl _)
    cases htables : tables { a with store := store } with
    | none => exact ⟨_, hspent, .inl rfl⟩
    | some a' =>
      refine ⟨store, .of_row hevents hrow hlast, .inr ⟨htables, hcommit.2, row, ?_, ?_⟩⟩
      · simp [hevents]
      · exact hrow.trans hlast.symm
  · rw [if_neg hcommit]
    exact ⟨_, hspent, .inl rfl⟩

/-- What a call does to the tables beside the events. -/
inductive Changed (a a' : Archive H) : Action → Prop where
  | none {x : Action} (h : a' = { a with store := a'.store }) : Changed a a' x
  | vm {x : Action} (vmID profile : Bytes) (huuid : uuidString vmID = true)
      (hfresh : a.profiles.lookup vmID = .none)
      (h : a' = { a with store := a'.store, profiles := a.profiles ++ [(vmID, profile)] }) :
      Changed a a' x
  | created {x : Action} (run : RunRecord) (hfresh : a.getRun run.runID = .none)
      (hvm : (a.profiles.lookup run.vmID).isSome = true) (hphase : run.phase.terminal = false)
      (hid : 0 < run.createdEventID ∧ run.createdEventID ≤ a'.store.lastID)
      (h : a' = { a with store := a'.store, runs := a.runs ++ [run] }) : Changed a a' x
  /-- A run that is not concluded; its row keeps what it was created with. -/
  | moved {x : Action} (run : RunRecord) (f : RunRecord → RunRecord)
      (hfound : a.getRun run.runID = some run) (hphase : run.phase.terminal = false)
      (hf : ∀ r, (f r).runID = r.runID ∧ (f r).vmID = r.vmID ∧
        (f r).createdEventID = r.createdEventID)
      (hterminal : (f run).phase.terminal = true → a.store.lastID < (f run).concludedEventID ∧
        ∃ e ∈ a'.store.events, e.eventID = (f run).concludedEventID)
      (h : a' = { a with
        store := a'.store, runs := Table.modify RunRecord.runID run.runID f a.runs }) :
      Changed a a' x
  | raised {tx : Tx} {inp : RaiseInput} (q : Queue)
      (heffect : Attention.Queue.Effect a.queue q (.raise inp tx.dbOk))
      (h : a' = { a with
        store := a'.store, items := q.items, lastItemID := q.lastItemID }) :
      Changed a a' (.raiseAttention tx inp)
  | acked {tx : Tx} {attentionID : Nat} (q : Queue)
      (heffect : Attention.Queue.Effect a.queue q (.ack attentionID tx.dbOk))
      (h : a' = { a with store := a'.store, items := q.items }) :
      Changed a a' (.ackAttention tx attentionID)

variable {x : Action} {a : Archive H}

lemma changed_emit (a : Archive H) (tx : Tx) (ev : OwnEvent)
    {tables : Archive H → Option (Archive H)}
    (htables : ∀ store a', Added a.store store → a.store.lastID < store.lastID →
      (∃ e ∈ store.events, e.eventID = store.lastID) →
      tables { a with store := store } = some a' → a'.store = store ∧ Changed a a' x) :
    Added a.store (a.emit hash tx ev tables).store ∧ Changed a (a.emit hash tx ev tables) x := by
  obtain ⟨store, hadded, hfailed | ⟨htx, hlast, hevent⟩⟩ := emit_cases hash a tx ev tables
  · rw [hfailed]
    exact ⟨hadded, .none rfl⟩
  · obtain ⟨hstore, hchanged⟩ := htables store _ hadded hlast hevent htx
    exact ⟨by rw [hstore]; exact hadded, hchanged⟩

omit [DecidableEq H] in
lemma runID_of_getRun {runID : Bytes} {run : RunRecord} (h : a.getRun runID = some run) :
    run.runID = runID :=
  (Table.mem_of_find h).2

lemma changed_raiseAttention (a : Archive H) (tx : Tx) (inp : RaiseInput) :
    Added a.store (a.raiseAttention hash redact tx inp).store ∧
      Changed a (a.raiseAttention hash redact tx inp) (.raiseAttention tx inp) := by
  have heffect := Attention.Queue.effect_raise redact a.queue inp tx.dbOk
  unfold raiseAttention
  generalize (a.queue.raiseAttention redact inp tx.dbOk).1 = q at heffect ⊢
  dsimp only
  split
  · exact ⟨.of_eq rfl rfl, .none rfl⟩
  · refine changed_emit hash a tx _ fun store a' _ _ _ htx => ?_
    cases htx
    exact ⟨rfl, .raised q heffect rfl⟩

lemma changed_createRun (tx : Tx) {runID : Bytes} {inp : CreateRunInput}
    (hfresh : a.getRun runID = none) (hvm : (a.profiles.lookup inp.vmID).isSome = true)
    (hphase : inp.initialPhase = .pending ∨ inp.initialPhase = .running) :
    Added a.store (a.createRun hash tx runID inp).store ∧
      Changed a (a.createRun hash tx runID inp) x := by
  refine changed_emit hash a tx _ fun store a' _ hlast _ htx => ?_
  split at htx
  · cases htx
  · cases htx
    have hterminal : inp.initialPhase.terminal = false := by
      rcases hphase with hphase | hphase <;> rw [hphase] <;> rfl
    exact ⟨rfl, .created (newRun runID inp tx store.lastID) hfresh hvm hterminal
      ⟨by simp only [newRun]; omega, le_rfl⟩ rfl⟩

lemma not_terminal_of_edge {frm dest : RunPhase} (h : runTransitionAllowed frm dest = true) :
    frm.terminal = false := by
  cases frm <;> first | rfl | cases h

/-- A transition keeps what the run was created with, and notes its event when it concludes the
run. -/
lemma move_fields (dest : RunPhase) (evaluatedBy reason : Bytes) (tx : Tx) (eventID : Nat)
    (r : RunRecord) :
    let r' := move dest evaluatedBy reason tx eventID r
    (r'.runID = r.runID ∧ r'.vmID = r.vmID ∧ r'.createdEventID = r.createdEventID) ∧
      r'.phase = dest ∧ (dest.terminal = true → r'.concludedEventID = eventID) := by
  by_cases hdest : dest.terminal = true <;> simp [move, hdest]

lemma changed_transitionRun (a : Archive H) (tx : Tx) (runID : Bytes) (frm : Option RunPhase)
    (dest : RunPhase) (evaluatedBy reason : Bytes) :
    Added a.store (a.transitionRun hash tx runID frm dest evaluatedBy reason).store ∧
      Changed a (a.transitionRun hash tx runID frm dest evaluatedBy reason) x := by
  unfold transitionRun
  cases hget : a.getRun runID with
  | none => exact ⟨.of_eq rfl rfl, .none rfl⟩
  | some current =>
    cases runID_of_getRun hget
    dsimp only
    split
    · exact ⟨.of_eq rfl rfl, .none rfl⟩
    next hedge =>
    have hallowed : runTransitionAllowed current.phase dest = true := by
      simpa using (not_or.1 hedge).2
    refine changed_emit hash a tx _ fun store a' _ hlast hevent htx => ?_
    cases htx
    have hmove := move_fields dest evaluatedBy reason tx store.lastID
    refine ⟨rfl, .moved current (move dest evaluatedBy reason tx store.lastID) hget
      (not_terminal_of_edge hallowed) (fun r => (hmove r).1) (fun hterminal => ?_) rfl⟩
    rw [(hmove current).2.1] at hterminal
    rw [(hmove current).2.2 hterminal]
    exact ⟨hlast, hevent⟩

lemma changed_submitRunResult (a : Archive H) (tx : Tx) (runID result status : Bytes) :
    Added a.store (a.submitRunResult hash tx runID result status).store ∧
      Changed a (a.submitRunResult hash tx runID result status) x := by
  unfold submitRunResult
  cases hget : a.getRun runID with
  | none => exact ⟨.of_eq rfl rfl, .none rfl⟩
  | some current =>
    cases runID_of_getRun hget
    dsimp only
    split
    · exact ⟨.of_eq rfl rfl, .none rfl⟩
    next haccepting =>
    have hphase : current.phase.terminal = false := by
      cases hp : current.phase <;> first | rfl | simp [hp] at haccepting
    split
    · refine changed_emit hash a tx _ fun store a' _ _ _ htx => ?_
      cases htx
      exact ⟨rfl, .none rfl⟩
    · refine changed_emit hash a tx _ fun store a' _ _ _ htx => ?_
      cases htx
      refine ⟨rfl, .moved current (fun r => { r with resultJSON := result }) hget hphase
        (fun r => ⟨rfl, rfl, rfl⟩) (fun hterminal => ?_) rfl⟩
      rw [hphase] at hterminal
      cases hterminal

/-- Every call adds events, and changes the other tables in one of these ways. -/
lemma changed_step {a' : Archive H} (h : a.step hash redact x = some a') :
    Added a.store a'.store ∧ Changed a a' x := by
  cases x with
  | append c =>
    cases h
    exact ⟨added_append hash a.store c, .none rfl⟩
  | record tx ev =>
    cases Option.some.inj h
    refine changed_emit hash a tx ev fun store a' _ _ _ htx => ?_
    cases htx
    exact ⟨rfl, .none rfl⟩
  | raiseAttention tx inp =>
    cases h
    exact changed_raiseAttention hash redact a tx inp
  | ackAttention tx attentionID =>
    cases h
    exact ⟨.of_eq rfl rfl, .acked _ (Attention.Queue.effect_ack a.queue attentionID tx.dbOk) rfl⟩
  | createVM tx vmID profile data =>
    obtain ⟨⟨huuid, hfresh⟩, h⟩ := Option.ite_none_right_eq_some.1 h
    cases Option.some.inj h
    refine changed_emit hash a tx _ fun store a' _ _ _ htx => ?_
    cases htx
    exact ⟨rfl, .vm vmID profile huuid hfresh rfl⟩
  | createRun tx runID inp =>
    obtain ⟨⟨hfresh, hvm, hphase⟩, h⟩ := Option.ite_none_right_eq_some.1 h
    cases Option.some.inj h
    exact changed_createRun hash tx hfresh hvm hphase
  | transitionRun tx runID frm dest evaluatedBy reason =>
    cases h
    exact changed_transitionRun hash a tx runID frm dest evaluatedBy reason
  | submitRunResult tx runID result status =>
    cases h
    exact changed_submitRunResult hash a tx runID result status
  | reopen instanceID =>
    cases h
    exact ⟨.of_eq rfl rfl, .none rfl⟩

end Archive

end Observatory.Report
