/-
# Runs and what is submitted to them

The store's runs are created, moved through their phases, and take progress and results from the
guest. A submission is checked against a row that was read before its transaction, so other calls
come in between; what counts is checked again in the transaction.
-/
import Observatory.Store.Registry

namespace Observatory.Store.RunRecords

open Lib List Table

/-! ## Rows and events -/

structure Record where
  run : RunRow
  resultJSON : Bytes
  resultStatus : Option ResultStatus
  /-- How many progress submissions were accepted. -/
  progressSeq : Nat
  /-- The event of the transition that concluded the run; zero before. -/
  concludedEventID : Nat

def Record.runID (r : Record) : Bytes := r.run.runID

def Record.activeVM (r : Record) : Option Bytes := r.run.activeVM

def Record.accepting (r : Record) : Bool := r.run.phase = .pending || r.run.phase = .running

inductive SubmissionKind where
  | progress | result

inductive RejectReason where
  | oversized (size : Nat) (maxBytes : Int)
  | notJSON
  | progressDisabled
  | missingStatus
  | badStatus
  | detailTooLong (size : Nat)
  | alreadyRecorded

inductive RunEvent where
  | created (runID vmID : Bytes) (phase : RunPhase)
  | stateChanged (runID vmID : Bytes) (frm dest : RunPhase)
  | progress (runID vmID : Bytes) (seq : Nat) (payload : Bytes)
  | resultRecorded (runID vmID : Bytes) (status : ResultStatus) (size : Nat)
  | submissionRejected (runID vmID : Bytes) (submission : SubmissionKind) (reason : RejectReason)
      (size : Nat)

/-- An event under the number it got. -/
structure Logged where
  eventID : Nat
  event : RunEvent

/-! ## Inputs -/

/-- A run is created pending with its VM, or running on a VM that runs. -/
inductive InitialPhase where
  | pending | running

def InitialPhase.phase : InitialPhase → RunPhase
  | pending => .pending
  | running => .running

structure CreateInput where
  vmID : Bytes
  owner : Bytes
  attachment : RunAttachment
  idempotencyKey : Option Bytes
  requestHash : Bytes
  initialPhase : InitialPhase

/-- A submission of the guest, with the bound on its size. -/
structure Submission where
  kind : SubmissionKind
  payload : Bytes
  maxBytes : Int

/-- A submission that passed the checks made on the row that was read. -/
inductive Checked where
  | progress (payload : Bytes)
  | result (json : Bytes) (status : ResultStatus)

def statusOf : Json → Option ResultStatus
  | .str s =>
    if s = ascii "succeeded" then some .succeeded
    else if s = ascii "failed" then some .failed
    else none
  | _ => none

def textLength : Json → Option Nat
  | .str s => some s.length
  | _ => none

def checkMembers (json : Bytes) (members : List (Bytes × Json)) : Except RejectReason Checked :=
  match members.lookup (ascii "status") with
  | none => .error .missingStatus
  | some status =>
    match statusOf status with
    | none => .error .badStatus
    | some status =>
      match (members.lookup (ascii "detail")).bind textLength with
      | some n => if 1024 < n then .error (.detailTooLong n) else .ok (.result json status)
      | none => .ok (.result json status)

/-- The checks made before the transaction. -/
def check (conv : FloatText) (r : Record) (sub : Submission) : Except RejectReason Checked :=
  if sub.maxBytes < sub.payload.length then
    .error (.oversized sub.payload.length sub.maxBytes)
  else
    match sub.kind, Json.parse Events.maxNestingDepth sub.payload with
    | _, none => .error .notJSON
    | .progress, some _ =>
      if r.run.attachment.progressEvents then .ok (.progress sub.payload)
      else .error .progressDisabled
    | .result, some json =>
      match Json.decodeMap conv none json with
      | none => .error .notJSON
      | some members => checkMembers sub.payload (members.getD [])

/-! ## The store -/

/-- A submission between its checks and its transaction, with the row that was read. -/
structure InFlight where
  read : Record
  checked : Checked
  size : Nat

structure RunStore where
  rows : List Record
  events : List Logged
  lastEventID : Nat
  inFlight : List InFlight
  /-- The sequence numbers that progress submissions were answered with. -/
  accepted : List (Bytes × Nat)

namespace RunStore

def empty : RunStore := ⟨[], [], 0, [], []⟩

def find (s : RunStore) (runID : Bytes) : Option Record := Table.find Record.runID runID s.rows

/-- Append an event under the next number. -/
def append (s : RunStore) (e : RunEvent) : RunStore :=
  { s with events := s.events ++ [⟨s.lastEventID + 1, e⟩], lastEventID := s.lastEventID + 1 }

def update (s : RunStore) (runID : Bytes) (f : Record → Record) : RunStore :=
  { s with rows := Table.modify Record.runID runID f s.rows }

inductive Action where
  /-- Create a run, under the identifier that is drawn for it. -/
  | create (inp : CreateInput) (runID : Bytes)
  | transition (runID : Bytes) (frm : Option RunPhase) (dest : RunPhase)
  /-- Read the row and check a submission; the flag says whether a rejection is recorded. -/
  | submit (runID : Bytes) (sub : Submission) (recorded : Bool)
  /-- The transaction of a submission. -/
  | commit (i : Nat) (recorded : Bool)
  /-- The transaction fails or is not made. -/
  | drop (i : Nat)
  /-- An event of another kind is stored. -/
  | otherEvent

def newRecord (s : RunStore) (inp : CreateInput) (runID : Bytes) : Record where
  run :=
    { runID
      vmID := inp.vmID
      owner := inp.owner
      attachment := inp.attachment
      phase := inp.initialPhase.phase
      idempotencyKey := inp.idempotencyKey
      requestHash := inp.requestHash
      createdEventID := s.lastEventID + 1 }
  resultJSON := []
  resultStatus := none
  progressSeq := 0
  concludedEventID := 0

/-- A key that is known answers with its run, or with a conflict; otherwise the run is inserted
unless its identifier is taken or its VM has a run that has not ended. -/
def create (s : RunStore) (inp : CreateInput) (runID : Bytes) : RunStore :=
  let row := s.newRecord inp runID
  if Table.taken RunRow.key row.run (s.rows.map Record.run) then s
  else if (s.find runID).isSome then s
  else if Table.taken Record.activeVM row s.rows then s
  else { s.append (.created runID inp.vmID row.run.phase) with rows := s.rows ++ [row] }

/-- What a transition writes to its row. -/
def move (eventID : Nat) (dest : RunPhase) (r : Record) : Record :=
  { r with
    run := { r.run with phase := dest }
    concludedEventID := if dest.terminal then eventID else r.concludedEventID }

def transition (s : RunStore) (runID : Bytes) (frm : Option RunPhase) (dest : RunPhase) :
    RunStore :=
  match s.find runID with
  | none => s
  | some r =>
    if frm.isSome ∧ frm ≠ some r.run.phase then s
    else if !runTransitionAllowed r.run.phase dest then s
    else
      (s.append (.stateChanged runID r.run.vmID r.run.phase dest)).update runID
        (move (s.lastEventID + 1) dest)

def reject (s : RunStore) (r : Record) (kind : SubmissionKind) (reason : RejectReason) (size : Nat)
    (recorded : Bool) : RunStore :=
  if recorded then s.append (.submissionRejected r.runID r.run.vmID kind reason size) else s

def submit (conv : FloatText) (s : RunStore) (runID : Bytes) (sub : Submission) (recorded : Bool) :
    RunStore :=
  match s.find runID with
  | none => s
  | some r =>
    if !r.accepting then s
    else
      match check conv r sub with
      | .error reason => s.reject r sub.kind reason sub.payload.length recorded
      | .ok checked => { s with inFlight := s.inFlight ++ [⟨r, checked, sub.payload.length⟩] }

def countProgress (r : Record) : Record := { r with progressSeq := r.progressSeq + 1 }

def recordResult (json : Bytes) (status : ResultStatus) (r : Record) : Record :=
  { r with resultJSON := json, resultStatus := some status }

/-- The transaction of a submission: the phase, and for a result that there is none yet, are
checked on the row as it is now. -/
def commit (s : RunStore) (f : InFlight) (recorded : Bool) : RunStore :=
  match s.find f.read.runID with
  | none => s
  | some r =>
    if !r.accepting then s
    else
      match f.checked with
      | .progress payload =>
        { (s.append (.progress f.read.runID f.read.run.vmID (r.progressSeq + 1) payload)).update
            f.read.runID countProgress with
          accepted := s.accepted ++ [(f.read.runID, r.progressSeq + 1)] }
      | .result json status =>
        if r.resultStatus.isSome then s.reject f.read .result .alreadyRecorded f.size recorded
        else
          (s.append (.resultRecorded f.read.runID f.read.run.vmID status f.size)).update
            f.read.runID (recordResult json status)

def step (conv : FloatText) (s : RunStore) : Action → Option RunStore
  | .create inp runID => some (s.create inp runID)
  | .transition runID frm dest => some (s.transition runID frm dest)
  | .submit runID sub recorded => some (s.submit conv runID sub recorded)
  | .commit i recorded => do
    let f ← s.inFlight[i]?
    some ({ s with inFlight := s.inFlight.eraseIdx i }.commit f recorded)
  | .drop i => some { s with inFlight := s.inFlight.eraseIdx i }
  | .otherEvent => some { s with lastEventID := s.lastEventID + 1 }

end RunStore

/-! ## Edges -/

lemma terminal_of_edge {frm dest : RunPhase} (h : runTransitionAllowed frm dest = true) :
    frm.terminal = false := by
  cases frm <;> first | rfl | exact nomatch h

lemma accepting_of_edge {r r' : Record} (h : runTransitionAllowed r.run.phase r'.run.phase = true)
    (hclosed : r.accepting = false) : r'.accepting = false := by
  simp only [Record.accepting] at hclosed ⊢
  revert h hclosed
  generalize r.run.phase = frm
  generalize r'.run.phase = dest
  cases frm <;> cases dest <;> decide

/-! ## What one step does -/

namespace RunEvent

def progressOf (runID : Bytes) : RunEvent → Option Nat
  | progress r _ seq _ => if r = runID then some seq else none
  | _ => none

/-- An accepted submission to the run. -/
def submittedTo (runID : Bytes) : RunEvent → Bool
  | progress r _ _ _ | resultRecorded r _ _ _ => r = runID
  | _ => false

def concludes (runID : Bytes) : RunEvent → Bool
  | stateChanged r _ _ dest => r = runID && dest.terminal
  | _ => false

/-- The run an accepted submission or a transition is of. -/
def subject : RunEvent → Option Bytes
  | progress r _ _ _ | resultRecorded r _ _ _ | stateChanged r _ _ _ => some r
  | _ => none

variable {runID : Bytes} {e : RunEvent}

lemma progressOf_of_subject (h : e.subject ≠ some runID) :
    e.progressOf runID = none := by
  cases e with
  | progress r vmID seq payload => exact if_neg fun heq => h (congrArg some heq)
  | _ => rfl

lemma submittedTo_of_subject (h : e.subject ≠ some runID) :
    e.submittedTo runID = false := by
  cases e with
  | progress r vmID seq payload | resultRecorded r vmID status size =>
    exact decide_eq_false fun heq => h (congrArg some heq)
  | _ => rfl

lemma concludes_of_subject (h : e.subject ≠ some runID) :
    e.concludes runID = false := by
  cases e with
  | stateChanged r vmID frm dest =>
    have hne : decide (r = runID) = false := decide_eq_false fun heq => h (congrArg some heq)
    rw [concludes, hne, Bool.false_and]
  | _ => rfl

end RunEvent

namespace RunStore

def progressSeqs (s : RunStore) (runID : Bytes) : List Nat :=
  s.events.filterMap fun e => e.event.progressOf runID

def submissions (s : RunStore) (runID : Bytes) : List Logged :=
  s.events.filter fun e => e.event.submittedTo runID

def conclusions (s : RunStore) (runID : Bytes) : List Nat :=
  (s.events.filter fun e => e.event.concludes runID).map Logged.eventID

/-- What one step can do to the rows, the events and the numbers given out. -/
inductive Effect (s s' : RunStore) : Prop where
  /-- Nothing but events that no row depends on. -/
  | neutral (added : List Logged) (hrows : s'.rows = s.rows)
      (hevents : s'.events = s.events ++ added) (hadded : ∀ e ∈ added, e.event.subject = none)
      (haccepted : s'.accepted = s.accepted)
  | created (inp : CreateInput) (runID : Bytes) (hfresh : s.find runID = none)
      (hfree : Table.taken Record.activeVM (s.newRecord inp runID) s.rows = false)
      (hrows : s'.rows = s.rows ++ [s.newRecord inp runID])
      (hevents : s'.events
        = s.events ++ [⟨s.lastEventID + 1, .created runID inp.vmID inp.initialPhase.phase⟩])
      (haccepted : s'.accepted = s.accepted)
  | moved (r : Record) (dest : RunPhase) (hget : s.find r.runID = some r)
      (hedge : runTransitionAllowed r.run.phase dest = true)
      (hrows : s'.rows = Table.modify Record.runID r.runID (move (s.lastEventID + 1) dest) s.rows)
      (hevents : s'.events = s.events ++
        [⟨s.lastEventID + 1, .stateChanged r.runID r.run.vmID r.run.phase dest⟩])
      (haccepted : s'.accepted = s.accepted)
  | progressed (r : Record) (vmID payload : Bytes) (hget : s.find r.runID = some r)
      (haccepting : r.accepting = true)
      (hrows : s'.rows = Table.modify Record.runID r.runID countProgress s.rows)
      (hevents : s'.events = s.events ++
        [⟨s.lastEventID + 1, .progress r.runID vmID (r.progressSeq + 1) payload⟩])
      (haccepted : s'.accepted = s.accepted ++ [(r.runID, r.progressSeq + 1)])
  | resulted (r : Record) (vmID json : Bytes) (status : ResultStatus) (size : Nat)
      (hget : s.find r.runID = some r) (haccepting : r.accepting = true)
      (hnone : r.resultStatus = none)
      (hrows : s'.rows = Table.modify Record.runID r.runID (recordResult json status) s.rows)
      (hevents : s'.events = s.events ++
        [⟨s.lastEventID + 1, .resultRecorded r.runID vmID status size⟩])
      (haccepted : s'.accepted = s.accepted)

lemma Effect.refl (s : RunStore) : Effect s s :=
  .neutral [] rfl (append_nil _).symm (nofun) rfl

/-- The submissions under way are seen by none of the tables. -/
lemma Effect.inFlight (s : RunStore) (inFlight : List InFlight) : Effect s { s with inFlight } :=
  .neutral [] rfl (append_nil _).symm (nofun) rfl

lemma effect_reject (s : RunStore) (inFlight : List InFlight) (r : Record) (kind : SubmissionKind)
    (reason : RejectReason) (size : Nat) (recorded : Bool) :
    Effect s ({ s with inFlight }.reject r kind reason size recorded) := by
  rw [reject]
  split_ifs
  · refine .neutral [⟨s.lastEventID + 1, _⟩] rfl rfl (fun e he => ?_) rfl
    rw [mem_singleton.1 he]
    rfl
  · exact .inFlight s inFlight

variable {r : Record} {s s' t : RunStore}

lemma runID_of_find {runID : Bytes} (h : s.find runID = some r) :
    r.runID = runID := (mem_of_find h).2

lemma effect_create (s : RunStore) (inp : CreateInput) (runID : Bytes) :
    Effect s (s.create inp runID) := by
  simp only [create]
  split_ifs with hkey hid hactive
  · exact .refl s
  · exact .refl s
  · exact .refl s
  · refine .created inp runID ?_ (by simpa using hactive) rfl rfl rfl
    simpa using hid

lemma effect_transition (s : RunStore) (runID : Bytes) (frm : Option RunPhase) (dest : RunPhase) :
    Effect s (s.transition runID frm dest) := by
  rw [transition]
  cases hget : s.find runID with
  | none => exact .refl s
  | some r =>
    cases runID_of_find hget
    dsimp only
    split_ifs with hpin hedge
    · exact .refl s
    · exact .refl s
    · exact .moved r dest hget (by simpa using hedge) rfl rfl rfl

lemma effect_submit (conv : FloatText) (s : RunStore) (runID : Bytes) (sub : Submission)
    (recorded : Bool) : Effect s (s.submit conv runID sub recorded) := by
  rw [submit]
  cases hget : s.find runID with
  | none => exact .refl s
  | some r =>
    dsimp only
    split_ifs
    · exact .refl s
    · cases check conv r sub with
      | error reason => exact effect_reject s _ r sub.kind reason sub.payload.length recorded
      | ok checked => exact .inFlight s _

lemma effect_commit (s : RunStore) (inFlight : List InFlight) (f : InFlight) (recorded : Bool) :
    Effect s ({ s with inFlight }.commit f recorded) := by
  rw [commit]
  cases hget : { s with inFlight }.find f.read.runID with
  | none => exact .inFlight s inFlight
  | some r =>
    have hid : f.read.runID = r.runID := (runID_of_find hget).symm
    rw [hid] at hget
    dsimp only
    by_cases haccepting : r.accepting = true
    swap
    · rw [if_pos (by simpa using haccepting)]
      exact .inFlight s inFlight
    rw [if_neg (by simpa using haccepting)]
    cases f.checked with
    | progress payload =>
      rw [hid]
      exact .progressed r _ payload hget haccepting rfl rfl rfl
    | result json status =>
      dsimp only
      split_ifs with hresult
      · exact effect_reject s inFlight f.read .result .alreadyRecorded f.size recorded
      · rw [hid]
        exact .resulted r _ json status f.size hget haccepting (by simpa using hresult) rfl rfl rfl

lemma effect_step {conv : FloatText} {a : Action} (hstep : s.step conv a = some s') :
    Effect s s' := by
  cases a with
  | create inp runID =>
    cases hstep
    exact s.effect_create inp runID
  | transition runID frm dest =>
    cases hstep
    exact s.effect_transition runID frm dest
  | submit runID sub recorded =>
    cases hstep
    exact s.effect_submit conv runID sub recorded
  | commit i recorded =>
    obtain ⟨f, -, hstep⟩ := Option.bind_eq_some_iff.1 hstep
    cases hstep
    exact effect_commit s _ f recorded
  | drop i | otherEvent =>
    cases hstep
    exact .neutral [] rfl (append_nil _).symm (nofun) rfl

/-! ## What holds of every row -/

lemma events_of_other {added : List Logged} {runID : Bytes}
    (hevents : s'.events = s.events ++ added) (hother : ∀ e ∈ added, e.event.subject ≠ some runID) :
    s'.progressSeqs runID = s.progressSeqs runID ∧ s'.submissions runID = s.submissions runID ∧
      s'.conclusions runID = s.conclusions runID := by
  have hprogress : (added.filterMap fun e => e.event.progressOf runID) = [] :=
    filterMap_eq_nil_iff.2 fun e he => RunEvent.progressOf_of_subject (hother e he)
  have hsubmitted : (added.filter fun e => e.event.submittedTo runID) = [] :=
    filter_eq_nil_iff.2 fun e he => by
      simp [RunEvent.submittedTo_of_subject (hother e he)]
  have hconcludes : (added.filter fun e => e.event.concludes runID) = [] :=
    filter_eq_nil_iff.2 fun e he => by
      simp [RunEvent.concludes_of_subject (hother e he)]
  refine ⟨?_, ?_, ?_⟩
  · rw [progressSeqs, hevents, filterMap_append, hprogress, append_nil, progressSeqs]
  · rw [submissions, hevents, filter_append, hsubmitted, append_nil, submissions]
  · rw [conclusions, hevents, filter_append, hconcludes, append_nil, conclusions]

/-- The numbers a run's progress submissions were answered with. -/
def acceptedSeqs (s : RunStore) (runID : Bytes) : List Nat :=
  (s.accepted.filter fun a => a.1 = runID).map Prod.snd

/-- A row and its events agree. -/
structure Kept (s : RunStore) (r : Record) : Prop where
  /-- One event for each accepted progress, numbered from one. -/
  progress : s.progressSeqs r.runID = (List.range r.progressSeq).map (· + 1)
  accepted : s.acceptedSeqs r.runID = (List.range r.progressSeq).map (· + 1)
  pending : r.run.phase.terminal = false →
    s.conclusions r.runID = [] ∧ r.concludedEventID = 0
  /-- A run that has ended has one, the one its row names. -/
  ended : r.run.phase.terminal = true →
    s.conclusions r.runID = [r.concludedEventID] ∧ r.concludedEventID ≠ 0

lemma Kept.of_other (h : Kept s r) {added : List Logged} (hevents : s'.events = s.events ++ added)
    (hother : ∀ e ∈ added, e.event.subject ≠ some r.runID)
    (haccepted : s'.acceptedSeqs r.runID = s.acceptedSeqs r.runID) : Kept s' r := by
  obtain ⟨hprogress, -, hconclusions⟩ := events_of_other hevents hother
  exact ⟨by rw [hprogress, h.progress], by rw [haccepted, h.accepted],
    by rw [hconclusions]; exact h.pending, by rw [hconclusions]; exact h.ended⟩

structure Inv (s : RunStore) : Prop where
  keys : (s.rows.map Record.runID).Nodup
  single : (s.rows.filterMap Record.activeVM).Nodup
  kept : ∀ r ∈ s.rows, Kept s r
  known : ∀ e ∈ s.events, ∀ runID, e.event.subject = some runID → runID ∈ s.rows.map Record.runID
  accepted_known : ∀ a ∈ s.accepted, a.1 ∈ s.rows.map Record.runID

namespace Inv

variable {s s' : RunStore}

variable {r : Record}

lemma eq_of_find (h : Inv s) {r₀ : Record} (hget : s.find r.runID = some r) (hmem : r₀ ∈ s.rows)
    (hid : r₀.runID = r.runID) : r₀ = r := by
  have hfind := find_of_mem h.keys hmem
  rw [hid] at hfind
  exact Option.some.inj (hfind.symm.trans hget)

lemma neutral (h : Inv s) {added : List Logged} (hrows : s'.rows = s.rows)
    (hevents : s'.events = s.events ++ added) (hadded : ∀ e ∈ added, e.event.subject = none)
    (haccepted : s'.accepted = s.accepted) : Inv s' := by
  refine ⟨hrows ▸ h.keys, hrows ▸ h.single, fun r hr => ?_, fun e he runID hsub => ?_, ?_⟩
  · refine (h.kept r (hrows ▸ hr)).of_other hevents (fun e he hsub => ?_) ?_
    · exact nomatch (hadded e he).symm.trans hsub
    · rw [acceptedSeqs, haccepted, acceptedSeqs]
  · rw [hevents] at he
    rcases mem_append.1 he with he | he
    · rw [hrows]
      exact h.known e he runID hsub
    · exact nomatch (hadded e he).symm.trans hsub
  · rw [hrows, haccepted]
    exact h.accepted_known

lemma kept_fresh (h : Inv s) (hfresh : r.runID ∉ s.rows.map Record.runID)
    (hseq : r.progressSeq = 0) (hphase : r.run.phase.terminal = false)
    (hconcluded : r.concludedEventID = 0) : Kept s r := by
  have hother : ∀ e ∈ s.events, e.event.subject ≠ some r.runID := fun e he hsub =>
    hfresh (h.known e he _ hsub)
  have hevents : s.events = { s with events := [] }.events ++ s.events := rfl
  have hnone := events_of_other hevents hother
  refine ⟨by rw [hnone.1, hseq]; rfl, ?_, fun _ => ⟨hnone.2.2, hconcluded⟩,
    fun hterm => nomatch hphase.symm.trans hterm⟩
  have hacc : (s.accepted.filter fun a => a.1 = r.runID) = [] :=
    filter_eq_nil_iff.2 fun a ha heq =>
      hfresh (of_decide_eq_true heq ▸ h.accepted_known a ha)
  rw [acceptedSeqs, hacc, hseq]
  rfl

lemma created (h : Inv s) {inp : CreateInput} {runID : Bytes} (hfresh : s.find runID = none)
    (hfree : taken Record.activeVM (s.newRecord inp runID) s.rows = false)
    (hrows : s'.rows = s.rows ++ [s.newRecord inp runID]) (hevents : s'.events
      = s.events ++ [⟨s.lastEventID + 1, .created runID inp.vmID inp.initialPhase.phase⟩])
    (haccepted : s'.accepted = s.accepted) : Inv s' := by
  have hnew : runID ∉ s.rows.map Record.runID := fun hmem => by
    obtain ⟨r, hr, hid⟩ := mem_map.1 hmem
    exact find_eq_none.1 hfresh r hr hid
  have hsame : ∀ r, Kept s r → Kept s' r := fun r hr => by
    refine hr.of_other hevents (fun e he hsub => ?_) ?_
    · rw [mem_singleton.1 he] at hsub
      cases hsub
    · rw [acceptedSeqs, haccepted, acceptedSeqs]
  refine ⟨?_, ?_, fun r hr => ?_, fun e he id hsub => ?_, fun a ha => ?_⟩
  · have hinsert : insert Record.runID (s.newRecord inp runID) s.rows = some s'.rows :=
      insert_eq_some.2 ⟨hfresh, hrows⟩
    exact keys_insert h.keys hinsert
  · rw [hrows]
    exact unique_append h.single hfree
  · rw [hrows] at hr
    rcases mem_append.1 hr with hr | hr
    · exact hsame r (h.kept r hr)
    · rw [mem_singleton.1 hr]
      refine hsame _ (h.kept_fresh hnew rfl ?_ rfl)
      show inp.initialPhase.phase.terminal = false
      cases inp.initialPhase <;> rfl
  · rw [hrows, map_append]
    rw [hevents] at he
    rcases mem_append.1 he with he | he
    · exact mem_append_left _ (h.known e he id hsub)
    · rw [mem_singleton.1 he] at hsub
      cases hsub
  · rw [hrows, map_append]
    exact mem_append_left _ (h.accepted_known a (haccepted ▸ ha))

lemma updated (h : Inv s) {f : Record → Record} {e : Logged} (hget : s.find r.runID = some r)
    (hrows : s'.rows = modify Record.runID r.runID f s.rows) (hid : ∀ r, (f r).runID = r.runID)
    (hactive : (f r).activeVM = r.activeVM ∨ (f r).activeVM = none)
    (hevents : s'.events = s.events ++ [e]) (hsubject : e.event.subject = some r.runID)
    (haccepted : ∃ seqs, s'.accepted = s.accepted ++ seqs ∧ ∀ a ∈ seqs, a.1 = r.runID)
    (hkept : Kept s' (f r)) : Inv s' := by
  have hkeys : s'.rows.map Record.runID = s.rows.map Record.runID := by
    rw [hrows, keys_modify hid]
  have hmem : r.runID ∈ s.rows.map Record.runID :=
    mem_map_of_mem (mem_of_find hget).1
  obtain ⟨seqs, hacc, hseqs⟩ := haccepted
  refine ⟨hkeys ▸ h.keys, ?_, fun r' hr' => ?_, fun e' he' id hsub => ?_, fun a ha => ?_⟩
  · rw [hrows]
    refine unique_modify h.single fun r₀ hr₀ hid₀ => ?_
    rw [h.eq_of_find hget hr₀ hid₀]
    exact hactive
  · rw [hrows] at hr'
    rcases mem_modify hr' with ⟨hr', hne⟩ | ⟨r₀, hr₀, hid₀, rfl⟩
    · refine (h.kept r' hr').of_other hevents (fun e' he' hsub => ?_) ?_
      · rw [mem_singleton.1 he', hsubject] at hsub
        exact hne (Option.some.inj hsub).symm
      · have hnone : (seqs.filter fun a => a.1 = r'.runID) = [] :=
          filter_eq_nil_iff.2 fun a ha heq =>
            hne ((of_decide_eq_true heq).symm.trans (hseqs a ha))
        rw [acceptedSeqs, hacc, filter_append, hnone, append_nil, acceptedSeqs]
    · rw [h.eq_of_find hget hr₀ hid₀]
      exact hkept
  · rw [hkeys]
    rw [hevents] at he'
    rcases mem_append.1 he' with he' | he'
    · exact h.known e' he' id hsub
    · rw [mem_singleton.1 he', hsubject] at hsub
      exact Option.some.inj hsub ▸ hmem
  · rw [hkeys]
    rw [hacc] at ha
    rcases mem_append.1 ha with ha | ha
    · exact h.accepted_known a ha
    · rw [hseqs a ha]
      exact hmem

lemma moved (h : Inv s) {dest : RunPhase} (hget : s.find r.runID = some r)
    (hedge : runTransitionAllowed r.run.phase dest = true)
    (hrows : s'.rows = modify Record.runID r.runID (move (s.lastEventID + 1) dest) s.rows)
    (hevents : s'.events = s.events ++
      [⟨s.lastEventID + 1, .stateChanged r.runID r.run.vmID r.run.phase dest⟩])
    (haccepted : s'.accepted = s.accepted) : Inv s' := by
  have hkept := h.kept r (mem_of_find hget).1
  have hopen : r.run.phase.terminal = false := terminal_of_edge hedge
  have hprogress : s'.progressSeqs r.runID = s.progressSeqs r.runID := by
    rw [progressSeqs, hevents, filterMap_append, progressSeqs]
    exact append_nil _
  have hconclusions : s'.conclusions r.runID
      = s.conclusions r.runID ++ if dest.terminal then [s.lastEventID + 1] else [] := by
    rw [conclusions, hevents, filter_append, map_append, conclusions]
    cases hterm : dest.terminal <;> simp [RunEvent.concludes, hterm]
  refine h.updated hget hrows (fun _ => rfl) ?_ hevents rfl
    ⟨[], by rw [haccepted, append_nil], nofun⟩ ?_
  · show (if dest.terminal then none else some r.run.vmID) = r.activeVM ∨ _ = none
    have hactive : r.activeVM = some r.run.vmID := by
      show (if r.run.phase.terminal then none else some r.run.vmID) = some r.run.vmID
      rw [hopen]
      rfl
    rw [hactive]
    cases hterm : dest.terminal
    · exact .inl rfl
    · refine .inr ?_
      show (if dest.terminal then none else some r.run.vmID) = none
      rw [hterm]
      rfl
  · refine ⟨hprogress.trans hkept.progress, ?_, fun hterm => ?_, fun hterm => ?_⟩
    · show s'.acceptedSeqs r.runID = _
      rw [acceptedSeqs, haccepted]
      exact hkept.accepted
    · have hterm : dest.terminal = false := hterm
      refine ⟨?_, ?_⟩
      · show s'.conclusions r.runID = []
        rw [hconclusions, hterm, (hkept.pending hopen).1]
        rfl
      · show (if dest.terminal then s.lastEventID + 1 else r.concludedEventID) = 0
        rw [hterm]
        exact (hkept.pending hopen).2
    · have hterm : dest.terminal = true := hterm
      have hevent : (move (s.lastEventID + 1) dest r).concludedEventID = s.lastEventID + 1 := by
        show (if dest.terminal then s.lastEventID + 1 else r.concludedEventID) = _
        rw [hterm]
        rfl
      refine ⟨?_, ?_⟩
      · show s'.conclusions r.runID = _
        rw [hconclusions, hterm, (hkept.pending hopen).1, hevent]
        rfl
      · rw [hevent]
        exact Nat.succ_ne_zero _

lemma progressed (h : Inv s) {vmID payload : Bytes} (hget : s.find r.runID = some r)
    (hrows : s'.rows = modify Record.runID r.runID countProgress s.rows)
    (hevents : s'.events = s.events ++
      [⟨s.lastEventID + 1, .progress r.runID vmID (r.progressSeq + 1) payload⟩])
    (haccepted : s'.accepted = s.accepted ++ [(r.runID, r.progressSeq + 1)]) : Inv s' := by
  have hkept := h.kept r (mem_of_find hget).1
  have hnext : (List.range (r.progressSeq + 1)).map (· + 1)
      = (List.range r.progressSeq).map (· + 1) ++ [r.progressSeq + 1] := by
    rw [range_succ, map_append, map_singleton]
  have hconclusions : s'.conclusions r.runID = s.conclusions r.runID := by
    rw [conclusions, hevents, filter_append, conclusions, map_append]
    exact append_nil _
  refine h.updated hget hrows (fun _ => rfl) (.inl rfl) hevents rfl
    ⟨_, haccepted, fun a ha => by rw [mem_singleton.1 ha]⟩ ⟨?_, ?_, ?_, ?_⟩
  · show s'.progressSeqs r.runID = (List.range (r.progressSeq + 1)).map (· + 1)
    rw [hnext, ← hkept.progress, progressSeqs, hevents, filterMap_append, progressSeqs]
    simp [RunEvent.progressOf]
  · show s'.acceptedSeqs r.runID = (List.range (r.progressSeq + 1)).map (· + 1)
    rw [hnext, ← hkept.accepted, acceptedSeqs, haccepted, filter_append, acceptedSeqs]
    simp
  · show _ → s'.conclusions r.runID = [] ∧ _
    rw [hconclusions]
    exact hkept.pending
  · show _ → s'.conclusions r.runID = [r.concludedEventID] ∧ _
    rw [hconclusions]
    exact hkept.ended

lemma resulted (h : Inv s) {vmID json : Bytes} {status : ResultStatus} {size : Nat}
    (hget : s.find r.runID = some r)
    (hrows : s'.rows = modify Record.runID r.runID (recordResult json status) s.rows)
    (hevents : s'.events = s.events ++
      [⟨s.lastEventID + 1, .resultRecorded r.runID vmID status size⟩])
    (haccepted : s'.accepted = s.accepted) : Inv s' := by
  have hkept := h.kept r (mem_of_find hget).1
  have hprogress : s'.progressSeqs r.runID = s.progressSeqs r.runID := by
    rw [progressSeqs, hevents, filterMap_append, progressSeqs]
    exact append_nil _
  have hconclusions : s'.conclusions r.runID = s.conclusions r.runID := by
    rw [conclusions, hevents, filter_append, conclusions, map_append]
    exact append_nil _
  refine h.updated hget hrows (fun _ => rfl) (.inl rfl) hevents rfl
    ⟨[], by rw [haccepted, append_nil], nofun⟩
    ⟨hprogress.trans hkept.progress, ?_, ?_, ?_⟩
  · show s'.acceptedSeqs r.runID = _
    rw [acceptedSeqs, haccepted]
    exact hkept.accepted
  · show _ → s'.conclusions r.runID = [] ∧ _
    rw [hconclusions]
    exact hkept.pending
  · show _ → s'.conclusions r.runID = [r.concludedEventID] ∧ _
    rw [hconclusions]
    exact hkept.ended

lemma effect (h : Inv s) (heffect : Effect s s') : Inv s' := by
  cases heffect with
  | neutral added hrows hevents hadded haccepted => exact h.neutral hrows hevents hadded haccepted
  | created inp runID hfresh hfree hrows hevents haccepted =>
    exact h.created hfresh hfree hrows hevents haccepted
  | moved r dest hget hedge hrows hevents haccepted =>
    exact h.moved hget hedge hrows hevents haccepted
  | progressed r vmID payload hget haccepting hrows hevents haccepted =>
    exact h.progressed hget hrows hevents haccepted
  | resulted r vmID json status size hget haccepting hnone hrows hevents haccepted =>
    exact h.resulted hget hrows hevents haccepted

end Inv

/-! ## What is settled for good -/

/-- What later calls leave of a row: a recorded result, and everything that was submitted once the
run takes no more submissions. -/
structure Lasts (s t : RunStore) (r r' : Record) : Prop where
  same : r'.runID = r.runID
  result : r.resultStatus.isSome = true →
    r'.resultStatus = r.resultStatus ∧ r'.resultJSON = r.resultJSON
  closed : r.accepting = false →
    r'.accepting = false ∧ r'.progressSeq = r.progressSeq ∧ r'.resultStatus = r.resultStatus ∧
      t.submissions r.runID = s.submissions r.runID

lemma Lasts.of_row (h : t.submissions r.runID = s.submissions r.runID) : Lasts s t r r :=
  ⟨rfl, fun _ => ⟨rfl, rfl⟩, fun hclosed => ⟨hclosed, rfl, rfl, h⟩⟩

lemma Lasts.trans {u : RunStore} {r' r'' : Record} (h : Lasts s t r r') (h' : Lasts t u r' r'') :
    Lasts s u r r'' := by
  refine ⟨h'.same.trans h.same, fun hsome => ?_, fun hclosed => ?_⟩
  · obtain ⟨hstatus, hjson⟩ := h.result hsome
    obtain ⟨hstatus', hjson'⟩ := h'.result (hstatus ▸ hsome)
    exact ⟨hstatus'.trans hstatus, hjson'.trans hjson⟩
  · obtain ⟨hclosed₁, hseq, hstatus, hsub⟩ := h.closed hclosed
    obtain ⟨hclosed₂, hseq', hstatus', hsub'⟩ := h'.closed hclosed₁
    exact ⟨hclosed₂, hseq'.trans hseq, hstatus'.trans hstatus, (h.same ▸ hsub').trans hsub⟩

def Later (s t : RunStore) : Prop := ∀ r ∈ s.rows, ∃ r' ∈ t.rows, Lasts s t r r'

lemma Later.trans {u : RunStore} (h : Later s t) (h' : Later t u) : Later s u := by
  intro r hr
  obtain ⟨r', hr', hlasts⟩ := h r hr
  obtain ⟨r'', hr'', hlasts'⟩ := h' r' hr'
  exact ⟨r'', hr'', hlasts.trans hlasts'⟩

lemma Inv.later_updated (h : Inv s) {f : Record → Record} {e : Logged}
    (hget : s.find r.runID = some r) (hrows : s'.rows = modify Record.runID r.runID f s.rows)
    (hevents : s'.events = s.events ++ [e]) (hsubject : e.event.subject = some r.runID)
    (hlasts : Lasts s s' r (f r)) : Later s s' := by
  intro r₀ hr₀
  rw [hrows]
  by_cases hid : r₀.runID = r.runID
  · obtain rfl := h.eq_of_find hget hr₀ hid
    exact ⟨f r₀, mem_map.2 ⟨r₀, hr₀, if_pos rfl⟩, hlasts⟩
  · refine ⟨r₀, mem_map.2 ⟨r₀, hr₀, if_neg hid⟩, .of_row ?_⟩
    refine (events_of_other hevents fun e' he' hsub => hid ?_).2.1
    rw [mem_singleton.1 he', hsubject] at hsub
    exact (Option.some.inj hsub).symm

lemma later_effect (h : Inv s) (heffect : Effect s s') : Later s s' := by
  cases heffect with
  | neutral added hrows hevents hadded haccepted =>
    intro r hr
    refine ⟨r, hrows ▸ hr, .of_row (events_of_other hevents fun e he hsub => ?_).2.1⟩
    exact nomatch (hadded e he).symm.trans hsub
  | created inp runID hfresh hfree hrows hevents haccepted =>
    intro r hr
    rw [hrows]
    refine ⟨r, mem_append_left _ hr, .of_row (events_of_other hevents fun e he hsub => ?_).2.1⟩
    rw [mem_singleton.1 he] at hsub
    cases hsub
  | moved r dest hget hedge hrows hevents haccepted =>
    refine h.later_updated hget hrows hevents rfl ⟨rfl, fun _ => ⟨rfl, rfl⟩, fun hclosed => ?_⟩
    refine ⟨accepting_of_edge hedge hclosed, rfl, rfl, ?_⟩
    rw [submissions, hevents, filter_append, submissions]
    exact append_nil _
  | progressed r vmID payload hget haccepting hrows hevents haccepted =>
    refine h.later_updated hget hrows hevents rfl ⟨rfl, fun _ => ⟨rfl, rfl⟩, fun hclosed => ?_⟩
    exact nomatch haccepting.symm.trans hclosed
  | resulted r vmID json status size hget haccepting hnone hrows hevents haccepted =>
    refine h.later_updated hget hrows hevents rfl ⟨rfl, fun hsome => ?_, fun hclosed => ?_⟩
    · rw [hnone] at hsome
      cases hsome
    · exact nomatch haccepting.symm.trans hclosed

/-- **Run records.**  After any sequence of creations, transitions and submissions: a VM has at
most one run that has not ended; a run has a concluding event exactly when its phase is terminal;
and its accepted progress is numbered from one without a gap, with one event each. Whatever is
called after that: a result that is recorded stays as it is, and a run that is concluding or has
ended accepts nothing more. -/
theorem run_records {conv : FloatText} {as bs : List Action} {s t : RunStore}
    (hs : run (step conv) empty as = some s) (ht : run (step conv) s bs = some t) :
    (∀ vmID, (s.rows.filter fun r => r.activeVM = some vmID).length ≤ 1) ∧
      (∀ r ∈ s.rows, Kept s r) ∧ Later s t := by
  have hempty : Inv empty :=
    ⟨nodup_nil, nodup_nil, nofun, nofun,
      nofun⟩
  have hstep : ∀ s a s', Inv s → step conv s a = some s' → Inv s' :=
    fun s a s' h hstep => h.effect (effect_step hstep)
  have hinv : Inv s := run_preserves hstep hempty hs
  refine ⟨fun vmID => length_filter_le_one hinv.single vmID, hinv.kept, ?_⟩
  refine run_monotone (p := fun _ _ => True) (I := Inv) (R := Later)
    (fun s r hr => ⟨r, hr, .of_row rfl⟩) (fun _ _ _ => Later.trans)
    (fun s a s' h _ => hstep s a s' h)
    (fun s a s' h _ hstep => later_effect h (effect_step hstep)) hinv
    (along_of_forall (fun _ _ => trivial) s bs) ht

/-! ### One run -/

def demoInput : CreateInput where
  vmID := ascii "vm"
  owner := ascii "ada"
  attachment := ⟨ascii "build", ascii "guest_result", ascii "stop", true⟩
  idempotencyKey := none
  requestHash := []
  initialPhase := .running

def demoResult : Bytes := ascii "\x7b\"status\":\"failed\"\x7d"

/-- Two submissions of progress and one of a result; a second run of the VM is refused. -/
def demoSubmitted : List Action :=
  [.create demoInput [1], .create demoInput [2], .submit [1] ⟨.progress, ascii "1", 10⟩ true,
    .submit [1] ⟨.progress, ascii "2", 10⟩ true, .submit [1] ⟨.result, demoResult, 100⟩ true,
    .commit 1 true, .commit 0 true, .commit 0 true]

/-- The run is concluded; what comes then is not accepted. -/
def demoConcluded : List Action :=
  [.submit [1] ⟨.progress, ascii "3", 10⟩ true, .transition [1] none .concluding, .commit 0 true,
    .transition [1] none .failed]

theorem run_records_demo : ∃ s t,
    run (step .verbatim) empty demoSubmitted = some s ∧
      run (step .verbatim) s demoConcluded = some t ∧
      s.progressSeqs [1] = [1, 2] ∧ t.progressSeqs [1] = [1, 2] ∧ t.conclusions [1] = [6] ∧
      (∀ r ∈ s.rows, Kept s r) ∧ Later s t := by
  exact ⟨_, _, yields (by decide +kernel), yields (by decide +kernel), by decide +kernel,
    by decide +kernel, by decide +kernel, (run_records (yields _) (yields _)).2⟩

end RunStore

end Observatory.Store.RunRecords
