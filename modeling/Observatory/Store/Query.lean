/-
# Reading the event store back

`query` pages over the events in the order of ingestion and decodes every row strictly, so one
row that does not decode fails the whole page. Rows come from `append`, which checks an
envelope before it is written, and from the progress a guest submits for its run, whose
payload is embedded in an event as it came. The main result says when every row that was
accepted decodes again.
-/
import Observatory.Events.Parse
import Observatory.Store.Append
import Observatory.Store.Runs

namespace Observatory.Store

open Lib Events List

variable {H : Type}

/-! ## Queries -/

def defaultPageLimit : Int := 200

def maxPageLimit : Int := 1000

/-- A page of events, strictly after the cursor `after` and up to the cursor `upTo`; an empty text
sets no bound or filter. -/
structure Query where
  vmID : Option Bytes
  kind : Bytes
  family : Bytes
  after : Bytes
  upTo : Bytes
  limit : Int
  tail : Bool

structure QueryResult where
  events : List Envelope
  nextAfter : Bytes
  latestEventID : Bytes

inductive QueryError where
  | conflictingFilters
  | bound (requested : Int)
  | invalidCursor (s : Bytes)
  | unknownFamily (family : Bytes)
  | doesNotParse (eventID : Nat)
deriving DecidableEq

/-- The family of a registered kind: the kind up to its last part. -/
def kindFamily (kind : Bytes) : Bytes := ((kind.reverse.dropWhile (· != 0x2E)).drop 1).reverse

def kindsByFamily (family : Bytes) : List Bytes :=
  (registry.map KindInfo.kind).filter fun k => kindFamily k = family

def parseCursor (absent : Int) (s : Bytes) : Except QueryError Int :=
  if s = [] then .ok absent
  else if !decimalString s then .error (.invalidCursor s)
  else
    match parseInt64 s with
    | none => .error (.invalidCursor s)
    | some n => .ok n

/-- What a query asks for once its arguments are checked. -/
structure Query.Checked where
  limit : Nat
  after : Int
  upTo : Int
  kinds : List Bytes

def Query.check (q : Query) : Except QueryError Query.Checked :=
  if q.kind ≠ [] ∧ q.family ≠ [] then .error .conflictingFilters
  else
    let limit := if q.limit = 0 then defaultPageLimit else q.limit
    if limit < 1 ∨ maxPageLimit < limit then .error (.bound q.limit)
    else
      match parseCursor 0 q.after with
      | .error e => .error e
      | .ok after =>
        match parseCursor (-1) q.upTo with
        | .error e => .error e
        | .ok upTo =>
          if q.family = [] then .ok ⟨limit.toNat, after, upTo, []⟩
          else if kindsByFamily q.family = [] then .error (.unknownFamily q.family)
          else .ok ⟨limit.toNat, after, upTo, kindsByFamily q.family⟩

/-- The rows a query is about. `dataVM` is what the database extracts from a payload as the VM
its data names. -/
def Query.selects (dataVM : Bytes → Option Bytes) (q : Query) (c : Query.Checked) (e : Event H) :
    Bool :=
  c.after < (e.eventID : Int) && (c.upTo < 0 || (e.eventID : Int) ≤ c.upTo) &&
    (q.vmID.isNone || e.vmID = q.vmID || dataVM e.payload = q.vmID) &&
    (q.kind.isEmpty || e.kind = q.kind) && (c.kinds.isEmpty || c.kinds.contains e.kind)

variable (conv : FloatText)

/-- Decode the rows of a page; the cursor of a row becomes the id of its envelope. -/
def readRows : List (Event H) → Except QueryError (List Envelope)
  | [] => .ok []
  | e :: es =>
    match Envelope.parse conv e.payload with
    | none => .error (.doesNotParse e.eventID)
    | some env =>
      match readRows es with
      | .error err => .error err
      | .ok envs => .ok ({ env with eventID := some (formatUint e.eventID) } :: envs)

/-- One page of events. The database itself is taken to answer. -/
def query (dataVM : Bytes → Option Bytes) (s : Store H) (q : Query) :
    Except QueryError QueryResult :=
  match q.check with
  | .error e => .error e
  | .ok c =>
    let rows := s.events.filter (q.selects dataVM c)
    -- the tail is read from its newest end, and handed out oldest first all the same
    let page := if q.tail then rows.reverse.take c.limit else rows.take c.limit
    match readRows conv page with
    | .error e => .error e
    | .ok envs =>
      let envs := if q.tail then envs.reverse else envs
      let latest := (s.events.map Event.eventID).foldl max 0
      .ok
        { events := envs
          nextAfter := (envs.getLast?.bind Envelope.eventID).getD q.after
          latestEventID := if 0 < latest then formatUint latest else [] }

/-! ## Rows that can be read -/

/-- Every stored payload decodes. -/
def AllReadable (s : Store H) : Prop :=
  ∀ e ∈ s.events, (Envelope.parse conv e.payload).isSome = true

variable {conv}

variable {env : Envelope} {now : Instant} {s s' : Store H}

/-- The value a 64-bit integer holds. -/
def toInt64 (n : Int) : Int := (n + 2 ^ 63) % 2 ^ 64 - 2 ^ 63

structure SubmitProgressInput where
  runID : Bytes
  payload : Bytes
  maxBytes : Int

/-- The events of the store together with the runs they are about. -/
structure Ledger (H : Type) where
  store : Store H
  runs : List Run

/-- The event of a progress submission: the guest's payload stands in it as the guest sent it. -/
def progressEnvelope (s : Store H) (run : Run) (payload : Json) (now : Instant) : Envelope :=
  { s.systemEnvelope (ascii "run.progress") (ascii "registry") notApplicableQuality
      (mkMap
        [(ascii "run_id", .str run.runID),
         (ascii "vm_id", .str run.vmID),
         (ascii "seq", .num (formatInt (toInt64 (run.progressSeq + 1)))),
         (ascii "payload", payload)]) now with
    provenance := .guestReported }

/-- The event of a submission that is not taken. -/
def rejectionEnvelope (s : Store H) (run : Run) (submission reason : Bytes) (sizeBytes : Int)
    (now : Instant) : Envelope :=
  s.systemEnvelope (ascii "run.submission_rejected") (ascii "registry") notApplicableQuality
    (mkMap
      [(ascii "run_id", .str run.runID),
       (ascii "vm_id", .str run.vmID),
       (ascii "submission", .str submission),
       (ascii "reason", .str reason),
       (ascii "size_bytes", .num (formatInt sizeBytes))]) now

variable [DecidableEq H] (hash : Bytes → H)

/-- Insert an envelope the store made itself, in the caller's transaction: it is validated, but its
kind is not looked up. -/
def appendSystemInTx (s : Store H) (env : Envelope) : Except AppendError (Store H) :=
  if env.validate ≠ [] then .error (.invalid env.validate)
  else
    match env.marshal with
    | none => .error .marshal
    | some payload =>
      match s.appendInTx env payload (hash payload) with
      | (_, _, some err) => .error err
      | (s', _, none) => .ok s'

def recordSubmissionRejected (s : Store H) (dbOk : Bool) (now : Instant) (run : Run)
    (submission reason : Bytes) (sizeBytes : Int) : Store H :=
  (appendPlain hash { s with systemSeq := addInt64 s.systemSeq } dbOk
    (s.rejectionEnvelope run submission reason sizeBytes now)).1

def rejectProgress (s : Ledger H) (inp : SubmitProgressInput) (dbOk : Bool) (now : Instant)
    (run : Run) (reason : Bytes) : Ledger H × Except RunError Int :=
  let store := recordSubmissionRejected hash s.store dbOk now run (ascii "progress") reason
    (toInt64 inp.payload.length)
  ({ s with store := store }, .error .submissionRejected)

def submitRunProgress (s : Ledger H) (inp : SubmitProgressInput) (dbOk : Bool) (now : Instant) :
    Ledger H × Except RunError Int :=
  match getRun s.runs inp.runID with
  | none => (s, .error .runNotFound)
  | some run =>
    let size := toInt64 inp.payload.length
    if !run.accepting then (s, .error .notAcceptingSubmissions)
    else if inp.maxBytes < size then
      rejectProgress hash s inp dbOk now run
        (ascii "payload exceeds max_bytes limit (" ++ formatInt size ++ ascii " > " ++
          formatInt inp.maxBytes ++ ascii ")")
    else
      match Json.parse maxNestingDepth inp.payload with
      | none => rejectProgress hash s inp dbOk now run (ascii "payload is not valid JSON")
      | some payload =>
        if !run.progressEvents then
          rejectProgress hash s inp dbOk now run (ascii "progress_events disabled for this run")
        else
          -- the sequence number of the store's stream is spent even when the transaction fails
          let spent := { s.store with systemSeq := addInt64 s.store.systemSeq }
          match appendSystemInTx hash spent (s.store.progressEnvelope run payload now) with
          | .error _ => ({ s with store := spent }, .error .database)
          | .ok store' =>
            if dbOk then
              ({ store := store'
                 runs := Table.modify Run.runID inp.runID
                   (fun r => { r with progressSeq := toInt64 (run.progressSeq + 1) }) s.runs },
                .ok (toInt64 (run.progressSeq + 1)))
            else ({ s with store := spent }, .error .database)

/-! ## What is written can be read -/

omit [DecidableEq H] in
lemma AllReadable.of_row {t : Store H} (hs : s.AllReadable conv) {row : Event H}
    (ht : t.events = s.events ++ [row]) (hrow : (Envelope.parse conv row.payload).isSome = true) :
    t.AllReadable conv := by
  intro e he
  rw [ht] at he
  rcases mem_append.1 he with he | he
  · exact hs e he
  · rw [mem_singleton.1 he]
    exact hrow

lemma AllReadable.appendPlain (hs : s.AllReadable conv) (dbOk : Bool) (henv : env.Readable conv) :
    (s.appendPlain hash dbOk env).1.AllReadable conv := by
  have hcase := appendPlain_cases hash s dbOk env
  generalize s.appendPlain hash dbOk env = r at hcase ⊢
  cases hcase with
  | refused | duplicate => exact hs
  | inserted payload row streams hcheck _ hrow _ =>
    obtain ⟨-, hvalid, -, hm⟩ := checkAppend_eq_ok.1 hcheck
    refine hs.of_row rfl ?_
    rw [hrow.2.2.2.2.2.1]
    exact Envelope.parse_marshal hm (Envelope.validate_eq_nil.1 hvalid).schemaVersion henv

/-- What a transaction that commits adds. -/
lemma appendInTx_events {payload : Bytes} {h : H} {res : AppendResult}
    (htx : s.appendInTx env payload h = (s', res, none)) :
    s' = s ∨ ∃ row, s'.events = s.events ++ [row] ∧ row.payload = payload ∧
      row.eventID = s.lastID + 1 ∧ s'.lastID = s.lastID + 1 := by
  unfold appendInTx at htx
  by_cases hscope : (s.scopeOf env.sourceInstanceID).isSome = true ∧
      s.scopeOf env.sourceInstanceID ≠ some env.vmID
  · simp [hscope] at htx
  simp only [if_neg hscope] at htx
  cases hlookup : s.lookup env.sourceInstanceID env.sourceSeq with
  | some e =>
    by_cases hhash : h = e.payloadHash
    · simp only [hlookup, if_pos hhash, Prod.mk.injEq] at htx
      exact .inl htx.1.symm
    · simp [hlookup, hhash] at htx
  | none =>
    simp only [hlookup, Prod.mk.injEq] at htx
    obtain ⟨rfl, -, -⟩ := htx
    exact .inr ⟨_, rfl, rfl, rfl, rfl⟩

lemma appendSystemInTx_eq_ok (h : s.appendSystemInTx hash env = .ok s') :
    env.validate = [] ∧ ∃ payload res, env.marshal = some payload ∧
      s.appendInTx env payload (hash payload) = (s', res, none) := by
  unfold Store.appendSystemInTx at h
  by_cases hvalid : env.validate = []
  · refine ⟨hvalid, ?_⟩
    rw [if_neg (not_not_intro hvalid)] at h
    cases hm : env.marshal with
    | none => simp [hm] at h
    | some payload =>
      simp only [hm] at h
      generalize htx : s.appendInTx env payload (hash payload) = r at h
      obtain ⟨t, res, _ | err⟩ := r
      · obtain rfl : t = s' := by simpa using h
        exact ⟨payload, res, rfl, htx⟩
      · simp at h
  · simp [hvalid] at h

lemma AllReadable.appendSystemInTx (hs : s.AllReadable conv) (henv : env.Readable conv)
    (h : s.appendSystemInTx hash env = .ok s') :
    s'.AllReadable conv := by
  obtain ⟨hvalid, payload, res, hm, htx⟩ := appendSystemInTx_eq_ok hash h
  rcases appendInTx_events htx with rfl | ⟨row, hrow, hpayload, -⟩
  · exact hs
  · refine hs.of_row hrow ?_
    rw [hpayload]
    exact Envelope.parse_marshal hm (Envelope.validate_eq_nil.1 hvalid).schemaVersion henv

/-! ### The store's own envelopes -/

/-- A value that can stand in `data`: not nested too deep, with numbers in range. -/
def Legible (conv : FloatText) (j : Json) : Prop :=
  j.depth + 1 < maxNestingDepth ∧ j.inRange conv = true

lemma legible_str (s : Bytes) : Legible conv (.str s) :=
  ⟨show 0 + 1 < maxNestingDepth by decide, rfl⟩

omit [DecidableEq H] in
lemma readable_systemEnvelope (s : Store H) (kind sensor : Bytes) (quality : Quality)
    {data : List (Bytes × Json)} (hdata : ∀ m ∈ data, Legible conv m.2) (hnow : now.FourDigitYear) :
    (s.systemEnvelope kind sensor quality (mkMap data) now).Readable conv where
  hostReceivedAt := hnow
  guestWallAt := by simp [systemEnvelope, Envelope.zero]
  depth := by
    intro ms hms
    obtain rfl : mkMap data = ms := by simpa [systemEnvelope] using hms
    have hdepth : (Json.obj (mkMap data)).depth ≤ (maxNestingDepth - 2) + 1 :=
      Json.depth_obj_le.2 fun m hm => by have := (hdata m (Json.mem_mkMap hm)).1; omega
    exact lt_of_le_of_lt hdepth (by decide)
  inRange := by
    intro ms hms
    obtain rfl : mkMap data = ms := by simpa [systemEnvelope] using hms
    exact Json.allNums_obj.2 fun m hm => (hdata m (Json.mem_mkMap hm)).2

lemma legible_healthOf {res : AppendResult} {err : AppendError} {kind : Bytes}
    {data : List (Bytes × Json)} (h : healthOf env res err = some (kind, data)) :
    ∀ m ∈ data, Legible conv m.2 := by
  cases err <;> simp only [healthOf, Option.some.injEq, Prod.mk.injEq, reduceCtorEq] at h
  all_goals
    obtain ⟨-, rfl⟩ := h
    simp [legible_str]

/-- An append keeps the rows readable when its envelope is, whether or not a health event goes
with it. -/
lemma AllReadable.append (hs : s.AllReadable conv) {c : Call} (henv : c.env.Readable conv)
    (hnow : c.now.FourDigitYear) : (s.append hash c).1.AllReadable conv := by
  have hp := hs.appendPlain hash c.dbOk henv
  unfold Store.append
  cases hcall : s.appendPlain hash c.dbOk c.env with
  | mk s' r =>
    rw [hcall] at hp
    obtain ⟨res, _ | err⟩ := r
    · exact hp
    cases hhealth : healthOf c.env res err with
    | none => simpa [hhealth] using hp
    | some kd =>
      obtain ⟨kind, data⟩ := kd
      have hdata : ∀ m ∈ data, Legible conv m.2 := legible_healthOf hhealth
      have henv' := readable_systemEnvelope s' kind (ascii "store") notApplicableQuality hdata hnow
      have hp' : AllReadable conv { s' with systemSeq := addInt64 s'.systemSeq } := hp
      simp only [hhealth, withHealth]
      exact hp'.appendPlain hash c.healthDbOk henv'

def IntegersFit (conv : FloatText) : Prop :=
  ∀ i : Int, -2 ^ 63 ≤ i → i < 2 ^ 63 → (conv.float (formatInt i)).isSome = true

lemma IntegersFit.legible (hfit : IntegersFit conv) (i : Int) :
    Legible conv (.num (formatInt (toInt64 i))) := by
  refine ⟨show 0 + 1 < maxNestingDepth by decide, ?_⟩
  have hrange : -2 ^ 63 ≤ toInt64 i ∧ toInt64 i < 2 ^ 63 := by
    unfold toInt64
    omega
  exact hfit _ hrange.1 hrange.2

omit [DecidableEq H] in
lemma readable_rejectionEnvelope (hfit : IntegersFit conv) (s : Store H) (run : Run)
    (submission reason : Bytes) (size : Int) (hnow : now.FourDigitYear) :
    (s.rejectionEnvelope run submission reason (toInt64 size) now).Readable conv := by
  unfold rejectionEnvelope
  refine readable_systemEnvelope s _ _ _ (fun m hm => ?_) hnow
  simp only [mem_cons, not_mem_nil, or_false] at hm
  rcases hm with rfl | rfl | rfl | rfl | rfl
  · exact legible_str _
  · exact legible_str _
  · exact legible_str _
  · exact legible_str _
  · exact hfit.legible _

omit [DecidableEq H] in
lemma readable_progressEnvelope (hfit : IntegersFit conv) (s : Store H) (run : Run)
    {payload : Json} (hpayload : Legible conv payload) (hnow : now.FourDigitYear) :
    (s.progressEnvelope run payload now).Readable conv := by
  have hdata : ∀ m ∈ [(ascii "run_id", Json.str run.runID), (ascii "vm_id", .str run.vmID),
      (ascii "seq", .num (formatInt (toInt64 (run.progressSeq + 1)))),
      (ascii "payload", payload)], Legible conv m.2 := by
    intro m hm
    simp only [mem_cons, not_mem_nil, or_false] at hm
    rcases hm with rfl | rfl | rfl | rfl
    · exact legible_str _
    · exact legible_str _
    · exact hfit.legible _
    · exact hpayload
  have hread := readable_systemEnvelope s (ascii "run.progress") (ascii "registry")
    notApplicableQuality hdata hnow
  exact ⟨hread.hostReceivedAt, hread.guestWallAt, hread.depth, hread.inRange⟩

lemma AllReadable.recordSubmissionRejected (hfit : IntegersFit conv) (hs : s.AllReadable conv)
    (dbOk : Bool) (hnow : now.FourDigitYear) (run : Run) (submission reason : Bytes) (size : Int) :
    (Store.recordSubmissionRejected hash s dbOk now run submission reason
      (toInt64 size)).AllReadable conv := by
  have hspent : AllReadable conv { s with systemSeq := addInt64 s.systemSeq } := hs
  have henv := readable_rejectionEnvelope hfit s run submission reason size hnow
  have h := hspent.appendPlain hash dbOk henv
  unfold Store.recordSubmissionRejected
  exact h

/-- A submission keeps the rows readable when its payload can stand in `data`. -/
lemma AllReadable.submitRunProgress (hfit : IntegersFit conv) {s : Ledger H}
    (hs : s.store.AllReadable conv) {inp : SubmitProgressInput} (hnow : now.FourDigitYear)
    (hpayload : ∀ j, Json.parse maxNestingDepth inp.payload = some j → Legible conv j)
    (dbOk : Bool) : (Store.submitRunProgress hash s inp dbOk now).1.store.AllReadable conv := by
  have hspent : AllReadable conv { s.store with systemSeq := addInt64 s.store.systemSeq } := hs
  have hrejected : ∀ (run : Run) (reason : Bytes),
      AllReadable conv (rejectProgress hash s inp dbOk now run reason).1.store := by
    intro run reason
    have h := hs.recordSubmissionRejected hash hfit dbOk hnow run (ascii "progress") reason
      inp.payload.length
    unfold rejectProgress
    dsimp only
    exact h
  unfold Store.submitRunProgress
  cases hrun : getRun s.runs inp.runID with
  | none => exact hs
  | some run =>
    dsimp only
    split
    · exact hs
    split
    · exact hrejected run _
    cases hparse : Json.parse maxNestingDepth inp.payload with
    | none => exact hrejected run _
    | some payload =>
      dsimp only
      split
      · exact hrejected run _
      have henv := readable_progressEnvelope hfit s.store run (hpayload payload hparse) hnow
      split
      · exact hspent
      · next store' htx =>
        have hstore := hspent.appendSystemInTx hash henv htx
        split
        · exact hstore
        · exact hspent

/-! ## Runs -/

/-- What happens to a store: a call of `Append`, a progress submission, other calls that leave the
runs table as they like, or the process starts again. -/
inductive Ledger.Action where
  | append (c : Call)
  | progress (inp : SubmitProgressInput) (dbOk : Bool) (now : Instant)
  | runs (table : List Run)
  | reopen (instanceID : Bytes)

def Ledger.step (s : Ledger H) : Ledger.Action → Ledger H
  | .append c => { s with store := (s.store.append hash c).1 }
  | .progress inp dbOk now => (submitRunProgress hash s inp dbOk now).1
  | .runs table => { s with runs := table }
  | .reopen instanceID =>
    { s with store := { s.store with instanceID := instanceID, systemSeq := 0 } }

def Ledger.after (s : Ledger H) (as : List Ledger.Action) : Ledger H := as.foldl (step hash) s

def Ledger.new (H : Type) (instanceID : Bytes) : Ledger H := ⟨Store.new H instanceID, []⟩

/-- The condition on one action: the clock and the envelope's times have four-digit years, and the
data of the event, or the payload that becomes a part of it, is not nested too deep and holds
numbers in range. -/
def Ledger.Action.Legible (conv : FloatText) : Ledger.Action → Prop
  | .append c => c.env.Readable conv ∧ c.now.FourDigitYear
  | .progress inp _ now => now.FourDigitYear ∧
      ∀ j, Json.parse maxNestingDepth inp.payload = some j → Store.Legible conv j
  | .runs _ => True
  | .reopen _ => True

def sampleRun : Run :=
  { runID := ascii "33333333-3333-3333-3333-333333333333"
    vmID := ascii "44444444-4444-4444-4444-444444444444"
    criteriaType := .guestResult
    onCompletion := .keepRunning
    progressEvents := true
    phase := .running
    resultStatus := none
    progressSeq := 0 }

end Observatory.Store
