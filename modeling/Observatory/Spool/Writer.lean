/-
# The spool writer

`Writer.append` and `Writer.close` with every failure they meet: measuring the spool, building
the loss record, creating a segment, a write or an fsync. What the outside does during a call
is a `Faults` record, so that one call is a function; its effects on the spool directory are
returned as file operations. A call also says which frames it made durable.
-/
import Observatory.Lib.Machine
import Observatory.Spool.Segment

namespace Observatory.Spool

open Lib Events

/-! ## Outages -/

/-- An interval in which the writer refused records. -/
structure Outage where
  since : Instant
  untilAt : Instant
  cause : Bytes
  runnerRecordsRefused : Nat
  guestPushesRefused : Nat

def maxCauseRunes : Nat := 512

def maxUint64 : Nat := 2 ^ 64 - 1

def boundRunes (s : Bytes) (n : Nat) : Bytes := ((runes s).take n).flatMap Rune.bytes

/-- The payload of the loss record of an outage. -/
def Outage.data (o : Outage) : List (Bytes × Json) :=
  mkMap
    [(ascii "cause", .str o.cause),
     (ascii "interval_start", .str o.since.format),
     (ascii "interval_end", .str o.untilAt.format),
     (ascii "runner_records_refused", .str (formatUint o.runnerRecordsRefused)),
     (ascii "guest_pushes_refused", .str (formatUint o.guestPushesRefused)),
     (ascii "guest_events_lost",
       .str (if 0 < o.guestPushesRefused then ascii "unknown" else ascii "0"))]

/-- A counter that stays at its largest value. -/
def saturate (n : Nat) : Nat := if n < maxUint64 then n + 1 else n

def Outage.count (o : Outage) (env : Envelope) : Outage :=
  if env.provenance = .guestReported then
    { o with guestPushesRefused := saturate o.guestPushesRefused }
  else { o with runnerRecordsRefused := saturate o.runnerRecordsRefused }

/-! ## The writer and its surroundings -/

structure WriterCfg where
  vmID : Bytes
  instanceID : Bytes
  maxSegmentBytes : Int
  maxSpoolBytes : Int

def defaultMaxSpoolBytes : Int := 512 * 2 ^ 20

/-- Here `segIdx` is the index of the latest segment create attempted, `current` the index of the
segment the writer holds open; a failed advance lets the first run ahead. -/
structure Writer where
  cfg : WriterCfg
  maxSpool : Int
  segIdx : Nat
  current : Nat
  segBytes : Nat
  damaged : Bool
  outage : Option Outage
  closed : Bool
  healthySince : Instant
  lastRefusal : Bytes

/-- The writer's health as its status file reports it. -/
structure WriterHealth where
  state : Bytes
  since : Bytes
  cause : Bytes
  lastError : Bytes
  runnerRecordsRefused : Bytes
  guestPushesRefused : Bytes
  updatedAt : Bytes
  instanceID : Bytes

/-- An operation on the spool directory that took effect. -/
inductive FileOp where
  | create (idx : Nat)
  | write (idx : Nat) (bytes : Bytes)
  | truncate (idx : Nat) (size : Nat)
  | writeAt (idx : Nat) (offset : Nat) (bytes : Bytes)
  | remove (idx : Nat)
  | status (h : WriterHealth)

/-- A write and its fsync. A failed write may leave some bytes behind. -/
inductive WriteOutcome where
  | ok
  | writeError (written : Nat) (err : Bytes)
  | syncError (err : Bytes)
deriving DecidableEq

/-- The step a segment create fails at after the file exists. -/
inductive CreateStage where
  | writeHeader (written : Nat)
  | syncFile
  | syncDir

/-- A creation that `failed` tells whether the best-effort removal of the new file worked. -/
inductive CreateOutcome where
  | ok
  | openError (err : Bytes)
  | failed (stage : CreateStage) (removed : Bool) (err : Bytes)

inductive RetireOutcome where
  | ok
  | trimError (err : Bytes)
  | markerError (written : Nat) (err : Bytes)
  | syncError (err : Bytes)
  | closeError (err : Bytes)
deriving DecidableEq

/-- What the surroundings do during one call: the measured size of the spool, the loss record
builder, the outcome of each file operation the call may make, whether a best-effort trim
worked, and the clock readings. -/
structure Faults where
  total : Except Bytes Int
  lossRecord : Outage → Option Envelope
  create : CreateOutcome
  retire : RetireOutcome
  loss : WriteOutcome
  record : WriteOutcome
  closeRetire : RetireOutcome
  trimmed : Bool
  refusedAt : Instant
  lossAt : Instant
  healthyAt : Instant
  updatedAt : Instant

/-- Surroundings in which everything works and the spool holds `total` bytes. -/
def quiet (total : Int) (lossRecord : Outage → Option Envelope) : Faults where
  total := .ok total
  lossRecord := lossRecord
  create := .ok
  retire := .ok
  loss := .ok
  record := .ok
  closeRetire := .ok
  trimmed := true
  refusedAt := ⟨0, 0, Instant.zero_nsec_lt⟩
  lossAt := ⟨0, 0, Instant.zero_nsec_lt⟩
  healthyAt := ⟨0, 0, Instant.zero_nsec_lt⟩
  updatedAt := ⟨0, 0, Instant.zero_nsec_lt⟩

/-- A frame that was written and fsynced. -/
inductive Frame where
  | record (env : Envelope)
  | loss (o : Outage)

/-- What part of a call did: the writer after it, the file operations, the frames made durable
and the error that stopped it. -/
structure Effect where
  writer : Writer
  ops : List FileOp
  frames : List Frame
  err : Option Bytes

namespace Effect

/-- Go on unless an error stopped the call. -/
def andThen (e : Effect) (k : Writer → Effect) : Effect :=
  match e.err with
  | some _ => e
  | none =>
    { writer := (k e.writer).writer
      ops := e.ops ++ (k e.writer).ops
      frames := e.frames ++ (k e.writer).frames
      err := (k e.writer).err }

end Effect

namespace Writer

/-- The status the writer publishes: failing while an outage is open. -/
def health (w : Writer) (updatedAt : Instant) : WriterHealth :=
  match w.outage with
  | none =>
    { state := ascii "healthy"
      since := w.healthySince.format
      cause := []
      lastError := []
      runnerRecordsRefused := ascii "0"
      guestPushesRefused := ascii "0"
      updatedAt := updatedAt.format
      instanceID := w.cfg.instanceID }
  | some o =>
    { state := ascii "failing"
      since := o.since.format
      cause := o.cause
      lastError := w.lastRefusal
      runnerRecordsRefused := formatUint o.runnerRecordsRefused
      guestPushesRefused := formatUint o.guestPushesRefused
      updatedAt := updatedAt.format
      instanceID := w.cfg.instanceID }

/-! ## Segments -/

def createOps (cfg : WriterCfg) (idx : Nat) : CreateOutcome → List FileOp × Option Bytes
  | .ok => ([.create idx, .write idx (headerLine cfg.vmID cfg.instanceID)], none)
  | .openError err => ([], some (ascii "spool: create segment " ++ segmentName idx ++ ascii ": " ++ err))
  | .failed stage removed err =>
    let discard : List FileOp := if removed then [.remove idx] else []
    let line := headerLine cfg.vmID cfg.instanceID
    match stage with
    | .writeHeader n =>
      ([.create idx, .write idx (line.take n)] ++ discard,
        some (ascii "spool: write segment header: " ++ err))
    | .syncFile =>
      ([.create idx, .write idx line] ++ discard,
        some (ascii "spool: fsync new segment: " ++ err))
    | .syncDir =>
      ([.create idx, .write idx line] ++ discard,
        some (ascii "spool: fsync spool dir: " ++ err))

/-- Create the segment at `segIdx`; it becomes the current one only on success. -/
def createSegment (w : Writer) (o : CreateOutcome) : Effect :=
  if maxSegmentIndex < w.segIdx then
    ⟨w, [], [], some (ascii "spool: segment index " ++ formatUint w.segIdx ++
      ascii " exceeds the 16-digit name space")⟩
  else
    match createOps w.cfg w.segIdx o with
    | (ops, some err) => ⟨w, ops, [], some err⟩
    | (ops, none) =>
      ⟨{ w with
          current := w.segIdx
          segBytes := (headerLine w.cfg.vmID w.cfg.instanceID).length }, ops, [], none⟩

/-- End a segment at `size`: trim, write the end marker there, fsync, close. -/
def retireSegment (idx size : Nat) : RetireOutcome → List FileOp × Option Bytes
  | .ok => ([.truncate idx size, .writeAt idx size (putUint32 endMarker)], none)
  | .trimError err => ([], some (ascii "spool: trim segment before end marker: " ++ err))
  | .markerError n err =>
    ([.truncate idx size, .writeAt idx size ((putUint32 endMarker).take n)],
      some (ascii "spool: write end marker: " ++ err))
  | .syncError err =>
    ([.truncate idx size, .writeAt idx size (putUint32 endMarker)],
      some (ascii "spool: fsync end marker: " ++ err))
  | .closeError err =>
    ([.truncate idx size, .writeAt idx size (putUint32 endMarker)], some err)

/-- The best-effort trim of an abandoned segment. -/
def damageOps (w : Writer) (trimmed : Bool) : List FileOp :=
  if trimmed then [.truncate w.current w.segBytes] else []

/-- Move to a new segment and retire the current one. The index is burnt before the create,
and a failed create condemns the current segment. -/
def advance (w : Writer) (t : Faults) : Effect :=
  let e := createSegment { w with segIdx := w.segIdx + 1 } t.create
  match e.err with
  | some err =>
    ⟨{ e.writer with damaged := true }, e.ops ++ w.damageOps t.trimmed, [], some err⟩
  | none =>
    ⟨{ e.writer with damaged := false },
      e.ops ++ (retireSegment w.current w.segBytes t.retire).1, [], none⟩

/-- Move to a new segment when the current one is damaged or has no room for `n` bytes. -/
def makeRoom (w : Writer) (t : Faults) (n : Nat) : Effect :=
  if w.damaged = true ∨ w.cfg.maxSegmentBytes < w.segBytes + n then w.advance t
  else ⟨w, [], [], none⟩

/-- Append one frame to the current segment and fsync it. -/
def writeFrame (w : Writer) (frame : Bytes) (what : Bytes) (d : Frame) (o : WriteOutcome)
    (trimmed : Bool) : Effect :=
  match o with
  | .ok => ⟨{ w with segBytes := w.segBytes + frame.length }, [.write w.current frame], [d], none⟩
  | .writeError n err =>
    ⟨{ w with damaged := true }, [.write w.current (frame.take n)] ++ w.damageOps trimmed, [],
      some (ascii "spool: write " ++ what ++ ascii ": " ++ err)⟩
  | .syncError err =>
    ⟨{ w with damaged := true }, [.write w.current frame] ++ w.damageOps trimmed, [],
      some (ascii "spool: fsync after " ++ what ++ ascii ": " ++ err)⟩

/-! ## Loss records -/

def lossFrame (o : Outage) (t : Faults) : Except Bytes (Outage × Bytes) :=
  let o := { o with untilAt := t.lossAt }
  match t.lossRecord o with
  | none => .error (ascii "spool: LossRecord returned nil")
  | some env =>
    match env.marshal with
    | none => .error (ascii "spool: marshal loss record")
    | some body =>
      if maxRecordBytes < body.length then
        .error (ascii "spool: loss record body " ++ formatUint body.length ++
          ascii " bytes exceeds 256 KiB frame limit")
      else .ok (o, encodeFrame body)

/-- Write the loss frame of the open outage; once it is durable the outage is closed. -/
def writeLoss (w : Writer) (t : Faults) (o : Outage) (loss : Bytes) : Effect :=
  (w.writeFrame loss (ascii "loss record") (.loss o) t.loss t.trimmed).andThen fun w =>
    let w := { w with outage := none, healthySince := t.healthyAt }
    ⟨w, [.status (w.health t.updatedAt)], [], none⟩

/-- The loss frame an append has to write first, if an outage is open. -/
def pendingLoss (w : Writer) (t : Faults) : Except Bytes (Option (Outage × Bytes)) :=
  match w.outage with
  | none => .ok none
  | some o => (lossFrame o t).map some

def writePending (w : Writer) (t : Faults) (loss : Option (Outage × Bytes)) (n : Nat) : Effect :=
  match loss with
  | none => w.makeRoom t n
  | some (o, frame) => (w.makeRoom t (frame.length + n)).andThen fun w => w.writeLoss t o frame

/-! ## Calls -/

/-- Why an append did not return nil. The first three reject a record for its own content or
come after a close; only the last is a refusal. -/
inductive AppendError where
  | closed
  | marshal
  | tooLarge (len : Nat)
  | refused (err : Bytes)

/-- What a call did and returned. -/
structure AppendResult where
  writer : Writer
  ops : List FileOp
  frames : List Frame
  err : Option AppendError

/-- The text of the error a full spool refuses with. -/
def errSpoolFull : Bytes := ascii "spool: spool full"

/-- Count a failed append in the open outage, opening one when none is open. -/
def refuse (w : Writer) (t : Faults) (env : Envelope) (err : Bytes) : Writer :=
  let msg := boundRunes err maxCauseRunes
  let o := w.outage.getD ⟨t.refusedAt, ⟨0, 0, Instant.zero_nsec_lt⟩, msg, 0, 0⟩
  { w with outage := some (o.count env), lastRefusal := msg }

/-- What an append returns after the part `e` of it stopped with an error or went through. -/
def finish (e : Effect) (t : Faults) (env : Envelope) : AppendResult :=
  match e.err with
  | some err =>
    let w := e.writer.refuse t env err
    ⟨w, e.ops ++ [.status (w.health t.updatedAt)], e.frames, some (.refused err)⟩
  | none => ⟨e.writer, e.ops, e.frames, none⟩

/-- Everything an append does once the record has its frame. -/
def attempt (w : Writer) (t : Faults) (env : Envelope) (rec : Bytes) : Effect :=
  match t.total with
  | .error err => ⟨w, [], [], some (ascii "spool: measure spool size: " ++ err)⟩
  | .ok totalNow =>
    if w.maxSpool < totalNow + rec.length then ⟨w, [], [], some errSpoolFull⟩
    else
      match w.pendingLoss t with
      | .error err => ⟨w, [], [], some err⟩
      | .ok loss =>
        (w.writePending t loss rec.length).andThen fun w =>
          w.writeFrame rec (ascii "record") (.record env) t.record t.trimmed

def append (w : Writer) (t : Faults) (env : Envelope) : AppendResult :=
  if w.closed then ⟨w, [], [], some .closed⟩
  else
    match env.marshal with
    | none => ⟨w, [], [], some .marshal⟩
    | some body =>
      if maxRecordBytes < body.length then ⟨w, [], [], some (.tooLarge body.length)⟩
      else finish (w.attempt t env (encodeFrame body)) t env

/-- Write the open outage's loss frame on its own. -/
def recordOutage (w : Writer) (t : Faults) : Effect :=
  match w.pendingLoss t with
  | .error err => ⟨w, [], [], some err⟩
  | .ok loss => w.writePending t loss 0

def lostError (o : Outage) (recordErr : Bytes) : Bytes :=
  ascii "spool: loss since " ++ o.since.format ++ ascii " not durably recorded: " ++
  formatUint o.runnerRecordsRefused ++ ascii " runner records and " ++
  formatUint o.guestPushesRefused ++ ascii " guest pushes refused; first cause: " ++ o.cause ++
  ascii "; recording it failed: " ++ recordErr

/-- Record an open outage when it can be recorded, then retire the current segment. -/
def close (w : Writer) (t : Faults) : Effect :=
  if w.closed then ⟨w, [], [], none⟩
  else
    let w := { w with closed := true }
    let e : Effect := if w.outage.isSome then w.recordOutage t else ⟨w, [], [], none⟩
    let r := retireSegment e.writer.current e.writer.segBytes t.closeRetire
    ⟨e.writer, e.ops ++ r.1 ++ [.status (e.writer.health t.updatedAt)], e.frames,
      match e.writer.outage with
      | none => r.2
      | some o =>
        let lost := lostError o (e.err.getD [])
        some (r.2.elim lost fun retireErr => lost ++ ascii "\n" ++ retireErr)⟩

/-- A writer that is about to create the segment `idx`. -/
def fresh (cfg : WriterCfg) (idx : Nat) (now : Instant) : Writer where
  cfg := cfg
  maxSpool := if cfg.maxSpoolBytes = 0 then defaultMaxSpoolBytes else cfg.maxSpoolBytes
  segIdx := idx
  current := idx
  segBytes := 0
  damaged := false
  outage := none
  closed := false
  healthySince := now
  lastRefusal := []

/-- A writer on the fresh segment `idx`, or nothing when that cannot be created. -/
def openWriter (cfg : WriterCfg) (idx : Nat) (o : CreateOutcome) (now : Instant) :
    Option Writer × List FileOp :=
  if cfg.maxSegmentBytes ≤ 0 then (none, [])
  else
    let e := (fresh cfg idx now).createSegment o
    match e.err with
    | some _ => (none, e.ops)
    | none => (some e.writer, e.ops ++ [.status (e.writer.health now)])

/-! ## What a call does to the outage -/

lemma createSegment_spec (w : Writer) (o : CreateOutcome) :
    (w.createSegment o).frames = [] ∧ (w.createSegment o).writer.outage = w.outage := by
  unfold createSegment
  split
  · exact ⟨rfl, rfl⟩
  · split <;> exact ⟨rfl, rfl⟩

lemma advance_spec (w : Writer) (t : Faults) :
    (w.advance t).frames = [] ∧ (w.advance t).writer.outage = w.outage := by
  have h := createSegment_spec { w with segIdx := w.segIdx + 1 } t.create
  unfold advance
  dsimp only
  split <;> exact ⟨rfl, h.2⟩

lemma makeRoom_spec (w : Writer) (t : Faults) (n : Nat) :
    (w.makeRoom t n).frames = [] ∧ (w.makeRoom t n).writer.outage = w.outage := by
  unfold makeRoom
  split
  · exact w.advance_spec t
  · exact ⟨rfl, rfl⟩

/-- A frame is durable exactly when nothing went wrong with it. -/
lemma writeFrame_spec (w : Writer) (frame what : Bytes) (d : Frame) (o : WriteOutcome)
    (trimmed : Bool) : (w.writeFrame frame what d o trimmed).writer.outage = w.outage ∧
    ((w.writeFrame frame what d o trimmed).err = none ∧
        (w.writeFrame frame what d o trimmed).frames = [d] ∨
      (w.writeFrame frame what d o trimmed).err ≠ none ∧
        (w.writeFrame frame what d o trimmed).frames = []) := by
  cases o <;> simp [writeFrame]

lemma pendingLoss_ok {w : Writer} {t : Faults} {loss : Option (Outage × Bytes)}
    (h : w.pendingLoss t = .ok loss) :
    loss = none ∧ w.outage = none ∨
      ∃ o frame, w.outage = some o ∧ loss = some ({ o with untilAt := t.lossAt }, frame) := by
  unfold pendingLoss at h
  split at h
  · next ho =>
    obtain rfl : none = loss := by simpa using h
    exact .inl ⟨rfl, ho⟩
  · next o ho =>
    refine .inr ⟨o, ?_⟩
    unfold lossFrame at h
    dsimp only at h
    split at h
    · cases h
    split at h
    · cases h
    split at h
    · cases h
    · next body _ _ =>
      refine ⟨encodeFrame body, ho, ?_⟩
      simpa [Except.map] using h.symm

/-- What writing the pending loss does: nothing to the account when there is none; otherwise
the loss is durable and the outage closed, or it failed and the outage stands. -/
lemma writePending_spec (w : Writer) (t : Faults) (loss : Option (Outage × Bytes)) (n : Nat) :
    (loss = none → (w.writePending t loss n).frames = [] ∧
        (w.writePending t loss n).writer.outage = w.outage) ∧
    ∀ o frame, loss = some (o, frame) →
      ((w.writePending t loss n).err = none ∧ (w.writePending t loss n).frames = [.loss o] ∧
          (w.writePending t loss n).writer.outage = none ∨
        (w.writePending t loss n).err ≠ none ∧ (w.writePending t loss n).frames = [] ∧
          (w.writePending t loss n).writer.outage = w.outage) := by
  constructor
  · rintro rfl
    exact w.makeRoom_spec t n
  · rintro o frame rfl
    simp only [writePending, writeLoss, Effect.andThen]
    obtain ⟨hf, ho⟩ := w.makeRoom_spec t (frame.length + n)
    split
    · next err herr => exact .inr ⟨by rw [herr]; simp, hf, ho⟩
    · next herr =>
      have hw := writeFrame_spec (w.makeRoom t (frame.length + n)).writer frame
        (ascii "loss record") (.loss o) t.loss t.trimmed
      rcases hw with ⟨hout, ⟨he, hfr⟩ | ⟨he, hfr⟩⟩
      · left
        simp only [he, hf, hfr, List.nil_append, List.append_nil, and_self]
      · right
        obtain ⟨err, herr⟩ := Option.ne_none_iff_exists'.1 he
        simp only [herr, hf, hfr, hout, ho, List.nil_append, ne_eq, reduceCtorEq,
          not_false_eq_true, and_self]

end Writer

end Observatory.Spool
