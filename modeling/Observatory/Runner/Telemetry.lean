/-
# The runner's telemetry client

The loop that reads the guest's pushes: it names the stream, stamps an envelope, appends it to
the spool and acknowledges the sequence. A kind the guest may not report is refused with a
health record on the runner's own stream; a sequence at or below the highest one settled is
acknowledged without a record. Connections follow one another on one writer, which other parts
of the runner use as well.
-/
import Observatory.Guest.Push
import Observatory.Spool.Calls
import Observatory.Spool.System

namespace Observatory.Runner

open Lib Events Guest Spool

/-! ## Streams -/

structure Config where
  vmID : Bytes
  bootID : Bytes
  instanceID : Bytes

/-- What the model leaves open: the conversion of numbers and the hash streams are named with. -/
structure Setup where
  cfg : Config
  conv : FloatText
  sha1 : Bytes → { b : Bytes // b.length = 20 }

def telemetrySensor : Bytes := ascii "guestd"

def telemetryPort : Nat := 10001

def telemetryStreamNamespace : Bytes :=
  [0x6F, 0x5C, 0x2A, 0x1E, 0x9B, 0x3D, 0x4F, 0x8A, 0x8C, 0x21, 0x7D, 0x0E, 0x4A, 0x5B, 0x6C, 0x90]

def uuidText (b : Bytes) : Bytes :=
  hexText (b.take 4) ++ 0x2D :: (hexText ((b.drop 4).take 2) ++
    0x2D :: (hexText ((b.drop 6).take 2) ++ 0x2D :: (hexText ((b.drop 8).take 2) ++
      0x2D :: hexText (b.drop 10))))

def telemetryStreamID (P : Setup) (guestEpoch : Bytes) : Bytes :=
  let b := (P.sha1 (telemetryStreamNamespace ++ (P.cfg.instanceID ++ 0 :: guestEpoch))).1.take 16
  uuidText ((b.modify 6 fun x => x &&& 0x0F ||| 0x50).modify 8 fun x => x &&& 0x3F ||| 0x80)

/-- Between one and sixty-four letters, digits, underscores, periods and dashes. -/
def guestEpochPattern (s : Bytes) : Bool :=
  1 ≤ s.length && s.length ≤ 64 && s.all fun b =>
    isDigit b || isLower b || (0x41 ≤ b && b ≤ 0x5A) || b == 0x5F || b == 0x2E || b == 0x2D

/-- What the guest answers a hello with. -/
structure HelloAck where
  accepted : Bool
  telemetryInstanceID : Bytes
  telemetryEpoch : Bytes

/-- The stream of a connection; nothing when the guest does not answer, or not as it must. -/
def telemetryHandshake (P : Setup) (reply : Option HelloAck) : Option Bytes :=
  reply.bind fun ack =>
    if ack.accepted = true ∧ ack.telemetryInstanceID = P.cfg.instanceID ∧
        guestEpochPattern ack.telemetryEpoch = true then
      some (telemetryStreamID P ack.telemetryEpoch)
    else none

/-! ## Envelopes -/

/-- The event of a push, as the runner stamps it. -/
def newGuestEnvelope (cfg : Config) (streamID : Bytes) (push : TelemetryPush)
    (data : Option (List (Bytes × Json))) (now : Instant) : Envelope :=
  { Envelope.zero with
    schemaVersion := 1
    vmID := some cfg.vmID
    bootID := some cfg.bootID
    sourceInstanceID := streamID
    sourceSeq := push.seq
    kind := push.kind
    provenance := .guestReported
    sensor := telemetrySensor
    hostReceivedAt := now
    quality := Store.notApplicableQuality
    guestWallAt := if push.guestWallAt = [] then none else Instant.parse push.guestWallAt
    guestMonotonicNS := if push.guestMonotonicNS = [] then none else some push.guestMonotonicNS
    data := data }

/-- A record of the runner itself. -/
def newEnvelope (cfg : Config) (seq : Nat) (kind : Bytes) (data : List (Bytes × Json))
    (now : Instant) : Envelope :=
  { Envelope.zero with
    schemaVersion := 1
    vmID := some cfg.vmID
    bootID := some cfg.bootID
    sourceInstanceID := cfg.instanceID
    sourceSeq := formatUint seq
    kind := kind
    provenance := .hostObserved
    sensor := ascii "runner"
    hostReceivedAt := now
    quality := Store.notApplicableQuality
    data := some (mkMap data) }

/-- The kind and payload of the record of a refused push: nobody registered the kind, or it is
not for a guest to report. -/
def refusal (streamID : Bytes) (push : TelemetryPush) :
    Option KindInfo → Bytes × List (Bytes × Json)
  | none =>
    (ascii "telemetry.unregistered_kind",
      [(ascii "kind", .str push.kind),
       (ascii "source_instance_id", .str streamID),
       (ascii "source_seq", .str push.seq),
       (ascii "observed_by", .str telemetrySensor)])
  | some info =>
    (ascii "telemetry.integrity_failure",
      [(ascii "failure", .str (ascii "guest_provenance_claim")),
       (ascii "kind", .str push.kind),
       (ascii "registered_as", .str info.provenance.text),
       (ascii "source_instance_id", .str streamID),
       (ascii "source_seq", .str push.seq),
       (ascii "observed_by", .str telemetrySensor)])

/-- The payload of the record of a frame that could not be placed in its stream. -/
def integrityFailure (streamID failure detail : Bytes) : List (Bytes × Json) :=
  [(ascii "failure", .str failure),
   (ascii "detail", .str detail),
   (ascii "stream", .str streamID),
   (ascii "transport", .str (ascii "vsock")),
   (ascii "port", .num (formatUint telemetryPort)),
   (ascii "observed_by", .str telemetrySensor)]

/-! ## State -/

/-- The push the spool refused last, with its envelope. -/
structure RefusedPush where
  streamID : Bytes
  push : TelemetryPush
  env : Envelope

def RefusedPush.reuse (l : RefusedPush) (streamID : Bytes) (push : TelemetryPush) :
    Option Envelope :=
  if l.streamID = streamID ∧ l.push.seq = push.seq ∧ l.push.kind = push.kind ∧
      l.push.guestWallAt = push.guestWallAt ∧
      l.push.guestMonotonicNS = push.guestMonotonicNS ∧
      l.push.data.map RawJson.text = push.data.map RawJson.text then
    some l.env
  else none

/-- An append for a push that returned nil: of its event, or of the record of its refusal. -/
structure Durable where
  streamID : Bytes
  seq : Nat
  refused : Bool
  env : Envelope

/-- The client: the highest sequence settled for each stream, the last refused push, the open
connection and the shared writer and counter; with histories that no step reads: the pushes of
the guest, the appends for pushes that returned nil, the acknowledgements that were sent and
the operations of the writer. -/
structure Client where
  spooled : Bytes → Nat
  lastRefusal : Option RefusedPush
  conn : Option Bytes
  writer : Writer
  seq : Nat
  offered : List (Bytes × Nat)
  durable : List Durable
  acks : List (Bytes × Bytes)
  ops : List FileOp

/-- A client that has not connected yet. -/
def Client.init (writer : Writer) : Client where
  spooled := fun _ => 0
  lastRefusal := none
  conn := none
  writer := writer
  seq := 0
  offered := []
  durable := []
  acks := []
  ops := []

/-- What the surroundings give one frame: the clock, the faults of its append, the text of the
error that is reported and whether the acknowledgement can be written. -/
structure Input where
  now : Instant
  faults : Faults
  detail : Bytes
  ackOk : Bool

namespace Client

/-- Append to the spool; `made` is what a nil result makes durable. -/
def append (s : Client) (t : Faults) (env : Envelope) (made : Option Durable) : Client :=
  let r := s.writer.append t env
  { s with
    writer := r.writer
    durable := if r.err.isNone then s.durable ++ made.toList else s.durable
    ops := s.ops ++ r.ops }

/-- The append goes through. -/
def appends (s : Client) (t : Faults) (env : Envelope) : Bool := (s.writer.append t env).err.isNone

variable (P : Setup)

def nextSeq (s : Client) : Nat := (s.seq + 1) % 2 ^ 64

/-- A record of the runner about the channel; an error of its append is not looked at. -/
def appendTelemetryHealth (s : Client) (i : Input) (kind : Bytes) (data : List (Bytes × Json))
    (made : Option (Bytes × Nat)) : Client :=
  let env := newEnvelope P.cfg s.nextSeq kind data i.now
  let s : Client := { s with seq := s.nextSeq }
  s.append i.faults env (made.map fun p => ⟨p.1, p.2, true, env⟩)

inductive SpoolError where
  | seq
  | notAnObject
  | append

/-- The envelope a push is appended with: the one it was refused with, or a new one. -/
def envelopeFor (s : Client) (i : Input) (streamID : Bytes) (push : TelemetryPush)
    (data : Option (List (Bytes × Json))) : Envelope :=
  (s.lastRefusal.bind fun l => l.reuse streamID push).getD
    (newGuestEnvelope P.cfg streamID push data i.now)

def spoolTelemetryPush (s : Client) (i : Input) (streamID : Bytes) (push : TelemetryPush) :
    Client × Except SpoolError Bytes :=
  match parseUint push.seq with
  | none => (s, .error .seq)
  | some seq =>
    if seq ≤ s.spooled streamID then (s, .ok push.seq)
    else
      let settle (s : Client) : Client :=
        { s with spooled := Function.update s.spooled streamID seq }
      let info := lookupKind push.kind
      if info.map KindInfo.provenance ≠ some .guestReported then
        let r := refusal streamID push info
        (settle (s.appendTelemetryHealth P i r.1 r.2 (some (streamID, seq))), .ok push.seq)
      else
        match (push.data.map RawJson.value).bind (Json.decodeMap P.conv none) with
        | none => (s, .error .notAnObject)
        | some data =>
          let env := s.envelopeFor P i streamID push data
          let s' := s.append i.faults env (some ⟨streamID, seq, false, env⟩)
          if s.appends i.faults env then
            (settle { s' with lastRefusal := none }, .ok push.seq)
          else ({ s' with lastRefusal := some ⟨streamID, push, env⟩ }, .error .append)

/-- The guest pushes: the sequence of a frame that can be read. -/
def offer (s : Client) (streamID data : Bytes) : Client :=
  match decodeTelemetryPush data with
  | .error _ => s
  | .ok push => { s with offered := s.offered ++ ((parseUint push.seq).map fun n => (streamID, n)).toList }

/-- Read one frame of the open connection. Every error ends the connection. -/
def serveFrame (s : Client) (i : Input) (streamID kind data : Bytes) : Client :=
  if kind ≠ ascii "telemetry.push" then
    { s.appendTelemetryHealth P i (ascii "telemetry.integrity_failure")
        (integrityFailure streamID (ascii "unexpected_frame") i.detail) none with conn := none }
  else
    match decodeTelemetryPush data with
    | .error _ =>
      { s.appendTelemetryHealth P i (ascii "telemetry.integrity_failure")
          (integrityFailure streamID (ascii "malformed_push") i.detail) none with conn := none }
    | .ok push =>
      match (s.offer streamID data).spoolTelemetryPush P i streamID push with
      | (s', .error _) => { s' with conn := none }
      | (s', .ok seq) =>
        if i.ackOk then { s' with acks := s'.acks ++ [(streamID, seq)] } else { s' with conn := none }

end Client

/-! ## Steps -/

inductive Action where
  /-- A connection is dialed, with what the guest answers. -/
  | connect (reply : Option HelloAck)
  /-- A frame of the open connection is read. -/
  | frame (kind data : Bytes) (i : Input)
  /-- The guest pushes a frame that is never read. -/
  | lost (streamID data : Bytes)
  | drop
  /-- Another part of the runner appends a record, and takes sequence numbers. -/
  | other (t : Faults) (env : Envelope) (taken : Nat)

def step (P : Setup) (s : Client) : Action → Option Client
  | .connect reply =>
    if s.conn.isNone then some { s with conn := telemetryHandshake P reply } else none
  | .frame kind data i => s.conn.map fun streamID => s.serveFrame P i streamID kind data
  | .lost streamID data => some (s.offer streamID data)
  | .drop => some { s with conn := none }
  | .other t env taken => some { s.append t env none with seq := (s.seq + taken) % 2 ^ 64 }

/-! ## What spooling a push can do -/

variable {P : Setup}

variable (P) in
inductive SpoolCase (s : Client) (i : Input) (streamID : Bytes) (push : TelemetryPush) :
    Client × Except Client.SpoolError Bytes → Prop
  | failed (err) : SpoolCase s i streamID push (s, .error err)
  | again {n} (hseq : parseUint push.seq = some n) (hle : n ≤ s.spooled streamID) :
      SpoolCase s i streamID push (s, .ok push.seq)
  | refused {n} (hseq : parseUint push.seq = some n) (hlt : s.spooled streamID < n)
      (hkind : (lookupKind push.kind).map KindInfo.provenance ≠ some .guestReported) :
      SpoolCase s i streamID push
        ({ s.appendTelemetryHealth P i (refusal streamID push (lookupKind push.kind)).1
            (refusal streamID push (lookupKind push.kind)).2 (some (streamID, n)) with
            spooled := Function.update s.spooled streamID n }, .ok push.seq)
  | spooled {n data} (hseq : parseUint push.seq = some n) (hlt : s.spooled streamID < n)
      (hkind : (lookupKind push.kind).map KindInfo.provenance = some .guestReported)
      (hdata : (push.data.map RawJson.value).bind (Json.decodeMap P.conv none) = some data)
      (hok : s.appends i.faults (s.envelopeFor P i streamID push data) = true) :
      SpoolCase s i streamID push
        ({ s.append i.faults (s.envelopeFor P i streamID push data)
            (some ⟨streamID, n, false, s.envelopeFor P i streamID push data⟩) with
            lastRefusal := none, spooled := Function.update s.spooled streamID n }, .ok push.seq)
  | remembered {n data} (hseq : parseUint push.seq = some n)
      (hkind : (lookupKind push.kind).map KindInfo.provenance = some .guestReported)
      (hdata : (push.data.map RawJson.value).bind (Json.decodeMap P.conv none) = some data)
      (hok : s.appends i.faults (s.envelopeFor P i streamID push data) = false) :
      SpoolCase s i streamID push
        ({ s.append i.faults (s.envelopeFor P i streamID push data)
            (some ⟨streamID, n, false, s.envelopeFor P i streamID push data⟩) with
            lastRefusal := some ⟨streamID, push, s.envelopeFor P i streamID push data⟩ },
          .error .append)

lemma Client.spoolTelemetryPush_cases (s : Client) (i : Input) (streamID : Bytes)
    (push : TelemetryPush) :
    SpoolCase P s i streamID push (s.spoolTelemetryPush P i streamID push) := by
  unfold spoolTelemetryPush
  cases hseq : parseUint push.seq with
  | none => exact .failed _
  | some n =>
    dsimp only
    by_cases hle : n ≤ s.spooled streamID
    · rw [if_pos hle]
      exact .again hseq hle
    rw [if_neg hle]
    by_cases hkind : (lookupKind push.kind).map KindInfo.provenance ≠ some .guestReported
    · rw [if_pos hkind]
      exact .refused hseq (Nat.lt_of_not_le hle) hkind
    rw [if_neg hkind]
    cases hdata : (push.data.map RawJson.value).bind (Json.decodeMap P.conv none) with
    | none => exact .failed _
    | some data =>
      dsimp only
      by_cases hok : s.appends i.faults (s.envelopeFor P i streamID push data) = true
      · rw [if_pos (by exact hok)]
        exact .spooled hseq (Nat.lt_of_not_le hle) (not_not.1 hkind) hdata hok
      · rw [if_neg (by exact hok)]
        exact .remembered hseq (not_not.1 hkind) hdata (by simpa using hok)

/-- A small instance, for runs that are evaluated. -/
def demo : Setup where
  cfg := ⟨ascii "11111111-1111-1111-1111-111111111111", ascii "22222222-2222-2222-2222-222222222222",
    ascii "33333333-3333-3333-3333-333333333333"⟩
  conv := .smallNumerals
  sha1 _ := ⟨List.replicate 20 0, rfl⟩

def demoWriter : Writer := ((Writer.fresh demoCfg 0 demoTime).createSegment .ok).writer

def demoStream : Bytes := telemetryStreamID demo (ascii "epoch")

def greeting : Action :=
  .connect (some ⟨true, ascii "33333333-3333-3333-3333-333333333333", ascii "epoch"⟩)

end Observatory.Runner
