/-
# The event envelope and its JSON text

The normalised event record of version 1: its fields, the text `marshal` writes for it and the
envelope `unmarshal` reads from a text. Optional scopes are pointers in the source and
`Option`s here; `data` is a map that may be nil. The main result says what an envelope that
went through its text looks like.
-/
import Observatory.Lib.JsonDecode

namespace Observatory.Events

open Lib List Json

/-! ## Fields -/

/-- Where evidence came from. The wire carries any text here. -/
inductive Provenance where
  | hostObserved
  | guestReported
  | derived
  | other (s : Bytes)
deriving DecidableEq

namespace Provenance

def text : Provenance → Bytes
  | .hostObserved => ascii "host_observed"
  | .guestReported => ascii "guest_reported"
  | .derived => ascii "derived"
  | .other s => s

def ofText (s : Bytes) : Provenance :=
  if s = ascii "host_observed" then .hostObserved
  else if s = ascii "guest_reported" then .guestReported
  else if s = ascii "derived" then .derived
  else .other s

end Provenance

/-- How a path in event data was established. -/
inductive PathResolution where
  | exactAtCapture
  | inferred
  | unresolved
  | notApplicable
  | other (s : Bytes)
deriving DecidableEq

namespace PathResolution

def text : PathResolution → Bytes
  | .exactAtCapture => ascii "exact_at_capture"
  | .inferred => ascii "inferred"
  | .unresolved => ascii "unresolved"
  | .notApplicable => ascii "not_applicable"
  | .other s => s

def ofText (s : Bytes) : PathResolution :=
  if s = ascii "exact_at_capture" then .exactAtCapture
  else if s = ascii "inferred" then .inferred
  else if s = ascii "unresolved" then .unresolved
  else if s = ascii "not_applicable" then .notApplicable
  else .other s

end PathResolution

/-- How confidently an event is tied to a process identity. -/
inductive Attribution where
  | exact
  | inferred
  | unknown
  | notApplicable
  | other (s : Bytes)
deriving DecidableEq

namespace Attribution

def text : Attribution → Bytes
  | .exact => ascii "exact"
  | .inferred => ascii "inferred"
  | .unknown => ascii "unknown"
  | .notApplicable => ascii "not_applicable"
  | .other s => s

def ofText (s : Bytes) : Attribution :=
  if s = ascii "exact" then .exact
  else if s = ascii "inferred" then .inferred
  else if s = ascii "unknown" then .unknown
  else if s = ascii "not_applicable" then .notApplicable
  else .other s

end Attribution

/-- The honesty flags every event states. -/
structure Quality where
  pathResolution : PathResolution
  attribution : Attribution
  truncated : Bool
  redacted : Bool
  redactionPolicyID : Bytes
  notes : List Bytes

/-- The zero value a decoder starts from. -/
def Quality.zero : Quality where
  pathResolution := .other []
  attribution := .other []
  truncated := false
  redacted := false
  redactionPolicyID := []
  notes := []

/-- The host-normalised event record. -/
structure Envelope where
  schemaVersion : Int
  eventID : Option Bytes
  vmID : Option Bytes
  bootID : Option Bytes
  sourceInstanceID : Bytes
  sourceSeq : Bytes
  kind : Bytes
  provenance : Provenance
  sensor : Bytes
  hostReceivedAt : Instant
  hostBootID : Bytes
  hostMonotonicNS : Bytes
  guestWallAt : Option Instant
  guestMonotonicNS : Option Bytes
  processKey : Option Bytes
  runID : Option Bytes
  relatedEventIDs : List Bytes
  quality : Quality
  data : Option (List (Bytes × Json))

/-- The zero value a decoder starts from. -/
def Envelope.zero : Envelope where
  schemaVersion := 0
  eventID := none
  vmID := none
  bootID := none
  sourceInstanceID := []
  sourceSeq := []
  kind := []
  provenance := .other []
  sensor := []
  hostReceivedAt := ⟨0, 0, Instant.zero_nsec_lt⟩
  hostBootID := []
  hostMonotonicNS := []
  guestWallAt := none
  guestMonotonicNS := none
  processKey := none
  runID := none
  relatedEventIDs := []
  quality := Quality.zero
  data := none

inductive Quality.Field where
  | pathResolution | attribution | truncated | redacted | redactionPolicyID | notes
deriving DecidableEq

inductive Envelope.Field where
  | schemaVersion | eventID | vmID | bootID | sourceInstanceID | sourceSeq | kind | provenance
  | sensor | hostReceivedAt | hostBootID | hostMonotonicNS | guestWallAt | guestMonotonicNS
  | processKey | runID | relatedEventIDs | quality | data
deriving DecidableEq

def Quality.Field.name : Quality.Field → Bytes
  | .pathResolution => ascii "path_resolution"
  | .attribution => ascii "attribution"
  | .truncated => ascii "truncated"
  | .redacted => ascii "redacted"
  | .redactionPolicyID => ascii "redaction_policy_id"
  | .notes => ascii "notes"

def Envelope.Field.name : Envelope.Field → Bytes
  | .schemaVersion => ascii "schema_version"
  | .eventID => ascii "event_id"
  | .vmID => ascii "vm_id"
  | .bootID => ascii "boot_id"
  | .sourceInstanceID => ascii "source_instance_id"
  | .sourceSeq => ascii "source_seq"
  | .kind => ascii "kind"
  | .provenance => ascii "provenance"
  | .sensor => ascii "sensor"
  | .hostReceivedAt => ascii "host_received_at"
  | .hostBootID => ascii "host_boot_id"
  | .hostMonotonicNS => ascii "host_monotonic_ns"
  | .guestWallAt => ascii "guest_wall_at"
  | .guestMonotonicNS => ascii "guest_monotonic_ns"
  | .processKey => ascii "process_key"
  | .runID => ascii "run_id"
  | .relatedEventIDs => ascii "related_event_ids"
  | .quality => ascii "quality"
  | .data => ascii "data"

def Quality.fields : List (Bytes × Quality.Field) :=
  [Field.pathResolution, .attribution, .truncated, .redacted, .redactionPolicyID, .notes].map
    fun f => (f.name, f)

/-- The fields in the order they are declared and written. -/
def Envelope.Field.all : List Envelope.Field :=
  [.schemaVersion, .eventID, .vmID, .bootID, .sourceInstanceID, .sourceSeq, .kind, .provenance,
    .sensor, .hostReceivedAt, .hostBootID, .hostMonotonicNS, .guestWallAt, .guestMonotonicNS,
    .processKey, .runID, .relatedEventIDs, .quality, .data]

def Envelope.fields : List (Bytes × Envelope.Field) := Field.all.map fun f => (f.name, f)

/-! ## Writing -/

/-- A member that is left out when there is nothing to say. -/
def optMember (name : Bytes) : Option Json → List (Bytes × Json)
  | none => []
  | some j => [(name, j)]

/-- A text that is left out when it is empty. -/
def textMember (name s : Bytes) : List (Bytes × Json) :=
  if s = [] then [] else [(name, .str s)]

def textsMember (name : Bytes) (ss : List Bytes) : List (Bytes × Json) :=
  if ss = [] then [] else [(name, .arr (ss.map .str))]

/-- A pointer that is written as `null` when it is nil. -/
def nullable : Option Bytes → Json
  | none => .null
  | some s => .str s

def Quality.members (q : Quality) : List (Bytes × Json) :=
  [(Field.pathResolution.name, .str q.pathResolution.text)] ++
  [(Field.attribution.name, .str q.attribution.text)] ++
  [(Field.truncated.name, .bool q.truncated)] ++
  [(Field.redacted.name, .bool q.redacted)] ++
  textMember Field.redactionPolicyID.name q.redactionPolicyID ++
  textsMember Field.notes.name q.notes

def Envelope.member (e : Envelope) (f : Envelope.Field) : List (Bytes × Json) :=
  match f with
  | .schemaVersion => [(f.name, .num (formatInt e.schemaVersion))]
  | .eventID => optMember f.name (e.eventID.map .str)
  | .vmID => [(f.name, nullable e.vmID)]
  | .bootID => [(f.name, nullable e.bootID)]
  | .sourceInstanceID => [(f.name, .str e.sourceInstanceID)]
  | .sourceSeq => [(f.name, .str e.sourceSeq)]
  | .kind => [(f.name, .str e.kind)]
  | .provenance => [(f.name, .str e.provenance.text)]
  | .sensor => [(f.name, .str e.sensor)]
  | .hostReceivedAt => [(f.name, .str e.hostReceivedAt.format)]
  | .hostBootID => textMember f.name e.hostBootID
  | .hostMonotonicNS => textMember f.name e.hostMonotonicNS
  | .guestWallAt => optMember f.name (e.guestWallAt.map fun t => .str t.format)
  | .guestMonotonicNS => optMember f.name (e.guestMonotonicNS.map .str)
  | .processKey => optMember f.name (e.processKey.map .str)
  | .runID => optMember f.name (e.runID.map .str)
  | .relatedEventIDs => textsMember f.name e.relatedEventIDs
  | .quality => [(f.name, .obj e.quality.members)]
  | .data => [(f.name, e.data.elim .null .obj)]

def Envelope.members (e : Envelope) : List (Bytes × Json) :=
  Field.all.flatMap e.member

/-- The text of an envelope. Writing fails on a number that has no literal. -/
def Envelope.marshal (e : Envelope) : Option Bytes :=
  if (Json.obj e.members).numsOk then some (Json.obj e.members).encode else none

/-! ## Reading -/

/-- The nesting the reader lets through. -/
def maxNestingDepth : Nat := 10000

def Quality.set (q : Quality) : Quality.Field → Json → Option Quality
  | .pathResolution, j =>
    (j.decodeText q.pathResolution.text).map fun s => { q with pathResolution := .ofText s }
  | .attribution, j =>
    (j.decodeText q.attribution.text).map fun s => { q with attribution := .ofText s }
  | .truncated, j => (j.decodeBool q.truncated).map fun b => { q with truncated := b }
  | .redacted, j => (j.decodeBool q.redacted).map fun b => { q with redacted := b }
  | .redactionPolicyID, j =>
    (j.decodeText q.redactionPolicyID).map fun s => { q with redactionPolicyID := s }
  | .notes, j => (j.decodeTexts q.notes).map fun ss => { q with notes := ss }

def Quality.decode (q : Quality) : Json → Option Quality
  | .null => some q
  | .obj ms => decodeStruct Quality.fields Quality.set q ms
  | _ => none

variable (conv : FloatText)

def Envelope.set (e : Envelope) : Envelope.Field → Json → Option Envelope
  | .schemaVersion, j => (j.decodeInt e.schemaVersion).map fun i => { e with schemaVersion := i }
  | .eventID, j => j.decodeTextPtr.map fun s => { e with eventID := s }
  | .vmID, j => j.decodeTextPtr.map fun s => { e with vmID := s }
  | .bootID, j => j.decodeTextPtr.map fun s => { e with bootID := s }
  | .sourceInstanceID, j =>
    (j.decodeText e.sourceInstanceID).map fun s => { e with sourceInstanceID := s }
  | .sourceSeq, j => (j.decodeText e.sourceSeq).map fun s => { e with sourceSeq := s }
  | .kind, j => (j.decodeText e.kind).map fun s => { e with kind := s }
  | .provenance, j =>
    (j.decodeText e.provenance.text).map fun s => { e with provenance := .ofText s }
  | .sensor, j => (j.decodeText e.sensor).map fun s => { e with sensor := s }
  | .hostReceivedAt, j => j.decodeInstant.map fun t => { e with hostReceivedAt := t }
  | .hostBootID, j => (j.decodeText e.hostBootID).map fun s => { e with hostBootID := s }
  | .hostMonotonicNS, j =>
    (j.decodeText e.hostMonotonicNS).map fun s => { e with hostMonotonicNS := s }
  | .guestWallAt, j => j.decodeInstantPtr.map fun t => { e with guestWallAt := t }
  | .guestMonotonicNS, j => j.decodeTextPtr.map fun s => { e with guestMonotonicNS := s }
  | .processKey, j => j.decodeTextPtr.map fun s => { e with processKey := s }
  | .runID, j => j.decodeTextPtr.map fun s => { e with runID := s }
  | .relatedEventIDs, j =>
    (j.decodeTexts e.relatedEventIDs).map fun ss => { e with relatedEventIDs := ss }
  | .quality, j => (e.quality.decode j).map fun q => { e with quality := q }
  | .data, j => (j.decodeMap conv e.data).map fun m => { e with data := m }

/-- The envelope a tree stands for. -/
def Envelope.decode : Json → Option Envelope
  | .null => some Envelope.zero
  | .obj ms => decodeStruct Envelope.fields (Envelope.set conv) Envelope.zero ms
  | _ => none

/-- Read an envelope from a text. -/
def Envelope.unmarshal (body : Bytes) : Option Envelope :=
  (Json.parse maxNestingDepth body).bind (Envelope.decode conv)

/-! ## An envelope that went through its text -/

/-- What is left of a quality block: texts well formed. -/
def Quality.reread (q : Quality) : Quality where
  pathResolution := .ofText (sanitize q.pathResolution.text)
  attribution := .ofText (sanitize q.attribution.text)
  truncated := q.truncated
  redacted := q.redacted
  redactionPolicyID := sanitize q.redactionPolicyID
  notes := q.notes.map sanitize

/-- What is left of an envelope: texts well formed, times to the microsecond, and `data` as the
reader decoded it. -/
def Envelope.reread (e : Envelope) (data : Option (List (Bytes × Json))) : Envelope where
  schemaVersion := e.schemaVersion
  eventID := e.eventID.map sanitize
  vmID := e.vmID.map sanitize
  bootID := e.bootID.map sanitize
  sourceInstanceID := sanitize e.sourceInstanceID
  sourceSeq := sanitize e.sourceSeq
  kind := sanitize e.kind
  provenance := .ofText (sanitize e.provenance.text)
  sensor := sanitize e.sensor
  hostReceivedAt := e.hostReceivedAt.truncMicros
  hostBootID := sanitize e.hostBootID
  hostMonotonicNS := sanitize e.hostMonotonicNS
  guestWallAt := e.guestWallAt.map Instant.truncMicros
  guestMonotonicNS := e.guestMonotonicNS.map sanitize
  processKey := e.processKey.map sanitize
  runID := e.runID.map sanitize
  relatedEventIDs := e.relatedEventIDs.map sanitize
  quality := e.quality.reread
  data := data

section Pieces

variable {φ σ : Type} {fields : List (Bytes × φ)} {set : σ → φ → Json → Option σ} {name : Bytes}
  {f : φ} (hf : lookupField fields (sanitize name) = some f)

include hf

lemma decodeStruct_member (s : σ) (j : Json) :
    decodeStruct fields set s (cleanMembers [(name, j)]) = set s f j.clean :=
  decodeStruct_singleton set hf s j.clean

variable {s s' : σ}

lemma decodeStruct_optText (x : Option Bytes) (h0 : x = none → s' = s)
    (h : ∀ t, x = some t → set s f (.str (sanitize t)) = some s') :
    decodeStruct fields set s (cleanMembers (optMember name (x.map .str))) = some s' := by
  cases x with
  | none => rw [h0 rfl]; rfl
  | some t =>
    rw [Option.map_some, optMember, decodeStruct_member hf, clean]
    exact h t rfl

lemma decodeStruct_textMember (x : Bytes) (h0 : x = [] → s' = s)
    (h : set s f (.str (sanitize x)) = some s') :
    decodeStruct fields set s (cleanMembers (textMember name x)) = some s' := by
  unfold textMember
  split
  · next hx => rw [h0 hx]; rfl
  · rw [decodeStruct_member hf, clean, h]

lemma decodeStruct_textsMember (xs : List Bytes) (h0 : xs = [] → s' = s)
    (h : set s f (.arr (xs.map fun x => .str (sanitize x))) = some s') :
    decodeStruct fields set s (cleanMembers (textsMember name xs)) = some s' := by
  unfold textsMember
  split
  · next hx => rw [h0 hx]; rfl
  · rw [decodeStruct_member hf, clean, cleanElems_eq, map_map]
    exact h

end Pieces

lemma cleanMembers_append (as bs : List (Bytes × Json)) :
    cleanMembers (as ++ bs) = cleanMembers as ++ cleanMembers bs := by
  simp [cleanMembers_eq]

lemma decodeTextElems_strs (xs : List Bytes) :
    decodeTextElems [] (xs.map fun x => .str (sanitize x)) = some (xs.map sanitize) := by
  induction xs with
  | nil => rfl
  | cons x xs ih => simp [decodeTextElems, decodeText, ih]

lemma Quality.lookupField_name (f : Quality.Field) :
    lookupField Quality.fields (sanitize f.name) = some f := by
  cases f <;> decide

lemma Envelope.lookupField_name (f : Envelope.Field) :
    lookupField Envelope.fields (sanitize f.name) = some f := by
  cases f <;> decide

lemma Quality.decode_members (q : Quality) :
    Quality.zero.decode (clean (.obj q.members)) = some q.reread := by
  have hf := Quality.lookupField_name
  simp only [clean, Quality.decode, Quality.members, cleanMembers_append,
    decodeStruct_append]
  rw [decodeStruct_member (hf .pathResolution)]
  simp only [Quality.set, clean, decodeText, Option.map_some, Option.bind_some]
  rw [decodeStruct_member (hf .attribution)]
  simp only [Quality.set, clean, decodeText, Option.map_some, Option.bind_some]
  rw [decodeStruct_member (hf .truncated)]
  simp only [Quality.set, clean, decodeBool, Option.map_some, Option.bind_some]
  rw [decodeStruct_member (hf .redacted)]
  simp only [Quality.set, clean, decodeBool, Option.map_some, Option.bind_some]
  rw [decodeStruct_textMember (hf .redactionPolicyID) q.redactionPolicyID
    (by intro h; rw [h]; rfl) rfl, Option.bind_some]
  refine decodeStruct_textsMember (hf .notes) q.notes ?_ ?_
  · intro h
    rw [Quality.reread, h]
    rfl
  · simp only [Quality.set, decodeTexts, Quality.zero, decodeTextElems_strs, Option.map_some]
    rfl

namespace Envelope

def put (t : Envelope) (f : Field) (s : Envelope) : Envelope :=
  match f with
  | .schemaVersion => { s with schemaVersion := t.schemaVersion }
  | .eventID => { s with eventID := t.eventID }
  | .vmID => { s with vmID := t.vmID }
  | .bootID => { s with bootID := t.bootID }
  | .sourceInstanceID => { s with sourceInstanceID := t.sourceInstanceID }
  | .sourceSeq => { s with sourceSeq := t.sourceSeq }
  | .kind => { s with kind := t.kind }
  | .provenance => { s with provenance := t.provenance }
  | .sensor => { s with sensor := t.sensor }
  | .hostReceivedAt => { s with hostReceivedAt := t.hostReceivedAt }
  | .hostBootID => { s with hostBootID := t.hostBootID }
  | .hostMonotonicNS => { s with hostMonotonicNS := t.hostMonotonicNS }
  | .guestWallAt => { s with guestWallAt := t.guestWallAt }
  | .guestMonotonicNS => { s with guestMonotonicNS := t.guestMonotonicNS }
  | .processKey => { s with processKey := t.processKey }
  | .runID => { s with runID := t.runID }
  | .relatedEventIDs => { s with relatedEventIDs := t.relatedEventIDs }
  | .quality => { s with quality := t.quality }
  | .data => { s with data := t.data }

variable {conv}

lemma parse_sanitize_format {t : Instant} (ht : t.FourDigitYear) :
    Instant.parse (sanitize t.format) = some t.truncMicros := by
  rw [sanitize_of_ascii (Instant.format_lt ht), Instant.parse_format ht]

lemma decodeTextPtr_nullable (x : Option Bytes) :
    (nullable x).clean.decodeTextPtr = some (x.map sanitize) := by
  cases x <;> rfl

variable {name : Bytes} {e : Envelope} {n : Nat} {d : Option (List (Bytes × Json))}

/-- Reading back the members of an envelope, one field: a field that has not been read yet gets
its value. -/
lemma decode_member (hv : e.schemaVersion = 1) (hh : e.hostReceivedAt.FourDigitYear)
    (hg : ∀ t, e.guestWallAt = some t → t.FourDigitYear)
    (hd : decodeMap conv none (e.data.elim null obj).clean = some d)
    (f : Field) {s : Envelope} (hs : zero.put f s = s) :
    decodeStruct fields (set conv) s (cleanMembers (e.member f)) =
      some ((e.reread d).put f s) := by
  have hf := lookupField_name
  cases f with
  | schemaVersion =>
    refine (decodeStruct_member (hf _) _ _).trans ?_
    have h1 : parseInt64 (formatInt 1) = some 1 := by decide
    simp only [set, clean, decodeInt, put, reread, hv, h1,
      Option.map_some]
  | eventID | guestMonotonicNS | processKey | runID =>
    exact decodeStruct_optText (hf _) _
      (fun h => by rw [← hs, put, put, reread, h]; rfl)
      (fun t h => by rw [put, reread, h]; rfl)
  | vmID | bootID =>
    refine (decodeStruct_member (hf _) _ _).trans ?_
    rw [set, decodeTextPtr_nullable]
    rfl
  | sourceInstanceID | sourceSeq | kind | provenance | sensor =>
    exact decodeStruct_member (hf _) _ _
  | hostReceivedAt =>
    refine (decodeStruct_member (hf _) _ _).trans ?_
    simp only [set, clean, decodeInstant, parse_sanitize_format hh,
      Option.map_some, put, reread]
  | hostBootID | hostMonotonicNS =>
    exact decodeStruct_textMember (hf _) _
      (fun h => by rw [← hs, put, put, reread, h]; rfl) rfl
  | guestWallAt =>
    cases hw : e.guestWallAt with
    | none =>
      rw [← hs, member, hw]
      simp only [put, reread, hw]
      rfl
    | some t =>
      simp only [member, hw, Option.map_some, optMember]
      refine (decodeStruct_member (hf _) _ _).trans ?_
      simp only [set, clean, decodeInstantPtr, decodeInstant,
        parse_sanitize_format (hg t hw), Option.map_some, put, reread, hw]
  | relatedEventIDs =>
    refine decodeStruct_textsMember (hf _) e.relatedEventIDs
      (fun h => by rw [← hs, put, put, reread, h]; rfl) ?_
    have h0 : s.relatedEventIDs = [] := by rw [← hs]; rfl
    simp only [set, decodeTexts, h0, decodeTextElems_strs, Option.map_some,
      put, reread]
  | quality =>
    refine (decodeStruct_member (hf _) _ _).trans ?_
    have h0 : s.quality = Quality.zero := by rw [← hs]; rfl
    rw [set, h0, Quality.decode_members]
    rfl
  | data =>
    refine (decodeStruct_member (hf _) _ _).trans ?_
    have h0 : s.data = none := by rw [← hs]; rfl
    rw [set, h0, hd]
    rfl

/-- The members of an envelope, read one after the other. -/
lemma decode_members (hv : e.schemaVersion = 1) (hh : e.hostReceivedAt.FourDigitYear)
    (hg : ∀ t, e.guestWallAt = some t → t.FourDigitYear)
    (hd : decodeMap conv none (e.data.elim null obj).clean = some d) :
    decode conv (clean (.obj e.members)) = some (e.reread d) := by
  have step : ∀ (f : Field) (s : Envelope) (ms : List (Bytes × Json)),
      zero.put f s = s →
      decodeStruct fields (set conv) s (cleanMembers (e.member f ++ ms)) =
        decodeStruct fields (set conv) ((e.reread d).put f s)
          (cleanMembers ms) := by
    intro f s ms hs
    rw [cleanMembers_append, decodeStruct_append, decode_member hv hh hg hd f hs,
      Option.bind_some]
  rw [clean, decode, members, Field.all]
  simp only [flatMap_cons, flatMap_nil]
  -- each field is still at its zero value when its member comes up
  rw [step .schemaVersion _ _ rfl, step .eventID _ _ rfl, step .vmID _ _ rfl, step .bootID _ _ rfl,
    step .sourceInstanceID _ _ rfl, step .sourceSeq _ _ rfl, step .kind _ _ rfl,
    step .provenance _ _ rfl, step .sensor _ _ rfl, step .hostReceivedAt _ _ rfl,
    step .hostBootID _ _ rfl, step .hostMonotonicNS _ _ rfl, step .guestWallAt _ _ rfl,
    step .guestMonotonicNS _ _ rfl, step .processKey _ _ rfl, step .runID _ _ rfl,
    step .relatedEventIDs _ _ rfl, step .quality _ _ rfl, step .data _ _ rfl]
  simp only [put, cleanMembers, decodeStruct]

/-! ### Nesting of a written envelope -/

lemma depth_of_mem_optMember {v : Option Json} (h : ∀ j, v = some j → j.depth ≤ n) :
    ∀ m ∈ optMember name v, m.2.depth ≤ n := by
  cases v with
  | none => simp [optMember]
  | some j => simpa [optMember] using h j rfl

lemma depth_of_mem_textMember {s : Bytes} :
    ∀ m ∈ textMember name s, m.2.depth ≤ n := by
  unfold textMember
  split <;> simp [depth]

lemma depth_of_mem_textsMember {ss : List Bytes} :
    ∀ m ∈ textsMember name ss, m.2.depth ≤ n + 1 := by
  unfold textsMember
  split
  · simp
  · intro m hm
    obtain rfl : m = (name, .arr (ss.map .str)) := by simpa using hm
    exact depth_arr_le.2 (by simp [depth])

lemma Quality.depth_members (q : Quality) : (obj q.members).depth ≤ 2 := by
  refine depth_obj_le.2 fun m hm => ?_
  simp only [Quality.members, mem_append, mem_singleton] at hm
  rcases hm with ((((rfl | rfl) | rfl) | rfl) | hm) | hm
  · exact Nat.zero_le _
  · exact Nat.zero_le _
  · exact Nat.zero_le _
  · exact Nat.zero_le _
  · exact depth_of_mem_textMember m hm
  · exact depth_of_mem_textsMember m hm

lemma depth_member (hn : 2 ≤ n) (hd : ∀ ms, e.data = some ms → (obj ms).depth ≤ n) (f : Field) :
    ∀ m ∈ e.member f, m.2.depth ≤ n := by
  have single : ∀ (k : Bytes) (j : Json), j.depth ≤ n → ∀ m ∈ [(k, j)], m.2.depth ≤ n := by
    intro k j hj m hm
    obtain rfl : m = (k, j) := by simpa using hm
    exact hj
  have optText : ∀ (k : Bytes) (x : Option Bytes), ∀ m ∈ optMember k (x.map .str),
      m.2.depth ≤ n := by
    refine fun k x => depth_of_mem_optMember fun j hj => ?_
    obtain ⟨t, -, rfl⟩ := Option.map_eq_some_iff.1 hj
    exact Nat.zero_le n
  have nullText : ∀ x : Option Bytes, (nullable x).depth ≤ n := by
    intro x
    cases x <;> exact Nat.zero_le n
  cases f with
  | schemaVersion | sourceInstanceID | sourceSeq | kind | provenance | sensor | hostReceivedAt =>
    exact single _ _ (Nat.zero_le n)
  | eventID | guestMonotonicNS | processKey | runID => exact optText _ _
  | vmID | bootID => exact single _ _ (nullText _)
  | hostBootID | hostMonotonicNS => exact depth_of_mem_textMember
  | guestWallAt =>
    refine depth_of_mem_optMember fun j hj => ?_
    obtain ⟨t, -, rfl⟩ := Option.map_eq_some_iff.1 hj
    exact Nat.zero_le n
  | relatedEventIDs =>
    obtain ⟨k, rfl⟩ : ∃ k, n = k + 1 := ⟨n - 1, by omega⟩
    exact depth_of_mem_textsMember
  | quality => exact single _ _ ((Quality.depth_members e.quality).trans hn)
  | data =>
    refine single _ _ ?_
    cases hdata : e.data with
    | none => exact Nat.zero_le n
    | some ms => exact hd ms hdata

lemma depth_members (e : Envelope)
    (hdepth : ∀ ms, e.data = some ms → (obj ms).depth < maxNestingDepth) :
    (obj e.members).depth ≤ maxNestingDepth := by
  refine depth_obj_le.2 fun m hm => ?_
  obtain ⟨f, -, hf⟩ := mem_flatMap.1 hm
  exact depth_member (by decide)
    (fun ms hms => Nat.le_of_lt_succ (hdepth ms hms)) f m hf

/-- **An envelope goes through its text**: what was written is read back, with texts well
formed, times to the microsecond and `data` decoded again, whenever the times have four-digit
years and `data` is not nested too deep. -/
theorem unmarshal_marshal {body : Bytes} (hm : e.marshal = some body)
    (hv : e.schemaVersion = 1) (hh : e.hostReceivedAt.FourDigitYear)
    (hg : ∀ t, e.guestWallAt = some t → t.FourDigitYear)
    (hdepth : ∀ ms, e.data = some ms → (obj ms).depth < maxNestingDepth)
    (hd : decodeMap conv none (e.data.elim null obj).clean = some d) :
    unmarshal conv body = some (e.reread d) := by
  unfold marshal at hm
  split at hm
  · next hn =>
    obtain rfl : encode (.obj e.members) = body := by simpa using hm
    rw [unmarshal, parse_encode hn (e.depth_members hdepth), Option.bind_some,
      decode_members hv hh hg hd]
  · exact absurd hm (by simp)

end Envelope

end Observatory.Events
