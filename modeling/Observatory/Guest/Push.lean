/-
# The telemetry push frame

What the guest may state about an event: its own sequence, a kind, its clocks and a payload.
`decodeTelemetryPush` bounds the frame, refuses every key outside the allow-list and checks the
fields the guest owns. The payload is left unread, so it is kept with the bytes it stands in.
-/
import Observatory.Events.Validate
import Observatory.Lib.JsonRaw

namespace Observatory.Guest

open Lib Events

def maxTelemetryPayload : Nat := 64 * 2 ^ 10

/-- The member `data` is nil when the frame has no such member. -/
structure TelemetryPush where
  seq : Bytes
  kind : Bytes
  guestWallAt : Bytes
  guestMonotonicNS : Bytes
  data : Option RawJson

namespace TelemetryPush

def zero : TelemetryPush := ⟨[], [], [], [], none⟩

inductive Field where
  | seq | kind | guestWallAt | guestMonotonicNS | data

def Field.name : Field → Bytes
  | .seq => ascii "seq"
  | .kind => ascii "kind"
  | .guestWallAt => ascii "guest_wall_at"
  | .guestMonotonicNS => ascii "guest_monotonic_ns"
  | .data => ascii "data"

def fields : List (Bytes × Field) :=
  [Field.seq, .kind, .guestWallAt, .guestMonotonicNS, .data].map fun f => (f.name, f)

def set (p : TelemetryPush) (r : RawJson) : Field → Option TelemetryPush
  | .seq => (r.value.decodeText p.seq).map fun s => { p with seq := s }
  | .kind => (r.value.decodeText p.kind).map fun s => { p with kind := s }
  | .guestWallAt => (r.value.decodeText p.guestWallAt).map fun s => { p with guestWallAt := s }
  | .guestMonotonicNS =>
    (r.value.decodeText p.guestMonotonicNS).map fun s => { p with guestMonotonicNS := s }
  -- an unread value is kept as it stands, `null` included
  | .data => some { p with data := some r }

/-- Decode members one after the other; unknown members are skipped. -/
def decodeMembers : TelemetryPush → List (Bytes × RawJson) → Option TelemetryPush
  | p, [] => some p
  | p, (k, r) :: ms =>
    match lookupField fields k with
    | none => decodeMembers p ms
    | some f =>
      match p.set r f with
      | none => none
      | some p' => decodeMembers p' ms

end TelemetryPush

def telemetryPushKeys : List Bytes := TelemetryPush.fields.map Prod.fst

inductive PushError where
  | tooLong (len : Nat)
  | notAnObject
  | hostAssigned (key : Bytes)
  | unmarshal
  | seq (s : Bytes)
  | noKind
  | guestMonotonicNS (s : Bytes)
  | guestWallAt (s : Bytes)

/-- Read one push frame of a guest. Of several keys outside the allow-list the first is named. -/
def decodeTelemetryPush (raw : Bytes) : Except PushError TelemetryPush :=
  if maxTelemetryPayload < raw.length then .error (.tooLong raw.length)
  else
    match Json.parseRawMap maxNestingDepth raw with
    | none => .error .notAnObject
    | some keyed =>
      match keyed.find? fun m => !telemetryPushKeys.contains m.1 with
      | some m => .error (.hostAssigned m.1)
      | none =>
        match TelemetryPush.decodeMembers .zero keyed with
        | none => .error .unmarshal
        | some push =>
          if decimalString push.seq = false then .error (.seq push.seq)
          else if push.kind = [] then .error .noKind
          else if push.guestMonotonicNS ≠ [] ∧ decimalString push.guestMonotonicNS = false then
            .error (.guestMonotonicNS push.guestMonotonicNS)
          else if push.guestWallAt ≠ [] ∧ Instant.parse push.guestWallAt = none then
            .error (.guestWallAt push.guestWallAt)
          else .ok push

/-! ## What an accepted push satisfies -/

/-- The payload is one of the values of the frame. -/
lemma TelemetryPush.data_of_decodeMembers {P : RawJson → Prop} {ms : List (Bytes × RawJson)}
    (hms : ∀ m ∈ ms, P m.2) {p p' : TelemetryPush} (hp : ∀ r, p.data = some r → P r)
    (h : p.decodeMembers ms = some p') : ∀ r, p'.data = some r → P r := by
  induction ms generalizing p with
  | nil =>
    cases h
    exact hp
  | cons m ms ih =>
    obtain ⟨k, r⟩ := m
    have hrest := fun m hm => hms m (List.mem_cons_of_mem _ hm)
    rw [decodeMembers] at h
    split at h
    · exact ih hrest hp h
    next f _ =>
    split at h
    · cases h
    next q hset =>
    refine ih hrest (fun r' hr' => ?_) h
    cases f with
    | data =>
      cases hset
      cases hr'
      exact hms (k, r) List.mem_cons_self
    | seq | kind | guestWallAt | guestMonotonicNS =>
      obtain ⟨s, -, rfl⟩ := Option.map_eq_some_iff.1 hset
      exact hp r' hr'

structure TelemetryPush.Checked (p : TelemetryPush) : Prop where
  seq : decimalString p.seq = true
  kind : p.kind ≠ []
  guestMonotonicNS : p.guestMonotonicNS = [] ∨ decimalString p.guestMonotonicNS = true
  guestWallAt : p.guestWallAt = [] ∨ (Instant.parse p.guestWallAt).isSome = true
  data : ∀ r, p.data = some r → r.value.depth < maxNestingDepth

lemma decodeTelemetryPush_ok {raw : Bytes} {push : TelemetryPush}
    (h : decodeTelemetryPush raw = .ok push) : push.Checked := by
  unfold decodeTelemetryPush at h
  split at h
  · cases h
  split at h
  · cases h
  next keyed hkeyed =>
  split at h
  · cases h
  split at h
  · cases h
  next p hdecode =>
  split_ifs at h with hseq hkind hmono hwall
  obtain rfl := Except.ok.inj h
  refine ⟨by simpa using hseq, hkind, ?_, ?_, ?_⟩
  · by_cases hempty : p.guestMonotonicNS = []
    · exact .inl hempty
    · exact .inr (by simpa [hempty] using hmono)
  · by_cases hempty : p.guestWallAt = []
    · exact .inl hempty
    · exact .inr (by simpa [hempty, Option.isSome_iff_ne_none] using hwall)
  · exact TelemetryPush.data_of_decodeMembers (P := fun r => r.value.depth < maxNestingDepth)
      (fun m hm => Json.depth_rawMembers hkeyed hm) (by simp [TelemetryPush.zero]) hdecode

end Observatory.Guest
