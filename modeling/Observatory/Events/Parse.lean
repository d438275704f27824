/-
# Strict decoding of an envelope

`Envelope.parse` is how the store reads its own rows: one JSON value is decoded, and a member
that the envelope or its quality block does not declare is an error. The main result says
which written envelopes are read again: those whose times have four-digit years and whose
`data` is not nested too deep and holds numbers that fit a 64-bit float.
-/
import Observatory.Events.Envelope

namespace Observatory.Events

open Lib List Json

def declares {φ : Type} (fields : List (Bytes × φ)) (ms : List (Bytes × Json)) : Bool :=
  ms.all fun m => (lookupField fields m.1).isSome

/-- The members of a quality block, where one is given, are declared. -/
def qualityDeclared (m : Bytes × Json) : Bool :=
  match lookupField Envelope.fields m.1, m.2 with
  | some .quality, .obj qs => declares Quality.fields qs
  | _, _ => true

/-- No undeclared member, in the envelope or in its quality block. -/
def Envelope.declared : Json → Bool
  | .obj ms => declares Envelope.fields ms && ms.all qualityDeclared
  | _ => true

variable (conv : FloatText)

/-- Decode an envelope strictly. What follows the first value is not looked at. -/
def Envelope.parse (raw : Bytes) : Option Envelope :=
  match Json.parseValue (raw.length + 1) maxNestingDepth raw with
  | none => none
  | some (j, _) => if Envelope.declared j then Envelope.decode conv j else none

/-- What a written envelope needs to be read again. -/
structure Envelope.Readable (e : Envelope) : Prop where
  hostReceivedAt : e.hostReceivedAt.FourDigitYear
  guestWallAt : ∀ t, e.guestWallAt = some t → t.FourDigitYear
  depth : ∀ ms, e.data = some ms → (Json.obj ms).depth < maxNestingDepth
  inRange : ∀ ms, e.data = some ms → (Json.obj ms).inRange conv = true

/-! ## A written envelope declares its members -/

lemma declares_iff {φ : Type} {fields : List (Bytes × φ)} {ms : List (Bytes × Json)} :
    declares fields ms = true ↔ ∀ m ∈ ms, (lookupField fields m.1).isSome = true := by
  simp [declares]

variable {name : Bytes} {m : Bytes × Json}

lemma name_of_mem_optMember {v : Option Json} (h : m ∈ optMember name v) : m.1 = name := by
  cases v <;> simp_all [optMember]

lemma name_of_mem_textMember {s : Bytes} (h : m ∈ textMember name s) :
    m.1 = name := by
  unfold textMember at h
  split at h <;> simp_all

lemma name_of_mem_textsMember {ss : List Bytes} (h : m ∈ textsMember name ss) : m.1 = name := by
  unfold textsMember at h
  split at h <;> simp_all

lemma Envelope.name_of_mem_member {e : Envelope} {f : Envelope.Field} (h : m ∈ e.member f) :
    m.1 = f.name := by
  have single : ∀ j : Json, m ∈ [(f.name, j)] → m.1 = f.name := by
    intro j hm
    rw [mem_singleton.1 hm]
  cases f with
  | eventID | guestWallAt | guestMonotonicNS | processKey | runID => exact name_of_mem_optMember h
  | hostBootID | hostMonotonicNS => exact name_of_mem_textMember h
  | relatedEventIDs => exact name_of_mem_textsMember h
  | schemaVersion | vmID | bootID | sourceInstanceID | sourceSeq | kind | provenance | sensor
  | hostReceivedAt | quality | data => exact single _ h

lemma Quality.declares_members (q : Quality) :
    declares Quality.fields (cleanMembers q.members) = true := by
  rw [declares_iff, cleanMembers_eq]
  intro m hm
  obtain ⟨p, hp, rfl⟩ := mem_map.1 hm
  have hname : ∃ f : Quality.Field, p.1 = f.name := by
    simp only [Quality.members, mem_append, mem_singleton] at hp
    rcases hp with ((((rfl | rfl) | rfl) | rfl) | hp) | hp
    · exact ⟨.pathResolution, rfl⟩
    · exact ⟨.attribution, rfl⟩
    · exact ⟨.truncated, rfl⟩
    · exact ⟨.redacted, rfl⟩
    · exact ⟨.redactionPolicyID, name_of_mem_textMember hp⟩
    · exact ⟨.notes, name_of_mem_textsMember hp⟩
  obtain ⟨f, hf⟩ := hname
  simp only [hf, Quality.lookupField_name, Option.isSome_some]

lemma Envelope.declared_members (e : Envelope) : declared (clean (.obj e.members)) = true := by
  have hmem : ∀ m ∈ cleanMembers e.members, ∃ f, ∃ p ∈ e.member f,
      lookupField Envelope.fields m.1 = some f ∧ m.2 = p.2.clean := by
    intro m hm
    rw [cleanMembers_eq] at hm
    obtain ⟨p, hp, rfl⟩ := mem_map.1 hm
    obtain ⟨f, -, hpf⟩ := mem_flatMap.1 hp
    refine ⟨f, p, hpf, ?_, rfl⟩
    rw [name_of_mem_member hpf, lookupField_name]
  rw [clean, declared, Bool.and_eq_true, declares_iff, all_eq_true]
  refine ⟨fun m hm => ?_, fun m hm => ?_⟩
  · obtain ⟨f, p, -, hf, -⟩ := hmem m hm
    rw [hf]
    rfl
  · obtain ⟨f, p, hp, hf, hval⟩ := hmem m hm
    unfold qualityDeclared
    rw [hf, hval]
    cases f with
    | quality =>
      obtain rfl : p = (Field.quality.name, .obj e.quality.members) := mem_singleton.1 hp
      exact e.quality.declares_members
    | _ => rfl

/-! ## A written envelope is read again -/

variable {conv}

lemma decodeMap_isSome {data : Option (List (Bytes × Json))}
    (h : ∀ ms, data = some ms → (obj ms).inRange conv = true) :
    ∃ d, decodeMap conv none (data.elim null obj).clean = some d := by
  cases hdata : data with
  | none => exact ⟨none, rfl⟩
  | some ms =>
    obtain ⟨j, hj⟩ := Option.isSome_iff_exists.1 (toAny_clean_isSome (h ms hdata))
    rw [clean, toAny] at hj
    obtain ⟨ms', hms', -⟩ := Option.map_eq_some_iff.1 hj
    refine ⟨some ms', ?_⟩
    rw [Option.elim_some, clean, decodeMap, Option.getD_none, hms', Option.map_some]

lemma parseValue_of_parse {d : Nat} {bs : Bytes} {j : Json} (h : parse d bs = some j) :
    ∃ rest, parseValue (bs.length + 1) d bs = some (j, rest) := by
  unfold parse at h
  split at h
  · cases h
  · next j' rest hval =>
    split at h
    · obtain rfl : j' = j := by simpa using h
      exact ⟨rest, hval⟩
    · cases h

/-- **Readable envelopes are read again**: the stored text of a version 1 envelope is accepted by
the strict decoder whenever its times have four-digit years and its `data` is not nested too
deep and holds no number out of range. -/
theorem Envelope.parse_marshal {e : Envelope} {body : Bytes} (hm : e.marshal = some body)
    (hv : e.schemaVersion = 1) (hr : e.Readable conv) :
    (Envelope.parse conv body).isSome = true := by
  obtain ⟨d, hd⟩ := decodeMap_isSome hr.inRange
  have hread := Envelope.unmarshal_marshal hm hv hr.hostReceivedAt hr.guestWallAt hr.depth hd
  obtain ⟨j, hparse, hdecode⟩ := Option.bind_eq_some_iff.1 hread
  obtain ⟨rest, hval⟩ := parseValue_of_parse hparse
  have hj : Envelope.declared j = true := by
    -- the tree that was read is the written one with its texts well formed
    unfold Envelope.marshal at hm
    split at hm
    · next hn =>
      obtain rfl : encode (.obj e.members) = body := by simpa using hm
      rw [parse_encode hn (e.depth_members hr.depth)] at hparse
      obtain rfl : clean (.obj e.members) = j := by simpa using hparse
      exact e.declared_members
    · cases hm
  simp [Envelope.parse, hval, hj, hdecode]

end Observatory.Events
