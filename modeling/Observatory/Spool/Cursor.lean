/-
# The import cursor and the order of segments

`cursor.json` holds the importer's durable progress: the segment and the index of the last
record in it that was committed. Segments are compared by name; within the name space that is
the order of their indices. `nextSegmentIndex` is how a new writer finds its first index, from
the directory and the cursor.
-/
import Observatory.Spool.Segment

namespace Observatory.Spool

open Lib Events List

/-- Segment names are in the order of their indices. -/
lemma bytesLt_segmentName {i j : Nat} (hi : i ≤ maxSegmentIndex) (hj : j ≤ maxSegmentIndex) :
    bytesLt (segmentName i) (segmentName j) = decide (i < j) := by
  have hi16 : i < 10 ^ 16 := by unfold maxSegmentIndex at hi; omega
  have hj16 : j < 10 ^ 16 := by unfold maxSegmentIndex at hj; omega
  rw [segmentName_parts hi, segmentName_parts hj, bytesLt_append rfl, bytesLt_irrefl,
    bytesLt_append (by simp [length_fixedDigits]), bytesLt_irrefl, bytesLt_fixedDigits hi16 hj16]
  simp

/-! ## The cursor file -/

/-- The last record that was committed; the zero cursor has an empty segment name. -/
structure Cursor where
  segment : Bytes
  record : Int
deriving DecidableEq

namespace Cursor

def zero : Cursor := ⟨[], 0⟩

inductive Field where
  | segment | record
deriving DecidableEq

def Field.name : Field → Bytes
  | .segment => ascii "segment"
  | .record => ascii "record"

def fields : List (Bytes × Field) := [Field.segment, .record].map fun f => (f.name, f)

def members (c : Cursor) : List (Bytes × Json) :=
  [(Field.segment.name, .str c.segment)] ++ [(Field.record.name, .num (formatInt c.record))]

/-- The contents `writeCursor` gives the file. -/
def marshal (c : Cursor) : Bytes := (Json.obj c.members).encode

def set (c : Cursor) : Field → Json → Option Cursor
  | .segment, j => (j.decodeText c.segment).map fun s => { c with segment := s }
  | .record, j => (j.decodeInt c.record).map fun i => { c with record := i }

def decode : Json → Option Cursor
  | .null => some zero
  | .obj ms => decodeStruct fields set zero ms
  | _ => none

def unmarshal (data : Bytes) : Option Cursor := (Json.parse maxNestingDepth data).bind decode

end Cursor

inductive CursorError where
  | unmarshal
  | invalid

/-- Whether a path is its own last element. -/
def isBase (path : Bytes) : Bool := path == ascii "/" || (!path.isEmpty && !path.contains 0x2F)

/-- Read durable progress; only an absent file means the start of everything. -/
def readCursor : Option Bytes → Except CursorError Cursor
  | none => .ok .zero
  | some data =>
    match Cursor.unmarshal data with
    | none => .error .unmarshal
    | some c =>
      if c.segment = [] ∨ isBase c.segment = false ∨ c.record < 0 then .error .invalid else .ok c

lemma segmentName_bytes {k : Nat} (hk : k ≤ maxSegmentIndex) :
    ∀ b ∈ segmentName k, b < 0x80 ∧ b ≠ 0x2F := by
  have hdigit (b : UInt8) (hb : isDigit b = true) : b < 0x80 ∧ b ≠ 0x2F := by
    rw [isDigit_iff] at hb
    rw [UInt8.lt_iff_toNat_lt, ne_eq, UInt8.toNat_inj.symm]
    exact ⟨by simp; omega, by simp; omega⟩
  have hall : (ascii "seg-" ++ ascii ".vmsp").all (fun b => b < 0x80 ∧ b ≠ 0x2F) = true := by decide
  have hfixed : ∀ b ∈ ascii "seg-" ++ ascii ".vmsp", b < 0x80 ∧ b ≠ 0x2F := by
    intro b hb
    simpa using all_eq_true.1 hall b hb
  intro b hb
  rw [segmentName_parts hk] at hb
  rcases mem_append.1 hb with hb | hb
  · exact hfixed b (mem_append_left _ hb)
  · rcases mem_append.1 hb with hb | hb
    · exact hdigit b (all_eq_true.1 (all_isDigit_fixedDigits 16 k) b hb)
    · exact hfixed b (mem_append_right _ hb)

lemma segmentName_ne_nil (k : Nat) : segmentName k ≠ [] := by
  have : (segmentName k).length ≠ 0 := by
    simp only [segmentName, length_append]
    have : (ascii "seg-").length = 4 := by decide
    omega
  intro h
  exact this (by rw [h]; rfl)

lemma isBase_segmentName {k : Nat} (hk : k ≤ maxSegmentIndex) : isBase (segmentName k) = true := by
  have hslash : (segmentName k).contains 0x2F = false := by
    rw [Bool.eq_false_iff]
    intro h
    exact (segmentName_bytes hk _ (elem_iff.1 h)).2 rfl
  have hne : (segmentName k).isEmpty = false := by simpa using segmentName_ne_nil k
  simp only [isBase, hslash, hne]
  simp

lemma readCursor_marshal {k : Nat} (hk : k ≤ maxSegmentIndex) {n : Nat} (hn : n < 2 ^ 63) :
    readCursor (some (Cursor.marshal ⟨segmentName k, n⟩)) = .ok ⟨segmentName k, n⟩ := by
  have hnum : isNumber (formatInt n) = true := by
    rw [formatInt, if_neg (by omega)]
    exact isNumber_of_isDecimal (isDecimal_formatUint _)
  have hparse := @Json.parse_encode (.obj (Cursor.members ⟨segmentName k, n⟩)) maxNestingDepth
    (by simp [Json.numsOk, Json.allNums, Json.allNumsMembers, Cursor.members, hnum])
    (by simp [Json.depth, Json.depthMembers, Cursor.members]; decide)
  have hclean : (Json.obj (Cursor.members ⟨segmentName k, n⟩)).clean =
      .obj (Cursor.members ⟨segmentName k, n⟩) := by
    have h1 : sanitize Cursor.Field.segment.name = Cursor.Field.segment.name := by decide +kernel
    have h2 : sanitize Cursor.Field.record.name = Cursor.Field.record.name := by decide +kernel
    simp [Cursor.members, Json.clean, Json.cleanMembers, h1, h2,
      sanitize_of_ascii fun b hb => (segmentName_bytes hk b hb).1]
  have hdecode : Cursor.decode (.obj (Cursor.members ⟨segmentName k, n⟩)) =
      some ⟨segmentName k, n⟩ := by
    have hf1 : lookupField Cursor.fields Cursor.Field.segment.name = some .segment := by
      decide +kernel
    have hf2 : lookupField Cursor.fields Cursor.Field.record.name = some .record := by
      decide +kernel
    rw [Cursor.decode, Cursor.members, decodeStruct_append, decodeStruct_singleton _ hf1]
    simp only [Cursor.set, Json.decodeText, Option.map_some, Option.bind_some]
    rw [decodeStruct_singleton _ hf2]
    simp [Cursor.set, Json.decodeInt, parseInt64_formatInt hn]
  have hun : Cursor.unmarshal (Cursor.marshal ⟨segmentName k, n⟩) = some ⟨segmentName k, n⟩ := by
    rw [Cursor.unmarshal, Cursor.marshal, hparse, hclean]
    exact hdecode
  rw [readCursor]
  simp only [hun]
  rw [if_neg]
  simp [segmentName_ne_nil, isBase_segmentName hk]

/-! ## The next index -/

/-- The larger of an index and the largest found so far. -/
def newer (found : Option Nat) (idx : Nat) : Option Nat :=
  match found with
  | none => some idx
  | some m => some (if m < idx then idx else m)

def newestListed (listing : List Nat) : Option Nat := listing.foldl newer none

inductive NextIndexError where
  | readCursor (err : CursorError)
  | notASegmentName (name : Bytes)

/-- The index a new writer starts at, from what the listing found and the cursor read after it. -/
def nextSegmentIndex (found : Option Nat) (cursorFile : Option Bytes) :
    Except NextIndexError Nat :=
  match readCursor cursorFile with
  | .error err => .error (.readCursor err)
  | .ok c =>
    if c.segment = [] then .ok (found.elim 0 (· + 1))
    else
      match parseSegmentName c.segment with
      | none => .error (.notASegmentName c.segment)
      | some idx => .ok ((newer found idx).elim 0 (· + 1))

lemma newer_bound {found : Option Nat} {idx : Nat} :
    ∃ m, newer found idx = some m ∧ idx ≤ m ∧ ∀ i ∈ found, i ≤ m := by
  cases found with
  | none => exact ⟨idx, rfl, le_rfl, by simp⟩
  | some i =>
    refine ⟨if i < idx then idx else i, rfl, ?_, ?_⟩
    · split <;> omega
    · intro j hj
      obtain rfl : i = j := by simpa using hj
      split <;> omega

lemma le_newestListed {listing : List Nat} {k : Nat} (hk : k ∈ listing) :
    ∃ m, newestListed listing = some m ∧ k ≤ m := by
  suffices h : ∀ found : Option Nat, k ∈ listing ∨ (∃ i ∈ found, k ≤ i) →
      ∃ m, listing.foldl newer found = some m ∧ k ≤ m from h none (.inl hk)
  clear hk
  induction listing with
  | nil =>
    rintro found (h | ⟨i, hi, hki⟩)
    · simp at h
    · exact ⟨i, hi, hki⟩
  | cons idx listing ih =>
    intro found h
    obtain ⟨m, hm, hidx, hfound⟩ := @newer_bound found idx
    rw [foldl_cons, hm]
    refine ih (some m) ?_
    rcases h with h | ⟨i, hi, hki⟩
    · rcases mem_cons.1 h with rfl | h
      · exact .inr ⟨m, rfl, hidx⟩
      · exact .inl h
    · exact .inr ⟨m, rfl, hki.trans (hfound i hi)⟩

/-- **The next index** is above everything listed and above the segment the cursor names. -/
lemma nextSegmentIndex_spec {listing : List Nat} {cursorFile : Option Bytes} {idx : Nat}
    (h : nextSegmentIndex (newestListed listing) cursorFile = .ok idx) : (∀ k ∈ listing, k < idx) ∧
      ∀ c, readCursor cursorFile = .ok c → ∀ k, parseSegmentName c.segment = some k → k < idx := by
  unfold nextSegmentIndex at h
  cases hc : readCursor cursorFile with
  | error err => simp [hc] at h
  | ok c =>
    simp only [hc] at h
    split at h
    · next hempty =>
      have hidx : (newestListed listing).elim 0 (· + 1) = idx := by simpa using h
      constructor
      · intro k hk
        obtain ⟨m, hm, hkm⟩ := le_newestListed hk
        rw [hm] at hidx
        simp at hidx
        omega
      · rintro c' hc' k hk
        obtain rfl : c = c' := by simpa using hc'
        rw [hempty] at hk
        exact absurd hk (by simp [parseSegmentName, segmentNameLen])
    · split at h
      · exact absurd h (by simp)
      next i hi =>
      obtain ⟨m, hm, him, hfound⟩ := @newer_bound (newestListed listing) i
      have hidx : m + 1 = idx := by simpa [hm] using h
      constructor
      · intro k hk
        obtain ⟨m', hm', hkm⟩ := le_newestListed hk
        have := hfound m' hm'
        omega
      · rintro c' hc' k hk
        obtain rfl : c = c' := by simpa using hc'
        have : i = k := by simpa [hi] using hk
        omega

end Observatory.Spool
