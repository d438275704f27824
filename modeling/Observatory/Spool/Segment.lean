/-
# Segment files

The format of a spool segment: its file name, the header line, the frames of the records and
the end marker of a clean close; and `SegmentIter`, the reader the importer uses. A frame that
is cut short ends a segment quietly, a bad length, checksum or body stops the reader with a
corrupt-record error.
-/
import Observatory.Events.Envelope
import Observatory.Lib.FramedLog

namespace Observatory.Spool

open Lib Events List

/-! ## Constants -/

/-- The event frame limit. -/
def maxRecordBytes : Nat := 256 * 1024

def segmentMagic : Bytes := ascii "vmsp"

def segmentVersion : Int := 1

/-- The word that signals a clean close. -/
def endMarker : Nat := 0xFFFFFFFF

/-- The highest index that fits the name space. -/
def maxSegmentIndex : Nat := 9999999999999999

/-- The frames of a segment as a framed log. -/
def frameFormat : FrameFormat where
  maxBody := maxRecordBytes
  marker := endMarker
  sum := crc32c
  maxBody_lt := by decide
  marker_lt := by decide
  sum_lt := crc32c_lt

def encodeFrame (body : Bytes) : Bytes :=
  putUint32 body.length ++ putUint32 (crc32c body) ++ body

lemma encodeFrame_eq (body : Bytes) : encodeFrame body = frameFormat.frame body := rfl

/-! ## File names -/

def segmentName (idx : Nat) : Bytes :=
  ascii "seg-" ++ (if idx < 10 ^ 16 then fixedDigits 16 idx else formatUint idx) ++ ascii ".vmsp"

def segmentNameLen : Nat := 4 + 16 + 5

def parseSegmentName (name : Bytes) : Option Nat :=
  if name.length ≠ segmentNameLen then none
  else if name.take 4 ≠ ascii "seg-" then none
  else if name.drop 20 ≠ ascii ".vmsp" then none
  else if ((name.drop 4).take 16).all isDigit = true then parseUint ((name.drop 4).take 16)
  else none

lemma segmentName_parts {idx : Nat} (h : idx ≤ maxSegmentIndex) :
    segmentName idx = ascii "seg-" ++ (fixedDigits 16 idx ++ ascii ".vmsp") := by
  have h16 : idx < 10 ^ 16 := by unfold maxSegmentIndex at h; omega
  rw [segmentName, if_pos h16, append_assoc]

lemma parseSegmentName_segmentName {idx : Nat} (h : idx ≤ maxSegmentIndex) :
    parseSegmentName (segmentName idx) = some idx := by
  have h16 : idx < 10 ^ 16 := by unfold maxSegmentIndex at h; omega
  have hlen := length_fixedDigits 16 idx
  have h4 : (ascii "seg-").length = 4 := by decide
  have h5 : (ascii ".vmsp").length = 5 := by decide
  rw [segmentName_parts h, parseSegmentName]
  have hl : (ascii "seg-" ++ (fixedDigits 16 idx ++ ascii ".vmsp")).length = segmentNameLen := by
    simp [hlen, h4, h5, segmentNameLen]
  have htake : (ascii "seg-" ++ (fixedDigits 16 idx ++ ascii ".vmsp")).take 4 = ascii "seg-" := by
    rw [take_append_of_le_length (by omega), take_of_length_le (by omega)]
  have hdrop4 : (ascii "seg-" ++ (fixedDigits 16 idx ++ ascii ".vmsp")).drop 4 =
      fixedDigits 16 idx ++ ascii ".vmsp" := by
    rw [drop_append_of_le_length (by omega), drop_of_length_le (by omega),
      nil_append]
  have hdrop20 : (ascii "seg-" ++ (fixedDigits 16 idx ++ ascii ".vmsp")).drop 20 =
      ascii ".vmsp" := by
    rw [show (20 : Nat) = 4 + 16 from rfl, ← drop_drop, hdrop4,
      drop_append_of_le_length (by omega), drop_of_length_le (by omega),
      nil_append]
  have hdigits : (fixedDigits 16 idx ++ ascii ".vmsp").take 16 = fixedDigits 16 idx := by
    rw [take_append_of_le_length (by omega), take_of_length_le (by omega)]
  simp only [hl, htake, hdrop4, hdrop20, hdigits, ne_eq, not_true_eq_false, if_false,
    all_isDigit_fixedDigits, if_true]
  have hne : fixedDigits 16 idx ≠ [] := by
    intro h0
    rw [h0] at hlen
    exact absurd hlen (by decide)
  rw [parseUint, if_pos]
  · rw [natOfDigits_fixedDigits h16]
  · refine ⟨hne, all_isDigit_fixedDigits 16 idx, ?_⟩
    rw [natOfDigits_fixedDigits h16]
    omega

lemma segmentName_injective {i j : Nat} (hi : i ≤ maxSegmentIndex) (hj : j ≤ maxSegmentIndex)
    (h : segmentName i = segmentName j) : i = j := by
  have := parseSegmentName_segmentName hi
  rw [h, parseSegmentName_segmentName hj] at this
  simpa using this.symm

/-! ## The header line -/

/-- The object in the first line of a segment. -/
structure SegmentHeader where
  magic : Bytes
  version : Int
  vmID : Bytes
  instanceID : Bytes

namespace SegmentHeader

inductive Field where
  | magic | version | vmID | instanceID
deriving DecidableEq

def Field.name : Field → Bytes
  | .magic => ascii "magic"
  | .version => ascii "version"
  | .vmID => ascii "vm_id"
  | .instanceID => ascii "instance_id"

def fields : List (Bytes × Field) :=
  [Field.magic, .version, .vmID, .instanceID].map fun f => (f.name, f)

def members (h : SegmentHeader) : List (Bytes × Json) :=
  [(Field.magic.name, .str h.magic)] ++ [(Field.version.name, .num (formatInt h.version))] ++
  [(Field.vmID.name, .str h.vmID)] ++ [(Field.instanceID.name, .str h.instanceID)]

def marshal (h : SegmentHeader) : Bytes := (Json.obj h.members).encode

def set (h : SegmentHeader) : Field → Json → Option SegmentHeader
  | .magic, j => (j.decodeText h.magic).map fun s => { h with magic := s }
  | .version, j => (j.decodeInt h.version).map fun i => { h with version := i }
  | .vmID, j => (j.decodeText h.vmID).map fun s => { h with vmID := s }
  | .instanceID, j => (j.decodeText h.instanceID).map fun s => { h with instanceID := s }

def zero : SegmentHeader := ⟨[], 0, [], []⟩

def decode : Json → Option SegmentHeader
  | .null => some zero
  | .obj ms => decodeStruct fields set zero ms
  | _ => none

def unmarshal (line : Bytes) : Option SegmentHeader :=
  (Json.parse maxNestingDepth line).bind decode

end SegmentHeader

/-- The first line of a segment of the given VM and runner instance. -/
def headerLine (vmID instanceID : Bytes) : Bytes :=
  (SegmentHeader.mk segmentMagic segmentVersion vmID instanceID).marshal ++ [0x0A]

/-- Everything up to the first newline, and what follows it. -/
def readLine (bs : Bytes) : Option (Bytes × Bytes) :=
  if bs.contains 0x0A then some (bs.takeWhile (· != 0x0A), (bs.dropWhile (· != 0x0A)).tail)
  else none

/-! ## Reading a segment -/

/-- Why a segment cannot be opened for reading. -/
inductive OpenError where
  | noHeader
  | parseHeader
  | wrongMagic (magic : Bytes)
  | unsupportedVersion (version : Int)
deriving DecidableEq

def readSegment (file : Bytes) : Except OpenError Bytes :=
  match readLine file with
  | none => .error .noHeader
  | some (line, rest) =>
    match SegmentHeader.unmarshal line with
    | none => .error .parseHeader
    | some hdr =>
      if hdr.magic ≠ segmentMagic then .error (.wrongMagic hdr.magic)
      else if hdr.version ≠ segmentVersion then .error (.unsupportedVersion hdr.version)
      else .ok rest

/-- What one call of the iterator returns. -/
inductive NextResult where
  | envelope (env : Envelope) (rest : Bytes)
  | eof
  | corruptRecord

variable (conv : FloatText)

namespace SegmentIter

/-- The next envelope, from the bytes not read yet. -/
def next (bs : Bytes) : NextResult :=
  match takeUint32 bs with
  -- a tail cut short before or inside the length
  | none => .eof
  | some (recLen, bs) =>
    if recLen = endMarker then .eof
    else if maxRecordBytes < recLen then .corruptRecord
    else
      match takeUint32 bs with
      | none => .eof
      | some (storedCRC, bs) =>
        if bs.length < recLen then .eof
        else if crc32c (bs.take recLen) ≠ storedCRC then .corruptRecord
        else
          match Envelope.unmarshal conv (bs.take recLen) with
          | none => .corruptRecord
          | some env => .envelope env (bs.drop recLen)

/-- How reading a segment to its end stops. -/
inductive Stop where
  | eof
  | corruptRecord
deriving DecidableEq

def readAllAux : Nat → Bytes → List Envelope × Stop
  | 0, _ => ([], .eof)
  | fuel + 1, bs =>
    match next conv bs with
    | .eof => ([], .eof)
    | .corruptRecord => ([], .corruptRecord)
    | .envelope env rest => (env :: (readAllAux fuel rest).1, (readAllAux fuel rest).2)

/-- Call `next` until it stops. -/
def readAll (bs : Bytes) : List Envelope × Stop := readAllAux conv (bs.length + 1) bs

end SegmentIter

variable {conv}

/-- What `next` does is decided by what stands at the front of the log. -/
lemma SegmentIter.next_eq (bs : Bytes) :
    SegmentIter.next conv bs =
      match frameFormat.head bs with
      | .stop .torn | .stop .marked => .eof
      | .stop .oversize | .stop .badSum => .corruptRecord
      | .body b rest =>
        match Envelope.unmarshal conv b with
        | none => .corruptRecord
        | some env => .envelope env rest := by
  simp only [SegmentIter.next, FrameFormat.head, frameFormat]
  cases takeUint32 bs with
  | none => rfl
  | some p =>
    obtain ⟨recLen, bs1⟩ := p
    dsimp only
    by_cases hm : recLen = endMarker
    · simp only [hm, ↓reduceIte]
    by_cases hl : maxRecordBytes < recLen
    · simp only [hm, hl, ↓reduceIte]
    simp only [hm, hl, ↓reduceIte]
    cases takeUint32 bs1 with
    | none => rfl
    | some p =>
      obtain ⟨crc, bs2⟩ := p
      dsimp only
      by_cases hs : bs2.length < recLen
      · simp only [hs, ↓reduceIte]
      by_cases hc : crc32c (bs2.take recLen) = crc
      · simp only [hs, hc, ne_eq, not_true_eq_false, ↓reduceIte]
      · simp only [hs, hc, ne_eq, not_false_eq_true, ↓reduceIte]

end Observatory.Spool
