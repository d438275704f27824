/-
# Recovery of a segment

`recoverSegment` scans one segment file before an import: it cuts a torn tail off a segment no
writer will return to and counts the corrupt record it stops at, from which the importer makes
the gap record. It checks lengths and checksums only; the iterator of the import also decodes
every body. The main result says for which contents the two agree on corruption.
-/
import Observatory.Spool.Segment

namespace Observatory.Spool

open Lib Events List

/-! ## The scan -/

/-- Where the scan would cut the file: nowhere on the newest segment, and nowhere when nothing
was read past the last good record. -/
def tornTail (isNewest : Bool) (pos lastGoodPos : Nat) : Option Nat :=
  if isNewest || pos ≤ lastGoodPos then none else some lastGoodPos

/-- Walk through the records from position `pos`; yields where to cut the file, and the number
of corrupt records found. -/
def recoverLoop (isNewest : Bool) : Nat → Bytes → Nat → Nat → Option Nat × Nat
  | 0, _, _, _ => (none, 0)
  | fuel + 1, bs, pos, lastGoodPos =>
    match takeUint32 bs with
    | none => (tornTail isNewest (pos + bs.length) lastGoodPos, 0)
    | some (recLen, bs) =>
      if recLen = endMarker then (none, 0)
      else if maxRecordBytes < recLen then (none, 1)
      else
        match takeUint32 bs with
        | none => (tornTail isNewest (pos + 4 + bs.length) lastGoodPos, 0)
        | some (storedCRC, bs) =>
          if bs.length < recLen then (tornTail isNewest (pos + 8 + bs.length) lastGoodPos, 0)
          else if crc32c (bs.take recLen) ≠ storedCRC then (none, 1)
          else
            recoverLoop isNewest fuel (bs.drop recLen) (pos + 8 + recLen) (pos + 8 + recLen)

/-- What recovery found in a segment, and the file it left. -/
structure Recovered where
  headerless : Bool
  truncated : Bool
  corruptCount : Nat
  file : Bytes
deriving DecidableEq

/-- A header line that is complete but wrong is a hard error. -/
inductive RecoverError where
  | parseHeader
  | wrongMagic (magic : Bytes)
deriving DecidableEq

/-- Scan one segment; a torn tail is cut off unless the segment is the newest. -/
def recoverSegment (file : Bytes) (isNewest : Bool) : Except RecoverError Recovered :=
  match readLine file with
  | none => .ok ⟨true, false, 0, file⟩
  | some (line, rest) =>
    match SegmentHeader.unmarshal line with
    | none => .error .parseHeader
    | some hdr =>
      if hdr.magic ≠ segmentMagic then .error (.wrongMagic hdr.magic)
      else
        match recoverLoop isNewest (rest.length + 1) rest (line.length + 1) (line.length + 1) with
        | (some pos, n) => .ok ⟨false, true, n, file.take pos⟩
        | (none, n) => .ok ⟨false, false, n, file⟩

/-- Whether the last four bytes of a segment are the end marker; `none` is the error on a file
that is too short. -/
def segmentHasEndMarker (file : Bytes) : Option Bool :=
  if file.length < 4 then none
  else some (file.drop (file.length - 4) == putUint32 endMarker)

/-! ## What the scan finds -/

/-- Whether reading stopped at a record that is there but wrong. -/
def isCorrupt : FrameFormat.Tail → Bool
  | .oversize | .badSum => true
  | .torn | .marked => false

/-- What the scan makes of the place where the reading stops. -/
def scanned (isNewest : Bool) (t : FrameFormat.Tail) (pos lastGoodPos : Nat) : Option Nat × Nat :=
  (if t = .torn then tornTail isNewest pos lastGoodPos else none, if isCorrupt t then 1 else 0)

variable {isNewest : Bool} {bs file : Bytes} {t : FrameFormat.Tail} {bodies : List Bytes}

lemma length_of_takeUint32 {n : Nat} {rest : Bytes} (h : takeUint32 bs = some (n, rest)) :
    bs.length = 4 + rest.length := by
  rw [eq_putUint32_of_takeUint32 h, length_append, length_putUint32]

lemma recoverLoop_stop (h : frameFormat.head bs = .stop t) (fuel pos lastGoodPos : Nat) :
    recoverLoop isNewest (fuel + 1) bs pos lastGoodPos =
      scanned isNewest t (pos + bs.length) lastGoodPos := by
  simp only [FrameFormat.head, frameFormat] at h
  rw [recoverLoop]
  cases hlen : takeUint32 bs with
  | none =>
    simp only [hlen, FrameFormat.Head.stop.injEq] at h
    subst h
    rfl
  | some p =>
    obtain ⟨recLen, bs1⟩ := p
    have hbs := length_of_takeUint32 hlen
    simp only [hlen] at h ⊢
    by_cases hm : recLen = endMarker
    · simp only [hm, ↓reduceIte, FrameFormat.Head.stop.injEq] at h ⊢
      subst h
      rfl
    by_cases hl : maxRecordBytes < recLen
    · simp only [hm, hl, ↓reduceIte, FrameFormat.Head.stop.injEq] at h ⊢
      subst h
      rfl
    simp only [hm, hl, ↓reduceIte] at h ⊢
    cases hcrc : takeUint32 bs1 with
    | none =>
      simp only [hcrc, FrameFormat.Head.stop.injEq] at h
      subst h
      rw [hbs, ← Nat.add_assoc]
      rfl
    | some p =>
      obtain ⟨crc, bs2⟩ := p
      have hbs1 := length_of_takeUint32 hcrc
      simp only [hcrc] at h ⊢
      by_cases hs : bs2.length < recLen
      · simp only [hs, ↓reduceIte, FrameFormat.Head.stop.injEq] at h ⊢
        subst h
        rw [show pos + bs.length = pos + 8 + bs2.length by omega]
        rfl
      by_cases hc : crc32c (bs2.take recLen) = crc
      · simp [hs, hc] at h
      · simp only [hs, hc, ne_eq, not_false_eq_true, ↓reduceIte,
          FrameFormat.Head.stop.injEq] at h ⊢
        subst h
        rfl

lemma recoverLoop_body {b rest : Bytes}
    (h : frameFormat.head bs = .body b rest) (fuel pos lastGoodPos : Nat) :
    recoverLoop isNewest (fuel + 1) bs pos lastGoodPos =
      recoverLoop isNewest fuel rest (pos + 8 + b.length) (pos + 8 + b.length) := by
  obtain ⟨hb, rfl⟩ := FrameFormat.head_eq_body h
  have hmax : b.length ≤ maxRecordBytes := hb
  have hlt : maxRecordBytes < endMarker := by decide
  have hlen : takeUint32 (frameFormat.frame b ++ rest) =
      some (b.length, putUint32 (crc32c b) ++ (b ++ rest)) := by
    rw [FrameFormat.frame, append_assoc, append_assoc]
    exact takeUint32_putUint32 (by unfold maxRecordBytes at hmax; omega) _
  have hcrc := takeUint32_putUint32 (crc32c_lt b) (b ++ rest)
  rw [recoverLoop, hlen]
  simp [hcrc, show ¬ b.length = endMarker by omega, show ¬ maxRecordBytes < b.length by omega]

lemma length_frame (b : Bytes) : (encodeFrame b).length = 8 + b.length := by
  simp only [encodeFrame, length_append, length_putUint32]

lemma frames_cons (b : Bytes) (bodies : List Bytes) :
    frameFormat.frames (b :: bodies) = encodeFrame b ++ frameFormat.frames bodies := rfl

/-- The scan goes to the end of the frames and stops where the split of the log does. -/
lemma recoverLoop_of_split (h : frameFormat.Split bs bodies t) {fuel : Nat}
    (hf : bs.length < fuel) (pos : Nat) : recoverLoop isNewest fuel bs pos pos =
      scanned isNewest t (pos + bs.length) (pos + (frameFormat.frames bodies).length) := by
  induction h generalizing fuel pos with
  | stop h =>
    obtain ⟨fuel, rfl⟩ : ∃ k, fuel = k + 1 := ⟨fuel - 1, by omega⟩
    exact recoverLoop_stop h fuel pos pos
  | @body bs b rest bodies t h _ ih =>
    obtain ⟨fuel, rfl⟩ : ∃ k, fuel = k + 1 := ⟨fuel - 1, by omega⟩
    have hlen : bs.length = 8 + b.length + rest.length := by
      rw [(FrameFormat.head_eq_body h).2, ← encodeFrame_eq, length_append, length_frame]
    rw [recoverLoop_body h, ih (by omega), frames_cons, length_append, length_frame, hlen]
    congr 1 <;> omega

lemma recoverSegment_cases {r : Recovered} (h : recoverSegment file isNewest = .ok r) :
    (readLine file = none ∧ r = ⟨true, false, 0, file⟩) ∨
    ∃ line rest, readLine file = some (line, rest) ∧ r.headerless = false ∧
      r.corruptCount = (if isCorrupt (frameFormat.split rest).2 then 1 else 0) ∧
      (r.file = file ∨ ∃ cut, line.length < cut ∧ r.file = file.take cut) := by
  unfold recoverSegment at h
  split at h
  · next hline => exact .inl ⟨hline, (Except.ok.inj h).symm⟩
  next line rest hline =>
  split at h
  · cases h
  split at h
  · cases h
  rw [recoverLoop_of_split (FrameFormat.split_spec rest) (Nat.lt_succ_self _)] at h
  refine .inr ⟨line, rest, hline, ?_⟩
  split at h
  · next cut n hscan =>
    cases h
    obtain ⟨hcut, rfl⟩ := Prod.mk.inj hscan
    refine ⟨rfl, rfl, .inr ⟨cut, ?_, rfl⟩⟩
    unfold tornTail at hcut
    split_ifs at hcut
    cases hcut
    omega
  · next n hscan =>
    cases h
    exact ⟨rfl, (Prod.mk.inj hscan).2.symm, .inl rfl⟩

variable {conv : FloatText}

lemma SegmentIter.readAllAux_of_split (h : frameFormat.Split bs bodies t) {fuel : Nat}
    (hf : bs.length < fuel) : (SegmentIter.readAllAux conv fuel bs).2 = .corruptRecord ↔
      isCorrupt t = true ∨ ∃ b ∈ bodies, Envelope.unmarshal conv b = none := by
  induction h generalizing fuel with
  | @stop bs t h =>
    obtain ⟨fuel, rfl⟩ : ∃ k, fuel = k + 1 := ⟨fuel - 1, by omega⟩
    rw [SegmentIter.readAllAux, SegmentIter.next_eq, h]
    cases t <;> simp [isCorrupt]
  | @body bs b rest bodies t h _ ih =>
    obtain ⟨fuel, rfl⟩ : ∃ k, fuel = k + 1 := ⟨fuel - 1, by omega⟩
    have hlt : rest.length < fuel := by have := FrameFormat.length_lt_of_body h; omega
    have hrest := ih hlt
    rw [SegmentIter.readAllAux, SegmentIter.next_eq, h]
    cases hb : Envelope.unmarshal conv b with
    | none => simp [hb]
    | some env => simp [hb, hrest]

lemma recoverSegment_of_readSegment {rest : Bytes} (h : readSegment file = .ok rest)
    (isNewest : Bool) : ∃ r, recoverSegment file isNewest = .ok r ∧
      r.corruptCount = if isCorrupt (frameFormat.split rest).2 then 1 else 0 := by
  unfold readSegment at h
  split at h
  · cases h
  next line rest' hline =>
  split at h
  · cases h
  next hdr hhdr =>
  split at h
  · cases h
  next hmagic =>
  split at h
  · cases h
  obtain rfl : rest' = rest := by simpa using h
  have hok : ∃ r, recoverSegment file isNewest = .ok r := by
    simp only [recoverSegment, hline, hhdr, if_neg hmagic]
    split <;> exact ⟨_, rfl⟩
  obtain ⟨r, hr⟩ := hok
  refine ⟨r, hr, ?_⟩
  rcases recoverSegment_cases hr with ⟨hnone, -⟩ | ⟨line', rest, hsome, -, hcount, -⟩
  · rw [hline] at hnone
    cases hnone
  · rw [hline] at hsome
    cases hsome
    exact hcount

/-- The contents on which both decoders see the same: a record is there that the checks of
length and checksum refuse, or every body those checks accept is an envelope. -/
def Decodable (conv : FloatText) (rest : Bytes) : Prop :=
  isCorrupt (frameFormat.split rest).2 = true ∨
    ∀ b ∈ (frameFormat.split rest).1, (Envelope.unmarshal conv b).isSome = true

instance (conv : FloatText) (rest : Bytes) : Decidable (Decodable conv rest) :=
  inferInstanceAs (Decidable (_ ∨ _))

/-- The condition is exact: the decoders agree on nothing else. -/
lemma readAll_agrees_iff_decodable {file rest : Bytes} (h : readSegment file = .ok rest)
    (isNewest : Bool) : ((SegmentIter.readAll conv rest).2 = .corruptRecord ↔
      ∃ r, recoverSegment file isNewest = .ok r ∧ 0 < r.corruptCount) ↔ Decodable conv rest := by
  obtain ⟨r, hr, hcount⟩ := recoverSegment_of_readSegment h isNewest
  have hread := @SegmentIter.readAllAux_of_split _ _ _ conv (FrameFormat.split_spec rest) _
    (Nat.lt_succ_self _)
  have hrec : (∃ r, recoverSegment file isNewest = .ok r ∧ 0 < r.corruptCount) ↔
      isCorrupt (frameFormat.split rest).2 = true := by
    constructor
    · rintro ⟨r', hr', hpos⟩
      obtain rfl : r = r' := by rw [hr] at hr'; simpa using hr'
      by_contra hc
      rw [hcount, if_neg hc] at hpos
      omega
    · intro hc
      exact ⟨r, hr, by rw [hcount, if_pos hc]; omega⟩
  rw [SegmentIter.readAll, hread, hrec, Decodable]
  by_cases hc : isCorrupt (frameFormat.split rest).2 = true
  · simp [hc]
  · simp [hc, Option.isSome_iff_ne_none]

/-- **Detection and import agree** on every segment with a version-1 header whose checksummed
bodies are envelopes, or that has a record the checksums refuse: the iterator stops with a
corrupt record exactly when recovery counts one. -/
theorem readAll_corrupt_iff_recoverSegment (file rest : Bytes) (isNewest : Bool)
    (h : readSegment file = .ok rest) (hd : Decodable conv rest) :
    (SegmentIter.readAll conv rest).2 = .corruptRecord ↔
      ∃ r, recoverSegment file isNewest = .ok r ∧ 0 < r.corruptCount :=
  (readAll_agrees_iff_decodable h isNewest).2 hd

def closedSegment : Bytes :=
  headerLine (ascii "vm") (ascii "run") ++ (encodeFrame (ascii "null") ++ putUint32 endMarker)

theorem readAll_corrupt_iff_recoverSegment_closedSegment :
    readSegment closedSegment = .ok (encodeFrame (ascii "null") ++ putUint32 endMarker) ∧
    ((SegmentIter.readAll .smallNumerals (encodeFrame (ascii "null") ++ putUint32 endMarker)).2 =
        .corruptRecord ↔
      ∃ r, recoverSegment closedSegment false = .ok r ∧ 0 < r.corruptCount) := by
  have hopen : readSegment closedSegment =
      .ok (encodeFrame (ascii "null") ++ putUint32 endMarker) := by decide +kernel
  exact ⟨hopen, readAll_corrupt_iff_recoverSegment closedSegment _ false hopen
    (by decide +kernel)⟩

/-- A segment with one record of length zero: its checksum is right and its body is no
envelope. -/
def zeroFrameSegment : Bytes :=
  headerLine (ascii "vm") (ascii "run") ++ encodeFrame []

/-- On a record of length zero the iterator stops as corrupt, and recovery reports nothing on
any segment, so no gap record comes of it. -/
theorem zeroFrameSegment_disagrees :
    readSegment zeroFrameSegment = .ok (encodeFrame []) ∧
    (SegmentIter.readAll .smallNumerals (encodeFrame [])).2 = .corruptRecord ∧
    ∀ isNewest, recoverSegment zeroFrameSegment isNewest =
      .ok ⟨false, false, 0, zeroFrameSegment⟩ := by
  decide +kernel

end Observatory.Spool
