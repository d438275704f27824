/-
# Segments as a writer lays them out

A header line, the frames of the records and, once the segment is retired, the end marker.
What every reader of a segment finds in such a file: the header, the records in order, the
place of each, the marker. The proofs about the spool use these facts and never look at bytes.
-/
import Observatory.Spool.Recovery

namespace Observatory.Spool

open Lib Events List FrameFormat

/-! ## The header line -/

lemma readLine_append {line : Bytes} (h : 0x0A ∉ line) (rest : Bytes) :
    readLine (line ++ 0x0A :: rest) = some (line, rest) := by
  have hall : ∀ b ∈ line, (b != 0x0A) = true := by
    intro b hb
    rw [bne_iff_ne]
    rintro rfl
    exact h hb
  rw [readLine, if_pos (by simp), takeWhile_append_of_pos hall,
    dropWhile_append_of_pos hall]
  simp

section Header

variable (vmID instanceID : Bytes)

/-- The header a writer writes. -/
def writtenHeader : SegmentHeader := ⟨segmentMagic, segmentVersion, vmID, instanceID⟩

attribute [local simp] SegmentHeader.members writtenHeader

lemma newline_not_mem_marshal : 0x0A ∉ (writtenHeader vmID instanceID).marshal := by
  intro h
  have hnum : (0x0A : UInt8) ∉ formatInt segmentVersion := by decide
  have hquote (s : Bytes) : (0x0A : UInt8) ∉ quote s := fun hb =>
    absurd (le_of_mem_quote hb) (by decide)
  simp [SegmentHeader.marshal, Json.encode, Json.encodeMembers, Json.encodeMoreMembers, hnum,
    hquote] at h

lemma headerLine_eq : headerLine vmID instanceID =
    (writtenHeader vmID instanceID).marshal ++ [0x0A] := rfl

lemma readLine_headerLine (rest : Bytes) :
    readLine (headerLine vmID instanceID ++ rest) =
      some ((writtenHeader vmID instanceID).marshal, rest) := by
  rw [headerLine_eq, append_assoc]
  exact readLine_append (newline_not_mem_marshal vmID instanceID) rest

lemma unmarshal_writtenHeader :
    SegmentHeader.unmarshal (writtenHeader vmID instanceID).marshal =
      some (writtenHeader (sanitize vmID) (sanitize instanceID)) := by
  have hnum : isNumber (formatInt segmentVersion) = true := by decide +kernel
  have hparse := @Json.parse_encode (.obj (writtenHeader vmID instanceID).members) maxNestingDepth
    (by simp [Json.numsOk, Json.allNums, Json.allNumsMembers, hnum])
    (by simp [Json.depth, Json.depthMembers]; decide)
  have hclean : (Json.obj (writtenHeader vmID instanceID).members).clean =
      .obj (writtenHeader (sanitize vmID) (sanitize instanceID)).members := by
    have h0 : sanitize segmentMagic = segmentMagic := by decide +kernel
    have h1 : sanitize SegmentHeader.Field.magic.name = SegmentHeader.Field.magic.name := by
      decide +kernel
    have h2 : sanitize SegmentHeader.Field.version.name = SegmentHeader.Field.version.name := by
      decide +kernel
    have h3 : sanitize SegmentHeader.Field.vmID.name = SegmentHeader.Field.vmID.name := by
      decide +kernel
    have h4 : sanitize SegmentHeader.Field.instanceID.name =
      SegmentHeader.Field.instanceID.name := by decide +kernel
    simp [Json.clean, Json.cleanMembers, h0, h1, h2, h3, h4]
  have hf1 : lookupField SegmentHeader.fields SegmentHeader.Field.magic.name = some .magic := by
    decide +kernel
  have hf2 : lookupField SegmentHeader.fields SegmentHeader.Field.version.name =
    some .version := by decide +kernel
  have hf3 : lookupField SegmentHeader.fields SegmentHeader.Field.vmID.name = some .vmID := by
    decide +kernel
  have hf4 : lookupField SegmentHeader.fields SegmentHeader.Field.instanceID.name =
    some .instanceID := by decide +kernel
  have hint : parseInt64 (formatInt segmentVersion) = some segmentVersion := by decide
  rw [SegmentHeader.unmarshal, SegmentHeader.marshal, hparse, hclean]
  simp only [Option.bind_some, SegmentHeader.decode, SegmentHeader.members, decodeStruct_append,
    decodeStruct_singleton _ hf1, decodeStruct_singleton _ hf2, decodeStruct_singleton _ hf3,
    decodeStruct_singleton _ hf4, SegmentHeader.set, Json.decodeText, Json.decodeInt,
    Option.map_some, writtenHeader, hint]

lemma readSegment_headerLine (rest : Bytes) :
    readSegment (headerLine vmID instanceID ++ rest) = .ok rest := by
  rw [readSegment, readLine_headerLine]
  simp only [unmarshal_writtenHeader]
  simp

variable {vmID instanceID}

lemma prefix_headerLine {file : Bytes} (h : file <+: headerLine vmID instanceID) :
    file = headerLine vmID instanceID ∨ readLine file = none := by
  rw [headerLine_eq] at h ⊢
  rcases prefix_concat_iff.1 h with h | h
  · exact .inl h
  · right
    have hmem : file.contains 0x0A = false := by
      rw [Bool.eq_false_iff]
      intro hc
      exact newline_not_mem_marshal vmID instanceID (h.subset (elem_iff.1 hc))
    rw [readLine, if_neg (by rw [hmem]; simp)]

lemma readSegment_cut {file rest : Bytes} (h : file <+: headerLine vmID instanceID)
    (hopen : readSegment file = .ok rest) : rest = [] := by
  rcases prefix_headerLine h with rfl | hline
  · have := readSegment_headerLine vmID instanceID []
    rw [append_nil, hopen] at this
    simpa using this
  · rw [readSegment, hline] at hopen
    cases hopen

end Header

lemma readSegment_nil : readSegment [] = .error .noHeader := by decide

variable {isNewest : Bool} {file : Bytes}

lemma recoverSegment_cut {r : Recovered} (h : recoverSegment file isNewest = .ok r) :
    r.file <+: file := by
  rcases recoverSegment_cases h with ⟨-, rfl⟩ | ⟨line, rest, -, -, -, hfile | ⟨cut, -, hfile⟩⟩
  · exact prefix_refl _
  · rw [hfile]
  · rw [hfile]
    exact take_prefix _ _

lemma readLine_eq_some {line rest : Bytes} (h : readLine file = some (line, rest)) :
    file = line ++ 0x0A :: rest := by
  unfold readLine at h
  split at h
  · next hmem =>
    cases h
    have hne : file.dropWhile (· != 0x0A) ≠ [] := by
      rw [Ne, dropWhile_eq_nil_iff]
      exact fun hall => by simpa using hall 0x0A (contains_iff_mem.1 hmem)
    have hhead : (file.dropWhile (· != 0x0A)).head hne = 0x0A := by
      simpa using head_dropWhile_not (· != 0x0A) hne
    have hcons := cons_head_tail hne
    rw [hhead] at hcons
    rw [hcons, takeWhile_append_dropWhile]
  · cases h

lemma recoverSegment_readLine {r : Recovered} (h : recoverSegment file isNewest = .ok r) :
    (readLine r.file).isSome = (readLine file).isSome := by
  rcases recoverSegment_cases h with ⟨-, rfl⟩ | ⟨line, rest, hline, -, -, hfile | ⟨cut, hcut, hfile⟩⟩
  · rfl
  · rw [hfile]
  · -- the newline stands before the cut
    have hmem : 0x0A ∈ file.take cut := by
      rw [readLine_eq_some hline, take_append, mem_append]
      right
      rw [take_cons (by omega)]
      exact mem_cons_self
    rw [hfile, hline]
    simp [readLine, hmem]

/-! ## A laid out segment -/

/-- What follows the records. -/
def tailBytes (closed : Bool) : Bytes := if closed then putUint32 endMarker else []

def layout (vmID instanceID : Bytes) (bodies : List Bytes) (closed : Bool) : Bytes :=
  headerLine vmID instanceID ++ (frameFormat.frames bodies ++ tailBytes closed)

/-- A record as it is framed: within the limit, and the text of an object. -/
def IsBody (b : Bytes) : Prop := b.length ≤ maxRecordBytes ∧ b.getLast? = some 0x7D

def records (file : Bytes) : List Bytes :=
  match readSegment file with
  | .ok rest => (frameFormat.split rest).1
  | .error _ => []

/-- The place of the record `n`. -/
def offsetOf (vmID instanceID : Bytes) (bodies : List Bytes) (n : Nat) : Nat :=
  (headerLine vmID instanceID).length + (frameFormat.frames (bodies.take n)).length

lemma encodeFrame_ne_headerLine {b : Bytes} (hb : IsBody b) (vmID instanceID : Bytes) :
    encodeFrame b ≠ headerLine vmID instanceID := by
  intro h
  have hlast := congrArg List.getLast? h
  rw [headerLine_eq, List.getLast?_append, encodeFrame_eq, frame, List.getLast?_append,
    hb.2] at hlast
  cases hlast

section Layout

variable {vmID instanceID : Bytes} {bodies : List Bytes} {closed : Bool}

lemma readSegment_layout :
    readSegment (layout vmID instanceID bodies closed) =
      .ok (frameFormat.frames bodies ++ tailBytes closed) :=
  readSegment_headerLine vmID instanceID _

lemma head_tailBytes (closed : Bool) :
    frameFormat.head (tailBytes closed) = .stop (if closed then .marked else .torn) := by
  cases closed with
  | false => exact head_nil
  | true =>
    have := @head_marker frameFormat []
    rwa [append_nil] at this

lemma split_layout (hb : ∀ b ∈ bodies, b.length ≤ maxRecordBytes) :
    frameFormat.Split (frameFormat.frames bodies ++ tailBytes closed) bodies
      (if closed then .marked else .torn) := by
  have := FrameFormat.Split.frames_append (F := frameFormat) hb (.stop (head_tailBytes closed))
  rwa [append_nil] at this

lemma records_layout (hb : ∀ b ∈ bodies, b.length ≤ maxRecordBytes) :
    records (layout vmID instanceID bodies closed) = bodies := by
  rw [records, readSegment_layout]
  simp only [split_eq (split_layout hb)]

lemma frames_append (as bs : List Bytes) :
    frameFormat.frames (as ++ bs) = frameFormat.frames as ++ frameFormat.frames bs :=
  flatMap_append

lemma frames_singleton (b : Bytes) : frameFormat.frames [b] = encodeFrame b := by
  simp [frames, encodeFrame_eq]

lemma layout_append_frame (b : Bytes) :
    layout vmID instanceID bodies false ++ encodeFrame b =
      layout vmID instanceID (bodies ++ [b]) false := by
  simp [layout, tailBytes, frames_append, frames_singleton]

lemma layout_append_marker :
    layout vmID instanceID bodies false ++ putUint32 endMarker =
      layout vmID instanceID bodies true := by
  simp [layout, tailBytes]

lemma layout_nil : layout vmID instanceID [] false = headerLine vmID instanceID := by
  simp [layout, tailBytes, frames]

lemma drop_offsetOf (n : Nat) :
    (layout vmID instanceID bodies closed).drop (offsetOf vmID instanceID bodies n) =
      frameFormat.frames (bodies.drop n) ++ tailBytes closed := by
  have hsplit : frameFormat.frames bodies =
      frameFormat.frames (bodies.take n) ++ frameFormat.frames (bodies.drop n) := by
    rw [← frames_append, take_append_drop]
  rw [layout, hsplit, offsetOf, append_assoc, ← append_assoc]
  exact drop_left' (by simp)

variable {n : Nat}

lemma offsetOf_succ {b : Bytes} (h : bodies[n]? = some b) :
    offsetOf vmID instanceID bodies (n + 1) = offsetOf vmID instanceID bodies n + (8 + b.length) := by
  rw [offsetOf, offsetOf, take_add_one, h, Option.toList_some, frames_append,
    frames_singleton, length_append, length_frame]
  omega

/-- The place of a record does not change when others follow. -/
lemma offsetOf_append (h : n ≤ bodies.length) (more : List Bytes) :
    offsetOf vmID instanceID (bodies ++ more) n = offsetOf vmID instanceID bodies n := by
  rw [offsetOf, offsetOf, take_append_of_le_length h]

lemma offsetOf_zero : offsetOf vmID instanceID bodies 0 = (headerLine vmID instanceID).length := by
  simp [offsetOf, frames]

lemma length_layout_sub_rest : (layout vmID instanceID bodies closed).length -
      (frameFormat.frames bodies ++ tailBytes closed).length = offsetOf vmID instanceID bodies 0 := by
  rw [offsetOf_zero, layout, length_append]
  omega

variable {conv : FloatText}

lemma next_layout (hb : ∀ b ∈ bodies, b.length ≤ maxRecordBytes) (n : Nat) :
    SegmentIter.next conv
        ((layout vmID instanceID bodies closed).drop (offsetOf vmID instanceID bodies n)) =
      match bodies[n]? with
      | none => .eof
      | some b =>
        match Envelope.unmarshal conv b with
        | none => .corruptRecord
        | some env => .envelope env (frameFormat.frames (bodies.drop (n + 1)) ++ tailBytes closed) := by
  rw [drop_offsetOf, SegmentIter.next_eq]
  cases hget : bodies[n]? with
  | none =>
    have hdrop : bodies.drop n = [] := drop_of_length_le (List.getElem?_eq_none_iff.1 hget)
    rw [hdrop, frames, flatMap_nil, nil_append, head_tailBytes]
    cases closed <;> rfl
  | some b =>
    have hdrop : bodies.drop n = b :: bodies.drop (n + 1) := by
      obtain ⟨hlt, rfl⟩ := List.getElem?_eq_some_iff.1 hget
      exact drop_eq_getElem_cons hlt
    have hlen : b.length ≤ frameFormat.maxBody := hb b (mem_of_getElem? hget)
    rw [hdrop, frames, flatMap_cons, append_assoc,
      head_frame hlen]
    rfl

/-- How far reading a record moves. -/
lemma length_drop_offsetOf {b : Bytes} (h : bodies[n]? = some b) :
    offsetOf vmID instanceID bodies n +
        (((layout vmID instanceID bodies closed).drop (offsetOf vmID instanceID bodies n)).length -
          (frameFormat.frames (bodies.drop (n + 1)) ++ tailBytes closed).length) =
      offsetOf vmID instanceID bodies (n + 1) := by
  have hdrop : bodies.drop n = b :: bodies.drop (n + 1) := by
    obtain ⟨hlt, rfl⟩ := List.getElem?_eq_some_iff.1 h
    exact drop_eq_getElem_cons hlt
  rw [drop_offsetOf, offsetOf_succ h, hdrop, frames_cons]
  simp only [length_append, length_frame]
  omega

/-- Recovery of a file with a written header: what stands behind the frames is cut off when it is
torn and the segment is not the newest. -/
lemma recoverSegment_headerLine {bs : Bytes} {t : FrameFormat.Tail} (isNewest : Bool)
    (h : frameFormat.Split bs bodies t) :
    recoverSegment (headerLine vmID instanceID ++ bs) isNewest =
      .ok (if t = .torn ∧ isNewest = false ∧ (frameFormat.frames bodies).length < bs.length then
        ⟨false, true, 0, headerLine vmID instanceID ++ bs.take (frameFormat.frames bodies).length⟩
      else ⟨false, false, if isCorrupt t then 1 else 0, headerLine vmID instanceID ++ bs⟩) := by
  have hlen : (writtenHeader vmID instanceID).marshal.length + 1 =
      (headerLine vmID instanceID).length := by rw [headerLine_eq, length_append]; rfl
  rw [recoverSegment, readLine_headerLine]
  simp only [unmarshal_writtenHeader, recoverLoop_of_split h (Nat.lt_succ_self _), hlen]
  rw [if_neg (by simp [writtenHeader]), scanned, tornTail]
  cases t with
  | torn =>
    by_cases hcut : isNewest = false ∧ (frameFormat.frames bodies).length < bs.length
    · simp [hcut, isCorrupt, Nat.not_le.2 hcut.2, take_append]
    · have hnone : (isNewest || decide ((headerLine vmID instanceID).length + bs.length ≤
          (headerLine vmID instanceID).length + (frameFormat.frames bodies).length)) = true := by
        cases isNewest with
        | true => rfl
        | false => simpa using hcut
      simp only [true_and, if_neg hcut, hnone, if_true]
  | marked | oversize | badSum => rfl

lemma recoverSegment_layout (isNewest : Bool) (hb : ∀ b ∈ bodies, b.length ≤ maxRecordBytes) :
    recoverSegment (layout vmID instanceID bodies closed) isNewest =
      .ok ⟨false, false, 0, layout vmID instanceID bodies closed⟩ := by
  rw [layout, recoverSegment_headerLine isNewest (split_layout hb)]
  cases closed <;> simp [tailBytes, isCorrupt]

lemma getLast_layout (hb : ∀ b ∈ bodies, IsBody b) :
    (layout vmID instanceID bodies false).getLast? = some 0x0A ∨
      (layout vmID instanceID bodies false).getLast? = some 0x7D := by
  rcases eq_nil_or_concat bodies with rfl | ⟨front, b, rfl⟩
  · left
    simp [layout_nil, headerLine_eq]
  · right
    have hlast := (hb b (by simp)).2
    have hne : b ≠ [] := by
      rintro rfl
      simp at hlast
    rw [concat_eq_append, ← layout_append_frame, encodeFrame]
    simp [List.getLast?_append, hlast]

lemma four_le_length_headerLine (vmID instanceID : Bytes) :
    4 ≤ (headerLine vmID instanceID).length := by
  simp [headerLine, SegmentHeader.marshal, SegmentHeader.members, Json.encode,
    Json.encodeMembers, Json.encodeMoreMembers, quote]
  omega

lemma segmentHasEndMarker_append_marker (f : Bytes) :
    segmentHasEndMarker (f ++ putUint32 endMarker) = some true := by
  have hdrop : (f ++ putUint32 endMarker).drop ((f ++ putUint32 endMarker).length - 4) =
      putUint32 endMarker := drop_left' (by simp)
  rw [segmentHasEndMarker, if_neg (by simp), hdrop]
  simp

/-- One byte among the last four tells that there is no marker. -/
lemma segmentHasEndMarker_eq_false {f : Bytes} {i : Nat} {x : UInt8} (h4 : 4 ≤ f.length)
    (hi : f.length ≤ i + 4) (hget : f[i]? = some x) (hx : x ≠ 0xFF) :
    segmentHasEndMarker f = some false := by
  rw [segmentHasEndMarker, if_neg (by omega)]
  congr 1
  rw [beq_eq_false_iff_ne]
  intro hdrop
  obtain ⟨hlt, -⟩ := List.getElem?_eq_some_iff.1 hget
  have hend : f[i]? = (putUint32 endMarker)[i - (f.length - 4)]? := by
    rw [← hdrop, List.getElem?_drop]
    congr 1
    omega
  have hones : putUint32 endMarker = List.replicate 4 0xFF := rfl
  rw [hget, hones, List.getElem?_replicate, if_pos (by omega)] at hend
  exact hx (Option.some.inj hend)

lemma segmentHasEndMarker_layout (hb : ∀ b ∈ bodies, IsBody b) :
    segmentHasEndMarker (layout vmID instanceID bodies closed) = some closed := by
  cases closed with
  | true =>
    rw [← layout_append_marker]
    exact segmentHasEndMarker_append_marker _
  | false =>
    have hlen : 4 ≤ (layout vmID instanceID bodies false).length := by
      have := four_le_length_headerLine vmID instanceID
      rw [layout, length_append]
      omega
    rcases @getLast_layout vmID instanceID bodies hb with h | h <;> rw [List.getLast?_eq_getElem?] at h
    · exact segmentHasEndMarker_eq_false hlen (by omega) h (by decide)
    · exact segmentHasEndMarker_eq_false hlen (by omega) h (by decide)

end Layout

/-! ## Segments -/

/-- A laid out segment: what its file stands for. -/
structure Segment where
  vmID : Bytes
  instanceID : Bytes
  bodies : List Bytes
  closed : Bool
  isBody : ∀ b ∈ bodies, IsBody b

namespace Segment

def bytes (g : Segment) : Bytes := layout g.vmID g.instanceID g.bodies g.closed

def offset (g : Segment) (n : Nat) : Nat := offsetOf g.vmID g.instanceID g.bodies n

def new (vmID instanceID : Bytes) : Segment := ⟨vmID, instanceID, [], false, by simp⟩

/-- One more record. -/
def push (g : Segment) (b : Bytes) (hb : IsBody b) : Segment :=
  { g with
    bodies := g.bodies ++ [b]
    isBody := by
      intro x hx
      rcases mem_append.1 hx with hx | hx
      · exact g.isBody x hx
      · rw [mem_singleton.1 hx]
        exact hb }

/-- The end marker is written. -/
def retired (g : Segment) : Segment := { g with closed := true }

lemma length_le (g : Segment) : ∀ b ∈ g.bodies, b.length ≤ maxRecordBytes :=
  fun b hb => (g.isBody b hb).1

@[simp] lemma records_bytes (g : Segment) : records g.bytes = g.bodies := records_layout g.length_le

lemma hasEndMarker_bytes (g : Segment) : segmentHasEndMarker g.bytes = some g.closed :=
  segmentHasEndMarker_layout g.isBody

lemma recover_bytes (g : Segment) (isNewest : Bool) :
    recoverSegment g.bytes isNewest = .ok ⟨false, false, 0, g.bytes⟩ :=
  recoverSegment_layout isNewest g.length_le

variable {g : Segment}

/-- A file shows whether its segment is retired. -/
lemma closed_eq_of_bytes {g' : Segment} (h : g.bytes = g'.bytes) : g.closed = g'.closed := by
  have := g.hasEndMarker_bytes
  rw [h, g'.hasEndMarker_bytes] at this
  exact (Option.some.inj this).symm

lemma bytes_ne_nil (g : Segment) : g.bytes ≠ [] := by
  intro h
  have := g.hasEndMarker_bytes
  rw [h] at this
  exact absurd this (by simp [segmentHasEndMarker])

lemma bytes_new (vmID instanceID : Bytes) : (new vmID instanceID).bytes = headerLine vmID instanceID :=
  layout_nil

lemma bytes_push (hopen : g.closed = false) {b : Bytes} (hb : IsBody b) :
    (g.push b hb).bytes = g.bytes ++ encodeFrame b := by
  simp only [bytes, push, hopen]
  exact (layout_append_frame b).symm

lemma bytes_retired (hopen : g.closed = false) :
    g.retired.bytes = g.bytes ++ putUint32 endMarker := by
  simp only [bytes, retired, hopen]
  exact layout_append_marker.symm

/-- The place of a record is not moved by the records after it. -/
lemma offset_push (g : Segment) {b : Bytes} (hb : IsBody b) {n : Nat} (hn : n ≤ g.bodies.length) :
    (g.push b hb).offset n = g.offset n :=
  offsetOf_append hn [b]

end Segment

end Observatory.Spool
