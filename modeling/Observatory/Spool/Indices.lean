/-
# Segment indices

A segment is never created under an index that the cursor has named or that stands on disk.
The argument: a writer lists the directory first and reads the cursor after it, and the importer
writes a cursor only for a segment that is on disk, so whatever the importer does between the
two reads is below the larger of them; later indices are counted up by the writer itself.
-/
import Observatory.Spool.System

namespace Observatory.Spool

open Lib Events List FileOp

/-! ## The operations of a call -/

/-- An operation that neither creates nor removes a file. -/
def FileOp.tame : FileOp → Bool
  | .create _ | .remove _ => false
  | _ => true

/-- How far a call has got with the segment it creates: not begun, the file exists, the header is
written and the file is to be removed again, or over. -/
inductive Stage where
  | before
  | created
  | headed
  | after

/-- The operations that are left of a call that creates the segment `n`, by its stage. -/
inductive CallOps (n : Nat) : Stage → List FileOp → Prop
  | rest {ops} (h : ops.all FileOp.tame = true) : CallOps n .after ops
  | create {ops} (hn : n ≤ maxSegmentIndex) (h : CallOps n .created ops) :
      CallOps n .before (.create n :: ops)
  | header {bytes vmID instanceID ops} (hb : bytes <+: headerLine vmID instanceID)
      (h : ops.all FileOp.tame = true) : CallOps n .created (.write n bytes :: ops)
  | half {bytes vmID instanceID ops} (hb : bytes <+: headerLine vmID instanceID)
      (h : ops.all FileOp.tame = true) : CallOps n .created (.write n bytes :: .remove n :: ops)
  | discard {ops} (h : ops.all FileOp.tame = true) : CallOps n .headed (.remove n :: ops)

variable {rest : Bytes} {c : Cursor} {d : Dir Bytes} {ops : List FileOp} {todo : List Nat}
  {k n : Nat} {ack f : Option Bytes} {next : Option Writer} {r : Reading} {side : WriterSide}

lemma CallOps.append {st : Stage} {more : List FileOp} (h : CallOps n st ops)
    (hmore : more.all tame = true) : CallOps n st (ops ++ more) := by
  have hall {ops : List FileOp} (h : ops.all tame = true) :
      (ops ++ more).all tame = true := by
    rw [all_append, h, hmore]
    rfl
  induction h with
  | rest h => exact .rest (hall h)
  | create hn _ ih => exact .create hn ih
  | header hb h => exact .header hb (hall h)
  | half hb h => exact .half hb (hall h)
  | discard h => exact .discard (hall h)

/-- The operations of a call from a writer that has counted up to `i`, and the writer after it. -/
def Grows (i : Nat) (ops : List FileOp) (w : Writer) : Prop :=
  ops.all FileOp.tame = true ∧ i ≤ w.segIdx ∨ CallOps (i + 1) .before ops ∧ i + 1 ≤ w.segIdx

lemma Grows.append {i : Nat} {more : List FileOp} {w w' : Writer} (h : Grows i ops w)
    (hmore : more.all tame = true) (hw : w.segIdx = w'.segIdx) :
    Grows i (ops ++ more) w' := by
  rcases h with ⟨h, hi⟩ | ⟨h, hi⟩
  · exact .inl ⟨by rw [all_append, h, hmore]; rfl, hw ▸ hi⟩
  · exact .inr ⟨h.append hmore, hw ▸ hi⟩

lemma grows_andThen {i : Nat} {e : Effect} {k : Writer → Effect} (h : Grows i e.ops e.writer)
    (hk : ∀ w, (k w).ops.all tame = true ∧ (k w).writer.segIdx = w.segIdx) :
    Grows i (e.andThen k).ops (e.andThen k).writer := by
  unfold Effect.andThen
  split
  · exact h
  · exact h.append (hk _).1 (hk _).2.symm

namespace Writer

lemma createOps_callOps (cfg : WriterCfg) {n : Nat} (hn : n ≤ maxSegmentIndex) (o : CreateOutcome) :
    (createOps cfg n o).1 = [] ∨ CallOps n .before (createOps cfg n o).1 := by
  have hfull : headerLine cfg.vmID cfg.instanceID <+: headerLine cfg.vmID cfg.instanceID :=
    prefix_refl _
  cases o with
  | ok => exact .inr (.create hn (.header hfull rfl))
  | openError err => exact .inl rfl
  | failed stage removed err =>
    right
    cases stage <;> cases removed
    · exact .create hn (.header (List.take_prefix _ _) rfl)
    · exact .create hn (.half (List.take_prefix _ _) rfl)
    · exact .create hn (.header hfull rfl)
    · exact .create hn (.half hfull rfl)
    · exact .create hn (.header hfull rfl)
    · exact .create hn (.half hfull rfl)

lemma createSegment_callOps (w : Writer) (o : CreateOutcome) :
    (w.createSegment o).writer.segIdx = w.segIdx ∧
      ((w.createSegment o).ops = [] ∨ CallOps w.segIdx .before (w.createSegment o).ops) := by
  unfold createSegment
  split
  · exact ⟨rfl, .inl rfl⟩
  next hn =>
  have h := createOps_callOps w.cfg (Nat.le_of_not_lt hn) o
  split
  · next ops err heq =>
    rw [heq] at h
    exact ⟨rfl, h⟩
  · next ops heq =>
    rw [heq] at h
    exact ⟨rfl, h⟩

lemma damageOps_tame (w : Writer) (trimmed : Bool) : (w.damageOps trimmed).all tame = true := by
  cases trimmed <;> rfl

lemma retireSegment_tame (idx size : Nat) (o : RetireOutcome) :
    (retireSegment idx size o).1.all tame = true := by
  cases o <;> rfl

lemma advance_grows (w : Writer) (t : Faults) :
    Grows w.segIdx (w.advance t).ops (w.advance t).writer := by
  obtain ⟨hidx, hops⟩ := createSegment_callOps { w with segIdx := w.segIdx + 1 } t.create
  have hgrows : Grows w.segIdx (createSegment { w with segIdx := w.segIdx + 1 } t.create).ops
      (createSegment { w with segIdx := w.segIdx + 1 } t.create).writer := by
    rcases hops with h | h
    · exact .inl ⟨by rw [h]; rfl, by rw [hidx]; simp⟩
    · exact .inr ⟨h, by rw [hidx]⟩
  unfold advance
  dsimp only
  split
  · exact hgrows.append (w.damageOps_tame _) rfl
  · exact hgrows.append (retireSegment_tame _ _ _) rfl

lemma makeRoom_grows (w : Writer) (t : Faults) (n : Nat) :
    Grows w.segIdx (w.makeRoom t n).ops (w.makeRoom t n).writer := by
  unfold makeRoom
  split
  · exact w.advance_grows t
  · exact .inl ⟨rfl, le_rfl⟩

lemma writeFrame_tame (w : Writer) (frame what : Bytes) (d : Frame) (o : WriteOutcome)
    (trimmed : Bool) : (w.writeFrame frame what d o trimmed).ops.all tame = true ∧
      (w.writeFrame frame what d o trimmed).writer.segIdx = w.segIdx := by
  cases o <;> cases trimmed <;> exact ⟨rfl, rfl⟩

lemma writeLoss_tame (w : Writer) (t : Faults) (o : Outage) (loss : Bytes) :
    (w.writeLoss t o loss).ops.all tame = true ∧
      (w.writeLoss t o loss).writer.segIdx = w.segIdx := by
  obtain ⟨hops, hidx⟩ :=
    w.writeFrame_tame loss (ascii "loss record") (.loss o) t.loss t.trimmed
  unfold writeLoss Effect.andThen
  split
  · exact ⟨hops, hidx⟩
  · refine ⟨?_, hidx⟩
    rw [all_append, hops]
    rfl

lemma writePending_grows (w : Writer) (t : Faults) (loss : Option (Outage × Bytes)) (n : Nat) :
    Grows w.segIdx (w.writePending t loss n).ops (w.writePending t loss n).writer := by
  unfold writePending
  split
  · exact w.makeRoom_grows t n
  · exact grows_andThen (w.makeRoom_grows t _) fun w => w.writeLoss_tame t _ _

lemma append_grows (w : Writer) (t : Faults) (env : Envelope) :
    Grows w.segIdx (w.append t env).ops (w.append t env).writer := by
  have hnone : Grows w.segIdx [] w := .inl ⟨rfl, le_rfl⟩
  have hattempt (rec : Bytes) :
      Grows w.segIdx (w.attempt t env rec).ops (w.attempt t env rec).writer := by
    unfold attempt
    split
    · exact hnone
    split
    · exact hnone
    split
    · exact hnone
    · exact grows_andThen (w.writePending_grows t _ _) fun w => w.writeFrame_tame _ _ _ _ _
  unfold append
  split
  · exact hnone
  split
  · exact hnone
  split
  · exact hnone
  next body _ _ =>
  unfold finish
  split
  · exact (hattempt (encodeFrame body)).append rfl rfl
  · exact hattempt (encodeFrame body)

lemma close_grows (w : Writer) (t : Faults) :
    Grows w.segIdx (w.close t).ops (w.close t).writer := by
  have hnone (w : Writer) : Grows w.segIdx [] w := .inl ⟨rfl, le_rfl⟩
  have hrecord : Grows w.segIdx (recordOutage { w with closed := true } t).ops
      (recordOutage { w with closed := true } t).writer := by
    unfold recordOutage
    split
    · exact hnone _
    · exact writePending_grows { w with closed := true } t _ _
  unfold close
  split
  · exact hnone w
  dsimp only
  have hclose {e : Effect} (h : Grows w.segIdx e.ops e.writer) :
      Grows w.segIdx (e.ops ++ (retireSegment e.writer.current e.writer.segBytes t.closeRetire).1 ++
        [.status (e.writer.health t.updatedAt)]) e.writer :=
    (h.append (retireSegment_tame _ _ _) rfl).append rfl rfl
  split
  · exact hclose hrecord
  · exact hclose (e := ⟨{ w with closed := true }, [], [], none⟩) (hnone _)

lemma openWriter_callOps (cfg : WriterCfg) (idx : Nat) (o : CreateOutcome) (now : Instant) :
    ((openWriter cfg idx o now).2.all tame = true ∨
        CallOps idx .before (openWriter cfg idx o now).2) ∧
      ∀ w, (openWriter cfg idx o now).1 = some w → w.segIdx = idx := by
  unfold openWriter
  dsimp only
  split
  · exact ⟨.inl rfl, by simp⟩
  obtain ⟨hidx, hops⟩ := (fresh cfg idx now).createSegment_callOps o
  split
  · refine ⟨?_, by simp⟩
    rcases hops with h | h
    · exact .inl (by rw [h]; rfl)
    · exact .inr h
  · refine ⟨?_, ?_⟩
    · rcases hops with h | h
      · exact .inl (by rw [h]; rfl)
      · exact .inr (h.append rfl)
    · rintro w hsome
      cases hsome
      exact hidx

end Writer

/-! ## What is below an index -/

def Names (c : Cursor) (k : Nat) : Prop := k ≤ maxSegmentIndex ∧ c.segment = segmentName k

/-- Every segment on disk and the one the persisted cursor names are below `n`. -/
def Below (d : Dir Bytes) (cursorFile : Option Bytes) (n : Nat) : Prop :=
  (∀ k ∈ d.keys, k < n) ∧ ∀ c k, readCursor cursorFile = .ok c → Names c k → k < n

lemma Below.mono {m : Nat} (h : Below d f m) (hmn : m ≤ n) :
    Below d f n :=
  ⟨fun k hk => (h.1 k hk).trans_le hmn, fun c k hc hk => (h.2 c k hc hk).trans_le hmn⟩

lemma Below.of_keys {d' : Dir Bytes} (h : Below d f n) (hkeys : ∀ k ∈ d'.keys, k ∈ d.keys) :
    Below d' f n :=
  ⟨fun k hk => h.1 k (hkeys k hk), h.2⟩

lemma Below.cursorStep (h : Below d f n) {m : Nat} (hk : k ∈ d.keys) (hmax : k ≤ maxSegmentIndex)
    (hm : m < 2 ^ 63) :
    Below d (some (Cursor.marshal ⟨segmentName k, m⟩)) n := by
  refine ⟨h.1, fun c j hc hj => ?_⟩
  rw [readCursor_marshal hmax hm] at hc
  cases hc
  rw [← segmentName_injective hmax hj.1 hj.2]
  exact h.1 k hk

lemma place_of_names {j : Nat} (hj : Names c j) (hk : k ≤ maxSegmentIndex) :
    place c k = if k < j then .past else if k = j then .current else .future := by
  have heq : segmentName j = segmentName k ↔ k = j :=
    ⟨fun h => (segmentName_injective hj.1 hk h).symm, fun h => by rw [h]⟩
  simp only [place, hj.2, heq, bytesLt_segmentName hk hj.1, decide_eq_true_eq, ne_eq,
    segmentName_ne_nil, not_false_iff, true_and]

lemma place_of_empty (hc : c.segment = []) (k : Nat) : place c k = .future := by
  simp [place, hc, (segmentName_ne_nil k).symm]

lemma le_of_place {j : Nat} (hj : Names c j) (hk : k ≤ maxSegmentIndex) (h : place c k ≠ .past) :
    j ≤ k := by
  by_contra hlt
  rw [place_of_names hj hk, if_pos (by omega)] at h
  exact h rfl

/-! ## The invariant -/

/-- The file a cycle holds open. -/
def Pc.handle : Pc → Option Reading
  | .reading _ r _ | .committed _ r _ => some r
  | _ => none

/-- What is known of the segment a call creates, by the stage of the call. -/
def StageOk {H : Type} (s : System H) (n : Nat) : Stage → Prop
  | .before => Below s.disk s.cursorFile n
  | .created => Below s.disk s.cursorFile (n + 1) ∧
      (∀ file, s.disk.get n = some file → file = []) ∧
      ∀ r, s.pc.handle = some r → r.detached = false → r.segment ≠ n
  | .headed => Below s.disk s.cursorFile (n + 1) ∧
      (∀ file, s.disk.get n = some file →
        (∃ vmID instanceID, file <+: headerLine vmID instanceID) ∧
        ∀ c r todo, s.pc = .reading c r todo → r.detached = false → r.segment = n →
          file.length ≤ r.offset) ∧
      ∀ c r todo, s.pc = .committed c r todo → r.segment ≠ n
  | .after => Below s.disk s.cursorFile (n + 1)

/-- The writer's side: what it knows bounds what is there. -/
def SideOk {H : Type} (s : System H) : WriterSide → Prop
  | .absent => True
  | .listed _ found => ∃ listing, found = newestListed listing ∧ ∀ k ∈ s.disk.keys, k ∈ listing
  | .busy ops next _ => ∃ n st, CallOps n st ops ∧ (∀ w, next = some w → n ≤ w.segIdx) ∧
      StageOk s n st
  | .ready w => Below s.disk s.cursorFile (w.segIdx + 1)

/-- The cursor is in order: it can be read, it is the highest that was ever persisted, the cycle
holds the same one, and the segment a cycle reads is on disk and not before it. -/
structure CursorOk {H : Type} (s : System H) : Prop where
  keys_le : ∀ k ∈ s.disk.keys, k ≤ maxSegmentIndex
  readable : ∃ c, readCursor s.cursorFile = .ok c
  highest : ∀ c ∈ s.cursors, ∃ i k cur, Names c i ∧ readCursor s.cursorFile = .ok cur ∧
    Names cur k ∧ i ≤ k
  persisted : ∀ c, readCursor s.cursorFile = .ok c → c.segment ≠ [] → c ∈ s.cursors
  held : ∀ c, s.pc.cursor = some c → readCursor s.cursorFile = .ok c
  onDisk : ∀ r, s.pc.handle = some r → r.detached = false → r.segment ∈ s.disk.keys
  attached : ∀ c r todo, s.pc = .committed c r todo → r.detached = false
  notPast : ∀ c r todo, s.pc = .reading c r todo ∨ s.pc = .committed c r todo →
    r.segment ≤ maxSegmentIndex ∧ ∀ k, Names c k → k ≤ r.segment

/-- The invariant of the indices. -/
structure Ordered {H : Type} (s : System H) : Prop where
  cursor : CursorOk s
  side : SideOk s s.writer

variable {H : Type} {P : Setup H} {s s' : System H}

/-- Files are only removed or cut. -/
def Shrinks (d d' : Dir Bytes) : Prop :=
  ∀ k file', d'.get k = some file' → ∃ file, d.get k = some file ∧ file' <+: file

lemma Shrinks.refl (d : Dir Bytes) : Shrinks d d := fun _ file' h => ⟨file', h, prefix_refl _⟩

lemma Shrinks.keys {d' : Dir Bytes} (h : Shrinks d d') (hk : k ∈ d'.keys) :
    k ∈ d.keys := by
  obtain ⟨file', hfile'⟩ := Option.isSome_iff_exists.1 (Dir.mem_keys.1 hk)
  obtain ⟨file, hfile, -⟩ := h k file' hfile'
  exact Dir.mem_keys_of_get hfile

lemma shrinks_erase (d : Dir Bytes) (k : Nat) : Shrinks d (d.erase k) := by
  intro j file' h
  rw [Dir.get_erase] at h
  split at h
  · cases h
  · exact ⟨file', h, prefix_refl _⟩

lemma shrinks_modify {file cut : Bytes} (hfile : d.get k = some file) (hcut : cut <+: file) :
    Shrinks d (d.modify k fun _ => cut) := by
  intro j file' h
  rw [Dir.get_modify] at h
  split at h
  · next hjk =>
    rw [hfile] at h
    obtain rfl : cut = file' := by simpa using h
    exact ⟨file, hjk ▸ hfile, hcut⟩
  · exact ⟨file', h, prefix_refl _⟩

attribute [local simp] Pc.handle

/-- A step that leaves the cursor alone, adds no file and ends with nothing open. -/
lemma CursorOk.of_closed (h : CursorOk s) (hdisk : Shrinks s.disk s'.disk)
    (hfile : s'.cursorFile = s.cursorFile) (hcursors : s'.cursors = s.cursors)
    (hheld : ∀ c, s'.pc.cursor = some c → readCursor s.cursorFile = .ok c)
    (hpc : s'.pc.handle = none) : CursorOk s' where
  keys_le k hk := h.keys_le k (hdisk.keys hk)
  readable := by rw [hfile]; exact h.readable
  highest := by rw [hfile, hcursors]; exact h.highest
  persisted := by rw [hfile, hcursors]; exact h.persisted
  held c hc := by rw [hfile]; exact hheld c hc
  onDisk r hr := by rw [hpc] at hr; cases hr
  attached c r todo hc := by rw [hc] at hpc; exact absurd hpc (by simp)
  notPast c r todo hc := by
    rcases hc with hc | hc <;>
      · rw [hc] at hpc
        exact absurd hpc (by simp)

lemma SideOk.of_closed (h : SideOk s side) (hdisk : Shrinks s.disk s'.disk)
    (hfile : s'.cursorFile = s.cursorFile) (hpc : s'.pc.handle = none) : SideOk s' side := by
  have hbelow {n : Nat} (hb : Below s.disk s.cursorFile n) : Below s'.disk s'.cursorFile n := by
    rw [hfile]
    exact hb.of_keys fun k hk => hdisk.keys hk
  cases side with
  | absent => trivial
  | listed cfg found =>
    obtain ⟨listing, hfound, hl⟩ := h
    exact ⟨listing, hfound, fun k hk => hl k (hdisk.keys hk)⟩
  | ready w => exact hbelow h
  | busy ops next ack =>
    obtain ⟨n, st, hops, hnext, hst⟩ := h
    refine ⟨n, st, hops, hnext, ?_⟩
    cases st with
    | before | after => exact hbelow hst
    | created =>
      obtain ⟨hb, hempty, -⟩ := hst
      refine ⟨hbelow hb, fun file' hg => ?_, fun r hr => ?_⟩
      · obtain ⟨file, hg', hpre⟩ := hdisk n file' hg
        rw [hempty file hg'] at hpre
        exact prefix_nil.1 hpre
      · rw [hpc] at hr
        cases hr
    | headed =>
      obtain ⟨hb, hhead, -⟩ := hst
      refine ⟨hbelow hb, fun file' hg => ⟨?_, fun c r todo hc => ?_⟩, fun c r todo hc => ?_⟩
      · obtain ⟨file, hg', hpre⟩ := hdisk n file' hg
        obtain ⟨⟨v, i, hline⟩, -⟩ := hhead file hg'
        exact ⟨v, i, hpre.trans hline⟩
      all_goals
        rw [hc] at hpc
        exact absurd hpc (by simp)

lemma Ordered.of_closed (h : Ordered s) (hdisk : Shrinks s.disk s'.disk)
    (hfile : s'.cursorFile = s.cursorFile) (hcursors : s'.cursors = s.cursors)
    (hwriter : s'.writer = s.writer)
    (hheld : ∀ c, s'.pc.cursor = some c → readCursor s.cursorFile = .ok c)
    (hpc : s'.pc.handle = none) : Ordered s' :=
  ⟨h.cursor.of_closed hdisk hfile hcursors hheld hpc,
    by rw [hwriter]; exact h.side.of_closed hdisk hfile hpc⟩

/-! ## Steps of the importer -/

lemma next_nil (conv : FloatText) : SegmentIter.next conv [] = .eof := rfl

lemma bytes_of_envelope {conv : FloatText} {bs : Bytes} {env : Envelope}
    (hbs : r.bytes d = some bs) (hnext : SegmentIter.next conv bs = .envelope env rest) :
    r.detached = false ∧ ∃ file, d.get r.segment = some file ∧ bs = file.drop r.offset ∧
      r.offset < file.length := by
  unfold Reading.bytes at hbs
  split at hbs
  · cases hbs
    rw [next_nil] at hnext
    cases hnext
  · next hdet =>
    obtain ⟨file, hfile, rfl⟩ := Option.map_eq_some_iff.1 hbs
    refine ⟨by simpa using hdet, file, hfile, rfl, ?_⟩
    by_contra hle
    rw [drop_of_length_le (Nat.le_of_not_lt hle), next_nil] at hnext
    cases hnext

/-- A step on the same files has only the stages of a creation to look after. -/
lemma SideOk.of_stage (h : SideOk s side) (hdisk : s'.disk = s.disk)
    (hbelow : ∀ n, Below s.disk s.cursorFile n → Below s'.disk s'.cursorFile n)
    (hcreated : ∀ n, StageOk s n .created → StageOk s' n .created)
    (hheaded : ∀ n, StageOk s n .headed → StageOk s' n .headed) : SideOk s' side := by
  cases side with
  | absent => trivial
  | listed cfg found => simpa only [SideOk, hdisk] using h
  | ready w => exact hbelow _ h
  | busy ops next ack =>
    obtain ⟨n, st, hops, hnext, hst⟩ := h
    refine ⟨n, st, hops, hnext, ?_⟩
    cases st with
    | before | after => exact hbelow _ hst
    | created => exact hcreated n hst
    | headed => exact hheaded n hst

attribute [local simp] Pc.cursor

lemma Ordered.opened (h : Ordered s) {file : Bytes} (hpc : s.pc = .walking c (k :: todo))
    (hfile : s.disk.get k = some file) (hplace : place c k ≠ .past)
    (hopen : readSegment file = .ok rest) :
    Ordered { s with
      pc := .reading c ⟨k, file.length - rest.length, 0, resumeFrom c k, false⟩ todo } := by
  have hk := Dir.mem_keys_of_get hfile
  have hmax := h.cursor.keys_le k hk
  refine ⟨⟨h.cursor.keys_le, h.cursor.readable, h.cursor.highest, h.cursor.persisted, ?_,
    ?_, ?_, ?_⟩, ?_⟩
  · rintro c' hc'
    obtain rfl : c = c' := by simpa using hc'
    exact h.cursor.held c (by simp [hpc])
  · intro r hr _
    cases hr
    exact hk
  · intro c' r todo' hc'
    cases hc'
  · rintro c' r todo' (hc' | hc')
    · obtain ⟨rfl, rfl, -⟩ : c = c' ∧ _ = r ∧ todo = todo' := by simpa using hc'
      exact ⟨hmax, fun j hj => le_of_place hj hmax hplace⟩
    · cases hc'
  · refine h.side.of_stage rfl (fun n hb => hb) (fun n hst => ?_) fun n hst => ?_
    · refine ⟨hst.1, hst.2.1, ?_⟩
      rintro r hr - rfl
      cases hr
      -- nothing can be opened that has no header yet
      rw [hst.2.1 file hfile, readSegment_nil] at hopen
      cases hopen
    · refine ⟨hst.1, fun file' hg => ⟨(hst.2.1 file' hg).1, ?_⟩, ?_⟩
      · rintro c' r todo' hc' - rfl
        obtain ⟨-, rfl, -⟩ : c = c' ∧ _ = r ∧ todo = todo' := by simpa using hc'
        obtain rfl : file = file' := by rw [hfile] at hg; exact Option.some.inj hg
        obtain ⟨⟨v, i, hline⟩, -⟩ := hst.2.1 file hfile
        simp [readSegment_cut hline hopen]
      · intro c' r todo' hc'
        cases hc'

lemma Ordered.read (h : Ordered s) {bs : Bytes} {env : Envelope} (hpc : s.pc = .reading c r todo)
    (hbs : r.bytes s.disk = some bs) (hnext : SegmentIter.next P.conv bs = .envelope env rest)
    {store : Store H} {pc : Pc} {r' : Reading}
    (hpc' : pc = .reading c r' todo ∨ pc = .committed c r' todo) (hseg : r'.segment = r.segment)
    (hdet : r'.detached = r.detached) :
    Ordered { s with store := store, pc := pc } := by
  obtain ⟨hatt, file, hfile, rfl, hoff⟩ := bytes_of_envelope hbs hnext
  have hk := Dir.mem_keys_of_get hfile
  have hnp := h.cursor.notPast c r todo (.inl hpc)
  have hhandle : pc.handle = some r' := by rcases hpc' with rfl | rfl <;> rfl
  have hcur : pc.cursor = some c := by rcases hpc' with rfl | rfl <;> rfl
  refine ⟨⟨h.cursor.keys_le, h.cursor.readable, h.cursor.highest, h.cursor.persisted, ?_,
    ?_, ?_, ?_⟩, ?_⟩
  · intro c' hc'
    rw [hcur] at hc'
    cases hc'
    exact h.cursor.held c (by simp [hpc])
  · intro r'' hr _
    rw [hhandle] at hr
    cases hr
    rwa [hseg]
  · intro c' r'' todo' hc'
    have : pc.handle = some r'' := by rw [show pc = _ from hc']; rfl
    rw [hhandle] at this
    cases Option.some.inj this
    rw [hdet, hatt]
  · intro c' r'' todo' hc'
    have hc1 : pc.cursor = some c' := by
      rcases hc' with hc' | hc' <;> (rw [show pc = _ from hc']; rfl)
    have hr1 : pc.handle = some r'' := by
      rcases hc' with hc' | hc' <;> (rw [show pc = _ from hc']; rfl)
    rw [hcur] at hc1
    rw [hhandle] at hr1
    cases hc1
    cases hr1
    rwa [hseg]
  · refine h.side.of_stage rfl (fun n hb => hb) (fun n hst => ?_) fun n hst => ?_
    · refine ⟨hst.1, hst.2.1, fun r'' hr _ => ?_⟩
      rw [hhandle] at hr
      cases hr
      rw [hseg]
      exact hst.2.2 r (by simp [hpc]) hatt
    · -- all of a file that is to be removed has been read
      have hne : r.segment ≠ n := by
        intro heq
        have := (hst.2.1 file (heq ▸ hfile)).2 c r todo hpc hatt heq
        omega
      refine ⟨hst.1, fun file' hg => ⟨(hst.2.1 file' hg).1, fun c' r'' todo' hc' _ heq => ?_⟩,
        fun c' r'' todo' hc' heq => ?_⟩
      all_goals
        have hr1 : pc.handle = some r'' := by rw [show pc = _ from hc']; rfl
        rw [hhandle] at hr1
        cases hr1
        exact absurd (hseg ▸ heq) hne

attribute [local simp] Spool.cursorStep

lemma Ordered.cursorStep (h : Ordered s) (hpc : s.pc = .committed c r todo)
    (hlt : r.recIdx < 2 ^ 63) :
    Ordered (cursorStep s r todo) := by
  have hatt := h.cursor.attached c r todo hpc
  have hk := h.cursor.onDisk r (by simp [hpc]) hatt
  obtain ⟨hmax, hnp⟩ := h.cursor.notPast c r todo (.inr hpc)
  have hheld := h.cursor.held c (by simp [hpc])
  have hread := readCursor_marshal hmax hlt
  have hnew : Names ⟨segmentName r.segment, r.recIdx⟩ r.segment := ⟨hmax, rfl⟩
  refine ⟨⟨h.cursor.keys_le, ⟨_, hread⟩, ?_, ?_, ?_, ?_, ?_, ?_⟩, ?_⟩
  · intro c' hc'
    rcases mem_append.1 hc' with hc' | hc'
    · obtain ⟨i, k, cur, hi, hcur, hk', hik⟩ := h.cursor.highest c' hc'
      rw [hheld] at hcur
      cases hcur
      exact ⟨i, r.segment, _, hi, hread, hnew, hik.trans (hnp k hk')⟩
    · cases mem_singleton.1 hc'
      exact ⟨r.segment, r.segment, _, hnew, hread, hnew, le_rfl⟩
  · intro c' hc' _
    cases Except.ok.inj (hread.symm.trans hc')
    exact mem_append_right _ mem_cons_self
  · intro c' hc'
    cases hc'
    exact hread
  · intro r' hr' _
    cases hr'
    exact hk
  · intro c' r' todo' hc'
    exact absurd hc' (by simp)
  · rintro c' r' todo' (hc' | hc')
    · obtain ⟨rfl, rfl, -⟩ : _ = c' ∧ _ = r' ∧ todo = todo' := by
        simpa using hc'
      exact ⟨hmax, fun k hk' => (segmentName_injective hmax hk'.1 hk'.2).symm.le⟩
    · exact absurd hc' (by simp)
  · refine h.side.of_stage rfl (fun n hb => hb.cursorStep hk hmax hlt) (fun n hst => ?_)
      fun n hst => ?_
    · refine ⟨hst.1.cursorStep hk hmax hlt, hst.2.1, fun r' hr' _ => ?_⟩
      cases hr'
      exact hst.2.2 r (by simp [hpc]) hatt
    · refine ⟨hst.1.cursorStep hk hmax hlt, fun file hg => ⟨(hst.2.1 file hg).1, ?_⟩, ?_⟩
      · rintro c' r' todo' hc' - heq
        obtain ⟨-, rfl, -⟩ : _ = c' ∧ _ = r' ∧ todo = todo' := by
          simpa using hc'
        exact absurd heq (hst.2.2 c r todo hpc)
      · intro c' r' todo' hc'
        exact absurd hc' (by simp)

/-! ## Steps of the writer -/

lemma SideOk.of_grows {w : Writer} (h : SideOk s (.ready w)) {w' : Writer}
    (hg : Grows w.segIdx ops w') :
    SideOk { s with writer := side } (.busy ops (some w') ack) := by
  have hbelow : Below s.disk s.cursorFile (w.segIdx + 1) := h
  rcases hg with ⟨hops, hidx⟩ | ⟨hops, hidx⟩
  · refine ⟨w.segIdx, .after, .rest hops, fun w'' hw => ?_, hbelow⟩
    cases hw
    exact hidx
  · refine ⟨w.segIdx + 1, .before, hops, fun w'' hw => ?_, hbelow⟩
    cases hw
    exact hidx

/-- Files may come as long as their indices are in the name space. -/
lemma CursorOk.of_keys (h : CursorOk s) (hpc : s'.pc = s.pc) (hfile : s'.cursorFile = s.cursorFile)
    (hcursors : s'.cursors = s.cursors) (hsub : ∀ k ∈ s.disk.keys, k ∈ s'.disk.keys)
    (hle : ∀ k ∈ s'.disk.keys, k ≤ maxSegmentIndex) : CursorOk s' where
  keys_le := hle
  readable := by rw [hfile]; exact h.readable
  highest := by rw [hfile, hcursors]; exact h.highest
  persisted := by rw [hfile, hcursors]; exact h.persisted
  held := by rw [hfile, hpc]; exact h.held
  onDisk r hr hd := hsub _ (h.onDisk r (hpc ▸ hr) hd)
  attached := by rw [hpc]; exact h.attached
  notPast := by rw [hpc]; exact h.notPast

lemma keys_apply_of_tame {op : FileOp} (h : op.tame = true) (d : Dir Bytes) :
    (op.apply d).keys = d.keys := by
  cases op with
  | create | remove => exact absurd h (by simp [tame])
  | write | truncate | writeAt => exact Dir.keys_modify _ _ _
  | status => rfl

/-- An operation within existing files. -/
lemma Ordered.tameOp (h : Ordered s) {op : FileOp} (htame : op.tame = true) {st : Stage}
    (hops : CallOps n st ops) (hnext : ∀ w, next = some w → n ≤ w.segIdx)
    (hst : ∀ s' : System H, s'.pc = s.pc → s'.cursorFile = s.cursorFile →
      s'.disk = op.apply s.disk → StageOk s' n st) :
    Ordered (opStep s op ops next ack) := by
  have hpc : (opStep s op ops next ack).pc = s.pc := by
    cases op <;> first | rfl | exact absurd htame (by simp [tame])
  have hkeys : (opStep s op ops next ack).disk.keys = s.disk.keys := keys_apply_of_tame htame s.disk
  refine ⟨h.cursor.of_keys hpc rfl rfl (fun k hk => ?_) fun k hk => ?_, n, st, hops, hnext,
    hst _ hpc rfl rfl⟩
  · rwa [hkeys]
  · exact h.cursor.keys_le k (hkeys ▸ hk)

lemma Ordered.createOp (h : Ordered s) (hn : n ≤ maxSegmentIndex) (hops : CallOps n .created ops)
    (hnext : ∀ w, next = some w → n ≤ w.segIdx) (hst : Below s.disk s.cursorFile n) :
    Ordered (opStep s (.create n) ops next ack) := by
  have hfree : s.disk.get n = none := by
    cases hg : s.disk.get n with
    | none => rfl
    | some file => exact absurd (hst.1 n (Dir.mem_keys_of_get hg)) (lt_irrefl n)
  have hmem {k : Nat} (hk : k ∈ (s.disk.create n []).keys) : k ∈ s.disk.keys ∨ k = n :=
    Dir.mem_keys_create.1 hk
  refine ⟨h.cursor.of_keys rfl rfl rfl (fun k hk => Dir.mem_keys_create.2 (.inl hk)) fun k hk => ?_,
    n, .created, hops, hnext, ⟨fun k hk => ?_, fun c k hc hk => ?_⟩, fun file hg => ?_,
    fun r hr hd => ?_⟩
  · rcases hmem hk with hk | rfl
    · exact h.cursor.keys_le k hk
    · exact hn
  · rcases hmem hk with hk | rfl
    · exact (hst.1 k hk).trans (Nat.lt_succ_self n)
    · exact Nat.lt_succ_self k
  · exact (hst.2 c k hc hk).trans (Nat.lt_succ_self n)
  · have : (s.disk.create n []).get n = some file := hg
    rw [Dir.get_create _ hfree, if_pos rfl] at this
    exact (Option.some.inj this).symm
  · exact (hst.1 _ (h.cursor.onDisk r hr hd)).ne

/-- A half created file is removed; a reader that has it open keeps it. -/
lemma Ordered.discardOp (h : Ordered s) (hops : ops.all tame = true)
    (hnext : ∀ w, next = some w → n ≤ w.segIdx) (hst : StageOk s n .headed) :
    Ordered (opStep s (.remove n) ops next ack) := by
  have hsub {k : Nat} (hk : k ∈ (s.disk.erase n).keys) : k ∈ s.disk.keys :=
    (Dir.mem_keys_erase.1 hk).1
  have hcursor : (s.pc.detach n).cursor = s.pc.cursor := by cases s.pc <;> rfl
  refine ⟨⟨fun k hk => h.cursor.keys_le k (hsub hk), h.cursor.readable, h.cursor.highest,
    h.cursor.persisted, ?_, ?_, ?_, ?_⟩, n, .after, .rest hops, hnext, hst.1.of_keys fun k hk => hsub hk⟩
  · intro c hc
    exact h.cursor.held c (hcursor ▸ hc)
  · intro r hr hd
    have hr' : (s.pc.detach n).handle = some r := hr
    have hold : ∃ r0, s.pc.handle = some r0 ∧
        { r0 with detached := r0.detached || r0.segment == n } = r := by
      cases hpc : s.pc <;> rw [hpc] at hr' <;>
        first
        | exact ⟨_, rfl, Option.some.inj hr'⟩
        | exact absurd hr' (by simp [Pc.detach])
    obtain ⟨r0, hr0, rfl⟩ := hold
    simp only [Bool.or_eq_false_iff, beq_eq_false_iff_ne] at hd
    exact Dir.mem_keys_erase.2 ⟨h.cursor.onDisk r0 hr0 hd.1, hd.2⟩
  · intro c r todo hc
    have hc' : s.pc.detach n = .committed c r todo := hc
    cases hpc : s.pc <;> rw [hpc] at hc' <;> simp only [Pc.detach, reduceCtorEq] at hc'
    next c0 r0 todo0 =>
    obtain ⟨rfl, rfl, rfl⟩ : c0 = c ∧ _ = r ∧ todo0 = todo := by simpa using hc'
    simp [h.cursor.attached _ _ _ hpc, hst.2.2 _ _ _ hpc]
  · intro c r todo hc
    have hc' : s.pc.detach n = .reading c r todo ∨ s.pc.detach n = .committed c r todo := hc
    cases hpc : s.pc <;> rw [hpc] at hc' <;> simp only [Pc.detach, reduceCtorEq, or_self] at hc'
    · next c0 r0 todo0 =>
      obtain ⟨rfl, rfl, -⟩ : c0 = c ∧ _ = r ∧ todo0 = todo := by simpa using hc'
      have hnp := h.cursor.notPast _ _ _ (.inl hpc)
      exact hnp
    · next c0 r0 todo0 =>
      obtain ⟨rfl, rfl, -⟩ : c0 = c ∧ _ = r ∧ todo0 = todo := by simpa using hc'
      have hnp := h.cursor.notPast _ _ _ (.inr hpc)
      exact hnp

lemma Ordered.op (h : Ordered s) {op : FileOp} (hw : s.writer = .busy (op :: ops) next ack) :
    Ordered (opStep s op ops next ack) := by
  have hside := h.side
  rw [hw] at hside
  obtain ⟨n, st, hops, hnext, hst⟩ := hside
  cases hops with
  | rest hall =>
    rw [all_cons, Bool.and_eq_true] at hall
    refine h.tameOp hall.1 (.rest hall.2) hnext fun s' _ hfile hdisk => ?_
    have hb : Below s.disk s.cursorFile (n + 1) := hst
    simp only [StageOk, hfile, hdisk]
    exact hb.of_keys fun k hk => by rwa [keys_apply_of_tame hall.1] at hk
  | create hn hrest => exact h.createOp hn hrest hnext hst
  | header hb hall =>
    refine h.tameOp rfl (.rest hall) hnext fun s' _ hfile hdisk => ?_
    simp only [StageOk, hfile, hdisk]
    exact hst.1.of_keys fun k hk => by rwa [keys_apply_of_tame rfl] at hk
  | @half bytes v i _ hb hall =>
    refine h.tameOp rfl (.discard hall) hnext fun s' hpc hfile hdisk => ?_
    have hbelow : Below s'.disk s'.cursorFile (n + 1) := by
      rw [hfile, hdisk]
      exact hst.1.of_keys fun k hk => by rwa [keys_apply_of_tame rfl] at hk
    refine ⟨hbelow, fun file hg => ⟨⟨v, i, ?_⟩, fun c r todo hc hd heq => ?_⟩, fun c r todo hc => ?_⟩
    · rw [hdisk, apply, Dir.get_modify, if_pos rfl] at hg
      obtain ⟨old, hold, rfl⟩ := Option.map_eq_some_iff.1 hg
      rw [hst.2.1 old hold]
      exact hb
    · exact absurd heq (hst.2.2 r (by rw [← hpc, hc]; rfl) hd)
    · have hpc' : s.pc = .committed c r todo := hpc ▸ hc
      exact hst.2.2 r (by rw [hpc']; rfl) (h.cursor.attached c r todo hpc')
  | discard hall => exact h.discardOp hall hnext hst

/-! ## Runs -/

attribute [local simp] System.init

lemma ordered_init (store : Store H) : Ordered (System.init store) :=
  ⟨⟨by simp, ⟨.zero, rfl⟩, by simp,
    fun c hc hne => absurd (congrArg Cursor.segment (Except.ok.inj hc)).symm hne,
    by simp, by simp,
    by simp, by simp⟩, trivial⟩

/-- The index is above every segment the cursor names or has named, and above every segment on
disk. -/
def Fresh (s : System H) (idx : Nat) : Prop :=
  (∀ c ∈ s.cursors, ∀ k, Names c k → k < idx) ∧ ∀ k ∈ s.disk.keys, k < idx

lemma Ordered.fresh (h : Ordered s) (hb : Below s.disk s.cursorFile n) : Fresh s n := by
  refine ⟨fun c hc j hj => ?_, hb.1⟩
  obtain ⟨i, k, cur, hi, hcur, hk, hik⟩ := h.cursor.highest c hc
  cases segmentName_injective hj.1 hi.1 (hj.2.symm.trans hi.2)
  exact hik.trans_lt (hb.2 cur k hcur hk)

lemma place_of_lt (hn : n ≤ maxSegmentIndex) (hc : c.segment = [] ∨ ∃ k, Names c k ∧ k < n) :
    place c n = .future := by
  rcases hc with hc | ⟨k, hk, hlt⟩
  · exact place_of_empty hc n
  · rw [place_of_names hk hn, if_neg (by omega), if_neg (by omega)]

lemma Ordered.names (h : Ordered s) (hc : readCursor s.cursorFile = .ok c) :
    c.segment = [] ∨ ∃ k, Names c k := by
  by_cases hempty : c.segment = []
  · exact .inl hempty
  · obtain ⟨i, -, -, hi, -⟩ := h.cursor.highest c (h.cursor.persisted c hc hempty)
    exact .inr ⟨i, hi⟩

variable [DecidableEq H]

/-- A step of a cycle. -/
lemma Ordered.imported (h : Ordered s) {i : Input} (hstep : Imported P s i s') : Ordered s' := by
  have hsame := Shrinks.refl s.disk
  cases hstep with
  | aborted => exact h.of_closed hsame rfl rfl rfl (by simp [abort]) rfl
  | recovered hpc =>
    split
    · exact h.of_closed hsame rfl rfl rfl (by simp) rfl
    · exact h.of_closed hsame rfl rfl rfl (by simp) rfl
  | skipped | headerless | finished => exact h.of_closed hsame rfl rfl rfl (by simp) rfl
  | scanned hpc hfile hrec =>
    exact h.of_closed (shrinks_modify hfile (recoverSegment_cut hrec)) rfl rfl rfl
      (by simp) rfl
  | discarded =>
    exact h.of_closed (shrinks_erase _ _) rfl rfl rfl (by simp) rfl
  | loaded hpc hcur =>
    refine h.of_closed hsame rfl rfl rfl (fun c hc => ?_) rfl
    cases hc
    exact hcur
  | gapsDone hpc | gapRecorded hpc | past hpc | atEnd hpc | atCorrupt hpc =>
    refine h.of_closed hsame rfl rfl rfl (fun c hc => h.cursor.held c ?_) rfl
    rw [hpc]
    exact hc
  | gapRefused | refused =>
    exact h.of_closed hsame rfl rfl rfl (by simp [abort]) rfl
  | opened hpc hfile hplace hopen => exact h.opened hpc hfile hplace hopen
  | probedPast hpc | probed hpc =>
    split <;>
      · refine h.of_closed hsame rfl rfl rfl (fun c hc => h.cursor.held c ?_) rfl
        rw [hpc]
        exact hc
  | passed hpc hbs hnext => exact h.read hpc hbs hnext (.inl rfl) rfl rfl
  | commit hpc hbs hnext => exact h.read hpc hbs hnext (.inr rfl) rfl rfl
  | wroteCursor hpc hlt => exact h.cursorStep hpc hlt
  | pruned hpc =>
    refine h.of_closed (shrinks_erase _ _) rfl rfl rfl (fun c hc => h.cursor.held c ?_) rfl
    rw [hpc]
    exact hc

lemma Ordered.step (h : Ordered s) {a : Action} (hstep : step P s a = some s') : Ordered s' := by
  have hsame := Shrinks.refl s.disk
  cases step_cases hstep with
  | start => exact h.of_closed hsame rfl rfl rfl (by simp) rfl
  | importer himp => exact h.imported himp
  | fail | kill => exact h.of_closed hsame rfl rfl rfl (by simp [abort]) rfl
  | op hw => exact h.op hw
  | writer hcall =>
    refine ⟨h.cursor.of_keys rfl rfl rfl (fun _ hk => hk) h.cursor.keys_le, ?_⟩
    have hside := h.side
    cases hcall with
    | listed => exact ⟨s.disk.keys, rfl, fun _ hk => hk⟩
    | unreadable | stop => trivial
    | @issued create now cfg found idx hw hidx =>
      rw [hw] at hside
      obtain ⟨listing, rfl, hlist⟩ := hside
      obtain ⟨hkeys, hcur⟩ := nextSegmentIndex_spec hidx
      have hbelow : Below s.disk s.cursorFile idx :=
        ⟨fun k hk => hkeys k (hlist k hk), fun c k hc hk =>
          hcur c hc k (by rw [hk.2, parseSegmentName_segmentName hk.1])⟩
      obtain ⟨hops, hnext⟩ := Writer.openWriter_callOps cfg idx create now
      refine ⟨idx, ?_⟩
      rcases hops with hops | hops
      · exact ⟨.after, .rest hops, fun w hw' => (hnext w hw').ge, hbelow.mono (Nat.le_succ _)⟩
      · exact ⟨.before, hops, fun w hw' => (hnext w hw').ge, hbelow⟩
    | @append t env w hw =>
      rw [hw] at hside
      exact hside.of_grows (w.append_grows t env)
    | @close t w hw =>
      rw [hw] at hside
      exact hside.of_grows (w.close_grows t)
    | @ret next ack hw =>
      rw [hw] at hside
      obtain ⟨n, st, hops, hnext, hst⟩ := hside
      cases hops
      cases next with
      | none => trivial
      | some w => exact hst.mono (Nat.succ_le_succ (hnext w rfl))

/-- **A new segment is never mistaken for an old one.**  In every run, whatever fails and whoever
is stopped where: the index a new writer issues is fresh; so is the index of every segment when
it is created, and at that moment the persisted cursor and the one the importer holds both
place it in the future; and a segment is past or current only by a cursor that was
persisted. -/
theorem created_index_fresh (store : Store H) (as : List Action) (s : System H)
    (hrun : run (step P) (System.init store) as = some s) :
    (∀ cfg found idx, s.writer = .listed cfg found →
      nextSegmentIndex found s.cursorFile = .ok idx → Fresh s idx) ∧
    (∀ k ops next ack, s.writer = .busy (.create k :: ops) next ack →
      Fresh s k ∧ ∀ c, readCursor s.cursorFile = .ok c ∨ s.pc.cursor = some c →
        place c k = .future) ∧
    ∀ c k, s.pc.cursor = some c → place c k ≠ .future → c ∈ s.cursors := by
  have h : Ordered s := run_invariant (p := fun _ _ => True) (I := Ordered)
    (fun _ _ _ hs _ hstep => hs.step hstep) (ordered_init store)
    (along_of_forall (fun _ _ => trivial) _ _) hrun
  refine ⟨fun cfg found idx hw hidx => ?_, fun k ops next ack hw => ?_, fun c k hc hplace => ?_⟩
  · have hside := h.side
    rw [hw] at hside
    obtain ⟨listing, rfl, hlist⟩ := hside
    obtain ⟨hkeys, hcur⟩ := nextSegmentIndex_spec hidx
    exact h.fresh ⟨fun k hk => hkeys k (hlist k hk), fun c k hc hk =>
      hcur c hc k (by rw [hk.2, parseSegmentName_segmentName hk.1])⟩
  · have hside := h.side
    rw [hw] at hside
    obtain ⟨n, st, hops, -, hst⟩ := hside
    cases hops with
    | rest hall => exact absurd hall (by simp [tame])
    | create hn =>
      have hfresh := h.fresh hst
      refine ⟨hfresh, fun c hc => place_of_lt hn ?_⟩
      have hread : readCursor s.cursorFile = .ok c := hc.elim id (h.cursor.held c)
      exact (h.names hread).imp_right fun ⟨i, hi⟩ => ⟨i, hi, hst.2 c i hread hi⟩
  · refine h.cursor.persisted c (h.cursor.held c hc) fun hempty => hplace ?_
    exact place_of_empty hempty k

def WriterSide.creates : WriterSide → Option Nat
  | .busy (.create k :: _) _ _ => some k
  | _ => none

/-- A writer appends a record and closes; the importer takes the record in and removes the segment,
so that only the cursor knows its index; then another writer opens. -/
def prunedThenOpened : List Action :=
  [Action.openWriter demoCfg, .issue .ok demoTime, .op, .op, .op, .ret] ++
  [Action.append (quiet 0 fun _ => none) (Store.sampleEnvelope []), .op, .ret] ++
  [Action.close (quiet 0 fun _ => none), .op, .op, .op, .ret, .stopWriter] ++
  [Action.start] ++ List.replicate 11 (Action.importer demoInput) ++
  [Action.openWriter demoCfg, .issue .ok demoTime]

set_option maxRecDepth 100000 in
theorem created_index_fresh_prunedThenOpened :
    ∃ s, run (step demo) demoInit prunedThenOpened = some s ∧ s.disk.keys = [] ∧
      s.cursors = [⟨segmentName 0, 0⟩] ∧ Fresh s 1 := by
  obtain ⟨s, hrun, hkeys, hcursors, hcreates⟩ : ∃ s,
      run (step demo) demoInit prunedThenOpened = some s ∧ s.disk.keys = [] ∧
      s.cursors = [⟨segmentName 0, 0⟩] ∧ s.writer.creates = some 1 := by decide +kernel
  refine ⟨s, hrun, hkeys, hcursors, ?_⟩
  have hfresh := (created_index_fresh _ prunedThenOpened s hrun).2.1
  cases hw : s.writer with
  | busy ops next ack =>
    rw [hw] at hcreates
    match ops, hcreates with
    | .create k :: ops, hcreates =>
      obtain rfl : k = 1 := by simpa [WriterSide.creates] using hcreates
      exact (hfresh 1 ops next ack hw).1
  | absent | listed | ready =>
    rw [hw] at hcreates
    exact absurd hcreates (by simp [WriterSide.creates])

end Observatory.Spool
