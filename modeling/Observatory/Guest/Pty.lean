/-
# Terminal output of a session

A session in the guest reads its terminal into a ring that keeps the newest bytes, whether or not
anyone is attached. An attachment is a reader over the ring that holds only an offset; when the
ring has gone past it, it skips to the oldest byte held and records the range it lost. The output
loop of a connection sends what the attachment reads as frames, each with the offset of its first
byte, and a notice for a range that was lost. It derives the offsets on its own: a notice sets its
position to the end of the range, and a frame moves it by the frame's length.

The terminal is read between any two steps of the loop; what it sends still covers the stream.
Offsets are natural numbers here; the source counts them in 64 bits.
-/
import Observatory.Lib.Bytes
import Observatory.Lib.Circular
import Observatory.Lib.Machine

namespace Observatory.Guest.Pty

open Lib List Option

/-! ## The ring -/

/-- A span of stream offsets, the end excluded.  (`start` and `stop` are From and To.) -/
structure Range where
  start : Nat
  stop : Nat
deriving DecidableEq

/-- The newest bytes of the stream; `head` is the offset behind the newest one. -/
structure Ring extends Circular UInt8 where
  head : Nat
  count_le_head : count ≤ head

namespace Ring

def newRing (size : Int) : Ring where
  buf := List.replicate (if size < 1 then 1 else size.toNat) 0
  start := 0
  count := 0
  start_lt := by
    rw [length_replicate]
    split_ifs <;> omega
  count_le := Nat.zero_le _
  head := 0
  count_le_head := Nat.le_refl 0

/-- The offset of the oldest byte held. -/
def tail (r : Ring) : Nat := r.head - r.count

def append (r : Ring) (p : Bytes) : Ring where
  toCircular := r.toCircular.append p
  head := r.head + p.length
  count_le_head := by
    have := r.count_le_head
    rw [Circular.count_append]
    omega

/-- Every byte held from an offset on, and whether bytes before them are lost. -/
def readFrom (r : Ring) (offset : Nat) : Bytes × Bool :=
  let from_ := if offset < r.tail then r.tail else offset
  if r.head ≤ from_ then ([], offset < r.tail)
  else (r.toCircular.readFrom (from_ - r.tail), offset < r.tail)

structure Holds (r : Ring) (stream : Bytes) : Prop where
  head : r.head = stream.length
  contents : r.contents = stream.drop r.tail

lemma tail_le_head (r : Ring) : r.tail ≤ r.head := Nat.sub_le _ _

lemma tail_add_count (r : Ring) : r.tail + r.count = r.head :=
  Nat.sub_add_cancel r.count_le_head

lemma holds_newRing (size : Int) : (newRing size).Holds [] := ⟨rfl, rfl⟩

lemma Holds.append {r : Ring} {stream : Bytes} (h : r.Holds stream) (p : Bytes) :
    (r.append p).Holds (stream ++ p) := by
  have hcount : (r.append p).count = r.count + p.length - r.excess p := Circular.count_append _ _
  have hover : r.excess p ≤ r.count + p.length := Nat.sub_le _ _
  have hhead : (r.append p).head = r.head + p.length := rfl
  have hle := r.count_le_head
  have htail : (r.append p).tail = r.tail + r.excess p := by
    rw [tail, tail, hcount, hhead]
    omega
  refine ⟨by rw [hhead, h.head, length_append], ?_⟩
  have hdrop : (stream ++ p).drop r.tail = r.contents ++ p := by
    rw [h.contents, drop_append_of_le_length]
    rw [← h.head]
    exact r.tail_le_head
  show (r.toCircular.append p).contents = _
  rw [Circular.contents_append, htail, ← drop_drop, hdrop]

/-- A reader inside the window gets the end of the stream. -/
lemma Holds.readFrom {r : Ring} {stream : Bytes} (h : r.Holds stream) {offset : Nat}
    (htail : r.tail ≤ offset) (hhead : offset < r.head) :
    r.readFrom offset = (stream.drop offset, false) := by
  have hcount := r.tail_add_count
  have hlost : ¬ offset < r.tail := Nat.not_lt.2 htail
  rw [Ring.readFrom]
  simp only [if_neg hlost, if_neg (Nat.not_le.2 hhead)]
  rw [Circular.readFrom_eq _ (by omega), h.contents, drop_drop,
    Nat.add_sub_cancel' htail]
  simp [hlost]

end Ring

/-! ## Attachments -/

structure Attachment where
  off : Nat
  /-- The range lost since the last notice. -/
  drop : Option Range
  closed : Bool

def Attachment.recordDrop (a : Attachment) (r : Range) : Attachment :=
  match a.drop with
  | none => { a with drop := some r }
  | some d => { a with drop := some { d with stop := r.stop } }

/-- The reader's position is moved to the oldest byte held. -/
def Attachment.skip (a : Attachment) (ring : Ring) : Attachment :=
  if a.off < ring.tail then { a.recordDrop ⟨a.off, ring.tail⟩ with off := ring.tail } else a

structure Session where
  ring : Ring
  eof : Bool
  exited : Bool

inductive AttachError where
  | sessionExited
  | offsetAhead (after head : Nat)

/-- A reader behind an offset, where it resumes and whether output before that is lost. -/
def Session.attach (s : Session) (after : Nat) : Except AttachError (Attachment × Nat × Bool) :=
  if s.exited then .error .sessionExited
  else if s.ring.head < after then .error (.offsetAhead after s.ring.head)
  else if after < s.ring.tail then .ok (⟨s.ring.tail, none, false⟩, s.ring.tail, true)
  else .ok (⟨after, none, false⟩, after, false)

/-- What one turn of a read ends with. -/
inductive ReadResult where
  | parked
  | bytes (b : Bytes)
  | eof

/-- One turn of `Read` with a buffer of `size` bytes, under the session's lock. -/
def Attachment.poll (a : Attachment) (s : Session) (size : Nat) : Attachment × ReadResult :=
  if a.closed then (a, .eof)
  else if (a.skip s.ring).off < s.ring.head then
    let b := (s.ring.readFrom (a.skip s.ring).off).1.take size
    ({ a.skip s.ring with off := (a.skip s.ring).off + b.length }, .bytes b)
  else if s.eof then (a.skip s.ring, .eof)
  else (a.skip s.ring, .parked)

/-! ## The output loop -/

/-- The largest read of the loop. -/
def streamChunk : Nat := 32 * 2 ^ 10

inductive Sent where
  | frame (offset : Nat) (bytes : Bytes)
  | dropped (r : Range)
  | closed
deriving DecidableEq

/-- Where the loop is: in a read, before the notice, before the frame, or returned. The flag says
that the read ended the stream. -/
inductive Phase where
  | reading
  | announcing (b : Bytes) (ended : Bool)
  | framing (b : Bytes) (ended : Bool)
  | returned

structure Pump where
  att : Attachment
  /-- Where the attachment resumed. -/
  resume : Nat
  cur : Nat
  phase : Phase
  sent : List Sent

namespace Pump

def read (p : Pump) (s : Session) : Option Pump :=
  match p.phase with
  | .reading =>
    match p.att.poll s streamChunk with
    | (att, .parked) => some { p with att }
    | (att, .bytes b) => some { p with att, phase := .announcing b false }
    | (att, .eof) => some { p with att, phase := .announcing [] true }
  | _ => none

/-- The notice of what was lost. A write that fails ends the loop. -/
def announce (p : Pump) (fails : Bool) : Option Pump :=
  match p.phase with
  | .announcing b ended =>
    match p.att.drop with
    | none => some { p with phase := .framing b ended }
    | some r =>
      if fails then some { p with att := { p.att with drop := none }, phase := .returned }
      else
        some { p with
          att := { p.att with drop := none }
          cur := r.stop
          phase := .framing b ended
          sent := p.sent ++ [.dropped r] }
  | _ => none

/-- What is sent once what was read is. -/
def framed (p : Pump) (b : Bytes) : List Sent :=
  if b = [] then p.sent else p.sent ++ [.frame p.cur b]

/-- The frame of what was read, and, when the stream has ended, how the session did. -/
def frame (p : Pump) (fails : Bool) : Option Pump :=
  match p.phase with
  | .framing b ended =>
    if b ≠ [] ∧ fails then some { p with phase := .returned }
    else if !ended then
      some { p with cur := p.cur + b.length, phase := .reading, sent := p.framed b }
    else if p.att.closed then
      some { p with cur := p.cur + b.length, phase := .returned, sent := p.framed b }
    else
      some { p with
        cur := p.cur + b.length
        phase := .returned
        sent := p.framed b ++ [.closed] }
  | _ => none

end Pump

/-! ## Runs -/

structure State where
  session : Session
  /-- All that was read from the terminal. -/
  stream : Bytes
  pump : Option Pump

namespace State

def start (size : Int) : State := ⟨⟨.newRing size, false, false⟩, [], none⟩

inductive Action where
  /-- The session reads bytes from the terminal. -/
  | drain (p : Bytes)
  | exit
  | attach (after : Nat)
  /-- The caller hangs up. -/
  | detach
  | read
  | announce (fails : Bool)
  | frame (fails : Bool)

def step (s : State) : Action → Option State
  | .drain p =>
    if s.session.eof then none
    else
      some { s with
        session := { s.session with ring := s.session.ring.append p }
        stream := s.stream ++ p }
  | .exit => some { s with session := { s.session with eof := true, exited := true } }
  | .attach after =>
    if s.pump.isSome then none
    else
      match s.session.attach after with
      | .error _ => some s
      | .ok (att, resume, _) => some { s with pump := some ⟨att, resume, resume, .reading, []⟩ }
  | .detach => do
    let p ← s.pump
    some { s with pump := some { p with att := { p.att with closed := true } } }
  | .read => do
    let p ← s.pump
    let p' ← p.read s.session
    some { s with pump := some p' }
  | .announce fails => do
    let p ← s.pump
    let p' ← p.announce fails
    some { s with pump := some p' }
  | .frame fails => do
    let p ← s.pump
    let p' ← p.frame fails
    some { s with pump := some p' }

end State

/-! ## Covering the stream -/

def Slice (stream : Bytes) (offset : Nat) (b : Bytes) : Prop :=
  (stream.drop offset).take b.length = b

/-- What was sent covers the stream from `i` to `j`, in order: every frame and every lost range
starts where the one before it ended, and every frame has the bytes of the stream there. -/
def Tiles (stream : Bytes) : Nat → List Sent → Nat → Prop
  | i, [], j => i = j
  | i, .frame offset b :: rest, j =>
    offset = i ∧ Slice stream offset b ∧ Tiles stream (offset + b.length) rest j
  | i, .dropped r :: rest, j =>
    r.start = i ∧ r.start < r.stop ∧ r.stop ≤ stream.length ∧ Tiles stream r.stop rest j
  | i, .closed :: rest, j => Tiles stream i rest j

lemma slice_take (stream : Bytes) (offset n : Nat) :
    Slice stream offset ((stream.drop offset).take n) := by
  rw [Slice, length_take, ← take_take, take_length]

lemma slice_nil (stream : Bytes) (offset : Nat) : Slice stream offset [] := rfl

lemma Slice.append {stream b : Bytes} {offset : Nat} (h : Slice stream offset b) (p : Bytes) :
    Slice (stream ++ p) offset b := by
  have hlen : b.length ≤ (stream.drop offset).length := by
    have hlen := congrArg List.length h
    rw [length_take] at hlen
    omega
  rcases Nat.le_total offset stream.length with hle | hle
  · rw [Slice, drop_append_of_le_length hle, take_append_of_le_length hlen]
    exact h
  · -- behind the end of the stream only the empty piece is one
    rw [length_drop] at hlen
    rw [eq_nil_of_length_eq_zero (l := b) (by omega)]
    rfl

namespace Tiles

variable {stream : Bytes} {i j k : Nat}

lemma append_stream {sent : List Sent} (h : Tiles stream i sent j) (p : Bytes) :
    Tiles (stream ++ p) i sent j := by
  induction sent generalizing i with
  | nil => exact h
  | cons x rest ih =>
    cases x with
    | frame offset b => exact ⟨h.1, h.2.1.append p, ih h.2.2⟩
    | dropped r =>
      obtain ⟨hstart, hlt, hstop, hrest⟩ := h
      refine ⟨hstart, hlt, ?_, ih hrest⟩
      rw [length_append]
      omega
    | closed => exact ih (i := i) h

lemma append {sent sent' : List Sent} (h : Tiles stream i sent j) (h' : Tiles stream j sent' k) :
    Tiles stream i (sent ++ sent') k := by
  induction sent generalizing i with
  | nil =>
    obtain rfl : i = j := h
    exact h'
  | cons x rest ih =>
    cases x with
    | frame offset b => exact ⟨h.1, h.2.1, ih h.2.2⟩
    | dropped r => exact ⟨h.1, h.2.1, h.2.2.1, ih h.2.2.2⟩
    | closed => exact ih (i := i) h

end Tiles

namespace Pump

def pos (p : Pump) : Nat := (p.att.drop.map Range.stop).getD p.cur

/-- The loop's own position and the attachment's agree: up to a range that is still to be announced
and to what was read and is still to be sent. -/
structure Inv (p : Pump) (stream : Bytes) : Prop where
  tiles : Tiles stream p.resume p.sent p.cur
  drop : ∀ r, p.att.drop = some r →
    r.start = p.cur ∧ r.start < r.stop ∧ r.stop ≤ stream.length
  off_le : p.att.off ≤ stream.length
  reading : p.phase = .reading → p.pos = p.att.off
  announcing : ∀ b ended, p.phase = .announcing b ended →
    Slice stream p.pos b ∧ p.pos + b.length = p.att.off
  framing : ∀ b ended, p.phase = .framing b ended →
    p.att.drop = none ∧ Slice stream p.cur b ∧ p.cur + b.length = p.att.off

namespace Inv

variable {p p' : Pump} {stream : Bytes}

lemma append_stream (h : p.Inv stream) (q : Bytes) : p.Inv (stream ++ q) where
  tiles := h.tiles.append_stream q
  drop r hr := by
    obtain ⟨hstart, hlt, hstop⟩ := h.drop r hr
    exact ⟨hstart, hlt, by rw [length_append]; omega⟩
  off_le := by
    rw [length_append]
    exact Nat.le_add_right_of_le h.off_le
  reading := h.reading
  announcing b ended hphase :=
    ⟨(h.announcing b ended hphase).1.append q, (h.announcing b ended hphase).2⟩
  framing b ended hphase := by
    obtain ⟨hdrop, hslice, hoff⟩ := h.framing b ended hphase
    exact ⟨hdrop, hslice.append q, hoff⟩

/-- Skipping what the ring no longer holds leaves a range to be announced. -/
lemma skip (h : p.Inv stream) (hphase : p.phase = .reading) {ring : Ring}
    (hring : ring.Holds stream) :
    { p with att := p.att.skip ring }.Inv stream ∧ ring.tail ≤ (p.att.skip ring).off := by
  have htail : ring.tail ≤ stream.length := hring.head ▸ ring.tail_le_head
  rw [Attachment.skip]
  split_ifs with hlost
  swap
  · exact ⟨h, Nat.le_of_not_lt hlost⟩
  have hpos := h.reading hphase
  refine ⟨⟨h.tiles, fun r hr => ?_, htail, fun _ => ?_, fun b ended hb => ?_, fun b ended hb => ?_⟩,
    Nat.le_refl _⟩
  · cases hdrop : p.att.drop with
    | none =>
      rw [pos, hdrop] at hpos
      simp only [Attachment.recordDrop, hdrop] at hr
      cases hr
      exact ⟨hpos.symm, hlost, htail⟩
    | some d =>
      -- a range that is lost right behind one to be announced makes that one longer
      obtain ⟨hstart, hlt, -⟩ := h.drop d hdrop
      have hstop : d.stop = p.att.off := by rwa [pos, hdrop] at hpos
      simp only [Attachment.recordDrop, hdrop] at hr
      cases hr
      refine ⟨hstart, ?_, htail⟩
      show d.start < ring.tail
      omega
  · simp only [pos, Attachment.recordDrop]
    cases p.att.drop <;> rfl
  · exact nomatch hphase.symm.trans hb
  · exact nomatch hphase.symm.trans hb

lemma read (h : p.Inv stream) {s : Session} (hring : s.ring.Holds stream)
    (hread : p.read s = some p') : p'.Inv stream := by
  cases hphase : p.phase with
  | announcing b ended | framing b ended | returned => simp [Pump.read, hphase] at hread
  | reading =>
    simp only [Pump.read, hphase] at hread
    obtain ⟨hskip, htail⟩ := h.skip hphase hring
    rw [Attachment.poll] at hread
    split_ifs at hread with hclosed hhead heof
    · cases hread
      refine ⟨h.tiles, h.drop, h.off_le, nofun, fun b ended hb => ?_,
        nofun⟩
      obtain ⟨rfl, -⟩ := Phase.announcing.inj hb
      exact ⟨slice_nil _ _, h.reading hphase⟩
    · cases hread
      have hslice := slice_take stream (p.att.skip s.ring).off streamChunk
      have hpos : pos { p with att := p.att.skip s.ring } = (p.att.skip s.ring).off :=
        hskip.reading hphase
      rw [hring.readFrom htail hhead]
      refine ⟨hskip.tiles, hskip.drop, ?_, nofun, fun b ended hb => ?_,
        nofun⟩
      · have := hring.head
        simp only [length_take, length_drop]
        omega
      · obtain ⟨rfl, -⟩ := Phase.announcing.inj hb
        have hpos' : ∀ off phase, pos
            { p with att := { p.att.skip s.ring with off := off }, phase := phase }
              = (p.att.skip s.ring).off := fun _ _ => hpos
        rw [hpos']
        exact ⟨hslice, rfl⟩
    · cases hread
      refine ⟨hskip.tiles, hskip.drop, hskip.off_le, nofun, fun b ended hb => ?_,
        nofun⟩
      obtain ⟨rfl, -⟩ := Phase.announcing.inj hb
      exact ⟨slice_nil _ _, hskip.reading hphase⟩
    · cases hread
      rwa [hphase] at hskip

lemma returned (h : p.Inv stream) {att : Attachment} (hoff : att.off = p.att.off)
    (hdrop : att.drop = none ∨ att.drop = p.att.drop) :
    { p with att, phase := .returned }.Inv stream := by
  refine ⟨h.tiles, fun r hr => ?_, hoff ▸ h.off_le, nofun,
    nofun, nofun⟩
  rcases hdrop with hdrop | hdrop
  · exact nomatch hdrop.symm.trans hr
  · exact h.drop r (hdrop.symm.trans hr)

lemma announce (h : p.Inv stream) {fails : Bool} (hstep : p.announce fails = some p') :
    p'.Inv stream := by
  cases hphase : p.phase with
  | reading | framing b ended | returned => simp [Pump.announce, hphase] at hstep
  | announcing b ended =>
    obtain ⟨hslice, hoff⟩ := h.announcing b ended hphase
    simp only [Pump.announce, hphase] at hstep
    cases hdrop : p.att.drop with
    | none =>
      simp only [hdrop] at hstep
      cases hstep
      refine ⟨h.tiles, h.drop, h.off_le, nofun, nofun,
        fun b' ended' hb => ?_⟩
      obtain ⟨rfl, -⟩ := Phase.framing.inj hb
      rw [pos, hdrop] at hslice hoff
      exact ⟨hdrop, hslice, hoff⟩
    | some r =>
      simp only [hdrop] at hstep
      split_ifs at hstep with hfails
      · cases hstep
        exact h.returned rfl (.inl rfl)
      · cases hstep
        obtain ⟨hstart, hlt, hstop⟩ := h.drop r hdrop
        refine ⟨h.tiles.append ⟨hstart, hlt, hstop, rfl⟩, nofun, h.off_le,
          nofun, nofun, fun b' ended' hb => ?_⟩
        obtain ⟨rfl, -⟩ := Phase.framing.inj hb
        rw [pos, hdrop] at hslice hoff
        exact ⟨rfl, hslice, hoff⟩

/-- The frame of what was read covers it; there is none for nothing. -/
lemma tiles_frame (h : p.Inv stream) {b : Bytes} {ended : Bool}
    (hphase : p.phase = .framing b ended) :
    Tiles stream p.resume (p.framed b) (p.cur + b.length) := by
  obtain ⟨-, hslice, -⟩ := h.framing b ended hphase
  rw [framed]
  split_ifs with hnil
  · rw [hnil]
    exact h.tiles
  · exact h.tiles.append ⟨rfl, hslice, rfl⟩

lemma frame (h : p.Inv stream) {fails : Bool} (hstep : p.frame fails = some p') :
    p'.Inv stream := by
  cases hphase : p.phase with
  | reading | announcing b ended | returned => simp [Pump.frame, hphase] at hstep
  | framing b ended =>
    obtain ⟨hdrop, hslice, hoff⟩ := h.framing b ended hphase
    have htiles := h.tiles_frame hphase
    have hnodrop : ∀ r, p.att.drop = some r → False := fun r hr => nomatch hdrop.symm.trans hr
    simp only [Pump.frame, hphase] at hstep
    split_ifs at hstep with hfails hmore hclosed
    · cases hstep
      exact h.returned rfl (.inr rfl)
    · cases hstep
      refine ⟨htiles, fun r hr => (hnodrop r hr).elim, h.off_le, fun _ => ?_,
        nofun, nofun⟩
      simpa [pos, hdrop] using hoff
    · cases hstep
      exact ⟨htiles, fun r hr => (hnodrop r hr).elim, h.off_le, nofun,
        nofun, nofun⟩
    · cases hstep
      have hclosing : Tiles stream (p.cur + b.length) [.closed] (p.cur + b.length) := rfl
      exact ⟨htiles.append hclosing, fun r hr => (hnodrop r hr).elim, h.off_le,
        nofun, nofun, nofun⟩

end Inv

end Pump

namespace State

structure Inv (s : State) : Prop where
  ring : s.session.ring.Holds s.stream
  pump : ∀ p, s.pump = some p → p.Inv s.stream

lemma inv_attach {s : Session} {stream : Bytes} (hring : s.ring.Holds stream) {after resume : Nat}
    {att : Attachment} {gap : Bool} (h : s.attach after = .ok (att, resume, gap)) :
    (⟨att, resume, resume, .reading, []⟩ : Pump).Inv stream := by
  have hfresh : ∀ off ≤ stream.length,
      (⟨⟨off, none, false⟩, off, off, .reading, []⟩ : Pump).Inv stream := fun off hoff =>
    ⟨rfl, nofun, hoff, fun _ => rfl, nofun,
      nofun⟩
  simp only [Session.attach] at h
  split_ifs at h with hexited hahead hlost
  · obtain ⟨rfl, rfl, -⟩ := Except.ok.inj h
    exact hfresh _ (hring.head ▸ s.ring.tail_le_head)
  · obtain ⟨rfl, rfl, -⟩ := Except.ok.inj h
    exact hfresh _ (hring.head ▸ Nat.le_of_not_lt hahead)

lemma Inv.step {s s' : State} (h : s.Inv) {a : Action} (hstep : s.step a = some s') : s'.Inv := by
  cases a with
  | drain p =>
    simp only [State.step] at hstep
    split_ifs at hstep
    cases hstep
    exact ⟨h.ring.append p, fun q hq => (h.pump q hq).append_stream p⟩
  | exit =>
    cases hstep
    exact ⟨h.ring, h.pump⟩
  | attach after =>
    simp only [State.step] at hstep
    split_ifs at hstep
    cases hattach : s.session.attach after with
    | error err =>
      simp only [hattach] at hstep
      cases hstep
      exact h
    | ok out =>
      obtain ⟨att, resume, gap⟩ := out
      simp only [hattach] at hstep
      cases hstep
      refine ⟨h.ring, fun p hp => ?_⟩
      cases hp
      exact inv_attach h.ring hattach
  | detach =>
    obtain ⟨p, hp, hstep⟩ := bind_eq_some_iff.1 hstep
    cases hstep
    refine ⟨h.ring, fun q hq => ?_⟩
    cases hq
    have hinv := h.pump p hp
    exact ⟨hinv.tiles, hinv.drop, hinv.off_le, hinv.reading, hinv.announcing, hinv.framing⟩
  | read =>
    obtain ⟨p, hp, hstep⟩ := bind_eq_some_iff.1 hstep
    obtain ⟨p', hread, hstep⟩ := bind_eq_some_iff.1 hstep
    cases hstep
    refine ⟨h.ring, fun q hq => ?_⟩
    cases hq
    exact (h.pump p hp).read h.ring hread
  | announce fails =>
    obtain ⟨p, hp, hstep⟩ := bind_eq_some_iff.1 hstep
    obtain ⟨p', hannounce, hstep⟩ := bind_eq_some_iff.1 hstep
    cases hstep
    refine ⟨h.ring, fun q hq => ?_⟩
    cases hq
    exact (h.pump p hp).announce hannounce
  | frame fails =>
    obtain ⟨p, hp, hstep⟩ := bind_eq_some_iff.1 hstep
    obtain ⟨p', hframe, hstep⟩ := bind_eq_some_iff.1 hstep
    cases hstep
    refine ⟨h.ring, fun q hq => ?_⟩
    cases hq
    exact (h.pump p hp).frame hframe

end State

end Observatory.Guest.Pty
