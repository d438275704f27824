/-
# Terminal input

Keystrokes of a session come from its attachments, each over a connection of its own. The
attachment that holds the writer lease may type. A call of `WriteInput`

* asks the lease once, and is refused if its attachment does not hold it;
* cuts its bytes into frames; each takes the next number of the session's counter;
* writes the frames to the attachment's connection.

The guest writes a frame to the PTY when its number is above the last one it applied, and drops it
otherwise. Numbers are taken in one order and may arrive in another when two attachments type at
once, so a call may return without an error and its input be dropped.
-/
import Observatory.Lib.Machine
import Observatory.Terminal.Lease

namespace Observatory.Terminal

open Lib List Option

/-! ## Frames and calls -/

/-- The largest payload of one frame. -/
def maxPTYInputBytes : Nat := 256 * 2 ^ 10 - 8

/-- A frame of input: its connection, the call it is of and its place in it, its number and its
bytes. The wire carries the number and the bytes. -/
structure Frame where
  conn : Bytes
  call : Nat
  index : Nat
  seq : Nat
  bytes : Bytes

inductive WriteOutcome where
  | ok
  | readOnly
deriving DecidableEq

/-- A call of `WriteInput`. -/
structure WriteCall where
  conn : Bytes
  input : Bytes
  /-- What is not written yet. -/
  rest : Bytes
  /-- How many frames were written. -/
  written : Nat
  /-- The number taken for the next frame. -/
  seq : Option Nat
  out : Option WriteOutcome

/-! ## The session -/

structure Keyboard where
  now : Nat
  lease : Lease
  /-- The last number taken. -/
  inputSeq : Nat
  calls : List WriteCall
  /-- What was written and is not delivered, oldest first; each connection delivers in order. -/
  wire : List Frame
  /-- The last number the guest applied. -/
  lastSeq : Nat
  pty : List Frame
  /-- The connections a steal took the lease from and that did not get it back. -/
  lost : List Bytes
  /-- The frames written after a steal took the lease from their connection. -/
  late : List Frame

namespace Keyboard

def start (grace : Int) : Keyboard := ⟨0, .newLease grace, 0, [], [], 0, [], [], []⟩

inductive Action where
  | begin (conn input : Bytes)
  /-- A call takes the next number. -/
  | takeSeq (call : Nat)
  | writeFrame (call : Nat)
  | finish (call : Nat)
  /-- A connection delivers its oldest frame to the guest. -/
  | deliver (conn : Bytes)
  | acquire (conn : Bytes)
  | steal (conn : Bytes)
  | release (conn : Bytes)
  | tick (d : Nat)

/-- Some call that passed the lease has not returned. -/
def busy (s : Keyboard) : Bool := s.calls.any fun c => c.out = none

def step (s : Keyboard) : Action → Option Keyboard
  | .begin conn input =>
    -- the messages of one browser are handled one after another
    if s.calls.any fun c => c.conn = conn && c.out = none then none
    else if s.lease.isWriter s.now conn then
      some { s with
        lease := s.lease.expireLocked s.now
        calls := s.calls ++ [⟨conn, input, input, 0, none, none⟩] }
    else
      some { s with
        lease := s.lease.expireLocked s.now
        calls := s.calls ++ [⟨conn, input, input, 0, none, some .readOnly⟩] }
  | .takeSeq i => do
    let c ← s.calls[i]?
    if c.out = none ∧ c.seq = none ∧ (c.written = 0 ∨ c.rest ≠ []) then
      some { s with
        inputSeq := (s.inputSeq + 1) % 2 ^ 64
        calls := s.calls.set i { c with seq := some ((s.inputSeq + 1) % 2 ^ 64) } }
    else none
  | .writeFrame i => do
    let c ← s.calls[i]?
    let seq ← c.seq
    let frame : Frame := ⟨c.conn, i, c.written, seq, c.rest.take maxPTYInputBytes⟩
    some { s with
      calls := s.calls.set i { c with
        rest := c.rest.drop maxPTYInputBytes
        written := c.written + 1
        seq := none }
      wire := s.wire ++ [frame]
      late := if c.conn ∈ s.lost then s.late ++ [frame] else s.late }
  | .finish i => do
    let c ← s.calls[i]?
    if c.out = none ∧ c.seq = none ∧ c.written ≠ 0 ∧ c.rest = [] then
      some { s with calls := s.calls.set i { c with out := some .ok } }
    else none
  | .deliver conn => do
    let frame ← s.wire.find? fun f => f.conn = conn
    let wire := s.wire.eraseP fun f => f.conn = conn
    if frame.seq ≤ s.lastSeq then some { s with wire }
    else some { s with wire, pty := s.pty ++ [frame], lastSeq := frame.seq }
  | .acquire conn =>
    some { s with
      lease := (s.lease.acquire s.now conn).2
      lost := if (s.lease.acquire s.now conn).1 then s.lost.filter (· ≠ conn) else s.lost }
  | .steal conn =>
    some { s with
      lease := (s.lease.steal s.now conn).2
      lost := (if (s.lease.steal s.now conn).1 = [] then s.lost
        else (s.lease.steal s.now conn).1 :: s.lost).filter (· ≠ conn) }
  | .release conn => some { s with lease := s.lease.release s.now conn }
  | .tick d => some { s with now := s.now + d }

/-- A call passes the lease only when no other is under way and the other connections have
delivered; the counter does not wrap around; and no lease is stolen from under a call. -/
def inTurn (s : Keyboard) : Action → Bool
  | .begin conn _ =>
    !s.lease.isWriter s.now conn || (!s.busy && s.wire.all fun f => f.conn = conn)
  | .takeSeq _ => s.inputSeq + 1 < 2 ^ 64
  | .steal _ => !s.busy
  | _ => true

abbrev InTurn (s : Keyboard) (a : Action) : Prop := s.inTurn a = true

/-! ## Frames in the order of their numbers -/

/-- Every frame that was applied or is still to be delivered. -/
def frames (s : Keyboard) : List Frame := s.pty ++ s.wire

/-- The frames of a call are its first ones, each once and in order, and what they do not carry is
still to be written. -/
structure Carried (frames : List Frame) (i : Nat) (c : WriteCall) : Prop where
  index : (frames.filter fun f => f.call = i).map Frame.index = List.range c.written
  bytes : (frames.filter fun f => f.call = i).flatMap Frame.bytes ++ c.rest = c.input

variable {s : Keyboard} {frames : List Frame} {i : Nat} {c : WriteCall}

lemma Carried.of_same {c' : WriteCall} (h : Carried frames i c) (hwritten : c'.written = c.written)
    (hrest : c'.rest = c.rest) (hinput : c'.input = c.input) :
    Carried frames i c' :=
  ⟨by rw [hwritten, h.index], by rw [hrest, hinput, h.bytes]⟩

lemma Carried.writeFrame {seq : Nat} (h : Carried frames i c) :
    Carried (frames ++ [⟨c.conn, i, c.written, seq, c.rest.take maxPTYInputBytes⟩]) i
      { c with
        rest := c.rest.drop maxPTYInputBytes
        written := c.written + 1
        seq := none } := by
  constructor
  · simp [h.index, range_succ]
  · simpa using h.bytes

lemma Carried.append_other {f : Frame} (h : Carried frames i c) (hf : f.call ≠ i) :
    Carried (frames ++ [f]) i c := by
  constructor
  · simpa [hf] using h.index
  · simpa [hf] using h.bytes

/-- No frame names a call that is still to come. -/
lemma Carried.fresh {n : Nat} (hknown : ∀ f ∈ frames, f.call < n) {conn input : Bytes}
    {out : Option WriteOutcome} :
    Carried frames n ⟨conn, input, input, 0, none, out⟩ := by
  have hnone : (frames.filter fun f => f.call = n) = [] := by
    refine filter_eq_nil_iff.2 fun f hf heq => ?_
    have := hknown f hf
    have := of_decide_eq_true heq
    omega
  exact ⟨by rw [hnone]; rfl, by rw [hnone]; rfl⟩

/-- One call at a time types, over one connection; the numbers of the frames under way rise, above
the last one applied. -/
structure Ordered (s : Keyboard) : Prop where
  carried : ∀ (i : Nat) (c : WriteCall), s.calls[i]? = some c → Carried s.frames i c
  known : ∀ f ∈ s.frames, f.call < s.calls.length
  rising : s.wire.Pairwise fun f g => f.seq < g.seq
  ahead : ∀ f ∈ s.wire, s.lastSeq < f.seq ∧ f.seq ≤ s.inputSeq
  lastSeq_le : s.lastSeq ≤ s.inputSeq
  single : ∀ (i j : Nat) (c d : WriteCall), s.calls[i]? = some c → s.calls[j]? = some d →
    c.out = none → d.out = none → i = j
  /-- A number that was taken is used next. -/
  held : ∀ (i : Nat) (c : WriteCall) (q : Nat), s.calls[i]? = some c → c.seq = some q →
    c.out = none ∧ q = s.inputSeq ∧ s.lastSeq < q ∧ ∀ f ∈ s.wire, f.seq < q
  sameConn : ∀ f ∈ s.wire, ∀ g ∈ s.wire, f.conn = g.conn
  active : ∀ (i : Nat) (c : WriteCall), s.calls[i]? = some c → c.out = none →
    ∀ f ∈ s.wire, f.conn = c.conn
  done : ∀ (i : Nat) (c : WriteCall), s.calls[i]? = some c → c.out = some .ok → c.rest = []

lemma busy_eq_false (h : s.busy = false) (hc : s.calls[i]? = some c) : c.out ≠ none := by
  intro hout
  have := any_eq_false.1 h c (mem_of_getElem? hc)
  simp [hout] at this

lemma get_set_cases {calls : List WriteCall} {j : Nat} {d : WriteCall}
    (h : (calls.set i c)[j]? = some d) : (j = i ∧ d = c) ∨ (j ≠ i ∧ calls[j]? = some d) := by
  rw [List.getElem?_set] at h
  split_ifs at h with hij hlt
  · exact .inl ⟨hij.symm, (Option.some.inj h).symm⟩
  · exact .inr ⟨fun heq => hij heq.symm, h⟩

lemma get_append_cases {calls : List WriteCall} {j : Nat} {d : WriteCall}
    (h : (calls ++ [c])[j]? = some d) : (j = calls.length ∧ d = c) ∨ calls[j]? = some d := by
  rcases Nat.lt_trichotomy j calls.length with hj | rfl | hj
  · exact .inr (by rwa [List.getElem?_append_left hj] at h)
  · exact .inl ⟨rfl, by simpa using h.symm⟩
  · rw [List.getElem?_eq_none (by simp; omega)] at h
    cases h

namespace Ordered

variable {s : Keyboard}

variable {conn : Bytes} {i : Nat} {c : WriteCall}

/-- A call comes in: it is refused, or the others are done and delivered. -/
lemma begin (h : Ordered s) {input : Bytes} {lease : Lease} {out : Option WriteOutcome}
    (hok : out ≠ some .ok)
    (hturn : out = none → s.busy = false ∧ ∀ f ∈ s.wire, f.conn = conn) :
    Ordered { s with lease, calls := s.calls ++ [⟨conn, input, input, 0, none, out⟩] } where
  carried i c hc := by
    rcases get_append_cases hc with ⟨rfl, rfl⟩ | hc
    · exact .fresh h.known
    · exact h.carried i c hc
  known f hf := by
    rw [length_append]
    exact Nat.lt_add_right _ (h.known f hf)
  rising := h.rising
  ahead := h.ahead
  lastSeq_le := h.lastSeq_le
  single i j c d hc hd hcout hdout := by
    rcases get_append_cases hc with ⟨rfl, rfl⟩ | hc <;>
      rcases get_append_cases hd with ⟨rfl, rfl⟩ | hd
    · rfl
    · exact absurd hdout (busy_eq_false (hturn hcout).1 hd)
    · exact absurd hcout (busy_eq_false (hturn hdout).1 hc)
    · exact h.single i j c d hc hd hcout hdout
  held i c q hc hq := by
    rcases get_append_cases hc with ⟨-, rfl⟩ | hc
    · cases hq
    · exact h.held i c q hc hq
  sameConn := h.sameConn
  active i c hc hout := by
    rcases get_append_cases hc with ⟨-, rfl⟩ | hc
    · exact (hturn hout).2
    · exact h.active i c hc hout
  done i c hc hout := by
    rcases get_append_cases hc with ⟨-, rfl⟩ | hc
    · exact absurd hout hok
    · exact h.done i c hc hout

/-- Replacing a call by one that is no further and as active keeps the single writer. -/
lemma single_set (h : Ordered s) {c' : WriteCall} (hget : s.calls[i]? = some c)
    (hout : c'.out = none → c.out = none) (j k : Nat) (d e : WriteCall)
    (hd : (s.calls.set i c')[j]? = some d) (he : (s.calls.set i c')[k]? = some e)
    (hdout : d.out = none) (heout : e.out = none) : j = k := by
  rcases get_set_cases hd with ⟨rfl, rfl⟩ | ⟨-, hd'⟩ <;>
    rcases get_set_cases he with ⟨rfl, rfl⟩ | ⟨-, he'⟩
  · rfl
  · exact h.single j k c e hget he' (hout hdout) heout
  · exact h.single j k d c hd' hget hdout (hout heout)
  · exact h.single j k d e hd' he' hdout heout

lemma takeSeq (h : Ordered s) (hget : s.calls[i]? = some c) (hout : c.out = none)
    (hwrap : s.inputSeq + 1 < 2 ^ 64) :
    Ordered { s with
      inputSeq := (s.inputSeq + 1) % 2 ^ 64
      calls := s.calls.set i { c with seq := some ((s.inputSeq + 1) % 2 ^ 64) } } := by
  rw [Nat.mod_eq_of_lt hwrap]
  refine ⟨fun j d hd => ?_, fun f hf => ?_, h.rising, fun f hf => ?_, ?_,
    h.single_set hget fun _ => hout, fun j d q hd hq => ?_, h.sameConn, fun j d hd hdout => ?_,
    fun j d hd hdout => ?_⟩
  · rcases get_set_cases hd with ⟨rfl, rfl⟩ | ⟨-, hd⟩
    · exact (h.carried j c hget).of_same rfl rfl rfl
    · exact h.carried j d hd
  · rw [length_set]
    exact h.known f hf
  · exact ⟨(h.ahead f hf).1, Nat.le_succ_of_le (h.ahead f hf).2⟩
  · exact Nat.le_succ_of_le h.lastSeq_le
  · rcases get_set_cases hd with ⟨rfl, rfl⟩ | ⟨hne, hd⟩
    · cases hq
      exact ⟨hout, rfl, Nat.lt_succ_of_le h.lastSeq_le,
        fun f hf => Nat.lt_succ_of_le (h.ahead f hf).2⟩
    · -- only the writing call can hold a number
      exact absurd (h.single j i d c hd hget (h.held j d q hd hq).1 hout) hne
  · rcases get_set_cases hd with ⟨rfl, rfl⟩ | ⟨-, hd⟩
    · exact h.active j c hget hout
    · exact h.active j d hd hdout
  · rcases get_set_cases hd with ⟨rfl, rfl⟩ | ⟨-, hd⟩
    · exact nomatch hout.symm.trans hdout
    · exact h.done j d hd hdout

lemma writeFrame (h : Ordered s) {q : Nat} (hget : s.calls[i]? = some c) (hq : c.seq = some q)
    {late : List Frame} :
    Ordered { s with
      calls := s.calls.set i { c with
        rest := c.rest.drop maxPTYInputBytes
        written := c.written + 1
        seq := none }
      wire := s.wire ++ [⟨c.conn, i, c.written, q, c.rest.take maxPTYInputBytes⟩]
      late } := by
  obtain ⟨hout, rfl, hlast, hbelow⟩ := h.held i c q hget hq
  have hlt : i < s.calls.length := (List.getElem?_eq_some_iff.1 hget).1
  have hframes : s.pty ++ (s.wire ++ [⟨c.conn, i, c.written, s.inputSeq,
      c.rest.take maxPTYInputBytes⟩]) = s.frames ++ [⟨c.conn, i, c.written, s.inputSeq,
      c.rest.take maxPTYInputBytes⟩] := (append_assoc _ _ _).symm
  refine ⟨fun j d hd => ?_, fun f hf => ?_, ?_, fun f hf => ?_, h.lastSeq_le,
    h.single_set hget fun _ => hout, fun j d q' hd hq' => ?_, fun f hf g hg => ?_,
    fun j d hd hdout f hf => ?_, fun j d hd hdout => ?_⟩
  · show Carried (s.pty ++ _) j d
    rw [hframes]
    rcases get_set_cases hd with ⟨rfl, rfl⟩ | ⟨hne, hd⟩
    · exact (h.carried j c hget).writeFrame
    · exact (h.carried j d hd).append_other fun heq => hne heq.symm
  · rw [length_set]
    have hf : f ∈ s.pty ++ _ := hf
    rw [hframes, mem_append, mem_singleton] at hf
    rcases hf with hf | rfl
    · exact h.known f hf
    · exact hlt
  · refine pairwise_append.2 ⟨h.rising, pairwise_singleton _ _, fun f hf g hg => ?_⟩
    cases mem_singleton.1 hg
    exact hbelow f hf
  · rcases mem_append.1 hf with hf | hf
    · exact h.ahead f hf
    · cases mem_singleton.1 hf
      exact ⟨hlast, Nat.le_refl _⟩
  · rcases get_set_cases hd with ⟨-, rfl⟩ | ⟨hne, hd⟩
    · cases hq'
    · exact absurd (h.single j i d c hd hget (h.held j d q' hd hq').1 hout) hne
  · have hc : ∀ f ∈ s.wire ++ [⟨c.conn, i, c.written, s.inputSeq,
        c.rest.take maxPTYInputBytes⟩], f.conn = c.conn := by
      intro f hf
      rcases mem_append.1 hf with hf | hf
      · exact h.active i c hget hout f hf
      · rw [mem_singleton.1 hf]
    rw [hc f hf, hc g hg]
  · have hji : j = i := by
      rcases get_set_cases hd with ⟨hji, -⟩ | ⟨-, hd⟩
      · exact hji
      · exact h.single j i d c hd hget hdout hout
    subst hji
    rcases get_set_cases hd with ⟨-, rfl⟩ | ⟨hne, -⟩
    · rcases mem_append.1 hf with hf | hf
      · exact h.active j c hget hout f hf
      · rw [mem_singleton.1 hf]
    · exact absurd rfl hne
  · rcases get_set_cases hd with ⟨rfl, rfl⟩ | ⟨-, hd⟩
    · exact nomatch hout.symm.trans hdout
    · exact h.done j d hd hdout

lemma finish (h : Ordered s) (hget : s.calls[i]? = some c) (hseq : c.seq = none)
    (hrest : c.rest = []) :
    Ordered { s with calls := s.calls.set i { c with out := some .ok } } := by
  refine ⟨fun j d hd => ?_, fun f hf => ?_, h.rising, h.ahead, h.lastSeq_le,
    h.single_set hget nofun, fun j d q hd hq => ?_, h.sameConn,
    fun j d hd hdout => ?_, fun j d hd hdout => ?_⟩
  · rcases get_set_cases hd with ⟨rfl, rfl⟩ | ⟨-, hd⟩
    · exact (h.carried j c hget).of_same rfl rfl rfl
    · exact h.carried j d hd
  · rw [length_set]
    exact h.known f hf
  · rcases get_set_cases hd with ⟨-, rfl⟩ | ⟨-, hd⟩
    · exact nomatch hseq.symm.trans hq
    · exact h.held j d q hd hq
  · rcases get_set_cases hd with ⟨-, rfl⟩ | ⟨-, hd⟩
    · cases hdout
    · exact h.active j d hd hdout
  · rcases get_set_cases hd with ⟨-, rfl⟩ | ⟨-, hd⟩
    · exact hrest
    · exact h.done j d hd hdout

/-- The frames under way are all of one connection, so the one delivered is the oldest of all. -/
lemma head_of_find (h : Ordered s) {f : Frame}
    (hfind : (s.wire.find? fun f => f.conn = conn) = some f) :
    s.wire = f :: s.wire.eraseP fun f => f.conn = conn := by
  have hconn : f.conn = conn := by simpa using List.find?_some hfind
  have hmem := mem_of_find?_eq_some hfind
  cases hwire : s.wire with
  | nil => exact absurd hmem (by simp [hwire])
  | cons g wire =>
    have hg : g.conn = conn := (h.sameConn g (by simp [hwire]) f hmem).trans hconn
    rw [hwire, List.find?_cons_of_pos (by simpa using hg)] at hfind
    cases hfind
    rw [eraseP_cons_of_pos (by simpa using hg)]

lemma deliver (h : Ordered s) {f : Frame} {wire : List Frame} (hwire : s.wire = f :: wire) :
    s.lastSeq < f.seq ∧
      Ordered { s with wire, pty := s.pty ++ [f], lastSeq := f.seq } := by
  have hframes : s.pty ++ [f] ++ wire = s.frames := by
    rw [frames, hwire, append_assoc, singleton_append]
  have hmem : ∀ g ∈ wire, g ∈ s.wire := fun g hg => by simp [hwire, hg]
  have hf : f ∈ s.wire := by simp [hwire]
  have hrising := h.rising
  rw [hwire] at hrising
  obtain ⟨hfirst, hrest⟩ := pairwise_cons.1 hrising
  refine ⟨(h.ahead f hf).1, fun j d hd => ?_, fun g hg => ?_, hrest, fun g hg => ?_,
    (h.ahead f hf).2, h.single, fun j d q hd hq => ?_,
    fun g hg g' hg' => h.sameConn g (hmem g hg) g' (hmem g' hg'),
    fun j d hd hout g hg => h.active j d hd hout g (hmem g hg), h.done⟩
  · show Carried (s.pty ++ [f] ++ wire) j d
    rw [hframes]
    exact h.carried j d hd
  · have hg : g ∈ s.pty ++ [f] ++ wire := hg
    rw [hframes] at hg
    exact h.known g hg
  · exact ⟨hfirst g hg, (h.ahead g (hmem g hg)).2⟩
  · obtain ⟨hout, hinput, -, hbelow⟩ := h.held j d q hd hq
    exact ⟨hout, hinput, hbelow f hf, fun g hg => hbelow g (hmem g hg)⟩

end Ordered

/-! ## The lease -/

/-- Neither the holder of the lease nor a call under way is one the lease was stolen from. -/
structure Held (s : Keyboard) : Prop where
  nil_notMem : [] ∉ s.lost
  holder_notMem : s.lease.holder ∉ s.lost
  active : ∀ c ∈ s.calls, c.out = none → c.conn ∉ s.lost
  late : s.late = []

namespace Held

variable {s : Keyboard}

lemma expireLocked (h : Held s) : (s.lease.expireLocked s.now).holder ∉ s.lost := by
  rcases s.lease.holder_expireLocked s.now with heq | heq
  · rw [heq]
    exact h.nil_notMem
  · rw [heq]
    exact h.holder_notMem

lemma set {i : Nat} {c c' : WriteCall} (h : Held s) (hget : s.calls[i]? = some c)
    (hconn : c'.conn = c.conn) (hout : c'.out = none → c.out = none) :
    ∀ d ∈ s.calls.set i c', d.out = none → d.conn ∉ s.lost := by
  intro d hd hdout
  rcases mem_or_eq_of_mem_set hd with hd | rfl
  · exact h.active d hd hdout
  · rw [hconn]
    exact h.active c (mem_of_getElem? hget) (hout hdout)

end Held

lemma Ordered.step {s' : Keyboard} (h : Ordered s) {a : Action} (hturn : s.InTurn a)
    (hstep : s.step a = some s') : Ordered s' := by
  cases a with
  | begin conn input =>
    simp only [Keyboard.step] at hstep
    split_ifs at hstep with hbusy hwriter
    · cases hstep
      have hturn : (!s.busy && s.wire.all fun f => f.conn = conn) = true := by
        simpa [InTurn, inTurn, hwriter] using hturn
      obtain ⟨hidle, hconn⟩ := (Bool.and_eq_true _ _).mp hturn
      refine h.begin nofun fun _ => ⟨by simpa using hidle, fun f hf => ?_⟩
      exact of_decide_eq_true (all_eq_true.1 hconn f hf)
    · cases hstep
      exact h.begin nofun nofun
  | takeSeq i =>
    obtain ⟨c, hget, hstep⟩ := bind_eq_some_iff.1 hstep
    split_ifs at hstep with hc
    cases hstep
    exact h.takeSeq hget hc.1 (of_decide_eq_true hturn)
  | writeFrame i =>
    obtain ⟨c, hget, hstep⟩ := bind_eq_some_iff.1 hstep
    obtain ⟨q, hq, hstep⟩ := bind_eq_some_iff.1 hstep
    cases hstep
    exact h.writeFrame hget hq
  | finish i =>
    obtain ⟨c, hget, hstep⟩ := bind_eq_some_iff.1 hstep
    split_ifs at hstep with hc
    cases hstep
    exact h.finish hget hc.2.1 hc.2.2.2
  | deliver conn =>
    obtain ⟨f, hfind, hstep⟩ := bind_eq_some_iff.1 hstep
    obtain ⟨hlt, hordered⟩ := h.deliver (h.head_of_find hfind)
    dsimp only at hstep
    rw [if_neg (by omega)] at hstep
    cases hstep
    exact hordered
  | acquire conn | steal conn | release conn | tick d =>
    cases hstep
    exact ⟨h.carried, h.known, h.rising, h.ahead, h.lastSeq_le, h.single, h.held, h.sameConn,
      h.active, h.done⟩

lemma Held.step {s' : Keyboard} (h : Held s) {a : Action} (hordered : Ordered s)
    (hturn : s.InTurn a) (hstep : s.step a = some s') : Held s' := by
  cases a with
  | begin conn input =>
    simp only [Keyboard.step] at hstep
    split_ifs at hstep with hbusy hwriter
    · cases hstep
      have hholder : (s.lease.expireLocked s.now).holder = conn :=
        of_decide_eq_true ((Bool.and_eq_true _ _).mp hwriter).2
      refine ⟨h.nil_notMem, h.expireLocked, fun c hc hout => ?_, h.late⟩
      rcases mem_append.1 hc with hc | hc
      · exact h.active c hc hout
      · rw [mem_singleton.1 hc, ← hholder]
        exact h.expireLocked
    · cases hstep
      refine ⟨h.nil_notMem, h.expireLocked, fun c hc hout => ?_, h.late⟩
      rcases mem_append.1 hc with hc | hc
      · exact h.active c hc hout
      · rw [mem_singleton.1 hc] at hout
        cases hout
  | takeSeq i =>
    obtain ⟨c, hget, hstep⟩ := bind_eq_some_iff.1 hstep
    split_ifs at hstep with hc
    cases hstep
    exact ⟨h.nil_notMem, h.holder_notMem, h.set hget rfl id, h.late⟩
  | writeFrame i =>
    obtain ⟨c, hget, hstep⟩ := bind_eq_some_iff.1 hstep
    obtain ⟨q, hq, hstep⟩ := bind_eq_some_iff.1 hstep
    cases hstep
    have hconn : c.conn ∉ s.lost :=
      h.active c (mem_of_getElem? hget) (hordered.held i c q hget hq).1
    exact ⟨h.nil_notMem, h.holder_notMem, h.set hget rfl id, (if_neg hconn).trans h.late⟩
  | finish i =>
    obtain ⟨c, hget, hstep⟩ := bind_eq_some_iff.1 hstep
    split_ifs at hstep with hc
    cases hstep
    exact ⟨h.nil_notMem, h.holder_notMem, h.set hget rfl fun _ => hc.1, h.late⟩
  | deliver conn =>
    obtain ⟨f, hfind, hstep⟩ := bind_eq_some_iff.1 hstep
    dsimp only at hstep
    split_ifs at hstep
    all_goals
      cases hstep
      exact ⟨h.nil_notMem, h.holder_notMem, h.active, h.late⟩
  | acquire conn =>
    cases hstep
    by_cases hgrant : (s.lease.expireLocked s.now).holder = [] ∨
        (s.lease.expireLocked s.now).holder = conn
    · simp only [Lease.acquire, if_pos hgrant]
      refine ⟨fun hmem => h.nil_notMem (mem_of_mem_filter hmem), ?_, fun c hc hout hmem =>
        h.active c hc hout (mem_of_mem_filter hmem), h.late⟩
      simp
    · simp only [Lease.acquire, if_neg hgrant]
      exact ⟨h.nil_notMem, h.expireLocked, h.active, h.late⟩
  | steal conn =>
    cases hstep
    have hidle : s.busy = false := by simpa [InTurn, inTurn] using hturn
    refine ⟨fun hmem => ?_, ?_, fun c hc hout => ?_, h.late⟩
    · have hmem := mem_of_mem_filter hmem
      split_ifs at hmem with hprev
      · exact h.nil_notMem hmem
      · rcases mem_cons.1 hmem with heq | hmem
        · exact hprev heq.symm
        · exact h.nil_notMem hmem
    · simp [Lease.steal]
    · obtain ⟨i, hget⟩ := mem_iff_getElem?.1 hc
      exact absurd hout (busy_eq_false hidle hget)
  | release conn =>
    cases hstep
    refine ⟨h.nil_notMem, ?_, h.active, h.late⟩
    show (s.lease.release s.now conn).holder ∉ s.lost
    rw [Lease.holder_release]
    exact h.expireLocked
  | tick d =>
    cases hstep
    exact ⟨h.nil_notMem, h.holder_notMem, h.active, h.late⟩

/-- **Input is applied once, and only by the holder of the lease.**  Whatever the order of calls,
frames, deliveries and changes of the lease: as long as a call passes the lease only when no other
is under way and the other connections have delivered, and no lease is stolen from under a call,
the frames of a call that returned are all there, each once and in order, at the PTY or still on
its connection, and no frame was written after the lease was stolen from its attachment. -/
theorem input_applied_once {grace : Int} {as : List Action} {s : Keyboard}
    (hturn : Along step InTurn (start grace) as) (hrun : run step (start grace) as = some s) :
    (∀ (i : Nat) (c : WriteCall), s.calls[i]? = some c → c.out = some .ok →
      (((s.pty ++ s.wire).filter fun f => f.call = i).map Frame.index = List.range c.written ∧
        ((s.pty ++ s.wire).filter fun f => f.call = i).flatMap Frame.bytes = c.input)) ∧
      s.late = [] := by
  have hinit : Ordered (start grace) ∧ Held (start grace) := by
    refine ⟨⟨nofun, nofun, .nil, nofun,
      Nat.le_refl 0, nofun, nofun,
      nofun, nofun, nofun⟩,
      ⟨not_mem_nil, not_mem_nil, nofun, rfl⟩⟩
  have hinv : Ordered s ∧ Held s :=
    run_invariant (I := fun s => Ordered s ∧ Held s)
      (fun s a s' h hturn hstep => ⟨h.1.step hturn hstep, h.2.step h.1 hturn hstep⟩)
      hinit hturn hrun
  refine ⟨fun i c hc hout => ?_, hinv.2.late⟩
  have hcarried := hinv.1.carried i c hc
  have hbytes := hcarried.bytes
  rw [hinv.1.done i c hc hout, append_nil] at hbytes
  exact ⟨hcarried.index, hbytes⟩

/-! ### Two attachments -/

/-- The first types and is delivered; the second steals the lease and types. -/
def demoInTurn : List Action :=
  [.acquire [1], .begin [1] [97, 98], .begin [2] [99], .takeSeq 0, .writeFrame 0, .finish 0,
    .deliver [1], .steal [2], .begin [2] [100], .takeSeq 2, .writeFrame 2, .finish 2]

theorem input_applied_once_demo : ∃ s c,
    run step (start 30) demoInTurn = some s ∧ s.calls[2]? = some c ∧ c.out = some .ok ∧
      ((s.pty ++ s.wire).filter fun f => f.call = 2).flatMap Frame.bytes = c.input ∧
      s.late = [] := by
  obtain ⟨s, hrun, c, hget, hout⟩ : ∃ s, run step (start 30) demoInTurn = some s ∧
      ∃ c, s.calls[2]? = some c ∧ c.out = some .ok := by decide
  obtain ⟨hcarried, hlate⟩ := input_applied_once (by decide) hrun
  exact ⟨s, c, hrun, hget, hout, (hcarried 2 c hget hout).2, hlate⟩

/-- The first takes its number; the second steals the lease, types and is delivered; then the
first writes its frame. -/
def demoOvertaken : List Action :=
  [.acquire [1], .begin [1] [97], .takeSeq 0, .steal [2], .begin [2] [98], .takeSeq 1,
    .writeFrame 1, .finish 1, .deliver [2], .writeFrame 0, .finish 0, .deliver [1]]

/-- The first call returned without an error; nothing of it is at the PTY or under way, and its
frame was written after the lease was stolen from it. -/
theorem input_dropped_after_steal : ∃ s,
    run step (start 30) demoOvertaken = some s ∧ (s.calls[0]?.bind WriteCall.out) = some .ok ∧
      ((s.pty ++ s.wire).filter fun f => f.call = 0) = [] ∧ s.late ≠ [] := by
  decide

end Keyboard

end Observatory.Terminal
