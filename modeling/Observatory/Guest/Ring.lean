/-
# The guest's telemetry ring

The ring is a bounded queue of events the guest has observed and the host has not yet
acknowledged. A sender drains it onto a connection in three separate steps: `Next` reads
the item under the send cursor, the item is written to the connection, and `Advance` moves
the cursor. Sensors push, the host acknowledges and a new connection rewinds at any moment
in between.

The send cursor counts items from the front of the ring, so an acknowledgement or a
full-ring drop that lands between `Next` and `Advance` moves the front under it. When it
removes the very item the sender holds, the following `Advance` steps over an item that was
never written. `Aligned` is the condition that this does not happen.
-/
import Observatory.Lib.Machine
import Observatory.Lib.Bytes
import Mathlib.Data.List.TakeWhile

namespace Observatory.Guest

open Lib List

/-- One queued event waiting for the host. The two clocks are stamped when the event is
queued and carried as texts. -/
structure Item where
  seq : Bytes
  kind : Bytes
  data : Bytes
  guestWallAt : Bytes
  guestMonotonicNS : Bytes
deriving DecidableEq

/-- The bounded queue. `sent` counts the items written on the current connection; `seq`
and `dropped` are 64-bit counters. -/
structure Ring where
  items : List Item
  sent : Nat
  cap : Nat
  seq : Nat
  dropped : Nat
  cap_pos : 0 < cap
  items_le : items.length ≤ cap
  sent_le : sent ≤ items.length

namespace Ring

lemma newRing_cap_pos (capacity : Int) : 0 < max 1 capacity.toNat := by omega

lemma newRing_items_le (capacity : Int) : ([] : List Item).length ≤ max 1 capacity.toNat := by
  simp

lemma newRing_sent_le : 0 ≤ ([] : List Item).length := Nat.zero_le _

/-- A ring holding at most `capacity` items; a capacity below one is raised to one. -/
def newRing (capacity : Int) : Ring where
  items := []
  sent := 0
  cap := max 1 capacity.toNat
  seq := 0
  dropped := 0
  cap_pos := newRing_cap_pos capacity
  items_le := newRing_items_le capacity
  sent_le := newRing_sent_le

/-- The full ring gives up its oldest item, counts it, and moves the send cursor with it. -/
def dropOldest (r : Ring) : Ring where
  items := r.items.tail
  sent := r.sent - 1
  cap := r.cap
  seq := r.seq
  dropped := (r.dropped + 1) % 2 ^ 64
  cap_pos := r.cap_pos
  items_le := by
    have := r.items_le
    rw [length_tail]
    omega
  sent_le := by
    have := r.sent_le
    rw [length_tail]
    omega

/-- The item `Push` queues: the next sequence, as a decimal text. -/
def newItem (r : Ring) (kind data wallAt monotonicNS : Bytes) : Item where
  seq := formatUint ((r.seq + 1) % 2 ^ 64)
  kind := kind
  data := data
  guestWallAt := wallAt
  guestMonotonicNS := monotonicNS

def enqueue (r : Ring) (it : Item) (h : r.items.length < r.cap) : Ring where
  items := r.items ++ [it]
  sent := r.sent
  cap := r.cap
  seq := (r.seq + 1) % 2 ^ 64
  dropped := r.dropped
  cap_pos := r.cap_pos
  items_le := by
    rw [length_append, length_singleton]
    omega
  sent_le := by
    have := r.sent_le
    rw [length_append]
    omega

lemma length_tail_lt_cap (r : Ring) : r.items.tail.length < r.cap := by
  have h₁ := r.items_le
  have h₂ := r.cap_pos
  rw [length_tail]
  omega

/-- Queue one event, assigning it the next sequence. A full ring drops its oldest item. -/
def push (r : Ring) (kind data wallAt monotonicNS : Bytes) : Ring :=
  if h : r.items.length = r.cap then
    r.dropOldest.enqueue (r.newItem kind data wallAt monotonicNS) r.length_tail_lt_cap
  else
    r.enqueue (r.newItem kind data wallAt monotonicNS) (Nat.lt_of_le_of_ne r.items_le h)

/-- The item the next `push` drops: the oldest one of a full ring. -/
def evicted (r : Ring) : List Item :=
  if r.items.length = r.cap then r.items.head?.toList else []

/-- The oldest item this connection has not written yet. -/
def next (r : Ring) : Option Item := r.items[r.sent]?

/-- Move the send cursor past the item `next` returned. -/
def advance (r : Ring) : Ring :=
  if h : r.sent < r.items.length then
    { r with sent := r.sent + 1, sent_le := h }
  else r

/-- Put the send cursor back to the oldest unacknowledged item. -/
@[simps items seq dropped sent] def rewind (r : Ring) : Ring := { r with sent := 0, sent_le := Nat.zero_le _ }

/-- Whether an acknowledgement through `n` covers the item. -/
def covered (n : Nat) (it : Item) : Bool :=
  match parseUint it.seq with
  | some k => decide (k ≤ n)
  | none => false

/-- How many items from the front an acknowledgement through `n` covers. -/
def kept (r : Ring) (n : Nat) : Nat := (r.items.takeWhile (covered n)).length

/-- Forget every item up to and including `seq`. An acknowledgement that does not parse
changes nothing. -/
def ackThrough (r : Ring) (seq : Bytes) : Ring :=
  match parseUint seq with
  | none => r
  | some n =>
    { r with
      items := r.items.drop (r.kept n)
      sent := r.sent - r.kept n
      items_le := by
        have := r.items_le
        rw [length_drop]
        omega
      sent_le := by
        have := r.sent_le
        rw [length_drop]
        omega }

/-! ### What each operation does to the items and the cursor -/

lemma items_push_full (r : Ring) (k d w m : Bytes) (h : r.items.length = r.cap) :
    (r.push k d w m).items = r.items.tail ++ [r.newItem k d w m] := by
  rw [push, dif_pos h]
  rfl

lemma items_push_room (r : Ring) (k d w m : Bytes) (h : r.items.length ≠ r.cap) :
    (r.push k d w m).items = r.items ++ [r.newItem k d w m] := by
  rw [push, dif_neg h]
  rfl

lemma sent_push_full (r : Ring) (k d w m : Bytes) (h : r.items.length = r.cap) :
    (r.push k d w m).sent = r.sent - 1 := by
  rw [push, dif_pos h]
  rfl

lemma sent_push_room (r : Ring) (k d w m : Bytes) (h : r.items.length ≠ r.cap) :
    (r.push k d w m).sent = r.sent := by
  rw [push, dif_neg h]
  rfl

lemma dropped_push_full (r : Ring) (k d w m : Bytes) (h : r.items.length = r.cap) :
    (r.push k d w m).dropped = (r.dropped + 1) % 2 ^ 64 := by
  rw [push, dif_pos h]
  rfl

lemma dropped_push_room (r : Ring) (k d w m : Bytes) (h : r.items.length ≠ r.cap) :
    (r.push k d w m).dropped = r.dropped := by
  rw [push, dif_neg h]
  rfl

@[simp] lemma seq_push (r : Ring) (k d w m : Bytes) :
    (r.push k d w m).seq = (r.seq + 1) % 2 ^ 64 := by
  unfold push
  split <;> rfl

@[simp] lemma items_advance (r : Ring) : r.advance.items = r.items := by
  unfold advance
  split <;> rfl

@[simp] lemma seq_advance (r : Ring) : r.advance.seq = r.seq := by
  unfold advance
  split <;> rfl

@[simp] lemma dropped_advance (r : Ring) : r.advance.dropped = r.dropped := by
  unfold advance
  split <;> rfl

@[simp] lemma seq_ackThrough (r : Ring) (s : Bytes) : (r.ackThrough s).seq = r.seq := by
  unfold ackThrough
  split <;> rfl

@[simp] lemma dropped_ackThrough (r : Ring) (s : Bytes) : (r.ackThrough s).dropped = r.dropped := by
  unfold ackThrough
  split <;> rfl

variable {s : Bytes} {n : Nat} {r : Ring}

lemma ackThrough_of_none (h : parseUint s = none) :
    r.ackThrough s = r := by
  unfold ackThrough
  split
  · rfl
  · next h' => cases h.symm.trans h'

lemma items_ackThrough (h : parseUint s = some n) :
    (r.ackThrough s).items = r.items.drop (r.kept n) := by
  unfold ackThrough
  split
  · next h' => cases h.symm.trans h'
  · next m h' =>
    obtain rfl : n = m := Option.some.inj (h.symm.trans h')
    rfl

lemma sent_ackThrough (h : parseUint s = some n) : (r.ackThrough s).sent = r.sent - r.kept n := by
  unfold ackThrough
  split
  · next h' => cases h.symm.trans h'
  · next m h' =>
    obtain rfl : n = m := Option.some.inj (h.symm.trans h')
    rfl

lemma covered_of_lt_kept {i : Nat} {it : Item} (hi : i < r.kept n) (h : r.items[i]? = some it) :
    covered n it = true := by
  have hmem : (r.items.takeWhile (covered n))[i] ∈ r.items.takeWhile (covered n) :=
    getElem_mem hi
  have heq : (r.items.takeWhile (covered n))[i] = it := by
    rw [(List.takeWhile_prefix _).getElem hi]
    exact (List.getElem?_eq_some_iff.1 h).2
  exact heq ▸ mem_takeWhile_imp hmem

end Ring

/-! ## The ring and its sender -/

/-- Where the sender stands between two of its steps. -/
inductive Sender where
  | idle
  | holding (it : Item)
  | wrote (it : Item)

/-- The guest side of a telemetry stream. The last four fields are history: every event
ever pushed, written to a connection, dropped by the full ring, and forgotten by an
acknowledgement, in order. -/
structure Link where
  ring : Ring
  sender : Sender
  pushed : List Item
  written : List Item
  droppedItems : List Item
  acked : List Item

/-- The steps of the sensors, the sender, the host and a new connection. -/
inductive Action where
  | push (kind data wallAt monotonicNS : Bytes)
  | next
  | write
  | fail
  | advance
  | rewind
  | ack (seq : Bytes)

namespace Link

/-- A fresh ring with nothing pushed yet. -/
def init (capacity : Int) : Link where
  ring := Ring.newRing capacity
  sender := .idle
  pushed := []
  written := []
  droppedItems := []
  acked := []

/-- The host acknowledges only sequences it has received. -/
def hostReceived (s : Link) (seq : Bytes) : Bool :=
  match parseUint seq with
  | none => true
  | some n => s.written.any fun it => parseUint it.seq == some n

/-- One step. The three sender steps follow `drainTelemetry`; a failed write ends the
connection and leaves the item where it is. -/
def step (s : Link) : Action → Option Link
  | .push k d w m =>
    some { s with
      ring := s.ring.push k d w m
      pushed := s.pushed ++ [s.ring.newItem k d w m]
      droppedItems := s.droppedItems ++ s.ring.evicted }
  | .next =>
    match s.sender, s.ring.next with
    | .idle, some it => some { s with sender := .holding it }
    | .idle, none => some s
    | _, _ => none
  | .write =>
    match s.sender with
    | .holding it => some { s with sender := .wrote it, written := s.written ++ [it] }
    | _ => none
  | .fail =>
    match s.sender with
    | .holding _ => some { s with sender := .idle }
    | _ => none
  | .advance =>
    match s.sender with
    | .wrote _ => some { s with sender := .idle, ring := s.ring.advance }
    | _ => none
  | .rewind => some { s with ring := s.ring.rewind }
  | .ack seq =>
    if s.hostReceived seq then
      some { s with
        ring := s.ring.ackThrough seq
        acked := s.acked ++ match parseUint seq with
          | some n => s.ring.items.take (s.ring.kept n)
          | none => [] }
    else none

/-- Every pushed event was written, or is queued at or behind the send cursor, or was
dropped; the dropped ones are the ones the counter counts; and an acknowledgement forgot
only written events. -/
structure Safe (s : Link) : Prop where
  accounted : ∀ it ∈ s.pushed, it ∈ s.written ∨
    (∃ i, s.ring.sent ≤ i ∧ s.ring.items[i]? = some it) ∨ it ∈ s.droppedItems
  counted : s.ring.dropped = s.droppedItems.length % 2 ^ 64
  acked_written : ∀ it ∈ s.acked, it ∈ s.written

/-- The condition on a step: a push does not exhaust the 64-bit sequence, and when `Advance`
runs, the item under the send cursor, if there is one, has been written. -/
def Aligned (s : Link) : Action → Prop
  | .push .. => s.ring.seq + 1 < 2 ^ 64
  | .advance => ∀ it ∈ s.ring.items[s.ring.sent]?, it ∈ s.written
  | _ => True

instance decidableAligned (s : Link) : ∀ a, Decidable (s.Aligned a)
  | .push .. => inferInstanceAs (Decidable (s.ring.seq + 1 < 2 ^ 64))
  | .advance => inferInstanceAs (Decidable (∀ it ∈ s.ring.items[s.ring.sent]?, it ∈ s.written))
  | .next | .write | .fail | .rewind | .ack _ => isTrue trivial

end Link

/-! ## Marks on a queue

Three facts about a queue some of whose elements are marked, each kept when the queue loses
elements at its front and when an unmarked one is added at its end. -/

section Marks

variable {α : Type*} {marked q : List α}

def FrontMarked (marked q : List α) (n : Nat) : Prop :=
  ∀ (i : Nat) (a : α), i < n → q[i]? = some a → a ∈ marked

/-- Whatever stands before a marked element is marked. -/
def MarkedClosed (marked q : List α) : Prop :=
  ∀ (i j : Nat) (a b : α), i ≤ j → q[i]? = some a → q[j]? = some b → b ∈ marked → a ∈ marked

def BeforeMarked (marked q : List α) (x : α) : Prop :=
  ∀ (i j : Nat) (a : α), i < j → q[j]? = some x → q[i]? = some a → a ∈ marked

lemma FrontMarked.drop {n : Nat} (h : FrontMarked marked q n) (k : Nat) :
    FrontMarked marked (q.drop k) (n - k) := by
  intro i a hi ha
  rw [List.getElem?_drop] at ha
  exact h (k + i) a (by omega) ha

lemma MarkedClosed.drop (h : MarkedClosed marked q) (k : Nat) :
    MarkedClosed marked (q.drop k) := by
  intro i j a b hij ha hb
  rw [List.getElem?_drop] at ha hb
  exact h (k + i) (k + j) a b (by omega) ha hb

variable {x : α}

lemma BeforeMarked.drop (h : BeforeMarked marked q x) (k : Nat) :
    BeforeMarked marked (q.drop k) x := by
  intro i j a hij hx ha
  rw [List.getElem?_drop] at hx ha
  exact h (k + i) (k + j) a (by omega) hx ha

lemma getElem?_concat {i : Nat} {a : α} (h : (q ++ [x])[i]? = some a) :
    q[i]? = some a ∨ (i = q.length ∧ a = x) := by
  by_cases hi : i < q.length
  · left
    rwa [List.getElem?_append_left hi] at h
  · right
    rw [List.getElem?_append_right (by omega)] at h
    obtain ⟨h0, rfl⟩ := List.getElem?_eq_some_iff.1 h
    simp only [length_singleton] at h0
    exact ⟨by omega, by simp⟩

lemma FrontMarked.concat {n : Nat} (h : FrontMarked marked q n) (hn : n ≤ q.length) (x : α) :
    FrontMarked marked (q ++ [x]) n := by
  intro i a hi ha
  rcases getElem?_concat ha with ha | ⟨rfl, -⟩
  · exact h i a hi ha
  · omega

lemma MarkedClosed.concat (h : MarkedClosed marked q) (hx : x ∉ marked) :
    MarkedClosed marked (q ++ [x]) := by
  intro i j a b hij ha hb hmem
  rcases getElem?_concat hb with hb | ⟨-, rfl⟩
  · rcases getElem?_concat ha with ha | ⟨rfl, -⟩
    · exact h i j a b hij ha hb hmem
    · have := (List.getElem?_eq_some_iff.1 hb).1
      omega
  · exact absurd hmem hx

lemma BeforeMarked.concat {y : α} (h : BeforeMarked marked q y) (hxy : x ≠ y) :
    BeforeMarked marked (q ++ [x]) y := by
  intro i j a hij hy ha
  rcases getElem?_concat hy with hy | ⟨-, rfl⟩
  · rcases getElem?_concat ha with ha | ⟨rfl, -⟩
    · exact h i j a hij hy ha
    · have := (List.getElem?_eq_some_iff.1 hy).1
      omega
  · exact absurd rfl hxy

end Marks

/-! ## The invariant -/

namespace Link

/-- The invariant behind `Safe`. The ring is a suffix of everything pushed, the sequence
of an event is its place in that list, and the written events stand in front of the
unwritten ones. -/
structure Inv (s : Link) : Prop where
  seq_eq : s.ring.seq = s.pushed.length
  bound : s.pushed.length < 2 ^ 64
  seqs : ∀ (i : Nat) (it : Item), s.pushed[i]? = some it → it.seq = formatUint (i + 1)
  split : ∃ gone, s.pushed = gone ++ s.ring.items ∧
    ∀ it ∈ gone, it ∈ s.droppedItems ∨ it ∈ s.acked
  acked_written : ∀ it ∈ s.acked, it ∈ s.written
  front : FrontMarked s.written s.ring.items s.ring.sent
  closed : MarkedClosed s.written s.ring.items
  holding : ∀ it, s.sender = .holding it →
    it ∈ s.pushed ∧ BeforeMarked s.written s.ring.items it
  written_pushed : ∀ it ∈ s.written, it ∈ s.pushed
  counted : s.ring.dropped = s.droppedItems.length % 2 ^ 64

lemma inv_init (capacity : Int) : Inv (init capacity) where
  seq_eq := rfl
  bound := by simp [init]
  seqs := by simp [init]
  split := ⟨[], by simp [init, Ring.newRing], by simp⟩
  acked_written := by simp [init]
  front := by intro i a hi; simp [init, Ring.newRing] at hi
  closed := by intro i j a b _ ha; simp [init, Ring.newRing] at ha
  holding := by simp [init]
  written_pushed := by simp [init]
  counted := rfl

lemma Inv.safe {s : Link} (h : Inv s) : Safe s where
  accounted := by
    intro it hit
    obtain ⟨gone, hsplit, hgone⟩ := h.split
    rw [hsplit, mem_append] at hit
    rcases hit with hit | hit
    · rcases hgone it hit with hd | ha
      · exact Or.inr (Or.inr hd)
      · exact Or.inl (h.acked_written it ha)
    · obtain ⟨i, hi⟩ := mem_iff_getElem?.1 hit
      by_cases his : i < s.ring.sent
      · exact Or.inl (h.front i it his hi)
      · exact Or.inr (Or.inl ⟨i, by omega, hi⟩)
  counted := h.counted
  acked_written := h.acked_written

variable {s s' : Link}

lemma Inv.newItem_notMem (h : Inv s) (hb : s.ring.seq + 1 < 2 ^ 64) (k d w m : Bytes) :
    s.ring.newItem k d w m ∉ s.pushed := by
  intro hmem
  obtain ⟨i, hi⟩ := mem_iff_getElem?.1 hmem
  have hseq := h.seqs i _ hi
  have hlt := (List.getElem?_eq_some_iff.1 hi).1
  have hnew : (s.ring.newItem k d w m).seq = formatUint (s.pushed.length + 1) := by
    show formatUint ((s.ring.seq + 1) % 2 ^ 64) = _
    rw [Nat.mod_eq_of_lt hb, h.seq_eq]
  have := formatUint_injective (hnew.symm.trans hseq)
  omega

lemma inv_push {k d w m : Bytes} (h : Inv s) (hb : s.ring.seq + 1 < 2 ^ 64)
    (hs : s.step (.push k d w m) = some s') : Inv s' := by
  simp only [step, Option.some.injEq] at hs
  subst hs
  have hnew := h.newItem_notMem hb k d w m
  have hneww : s.ring.newItem k d w m ∉ s.written := fun hc => hnew (h.written_pushed _ hc)
  -- the part that does not depend on whether the ring was full
  have hseqs : ∀ (i : Nat) (it : Item), (s.pushed ++ [s.ring.newItem k d w m])[i]? = some it →
      it.seq = formatUint (i + 1) := by
    intro i it hi
    rcases getElem?_concat hi with hi | ⟨rfl, rfl⟩
    · exact h.seqs i it hi
    · show formatUint ((s.ring.seq + 1) % 2 ^ 64) = _
      rw [Nat.mod_eq_of_lt hb, h.seq_eq]
  have hseq : (s.ring.push k d w m).seq = (s.pushed ++ [s.ring.newItem k d w m]).length := by
    rw [Ring.seq_push, Nat.mod_eq_of_lt hb, h.seq_eq, length_append, length_singleton]
  have hbound : (s.pushed ++ [s.ring.newItem k d w m]).length < 2 ^ 64 := by
    rw [length_append, length_singleton, ← h.seq_eq]
    exact hb
  have hwp : ∀ it ∈ s.written, it ∈ s.pushed ++ [s.ring.newItem k d w m] :=
    fun it hit => mem_append_left _ (h.written_pushed it hit)
  obtain ⟨gone, hsplit, hgone⟩ := h.split
  by_cases hfull : s.ring.items.length = s.ring.cap
  · -- the oldest item moves from the ring to the dropped ones
    have hcap := s.ring.cap_pos
    obtain ⟨old, rest, hitems⟩ : ∃ old rest, s.ring.items = old :: rest :=
      exists_cons_of_length_pos (by omega)
    have htail : s.ring.items.tail = s.ring.items.drop 1 := by simp
    have hev : s.ring.evicted = [old] := by rw [Ring.evicted, if_pos hfull, hitems]; rfl
    refine ⟨hseq, hbound, hseqs, ⟨gone ++ [old], ?_, ?_⟩, h.acked_written, ?_, ?_, ?_, hwp, ?_⟩
    · simp only [Ring.items_push_full _ _ _ _ _ hfull]
      rw [hsplit, hitems]
      simp
    · intro it hit
      rw [mem_append, mem_singleton] at hit
      rw [hev]
      rcases hit with hit | rfl
      · rcases hgone it hit with hd | ha
        · exact Or.inl (mem_append_left _ hd)
        · exact Or.inr ha
      · exact Or.inl (by simp)
    · simp only [Ring.items_push_full _ _ _ _ _ hfull, Ring.sent_push_full _ _ _ _ _ hfull, htail]
      have hle := s.ring.sent_le
      exact (h.front.drop 1).concat (by rw [length_drop]; omega) _
    · simp only [Ring.items_push_full _ _ _ _ _ hfull, htail]
      exact (h.closed.drop 1).concat hneww
    · intro it hit
      obtain ⟨hp, hbm⟩ := h.holding it hit
      refine ⟨mem_append_left _ hp, ?_⟩
      simp only [Ring.items_push_full _ _ _ _ _ hfull, htail]
      exact (hbm.drop 1).concat fun hc => hnew (hc ▸ hp)
    · simp only [Ring.dropped_push_full _ _ _ _ _ hfull, hev, length_append,
        length_singleton, h.counted]
      omega
  · have hev : s.ring.evicted = [] := by rw [Ring.evicted, if_neg hfull]
    refine ⟨hseq, hbound, hseqs, ⟨gone, ?_, ?_⟩, h.acked_written, ?_, ?_, ?_, hwp, ?_⟩
    · simp only [Ring.items_push_room _ _ _ _ _ hfull]
      rw [hsplit, append_assoc]
    · simpa [hev] using hgone
    · simp only [Ring.items_push_room _ _ _ _ _ hfull, Ring.sent_push_room _ _ _ _ _ hfull]
      exact h.front.concat s.ring.sent_le _
    · simp only [Ring.items_push_room _ _ _ _ _ hfull]
      exact h.closed.concat hneww
    · intro it hit
      obtain ⟨hp, hbm⟩ := h.holding it hit
      refine ⟨mem_append_left _ hp, ?_⟩
      simp only [Ring.items_push_room _ _ _ _ _ hfull]
      exact hbm.concat fun hc => hnew (hc ▸ hp)
    · simp only [Ring.dropped_push_room _ _ _ _ _ hfull, hev, append_nil, h.counted]

lemma inv_next (h : Inv s) (hs : s.step .next = some s') : Inv s' := by
  cases hsd : s.sender with
  | idle =>
    cases hn : s.ring.next with
    | none =>
      simp only [step, hsd, hn, Option.some.injEq] at hs
      exact hs ▸ h
    | some it =>
      simp only [step, hsd, hn, Option.some.injEq] at hs
      subst hs
      refine { h with holding := ?_ }
      rintro it' ⟨rfl⟩
      have hmem : it ∈ s.ring.items := mem_of_getElem? hn
      obtain ⟨gone, hsplit, -⟩ := h.split
      refine ⟨by rw [hsplit]; exact mem_append_right _ hmem, ?_⟩
      -- the item stands under the cursor, and everything before the cursor is written
      intro i j a hij hj ha
      have hlt := (List.getElem?_eq_some_iff.1 hj).1
      by_cases hjs : j ≤ s.ring.sent
      · exact h.front i a (by omega) ha
      · exfalso
        have h1 : s.pushed[gone.length + s.ring.sent]? = some it := by
          rw [hsplit, List.getElem?_append_right (by omega), Nat.add_sub_cancel_left]
          exact hn
        have h2 : s.pushed[gone.length + j]? = some it := by
          rw [hsplit, List.getElem?_append_right (by omega), Nat.add_sub_cancel_left]
          exact hj
        have := formatUint_injective ((h.seqs _ _ h1).symm.trans (h.seqs _ _ h2))
        omega
  | holding it | wrote it => simp [step, hsd] at hs

lemma inv_write (h : Inv s) (hs : s.step .write = some s') : Inv s' := by
  cases hsd : s.sender with
  | idle | wrote it => simp [step, hsd] at hs
  | holding it =>
    simp only [step, hsd, Option.some.injEq] at hs
    subst hs
    obtain ⟨hp, hbm⟩ := h.holding it hsd
    refine { h with acked_written := ?_, front := ?_, closed := ?_, holding := ?_,
                    written_pushed := ?_ }
    · exact fun x hx => mem_append_left _ (h.acked_written x hx)
    · exact fun i a hi ha => mem_append_left _ (h.front i a hi ha)
    · intro i j a b hij ha hb hmem
      rcases mem_append.1 hmem with hmem | hmem
      · exact mem_append_left _ (h.closed i j a b hij ha hb hmem)
      · obtain rfl := mem_singleton.1 hmem
        rcases Nat.lt_or_ge i j with hlt | hge
        · exact mem_append_left _ (hbm i j a hlt hb ha)
        · obtain rfl : i = j := by omega
          obtain rfl : a = b := Option.some.inj (ha.symm.trans hb)
          exact mem_append_right _ hmem
    · simp
    · intro x hx
      rcases mem_append.1 hx with hx | hx
      · exact h.written_pushed x hx
      · exact mem_singleton.1 hx ▸ hp

lemma inv_fail (h : Inv s) (hs : s.step .fail = some s') : Inv s' := by
  cases hsd : s.sender with
  | idle | wrote it => simp [step, hsd] at hs
  | holding it =>
    simp only [step, hsd, Option.some.injEq] at hs
    subst hs
    exact { h with holding := by simp }

lemma inv_advance (h : Inv s) (ha : s.Aligned .advance) (hs : s.step .advance = some s') :
    Inv s' := by
  cases hsd : s.sender with
  | idle | holding it => simp [step, hsd] at hs
  | wrote it =>
    simp only [step, hsd, Option.some.injEq] at hs
    subst hs
    refine { h with seq_eq := ?_, split := ?_, front := ?_, closed := ?_, holding := by simp,
                    counted := ?_ }
    · simpa using h.seq_eq
    · simpa using h.split
    · simp only [Ring.items_advance]
      by_cases hlt : s.ring.sent < s.ring.items.length
      · have hsent : s.ring.advance.sent = s.ring.sent + 1 := by rw [Ring.advance, dif_pos hlt]
        intro i a hi hia
        rw [hsent] at hi
        rcases Nat.lt_succ_iff_lt_or_eq.1 hi with hi | rfl
        · exact h.front i a hi hia
        · exact ha a hia
      · rw [Ring.advance, dif_neg hlt]
        exact h.front
    · simpa using h.closed
    · simpa using h.counted

lemma inv_rewind (h : Inv s) (hs : s.step .rewind = some s') : Inv s' := by
  simp only [step, Option.some.injEq] at hs
  subst hs
  exact { h with front := fun i a hi => absurd hi (by simp) }

/-- A host that acknowledges only received sequences covers only written items: the item it
acknowledges was written, and whatever stands before a written item was written too. -/
lemma Inv.kept_written (h : Inv s) {seq : Bytes} {n : Nat} (hr : s.hostReceived seq = true)
    (hn : parseUint seq = some n) :
    ∀ it ∈ s.ring.items.take (s.ring.kept n), it ∈ s.written := by
  intro it hit
  obtain ⟨i, hi⟩ := mem_iff_getElem?.1 hit
  have hik : i < s.ring.kept n := by
    have := (List.getElem?_eq_some_iff.1 hi).1
    rw [length_take] at this
    omega
  rw [List.getElem?_take_of_lt hik] at hi
  have hcov := Ring.covered_of_lt_kept hik hi
  obtain ⟨gone, hsplit, -⟩ := h.split
  have hat : s.pushed[gone.length + i]? = some it := by
    rw [hsplit, List.getElem?_append_right (by omega), Nat.add_sub_cancel_left]
    exact hi
  have hlt := (List.getElem?_eq_some_iff.1 hat).1
  have hb := h.bound
  rw [Ring.covered, h.seqs _ _ hat, parseUint_formatUint (by omega)] at hcov
  simp only [decide_eq_true_eq] at hcov
  simp only [hostReceived, hn, any_eq_true, beq_iff_eq] at hr
  obtain ⟨w, hw, hwn⟩ := hr
  obtain ⟨m, hm⟩ := mem_iff_getElem?.1 (h.written_pushed w hw)
  have hmlt := (List.getElem?_eq_some_iff.1 hm).1
  rw [h.seqs _ _ hm, parseUint_formatUint (by omega), Option.some.injEq] at hwn
  have hm' : s.ring.items[m - gone.length]? = some w := by
    rw [hsplit, List.getElem?_append_right (by omega)] at hm
    exact hm
  exact h.closed i (m - gone.length) it w (by omega) hi hm' hw

lemma inv_ack {seq : Bytes} (h : Inv s) (hs : s.step (.ack seq) = some s') : Inv s' := by
  simp only [step] at hs
  split at hs
  · next hr =>
    simp only [Option.some.injEq] at hs
    subst hs
    cases hn : parseUint seq with
    | none =>
      simpa [Ring.ackThrough_of_none hn] using h
    | some n =>
      have hw := h.kept_written hr hn
      obtain ⟨gone, hsplit, hgone⟩ := h.split
      refine { h with seq_eq := ?_, split := ?_, acked_written := ?_, front := ?_, closed := ?_,
                      holding := ?_, counted := ?_ }
      · simpa using h.seq_eq
      · refine ⟨gone ++ s.ring.items.take (s.ring.kept n), ?_, ?_⟩
        · simp only [Ring.items_ackThrough hn]
          rw [append_assoc, take_append_drop]
          exact hsplit
        · intro it hit
          rcases mem_append.1 hit with hit | hit
          · rcases hgone it hit with hd | ha
            · exact Or.inl hd
            · exact Or.inr (mem_append_left _ ha)
          · exact Or.inr (mem_append_right _ hit)
      · intro it hit
        rcases mem_append.1 hit with hit | hit
        · exact h.acked_written it hit
        · exact hw it hit
      · simp only [Ring.items_ackThrough hn, Ring.sent_ackThrough hn]
        exact h.front.drop _
      · simp only [Ring.items_ackThrough hn]
        exact h.closed.drop _
      · intro it hit
        obtain ⟨hp, hbm⟩ := h.holding it hit
        refine ⟨hp, ?_⟩
        simp only [Ring.items_ackThrough hn]
        exact hbm.drop _
      · simpa using h.counted
  · simp at hs

lemma inv_step {a : Action} (h : Inv s) (ha : s.Aligned a) (hs : s.step a = some s') : Inv s' := by
  cases a with
  | push k d w m => exact inv_push h ha hs
  | next => exact inv_next h hs
  | write => exact inv_write h hs
  | fail => exact inv_fail h hs
  | advance => exact inv_advance h ha hs
  | rewind => exact inv_rewind h hs
  | ack seq => exact inv_ack h hs

/-- **No telemetry is lost silently while the send cursor stays aligned.**  In every
interleaving of pushes, sender steps, acknowledgements and rewinds in which each `Advance`
finds under the cursor an item that was written (or none), every pushed event has been
written, is still to be offered, or is counted as dropped, and no acknowledgement removed an
event that was never written. -/
theorem run_safe (capacity : Int) (as : List Action) (t : Link)
    (hal : Along step Aligned (init capacity) as)
    (hrun : run step (init capacity) as = some t) : Safe t :=
  (run_invariant (fun _ _ _ hI hp hs => inv_step hI hp hs) (inv_init capacity) hal hrun).safe

/-- A run in which an acknowledgement is folded in after the sender has advanced. -/
def alignedTrace : List Action :=
  [.push (ascii "a") [] [] [], .push (ascii "b") [] [] [], .next, .write, .advance,
    .ack (ascii "1"), .next, .write, .advance, .push (ascii "c") [] [] []]

theorem run_safe_alignedTrace :
    ∃ t, run step (init 2) alignedTrace = some t ∧ Along step Aligned (init 2) alignedTrace ∧
      Safe t := by
  have hal : Along step Aligned (init 2) alignedTrace := by decide
  cases hrun : run step (init 2) alignedTrace with
  | none => cases hrun
  | some t => exact ⟨t, rfl, hal, run_safe 2 alignedTrace t hal hrun⟩

/-- The acknowledgement of the first event lands between its write and the `Advance`, which
then steps over the second event; the acknowledgement of the third forgets both. -/
def skippedTrace : List Action :=
  [.push (ascii "a") [] [] [], .push (ascii "b") [] [] [], .next, .write, .ack (ascii "1"),
    .advance, .push (ascii "c") [] [] [], .next, .write, .ack (ascii "3")]

/-- An acknowledgement that lands between `Next` and `Advance` loses an event: the second
event is neither written, nor queued, nor counted as dropped, and an acknowledgement
removed it. -/
theorem skippedTrace_unsafe :
    ∃ t, run step (init 2) skippedTrace = some t ∧ ¬ Safe t ∧
      ∃ it ∈ t.acked, it ∈ t.pushed ∧ it ∉ t.written ∧ it ∉ t.ring.items ∧
        it ∉ t.droppedItems := by
  obtain ⟨t, hrun, it, hacked, hrest⟩ : ∃ t, run step (init 2) skippedTrace = some t ∧
      ∃ it ∈ t.acked, it ∈ t.pushed ∧ it ∉ t.written ∧ it ∉ t.ring.items ∧
        it ∉ t.droppedItems := by decide
  exact ⟨t, hrun, fun hsafe => hrest.2.1 (hsafe.acked_written it hacked), it, hacked, hrest⟩

end Link

end Observatory.Guest
