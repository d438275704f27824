/-
# The replay ring and its 64-bit offsets

The ring of `Guest/Pty.lean` with the offsets the source counts in, and with what `Append` reports.
As long as the stream has fewer than `2 ^ 64` bytes the two rings agree, so the ring is a function
of the stream: it holds its end, its offsets are those of the stream, an append reports the range
that left the window, and a read gets what is left of the range it asks for.
-/
import Observatory.Guest.Pty

namespace Observatory.Guest.Replay

open Lib List

/-- A span of offsets, the end excluded. (`start` and `stop` are From and To.) -/
structure Range where
  start : UInt64
  stop : UInt64

structure Ring extends Circular UInt8 where
  head : UInt64

namespace Ring

def newRing (size : Int) : Ring := ⟨(Pty.Ring.newRing size).toCircular, 0⟩

/-- The offset of the oldest byte held. -/
def tail (r : Ring) : UInt64 := r.head - UInt64.ofNat r.count

/-- The ring after `p`, and the range that is gone. -/
def append (r : Ring) (p : Bytes) : Ring × Option Range :=
  if p = [] then (r, none)
  else
    let r' : Ring := ⟨r.toCircular.append p, r.head + UInt64.ofNat p.length⟩
    (r', if r.tail < r'.tail then some ⟨r.tail, r'.tail⟩ else none)

/-- Every byte held from an offset on, the offset to go on from, and whether bytes in between were
dropped. -/
def readFrom (r : Ring) (offset : UInt64) : Bytes × UInt64 × Bool :=
  let gap := decide (offset < r.tail)
  let offset := if gap then r.tail else offset
  if r.head ≤ offset then ([], r.head, gap)
  else (r.toCircular.readFrom (offset - r.tail).toNat, r.head, gap)

/-- The ring after a stream that arrives in chunks. -/
def appendAll (r : Ring) (chunks : List Bytes) : Ring :=
  chunks.foldl (fun r p => (r.append p).1) r

/-! ## The stream behind the ring -/

variable {r : Ring} {stream : Bytes} {cap : Nat}

/-- The ring is what a ring of `cap` bytes has become after the stream. -/
structure Holds (r : Ring) (cap : Nat) (stream : Bytes) : Prop where
  size : r.size = cap
  head : r.head.toNat = stream.length
  count : r.count = min stream.length cap
  contents : r.contents = stream.drop (stream.length - cap)

lemma holds_newRing (size : Int) : (newRing size).Holds (max size 1).toNat [] where
  size := by
    simp only [Circular.size, newRing, Pty.Ring.newRing, length_replicate]
    split_ifs <;> omega
  head := rfl
  count := (Nat.zero_min _).symm
  contents := drop_nil.symm

lemma toNat_ofNat {n : Nat} (hn : n < 2 ^ 64) : (UInt64.ofNat n).toNat = n :=
  UInt64.toNat_ofNat_of_lt' hn

/-- Offsets do not wrap around. -/
lemma Holds.toNat_tail (h : r.Holds cap stream) : r.tail.toNat = stream.length - cap := by
  have hhead := h.head
  have hcount := h.count
  have hlt := r.head.toNat_lt
  have hof : (UInt64.ofNat r.count).toNat = r.count := toNat_ofNat (by omega)
  rw [tail, UInt64.toNat_sub_of_le, hof]
  · omega
  · rw [UInt64.le_iff_toNat_le, hof]
    omega

lemma Holds.append (h : r.Holds cap stream) {p : Bytes}
    (hbound : (stream ++ p).length < 2 ^ 64) : (r.append p).1.Holds cap (stream ++ p) := by
  rw [Ring.append]
  split_ifs with hp
  · rwa [hp, append_nil]
  have hsize := h.size
  have hcount := h.count
  have hexcess : r.excess p = r.count + p.length - cap := by rw [Circular.excess, hsize]
  rw [length_append] at hbound
  refine ⟨(Circular.size_append _ _).trans hsize, ?_, ?_, ?_⟩
  · rw [UInt64.toNat_add, toNat_ofNat (by omega), h.head, Nat.mod_eq_of_lt hbound,
      length_append]
  · show (r.toCircular.append p).count = _
    rw [Circular.count_append, hexcess, length_append]
    omega
  · show (r.toCircular.append p).contents = _
    rw [Circular.contents_append, h.contents, hexcess, length_append,
      ← drop_append_of_le_length (Nat.sub_le _ _), drop_drop]
    congr 1
    omega

lemma Holds.appendAll {chunks : List Bytes} (h : r.Holds cap stream)
    (hbound : (stream ++ chunks.flatten).length < 2 ^ 64) :
    (r.appendAll chunks).Holds cap (stream ++ chunks.flatten) := by
  induction chunks generalizing r stream with
  | nil =>
    rw [flatten_nil, append_nil]
    exact h
  | cons p chunks ih =>
    rw [flatten_cons, ← append_assoc] at hbound ⊢
    refine ih (h.append ?_) hbound
    rw [length_append] at hbound
    omega

lemma Holds.append_report (h : r.Holds cap stream) {p : Bytes}
    (hbound : (stream ++ p).length < 2 ^ 64) :
    (r.append p).2.map (fun d => (d.start.toNat, d.stop.toNat)) =
      if stream.length - cap < (stream ++ p).length - cap then
        some (stream.length - cap, (stream ++ p).length - cap) else none := by
  have hafter := (h.append hbound).toNat_tail
  have hbefore := h.toNat_tail
  by_cases hp : p = []
  · rw [Ring.append, if_pos hp, hp, append_nil, if_neg (Nat.lt_irrefl _)]
    rfl
  rw [Ring.append, if_neg hp] at hafter ⊢
  dsimp only at hafter ⊢
  by_cases hmoved : stream.length - cap < (stream ++ p).length - cap
  · rw [if_pos hmoved, if_pos (by rwa [UInt64.lt_iff_toNat_lt, hbefore, hafter]),
      Option.map_some, hbefore, hafter]
  · rw [if_neg hmoved, if_neg (by rwa [UInt64.lt_iff_toNat_lt, hbefore, hafter])]
    rfl

lemma Holds.readFrom (h : r.Holds cap stream) (offset : UInt64) :
    r.readFrom offset = (stream.drop (max offset.toNat (stream.length - cap)), r.head,
      decide (offset.toNat < stream.length - cap)) := by
  have htail := h.toNat_tail
  have hhead := h.head
  have hgap : decide (offset < r.tail) = decide (offset.toNat < stream.length - cap) := by
    rw [decide_eq_decide, UInt64.lt_iff_toNat_lt, htail]
  -- where the read begins
  have hoff : (if decide (offset < r.tail) = true then r.tail else offset).toNat =
      max offset.toNat (stream.length - cap) := by
    split_ifs with hlost
    · rw [hgap, decide_eq_true_eq] at hlost
      omega
    · rw [hgap, decide_eq_true_eq] at hlost
      omega
  rw [Ring.readFrom]
  generalize (if decide (offset < r.tail) = true then r.tail else offset) = begins at hoff
  rw [hgap, ← hoff]
  have hfrom : r.tail.toNat ≤ begins.toNat := by omega
  split_ifs with hbehind
  · rw [UInt64.le_iff_toNat_le, hhead] at hbehind
    rw [drop_of_length_le hbehind]
  · rw [UInt64.le_iff_toNat_le, hhead] at hbehind
    have hcount := h.count
    rw [UInt64.toNat_sub_of_le _ _ (UInt64.le_iff_toNat_le.2 hfrom),
      Circular.readFrom_eq _ (by omega), h.contents, drop_drop, htail]
    congr 2
    omega

/-- **The ring is the end of the stream.**  For every size and every sequence of chunks with fewer
than `2 ^ 64` bytes in all, the ring holds the last `min (total, size)` bytes with their offsets;
one more append reports the range of offsets that leaves the window; and a read gets the stream
from the offset or from the tail, whichever is later, with a gap exactly when the offset lies before
the tail. -/
theorem replay_ring_is_suffix (size : Int) (chunks : List Bytes)
    (hbound : chunks.flatten.length < 2 ^ 64) :
    let cap := (max size 1).toNat
    let stream := chunks.flatten
    let r := (newRing size).appendAll chunks
    r.contents = stream.drop (stream.length - cap) ∧
    r.contents.length = min stream.length cap ∧
    r.head.toNat = stream.length ∧ r.tail.toNat = stream.length - min stream.length cap ∧
    (∀ p : Bytes, (stream ++ p).length < 2 ^ 64 →
      (r.append p).2.map (fun d => (d.start.toNat, d.stop.toNat)) =
        if stream.length - cap < (stream ++ p).length - cap then
          some (stream.length - cap, (stream ++ p).length - cap) else none) ∧
    ∀ offset : UInt64, r.readFrom offset = (stream.drop (max offset.toNat r.tail.toNat), r.head,
      decide (offset.toNat < r.tail.toNat)) := by
  intro cap stream r
  have h : r.Holds cap stream := (holds_newRing size).appendAll hbound
  refine ⟨h.contents, ?_, h.head, ?_, fun p hp => h.append_report hp, fun offset => ?_⟩
  · rw [Circular.length_contents, h.count]
  · rw [h.toNat_tail]
    omega
  · rw [h.readFrom, h.toNat_tail]

theorem replay_ring_is_suffix_wrapped :
    ((newRing 3).appendAll [[1, 2], [3, 4]]).contents = [2, 3, 4] :=
  (replay_ring_is_suffix 3 [[1, 2], [3, 4]] (by decide)).1

end Ring

end Observatory.Guest.Replay
