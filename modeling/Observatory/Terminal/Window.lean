/-
# The in-flight window of a browser

Output of a shell goes to a browser through a window: the relay claims room for a piece before it
writes it, and the browser gives room back by acknowledging how far it has read. The window
counts bytes from the offset the attachment resumed at, while the browser acknowledges absolute
offsets of the stream.

The two agree as long as the stream has no holes. Once the guest has dropped a range, the
browser's offsets run ahead of the count, and an acknowledgement of what was really read frees
room for bytes that were not.
-/
import Observatory.Lib.Bytes
import Observatory.Lib.Machine

namespace Observatory.Terminal

open Lib List

/-! ## The window -/

def u64 (n : Nat) : Nat := n % 2 ^ 64

/-- An unsigned 64-bit integer read as a signed one. -/
def asInt64 (n : Nat) : Int := if n < 2 ^ 63 then n else (n : Int) - 2 ^ 64

structure Window where
  max : Int
  sent : Nat
  acked : Nat

namespace Window

def newWindow (max : Int) (startOffset : Nat) : Window :=
  ⟨if max ≤ 0 then 1 else max, startOffset, startOffset⟩

def inFlight (w : Window) : Int := asInt64 (u64 (w.sent + 2 ^ 64 - w.acked))

/-- Claim room for `n` bytes; none when the window has it not. -/
def reserve (w : Window) (n : Nat) : Option Window :=
  if n = 0 then some w
  else if w.max < w.inFlight + n then none
  else some { w with sent := u64 (w.sent + n) }

/-- Record how far the browser has read: nothing it said before, and nothing past what was
claimed. -/
def ack (w : Window) (offset : Nat) : Window :=
  if offset ≤ w.acked then w else { w with acked := if w.sent < offset then w.sent else offset }

end Window

/-! ## The relay and its browser -/

/-- What the browser is sent. -/
inductive Msg where
  | output (offset : Nat) (bytes : Bytes)
  | dropped (fromOffset toOffset : Nat)

def Msg.size : Msg → Nat
  | output _ bytes => bytes.length
  | dropped _ _ => 0

/-- One relay between a session and a browser. -/
structure Relay where
  window : Window
  /-- The output of the guest that is being handed on, and where it starts. -/
  offset : Nat
  rest : Bytes
  /-- The room claimed for the next piece; none while it is zero. -/
  reserved : Nat
  /-- The messages on their way to the browser, or in it and not consumed, oldest first. -/
  queue : List Msg
  /-- The offset up to which the browser has consumed the stream. -/
  consumed : Nat
  /-- The offset past the last output that the guest sent. -/
  head : Nat

namespace Relay

def attach (maxInflight : Int) (resumeOffset : Nat) : Relay where
  window := Window.newWindow maxInflight resumeOffset
  offset := resumeOffset
  rest := []
  reserved := 0
  queue := []
  consumed := resumeOffset
  head := resumeOffset

/-- The output bytes sent to the browser and not consumed by it. -/
def backlog (s : Relay) : Nat := (s.queue.map Msg.size).sum

inductive Action where
  /-- The guest sends output that starts at an offset. -/
  | guestOutput (offset : Nat) (bytes : Bytes)
  /-- The guest reports a range it dropped. -/
  | guestDropped (fromOffset toOffset : Nat)
  /-- The relay claims room for the next piece. -/
  | reserve
  /-- It writes the piece. -/
  | write
  /-- The browser consumes some bytes of the message at hand, or a notice. -/
  | consume (n : Nat)
  | ack (offset : Nat)

/-- The size of the next piece: the rest of the frame, as far as it fits the window at all. -/
def pieceSize (s : Relay) : Nat := min s.rest.length s.window.max.toNat

/-- The browser takes `n` bytes off the oldest message, all of it or a part. -/
def consumeFrom (s : Relay) (n : Nat) : Option Relay :=
  match s.queue with
  | [] => none
  | .dropped _ toOffset :: queue =>
    if n = 0 then some { s with queue, consumed := toOffset } else none
  | .output offset bytes :: queue =>
    if n = 0 ∨ bytes.length < n then none
    else if n = bytes.length then some { s with queue, consumed := u64 (offset + n) }
    else some { s with queue := .output (u64 (offset + n)) (bytes.drop n) :: queue
                       consumed := u64 (offset + n) }

/-- One step. The relay takes the next frame of the guest when it is done with the last, and waits
for an acknowledgement when the window has no room. The browser acknowledges only what it has
consumed. -/
def step (s : Relay) : Action → Option Relay
  | .guestOutput offset bytes =>
    if s.rest = [] then some { s with offset, rest := bytes, head := u64 (offset + bytes.length) }
    else none
  | .guestDropped fromOffset toOffset =>
    if s.rest = [] then some { s with queue := s.queue ++ [.dropped fromOffset toOffset] } else none
  | .reserve =>
    if s.rest ≠ [] ∧ s.reserved = 0 then
      (s.window.reserve s.pieceSize).map fun window => { s with window, reserved := s.pieceSize }
    else none
  | .write =>
    if s.reserved = 0 then none
    else some { s with
      queue := s.queue ++ [.output s.offset (s.rest.take s.reserved)]
      offset := u64 (s.offset + s.reserved)
      rest := s.rest.drop s.reserved
      reserved := 0 }
  | .consume n => s.consumeFrom n
  | .ack offset =>
    if offset ≤ s.consumed then some { s with window := s.window.ack offset } else none

/-- The guest dropped nothing: its output starts where the last ended, and stays in the 64 bits. -/
def gapless (s : Relay) : Action → Bool
  | .guestOutput offset bytes => offset = s.head && decide (offset + bytes.length < 2 ^ 64)
  | .guestDropped _ _ => false
  | _ => true

abbrev Gapless (s : Relay) (a : Action) : Prop := s.gapless a = true

/-! ## A stream without holes -/

/-- The messages carry the stream from one offset to another, piece after piece. -/
def Covers : Nat → List Msg → Nat → Prop
  | lo, [], hi => lo = hi
  | lo, .output offset bytes :: queue, hi => offset = lo ∧ Covers (lo + bytes.length) queue hi
  | _, .dropped _ _ :: _, _ => False

lemma Covers.size {queue : List Msg} {lo hi : Nat} (h : Covers lo queue hi) :
    lo + (queue.map Msg.size).sum = hi := by
  induction queue generalizing lo with
  | nil => exact h
  | cons msg queue ih =>
    cases msg with
    | dropped => exact h.elim
    | output offset bytes =>
      have hrest := ih h.2
      rw [map_cons, sum_cons, Msg.size]
      omega

lemma Covers.append {queue : List Msg} {lo hi : Nat} (h : Covers lo queue hi) (bytes : Bytes) :
    Covers lo (queue ++ [.output hi bytes]) (hi + bytes.length) := by
  induction queue generalizing lo with
  | nil =>
    obtain rfl : lo = hi := h
    exact ⟨rfl, rfl⟩
  | cons msg queue ih =>
    cases msg with
    | dropped => exact h.elim
    | output offset bytes' => exact ⟨h.1, ih h.2⟩

/-- The count of the window and the offsets of the stream are in step. -/
structure InStep (max : Int) (s : Relay) : Prop where
  max_eq : s.window.max = max
  max_lt : s.window.max < 2 ^ 63
  head_lt : s.head < 2 ^ 64
  rest : s.offset + s.rest.length = s.head
  reserved_le : s.reserved ≤ s.rest.length
  sent : s.window.sent = s.offset + s.reserved
  queue : Covers s.consumed s.queue s.offset
  acked_le : s.window.acked ≤ s.consumed
  bounded : (s.window.sent : Int) - s.window.acked ≤ s.window.max

namespace InStep

variable {max : Int} {s s' : Relay}

lemma consumed_le (h : InStep max s) : s.consumed ≤ s.offset := by
  have hsize := h.queue.size
  omega

/-- What is on its way to the browser was claimed, and is not acknowledged. -/
lemma backlog_le (h : InStep max s) : (s.backlog : Int) ≤ max := by
  have hmax := h.max_eq
  have hsize := h.queue.size
  have hsent := h.sent
  have hacked := h.acked_le
  have hbounded := h.bounded
  rw [backlog]
  omega

lemma inFlight_eq (h : InStep max s) :
    s.window.inFlight = (s.window.sent : Int) - s.window.acked := by
  have hle := h.consumed_le
  have hacked := h.acked_le
  have hsent := h.sent
  have hrest := h.rest
  have hreserved := h.reserved_le
  have hlt := h.head_lt
  have hbounded := h.bounded
  have hmax := h.max_lt
  have hmod : u64 (s.window.sent + 2 ^ 64 - s.window.acked) =
      s.window.sent - s.window.acked := by
    rw [u64]
    omega
  rw [Window.inFlight, hmod, asInt64, if_pos (by omega)]
  omega

lemma guestOutput (h : InStep max s) {offset : Nat} {bytes : Bytes}
    (hgap : s.Gapless (.guestOutput offset bytes))
    (hstep : s.step (.guestOutput offset bytes) = some s') : InStep max s' := by
  simp only [Gapless, gapless, Bool.and_eq_true, decide_eq_true_eq] at hgap
  obtain ⟨rfl, hlt⟩ := hgap
  simp only [step] at hstep
  split_ifs at hstep with hrest
  cases hstep
  have hoffset : s.offset = s.head := by simpa [hrest] using h.rest
  have hreserved : s.reserved = 0 := by simpa [hrest] using h.reserved_le
  have hmod : u64 (s.head + bytes.length) = s.head + bytes.length := Nat.mod_eq_of_lt hlt
  exact {
    max_eq := h.max_eq
    max_lt := h.max_lt
    head_lt := by simpa [hmod] using hlt
    rest := hmod.symm
    reserved_le := by simp [hreserved]
    sent := by simpa [hoffset] using h.sent
    queue := hoffset ▸ h.queue
    acked_le := h.acked_le
    bounded := h.bounded }

lemma reserve (h : InStep max s) (hstep : s.step .reserve = some s') : InStep max s' := by
  simp only [step] at hstep
  split_ifs at hstep with hready
  obtain ⟨w, hw, rfl⟩ := Option.map_eq_some_iff.1 hstep
  have hsent := h.sent
  have hrest := h.rest
  have hlt := h.head_lt
  have hle : s.pieceSize ≤ s.rest.length := Nat.min_le_left _ _
  have hmod : u64 (s.window.sent + s.pieceSize) = s.window.sent + s.pieceSize := by
    refine Nat.mod_eq_of_lt ?_
    omega
  simp only [Window.reserve] at hw
  split_ifs at hw with hzero hfull
  · cases hw
    exact { h with reserved_le := hle, sent := by rw [hsent, hready.2, hzero] }
  · cases hw
    rw [h.inFlight_eq] at hfull
    exact { h with
      reserved_le := hle
      sent := by rw [hmod, hsent, hready.2, Nat.add_zero]
      bounded := by
        show ((u64 (s.window.sent + s.pieceSize) : Nat) : Int) - s.window.acked ≤ s.window.max
        rw [hmod]
        push_cast
        omega }

lemma write (h : InStep max s) (hstep : s.step .write = some s') : InStep max s' := by
  simp only [step] at hstep
  split_ifs at hstep with hreserved
  cases hstep
  have hrest := h.rest
  have hle := h.reserved_le
  have hlt := h.head_lt
  have hmod : u64 (s.offset + s.reserved) = s.offset + s.reserved := by
    refine Nat.mod_eq_of_lt ?_
    omega
  have htake : (s.rest.take s.reserved).length = s.reserved := by
    rw [length_take]
    omega
  have hcovers := h.queue.append (s.rest.take s.reserved)
  rw [htake] at hcovers
  exact { h with
    rest := by
      show u64 (s.offset + s.reserved) + (s.rest.drop s.reserved).length = s.head
      rw [hmod, length_drop]
      omega
    reserved_le := Nat.zero_le _
    sent := by
      show s.window.sent = u64 (s.offset + s.reserved) + 0
      rw [hmod, h.sent]
      rfl
    queue := by
      show Covers s.consumed _ (u64 (s.offset + s.reserved))
      rwa [hmod] }

/-- The browser moves on to the next offset of the stream. -/
lemma consume (h : InStep max s) {n : Nat} (hstep : s.step (.consume n) = some s') : InStep max s' := by
  have hcovers := h.queue
  have hacked := h.acked_le
  have hle := h.consumed_le
  have hrest := h.rest
  have hlt := h.head_lt
  simp only [step, consumeFrom] at hstep
  cases hqueue : s.queue with
  | nil => simp [hqueue] at hstep
  | cons msg queue =>
    rw [hqueue] at hcovers
    cases msg with
    | dropped => exact hcovers.elim
    | output offset bytes =>
      obtain ⟨rfl, hcovers⟩ := hcovers
      have hsize := hcovers.size
      simp only [hqueue] at hstep
      split_ifs at hstep with hnone hall
      · have hmod : u64 (s.consumed + n) = s.consumed + n := by
          refine Nat.mod_eq_of_lt ?_
          omega
        cases hstep
        exact { h with
          queue := by
            show Covers (u64 (s.consumed + n)) queue s.offset
            rwa [hmod, hall]
          acked_le := by
            show s.window.acked ≤ u64 (s.consumed + n)
            omega }
      · have hlength : n ≤ bytes.length := by omega
        have hmod : u64 (s.consumed + n) = s.consumed + n := by
          refine Nat.mod_eq_of_lt ?_
          omega
        cases hstep
        refine { h with queue := ⟨rfl, ?_⟩, acked_le := ?_ }
        · have heq : u64 (s.consumed + n) + (bytes.drop n).length = s.consumed + bytes.length := by
            rw [hmod, length_drop]
            omega
          rwa [heq]
        · show s.window.acked ≤ u64 (s.consumed + n)
          omega

lemma ack (h : InStep max s) {offset : Nat} (hstep : s.step (.ack offset) = some s') : InStep max s' := by
  simp only [step] at hstep
  split_ifs at hstep with hread
  cases hstep
  have hle := h.consumed_le
  have hsent := h.sent
  have hbounded := h.bounded
  by_cases hold : offset ≤ s.window.acked
  · simpa [Window.ack, hold] using h
  · have hack : s.window.ack offset = { s.window with acked := offset } := by
      simp [Window.ack, hold, show ¬ s.window.sent < offset by omega]
    rw [hack]
    exact { h with
      acked_le := hread
      bounded := by
        show (s.window.sent : Int) - offset ≤ s.window.max
        omega }

lemma step (h : InStep max s) {a : Action} (hgap : s.Gapless a) (hstep : s.step a = some s') :
    InStep max s' := by
  cases a with
  | guestOutput => exact h.guestOutput hgap hstep
  | guestDropped => exact nomatch hgap
  | reserve => exact h.reserve hstep
  | write => exact h.write hstep
  | consume => exact h.consume hstep
  | ack => exact h.ack hstep

end InStep

/-- **The backlog of a browser is bounded.**  While the guest drops nothing, whatever the order of
frames, writes, reads and acknowledgements: as long as the browser acknowledges only what it has
consumed, the output it was sent and has not consumed is at most the window. -/
theorem backlog_le_maxInflight {maxInflight : Int} {resumeOffset : Nat}
    (hmax : maxInflight < 2 ^ 63) (hresume : resumeOffset < 2 ^ 64) {as : List Action} {s : Relay}
    (hgapless : Along step Gapless (attach maxInflight resumeOffset) as)
    (hrun : run step (attach maxInflight resumeOffset) as = some s) :
    (s.backlog : Int) ≤ (Window.newWindow maxInflight resumeOffset).max := by
  have hinit : InStep (Window.newWindow maxInflight resumeOffset).max
      (attach maxInflight resumeOffset) := by
    have hmax' : (Window.newWindow maxInflight resumeOffset).max < 2 ^ 63 := by
      show (if maxInflight ≤ 0 then 1 else maxInflight) < 2 ^ 63
      split_ifs <;> omega
    have hpos : 0 ≤ (Window.newWindow maxInflight resumeOffset).max := by
      show 0 ≤ (if maxInflight ≤ 0 then 1 else maxInflight)
      split_ifs <;> omega
    exact ⟨rfl, hmax', hresume, rfl, Nat.zero_le _, rfl, rfl, Nat.le_refl _, by
      simpa [attach, Window.newWindow] using hpos⟩
  exact (run_invariant (fun s a s' h hgap hstep => h.step hgap hstep) hinit hgapless hrun).backlog_le

/-! ### Two streams -/

/-- Six bytes for a window of four: the second piece waits for an acknowledgement. -/
def demoGapless : List Action :=
  [.guestOutput 10 [1, 2, 3, 4, 5, 6], .reserve, .write, .consume 3, .ack 13, .consume 1, .reserve,
    .write]

theorem backlog_le_maxInflight_demo : ∃ s,
    run step (attach 4 10) demoGapless = some s ∧ s.backlog = 2 ∧
      (s.backlog : Int) ≤ (Window.newWindow 4 10).max := by
  exact ⟨_, yields (by decide), by decide,
    backlog_le_maxInflight (by decide) (by decide) (by decide) (yields _)⟩

/-- The guest drops the range from 2 to 100. The browser reads on, and says so; the window takes
its offset for all that was sent. -/
def demoDropped : List Action :=
  [.guestOutput 0 [1, 2], .reserve, .write, .guestDropped 2 100, .guestOutput 100 [3, 4], .reserve,
    .write, .consume 2, .consume 0, .consume 1, .ack 101, .guestOutput 102 [5, 6, 7, 8], .reserve,
    .write]

/-- A browser that acknowledges only what it has consumed is sent one byte more than the window
holds. -/
theorem backlog_exceeds_after_drop : ∃ s,
    run step (attach 4 0) demoDropped = some s ∧ (Window.newWindow 4 0).max < s.backlog := by
  decide

end Relay

end Observatory.Terminal
