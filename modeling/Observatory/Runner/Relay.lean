/-
# The relay of a session stream

Frames of the guest go to the caller through a queue that is bounded in bytes: the pump that reads
the guest waits while it is full, the pump that writes to the caller while it is empty. A third
pump carries the caller's frames to the guest. `close` sets the flag of the queue under its lock and
wakes the waiters when it has let go of it, so other steps come in between.

The pumps that face the caller notice that it is gone and close the guest's connection. A guest
pump that reads it then ends; one that waits for room does not.
-/
import Observatory.Lib.Bytes
import Observatory.Lib.Machine

namespace Observatory.Runner

open Lib List

structure WireFrame where
  typ : UInt8
  payload : Bytes
deriving DecidableEq

/-- Guest to queue. -/
inductive GuestPump where
  | reading
  | pushing (f : WireFrame)
  | returned (refused : List WireFrame)
deriving DecidableEq

/-- Queue to caller. -/
inductive CallerPump where
  | popping
  | writing (f : WireFrame)
  /-- Back, from a queue that is closed and empty. -/
  | drained
  /-- Back, from a write that failed. -/
  | lost (f : WireFrame)
deriving DecidableEq

structure Relay where
  items : List WireFrame := []
  bytes : Int := 0
  maxBytes : Int
  closed : Bool := false
  guest : GuestPump := .reading
  caller : CallerPump := .popping
  /-- Whether the caller pump waits on `notEmpty`, and the guest pump on `notFull`. -/
  notEmpty : Bool := false
  notFull : Bool := false
  /-- Set before the guest's connection goes down, so a frame may still be read. -/
  closing : Bool := false
  err : Option Bytes := none
  /-- Calls of `close` that are still to set the flag, to wake `notEmpty` and to wake `notFull`. -/
  closes : Nat := 0
  notEmptyDue : Nat := 0
  notFullDue : Nat := 0
  /-- What was read from the guest, accepted by the queue and written to the caller. -/
  read : List WireFrame := []
  accepted : List WireFrame := []
  written : List WireFrame := []

namespace Relay

def newRelay (maxChunkBytes : Int) : Relay where
  maxBytes := (if maxChunkBytes ≤ 0 then 32 * 2 ^ 10 else maxChunkBytes) * 8

/-- The first failure on the side of the guest, but none that the relay brought about. -/
def record (r : Relay) (err : Bytes) : Relay :=
  if r.closing then r else { r with err := r.err.or (some err) }

/-- One passage of `push` through its loop. -/
def push (r : Relay) (f : WireFrame) : Relay :=
  if r.closed = false ∧ r.items ≠ [] ∧ r.maxBytes < r.bytes + f.payload.length then
    { r with notFull := true }
  else if r.closed then { r with guest := .returned [f], closes := r.closes + 1 }
  else
    { r with
      items := r.items ++ [f]
      bytes := r.bytes + f.payload.length
      guest := .reading
      notEmpty := false
      accepted := r.accepted ++ [f] }

def pop (r : Relay) : Relay :=
  match r.items with
  | [] =>
    if r.closed then { r with caller := .drained, closing := true } else { r with notEmpty := true }
  | f :: items =>
    { r with items, bytes := r.bytes - f.payload.length, caller := .writing f, notFull := false }

inductive Action where
  | readFrame (f : WireFrame)
  | readError (err : Bytes)
  /-- A pump takes the lock. -/
  | push
  | pop
  | writeFrame (ok : Bool)
  /-- The third pump ends, with an error if it is the guest's. -/
  | detach (err : Option Bytes)
  /-- `Close` is called from outside. -/
  | close
  | setClosed
  | wakeNotEmpty
  | wakeNotFull
deriving DecidableEq

def step (r : Relay) : Action → Option Relay
  | .readFrame f =>
    if r.guest = .reading then some { r with guest := .pushing f, read := r.read ++ [f] } else none
  | .readError err =>
    if r.guest = .reading then
      some { r.record err with guest := .returned [], closes := r.closes + 1 }
    else none
  | .push =>
    match r.guest, r.notFull with
    | .pushing f, false => some (r.push f)
    | _, _ => none
  | .pop => if r.caller = .popping ∧ r.notEmpty = false then some r.pop else none
  | .writeFrame ok =>
    match r.caller with
    | .writing f =>
      some (if ok then { r with caller := .popping, written := r.written ++ [f] }
        else { r with caller := .lost f, closing := true })
    | _ => none
  | .detach err => some { err.elim r r.record with closing := true }
  | .close => some { r with closing := true, closes := r.closes + 1 }
  | .setClosed =>
    if r.closes = 0 then none
    else some { r with closed := true, closes := r.closes - 1, notEmptyDue := r.notEmptyDue + 1 }
  | .wakeNotEmpty =>
    if r.notEmptyDue = 0 then none
    else some { r with
      notEmptyDue := r.notEmptyDue - 1, notFullDue := r.notFullDue + 1, notEmpty := false }
  | .wakeNotFull =>
    if r.notFullDue = 0 then none
    else some { r with notFullDue := r.notFullDue - 1, notFull := false }

/-! ## What holds in every state -/

def inGuestPump (r : Relay) : List WireFrame :=
  match r.guest with
  | .reading => []
  | .pushing f => [f]
  | .returned refused => refused

/-- Taken from the queue, and not written. -/
def inCallerPump (r : Relay) : List WireFrame :=
  match r.caller with
  | .writing f | .lost f => [f]
  | _ => []

structure Inv (r : Relay) : Prop where
  read : r.read = r.accepted ++ r.inGuestPump
  accepted : r.accepted = r.written ++ r.inCallerPump ++ r.items
  bytes : r.bytes = (r.items.map fun f => (f.payload.length : Int)).sum
  bound : r.items.length ≤ 1 ∨ r.bytes ≤ r.maxBytes
  notEmpty : r.notEmpty = true → r.items = [] ∧ (r.closed = true → 0 < r.notEmptyDue)
  notFull : r.notFull = true → r.items ≠ [] ∧ (r.closed = true → 0 < r.notEmptyDue + r.notFullDue)
  drained : r.caller = .drained → r.items = [] ∧ r.closed = true

variable {r r' : Relay}

lemma inv_newRelay (n : Int) : Inv (newRelay n) := by
  constructor <;> simp [newRelay, inGuestPump, inCallerPump]

lemma Inv.step (h : Inv r) {a : Action} (hstep : r.step a = some r') : Inv r' := by
  obtain ⟨hread, haccepted, hbytes, hbound, hempty, hfull, hdrained⟩ := h
  cases a with
  | readError err =>
    simp only [Relay.step] at hstep
    split_ifs at hstep
    cases hstep
    unfold record
    split_ifs <;> constructor <;> simp_all [inGuestPump, inCallerPump]
  | push =>
    simp only [Relay.step] at hstep
    split at hstep <;> cases hstep
    rw [Relay.push]
    split_ifs with hwait hclosed
    · constructor <;> simp_all [inGuestPump, inCallerPump]
    · constructor <;> simp_all [inGuestPump, inCallerPump]
    · constructor <;> simp_all [inGuestPump, inCallerPump]
      -- a frame goes in if there is room, or if the queue is empty
      by_cases hitems : r.items = []
      · exact .inl hitems
      · exact .inr (by simpa [hitems] using hwait)
  | pop =>
    simp only [Relay.step] at hstep
    split_ifs at hstep
    cases hstep
    rw [Relay.pop]
    split
    · split_ifs <;> constructor <;> simp_all [inGuestPump, inCallerPump]
    · constructor <;> simp_all [inGuestPump, inCallerPump]
      rcases hbound with rfl | hle
      · exact .inl (Nat.zero_le 1)
      · exact .inr (by omega)
  | writeFrame ok =>
    simp only [Relay.step] at hstep
    split at hstep <;> cases hstep
    split_ifs <;> constructor <;> simp_all [inGuestPump, inCallerPump]
  | detach err =>
    cases hstep
    cases err with
    | none => constructor <;> simp_all [inGuestPump, inCallerPump]
    | some err =>
      simp only [Option.elim, record]
      split_ifs <;> constructor <;> simp_all [inGuestPump, inCallerPump]
  | close =>
    cases hstep
    constructor <;> simp_all [inGuestPump, inCallerPump]
  | readFrame | setClosed | wakeNotEmpty | wakeNotFull =>
    simp only [Relay.step] at hstep
    split_ifs at hstep
    cases hstep
    constructor <;> simp_all [inGuestPump, inCallerPump]

lemma inv_run {n : Int} {as : List Action} (hrun : run step (newRelay n) as = some r) : Inv r :=
  run_preserves (fun _ _ _ h hstep => h.step hstep) (inv_newRelay n) hrun

/-- **The relay keeps the order and loses nothing.** In every state of every run: the caller was
written a prefix of what was read from the guest; the queue is within its bound or holds one frame;
and a caller pump that is back without a failed write has written all that was ever accepted. -/
theorem frames_in_order {n : Int} {as : List Action} (hrun : run step (newRelay n) as = some r) :
    r.written <+: r.read ∧
      (r.items.length ≤ 1 ∨ (r.items.map fun f => (f.payload.length : Int)).sum ≤ r.maxBytes) ∧
      (r.caller = .drained → r.written = r.accepted) := by
  have h := inv_run hrun
  refine ⟨?_, h.bytes ▸ h.bound, fun hd => ?_⟩
  · rw [h.read, h.accepted, append_assoc, append_assoc]
    exact prefix_append ..
  · simp [h.accepted, inCallerPump, hd, (h.drained hd).1]

/-- **A pump waits only while it has to.** The caller pump waits on an empty queue and the guest
pump on one that is not, so never both; and if the queue is closed, a wake-up is still to come. -/
theorem pumps_woken {n : Int} {as : List Action} (hrun : run step (newRelay n) as = some r) :
    (r.notEmpty = true → r.items = [] ∧ (r.closed = true → 0 < r.notEmptyDue)) ∧
      (r.notFull = true → r.items ≠ [] ∧
        (r.closed = true → 0 < r.notEmptyDue + r.notFullDue)) :=
  ⟨(inv_run hrun).notEmpty, (inv_run hrun).notFull⟩

/-- The guest pump waits for room, the caller is lost, and nobody is closing the queue. -/
structure Stranded (r : Relay) : Prop where
  lost : ∃ f, r.caller = .lost f
  pushing : ∃ f, r.guest = .pushing f
  notFull : r.notFull = true
  closes : r.closes = 0 ∧ r.notEmptyDue = 0 ∧ r.notFullDue = 0

lemma Stranded.step (h : Stranded r) {a : Action} (hclose : a ≠ .close)
    (hstep : r.step a = some r') : Stranded r' := by
  obtain ⟨⟨f, hf⟩, ⟨g, hg⟩, hfull, hcloses⟩ := h
  cases a with
  | detach err =>
    cases hstep
    cases err with
    | none => constructor <;> simp_all
    | some err =>
      simp only [Option.elim, record]
      split_ifs <;> constructor <;> simp_all
  | _ => simp_all [Relay.step]

/-- **A caller lost while the queue is full strands the relay.** Nobody takes frames any more and
nobody closes the queue: until `Close` is called from outside, the guest pump waits. -/
theorem lost_caller_strands (h : Stranded r) {as : List Action} (hclose : .close ∉ as)
    (hrun : run step r as = some r') : Stranded r' := by
  induction as generalizing r with
  | nil => exact Option.some.inj hrun ▸ h
  | cons a as ih =>
    obtain ⟨t, hstep, hrest⟩ := run_cons_eq_some.1 hrun
    rw [mem_cons, not_or] at hclose
    exact ih (h.step (Ne.symm hclose.1) hstep) hclose.2 hrest

/-- With a bound of 8 bytes, a second frame of 8 waits behind the first; the caller goes. -/
def fullThenLost : List Action :=
  let f : WireFrame := ⟨1, replicate 8 0⟩
  [.readFrame f, .push, .pop, .readFrame f, .push, .readFrame f, .push, .writeFrame false]

theorem frames_in_order_fullThenLost : ∃ r, run step (newRelay 1) fullThenLost = some r ∧
    r.written <+: r.read :=
  ⟨_, yields (by decide +kernel), (frames_in_order (yields _)).1⟩

theorem pumps_woken_fullThenLost : ∃ r, run step (newRelay 1) fullThenLost = some r ∧
    r.items ≠ [] :=
  ⟨_, yields (by decide +kernel), ((pumps_woken (yields _)).2 (by decide +kernel)).1⟩

theorem lost_caller_strands_fullThenLost : ∃ r, run step (newRelay 1) fullThenLost = some r ∧
    ∀ r', run step r [.detach none] = some r' → Stranded r' := by
  refine ⟨_, yields (by decide +kernel), fun r' => lost_caller_strands ?_ (by decide)⟩
  exact ⟨⟨_, rfl⟩, ⟨_, rfl⟩, rfl, rfl, rfl, rfl⟩

end Relay

end Observatory.Runner
