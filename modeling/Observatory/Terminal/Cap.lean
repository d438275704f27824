/-
# The cap on terminal sessions

The host keeps a record of every terminal session it opened; the guest keeps the PTYs. A create
counts the open records of its VM, is refused when there are as many as the cap allows, asks the
guest for a PTY, and records the session when the guest has answered. A close asks the guest, and
marks the record closed when the guest has answered.

Three things go wrong.

* Two creates count before either records, and both are let in.
* A record is only closed by a close, so a shell that exits leaves its session open.
* The guest of a later boot does not know the sessions of an earlier one and refuses to close them,
  so their records stay open for as long as the host runs.

`cap_exact` says that these are all.
-/
import Observatory.Lib.Machine
import Mathlib.Data.List.Nodup
import Mathlib.Data.List.Perm.Subperm
import Mathlib.Tactic.Linarith

namespace Observatory.Terminal.Cap

open Lib List

/-- A session of the guest. -/
structure Pty where
  id : Nat
  /-- Its shell runs. -/
  live : Bool
deriving DecidableEq

/-- The host's record of a session. -/
structure Session where
  id : Nat
  isOpen : Bool
deriving DecidableEq

def Session.markClosed (id : Nat) (x : Session) : Session :=
  if x.id = id then { x with isOpen := false } else x

lemma Session.id_markClosed (id : Nat) (x : Session) : (x.markClosed id).id = x.id := by
  rw [markClosed]
  split_ifs <;> rfl

/-- A create or a close that has asked the guest. -/
structure Asked where
  id : Nat
  /-- The guest did what it was asked. -/
  answered : Bool
deriving DecidableEq

/-- One VM, as the host and its guest see its terminals. -/
structure VM where
  maxTerminalSessions : Int
  nextID : Nat
  /-- The sessions of the guest of the current boot. -/
  guest : List Pty
  sessions : List Session
  creating : List Asked
  closing : List Asked
  /-- For each create that was refused for the cap, how many PTYs were live then. -/
  refusals : List Nat
deriving DecidableEq

namespace VM

def start (maxTerminalSessions : Int) : VM := ⟨maxTerminalSessions, 0, [], [], [], [], []⟩

def openIDs (s : VM) : List Nat := (s.sessions.filter Session.isOpen).map Session.id

def liveIDs (guest : List Pty) : List Nat := (guest.filter Pty.live).map Pty.id

def answer (calls : List Asked) (id : Nat) : List Asked :=
  calls.erase ⟨id, false⟩ ++ [⟨id, true⟩]

inductive Action where
  | create
  | guestCreates (id : Nat)
  /-- The guest refuses, or its answer is lost. -/
  | createFails (id : Nat) (answered : Bool)
  | recordOpen (id : Nat)
  | close (id : Nat)
  | guestCloses (id : Nat)
  /-- The guest does not know the session, or its answer is lost. -/
  | closeFails (id : Nat) (answered : Bool)
  | recordClosed (id : Nat)
  | exit (id : Nat)
  | reboot

def step (s : VM) : Action → Option VM
  | .create =>
    if 0 < s.maxTerminalSessions ∧ s.maxTerminalSessions ≤ s.openIDs.length then
      some { s with refusals := s.refusals ++ [(liveIDs s.guest).length] }
    else
      some { s with nextID := s.nextID + 1, creating := s.creating ++ [⟨s.nextID, false⟩] }
  | .guestCreates id =>
    if ⟨id, false⟩ ∈ s.creating ∧ s.guest.all fun p => p.id ≠ id then
      some { s with guest := s.guest ++ [⟨id, true⟩], creating := answer s.creating id }
    else none
  | .createFails id answered =>
    if ⟨id, answered⟩ ∈ s.creating then
      some { s with creating := s.creating.erase ⟨id, answered⟩ }
    else none
  | .recordOpen id =>
    if ⟨id, true⟩ ∈ s.creating then
      some { s with
        sessions := s.sessions ++ [⟨id, true⟩]
        creating := s.creating.erase ⟨id, true⟩ }
    else none
  | .close id =>
    -- an unknown or closed session is closed already
    if id ∈ s.openIDs then some { s with closing := s.closing ++ [⟨id, false⟩] } else some s
  | .guestCloses id =>
    if ⟨id, false⟩ ∈ s.closing ∧ s.guest.any fun p => p.id = id then
      some { s with
        guest := s.guest.filter fun p => p.id ≠ id
        closing := answer s.closing id }
    else none
  | .closeFails id answered =>
    if ⟨id, answered⟩ ∈ s.closing then
      some { s with closing := s.closing.erase ⟨id, answered⟩ }
    else none
  | .recordClosed id =>
    if ⟨id, true⟩ ∈ s.closing then
      some { s with
        sessions := s.sessions.map (Session.markClosed id)
        closing := s.closing.erase ⟨id, true⟩ }
    else none
  | .exit id =>
    some { s with guest := s.guest.map fun p => if p.id = id then { p with live := false } else p }
  | .reboot => some { s with guest := [] }

/-- A create counts when no other call is under way, no shell of a session that is open or being
opened ends by itself or with the VM, and the answer to a close arrives. -/
def orderly (s : VM) : Action → Bool
  | .create => s.creating = [] && s.closing = []
  | .closeFails _ answered => !answered
  | .exit id => id ∉ s.openIDs && id ∉ s.creating.map Asked.id
  | .reboot => s.openIDs = [] && s.creating = []
  | _ => true

abbrev Orderly (s : VM) (a : Action) : Prop := s.orderly a = true

/-! ## What holds in orderly runs -/

structure Inv (s : VM) : Prop where
  budget : (s.openIDs.length + s.creating.length : Int) ≤ s.maxTerminalSessions
  single : s.creating.length ≤ 1
  distinct : (s.sessions.map Session.id).Nodup
  recorded_lt : ∀ x ∈ s.sessions, x.id < s.nextID
  creating_fresh : ∀ c ∈ s.creating, c.id < s.nextID ∧ c.id ∉ s.sessions.map Session.id
  made : ∀ c ∈ s.creating, c.answered = true → c.id ∈ liveIDs s.guest
  served : ∀ id ∈ s.openIDs, id ∈ liveIDs s.guest ∨ ⟨id, true⟩ ∈ s.closing
  closing_known : ∀ c ∈ s.closing, c.id ∈ s.sessions.map Session.id
  refused : ∀ live ∈ s.refusals, s.maxTerminalSessions ≤ live

variable {calls : List Asked} {id : Nat} {s : VM}

lemma mem_openIDs :
    id ∈ s.openIDs ↔ ∃ x ∈ s.sessions, x.isOpen = true ∧ x.id = id := by
  simp [openIDs, and_assoc]

lemma mem_liveIDs {guest : List Pty} :
    id ∈ liveIDs guest ↔ ∃ p ∈ guest, p.live = true ∧ p.id = id := by
  simp [liveIDs, and_assoc]

lemma openIDs_subset (s : VM) : s.openIDs ⊆ s.sessions.map Session.id := fun id hid => by
  obtain ⟨x, hx, -, rfl⟩ := mem_openIDs.1 hid
  exact mem_map_of_mem hx

lemma openIDs_markClosed (s : VM) (id : Nat) :
    openIDs { s with sessions := s.sessions.map (Session.markClosed id) }
      = s.openIDs.filter (· ≠ id) := by
  show ((s.sessions.map (Session.markClosed id)).filter Session.isOpen).map Session.id
    = ((s.sessions.filter Session.isOpen).map Session.id).filter (· ≠ id)
  induction s.sessions with
  | nil => rfl
  | cons x rest ih =>
    by_cases hid : x.id = id
    · cases hopen : x.isOpen <;> simpa [Session.markClosed, hid, hopen] using ih
    · cases hopen : x.isOpen <;> simpa [Session.markClosed, hid, hopen] using ih

lemma mem_answer {c : Asked} (h : c ∈ answer calls id) :
    c ∈ calls ∨ c = ⟨id, true⟩ := by
  rcases mem_append.1 h with h | h
  · exact .inl (mem_of_mem_erase h)
  · exact .inr (mem_singleton.1 h)

lemma mem_answer_of_answered {id' : Nat} (h : ⟨id, true⟩ ∈ calls) : ⟨id, true⟩ ∈ answer calls id' :=
  mem_append_left _ ((mem_erase_of_ne (by simp)).2 h)

lemma length_answer (h : ⟨id, false⟩ ∈ calls) : (answer calls id).length = calls.length := by
  have hpos := length_pos_of_mem h
  rw [answer, length_append, length_erase_of_mem h, length_singleton]
  omega

lemma eq_of_mem_single (h : calls.length ≤ 1) {c : Asked} (hc : c ∈ calls) :
    calls = [c] := by
  obtain ⟨d, rfl⟩ := length_eq_one_iff.1 (Nat.le_antisymm h (length_pos_of_mem hc))
  rw [mem_singleton.1 hc]

namespace Inv

variable {s s' : VM}

/-- When no close is under way, there are at least as many live PTYs as open sessions. -/
lemma openIDs_le_live (h : Inv s) (hclosing : s.closing = []) :
    s.openIDs.length ≤ (liveIDs s.guest).length := by
  have hnodup : s.openIDs.Nodup := h.distinct.sublist (filter_sublist.map _)
  have hsub : s.openIDs ⊆ liveIDs s.guest := fun id hid => by
    rcases h.served id hid with hlive | hclose
    · exact hlive
    · rw [hclosing] at hclose
      cases hclose
  exact (subperm_of_subset hnodup hsub).length_le

lemma create (h : Inv s) (hpos : 0 < s.maxTerminalSessions) (hcreating : s.creating = [])
    (hclosing : s.closing = []) (hstep : s.step .create = some s') : Inv s' := by
  simp only [step] at hstep
  split_ifs at hstep with hfull
  · cases hstep
    refine ⟨h.budget, h.single, h.distinct, h.recorded_lt, h.creating_fresh, h.made, h.served,
      h.closing_known, fun live hlive => ?_⟩
    rcases mem_append.1 hlive with hlive | hlive
    · exact h.refused live hlive
    · rw [mem_singleton.1 hlive]
      exact le_trans hfull.2 (Int.ofNat_le.2 (h.openIDs_le_live hclosing))
  · cases hstep
    have hroom : (s.openIDs.length : Int) < s.maxTerminalSessions := by
      by_contra hge
      exact hfull ⟨hpos, not_lt.1 hge⟩
    have hfresh : s.nextID ∉ s.sessions.map Session.id := fun hmem => by
      obtain ⟨x, hx, hid⟩ := mem_map.1 hmem
      exact absurd (h.recorded_lt x hx) (hid ▸ Nat.lt_irrefl _)
    rw [hcreating, nil_append]
    refine ⟨?_, Nat.le_refl 1, h.distinct, fun x hx => Nat.lt_succ_of_lt (h.recorded_lt x hx),
      fun c hc => ?_, fun c hc hans => ?_, h.served, h.closing_known, h.refused⟩
    · show ((s.openIDs.length : Int) + (1 : Nat)) ≤ s.maxTerminalSessions
      omega
    · cases mem_singleton.1 hc
      exact ⟨Nat.lt_succ_self _, hfresh⟩
    · cases mem_singleton.1 hc
      cases hans

variable {id : Nat}

lemma guestCreates (h : Inv s) (hmem : ⟨id, false⟩ ∈ s.creating) :
    Inv { s with guest := s.guest ++ [⟨id, true⟩], creating := answer s.creating id } := by
  have hlive : ∀ i ∈ liveIDs s.guest, i ∈ liveIDs (s.guest ++ [⟨id, true⟩]) := fun i hi => by
    obtain ⟨p, hp, hlive, rfl⟩ := mem_liveIDs.1 hi
    exact mem_liveIDs.2 ⟨p, mem_append_left _ hp, hlive, rfl⟩
  have hlen := length_answer hmem
  refine ⟨?_, ?_, h.distinct, h.recorded_lt, fun c hc => ?_, fun c hc hans => ?_, fun i hi => ?_,
    h.closing_known, h.refused⟩
  · show ((s.openIDs.length : Int) + ((answer s.creating id).length : Nat)) ≤ s.maxTerminalSessions
    rw [hlen]
    exact h.budget
  · exact le_of_eq_of_le hlen h.single
  · rcases mem_answer hc with hc | rfl
    · exact h.creating_fresh c hc
    · exact h.creating_fresh ⟨id, false⟩ hmem
  · rcases mem_answer hc with hc | rfl
    · exact hlive _ (h.made c hc hans)
    · exact mem_liveIDs.2 ⟨⟨id, true⟩, by simp, rfl, rfl⟩
  · exact (h.served i hi).imp_left (hlive i)

lemma createFails (h : Inv s) {c : Asked} : Inv { s with creating := s.creating.erase c } := by
  have hlen : (s.creating.erase c).length ≤ s.creating.length := length_erase_le
  refine ⟨?_, Nat.le_trans hlen h.single, h.distinct, h.recorded_lt,
    fun d hd => h.creating_fresh d (mem_of_mem_erase hd),
    fun d hd => h.made d (mem_of_mem_erase hd), h.served, h.closing_known, h.refused⟩
  have hbudget := h.budget
  show ((s.openIDs.length : Int) + ((s.creating.erase c).length : Nat)) ≤ s.maxTerminalSessions
  omega

lemma recordOpen (h : Inv s) (hmem : ⟨id, true⟩ ∈ s.creating) :
    Inv { s with
      sessions := s.sessions ++ [⟨id, true⟩]
      creating := s.creating.erase ⟨id, true⟩ } := by
  have hsingle := eq_of_mem_single h.single hmem
  obtain ⟨hlt, hfresh⟩ := h.creating_fresh _ hmem
  have hopen : openIDs { s with sessions := s.sessions ++ [⟨id, true⟩] } = s.openIDs ++ [id] := by
    simp [openIDs]
  have hbudget := h.budget
  rw [hsingle] at hbudget
  rw [hsingle, erase_cons_head]
  refine ⟨?_, Nat.zero_le 1, ?_, fun x hx => ?_, nofun, nofun,
    fun i hi => ?_, fun c hc => ?_, h.refused⟩
  · show ((openIDs { s with sessions := s.sessions ++ [⟨id, true⟩] }).length : Int) + (0 : Nat)
      ≤ s.maxTerminalSessions
    rw [hopen, length_append, length_singleton]
    simp only [length_singleton] at hbudget
    omega
  · rw [map_append, nodup_append]
    refine ⟨h.distinct, nodup_singleton _, fun a ha b hb hab => hfresh ?_⟩
    rwa [hab, mem_singleton.1 hb] at ha
  · rcases mem_append.1 hx with hx | hx
    · exact h.recorded_lt x hx
    · rw [mem_singleton.1 hx]
      exact hlt
  · have hi : i ∈ openIDs { s with sessions := s.sessions ++ [⟨id, true⟩] } := hi
    rw [hopen, mem_append, mem_singleton] at hi
    rcases hi with hi | rfl
    · exact h.served i hi
    · exact .inl (h.made _ hmem rfl)
  · rw [map_append]
    exact mem_append_left _ (h.closing_known c hc)

lemma close (h : Inv s) (hid : id ∈ s.openIDs) :
    Inv { s with closing := s.closing ++ [⟨id, false⟩] } := by
  refine ⟨h.budget, h.single, h.distinct, h.recorded_lt, h.creating_fresh, h.made,
    fun i hi => (h.served i hi).imp_right (mem_append_left _), fun c hc => ?_, h.refused⟩
  rcases mem_append.1 hc with hc | hc
  · exact h.closing_known c hc
  · rw [mem_singleton.1 hc]
    exact s.openIDs_subset hid

lemma guestCloses (h : Inv s) (hmem : ⟨id, false⟩ ∈ s.closing) :
    Inv { s with
      guest := s.guest.filter fun p => p.id ≠ id
      closing := answer s.closing id } := by
  have hlive : ∀ i ∈ liveIDs s.guest, i ≠ id →
      i ∈ liveIDs (s.guest.filter fun p => p.id ≠ id) := fun i hi hne => by
    obtain ⟨p, hp, hlive, rfl⟩ := mem_liveIDs.1 hi
    exact mem_liveIDs.2 ⟨p, mem_filter.2 ⟨hp, by simpa using hne⟩, hlive, rfl⟩
  have hknown := h.closing_known _ hmem
  refine ⟨h.budget, h.single, h.distinct, h.recorded_lt, h.creating_fresh, fun c hc hans => ?_,
    fun i hi => ?_, fun c hc => ?_, h.refused⟩
  · -- a session that is being created has no record, and so no close
    refine hlive _ (h.made c hc hans) fun heq => (h.creating_fresh c hc).2 ?_
    rw [heq]
    exact hknown
  · by_cases hne : i = id
    · subst hne
      exact .inr (mem_append_right _ (mem_singleton.2 rfl))
    · exact (h.served i hi).imp (fun hi => hlive i hi hne) mem_answer_of_answered
  · rcases mem_answer hc with hc | rfl
    · exact h.closing_known c hc
    · exact hknown

lemma closeFails (h : Inv s) :
    Inv { s with closing := s.closing.erase ⟨id, false⟩ } :=
  ⟨h.budget, h.single, h.distinct, h.recorded_lt, h.creating_fresh, h.made,
    fun i hi => (h.served i hi).imp_right fun hmem => (mem_erase_of_ne (by simp)).2 hmem,
    fun c hc => h.closing_known c (mem_of_mem_erase hc), h.refused⟩

lemma recordClosed (h : Inv s) :
    Inv { s with
      sessions := s.sessions.map (Session.markClosed id)
      closing := s.closing.erase ⟨id, true⟩ } := by
  have hids : (s.sessions.map (Session.markClosed id)).map Session.id
      = s.sessions.map Session.id := by
    rw [map_map]
    exact map_congr_left fun x _ => x.id_markClosed id
  have hbudget := h.budget
  refine ⟨?_, h.single, ?_, fun x hx => ?_, fun c hc => ?_, h.made, fun i hi => ?_, fun c hc => ?_,
    h.refused⟩
  · have hlen := length_filter_le (· ≠ id) s.openIDs
    rw [← openIDs_markClosed] at hlen
    show ((openIDs { s with sessions := s.sessions.map (Session.markClosed id) }).length : Int)
      + (s.creating.length : Nat) ≤ s.maxTerminalSessions
    omega
  · rw [hids]
    exact h.distinct
  · obtain ⟨y, hy, rfl⟩ := mem_map.1 hx
    rw [Session.id_markClosed]
    exact h.recorded_lt y hy
  · rw [hids]
    exact h.creating_fresh c hc
  · have hi : i ∈ openIDs { s with sessions := s.sessions.map (Session.markClosed id) } := hi
    rw [openIDs_markClosed, mem_filter] at hi
    have hne : i ≠ id := of_decide_eq_true hi.2
    exact (h.served i hi.1).imp_right fun hmem =>
      (mem_erase_of_ne fun heq => hne (congrArg Asked.id heq)).2 hmem
  · rw [hids]
    exact h.closing_known c (mem_of_mem_erase hc)

lemma exit (h : Inv s) (hopen : id ∉ s.openIDs) (hcreating : id ∉ s.creating.map Asked.id) :
    Inv { s with
      guest := s.guest.map fun p => if p.id = id then { p with live := false } else p } := by
  have hlive : ∀ i ∈ liveIDs s.guest, i ≠ id → i ∈ liveIDs
      (s.guest.map fun p => if p.id = id then { p with live := false } else p) := by
    intro i hi hne
    obtain ⟨p, hp, hlive, rfl⟩ := mem_liveIDs.1 hi
    exact mem_liveIDs.2 ⟨p, mem_map.2 ⟨p, hp, if_neg hne⟩, hlive, rfl⟩
  refine ⟨h.budget, h.single, h.distinct, h.recorded_lt, h.creating_fresh, fun c hc hans => ?_,
    fun i hi => ?_, h.closing_known, h.refused⟩
  · exact hlive _ (h.made c hc hans) fun heq => hcreating (heq ▸ mem_map_of_mem hc)
  · exact (h.served i hi).imp_left fun hi' => hlive i hi' fun heq => hopen (heq ▸ hi)

lemma reboot (h : Inv s) (hopen : s.openIDs = []) (hcreating : s.creating = []) :
    Inv { s with guest := [] } := by
  refine ⟨h.budget, h.single, h.distinct, h.recorded_lt, h.creating_fresh, fun c hc => ?_,
    fun i hi => ?_, h.closing_known, h.refused⟩
  · have hc : c ∈ s.creating := hc
    rw [hcreating] at hc
    cases hc
  · have hi : i ∈ s.openIDs := hi
    rw [hopen] at hi
    cases hi

lemma step (h : Inv s) (hpos : 0 < s.maxTerminalSessions) {a : Action} (horderly : s.Orderly a)
    (hstep : s.step a = some s') : Inv s' := by
  cases a with
  | create =>
    obtain ⟨hcreating, hclosing⟩ := (Bool.and_eq_true _ _).mp horderly
    exact h.create hpos (of_decide_eq_true hcreating) (of_decide_eq_true hclosing) hstep
  | guestCreates id =>
    simp only [VM.step] at hstep
    split_ifs at hstep with hc
    cases hstep
    exact h.guestCreates hc.1
  | createFails id answered =>
    simp only [VM.step] at hstep
    split_ifs at hstep
    cases hstep
    exact h.createFails
  | recordOpen id =>
    simp only [VM.step] at hstep
    split_ifs at hstep with hc
    cases hstep
    exact h.recordOpen hc
  | close id =>
    simp only [VM.step] at hstep
    split_ifs at hstep with hid
    · cases hstep
      exact h.close hid
    · cases hstep
      exact h
  | guestCloses id =>
    simp only [VM.step] at hstep
    split_ifs at hstep with hc
    cases hstep
    exact h.guestCloses hc.1
  | closeFails id answered =>
    obtain rfl : answered = false := by simpa [Orderly, orderly] using horderly
    simp only [VM.step] at hstep
    split_ifs at hstep
    cases hstep
    exact h.closeFails
  | recordClosed id =>
    simp only [VM.step] at hstep
    split_ifs at hstep
    cases hstep
    exact h.recordClosed
  | exit id =>
    cases hstep
    obtain ⟨hopen, hcreating⟩ := (Bool.and_eq_true _ _).mp horderly
    exact h.exit (of_decide_eq_true hopen) (of_decide_eq_true hcreating)
  | reboot =>
    cases hstep
    obtain ⟨hopen, hcreating⟩ := (Bool.and_eq_true _ _).mp horderly
    exact h.reboot (of_decide_eq_true hopen) (of_decide_eq_true hcreating)

end Inv

lemma max_step {s' : VM} {a : Action} (hstep : s.step a = some s') :
    s'.maxTerminalSessions = s.maxTerminalSessions := by
  cases a <;> simp only [step] at hstep
  case exit | reboot =>
    cases hstep
    rfl
  all_goals
    split_ifs at hstep
    all_goals
      cases hstep
      rfl

/-- **The cap is exact in orderly runs.**  With a positive cap, as long as a create counts only
when no other call is under way, no shell of an open session ends but by a close and the answers to
closes arrive: the open sessions are within the cap; a create was refused only when the guest had
as many live PTYs; and an open session has a live PTY or the guest has just closed it. -/
theorem cap_exact {cap : Int} (hpos : 0 < cap) {as : List Action} {s : VM}
    (horderly : Along step Orderly (start cap) as) (hrun : run step (start cap) as = some s) :
    (s.openIDs.length : Int) ≤ cap ∧ (∀ live ∈ s.refusals, cap ≤ live) ∧
      ∀ id ∈ s.openIDs, id ∈ liveIDs s.guest ∨ ⟨id, true⟩ ∈ s.closing := by
  have hinit : Inv (start cap) := by
    refine ⟨Int.le_of_lt hpos, Nat.zero_le 1, nodup_nil, ?_, ?_, ?_, ?_, ?_, ?_⟩ <;>
      exact nofun
  have hinv : Inv s ∧ s.maxTerminalSessions = cap :=
    run_invariant (I := fun s => Inv s ∧ s.maxTerminalSessions = cap)
      (fun s a s' h hord hstep =>
        ⟨h.1.step (h.2.symm ▸ hpos) hord hstep, (max_step hstep).trans h.2⟩)
      ⟨hinit, rfl⟩ horderly hrun
  obtain ⟨h, hmax⟩ := hinv
  have hbudget := h.budget
  rw [hmax] at hbudget
  exact ⟨by omega, fun live hlive => hmax ▸ h.refused live hlive, h.served⟩

/-- Two sessions in turn, a third create that is refused, and one more after a close. -/
def demoOrderly : List Action :=
  [.create, .guestCreates 0, .recordOpen 0, .create, .guestCreates 1, .recordOpen 1, .create,
    .close 0, .guestCloses 0, .recordClosed 0, .create, .guestCreates 2, .recordOpen 2]

theorem cap_exact_demo : ∃ s,
    run step (start 2) demoOrderly = some s ∧ s.refusals = [2] ∧ s.openIDs = [1, 2] ∧
      (s.openIDs.length : Int) ≤ 2 ∧ (∀ live ∈ s.refusals, (2 : Int) ≤ live) := by
  obtain ⟨s, hrun, hrefusals, hids⟩ : ∃ s, run step (start 2) demoOrderly = some s ∧
      s.refusals = [2] ∧ s.openIDs = [1, 2] := by decide
  obtain ⟨hopen, hrefused, -⟩ := cap_exact (by decide) (by decide) hrun
  exact ⟨s, hrun, hrefusals, hids, hopen, hrefused⟩

/-! ## A session that cannot be closed -/

/-- An open session that the guest does not know. -/
structure Stuck (id : Nat) (s : VM) : Prop where
  isOpen : id ∈ s.openIDs
  unknown : ∀ p ∈ s.guest, p.id ≠ id
  unasked : ∀ c ∈ s.creating, c.id ≠ id
  unanswered : ⟨id, true⟩ ∉ s.closing
  old : id < s.nextID

/-- The guest refuses every close of it, so it stays open. -/
lemma Stuck.step {s' : VM} (h : Stuck id s) {a : Action} (hstep : s.step a = some s') :
    Stuck id s' := by
  cases a with
  | create =>
    simp only [VM.step] at hstep
    split_ifs at hstep
    · cases hstep
      exact ⟨h.isOpen, h.unknown, h.unasked, h.unanswered, h.old⟩
    · cases hstep
      refine ⟨h.isOpen, h.unknown, fun c hc => ?_, h.unanswered, Nat.lt_succ_of_lt h.old⟩
      rcases mem_append.1 hc with hc | hc
      · exact h.unasked c hc
      · rw [mem_singleton.1 hc]
        exact Nat.ne_of_gt h.old
  | guestCreates id' =>
    simp only [VM.step] at hstep
    split_ifs at hstep with hc
    cases hstep
    have hne : id' ≠ id := h.unasked _ hc.1
    refine ⟨h.isOpen, fun p hp => ?_, fun c hc' => ?_, h.unanswered, h.old⟩
    · rcases mem_append.1 hp with hp | hp
      · exact h.unknown p hp
      · rw [mem_singleton.1 hp]
        exact hne
    · rcases mem_answer hc' with hc' | rfl
      · exact h.unasked c hc'
      · exact hne
  | createFails id' answered =>
    simp only [VM.step] at hstep
    split_ifs at hstep
    cases hstep
    exact ⟨h.isOpen, h.unknown, fun c hc => h.unasked c (mem_of_mem_erase hc), h.unanswered,
      h.old⟩
  | recordOpen id' =>
    simp only [VM.step] at hstep
    split_ifs at hstep
    cases hstep
    refine ⟨?_, h.unknown, fun c hc => h.unasked c (mem_of_mem_erase hc), h.unanswered, h.old⟩
    obtain ⟨x, hx, hopen, hid⟩ := mem_openIDs.1 h.isOpen
    exact mem_openIDs.2 ⟨x, mem_append_left _ hx, hopen, hid⟩
  | close id' =>
    simp only [VM.step] at hstep
    split_ifs at hstep
    · cases hstep
      refine ⟨h.isOpen, h.unknown, h.unasked, fun hmem => ?_, h.old⟩
      rcases mem_append.1 hmem with hmem | hmem
      · exact h.unanswered hmem
      · exact nomatch mem_singleton.1 hmem
    · cases hstep
      exact h
  | guestCloses id' =>
    simp only [VM.step] at hstep
    split_ifs at hstep with hc
    cases hstep
    -- the guest knows the session that it closes
    obtain ⟨p, hp, hid⟩ := any_eq_true.1 hc.2
    have hne : id' ≠ id := fun heq => h.unknown p hp ((of_decide_eq_true hid).trans heq)
    refine ⟨h.isOpen, fun p hp => h.unknown p (mem_of_mem_filter hp), h.unasked,
      fun hmem => ?_, h.old⟩
    rcases mem_answer hmem with hmem | heq
    · exact h.unanswered hmem
    · exact hne (congrArg Asked.id heq).symm
  | closeFails id' answered =>
    simp only [VM.step] at hstep
    split_ifs at hstep
    cases hstep
    exact ⟨h.isOpen, h.unknown, h.unasked, fun hmem => h.unanswered (mem_of_mem_erase hmem),
      h.old⟩
  | recordClosed id' =>
    simp only [VM.step] at hstep
    split_ifs at hstep with hc
    cases hstep
    have hne : id ≠ id' := fun heq => h.unanswered (heq ▸ hc)
    refine ⟨?_, h.unknown, h.unasked, fun hmem => h.unanswered (mem_of_mem_erase hmem), h.old⟩
    show id ∈ openIDs { s with sessions := s.sessions.map (Session.markClosed id') }
    rw [openIDs_markClosed]
    exact mem_filter.2 ⟨h.isOpen, by simpa using hne⟩
  | exit id' =>
    cases hstep
    refine ⟨h.isOpen, fun p hp => ?_, h.unasked, h.unanswered, h.old⟩
    obtain ⟨q, hq, rfl⟩ := mem_map.1 hp
    split_ifs <;> exact h.unknown q hq
  | reboot =>
    cases hstep
    exact ⟨h.isOpen, nofun, h.unasked, h.unanswered, h.old⟩

/-- Two creates that count before either is recorded. -/
def demoTogether : List Action :=
  [.create, .create, .guestCreates 0, .guestCreates 1, .recordOpen 0, .recordOpen 1]

/-- A session, a reboot, and a create in the new boot. -/
def demoReboot : List Action :=
  [.create, .guestCreates 0, .recordOpen 0, .reboot, .create]

/-- With a cap of one, two creates open two sessions. After a reboot a create is refused although
no PTY is live, and the session of the earlier boot stays open whatever happens from then on. -/
theorem cap_not_exact : (∃ s, run step (start 1) demoTogether = some s ∧ 1 < s.openIDs.length) ∧
      ∃ s, run step (start 1) demoReboot = some s ∧ 0 ∈ s.refusals ∧
        ∀ as t, run step s as = some t → 0 ∈ t.openIDs := by
  refine ⟨by decide, ⟨1, 1, [], [⟨0, true⟩], [], [], [0]⟩, by decide, by decide, ?_⟩
  intro as t ht
  have hstuck : Stuck 0 ⟨1, 1, [], [⟨0, true⟩], [], [], [0]⟩ :=
    ⟨by decide, nofun, nofun, by decide, by decide⟩
  exact (run_preserves (fun _ _ _ h hstep => h.step hstep) hstuck ht : Stuck 0 t).isOpen

end VM

end Observatory.Terminal.Cap
