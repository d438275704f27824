/-
# The trigger engine

`Evaluate` folds the trigger rules over the events past a durable cursor. A raise moves the cursor
to its event in the same transaction, so a crash never raises again; a span without raises is
passed in one step per page. Each read of the working set starts a call of its own, and between
any two transactions of a call other calls, appends, acknowledgements and crashes come in.

The cursor that a call writes is the one it computed from the page it read, whatever the cursor is
by then, so two calls that overlap raise for the same events.
-/
import Observatory.Lib.Log
import Observatory.Situation.Rules

namespace Observatory.Situation

open Lib List
open Store.Attention (Event Queue RaiseInput)

/-! ## The calls -/

/-- Where a call of `Evaluate` stands: about to read the cursor, about to query past it, in the
middle of a page with the raises the event at the cursor is still due, or back. -/
inductive Phase where
  | reading
  | querying (cursor : Nat)
  | folding (cursor : Nat) (todo : List RaiseInput) (rest : List Event)
  | returned (ok : Bool)

def Phase.done : Phase → Bool
  | .returned _ => true
  | _ => false

/-- A call, with the last event there was when it started. -/
structure Call where
  startedAt : Nat
  phase : Phase

/-- The store, the calls of the process, and the raises that were committed. -/
structure Host where
  queue : Queue
  calls : List Call
  raises : List RaiseInput

def Host.new : Host := ⟨.empty, [], []⟩

def Host.cursor (s : Host) : Nat := s.queue.readEngineCursor cursorName

/-- The largest page of a query. -/
def maxPageLimit : Nat := 1000

section step

variable (quote redact : Bytes → Bytes) (cfg : Config)

/-- One transaction of `Evaluate`, or the fold's step to the next event of its page; `dbOk` is false
when the transaction fails or its page cannot be read. -/
def evaluate (q : Queue) (dbOk : Bool) : Phase → Queue × Phase × List RaiseInput
  | .reading =>
    (q, if dbOk then .querying (q.readEngineCursor cursorName) else .returned false, [])
  | .querying cursor =>
    let page := (Log.past Event.eventID cursor q.events).take maxPageLimit
    (q, if !dbOk then .returned false
      else if page.isEmpty then .returned true
      else .folding cursor [] page, [])
  | .folding cursor (inp :: todo) rest =>
    match q.raiseAttention redact inp dbOk with
    | (q', .ok _) => (q', .folding cursor todo rest, [inp])
    | (q', .error _) => (q', .returned false, [])
  | .folding _ [] (e :: rest) => (q, .folding e.eventID (due quote cfg e) rest, [])
  | .folding cursor [] [] =>
    match q.advanceEngineCursor cursorName cursor dbOk with
    | (q', .ok _) => (q', .querying cursor, [])
    | (q', .error _) => (q', .returned false, [])
  | .returned ok => (q, .returned ok, [])

/-- What can happen: an append by anyone, an acknowledgement, a new call, a step of a call, or a
crash of the process. -/
inductive Move where
  | append (kind sensor : Bytes) (vmID : Option Bytes) (data : List (Bytes × Json))
  | ack (attentionID : Nat) (dbOk : Bool)
  | start
  | step (i : Nat) (dbOk : Bool)
  | crash

def Host.step (s : Host) : Move → Option Host
  | .append kind sensor vmID data => some { s with queue := s.queue.append kind sensor vmID data }
  | .ack attentionID dbOk => some { s with queue := (s.queue.ackAttention attentionID dbOk).1 }
  | .start => some { s with calls := s.calls ++ [⟨s.queue.lastEventID, .reading⟩] }
  | .step i dbOk =>
    match s.calls[i]? with
    | none => none
    | some c =>
      if c.phase.done then none
      else
        let r := evaluate quote redact cfg s.queue dbOk c.phase
        some
          { queue := r.1
            calls := s.calls.set i { c with phase := r.2.1 }
            raises := s.raises ++ r.2.2 }
  | .crash => some { s with calls := [] }

/-- No call starts before the others have returned. -/
def Move.alone (s : Host) : Move → Bool
  | .start => s.calls.all fun c => c.phase.done
  | _ => true

end step

/-! ## The log -/

/-- The numbers of the events: increasing, positive, and the last one is on the last event. -/
structure Numbered (q : Queue) : Prop where
  ordered : Log.Ordered Event.eventID q.events
  bounds : ∀ e ∈ q.events, 0 < e.eventID ∧ e.eventID ≤ q.lastEventID
  last : q.lastEventID = 0 ∨ ∃ e ∈ q.events, e.eventID = q.lastEventID

/-- What a transaction does to the log. -/
inductive Grown (q q' : Queue) : Prop where
  | same (hevents : q'.events = q.events) (hlast : q'.lastEventID = q.lastEventID)
  | one (e : Event) (hevents : q'.events = q.events ++ [e]) (hid : e.eventID = q.lastEventID + 1)
      (hlast : q'.lastEventID = q.lastEventID + 1)

variable {q q' : Queue}

lemma Grown.last_le (h : Grown q q') : q.lastEventID ≤ q'.lastEventID := by
  cases h with
  | same _ hlast => exact hlast.ge
  | one e _ _ hlast => omega

lemma Numbered.grown (h : Numbered q) (hgrown : Grown q q') : Numbered q' := by
  cases hgrown with
  | same hevents hlast =>
    constructor
    · rw [hevents]
      exact h.ordered
    · rw [hevents, hlast]
      exact h.bounds
    · rw [hevents, hlast]
      exact h.last
  | one e hevents hid hlast =>
    constructor
    · rw [hevents]
      refine pairwise_append.2 ⟨h.ordered, pairwise_singleton _ _, ?_⟩
      intro e₀ he₀ e' he'
      have hle := (h.bounds e₀ he₀).2
      rw [mem_singleton.1 he']
      omega
    · intro e' he'
      rw [hevents] at he'
      rcases mem_append.1 he' with he' | he'
      · have hb := h.bounds e' he'
        omega
      · rw [mem_singleton.1 he']
        omega
    · right
      refine ⟨e, ?_, by omega⟩
      rw [hevents]
      exact mem_append_right _ mem_cons_self

lemma Grown.between (h : Grown q q') (a : Nat) {b : Nat} (hb : b ≤ q.lastEventID) :
    Log.between Event.eventID a b q'.events = Log.between Event.eventID a b q.events := by
  cases h with
  | same hevents _ => rw [hevents]
  | one e hevents hid _ =>
    rw [hevents]
    refine Log.between_append_of_past fun e' he' => ?_
    rw [mem_singleton.1 he']
    omega

/-! ## The transactions -/

lemma readEngineCursor_advance (q : Queue) (name : Bytes) (cursor : Nat) :
    (q.advanceCursorInTx name cursor).readEngineCursor name = cursor := by
  simp [Queue.advanceCursorInTx, Queue.readEngineCursor]

/-- A raise, refused ones included, adds one event. -/
lemma grown_raiseInTx (q : Queue) (inp : RaiseInput) (severity : Store.Attention.Severity)
    (summary : Bytes) : Grown q (q.raiseInTx inp severity summary).1 := by
  unfold Queue.raiseInTx
  split
  · exact .one _ rfl rfl rfl
  · split
    · exact .one _ rfl rfl rfl
    · exact .one _ rfl rfl rfl

lemma raiseAttention_cases (redact : Bytes → Bytes) (q : Queue) {inp : RaiseInput}
    (hname : inp.cursorName = cursorName) (dbOk : Bool) :
    (∃ err, q.raiseAttention redact inp dbOk = (q, .error err)) ∨
      ∃ q' item, q.raiseAttention redact inp dbOk = (q', .ok item) ∧ Grown q q' ∧
        q'.readEngineCursor cursorName = inp.cursorTo := by
  have hne : inp.cursorName ≠ [] := by
    rw [hname]
    decide
  unfold Queue.raiseAttention
  split
  · exact .inl ⟨_, rfl⟩
  split
  · exact .inl ⟨_, rfl⟩
  split
  · exact .inl ⟨_, rfl⟩
  next severity _ _ =>
  refine .inr ⟨_, _, rfl, ?_, ?_⟩
  · cases grown_raiseInTx q inp severity (redact inp.summary) with
    | same hevents hlast => exact .same hevents hlast
    | one e hevents hid hlast => exact .one e hevents hid hlast
  · rw [hname]
    exact readEngineCursor_advance _ _ _

lemma grown_ack (q : Queue) (attentionID : Nat) (dbOk : Bool) :
    Grown q (q.ackAttention attentionID dbOk).1 ∧
      (q.ackAttention attentionID dbOk).1.cursors = q.cursors := by
  unfold Queue.ackAttention
  split
  · exact ⟨.same rfl rfl, rfl⟩
  dsimp only
  split
  · exact ⟨.same rfl rfl, rfl⟩
  · exact ⟨.same rfl rfl, rfl⟩

/-! ## The fold -/

section fold

variable (quote redact : Bytes → Bytes) (cfg : Config)

/-- What is true of a call while no other one is under way. In the middle of a page everything
past the stored cursor and up to its own has been looked at, and `todo` is all of it that is due:
at most one raise, for the event at the cursor. -/
def CallOk (q : Queue) (startedAt : Nat) : Phase → Prop
  | .reading => True
  | .querying cursor => cursor = q.readEngineCursor cursorName
  | .folding cursor todo rest =>
    q.readEngineCursor cursorName ≤ cursor ∧ cursor ≤ q.lastEventID ∧
      (Log.between Event.eventID (q.readEngineCursor cursorName) cursor q.events).flatMap
        (due quote cfg) = todo ∧
      (todo.length ≤ 1 ∧ ∀ inp ∈ todo, inp.cursorName = cursorName ∧ inp.cursorTo = cursor) ∧
      ∃ upTo ≤ q.lastEventID, rest = Log.between Event.eventID cursor upTo q.events
  | .returned true => startedAt ≤ q.readEngineCursor cursorName
  | .returned false => True

/-- The raises made are those due for the events up to the cursor. -/
structure Inv (s : Host) : Prop where
  numbered : Numbered s.queue
  cursor_le : s.cursor ≤ s.queue.lastEventID
  raised : s.raises =
    (Log.between Event.eventID 0 s.cursor s.queue.events).flatMap (due quote cfg)
  started : ∀ c ∈ s.calls, c.startedAt ≤ s.queue.lastEventID
  single : ∀ (i j : Nat) (c d : Call), s.calls[i]? = some c → s.calls[j]? = some d →
    c.phase.done = false → d.phase.done = false → i = j
  calls : ∀ c ∈ s.calls, CallOk quote cfg s.queue c.startedAt c.phase

lemma inv_new : Inv quote cfg .new where
  numbered := ⟨List.Pairwise.nil, by simp [Host.new, Queue.empty], .inl rfl⟩
  cursor_le := le_rfl
  raised := rfl
  started := by simp [Host.new]
  single := by simp [Host.new]
  calls := by simp [Host.new]

variable {quote cfg}

variable {c : Call} {e : Event} {s : Host} {rest : List Event} {cursor i startedAt : Nat}
  {phase : Phase}

/-- A call keeps its standing while the log grows and the cursor stays. -/
lemma CallOk.grown (h : CallOk quote cfg q startedAt phase) (hgrown : Grown q q')
    (hcursor : q'.readEngineCursor cursorName = q.readEngineCursor cursorName) :
    CallOk quote cfg q' startedAt phase := by
  have hle := hgrown.last_le
  cases phase with
  | reading => trivial
  | querying cursor => exact h.trans hcursor.symm
  | folding cursor todo rest =>
    obtain ⟨hstored, hcur, htodo, hone, upTo, hupTo, hrest⟩ := h
    refine ⟨by omega, by omega, ?_, hone, upTo, by omega, ?_⟩
    · rw [hcursor, hgrown.between _ hcur]
      exact htodo
    · rw [hgrown.between _ hupTo]
      exact hrest
  | returned ok =>
    cases ok with
    | false => trivial
    | true => exact h.trans hcursor.ge

lemma CallOk.of_done (h : CallOk quote cfg q startedAt phase) (hdone : phase.done = true)
    (hcursor : q.readEngineCursor cursorName ≤ q'.readEngineCursor cursorName) :
    CallOk quote cfg q' startedAt phase := by
  cases phase with
  | reading | querying | folding => cases hdone
  | returned ok =>
    cases ok with
    | false => trivial
    | true => exact le_trans h hcursor

/-- Everything but the calls: the log grows and the cursor stays. -/
lemma Inv.grown (h : Inv quote cfg s) (hgrown : Grown s.queue q')
    (hcursor : q'.readEngineCursor cursorName = s.cursor) :
    Inv quote cfg { s with queue := q' } where
  numbered := h.numbered.grown hgrown
  cursor_le := hcursor.le.trans (h.cursor_le.trans hgrown.last_le)
  raised := by
    show s.raises = (Log.between Event.eventID 0 (q'.readEngineCursor cursorName)
      q'.events).flatMap (due quote cfg)
    rw [hcursor, hgrown.between _ h.cursor_le]
    exact h.raised
  started := fun c hc => (h.started c hc).trans hgrown.last_le
  single := h.single
  calls := fun c hc => (h.calls c hc).grown hgrown hcursor

lemma Inv.moved (h : Inv quote cfg s) (hcall : s.calls[i]? = some c)
    (hactive : c.phase.done = false) {raises : List RaiseInput} (hgrown : Grown s.queue q')
    (hcursor : s.cursor ≤ q'.readEngineCursor cursorName)
    (hcursor_le : q'.readEngineCursor cursorName ≤ q'.lastEventID)
    (hraised : raises = (Log.between Event.eventID 0 (q'.readEngineCursor cursorName)
      q'.events).flatMap (due quote cfg)) (hphase : CallOk quote cfg q' c.startedAt phase) :
    Inv quote cfg
      { queue := q', calls := s.calls.set i { c with phase := phase }, raises := raises } where
  numbered := h.numbered.grown hgrown
  cursor_le := hcursor_le
  raised := hraised
  started := by
    intro d hd
    refine le_trans ?_ hgrown.last_le
    rcases mem_or_eq_of_mem_set hd with hd | rfl
    · exact h.started d hd
    · exact h.started c (mem_of_getElem? hcall)
  single := by
    intro j k d d' hj hk hd hd'
    -- a call that is under way now was under way before
    have hold : ∀ (m : Nat) (e : Call), (s.calls.set i { c with phase := phase })[m]? = some e →
        e.phase.done = false → m = i := by
      intro m e hm he
      rw [List.getElem?_set] at hm
      by_contra hne
      rw [if_neg (Ne.symm hne)] at hm
      exact hne (h.single m i e c hm hcall he hactive)
    rw [hold j d hj hd, hold k d' hk hd']
  calls := by
    intro d hd
    obtain ⟨j, hj⟩ := List.getElem?_of_mem hd
    rw [List.getElem?_set] at hj
    split at hj
    · split at hj
      · cases hj
        exact hphase
      · cases hj
    · next hne =>
      -- the others are back
      refine (h.calls d (mem_of_getElem? hj)).of_done ?_ hcursor
      by_contra hnot
      exact hne (h.single i j c d hcall hj hactive (by simpa using hnot))

lemma Inv.raised_append (h : Inv quote cfg s) (hle : s.cursor ≤ cursor) :
    s.raises ++ (Log.between Event.eventID s.cursor cursor s.queue.events).flatMap (due quote cfg) =
      (Log.between Event.eventID 0 cursor s.queue.events).flatMap (due quote cfg) := by
  rw [h.raised, ← flatMap_append,
    h.numbered.ordered.between_append (Nat.zero_le _) hle]

lemma Numbered.last_le (h : Numbered q) (hpast : Log.past Event.eventID cursor q.events = []) :
    q.lastEventID ≤ cursor := by
  rcases h.last with hzero | ⟨e, he, hid⟩
  · omega
  · have hnot := filter_eq_nil_iff.1 hpast e he
    simp only [decide_eq_true_eq] at hnot
    omega

lemma due_cursor {inp : RaiseInput} (h : inp ∈ due quote cfg e) :
    inp.cursorName = cursorName ∧ inp.cursorTo = e.eventID := by
  obtain ⟨r, -, rfl⟩ := mem_map.1 h
  exact ⟨rfl, rfl⟩

/-- The state after a step of a call. -/
def Host.evaluated (quote redact : Bytes → Bytes) (cfg : Config) (s : Host) (i : Nat) (c : Call)
    (dbOk : Bool) : Host :=
  let r := evaluate quote redact cfg s.queue dbOk c.phase
  { queue := r.1
    calls := s.calls.set i { c with phase := r.2.1 }
    raises := s.raises ++ r.2.2 }

/-- A step that leaves the store alone. -/
lemma Inv.moved_idle (h : Inv quote cfg s) (hcall : s.calls[i]? = some c)
    (hactive : c.phase.done = false) (hphase : CallOk quote cfg s.queue c.startedAt phase) :
    Inv quote cfg { s with calls := s.calls.set i { c with phase := phase } } :=
  h.moved hcall hactive (.same rfl rfl) le_rfl h.cursor_le h.raised hphase

lemma CallOk.queried (h : Inv quote cfg s) (hstarted : startedAt ≤ s.queue.lastEventID)
    (hcursor : cursor = s.cursor) (dbOk : Bool) :
    CallOk quote cfg s.queue startedAt
      (evaluate quote redact cfg s.queue dbOk (.querying cursor)).2.1 := by
  have hle : cursor ≤ s.queue.lastEventID := hcursor.le.trans h.cursor_le
  simp only [evaluate]
  split
  · trivial
  split
  · next hempty =>
    have hpast : Log.past Event.eventID cursor s.queue.events = [] := by
      simpa [maxPageLimit] using hempty
    exact (hstarted.trans (h.numbered.last_le hpast)).trans hcursor.le
  · next hempty =>
    refine ⟨hcursor.ge, hle, ?_, ⟨Nat.zero_le _, by simp⟩, ?_⟩
    · show (Log.between Event.eventID s.cursor cursor s.queue.events).flatMap _ = []
      rw [hcursor, Log.between_self, flatMap_nil]
    · -- the page is not empty, and its last event bounds it
      obtain ⟨e, he⟩ : ∃ e, ((Log.past Event.eventID cursor s.queue.events).take
          maxPageLimit).getLast? = some e := by
        rw [← Option.isSome_iff_exists, List.getLast?_isSome]
        simpa using hempty
      have hmem : e ∈ s.queue.events :=
        mem_of_mem_filter (mem_of_mem_take (mem_of_getLast? he))
      exact ⟨e.eventID, (h.numbered.bounds e hmem).2, h.numbered.ordered.take_past _ _ he⟩

lemma CallOk.next (h : Inv quote cfg s)
    (hok : CallOk quote cfg s.queue startedAt (.folding cursor [] (e :: rest))) :
    CallOk quote cfg s.queue startedAt (.folding e.eventID (due quote cfg e) rest) := by
  obtain ⟨hstored, hcur, htodo, -, upTo, hupTo, hrest⟩ := hok
  obtain ⟨hthis, hlater⟩ := h.numbered.ordered.between_cons hrest.symm
  have he : cursor < e.eventID ∧ e.eventID ≤ upTo := by
    have hmem : e ∈ Log.between Event.eventID cursor upTo s.queue.events := by
      rw [← hrest]
      exact mem_cons_self
    exact (Log.mem_between.1 hmem).2
  refine ⟨by omega, by omega, ?_, ⟨length_due_le quote cfg e, fun inp hinp => due_cursor hinp⟩,
    upTo, hupTo, hlater.symm⟩
  rw [← h.numbered.ordered.between_append hstored he.1.le, flatMap_append, htodo, hthis]
  simp

/-- A transaction that stores the cursor of the fold, with the raises that were due. -/
lemma Inv.committed (h : Inv quote cfg s) (hcall : s.calls[i]? = some c)
    (hactive : c.phase.done = false) {todo : List RaiseInput}
    (hok : CallOk quote cfg s.queue c.startedAt (.folding cursor todo rest))
    (hgrown : Grown s.queue q') (hcursor : q'.readEngineCursor cursorName = cursor)
    (hphase : CallOk quote cfg q' c.startedAt phase) :
    Inv quote cfg
      { queue := q', calls := s.calls.set i { c with phase := phase }, raises := s.raises ++ todo }
      := by
  obtain ⟨hstored, hcur, htodo, -⟩ := hok
  refine h.moved hcall hactive hgrown (hstored.trans hcursor.ge) ?_ ?_ hphase
  · exact hcursor.le.trans (hcur.trans hgrown.last_le)
  · rw [hcursor, hgrown.between _ hcur, ← htodo]
    exact h.raised_append hstored

lemma CallOk.stored {todo : List RaiseInput}
    (hok : CallOk quote cfg q startedAt (.folding cursor todo rest)) (hgrown : Grown q q')
    (hcursor : q'.readEngineCursor cursorName = cursor) :
    CallOk quote cfg q' startedAt (.folding cursor [] rest) := by
  obtain ⟨-, hcur, -, -, upTo, hupTo, hrest⟩ := hok
  have hle := hgrown.last_le
  refine ⟨hcursor.le, by omega, ?_, ⟨Nat.zero_le _, by simp⟩, upTo, by omega, ?_⟩
  · rw [hcursor, Log.between_self, flatMap_nil]
  · rw [hgrown.between _ hupTo]
    exact hrest

lemma Inv.evaluated (h : Inv quote cfg s) (hcall : s.calls[i]? = some c)
    (hactive : c.phase.done = false) (dbOk : Bool) :
    Inv quote cfg (s.evaluated quote redact cfg i c dbOk) ∧
      s.cursor ≤ (s.evaluated quote redact cfg i c dbOk).cursor := by
  have hmem : c ∈ s.calls := mem_of_getElem? hcall
  have hok := h.calls c hmem
  have hstarted := h.started c hmem
  -- a step that leaves the store alone
  have hidle : ∀ phase, evaluate quote redact cfg s.queue dbOk c.phase = (s.queue, phase, []) →
      CallOk quote cfg s.queue c.startedAt phase →
        Inv quote cfg (s.evaluated quote redact cfg i c dbOk) ∧
          s.cursor ≤ (s.evaluated quote redact cfg i c dbOk).cursor := by
    intro phase heq hphase
    have hstate : s.evaluated quote redact cfg i c dbOk =
        { s with calls := s.calls.set i { c with phase := phase } } := by
      simp [Host.evaluated, heq]
    rw [hstate]
    exact ⟨h.moved_idle hcall hactive hphase, le_rfl⟩
  cases hphase : c.phase with
  | returned ok =>
    rw [hphase] at hactive
    cases hactive
  | reading =>
    refine hidle _ (by rw [hphase]; rfl) ?_
    split
    · exact rfl
    · trivial
  | querying cursor =>
    rw [hphase] at hok
    exact hidle _ (by rw [hphase]; rfl) (CallOk.queried redact h hstarted hok dbOk)
  | folding cursor todo rest =>
    rw [hphase] at hok
    have hstored : s.cursor ≤ cursor := hok.1
    match todo, rest with
    | inp :: todo, rest =>
      obtain ⟨hname, hto⟩ := hok.2.2.2.1.2 inp mem_cons_self
      obtain rfl : todo = [] := by simpa using hok.2.2.2.1.1
      rcases raiseAttention_cases redact s.queue hname dbOk with
        ⟨err, hraise⟩ | ⟨q', item, hraise, hgrown, hcursor⟩
      · exact hidle (.returned false) (by rw [hphase]; simp [evaluate, hraise]) trivial
      · have hcursor' := hcursor.trans hto
        have hstate : s.evaluated quote redact cfg i c dbOk =
            { queue := q'
              calls := s.calls.set i { c with phase := .folding cursor [] rest }
              raises := s.raises ++ [inp] } := by
          simp [Host.evaluated, hphase, evaluate, hraise]
        rw [hstate]
        exact ⟨h.committed hcall hactive hok hgrown hcursor' (hok.stored hgrown hcursor'),
          hstored.trans hcursor'.ge⟩
    | [], e :: rest => exact hidle _ (by rw [hphase]; rfl) (CallOk.next h hok)
    | [], [] =>
      cases dbOk with
      | false =>
        exact hidle (.returned false)
          (by rw [hphase]; simp [evaluate, Queue.advanceEngineCursor]) trivial
      | true =>
        have hcursor := readEngineCursor_advance s.queue cursorName cursor
        have hstate : s.evaluated quote redact cfg i c true =
            { queue := s.queue.advanceCursorInTx cursorName cursor
              calls := s.calls.set i { c with phase := .querying cursor }
              raises := s.raises ++ [] } := by
          simp [Host.evaluated, hphase, evaluate, Queue.advanceEngineCursor]
        rw [hstate]
        exact ⟨h.committed hcall hactive hok (.same rfl rfl) hcursor hcursor.symm,
          hstored.trans hcursor.ge⟩

/-! ## Runs -/

lemma Inv.started_alone (h : Inv quote cfg s) (halone : s.calls.all (fun c => c.phase.done) = true) :
    Inv quote cfg { s with calls := s.calls ++ [⟨s.queue.lastEventID, .reading⟩] } where
  numbered := h.numbered
  cursor_le := h.cursor_le
  raised := h.raised
  started := by
    intro c hc
    rcases mem_append.1 hc with hc | hc
    · exact h.started c hc
    · rw [mem_singleton.1 hc]
  single := by
    -- the new call is the only one under way
    have hnew : ∀ (m : Nat) (e : Call),
        (s.calls ++ [⟨s.queue.lastEventID, .reading⟩])[m]? = some e → e.phase.done = false →
          m = s.calls.length := by
      intro m e hm he
      rw [List.getElem?_append] at hm
      split at hm
      · have hdone := all_eq_true.1 halone e (mem_of_getElem? hm)
        rw [hdone] at he
        cases he
      · have hlt := (List.getElem?_eq_some_iff.1 hm).1
        simp only [length_singleton] at hlt
        omega
    intro i j c d hi hj hc hd
    rw [hnew i c hi hc, hnew j d hj hd]
  calls := by
    intro c hc
    rcases mem_append.1 hc with hc | hc
    · exact h.calls c hc
    · rw [mem_singleton.1 hc]
      trivial

lemma Inv.step {s' : Host} (h : Inv quote cfg s) {a : Move} (halone : a.alone s = true)
    (hstep : s.step quote redact cfg a = some s') : Inv quote cfg s' ∧ s.cursor ≤ s'.cursor := by
  cases a with
  | append kind sensor vmID data =>
    cases hstep
    exact ⟨h.grown (.one _ rfl rfl rfl) rfl, le_rfl⟩
  | ack attentionID dbOk =>
    cases hstep
    obtain ⟨hgrown, hcursors⟩ := grown_ack s.queue attentionID dbOk
    have hcursor : (s.queue.ackAttention attentionID dbOk).1.readEngineCursor cursorName =
        s.cursor := by
      rw [Queue.readEngineCursor, hcursors]
      rfl
    exact ⟨h.grown hgrown hcursor, hcursor.ge⟩
  | start =>
    cases hstep
    exact ⟨h.started_alone halone, le_rfl⟩
  | step i dbOk =>
    simp only [Host.step] at hstep
    split at hstep
    · cases hstep
    next c hcall =>
    split at hstep
    · cases hstep
    next hactive =>
    cases hstep
    exact h.evaluated redact hcall (by simpa using hactive) dbOk
  | crash =>
    cases hstep
    exact ⟨⟨h.numbered, h.cursor_le, h.raised, by simp, by simp, by simp⟩, le_rfl⟩

lemma inv_run {as : List Move} (hrun : run (Host.step quote redact cfg) .new as = some s)
    (halone : Along (Host.step quote redact cfg) (fun s a => a.alone s = true) .new as) :
    Inv quote cfg s :=
  run_invariant (fun _ _ _ h ha hstep => (h.step redact ha hstep).1) (inv_new quote cfg) halone hrun

/-! ## Counting the raises -/

lemma filter_flatMap_due_eq_nil {L : List Event} {n : Nat} (h : ∀ e ∈ L, e.eventID ≠ n) :
    (L.flatMap (due quote cfg)).filter (fun inp => inp.cursorTo = n) = [] := by
  refine filter_eq_nil_iff.2 fun inp hinp hto => ?_
  obtain ⟨e, he, hdue⟩ := mem_flatMap.1 hinp
  exact h e he ((due_cursor hdue).2.symm.trans (of_decide_eq_true hto))

lemma filter_flatMap_due {L : List Event} (h : Log.Ordered Event.eventID L) (he : e ∈ L) :
    (L.flatMap (due quote cfg)).filter (fun inp => inp.cursorTo = e.eventID) =
      due quote cfg e := by
  induction L with
  | nil => cases he
  | cons x L ih =>
    obtain ⟨hx, hL⟩ := pairwise_cons.1 h
    rw [flatMap_cons, filter_append]
    rcases mem_cons.1 he with rfl | he
    · have hlater : ∀ y ∈ L, y.eventID ≠ e.eventID := fun y hy => (hx y hy).ne'
      rw [filter_flatMap_due_eq_nil hlater, append_nil, filter_eq_self]
      exact fun inp hinp => decide_eq_true (due_cursor hinp).2
    · have hearlier : ∀ y ∈ [x], y.eventID ≠ e.eventID := by
        intro y hy
        rw [mem_singleton.1 hy]
        exact (hx e he).ne
      have hnone : ([x].flatMap (due quote cfg)).filter
          (fun inp => inp.cursorTo = e.eventID) = [] :=
        filter_flatMap_due_eq_nil hearlier
      rw [flatMap_singleton] at hnone
      rw [hnone, nil_append, ih hL he]

lemma Inv.raises_for (h : Inv quote cfg s) (he : e ∈ s.queue.events) :
    s.raises.filter (fun inp => inp.cursorTo = e.eventID) =
      if e.eventID ≤ s.cursor then due quote cfg e else [] := by
  rw [h.raised]
  split
  · next hle =>
    refine filter_flatMap_due (h.numbered.ordered.filter _) ?_
    exact Log.mem_between.2 ⟨he, (h.numbered.bounds e he).1, hle⟩
  · next hle =>
    refine filter_flatMap_due_eq_nil fun y hy heq => hle ?_
    rw [← heq]
    exact (Log.mem_between.1 hy).2.2

lemma countP_due {r : Rule} (hr : r ∈ rulesOf quote e)
    (henabled : cfg.enabled r.triggerClass = true) (hfires : r.fires e = true) :
    (due quote cfg e).countP (fun inp => inp.triggerClass = r.triggerClass) = 1 := by
  have hmem : r ∈ triggered quote cfg e := by
    refine mem_filter.2 ⟨hr, ?_⟩
    rw [henabled, hfires]
    rfl
  have hone := length_triggered_le quote cfg e
  obtain ⟨r', hr'⟩ := length_eq_one_iff.1 (le_antisymm hone (length_pos_of_mem hmem))
  rw [hr'] at hmem
  rw [due, hr', ← mem_singleton.1 hmem]
  simp [raiseFor]

/-- **Triggers fire once.**  Whatever is appended, acknowledged and wherever calls fail or the
process crashes, if no call of `Evaluate` starts while another one is under way, then each
event the cursor has passed contributed exactly one raise for each enabled rule it fires, the
events past the cursor none, nothing else was raised, the cursor never moves back, and a call
that returned without an error has reached the last event there was when it started. -/
theorem triggers_fire_once {s : Host} {as : List Move}
    (hrun : run (Host.step quote redact cfg) .new as = some s)
    (halone : Along (Host.step quote redact cfg) (fun s a => a.alone s = true) .new as) :
    (∀ e ∈ s.queue.events, ∀ r ∈ rulesOf quote e, cfg.enabled r.triggerClass = true →
      r.fires e = true →
        s.raises.countP (fun inp => inp.cursorTo = e.eventID && inp.triggerClass = r.triggerClass) =
          if e.eventID ≤ s.cursor then 1 else 0) ∧
    (∀ inp ∈ s.raises, ∃ e ∈ s.queue.events, ∃ r ∈ rulesOf quote e,
      cfg.enabled r.triggerClass = true ∧ r.fires e = true ∧ inp = raiseFor cfg e r) ∧
    (∀ a s', a.alone s = true → s.step quote redact cfg a = some s' → s.cursor ≤ s'.cursor) ∧
    ∀ c ∈ s.calls, c.phase = .returned true → c.startedAt ≤ s.cursor := by
  have h : Inv quote cfg s := inv_run redact hrun halone
  refine ⟨?_, ?_, fun a s' ha hstep => (h.step redact ha hstep).2, ?_⟩
  · intro e he r hr henabled hfires
    have hsplit : s.raises.countP
        (fun inp => inp.cursorTo = e.eventID && inp.triggerClass = r.triggerClass) =
          (s.raises.filter fun inp => inp.cursorTo = e.eventID).countP
            fun inp => inp.triggerClass = r.triggerClass := by
      rw [countP_filter]
      exact countP_congr fun inp _ => by rw [Bool.and_comm]
    rw [hsplit, h.raises_for he]
    split
    · exact countP_due hr henabled hfires
    · rfl
  · intro inp hinp
    rw [h.raised] at hinp
    obtain ⟨e, he, hdue⟩ := mem_flatMap.1 hinp
    obtain ⟨r, hr, rfl⟩ := mem_map.1 hdue
    obtain ⟨hr, hon⟩ := mem_filter.1 hr
    rw [Bool.and_eq_true] at hon
    exact ⟨e, (Log.mem_between.1 he).1, r, hr, hon.1, hon.2, rfl⟩
  · intro c hc hreturned
    have hok := h.calls c hc
    rw [hreturned] at hok
    exact hok

end fold

/-! ### Runs -/

/-- Telemetry is watched, without a bound on the queue. -/
def sampleConfig : Config := ⟨[(ascii "telemetry_degraded", true)], 0, true⟩

/-- The process crashes between the raise for an event and the cursor's next move, and the next
call goes on from there. -/
def crashedOnce : List Move :=
  [.append (ascii "telemetry.loss") (ascii "fs") none [], .start, .step 0 true, .step 0 true,
   .step 0 true, .step 0 true, .crash, .start, .step 0 true, .step 0 true, .step 0 true,
   .step 0 true, .step 0 true]

theorem triggers_fire_once_crash : ∃ s,
    run (Host.step id id sampleConfig) .new crashedOnce = some s ∧
    s.raises.length = 1 ∧ s.cursor = 2 ∧
    (∀ c ∈ s.calls, c.phase = .returned true → c.startedAt ≤ s.cursor) := by
  exact ⟨_, yields (by decide +kernel), by decide +kernel, by decide +kernel,
    (triggers_fire_once id (yields _) (by decide +kernel)).2.2.2⟩

/-- Two calls read the same page; the first raises for its event and moves on. -/
def overlapping : List Move :=
  [.append (ascii "telemetry.loss") (ascii "fs") none [], .start, .start,
   .step 0 true, .step 1 true, .step 0 true, .step 1 true,
   .step 0 true, .step 0 true, .step 0 true, .step 0 true, .step 0 true, .step 0 true,
   .step 1 true]

/-- The second of two overlapping calls raises again for the event the first one raised for, and
moves the cursor back to it. -/
theorem triggers_fire_twice : ∃ s t,
    run (Host.step id id sampleConfig) .new overlapping = some s ∧
    s.step id id sampleConfig (.step 1 true) = some t ∧
    (∃ e ∈ t.queue.events, ∃ r ∈ rulesOf id e, sampleConfig.enabled r.triggerClass = true ∧
      r.fires e = true ∧
      t.raises.countP (fun inp => inp.cursorTo = e.eventID && inp.triggerClass = r.triggerClass) =
        2) ∧
    t.cursor < s.cursor := by
  simp only [exists_and_left]
  decide +kernel

end Observatory.Situation
