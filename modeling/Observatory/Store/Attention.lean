/-
# The attention queue

A raise lands in one transaction: an `attention.raised` event, the item it opens or is collapsed
into, and the cursor of the engine that made it. At the bound of the queue a raise that is not
critical is refused, and the refusal is an event of its own. An item is acknowledged once.
-/
import Observatory.Events.Envelope
import Observatory.Lib.Machine
import Observatory.Lib.Table

namespace Observatory.Store.Attention

open Lib List

/-! ## Items and events -/

inductive Severity where
  | info | needsDecision | critical

/-- The severities there are, by their names; any other text is refused. -/
def severityOf (s : Bytes) : Option Severity :=
  if s = ascii "info" then some .info
  else if s = ascii "needs_decision" then some .needsDecision
  else if s = ascii "critical" then some .critical
  else none

/-- An action that can be executed as it is returned. -/
structure SuggestedAction where
  action : Bytes
  params : List (Bytes × Bytes)
  rationale : Bytes

structure RaiseInput where
  triggerClass : Bytes
  severity : Bytes
  vmID : Option Bytes
  runID : Option Bytes
  summary : Bytes
  systemAction : Bytes
  evidenceLinks : List Bytes
  suggestedActions : List SuggestedAction
  /-- Fold a duplicate of an open item into its count. -/
  collapse : Bool
  /-- The bound on the open items; none when it is not positive. -/
  queueMax : Int
  /-- The cursor that moves with the raise; none when the name is empty. -/
  cursorName : Bytes
  cursorTo : Nat

structure Item where
  attentionID : Nat
  raisedEventID : Nat
  lastEventID : Nat
  vmID : Option Bytes
  runID : Option Bytes
  triggerClass : Bytes
  severity : Severity
  summary : Bytes
  systemAction : Bytes
  evidenceLinks : List Bytes
  suggestedActions : List SuggestedAction
  count : Nat
  acked : Bool

/-- An event of the store, as far as the queue and its engine read or write it. -/
structure Event where
  eventID : Nat
  kind : Bytes
  sensor : Bytes
  vmID : Option Bytes
  data : List (Bytes × Json)

def textOf (data : List (Bytes × Json)) (key : Bytes) : Option Bytes :=
  match data.lookup key with
  | some (.str s) => some s
  | _ => none

def Event.names (attentionID : Nat) (e : Event) : Bool :=
  e.kind = ascii "attention.raised" &&
    textOf e.data (ascii "attention_id") = some (formatUint attentionID)

/-- The tables of the queue, the events they stand beside, and the cursors of the engines. -/
structure Queue where
  items : List Item
  lastItemID : Nat
  events : List Event
  lastEventID : Nat
  cursors : List (Bytes × Nat)

namespace Queue

def empty : Queue := ⟨[], 0, [], 0, []⟩

/-- Insert an event. -/
def append (s : Queue) (kind sensor : Bytes) (vmID : Option Bytes) (data : List (Bytes × Json)) :
    Queue :=
  { s with
    events := s.events ++ [⟨s.lastEventID + 1, kind, sensor, vmID, data⟩]
    lastEventID := s.lastEventID + 1 }

/-- Insert an event of the store's own stream, which is no VM's. -/
def appendSystem (s : Queue) (kind : Bytes) (data : List (Bytes × Json)) : Queue :=
  s.append kind (ascii "situation") none data

def openItems (s : Queue) : List Item := s.items.filter fun it => !it.acked

/-! ## Raising -/

inductive RaiseError where
  | incomplete
  | badSeverity
  | database

/-- A member that is there when the value is. -/
def optional (key : Bytes) (value : Option Bytes) : List (Bytes × Json) :=
  match value with
  | none => []
  | some s => [(key, .str s)]

def eventData (inp : RaiseInput) (summary : Bytes) : List (Bytes × Json) :=
  [(ascii "trigger_class", .str inp.triggerClass),
   (ascii "severity", .str inp.severity),
   (ascii "summary", .str summary),
   (ascii "system_action", .str inp.systemAction)] ++
    optional (ascii "vm_id") inp.vmID ++ optional (ascii "run_id") inp.runID

def duplicateOf (s : Queue) (inp : RaiseInput) : Option Item :=
  s.items.find? fun it => !it.acked && it.triggerClass = inp.triggerClass && it.vmID = inp.vmID

/-- Count a duplicate on the item it repeats. -/
def collapseInto (s : Queue) (inp : RaiseInput) (summary : Bytes) (existing : Item) : Queue :=
  let data := mkMap (eventData inp summary ++
    [(ascii "attention_id", .str (formatUint existing.attentionID)),
     (ascii "collapsed", .bool true)])
  let s' := s.appendSystem (ascii "attention.raised") data
  { s' with
    items := Table.modify Item.attentionID existing.attentionID
      (fun it => { it with count := it.count + 1, lastEventID := s'.lastEventID }) s.items }

def full (s : Queue) (inp : RaiseInput) : Bool :=
  0 < inp.queueMax && inp.severity ≠ ascii "critical" &&
    inp.queueMax ≤ (s.openItems.length : Int)

/-- Record that a raise was refused. -/
def overflow (s : Queue) (inp : RaiseInput) : Queue :=
  s.appendSystem (ascii "attention.queue_overflow")
    (mkMap ([(ascii "trigger_class", .str inp.triggerClass),
      (ascii "open_count", .str (formatUint s.openItems.length)),
      (ascii "queue_max", .str (formatInt inp.queueMax))] ++ optional (ascii "vm_id") inp.vmID))

def newItem (s : Queue) (inp : RaiseInput) (severity : Severity) (summary : Bytes) : Item where
  attentionID := s.lastItemID + 1
  raisedEventID := s.lastEventID + 1
  lastEventID := s.lastEventID + 1
  vmID := inp.vmID
  runID := inp.runID
  triggerClass := inp.triggerClass
  severity := severity
  summary := summary
  systemAction := inp.systemAction
  evidenceLinks := inp.evidenceLinks
  suggestedActions := inp.suggestedActions
  count := 1
  acked := false

def openItem (s : Queue) (inp : RaiseInput) (severity : Severity) (summary : Bytes) : Queue :=
  let data := mkMap (eventData inp summary ++
    [(ascii "attention_id", .str (formatUint (s.lastItemID + 1)))])
  { s.appendSystem (ascii "attention.raised") data with
    items := s.items ++ [s.newItem inp severity summary]
    lastItemID := s.lastItemID + 1 }

def readAttentionInTx (s : Queue) (attentionID : Nat) : Option Item :=
  Table.find Item.attentionID attentionID s.items

/-- The raise proper; a refused one returns no item. -/
def raiseInTx (s : Queue) (inp : RaiseInput) (severity : Severity) (summary : Bytes) :
    Queue × Option Item :=
  match if inp.collapse then s.duplicateOf inp else none with
  | some existing =>
    let s' := s.collapseInto inp summary existing
    (s', s'.readAttentionInTx existing.attentionID)
  | none =>
    if s.full inp then (s.overflow inp, none)
    else
      let s' := s.openItem inp severity summary
      (s', s'.readAttentionInTx (s.lastItemID + 1))

/-! ## Cursors -/

def readEngineCursor (s : Queue) (name : Bytes) : Nat := (s.cursors.lookup name).getD 0

/-- The cursor takes the value it is given, whatever it held. -/
def advanceCursorInTx (s : Queue) (name : Bytes) (cursor : Nat) : Queue :=
  { s with cursors := (name, cursor) :: s.cursors.filter fun c => c.1 ≠ name }

def advanceEngineCursor (s : Queue) (name : Bytes) (cursor : Nat) (dbOk : Bool) :
    Queue × Except RaiseError Unit :=
  if dbOk then (s.advanceCursorInTx name cursor, .ok ()) else (s, .error .database)

/-! ## The calls -/

variable (redact : Bytes → Bytes)

/-- One trigger firing; a failed transaction changes nothing. -/
def raiseAttention (s : Queue) (inp : RaiseInput) (dbOk : Bool) :
    Queue × Except RaiseError (Option Item) :=
  if inp.triggerClass = [] ∨ inp.summary = [] then (s, .error .incomplete)
  else
    match severityOf inp.severity with
    | none => (s, .error .badSeverity)
    | some severity =>
      if !dbOk then (s, .error .database)
      else
        let r := s.raiseInTx inp severity (redact inp.summary)
        (if inp.cursorName = [] then r.1 else r.1.advanceCursorInTx inp.cursorName inp.cursorTo,
          .ok r.2)

inductive AckError where
  | unknown
  | database

/-- Acknowledge an item; once more is success. -/
def ackAttention (s : Queue) (attentionID : Nat) (dbOk : Bool) : Queue × Except AckError Item :=
  if !dbOk then (s, .error .database)
  else
    let ack (it : Item) : Item := { it with acked := true }
    let s' := { s with items := Table.modify Item.attentionID attentionID ack s.items }
    match s.readAttentionInTx attentionID, s'.readAttentionInTx attentionID with
    | some _, some item => (s', .ok item)
    | _, _ => (s, .error .unknown)

inductive Action where
  | raise (inp : RaiseInput) (dbOk : Bool)
  | ack (attentionID : Nat) (dbOk : Bool)

def step (s : Queue) : Action → Queue
  | .raise inp dbOk => (s.raiseAttention redact inp dbOk).1
  | .ack attentionID dbOk => (s.ackAttention attentionID dbOk).1

def after (s : Queue) (as : List Action) : Queue := as.foldl (step redact) s

/-! ## What one call does -/

variable {s s' : Queue}

lemma names_raised {eventID k : Nat} {data : List (Bytes × Json)}
    (hdata : textOf data (ascii "attention_id") = some (formatUint k)) (attentionID : Nat) :
    Event.names attentionID
      ⟨eventID, ascii "attention.raised", ascii "situation", none, data⟩ =
        decide (attentionID = k) := by
  rw [Event.names, decide_eq_true rfl, Bool.true_and, hdata]
  refine decide_eq_decide.2 ⟨fun h => (formatUint_injective (Option.some.inj h)).symm, ?_⟩
  rintro rfl
  rfl

variable {a : Action} {e : Event} {existing : Item} {f : Item → Item} {inp : RaiseInput}

lemma names_of_kind (h : e.kind ≠ ascii "attention.raised") (attentionID : Nat) :
    e.names attentionID = false := by
  simp [Event.names, h]

/-- What a call does to the tables, beside the cursors. -/
inductive Effect (s s' : Queue) : Action → Prop where
  | none {a : Action} (hitems : s'.items = s.items) (hlast : s'.lastItemID = s.lastItemID)
      (hevents : s'.events = s.events) : Effect s s' a
  | acked {attentionID : Nat} {dbOk : Bool}
      (hitems : s'.items = Table.modify Item.attentionID attentionID
        (fun it => { it with acked := true }) s.items)
      (hlast : s'.lastItemID = s.lastItemID) (hevents : s'.events = s.events) :
      Effect s s' (.ack attentionID dbOk)
  | collapsed {inp : RaiseInput} {dbOk : Bool} (existing : Item) (e : Event) (lastEventID : Nat)
      (hmem : existing ∈ s.items) (hopen : existing.acked = false)
      (hitems : s'.items = Table.modify Item.attentionID existing.attentionID
        (fun it => { it with count := it.count + 1, lastEventID := lastEventID }) s.items)
      (hlast : s'.lastItemID = s.lastItemID) (hevents : s'.events = s.events ++ [e])
      (hnames : ∀ k, e.names k = decide (k = existing.attentionID)) :
      Effect s s' (.raise inp dbOk)
  | refused {inp : RaiseInput} {dbOk : Bool} (e : Event) (hitems : s'.items = s.items)
      (hlast : s'.lastItemID = s.lastItemID) (hevents : s'.events = s.events ++ [e])
      (hkind : e.kind = ascii "attention.queue_overflow") : Effect s s' (.raise inp dbOk)
  | opened {inp : RaiseInput} {dbOk : Bool} (severity : Severity) (summary : Bytes) (e : Event)
      (hfree : inp.collapse = true → s.duplicateOf inp = .none) (hroom : s.full inp = false)
      (hitems : s'.items = s.items ++ [s.newItem inp severity summary])
      (hlast : s'.lastItemID = s.lastItemID + 1) (hevents : s'.events = s.events ++ [e])
      (hnames : ∀ k, e.names k = decide (k = s.lastItemID + 1)) : Effect s s' (.raise inp dbOk)

lemma effect_collapseInto (summary : Bytes) (h : s.duplicateOf inp = some existing) (dbOk : Bool) :
    Effect s (s.collapseInto inp summary existing) (.raise inp dbOk) := by
  have hmem := mem_of_find?_eq_some h
  have hfound := List.find?_some h
  simp only [Bool.and_eq_true, Bool.not_eq_true'] at hfound
  refine .collapsed existing _ (s.lastEventID + 1) hmem hfound.1.1 rfl rfl rfl fun k => ?_
  refine names_raised ?_ k
  rw [append_cons, mkMap_append_singleton, mkMap_append_singleton, textOf,
    lookup_setKey_of_ne (by decide), lookup_setKey_self]

lemma effect_openItem (severity : Severity) (summary : Bytes)
    (hfree : inp.collapse = true → s.duplicateOf inp = none) (hroom : s.full inp = false)
    (dbOk : Bool) : Effect s (s.openItem inp severity summary) (.raise inp dbOk) := by
  refine .opened severity summary _ hfree hroom rfl rfl rfl fun k => ?_
  refine names_raised ?_ k
  rw [mkMap_append_singleton, textOf, lookup_setKey_self]

/-- The three ways a raise can go. -/
lemma effect_raiseInTx (s : Queue) (inp : RaiseInput) (severity : Severity) (summary : Bytes)
    (dbOk : Bool) : Effect s (s.raiseInTx inp severity summary).1 (.raise inp dbOk) := by
  unfold raiseInTx
  cases hdup : (if inp.collapse then s.duplicateOf inp else none) with
  | some existing =>
    have hfound : s.duplicateOf inp = some existing := by
      split at hdup
      · exact hdup
      · cases hdup
    exact effect_collapseInto summary hfound dbOk
  | none =>
    dsimp only
    by_cases hfull : s.full inp = true
    · rw [if_pos hfull]
      exact .refused _ rfl rfl rfl rfl
    · rw [if_neg hfull]
      have hroom : s.full inp = false := by simpa using hfull
      refine effect_openItem severity summary (fun hcollapse => ?_) hroom dbOk
      simpa [hcollapse] using hdup

lemma Effect.of_tables {s'' : Queue} (h : Effect s s' a) (hitems : s''.items = s'.items)
    (hlast : s''.lastItemID = s'.lastItemID) (hevents : s''.events = s'.events) :
    Effect s s'' a := by
  cases h with
  | none hi hl he => exact .none (hitems.trans hi) (hlast.trans hl) (hevents.trans he)
  | acked hi hl he => exact .acked (hitems.trans hi) (hlast.trans hl) (hevents.trans he)
  | collapsed existing e n hmem hopen hi hl he hnames =>
    exact .collapsed existing e n hmem hopen (hitems.trans hi) (hlast.trans hl) (hevents.trans he)
      hnames
  | refused e hi hl he hkind =>
    exact .refused e (hitems.trans hi) (hlast.trans hl) (hevents.trans he) hkind
  | opened severity summary e hfree hroom hi hl he hnames =>
    exact .opened severity summary e hfree hroom (hitems.trans hi) (hlast.trans hl)
      (hevents.trans he) hnames

lemma effect_raise (s : Queue) (inp : RaiseInput) (dbOk : Bool) :
    Effect s (s.raiseAttention redact inp dbOk).1 (.raise inp dbOk) := by
  unfold raiseAttention
  split
  · exact .none rfl rfl rfl
  split
  · exact .none rfl rfl rfl
  next severity _ =>
  split
  · exact .none rfl rfl rfl
  have heffect := effect_raiseInTx s inp severity (redact inp.summary) dbOk
  dsimp only
  split
  · exact heffect
  · exact heffect.of_tables rfl rfl rfl

lemma effect_ack (s : Queue) (attentionID : Nat) (dbOk : Bool) :
    Effect s (s.ackAttention attentionID dbOk).1 (.ack attentionID dbOk) := by
  unfold ackAttention
  split
  · exact .none rfl rfl rfl
  dsimp only
  split
  · exact .acked rfl rfl rfl
  · exact .none rfl rfl rfl

lemma effect_step (s : Queue) (a : Action) : Effect s (s.step redact a) a := by
  cases a with
  | raise inp dbOk => exact effect_raise redact s inp dbOk
  | ack attentionID dbOk => exact effect_ack s attentionID dbOk

/-! ## The accounts -/

/-- Items have numbers of their own, no event names an item that is yet to come, and an item counts
the events that name it. -/
structure Inv (s : Queue) : Prop where
  ids : (s.items.map Item.attentionID).Nodup
  ids_le : ∀ it ∈ s.items, it.attentionID ≤ s.lastItemID
  names_le : ∀ e ∈ s.events, ∀ k, e.names k = true → k ≤ s.lastItemID
  counted : ∀ it ∈ s.items, it.count = s.events.countP (Event.names it.attentionID)

lemma inv_empty : Inv empty where
  ids := nodup_nil
  ids_le := by simp [empty]
  names_le := by simp [empty]
  counted := by simp [empty]

lemma Inv.of_items (h : Inv s) {attentionID : Nat}
    (hitems : s'.items = Table.modify Item.attentionID attentionID f s.items)
    (hid : ∀ it, (f it).attentionID = it.attentionID) (hcount : ∀ it, (f it).count = it.count)
    (hlast : s'.lastItemID = s.lastItemID) (hevents : s'.events = s.events) : Inv s' where
  ids := by
    rw [hitems, Table.keys_modify hid]
    exact h.ids
  ids_le := by
    intro it hit
    rw [hitems] at hit
    rw [hlast]
    obtain ⟨hit, -⟩ | ⟨it₀, hit₀, -, rfl⟩ := Table.mem_modify hit
    · exact h.ids_le it hit
    · rw [hid]
      exact h.ids_le it₀ hit₀
  names_le := by
    rw [hevents, hlast]
    exact h.names_le
  counted := by
    intro it hit
    rw [hitems] at hit
    rw [hevents]
    obtain ⟨hit, -⟩ | ⟨it₀, hit₀, -, rfl⟩ := Table.mem_modify hit
    · exact h.counted it hit
    · rw [hid, hcount]
      exact h.counted it₀ hit₀

lemma countP_names (hevents : s'.events = s.events ++ [e]) (k : Nat) :
    s'.events.countP (Event.names k) =
      s.events.countP (Event.names k) + if e.names k then 1 else 0 := by
  rw [hevents, countP_append, countP_singleton]

lemma Inv.names_append (h : Inv s) (hevents : s'.events = s.events ++ [e])
    (hle : s.lastItemID ≤ s'.lastItemID) (he : ∀ k, e.names k = true → k ≤ s'.lastItemID) :
    ∀ e ∈ s'.events, ∀ k, e.names k = true → k ≤ s'.lastItemID := by
  intro e' he' k hk
  rw [hevents] at he'
  rcases mem_append.1 he' with he' | he'
  · exact (h.names_le e' he' k hk).trans hle
  · rw [mem_singleton.1 he'] at hk
    exact he k hk

lemma Inv.refused (h : Inv s) (hitems : s'.items = s.items) (hlast : s'.lastItemID = s.lastItemID)
    (hevents : s'.events = s.events ++ [e]) (hnames : ∀ k, e.names k = false) : Inv s' where
  ids := by
    rw [hitems]
    exact h.ids
  ids_le := by
    rw [hitems, hlast]
    exact h.ids_le
  names_le := h.names_append hevents hlast.ge fun k hk => by simp [hnames k] at hk
  counted := by
    intro it hit
    rw [hitems] at hit
    rw [countP_names hevents, hnames, if_neg Bool.false_ne_true, Nat.add_zero]
    exact h.counted it hit

lemma Inv.collapsed (h : Inv s) (hmem : existing ∈ s.items)
    (hitems : s'.items = Table.modify Item.attentionID existing.attentionID f s.items)
    (hid : ∀ it, (f it).attentionID = it.attentionID) (hcount : ∀ it, (f it).count = it.count + 1)
    (hlast : s'.lastItemID = s.lastItemID) (hevents : s'.events = s.events ++ [e])
    (hnames : ∀ k, e.names k = decide (k = existing.attentionID)) : Inv s' where
  ids := by
    rw [hitems, Table.keys_modify hid]
    exact h.ids
  ids_le := by
    intro it hit
    rw [hitems] at hit
    rw [hlast]
    obtain ⟨hit, -⟩ | ⟨it₀, hit₀, -, rfl⟩ := Table.mem_modify hit
    · exact h.ids_le it hit
    · rw [hid]
      exact h.ids_le it₀ hit₀
  names_le := by
    refine h.names_append hevents hlast.ge fun k hk => ?_
    rw [hnames, decide_eq_true_eq] at hk
    rw [hk, hlast]
    exact h.ids_le existing hmem
  counted := by
    intro it hit
    rw [hitems] at hit
    rw [countP_names hevents, hnames]
    obtain ⟨hit, hne⟩ | ⟨it₀, hit₀, heq, rfl⟩ := Table.mem_modify hit
    · rw [h.counted it hit]
      simp [hne]
    · rw [hid, hcount, h.counted it₀ hit₀]
      simp [heq]

lemma Inv.opened (h : Inv s) {severity : Severity} {summary : Bytes}
    (hitems : s'.items = s.items ++ [s.newItem inp severity summary])
    (hlast : s'.lastItemID = s.lastItemID + 1) (hevents : s'.events = s.events ++ [e])
    (hnames : ∀ k, e.names k = decide (k = s.lastItemID + 1)) : Inv s' where
  ids := by
    rw [hitems, map_append, map_singleton]
    refine h.ids.append (nodup_singleton _) (disjoint_singleton.2 fun hmem => ?_)
    obtain ⟨it, hit, hid⟩ := mem_map.1 hmem
    have hle := h.ids_le it hit
    have hnew : it.attentionID = s.lastItemID + 1 := hid
    omega
  ids_le := by
    intro it hit
    rw [hitems] at hit
    rcases mem_append.1 hit with hit | hit
    · have hle := h.ids_le it hit
      omega
    · rw [mem_singleton.1 hit, hlast]
      exact le_rfl
  names_le := by
    refine h.names_append hevents (by omega) fun k hk => ?_
    rw [hnames, decide_eq_true_eq] at hk
    omega
  counted := by
    intro it hit
    rw [hitems] at hit
    rw [countP_names hevents, hnames]
    rcases mem_append.1 hit with hit | hit
    · have hne : it.attentionID ≠ s.lastItemID + 1 := by
        have hle := h.ids_le it hit
        omega
      rw [h.counted it hit]
      simp [hne]
    · -- nothing named the item before it was there
      rw [mem_singleton.1 hit]
      have hfresh : s.events.countP (Event.names (s.lastItemID + 1)) = 0 := by
        refine countP_eq_zero.2 fun e' he' hk => ?_
        have hle := h.names_le e' he' _ hk
        omega
      simp [newItem, hfresh]

lemma Inv.effect (h : Inv s) (heffect : Effect s s' a) : Inv s' := by
  cases heffect with
  | none hitems hlast hevents =>
    refine ⟨?_, ?_, ?_, ?_⟩
    · rw [hitems]
      exact h.ids
    · rw [hitems, hlast]
      exact h.ids_le
    · rw [hevents, hlast]
      exact h.names_le
    · rw [hitems, hevents]
      exact h.counted
  | acked hitems hlast hevents =>
    exact h.of_items hitems (fun _ => rfl) (fun _ => rfl) hlast hevents
  | collapsed existing e lastEventID hmem _ hitems hlast hevents hnames =>
    exact h.collapsed hmem hitems (fun _ => rfl) (fun _ => rfl) hlast hevents hnames
  | refused e hitems hlast hevents hkind =>
    exact h.refused hitems hlast hevents (names_of_kind (by rw [hkind]; decide))
  | opened severity summary e _ _ hitems hlast hevents hnames =>
    exact h.opened hitems hlast hevents hnames

lemma inv_after (as : List Action) : Inv (empty.after redact as) := by
  unfold after
  exact List.foldlRecOn as _ inv_empty fun s h a _ => h.effect (effect_step redact s a)

/-! ## Duplicates -/

def Single (s : Queue) : Prop :=
  ∀ it ∈ s.items, ∀ it' ∈ s.items, it.acked = false → it'.acked = false →
    it.triggerClass = it'.triggerClass → it.vmID = it'.vmID → it = it'

/-- Items that are not opened again, and keep what a duplicate is told by. -/
lemma Single.of_items (h : Single s) {attentionID : Nat}
    (hitems : s'.items = Table.modify Item.attentionID attentionID f s.items)
    (hacked : ∀ it, it.acked = true → (f it).acked = true)
    (hclass : ∀ it, (f it).triggerClass = it.triggerClass) (hvm : ∀ it, (f it).vmID = it.vmID) :
    Single s' := by
  -- an item of the new table comes from an item of the old one, open if it is
  have hfrom : ∀ it ∈ s'.items, it.acked = false → ∃ it₀ ∈ s.items, it₀.acked = false ∧
      it₀.triggerClass = it.triggerClass ∧ it₀.vmID = it.vmID ∧
        it = if it₀.attentionID = attentionID then f it₀ else it₀ := by
    intro it hit hopen
    rw [hitems] at hit
    obtain ⟨hit, hne⟩ | ⟨it₀, hit₀, heq, rfl⟩ := Table.mem_modify hit
    · exact ⟨it, hit, hopen, rfl, rfl, (if_neg hne).symm⟩
    · refine ⟨it₀, hit₀, ?_, (hclass it₀).symm, (hvm it₀).symm, (if_pos heq).symm⟩
      by_contra hacked₀
      rw [hacked it₀ (by simpa using hacked₀)] at hopen
      cases hopen
  intro it hit it' hit' hopen hopen' hc hv
  obtain ⟨it₀, hit₀, hopen₀, hc₀, hv₀, rfl⟩ := hfrom it hit hopen
  obtain ⟨it₁, hit₁, hopen₁, hc₁, hv₁, rfl⟩ := hfrom it' hit' hopen'
  rw [h it₀ hit₀ it₁ hit₁ hopen₀ hopen₁ (by rw [hc₀, hc, hc₁]) (by rw [hv₀, hv, hv₁])]

lemma duplicateOf_eq_none (h : s.duplicateOf inp = none) :
    ∀ it ∈ s.items, it.acked = false → it.triggerClass = inp.triggerClass →
      it.vmID ≠ inp.vmID := by
  intro it hit hopen hclass hvm
  have hnot := List.find?_eq_none.1 h it hit
  simp [hopen, hclass, hvm] at hnot

/-- The raises of a sequence collapse. -/
def Action.collapses : Action → Bool
  | .raise inp _ => inp.collapse
  | .ack _ _ => true

lemma Single.effect (h : Single s) (ha : a.collapses = true) (heffect : Effect s s' a) :
    Single s' := by
  cases heffect with
  | none hitems | refused e hitems =>
    unfold Single
    rw [hitems]
    exact h
  | acked hitems =>
    exact h.of_items hitems (fun _ _ => rfl) (fun _ => rfl) (fun _ => rfl)
  | collapsed existing e lastEventID _ _ hitems =>
    exact h.of_items hitems (fun _ hacked => hacked) (fun _ => rfl) (fun _ => rfl)
  | opened severity summary e hfree _ hitems =>
    have hnone := duplicateOf_eq_none (hfree ha)
    intro it hit it' hit' hopen hopen' hc hv
    rw [hitems] at hit hit'
    rcases mem_append.1 hit with hit | hit <;> rcases mem_append.1 hit' with hit' | hit'
    · exact h it hit it' hit' hopen hopen' hc hv
    · rw [mem_singleton.1 hit'] at hc hv
      exact absurd hv (hnone it hit hopen hc)
    · rw [mem_singleton.1 hit] at hc hv
      exact absurd hv.symm (hnone it' hit' hopen' hc.symm)
    · rw [mem_singleton.1 hit, mem_singleton.1 hit']

lemma single_after {as : List Action} (has : ∀ a ∈ as, a.collapses = true) :
    Single (empty.after redact as) := by
  unfold after
  have hempty : Single empty := by
    intro it hit
    cases hit
  exact List.foldlRecOn as _ hempty fun s h a ha => h.effect (has a ha) (effect_step redact s a)

/-! ## The bound -/

lemma length_openItems (s : Queue) : s.openItems.length = s.items.countP fun it => !it.acked :=
  countP_eq_length_filter.symm

lemma openItems_raise {dbOk : Bool} (heffect : Effect s s' (.raise inp dbOk))
    (hseverity : inp.severity ≠ ascii "critical") (hmax : 0 < inp.queueMax)
    (hmore : s.openItems.length < s'.openItems.length) :
    (s'.openItems.length : Int) ≤ inp.queueMax := by
  rw [length_openItems, length_openItems] at hmore
  cases heffect with
  | none hitems | refused e hitems =>
    rw [hitems] at hmore
    exact absurd hmore (lt_irrefl _)
  | collapsed existing e lastEventID _ _ hitems =>
    have hsame : s'.items.countP (fun it => !it.acked) = s.items.countP fun it => !it.acked := by
      rw [hitems, Table.modify, countP_map]
      refine countP_congr fun it _ => ?_
      by_cases hid : it.attentionID = existing.attentionID <;> simp [hid]
    omega
  | opened severity summary e _ hroom hitems =>
    have hone : s'.openItems.length = s.openItems.length + 1 := by
      rw [length_openItems, length_openItems, hitems, countP_append, countP_singleton]
      rfl
    have hbelow : (s.openItems.length : Int) < inp.queueMax := by
      simpa [full, hmax, hseverity] using hroom
    omega

/-! ## Acknowledged items -/

lemma Inv.acked_effect (h : Inv s) (heffect : Effect s s' a) {it : Item} (hit : it ∈ s.items)
    (hacked : it.acked = true) : it ∈ s'.items := by
  cases heffect with
  | none hitems | refused e hitems => rwa [hitems]
  | acked hitems =>
    rw [hitems]
    refine mem_map.2 ⟨it, hit, ?_⟩
    split
    · rw [← hacked]
    · rfl
  | collapsed existing e lastEventID hmem hopen hitems =>
    -- the item collapsed into is open, so it is another one
    have hne : it.attentionID ≠ existing.attentionID := by
      intro hid
      rw [inj_on_of_nodup_map h.ids hit hmem hid, hopen] at hacked
      cases hacked
    rw [hitems]
    exact mem_map.2 ⟨it, hit, if_neg hne⟩
  | opened severity summary e _ _ hitems =>
    rw [hitems]
    exact mem_append_left _ hit

lemma Inv.acked_after (h : Inv s) {it : Item} (hit : it ∈ s.items) (hacked : it.acked = true)
    (bs : List Action) : Inv (s.after redact bs) ∧ it ∈ (s.after redact bs).items := by
  unfold after
  refine List.foldlRecOn (motive := fun t => Inv t ∧ it ∈ t.items) bs _ ⟨h, hit⟩ ?_
  intro t ht a _
  have heffect := effect_step redact t a
  exact ⟨ht.1.effect heffect, ht.1.acked_effect heffect ht.2 hacked⟩

/-! ## Refusals -/

lemma readAttentionInTx_collapseInto (hmem : existing ∈ s.items) (inp : RaiseInput)
    (summary : Bytes) :
    (s.collapseInto inp summary existing).readAttentionInTx existing.attentionID ≠ none := by
  intro hnone
  refine Table.find_eq_none.1 hnone _ (mem_map_of_mem hmem) ?_
  rw [if_pos rfl]

lemma raiseInTx_refused {severity : Severity} {summary : Bytes}
    (h : (s.raiseInTx inp severity summary).2 = none) :
    (s.raiseInTx inp severity summary).1 = s.overflow inp := by
  unfold raiseInTx at h ⊢
  cases hdup : (if inp.collapse then s.duplicateOf inp else none) with
  | some existing =>
    have hmem : existing ∈ s.items := by
      split at hdup
      · exact mem_of_find?_eq_some hdup
      · cases hdup
    rw [hdup] at h
    exact absurd h (readAttentionInTx_collapseInto hmem inp summary)
  | none =>
    rw [hdup] at h
    dsimp only at h ⊢
    by_cases hfull : s.full inp = true
    · rw [if_pos hfull]
    · rw [if_neg hfull] at h
      have hnew := Table.find_eq_none.1 h (s.newItem inp severity summary)
        (mem_append_right _ mem_cons_self)
      exact absurd rfl hnew

lemma raiseAttention_refused {dbOk : Bool} (h : (s.raiseAttention redact inp dbOk).2 = .ok none) :
    (s.raiseAttention redact inp dbOk).1.items = s.items ∧
      ∃ e, (s.raiseAttention redact inp dbOk).1.events = s.events ++ [e] ∧
        e.kind = ascii "attention.queue_overflow" := by
  unfold raiseAttention at h ⊢
  by_cases hcomplete : inp.triggerClass = [] ∨ inp.summary = []
  · simp [hcomplete] at h
  rw [if_neg hcomplete] at h ⊢
  cases hseverity : severityOf inp.severity with
  | none => simp [hseverity] at h
  | some severity =>
    cases dbOk with
    | false => simp [hseverity] at h
    | true =>
      simp only [hseverity, Bool.not_true, Bool.false_eq_true, if_false, Except.ok.injEq] at h ⊢
      rw [raiseInTx_refused h]
      split
      · exact ⟨rfl, _, rfl, rfl⟩
      · exact ⟨rfl, _, rfl, rfl⟩

/-! ## The queue -/

/-- **The accounts of the attention queue.**  After any sequence of raises and acknowledgements an
item's count is the number of `attention.raised` events that name it; if every raise collapses,
a class and VM have at most one open item; a raise that is not critical never opens an item past
a positive bound; a refused raise adds one overflow event and no item; and an item that is
acknowledged stays so, and unchanged, whatever is called afterwards. -/
theorem queue_accounting (as : List Action) :
    let s := empty.after redact as
    (∀ it ∈ s.items, it.count = s.events.countP (Event.names it.attentionID)) ∧
    ((∀ a ∈ as, a.collapses = true) → Single s) ∧
    (∀ inp dbOk, inp.severity ≠ ascii "critical" → 0 < inp.queueMax →
      let t := (s.raiseAttention redact inp dbOk).1
      s.openItems.length < t.openItems.length → (t.openItems.length : Int) ≤ inp.queueMax) ∧
    (∀ inp dbOk, (s.raiseAttention redact inp dbOk).2 = .ok none →
      let t := (s.raiseAttention redact inp dbOk).1
      t.items = s.items ∧
        ∃ e, t.events = s.events ++ [e] ∧ e.kind = ascii "attention.queue_overflow") ∧
    ∀ it ∈ s.items, it.acked = true → ∀ bs, it ∈ (s.after redact bs).items ∧
      ∀ it' ∈ (s.after redact bs).items, it'.attentionID = it.attentionID → it' = it := by
  intro s
  have hinv : Inv s := inv_after redact as
  refine ⟨hinv.counted, single_after redact, ?_, ?_, ?_⟩
  · intro inp dbOk hseverity hmax t hmore
    exact openItems_raise (effect_raise redact s inp dbOk) hseverity hmax hmore
  · intro inp dbOk hrefused
    exact raiseAttention_refused redact hrefused
  · intro it hit hacked bs
    obtain ⟨hinv', hit'⟩ := hinv.acked_after redact hit hacked bs
    refine ⟨hit', fun it' hmem hid => ?_⟩
    exact inj_on_of_nodup_map hinv'.ids hmem hit' hid

/-- A raise of the class `telemetry_degraded` on no VM, which collapses, with room for one item. -/
def sampleRaise (severity : String) : RaiseInput where
  triggerClass := ascii "telemetry_degraded"
  severity := ascii severity
  vmID := none
  runID := none
  summary := ascii "telemetry loss"
  systemAction := ascii "recorded the loss"
  evidenceLinks := []
  suggestedActions := []
  collapse := true
  queueMax := 1
  cursorName := []
  cursorTo := 0

/-- Two raises that collapse, an acknowledgement, and a third raise beside the acknowledged item. -/
theorem queue_accounting_acknowledged :
    ((empty.after id [.raise (sampleRaise "info") true, .raise (sampleRaise "info") true,
        .ack 1 true, .raise (sampleRaise "critical") true]).items.map fun it =>
          (it.attentionID, it.count, it.acked)) = [(1, 2, true), (2, 1, false)] ∧
      Single (empty.after id [.raise (sampleRaise "info") true, .raise (sampleRaise "info") true,
        .ack 1 true, .raise (sampleRaise "critical") true]) := by
  refine ⟨by decide +kernel, (queue_accounting id _).2.1 ?_⟩
  decide +kernel

end Queue

end Observatory.Store.Attention
