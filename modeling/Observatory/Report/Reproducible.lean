/-
# The same report at any later time

A report reads the events of a closed window, the row of a run that is concluded and the profile
of its VM; none of these change any more, whatever else is written. It also reads the attention
items of the run, and those do: an item that is listed can be acknowledged, and an item that names
the run can be raised after the run was concluded.
-/
import Observatory.Report.Counts
import Observatory.Report.Writes

namespace Observatory.Report

open Lib Events Store List
open Store.Attention (Item Severity Queue RaiseInput)

variable {H : Type} {conv : FloatText} {dataVM : Bytes → Option Bytes}

/-! ## The window -/

lemma parseCursor_formatUint_eq {absent i : Int} {n : Nat}
    (h : parseCursor absent (formatUint n) = .ok i) : i = n := by
  have hne := formatUint_ne_nil n
  have hvalue := natOfDigits_formatUint n
  have hdigits := all_isDigit_formatUint n
  unfold parseCursor at h
  rw [if_neg hne, decimalString, isDecimal_formatUint, Bool.not_true,
    if_neg Bool.false_ne_true] at h
  cases hd : formatUint n with
  | nil => exact absurd hd hne
  | cons b ds =>
    rw [hd] at h hvalue hdigits
    have hsign : b ≠ 0x2D := by
      rintro rfl
      simp [isDigit] at hdigits
    rw [parseInt64, if_neg hsign, hvalue] at h
    split at h
    · cases h
    · next m hm =>
      cases h
      split at hm
      · exact (Option.some.inj hm).symm
      · cases hm

/-- The upper bound of a query is the number it is given as. -/
lemma upTo_of_check {q : Query} {c : Query.Checked} (h : q.check = .ok c) {upTo : Nat}
    (hq : q.upTo = formatUint upTo) : c.upTo = upTo := by
  have hparse := (Query.check_resume h).2.2.1
  rw [hq] at hparse
  exact parseCursor_formatUint_eq hparse

section grown

variable {s t : Store H} (ht : Log.Ordered Event.eventID t.events) (hpre : s.events <+: t.events)
  {upTo : Nat} (hupTo : ∃ e ∈ s.events, e.eventID = upTo)

include ht hpre hupTo

lemma count_of_grown (vmID family : Bytes) (after : Nat) :
    countEventsForReport dataVM t vmID family after upTo =
      countEventsForReport dataVM s vmID family after upTo := by
  unfold countEventsForReport
  dsimp only
  split
  · rfl
  · congr 1
    refine filter_of_grown ht hpre hupTo fun e he => ?_
    simp only [Bool.and_eq_true, decide_eq_true_eq] at he
    exact he.1.1.2

/-- A query that is bounded by the window has the same page. -/
lemma query_of_grown {q : Query} (hq : q.upTo = formatUint upTo) :
    (t.query conv dataVM q).map (fun r => (r.events, r.nextAfter)) =
      (s.query conv dataVM q).map fun r => (r.events, r.nextAfter) := by
  unfold Store.query
  cases hc : q.check with
  | error e => rfl
  | ok c =>
    have hbound := upTo_of_check hc hq
    have hrows : t.events.filter (q.selects dataVM c) = s.events.filter (q.selects dataVM c) := by
      refine filter_of_grown ht hpre hupTo fun e he => ?_
      simp only [Query.selects, Bool.and_eq_true, Bool.or_eq_true, decide_eq_true_eq] at he
      omega
    dsimp only
    rw [hrows]
    cases readRows conv (if q.tail = true then
        (s.events.filter (q.selects dataVM c)).reverse.take c.limit
      else (s.events.filter (q.selects dataVM c)).take c.limit) with
    | error e | ok envs => rfl

lemma bootPages_of_grown (n : Nat) {q : Query} (hq : q.upTo = formatUint upTo)
    (ids : List Bytes) : bootPages conv dataVM t n q ids = bootPages conv dataVM s n q ids := by
  induction n generalizing q ids with
  | zero => rfl
  | succ n ih =>
    have hpage : (t.query conv dataVM q).map (fun r => (r.events, r.nextAfter)) =
        (s.query conv dataVM q).map fun r => (r.events, r.nextAfter) :=
      query_of_grown ht hpre hupTo hq
    rw [bootPages, bootPages]
    cases hqt : t.query conv dataVM q with
    | error e =>
      cases hqs : s.query conv dataVM q with
      | error e' =>
        rw [hqt, hqs] at hpage
        cases hpage
        rfl
      | ok r' =>
        rw [hqt, hqs] at hpage
        cases hpage
    | ok r =>
      cases hqs : s.query conv dataVM q with
      | error e' =>
        rw [hqt, hqs] at hpage
        cases hpage
      | ok r' =>
        rw [hqt, hqs] at hpage
        obtain ⟨hevents, hnext⟩ := Prod.mk.inj (Except.ok.inj hpage)
        dsimp only
        rw [hevents, hnext]
        split
        · rfl
        · exact ih (q := { q with after := r'.nextAfter }) hq _

lemma collectBootIDs_of_grown (vmID : Bytes) (after : Nat) :
    collectBootIDs conv dataVM t vmID after upTo =
      collectBootIDs conv dataVM s vmID after upTo := by
  have hlength : (Log.between Event.eventID after upTo t.events).length =
      (Log.between Event.eventID after upTo s.events).length := by
    have hwindow := between_of_grown ht hpre hupTo after fun _ => true
    rw [filter_true, filter_true] at hwindow
    rw [hwindow]
  rw [collectBootIDs, collectBootIDs, hlength]
  exact bootPages_of_grown ht hpre hupTo _ rfl []

end grown

/-! ## The attention of a run -/

/-- What a report says of an item. -/
def attentionRow (it : Item) : AttentionRow where
  attentionID := formatUint it.attentionID
  kind := it.triggerClass
  severity := severityName it.severity
  acked := it.acked
  link := ascii "/api/v1/attention/" ++ formatUint it.attentionID

/-- What a report says of the items of a run, were there no bound. -/
def attentionRows (items : List Item) (run : RunRecord) : List AttentionRow :=
  items.filterMap fun it => if relevant run it then some (attentionRow it) else none

lemma attentionRows_eq (items : List Item) (run : RunRecord) :
    attentionRows items run = (items.filter (relevant run)).map attentionRow := by
  induction items with
  | nil => rfl
  | cons it items ih =>
    rw [attentionRows, filterMap_cons, filter_cons]
    split <;> simp_all [attentionRows]

lemma collectAttention_eq (items : List Item) (run : RunRecord) :
    collectAttention items run = (((attentionRows items run).take 129).take 128,
      decide (128 < ((attentionRows items run).take 129).length)) := by
  rw [attentionRows_eq, ← map_take, ← map_take, length_map]
  rfl

/-- Items that change in nothing a report is made from. -/
lemma attentionRows_modify {run : RunRecord} {items : List Item} {attentionID : Nat}
    {f : Item → Item}
    (hf : ∀ it ∈ items, it.attentionID = attentionID → relevant run (f it) = relevant run it ∧
      (relevant run it = true → attentionRow (f it) = attentionRow it)) :
    attentionRows (Table.modify Item.attentionID attentionID f items) run =
      attentionRows items run := by
  rw [attentionRows, Table.modify, filterMap_map]
  refine filterMap_congr fun it hit => ?_
  by_cases hid : it.attentionID = attentionID
  · obtain ⟨hrelevant, hrow⟩ := hf it hit hid
    rw [Function.comp_apply, if_pos hid, hrelevant]
    split
    · next h => rw [hrow h]
    · rfl
  · rw [Function.comp_apply, if_neg hid]

lemma attentionRows_append {run : RunRecord} {it : Item} (h : relevant run it = false)
    (items : List Item) : attentionRows (items ++ [it]) run = attentionRows items run := by
  rw [attentionRows, filterMap_append, filterMap_cons, h, if_neg Bool.false_ne_true,
    filterMap_nil, append_nil, attentionRows]

/-! ## The text of a report -/

lemma encode_of_encodeMembers (front back : List (Bytes × Json)) (key : Bytes) {x y : Json}
    (h : Json.encodeMoreMembers (front ++ (key, x) :: back) =
      Json.encodeMoreMembers (front ++ (key, y) :: back)) : x.encode = y.encode := by
  induction front with
  | nil => exact append_cancel_right (cons.inj (append_cancel_left (cons.inj h).2)).2
  | cons m front ih => exact ih (append_cancel_left (cons.inj (append_cancel_left (cons.inj h).2)).2)

lemma attention_of_marshal {r : RunReport} {rows : List AttentionRow}
    (h : r.marshal = { r with attention := rows }.marshal) :
    (Json.arr (r.attention.map AttentionRow.json)).encode =
      (Json.arr (rows.map AttentionRow.json)).encode :=
  encode_of_encodeMembers (r.members.take 14) (r.members.drop 15) (ascii "attention")
    (congrArg (cons 0x2C) (cons.inj h).2)

lemma assemble_items {a b : Archive H} {run : RunRecord} {profile : Bytes} {bootIDs : List Bytes}
    (hstore : b.store = a.store)
    (htruncated : (collectAttention b.items run).2 = (collectAttention a.items run).2) :
    assemble dataVM b run profile bootIDs = { assemble dataVM a run profile bootIDs with
      attention := (collectAttention b.items run).1 } := by
  simp only [assemble, hstore, htruncated]

/-! ## Sound archives -/

namespace Archive

/-- A row of the runs table: its VM is known, and it stands on events. -/
structure Filed (a : Archive H) (run : RunRecord) : Prop where
  vm : (a.profiles.lookup run.vmID).isSome = true
  created : 0 < run.createdEventID ∧ run.createdEventID ≤ a.store.lastID
  concluded : run.phase.terminal = true → run.createdEventID ≤ run.concludedEventID ∧
    ∃ e ∈ a.store.events, e.eventID = run.concludedEventID

variable {a a' : Archive H} {runID : Bytes}

lemma Filed.mono {run : RunRecord} (h : Filed a run) (hadded : Added a.store a'.store)
    (hprofiles : ∀ vmID, (a.profiles.lookup vmID).isSome = true →
      (a'.profiles.lookup vmID).isSome = true) : Filed a' run where
  vm := hprofiles _ h.vm
  created := ⟨h.created.1, h.created.2.trans hadded.lastID⟩
  concluded := by
    intro hterminal
    obtain ⟨hle, e, he, hid⟩ := h.concluded hterminal
    exact ⟨hle, e, hadded.events.subset he, hid⟩

structure Sound (a : Archive H) : Prop where
  numbered : Numbered a.store
  runIDs : (a.runs.map RunRecord.runID).Nodup
  uuids : ∀ p ∈ a.profiles, uuidString p.1 = true
  rows : ∀ run ∈ a.runs, Filed a run

lemma sound_new (instanceID : Bytes) : (new H instanceID).Sound where
  numbered := ⟨List.Pairwise.nil, by simp [new, Store.new]⟩
  runIDs := nodup_nil
  uuids := by simp [new]
  rows := by simp [new]

lemma Sound.concluded (h : a.Sound) {run : RunRecord} (hfound : a.getRun runID = some run)
    (hphase : run.phase.terminal = true) :
    Concluded a runID run := by
  have hfiled := h.rows run (Table.mem_of_find hfound).1
  obtain ⟨hle, hevent⟩ := hfiled.concluded hphase
  obtain ⟨profile, hprofile⟩ := Option.isSome_iff_exists.1 hfiled.vm
  obtain ⟨l₁, l₂, hprofiles, -⟩ := lookup_eq_some_iff.1 hprofile
  exact
    { found := hfound
      phase := hphase
      vmID := h.uuids (run.vmID, profile) (by simp [hprofiles])
      vm := hfiled.vm
      order := ⟨hfiled.created.1, hle⟩
      event := hevent }

lemma lookup_append {profiles added : List (Bytes × Bytes)} {vmID : Bytes}
    (h : (profiles.lookup vmID).isSome = true) :
    (profiles ++ added).lookup vmID = profiles.lookup vmID := by
  rw [List.lookup_append, Option.or_of_isSome h]

lemma Sound.changed {x : Action} (h : a.Sound) (hadded : Added a.store a'.store)
    (hchanged : Changed a a' x) : a'.Sound := by
  have hnumbered := hadded.numbered h.numbered
  -- the runs and the VMs are those of before
  have hsame (hruns : a'.runs = a.runs) (hprofiles : a'.profiles = a.profiles) : a'.Sound :=
    { numbered := hnumbered
      runIDs := hruns ▸ h.runIDs
      uuids := hprofiles ▸ h.uuids
      rows := fun run hrun =>
        (h.rows run (hruns ▸ hrun)).mono hadded fun vmID hvm => by rw [hprofiles]; exact hvm }
  cases hchanged with
  | none ha | raised q heffect ha | acked q heffect ha => exact hsame (by rw [ha]) (by rw [ha])
  | vm vmID profile huuid hfresh ha =>
    have hruns := congrArg runs ha
    have hprofiles := congrArg profiles ha
    refine ⟨hnumbered, hruns ▸ h.runIDs, fun p hp => ?_, fun run hrun => ?_⟩
    · rw [hprofiles] at hp
      rcases mem_append.1 hp with hp | hp
      · exact h.uuids p hp
      · rw [mem_singleton.1 hp]
        exact huuid
    · refine (h.rows run (hruns ▸ hrun)).mono hadded fun vmID hvm => ?_
      rw [hprofiles, lookup_append hvm]
      exact hvm
  | created run hfresh hvm hphase hid ha =>
    have hruns := congrArg runs ha
    have hprofiles := congrArg profiles ha
    refine ⟨hnumbered, ?_, hprofiles ▸ h.uuids, fun r hr => ?_⟩
    · rw [hruns]
      exact Table.keys_insert h.runIDs (Table.insert_eq_some.2 ⟨hfresh, rfl⟩)
    · rw [hruns] at hr
      rcases mem_append.1 hr with hr | hr
      · exact (h.rows r hr).mono hadded fun vmID hvm => by rw [hprofiles]; exact hvm
      · rw [mem_singleton.1 hr]
        refine ⟨by rw [hprofiles]; exact hvm, hid, fun hterminal => ?_⟩
        rw [hphase] at hterminal
        cases hterminal
  | moved run f hfound hphase hf hterminal ha =>
    have hruns := congrArg runs ha
    have hprofiles := congrArg profiles ha
    refine ⟨hnumbered, ?_, hprofiles ▸ h.uuids, fun r hr => ?_⟩
    · rw [hruns, Table.keys_modify fun r => (hf r).1]
      exact h.runIDs
    · have hkept : ∀ r ∈ a.runs, Filed a' r := fun r hr =>
        (h.rows r hr).mono hadded fun vmID hvm => by rw [hprofiles]; exact hvm
      rw [hruns] at hr
      obtain ⟨hr, -⟩ | ⟨r₀, hr₀, hid, rfl⟩ := Table.mem_modify hr
      · exact hkept r hr
      · obtain ⟨hmem, -⟩ := Table.mem_of_find hfound
        obtain rfl := inj_on_of_nodup_map h.runIDs hr₀ hmem hid
        have hold := hkept r₀ hr₀
        obtain ⟨-, hvm, hcreated⟩ := hf r₀
        refine ⟨hvm ▸ hold.vm, hcreated ▸ hold.created, fun hdone => ?_⟩
        obtain ⟨hlater, hevent⟩ := hterminal hdone
        have hbefore := (h.rows r₀ hr₀).created.2
        exact ⟨by omega, hevent⟩

/-! ## The same report -/

/-- Two archives agree on what the report of a run is made from. -/
structure Agree (run : RunRecord) (a b : Archive H) : Prop where
  found : b.getRun run.runID = a.getRun run.runID
  profile : b.profiles.lookup run.vmID = a.profiles.lookup run.vmID
  events : a.store.events <+: b.store.events
  attention : attentionRows b.items run = attentionRows a.items run

lemma Agree.trans {run : RunRecord} {b c : Archive H} (h : Agree run a b) (h' : Agree run b c) :
    Agree run a c where
  found := h'.found.trans h.found
  profile := h'.profile.trans h.profile
  events := h.events.trans h'.events
  attention := h'.attention.trans h.attention

lemma Agree.generate_eq {run : RunRecord} {b : Archive H} (h : Agree run a b)
    (hrun : Concluded a runID run) (hb : Log.Ordered Event.eventID b.store.events) :
    generate conv dataVM b runID = generate conv dataVM a runID := by
  cases runID_of_getRun hrun.found
  have hassemble (profile : Bytes) (bootIDs : List Bytes) :
      assemble dataVM b run profile bootIDs = assemble dataVM a run profile bootIDs := by
    have hcount (family : Bytes) : countFamily dataVM b.store run.vmID family run.createdEventID
        run.concludedEventID = countFamily dataVM a.store run.vmID family run.createdEventID
          run.concludedEventID := by
      rw [countFamily, countFamily, count_of_grown hb h.events hrun.event]
    have hattention : collectAttention b.items run = collectAttention a.items run := by
      rw [collectAttention_eq, collectAttention_eq, h.attention]
    simp only [assemble, buildEventRollup, hcount, hattention]
  have hboot : collectBootIDs conv dataVM b.store run.vmID run.createdEventID
      run.concludedEventID = collectBootIDs conv dataVM a.store run.vmID run.createdEventID
        run.concludedEventID := collectBootIDs_of_grown hb h.events hrun.event _ _
  simp only [generate, h.found, hrun.found, h.profile, hboot, hassemble]

/-- The call raises no item that names the run and acknowledges no open item of the run. -/
def leaves (run : RunRecord) (a : Archive H) : Action → Bool
  | .raiseAttention _ inp => inp.runID ≠ some run.runID
  | .ackAttention _ attentionID =>
    a.items.all fun it => it.attentionID ≠ attentionID || it.acked || !relevant run it
  | _ => true

lemma attentionRows_ackAttention {run : RunRecord} {tx : Tx} {attentionID : Nat} {q : Queue}
    (heffect : Attention.Queue.Effect a.queue q (.ack attentionID tx.dbOk))
    (hleaves : leaves run a (.ackAttention tx attentionID) = true) :
    attentionRows q.items run = attentionRows a.items run := by
  cases heffect with
  | none hitems => exact congrArg (attentionRows · run) hitems
  | acked hitems =>
    rw [hitems]
    refine attentionRows_modify fun it hit hid => ⟨rfl, fun hrelevant => ?_⟩
    have hacked := all_eq_true.1 hleaves it hit
    simp only [hid, hrelevant, ne_eq, not_true_eq_false, decide_false, Bool.not_true,
      Bool.or_false, Bool.false_or] at hacked
    simp [attentionRow, hacked]

/-- A raise leaves the items of a concluded run alone: what it opens is newer than the window. -/
lemma attentionRows_raiseAttention {run : RunRecord} (h : a.Sound) (hrun : Concluded a runID run)
    {tx : Tx} {inp : RaiseInput} {q : Queue}
    (heffect : Attention.Queue.Effect a.queue q (.raise inp tx.dbOk))
    (hleaves : leaves run a (.raiseAttention tx inp) = true) :
    attentionRows q.items run = attentionRows a.items run := by
  cases heffect with
  | none hitems | refused e hitems => exact congrArg (attentionRows · run) hitems
  | collapsed existing e lastEventID hmem hopen hitems =>
    rw [hitems]
    exact attentionRows_modify fun it _ _ => ⟨rfl, fun _ => rfl⟩
  | opened severity summary e hfree hroom hitems =>
    rw [hitems]
    refine attentionRows_append ?_ _
    obtain ⟨e', he', hid⟩ := hrun.event
    have hlast := h.numbered.ids_le e' he'
    have hnames : inp.runID ≠ some run.runID := by simpa [leaves] using hleaves
    have hnewer : ¬ a.queue.lastEventID + 1 ≤ run.concludedEventID := by
      simp only [queue]
      omega
    simp [relevant, Attention.Queue.newItem, hnames, hnewer]

variable [DecidableEq H] {hash : Bytes → H} {redact : Bytes → Bytes}

/-- One call. -/
lemma agree_step {x : Action} (h : a.Sound) {run : RunRecord} (hrun : Concluded a runID run)
    (hleaves : leaves run a x = true) (hstep : a.step hash redact x = some a') :
    a'.Sound ∧ Agree run a a' := by
  obtain ⟨hadded, hchanged⟩ := changed_step hash redact hstep
  refine ⟨h.changed hadded hchanged, ?_⟩
  cases runID_of_getRun hrun.found
  cases hchanged with
  | none ha => exact ⟨by rw [ha]; rfl, by rw [ha], hadded.events, by rw [ha]⟩
  | vm vmID profile huuid hfresh ha =>
    refine ⟨by rw [ha]; rfl, ?_, hadded.events, by rw [ha]⟩
    rw [ha]
    exact lookup_append hrun.vm
  | created r hfresh hvm hphase hid ha =>
    refine ⟨?_, by rw [ha], hadded.events, by rw [ha]⟩
    rw [ha]
    show Table.find RunRecord.runID run.runID (a.runs ++ [r]) = a.getRun run.runID
    have hfound : Table.find RunRecord.runID run.runID a.runs = some run := hrun.found
    rw [Table.find_append_singleton, hfound, hrun.found, Option.some_or]
  | moved r f hfound hphase hf hterminal ha =>
    refine ⟨?_, by rw [ha], hadded.events, by rw [ha]⟩
    rw [ha]
    refine Table.find_modify_of_ne (fun r => (hf r).1) fun hid => ?_
    -- the row would be the concluded run's own
    rw [← hid, hrun.found] at hfound
    cases Option.some.inj hfound
    rw [hrun.phase] at hphase
    cases hphase
  | raised q heffect ha =>
    have hitems := attentionRows_raiseAttention h hrun heffect hleaves
    exact ⟨by rw [ha]; rfl, by rw [ha], hadded.events, by rw [ha]; exact hitems⟩
  | acked q heffect ha =>
    have hitems := attentionRows_ackAttention heffect hleaves
    exact ⟨by rw [ha]; rfl, by rw [ha], hadded.events, by rw [ha]; exact hitems⟩

lemma sound_run {as : List Action} {instanceID : Bytes}
    (h : run (step hash redact) (new H instanceID) as = some a) : a.Sound :=
  run_preserves (fun s x s' hs hstep => by
    obtain ⟨hadded, hchanged⟩ := changed_step hash redact hstep
    exact hs.changed hadded hchanged) (sound_new instanceID) h

/-- **Reports can be reproduced.**  Once a run is concluded, its report has the same text at any two
later times between which no item that names the run is raised and no open item of the run is
acknowledged, whatever else is written. -/
theorem reports_reproducible {instanceID : Bytes} {as bs : List Action} {a b : Archive H}
    (ha : Lib.run (step hash redact) (new H instanceID) as = some a) {runID : Bytes}
    {run : RunRecord} (hfound : a.getRun runID = some run) (hphase : run.phase.terminal = true)
    (halong : Along (step hash redact) (fun s x => leaves run s x = true) a bs)
    (hb : Lib.run (step hash redact) a bs = some b) :
    (generate conv dataVM b runID).map RunReport.marshal =
      (generate conv dataVM a runID).map RunReport.marshal := by
  have hsound := sound_run ha
  have hagree : b.Sound ∧ Agree run a b := by
    refine run_invariant (I := fun s => s.Sound ∧ Agree run a s) ?_
      ⟨hsound, rfl, rfl, prefix_refl _, rfl⟩ halong hb
    rintro s x s' ⟨hs, hagree⟩ hleaves hstep
    have hsame : s.getRun runID = some run := by
      cases runID_of_getRun hfound
      exact hagree.found.trans hfound
    obtain ⟨hs', hagree'⟩ := agree_step hs (hs.concluded hsame hphase) hleaves hstep
    exact ⟨hs', hagree.trans hagree'⟩
  rw [hagree.2.generate_eq (hsound.concluded hfound hphase) hagree.1.numbered.ids]

/-! ## A run that is concluded, and what comes later -/

def sampleTx : Tx := ⟨⟨63000000000, 0, Instant.zero_nsec_lt⟩, ascii "2026-01-01T00:00:00Z", true⟩

def sampleRaise (triggerClass : String) (vmID : Option Bytes) : RaiseInput where
  triggerClass := ascii triggerClass
  severity := ascii "info"
  vmID := vmID
  runID := none
  summary := ascii "see"
  systemAction := ascii "none"
  evidenceLinks := []
  suggestedActions := []
  collapse := true
  queueMax := 0
  cursorName := []
  cursorTo := 0

def sampleConcluded : List Action :=
  [Action.createVM sampleTx sampleRun.vmID (ascii "isolated") [],
   .createRun sampleTx sampleRun.runID
    ⟨sampleRun.vmID, ascii "owner", [], ascii "guest_result", ascii "keep_running", true, .running⟩,
   .raiseAttention sampleTx (sampleRaise "disk_pressure" (some sampleRun.vmID)),
   .transitionRun sampleTx sampleRun.runID none .concluding [] [],
   .transitionRun sampleTx sampleRun.runID none .inconclusive (ascii "system")
    (ascii "vm stopped")]

/-- Another item is raised and acknowledged, and an event is appended. -/
def sampleLater : List Action :=
  [Action.raiseAttention sampleTx (sampleRaise "clock_skew" none), .ackAttention sampleTx 2,
   .append (sampleCall (ascii "later"))]

def sampleRow : RunRecord :=
  { sampleRecord with
    createdAt := sampleTx.stamp
    startedAt := sampleTx.stamp
    concludedAt := sampleTx.stamp
    createdEventID := 2
    concludedEventID := 5 }

/-- The state after a list of calls, from the start. -/
def sampleAfter (as : List Action) : Option (Archive Bytes) :=
  Lib.run (step id id) (new Bytes (ascii "22222222-2222-2222-2222-222222222222")) as

/-- The report before and after the other item and the event. -/
theorem reports_reproducible_later : ∃ a b, sampleAfter sampleConcluded = some a ∧
    Lib.run (step id id) a sampleLater = some b ∧
    (generate .verbatim extractVM b sampleRun.runID).map RunReport.marshal =
      (generate .verbatim extractVM a sampleRun.runID).map RunReport.marshal := by
  refine ⟨_, _, yields (by decide +kernel), yields (by decide +kernel), ?_⟩
  exact reports_reproducible (yields _) (by decide +kernel : _ = some sampleRow) (by decide)
    (by decide +kernel) (yields _)

/-- The item of the run is acknowledged, and the report says so from then on. -/
theorem reports_differ_acknowledged : ∃ a b ra rb, sampleAfter sampleConcluded = some a ∧
    a.getRun sampleRun.runID = some sampleRow ∧ sampleRow.phase.terminal = true ∧
    Lib.run (step id id) a [.ackAttention sampleTx 1] = some b ∧
    generate .verbatim extractVM a sampleRun.runID = .ok ra ∧
    generate .verbatim extractVM b sampleRun.runID = .ok rb ∧ ra.marshal ≠ rb.marshal := by
  obtain ⟨a, ha, hfound, hprofile, hboot, hne, htruncated⟩ : ∃ a, sampleAfter sampleConcluded = some a ∧
      a.getRun sampleRun.runID = some sampleRow ∧
      a.profiles.lookup sampleRow.vmID = some (ascii "isolated") ∧
      collectBootIDs .verbatim extractVM a.store sampleRow.vmID sampleRow.createdEventID
        sampleRow.concludedEventID = .ok [] ∧
      (Json.arr ((collectAttention a.items sampleRow).1.map AttentionRow.json)).encode ≠
        (Json.arr ((collectAttention (a.ackAttention sampleTx 1).items sampleRow).1.map
          AttentionRow.json)).encode ∧
      (collectAttention (a.ackAttention sampleTx 1).items sampleRow).2 =
        (collectAttention a.items sampleRow).2 := by
    decide +kernel
  have hconcluded := (sound_run ha).concluded hfound (by decide)
  have hconcluded' : Concluded (a.ackAttention sampleTx 1) sampleRun.runID sampleRow :=
    ⟨hfound, hconcluded.phase, hconcluded.vmID, hconcluded.vm, hconcluded.order,
      hconcluded.event⟩
  exact ⟨a, a.ackAttention sampleTx 1, _, _, ha, hfound, by decide, rfl,
    Report.generate_eq hconcluded hprofile hboot, Report.generate_eq hconcluded' hprofile hboot,
    fun htext => hne (attention_of_marshal
      (htext.trans (congrArg RunReport.marshal (assemble_items (a := a) rfl htruncated))))⟩

end Archive

end Observatory.Report
