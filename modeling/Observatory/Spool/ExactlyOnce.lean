/-
# Every record exactly once

A commit, the cursor write after it and the removal of a segment are three separate effects, and
the importer may be stopped between any two of them. The store nevertheless takes every record
of the spool once and in order, and a cycle that finishes has taken them all. That a cycle does
finish when nothing fails is shown by counting the steps it has left.
-/
import Observatory.Spool.Taken

namespace Observatory.Spool

open Lib Events List

/-! ## The invariants together -/

/-- Everything that holds along a calm run. -/
structure Sound {H : Type} (P : Setup H) (store₀ : Store H) (s : System H) : Prop where
  ordered : Ordered s
  shape : Shape s
  kept : Kept P s
  history : History s
  settled : Settled P s
  taken : Taken P store₀ s

section Finish

variable {H : Type} {P : Setup H} {store₀ : Store H} {s s' : System H}

lemma sound_init {store : Store H} (hwf : store.Wf P.hash) : Sound P store (System.init store) where
  ordered := ordered_init store
  shape := shape_init store
  kept := kept_init hwf
  history := history_init store
  settled := .of_resting rfl
  taken := ⟨by simp [System.init], .nil, by simp [System.init], 0, Nat.zero_le _, by
    simp [TakenUpto, System.init, logEntries]⟩

lemma Sound.step [DecidableEq H] (hinj : Function.Injective P.hash) (h : Sound P store₀ s)
    {a : Action} (ha : calm P s a = true) (hstep : step P s a = some s') : Sound P store₀ s' where
  ordered := h.ordered.step hstep
  shape := h.shape.step h.ordered (behaves_of_careful (careful_of_calm ha)) hstep
  kept := h.kept.step hinj h.ordered h.shape (careful_of_calm ha) hstep
  history := h.history.step h.ordered h.shape h.kept hstep
  settled := h.settled.step h.ordered h.shape h.kept ha hstep
  taken := h.taken.step h.ordered h.shape h.kept h.history h.settled ha hstep

/-! ## The steps a cycle has left -/

def Pc.reported : Pc → List Nat
  | .idle | .done => []
  | .recovering _ report | .discarding _ _ report | .loading report => report.segments
  | .recording _ _ todo | .walking _ todo | .counted _ _ _ todo | .reading _ _ todo
  | .committed _ _ todo | .stopped _ _ _ _ todo | .pruning _ _ todo => todo

def Headed (s : System H) : Prop :=
  ∀ k ∈ s.pc.reported, ∃ g : Segment, s.disk.get k = some g.bytes

/-- The steps it takes at most to walk the segments: for each record a commit and a cursor. -/
def work (d : Dir Bytes) (todo : List Nat) : Nat :=
  (todo.map fun k => 2 * (recordsAt d k).length + 4).sum

/-- The steps a cycle takes at most from its place. -/
def remaining (d : Dir Bytes) : Pc → Nat
  | .idle | .done => 0
  | .recovering todo report => work d (report.segments ++ todo) + 2 * todo.length + 4
  | .discarding _ todo report => work d (report.segments ++ todo) + 2 * todo.length + 5
  | .loading report => work d report.segments + 3
  | .recording _ _ todo => work d todo + 2
  | .walking _ todo => work d todo + 1
  | .counted _ _ _ todo | .stopped _ _ _ _ todo => work d todo + 3
  | .pruning _ _ todo => work d todo + 2
  | .reading _ r todo => work d todo + 4 + 2 * ((recordsAt d r.segment).length - r.recIdx)
  | .committed _ r todo => work d todo + 3 + 2 * ((recordsAt d r.segment).length - r.recIdx)

lemma work_cons (d : Dir Bytes) (k : Nat) (todo : List Nat) :
    work d (k :: todo) = 2 * (recordsAt d k).length + 4 + work d todo := by
  simp [work]

lemma work_append (d : Dir Bytes) (front todo : List Nat) :
    work d (front ++ todo) = work d front + work d todo := by
  simp [work]

lemma work_erase_le (d : Dir Bytes) (k : Nat) (todo : List Nat) :
    work (d.erase k) todo ≤ work d todo := by
  induction todo with
  | nil => exact le_rfl
  | cons j todo ih =>
    have hle : (recordsAt (d.erase k) j).length ≤ (recordsAt d j).length := by
      rw [recordsAt_erase]
      split
      · exact Nat.zero_le _
      · exact le_rfl
    rw [work_cons, work_cons]
    omega

lemma work_congr {d d' : Dir Bytes} (h : ∀ j, d'.get j = d.get j) (todo : List Nat) :
    work d' todo = work d todo := by
  simp [work, recordsAt_congr (h _)]

lemma Headed.erase {k : Nat} {pc : Pc} (h : Headed s) (hpc : ∀ j ∈ pc.reported, j ∈ s.pc.reported)
    (hk : k ∉ pc.reported) : Headed { s with disk := s.disk.erase k, pc := pc } := by
  intro j hj
  obtain ⟨g, hget⟩ := h j (hpc j hj)
  refine ⟨g, ?_⟩
  rw [Dir.get_erase, if_neg (ne_of_mem_of_not_mem hj hk), hget]

variable [DecidableEq H]

/-- The cycle takes a step towards its end. -/
def Advances (P : Setup H) (i : Input) (s : System H) : Prop :=
  ∃ s', importStep P s i = some s' ∧ s'.pc ≠ .idle ∧
    remaining s'.disk s'.pc < remaining s.disk s.pc ∧ Headed s' ∧ s'.log = s.log

variable {i : Input}

/-- A step that only moves the place of the cycle. -/
lemma Advances.pc (pc : Pc) (hstep : importStep P s i = some { s with pc := pc }) (hne : pc ≠ .idle)
    (hlt : remaining s.disk pc < remaining s.disk s.pc) (h : Headed s)
    (hsub : ∀ k ∈ pc.reported, k ∈ s.pc.reported) : Advances P i s :=
  ⟨_, hstep, hne, hlt, fun k hk => h k (hsub k hk), rfl⟩

attribute [local simp] Pc.reported importStep

lemma Shape.advances_recovering (h : Shape s) (hhead : Headed s) {k : Nat} {todo : List Nat}
    {report : Report} (hpc : s.pc = .recovering (k :: todo) report) : Advances P i s := by
  obtain ⟨file, hfile⟩ : ∃ file, s.disk.get k = some file :=
    Option.isSome_iff_exists.1 (Dir.mem_keys.1 (h.plan.onDisk k (by simp [hpc, Pc.plan])))
  have hplan : work s.disk (report.segments ++ k :: todo) =
      work s.disk (report.segments ++ todo) + (2 * (recordsAt s.disk k).length + 4) := by
    rw [work_append, work_append, work_cons]
    omega
  rcases h.files k file hfile with rfl | ⟨g, rfl⟩
  · have hrec (isNewest : Bool) : recoverSegment [] isNewest = .ok ⟨true, false, 0, []⟩ := by
      cases isNewest <;> decide
    cases todo with
    | nil =>
      refine .pc (.recovering [] report) ?_ (by simp) ?_ hhead (by simp [hpc])
      · simp [hpc, recoverStep, hfile, hrec]
      · simp only [hpc, remaining, hplan, append_nil, length_nil, length_cons]
        omega
    | cons j todo =>
      refine .pc (.discarding k (j :: todo) report) ?_ (by simp) ?_ hhead
        (by simp [hpc])
      · simp [hpc, recoverStep, hfile, hrec]
      · simp only [hpc, remaining, hplan, length_cons]
        omega
  · have hrec := g.recover_bytes todo.isEmpty
    have hget := h.files.recover_get hfile hrec rfl
    have hstep : importStep P s i = some { s with
        disk := s.disk.modify k fun _ => g.bytes
        pc := .recovering todo (report.add P.gapSource k 0 i.mtime) } := by
      simp [hpc, recoverStep, hfile, hrec]
    refine ⟨_, hstep, by simp, ?_, ?_, rfl⟩
    · rw [hpc]
      simp only [remaining, Report.add, append_assoc, singleton_append, length_cons]
      rw [work_congr hget]
      omega
    · intro j hj
      rw [hget]
      rcases mem_append.1 hj with hj | hj
      · exact hhead j (by rw [hpc]; exact hj)
      · rw [mem_singleton.1 hj]
        exact ⟨g, hfile⟩

/-- A segment is removed and the cycle goes on. -/
lemma advances_remove (k : Nat) (pc : Pc) (hstep : importStep P s i = some (removeStep s k pc))
    (hk : k ∈ s.disk.keys) (hne : pc ≠ .idle)
    (hlt : remaining (s.disk.erase k) pc < remaining s.disk s.pc) (h : Headed s)
    (hsub : ∀ j ∈ pc.reported, j ∈ s.pc.reported) (hnot : k ∉ pc.reported) : Advances P i s := by
  rw [removeStep, if_pos (Dir.mem_keys.1 hk)] at hstep
  exact ⟨_, hstep, hne, hlt, h.erase hsub hnot, rfl⟩

/-- The cycle turns to the next segment. -/
lemma Headed.advances_walking (hhead : Headed s) {c : Cursor} {k : Nat} {todo : List Nat}
    (hpc : s.pc = .walking c (k :: todo)) : Advances P i s := by
  obtain ⟨g, hget⟩ := hhead k (by simp [hpc])
  have hopen : readSegment g.bytes = .ok _ := readSegment_layout
  have hsub (j : Nat) (hj : j ∈ todo) : j ∈ s.pc.reported := by
    rw [hpc]
    exact mem_cons_of_mem _ hj
  by_cases hplace : place c k = .past
  · obtain ⟨n, hcount⟩ : ∃ n, countSegmentRecords P.conv g.bytes = .ok n :=
      ⟨_, by rw [countSegmentRecords, hopen]; rfl⟩
    refine .pc (.counted c k n todo) ?_ (by simp) ?_ hhead hsub
    · simp only [importStep, hpc, walkStep, hget, hplace, hcount]
    · simp only [hpc, remaining, work_cons]
      omega
  · obtain ⟨offset, hstep⟩ : ∃ offset, importStep P s i =
        some { s with pc := .reading c ⟨k, offset, 0, resumeFrom c k, false⟩ todo } := by
      simp only [importStep, hpc, walkStep, hget, hopen]
      exact ⟨_, rfl⟩
    refine .pc _ hstep (by simp) ?_ hhead hsub
    simp only [hpc, remaining, work_cons]
    omega

/-- The cycle looks for the end marker. -/
lemma advances_probe (c : Cursor) {k : Nat} (mayPrune : Bool) (todo : List Nat)
    (hstep : importStep P s i = some (probeStep s c k mayPrune todo)) {g : Segment}
    (hget : s.disk.get k = some g.bytes) (h : Headed s) (hreported : s.pc.reported = todo)
    (hremaining : remaining s.disk s.pc = work s.disk todo + 3) : Advances P i s := by
  rw [probeStep, hget, Option.bind_some, g.hasEndMarker_bytes] at hstep
  dsimp only at hstep
  split at hstep
  · exact .pc _ hstep (by simp) (by rw [hremaining]; simp [remaining]) h fun j hj => hreported ▸ hj
  · exact .pc _ hstep (by simp) (by rw [hremaining]; simp [remaining]) h fun j hj => hreported ▸ hj

lemma Sound.advances_reading (h : Sound P store₀ s) (hhead : Headed s) (hdb : i.dbOk = true)
    {c : Cursor} {r : Reading} {todo : List Nat} (hpc : s.pc = .reading c r todo) :
    Advances P i s := by
  have hplace := h.shape.here
  rw [hpc] at hplace
  have hattached := hplace.1
  obtain ⟨g, hget, -, -⟩ := hplace.2
  have hsub (pc : Pc) (hpc' : pc.reported = todo) (j : Nat) (hj : j ∈ pc.reported) :
      j ∈ s.pc.reported := by
    rw [hpc]
    exact hpc' ▸ hj
  have hbs : r.bytes s.disk = some (g.bytes.drop r.offset) := by
    simp [Reading.bytes, hattached, hget]
  obtain ⟨g', hget', -, hmatch⟩ := hplace.next P.conv hbs
  have hstep : importStep P s i = some (readStep P s i c r todo) := by simp [hpc]
  simp only [readStep, hbs] at hstep
  cases hnext : SegmentIter.next P.conv (g.bytes.drop r.offset) with
  | eof =>
    rw [hnext] at hstep
    refine .pc _ hstep (by simp) ?_ hhead (hsub _ rfl)
    simp only [hpc, remaining]
    omega
  | corruptRecord => exact absurd hnext (h.kept.not_corrupt hplace hbs)
  | envelope env rest =>
    rw [hnext] at hmatch hstep
    obtain ⟨b, hb, henv, -⟩ := hmatch
    have hlt : r.recIdx < (recordsAt s.disk r.segment).length := by
      rw [recordsAt_segment hget']
      exact (List.getElem?_eq_some_iff.1 hb).1
    dsimp only at hstep
    by_cases hskip : r.recIdx < r.skip
    · rw [if_pos hskip] at hstep
      refine .pc _ hstep (by simp) ?_ hhead (hsub _ rfl)
      simp only [hpc, remaining]
      omega
    · obtain ⟨front, back, hlog, -⟩ := stored_before h.shape h.kept h.history hpc
        (b := b) (by rw [recordsAt_segment hget', hb])
      have herr := h.taken.refused h.kept.wf (i := i) (k := r.segment) (by simp [hlog]) henv
      rw [if_pos hdb] at herr
      rw [if_neg hskip, herr] at hstep
      refine ⟨_, hstep, by simp, ?_, fun j hj => hhead j (hsub _ rfl j hj), rfl⟩
      simp only [hpc, remaining]
      omega

/-- A cycle on which nothing fails takes a step towards its end. -/
lemma Sound.advances (h : Sound P store₀ s) (hhead : Headed s) (hlen : s.log.length < 2 ^ 63)
    (hdb : i.dbOk = true) (hrest : s.pc.resting = false) : Advances P i s := by
  have hplace := h.shape.here
  have hplan := h.shape.plan
  cases hpc : s.pc with
  | idle | done => simp [hpc, Pc.resting] at hrest
  | recovering todo report =>
    cases todo with
    | nil =>
      refine .pc (if report.segments.isEmpty then .done else .loading report) ?_ ?_ ?_ hhead ?_
      · simp [hpc]
      · split <;> simp
      · rw [hpc]
        split <;> simp [remaining]
      · rw [hpc]
        split <;> simp
    | cons k todo => exact h.shape.advances_recovering hhead hpc
  | discarding k todo report =>
    rw [hpc] at hplan
    refine advances_remove k (.recovering todo report) (by simp [hpc])
      (hplan.onDisk k (by simp [Pc.plan])) (by simp) ?_ hhead (by simp [hpc]) ?_
    · have := work_erase_le s.disk k (report.segments ++ todo)
      simp only [hpc, remaining]
      omega
    · intro hk
      exact absurd ((pairwise_append.1 hplan.sorted).2.2 k hk k (by simp)) (lt_irrefl _)
  | loading report =>
    obtain ⟨c, hc⟩ := h.ordered.cursor.readable
    refine .pc (.recording c report.gaps report.segments) ?_ (by simp) ?_ hhead ?_
    · simp [hpc, hc]
    · simp [hpc, remaining]
    · simp [hpc]
  | recording c gaps todo =>
    have hgaps := h.settled.gaps
    rw [hpc] at hgaps
    obtain rfl : gaps = [] := hgaps
    refine .pc (.walking c todo) ?_ (by simp) ?_ hhead ?_
    · simp [hpc]
    · simp [hpc, remaining]
    · simp [hpc]
  | walking c todo =>
    cases todo with
    | nil =>
      exact .pc .done (by simp [hpc]) (by simp) (by simp [hpc, remaining]) hhead
        (by simp)
    | cons k todo => exact hhead.advances_walking hpc
  | counted c k n todo =>
    rw [hpc] at hplace
    obtain ⟨g, hget⟩ := hplace
    exact advances_probe c n.isSome todo (by simp [hpc]) hget hhead
      (by simp [hpc]) (by simp [hpc, remaining])
  | stopped c k n eof todo =>
    rw [hpc] at hplace
    obtain ⟨g, hget⟩ := hplace
    exact advances_probe c eof todo (by simp [hpc]) hget hhead
      (by simp [hpc]) (by simp [hpc, remaining])
  | reading c r todo => exact h.advances_reading hhead hdb hpc
  | committed c r todo =>
    rw [hpc] at hplace
    obtain ⟨-, g, hget, hlt, -⟩ := hplace
    have hrec := h.history.records r.segment (Dir.mem_keys_of_get hget)
    rw [recordsAt_segment hget] at hrec
    have hidx : r.recIdx < 2 ^ 63 := by
      have hle : (loggedAt s.log r.segment).length ≤ s.log.length := by
        rw [loggedAt, length_map]
        exact length_filter_le _ _
      rw [hrec] at hlt
      omega
    refine ⟨cursorStep s r todo, by simp only [importStep, hpc, hidx, if_true], by simp [cursorStep], ?_,
      fun j hj => hhead j (by rw [hpc]; exact hj), rfl⟩
    simp only [hpc, cursorStep, remaining, recordsAt_segment hget]
    omega
  | pruning c k todo =>
    rw [hpc] at hplan
    refine advances_remove k (.walking c todo) (by simp [hpc])
      (hplan.onDisk k (by simp [Pc.plan])) (by simp) ?_ hhead (by simp [hpc]) ?_
    · have := work_erase_le s.disk k todo
      simp only [hpc, remaining]
      omega
    · intro hk
      exact absurd ((pairwise_cons.1 hplan.sorted).1 k hk) (lt_irrefl _)

lemma Sound.finishes (hinj : Function.Injective P.hash) (h : Sound P store₀ s) (hhead : Headed s)
    (hlen : s.log.length < 2 ^ 63) (hdb : i.dbOk = true) (hidle : s.pc ≠ .idle) :
    ∃ m s', run (Spool.step P) s (List.replicate m (.importer i)) = some s' ∧ s'.pc = .done := by
  -- by induction on the steps that are left
  induction hr : remaining s.disk s.pc using Nat.strong_induction_on generalizing s with
  | _ r ih =>
    by_cases hdone : s.pc = .done
    · exact ⟨0, s, rfl, hdone⟩
    · have hrest : s.pc.resting = false := by
        cases hpc : s.pc <;> simp_all [Pc.resting]
      obtain ⟨t, hstep, hne, hlt, hhead', hlog⟩ := h.advances hhead hlen hdb hrest
      have hsound : Sound P store₀ t := h.step hinj (a := .importer i) rfl hstep
      obtain ⟨m, s', hrun, hpc⟩ := ih _ (hr ▸ hlt) hsound hhead' (hlog ▸ hlen) hne rfl
      refine ⟨m + 1, s', ?_, hpc⟩
      rw [replicate_succ, run_cons_eq_some]
      exact ⟨t, hstep, hrun⟩

/-! ## Runs -/

lemma Sound.taken_of_done (h : Sound P store₀ s) (hstep : Spool.step P s (.importer i) = some s')
    (hdone : s'.pc = .done) : TakenUpto P store₀ s' s'.log.length := by
  obtain ⟨hrest, hplan, hstore, hlog⟩ : s.pc.resting = false ∧ s.pc.plan = [] ∧
      s'.store = s.store ∧ s'.log = s.log := by
    have himp := importStep_cases hstep
    cases himp with
    | @recovered report hpc =>
      refine ⟨by simp [hpc, Pc.resting], ?_, rfl, rfl⟩
      cases hsegments : report.segments with
      | nil => simp [hpc, Pc.plan, hsegments]
      | cons k todo => simp [hsegments] at hdone
    | finished hpc => exact ⟨by simp [hpc, Pc.resting], by simp [hpc, Pc.plan], rfl, rfl⟩
    | probedPast | probed =>
      dsimp only at hdone
      split at hdone
      all_goals cases hdone
    | aborted | skipped | headerless | scanned | discarded | loaded | gapsDone | gapRecorded
    | gapRefused | past | opened | atEnd | atCorrupt | passed | commit | refused | wroteCursor
    | pruned => exact absurd hdone (by simp [abort, cursorStep])
  obtain ⟨n, hle, hn⟩ := h.taken.taken
  have hstored (p : Nat × Bytes) (hp : p ∈ s.log) : Stored P s.store p.2 := by
    refine (h.kept.logged p.1 p.2 hp).elim id fun hmem => ?_
    have hk : p.1 ∈ s.disk.keys := by
      by_contra hk
      rw [recordsAt_not_mem hk] at hmem
      cases hmem
    exact h.settled.left hrest p.1 hk (by simp [hplan]) p.2 hmem
  have hge := h.taken.le_of_stored hn (append_nil s.log).symm hstored
  rw [TakenUpto, hstore, hlog, ← le_antisymm hle hge]
  exact hn

/-- **The importer takes every record exactly once.**  In every run in which no writer touches a
file during a cycle and the records are ones the store takes, with failures and kills anywhere:
no key is in the store twice; its events are those it began with and then the first records
of the log in their order; right after a cycle has finished they are all the records of the
log; the log is in the order of segments and has the records of each segment on disk in
their order; and each cursor that is persisted is after the one before it. A cycle that is
left alone and whose transactions go through does finish. -/
theorem imported_exactly_once (hinj : Function.Injective P.hash) (store : Store H)
    (hwf : store.Wf P.hash) (as : List Action) (s : System H)
    (hcalm : Along (step P) (fun s a => calm P s a = true) (System.init store) as)
    (hrun : run (step P) (System.init store) as = some s) :
    ((entries s.store).map Entry.key).Nodup ∧
    (∃ n ≤ s.log.length,
      (entries s.store).map some = (entries store).map some ++ logEntries P (s.log.take n)) ∧
    (∀ i s', step P s (.importer i) = some s' → s'.pc = .done →
      (entries s'.store).map some = (entries store).map some ++ logEntries P s'.log) ∧
    (s.log.Pairwise (fun p q => p.1 ≤ q.1) ∧
      ∀ k ∈ s.disk.keys, recordsAt s.disk k = loggedAt s.log k) ∧
    (s.cursors.IsChain Cursor.before ∧
      readCursor s.cursorFile = .ok (s.cursors.getLast?.getD .zero)) ∧
    (s.pc.resting = true → s.log.length < 2 ^ 63 → ∀ i : Input, i.dbOk = true →
      ∃ m s', run (step P) s (.start :: List.replicate m (.importer i)) = some s' ∧
        s'.pc = .done) := by
  have h : Sound P store s :=
    run_invariant (p := fun s a => calm P s a = true) (I := Sound P store)
      (fun s a s' hs ha hstep => hs.step hinj ha hstep) (sound_init hwf) hcalm hrun
  refine ⟨?_, h.taken.taken, fun i s' hstep hdone => ?_,
    ⟨h.history.sorted, h.history.records⟩, ⟨h.history.chain, h.history.last⟩,
    fun hrest hlen i hdb => ?_⟩
  · rw [entries, map_map]
    exact h.kept.wf.keys
  · have htaken := h.taken_of_done hstep hdone
    rwa [TakenUpto, take_length] at htaken
  · have hstart : step P s .start =
        some { s with pc := .recovering s.disk.keys ⟨[], []⟩, detected := [] } := by
      simp [step, hrest]
    obtain ⟨m, s', hm, hdone⟩ := (h.step hinj (a := .start) rfl hstart).finishes hinj
      (by simp [Headed]) hlen hdb (by simp)
    exact ⟨m, s', run_cons_eq_some.2 ⟨_, hstart, hm⟩, hdone⟩

end Finish

/-- A record is appended and its segment closed; the importer is killed after it has committed the
record and before it writes the cursor, and starts again. -/
def killedAfterCommit : List Action :=
  [Action.openWriter demoCfg, .issue .ok demoTime, .op, .op, .op, .ret] ++
  [Action.append (quiet 0 fun _ => none) (Store.sampleEnvelope []), .op, .ret] ++
  [Action.close (quiet 0 fun _ => none), .op, .op, .op, .ret, .stopWriter] ++
  [Action.start] ++ List.replicate 6 (Action.importer demoInput) ++
  [Action.kill (ascii "33333333-3333-3333-3333-333333333333")] ++
  [Action.start] ++ List.replicate 10 (Action.importer demoInput)

set_option maxRecDepth 100000 in
/-- The second cycle reads the record again, and when it finishes the store has it once. -/
theorem imported_exactly_once_killedAfterCommit :
    ∃ s s', run (step demo) demoInit killedAfterCommit = some s ∧
      step demo s (.importer demoInput) = some s' ∧ s'.log.length = 1 ∧
      (entries s'.store).map some = logEntries demo s'.log := by
  obtain ⟨s, hguarded, s', hstep, hlength, hmatch⟩ : ∃ s,
      run (guarded (step demo) fun s a => calm demo s a = true) demoInit killedAfterCommit = some s ∧
      ∃ s', step demo s (.importer demoInput) = some s' ∧ s'.log.length = 1 ∧
        (s'.pc matches .done) = true := by
    decide +kernel
  obtain ⟨hrun, hcalm⟩ := of_run_guarded hguarded
  have hdone : s'.pc = .done := by
    revert hmatch
    cases s'.pc <;> simp
  exact ⟨s, s', hrun, hstep, hlength, (imported_exactly_once (P := demo) (fun _ _ h => h) _
    (Store.wf_new _ _) killedAfterCommit s hcalm hrun).2.2.1 demoInput s' hstep hdone⟩

end Observatory.Spool
