/-
# The order of records and cursors

Over a careful run the log of records is ordered by segment, each segment on disk holds exactly
the records logged for it, and the cursors that are persisted only move on. A segment that is
gone either had no records, and then its index may be issued again, or the cursor has reached
it.
-/
import Observatory.Spool.NoLoss

namespace Observatory.Spool

open Lib Events List

/-- The records logged for a segment. -/
def loggedAt (log : List (Nat × Bytes)) (k : Nat) : List Bytes :=
  (log.filter fun p => p.1 == k).map (·.2)

/-- The cursor `c` is behind `c'`: by the names of their segments, then by their records. -/
def Cursor.before (c c' : Cursor) : Prop :=
  bytesLt c.segment c'.segment = true ∨ c.segment = c'.segment ∧ c.record < c'.record

/-- The cursor has reached a segment of which records were read. -/
def Covered (d : Dir Bytes) : Pc → Prop
  | .reading c r _ => 0 < r.recIdx ∨ 0 < r.skip → place c r.segment ≠ .future
  | .committed c r _ => 0 < r.recIdx → place c r.segment ≠ .future
  | .stopped c k n _ _ => 0 < n → place c k ≠ .future
  | .pruning c k _ => recordsAt d k ≠ [] → place c k ≠ .future
  | _ => True

/-- The reader is ahead of the cursor. -/
def Ahead : Pc → Prop
  | .reading c r _ => ∀ j, Names c j →
      j < r.segment ∨ j = r.segment ∧ (c.record < r.recIdx ∨ c.record < r.skip)
  | .committed c r _ => ∀ j, Names c j → j < r.segment ∨ j = r.segment ∧ c.record < r.recIdx
  | _ => True

structure History {H : Type} (s : System H) : Prop where
  sorted : s.log.Pairwise fun p q => p.1 ≤ q.1
  records : ∀ k ∈ s.disk.keys, recordsAt s.disk k = loggedAt s.log k
  seen : ∀ p ∈ s.log, p.1 ∈ s.disk.keys ∨
    ∃ c j, readCursor s.cursorFile = .ok c ∧ Names c j ∧ p.1 ≤ j
  covered : Covered s.disk s.pc
  chain : s.cursors.IsChain Cursor.before
  last : readCursor s.cursorFile = .ok (s.cursors.getLast?.getD .zero)
  ahead : Ahead s.pc

lemma loggedAt_append (log more : List (Nat × Bytes)) (k : Nat) :
    loggedAt (log ++ more) k = loggedAt log k ++ loggedAt more k := by
  simp [loggedAt]

lemma loggedAt_singleton (k : Nat) (b : Bytes) (j : Nat) :
    loggedAt [(k, b)] j = if j = k then [b] else [] := by
  unfold loggedAt
  by_cases hjk : j = k
  · simp [hjk]
  · rw [if_neg hjk, filter_cons_of_neg (by simpa using Ne.symm hjk)]
    rfl

lemma mem_loggedAt {log : List (Nat × Bytes)} {k : Nat} {b : Bytes} :
    b ∈ loggedAt log k ↔ (k, b) ∈ log := by
  simp [loggedAt]

lemma loggedAt_eq_nil {log : List (Nat × Bytes)} {k : Nat} (h : ∀ p ∈ log, p.1 ≠ k) :
    loggedAt log k = [] := by
  rw [loggedAt, map_eq_nil_iff, filter_eq_nil_iff]
  exact fun p hp => by simpa using h p hp

section Steps

variable {H : Type} {P : Setup H} {s s' : System H}

lemma Ordered.names_of_place (h : Ordered s) {c : Cursor} (hc : readCursor s.cursorFile = .ok c)
    {k : Nat} (hk : k ≤ maxSegmentIndex) (hplace : place c k ≠ .future) :
    ∃ j, Names c j ∧ k ≤ j := by
  rcases h.names hc with hempty | ⟨j, hj⟩
  · exact absurd (place_of_empty hempty k) hplace
  · refine ⟨j, hj, ?_⟩
    by_contra hlt
    rw [place_of_names hj hk, if_neg (by omega), if_neg (by omega)] at hplace
    exact hplace rfl

lemma History.lt_of_below (h : History s) {n : Nat} (hb : Below s.disk s.cursorFile n) :
    ∀ p ∈ s.log, p.1 < n := by
  intro p hp
  rcases h.seen p hp with hk | ⟨c, j, hc, hj, hle⟩
  · exact hb.1 _ hk
  · exact hle.trans_lt (hb.2 c j hc hj)

/-- A step that leaves the files and the histories alone. -/
lemma History.quiet (h : History s) (hget : ∀ j, s'.disk.get j = s.disk.get j)
    (hfile : s'.cursorFile = s.cursorFile) (hlog : s'.log = s.log) (hcursors : s'.cursors = s.cursors)
    (hcovered : Covered s.disk s'.pc) (hahead : Ahead s'.pc) : History s' := by
  have hrec (j : Nat) : recordsAt s'.disk j = recordsAt s.disk j := recordsAt_congr (hget j)
  have hkeys (j : Nat) : j ∈ s'.disk.keys ↔ j ∈ s.disk.keys := by simp [hget]
  refine ⟨hlog ▸ h.sorted, fun k hk => ?_, fun p hp => ?_, ?_, hcursors ▸ h.chain, ?_, hahead⟩
  · rw [hrec, hlog]
    exact h.records k ((hkeys k).1 hk)
  · rw [hkeys, hfile]
    exact h.seen p (hlog ▸ hp)
  · cases hpc : s'.pc with
    | pruning c k todo =>
      rw [hpc] at hcovered
      intro hne
      exact hcovered (hrec k ▸ hne)
    | reading | committed | stopped =>
      rw [hpc] at hcovered
      exact hcovered
    | idle | done | recovering | discarding | loading | recording | walking | counted => trivial
  · rw [hfile, hcursors]
    exact h.last

lemma History.pc (h : History s) {pc : Pc} (hcovered : Covered s.disk pc) (hahead : Ahead pc) :
    History { s with pc := pc } :=
  h.quiet (fun _ => rfl) rfl rfl rfl hcovered hahead

lemma History.erase (h : History s) {k : Nat} (hk : recordsAt s.disk k ≠ [] →
      ∃ c j, readCursor s.cursorFile = .ok c ∧ Names c j ∧ k ≤ j)
    {pc : Pc} (hcovered : ∀ d, Covered d pc) (hahead : Ahead pc) :
    History { s with disk := s.disk.erase k, pc := pc } := by
  refine ⟨h.sorted, fun j hj => ?_, fun p hp => ?_, hcovered _, h.chain, h.last, hahead⟩
  · obtain ⟨hj, hjk⟩ := Dir.mem_keys_erase.1 hj
    rw [recordsAt_erase, if_neg hjk]
    exact h.records j hj
  · rcases h.seen p hp with hmem | hcursor
    · by_cases hpk : p.1 = k
      · refine .inr ?_
        rw [hpk]
        refine hk fun hnil => ?_
        have hin : p.2 ∈ loggedAt s.log k := mem_loggedAt.2 (hpk ▸ hp)
        rw [← h.records k (hpk ▸ hmem), hnil] at hin
        cases hin
      · exact .inl (Dir.mem_keys_erase.2 ⟨hmem, hpk⟩)
    · exact .inr hcursor

lemma History.cursorStep (h : History s) (hord : Ordered s) {c : Cursor} {r : Reading}
    {todo : List Nat} (hpc : s.pc = .committed c r todo) (hlt : r.recIdx < 2 ^ 63) :
    History (cursorStep s r todo) := by
  obtain ⟨hmax, hle⟩ := hord.cursor.notPast c r todo (.inr hpc)
  have hheld := hord.cursor.held c (by simp [hpc, Pc.cursor])
  have hread := readCursor_marshal hmax hlt
  have hahead := h.ahead
  rw [hpc] at hahead
  have hnames : Names ⟨segmentName r.segment, r.recIdx⟩ r.segment := ⟨hmax, rfl⟩
  have hplace : place ⟨segmentName r.segment, r.recIdx⟩ r.segment = .current := by
    rw [place_of_names hnames hmax, if_neg (lt_irrefl _), if_pos rfl]
  refine ⟨h.sorted, h.records, fun p hp => ?_, fun _ => ?_, ?_, ?_, fun j hj => ?_⟩
  · rcases h.seen p hp with hmem | ⟨c', j, hc', hj, hpj⟩
    · exact .inl hmem
    · rw [hheld] at hc'
      cases hc'
      exact .inr ⟨_, r.segment, hread, hnames, hpj.trans (hle j hj)⟩
  · rw [hplace]
    simp
  · refine isChain_append.2 ⟨h.chain, .singleton _, fun x hx y hy => ?_⟩
    obtain rfl : _ = y := by simpa using hy
    have hlast := h.last
    rw [Option.mem_def.1 hx, Option.getD_some, hheld] at hlast
    cases hlast
    obtain ⟨j, -, -, hj, -⟩ := hord.cursor.highest c (mem_of_getLast? hx)
    rcases hahead j hj with hjr | ⟨rfl, hrec⟩
    · left
      rw [hj.2, bytesLt_segmentName hj.1 hmax]
      simpa using hjr
    · exact .inr ⟨hj.2, hrec⟩
  · rw [Spool.cursorStep, List.getLast?_concat]
    exact hread
  · obtain rfl := segmentName_injective hj.1 hmax hj.2.symm
    refine .inr ⟨rfl, .inl ?_⟩
    dsimp only
    omega

lemma History.op (h : History s) (hord : Ordered s) (hshape : Shape s) {op : FileOp}
    {ops : List FileOp} {next : Option Writer} {ack : Option Bytes}
    (hw : s.writer = .busy (op :: ops) next ack) : History (opStep s op ops next ack) := by
  have heff := (hshape.op_effect hord hw).1
  have hcovered : Covered (op.apply s.disk) s.pc := by
    have hcov := h.covered
    have hhere := hshape.here
    cases hpc : s.pc with
    | pruning c k todo =>
      rw [hpc] at hcov hhere
      obtain ⟨g, hclosed, hget⟩ := hhere
      intro hne
      rw [heff.recordsAt_closed hclosed hget] at hne
      exact hcov hne
    | reading | committed | stopped =>
      rw [hpc] at hcov
      exact hcov
    | idle | done | recovering | discarding | loading | recording | walking | counted => trivial
  have hfile : (opStep s op ops next ack).cursorFile = s.cursorFile := rfl
  refine ⟨?_, fun k hk => ?_, fun p hp => ?_, hshape.op_pc hw ▸ hcovered, h.chain, h.last,
    hshape.op_pc hw ▸ h.ahead⟩
  · change (s.log ++ op.added s.disk).Pairwise _
    rcases heff.records with ⟨hnil, -⟩ | ⟨k, b, g, -, hadded, -, -, -, hbelow, -⟩
    · rw [hnil, append_nil]
      exact h.sorted
    · rw [hadded]
      refine pairwise_append.2 ⟨h.sorted, pairwise_singleton _ _, fun p hp q hq => ?_⟩
      rw [mem_singleton.1 hq]
      exact Nat.lt_succ_iff.1 (h.lt_of_below hbelow p hp)
  · change recordsAt (op.apply s.disk) k = loggedAt (s.log ++ op.added s.disk) k
    have hold : recordsAt s.disk k = loggedAt s.log k := by
      rcases heff.mem_keys hk with hk | hbelow
      · exact h.records k hk
      · rw [recordsAt_none (get_none_of_below hbelow),
          loggedAt_eq_nil fun p hp => (h.lt_of_below hbelow p hp).ne]
    rw [loggedAt_append, ← hold]
    rcases heff.records with ⟨hnil, hrec⟩ | ⟨j, b, g, -, hadded, -, -, -, -, hrec⟩
    · rw [hnil, hrec]
      simp [loggedAt]
    · rw [hadded, hrec, loggedAt_singleton]
      split
      · next hkj => rw [hkj]
      · rw [append_nil]
  · rw [hfile]
    rcases mem_append.1 hp with hp | hp
    · exact (h.seen p hp).imp_left fun hk => heff.keys hk
    · rcases heff.records with ⟨hnil, -⟩ | ⟨k, b, g, -, hadded, -, -, hget, -, -⟩
      · rw [hnil] at hp
        cases hp
      · rw [hadded, mem_singleton] at hp
        rw [hp]
        exact .inl (heff.keys (Dir.mem_keys_of_get hget))

variable [DecidableEq H]

/-- A step of a cycle. -/
lemma History.imported (h : History s) (hord : Ordered s) (hshape : Shape s) (hkept : Kept P s)
    {i : Input} (hstep : Imported P s i s') : History s' := by
  have hcov := h.covered
  have hahead := h.ahead
  have hplace := hshape.here
  have hhere := hkept.here
  cases hstep with
  | aborted | headerless | skipped | loaded | gapsDone | finished | past =>
    exact h.pc trivial trivial
  | gapRefused | refused | gapRecorded =>
    exact h.quiet (fun _ => rfl) rfl rfl rfl trivial trivial
  | recovered hpc =>
    split
    all_goals exact h.pc trivial trivial
  | @scanned k todo report file r hpc hfile hrec hhead =>
    exact h.quiet (hshape.files.recover_get hfile hrec hhead) rfl rfl rfl trivial trivial
  | discarded hpc _ =>
    rw [hpc] at hplace
    exact h.erase (fun hne => absurd (recordsAt_nil hplace.1) hne) (fun _ => trivial) trivial
  | @opened c k todo file rest hpc hfile hnot hopen =>
    have hmax := hord.cursor.keys_le k (Dir.mem_keys_of_get hfile)
    refine h.pc (fun hpos => ?_) fun j hj => ?_
    · rcases hpos with hpos | hpos
      · cases hpos
      · intro hfuture
        dsimp only [resumeFrom] at hpos hfuture
        rw [hfuture] at hpos
        cases hpos
    · dsimp only
      rcases (le_of_place hj hmax hnot).lt_or_eq with hlt | rfl
      · exact .inl hlt
      · refine .inr ⟨rfl, .inr ?_⟩
        rw [resumeFrom, place_of_names hj hmax, if_neg (lt_irrefl _), if_pos rfl]
        dsimp only
        omega
  | @probedPast c k n todo file closed hpc hfile hmark =>
    rw [hpc] at hhere
    split
    · exact h.pc (fun _ => by rw [show place c k = .past from hhere]; simp) trivial
    · exact h.pc trivial trivial
  | @atEnd c r todo bs hpc _ _ | @atCorrupt c r todo bs hpc _ _ =>
    rw [hpc] at hcov
    exact h.pc (fun hpos => hcov (.inl hpos)) trivial
  | @passed c r todo bs env rest hpc hbs hnext hskip =>
    rw [hpc] at hcov hahead
    refine h.pc (fun _ => hcov (.inr (by omega))) fun j hj => ?_
    refine (hahead j hj).imp_right (And.imp_right fun hlt => .inr ?_)
    dsimp only
    omega
  | @commit c r todo bs env rest hpc hbs hnext hskip herr =>
    rw [hpc] at hcov hahead
    refine h.quiet (fun _ => rfl) rfl rfl rfl (fun hpos => hcov (.inl hpos)) fun j hj => ?_
    refine (hahead j hj).imp_right (And.imp_right fun hlt => ?_)
    dsimp only
    omega
  | wroteCursor hpc hlt => exact h.cursorStep hord hpc hlt
  | @probed c k n eof todo file closed hpc hfile hmark =>
    rw [hpc] at hcov hhere
    split
    · next hc =>
      rw [(Bool.and_eq_true_iff.1 hc).2] at hmark
      refine h.pc (fun hne => hcov ?_) trivial
      rw [← hhere.length_of_closed hfile hmark]
      exact length_pos_iff.2 hne
    · exact h.pc trivial trivial
  | @pruned c k todo hpc hfile =>
    rw [hpc] at hcov
    have hheld := hord.cursor.held c (by simp [hpc, Pc.cursor])
    refine h.erase (fun hne => ?_) (fun _ => trivial) trivial
    obtain ⟨j, hj, hkj⟩ := hord.names_of_place hheld
      (hord.cursor.keys_le k (Dir.mem_keys.2 hfile)) (hcov hne)
    exact ⟨c, j, hheld, hj, hkj⟩

lemma History.step (h : History s) (hord : Ordered s) (hshape : Shape s) (hkept : Kept P s)
    {a : Action} (hstep : step P s a = some s') : History s' := by
  cases step_cases hstep with
  | start | kill => exact h.quiet (fun _ => rfl) rfl rfl rfl trivial trivial
  | importer himp => exact h.imported hord hshape hkept himp
  | fail => exact h.pc trivial trivial
  | op hw => exact h.op hord hshape hw
  | writer => exact h.quiet (fun _ => rfl) rfl rfl rfl h.covered h.ahead

end Steps

lemma history_init {H : Type} (store : Store H) : History (System.init store) :=
  ⟨.nil, by simp [System.init], by simp [System.init], trivial, .nil, rfl, trivial⟩

end Observatory.Spool
