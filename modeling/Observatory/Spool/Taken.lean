/-
# What the store has taken from the spool

As long as no writer touches a file during a cycle and the records are ones the store takes, the
store's events are at every moment those it began with followed by the first records of the
spool, in their order and each once. A record that was committed without its cursor is read
again and found to be a duplicate, so the number of records taken never has to be written down.
-/
import Observatory.Spool.History

namespace Observatory.Spool

open Lib Events List Option

/-! ## Entries -/

/-- What the store keeps of a record: its key, the VM scope and the payload. -/
structure Entry where
  source : Bytes
  seq : Bytes
  vmID : Option Bytes
  payload : Bytes

namespace Entry

variable {H : Type}

def key (x : Entry) : Bytes × Bytes := (x.source, x.seq)

def ofEvent (e : Store.Event H) : Entry := ⟨e.sourceInstanceID, e.sourceSeq, e.vmID, e.payload⟩

def ofEnvelope (env : Envelope) (payload : Bytes) : Entry :=
  ⟨env.sourceInstanceID, env.sourceSeq, env.vmID, payload⟩

def ofRecord (P : Setup H) (b : Bytes) : Option Entry :=
  (Envelope.unmarshal P.conv b).bind fun env => env.marshal.map (ofEnvelope env)

end Entry

def entries {H : Type} (store : Store H) : List Entry := store.events.map Entry.ofEvent

def logEntries {H : Type} (P : Setup H) (log : List (Nat × Bytes)) : List (Option Entry) :=
  log.map fun p => Entry.ofRecord P p.2

/-! ## Runs without a writer beside the importer -/

/-- The store takes the record: it decodes and is admitted, its source serves one VM, and its key
is a new one. -/
def acceptable {H : Type} (P : Setup H) (s : System H) (b : Bytes) : Bool :=
  match Envelope.unmarshal P.conv b with
  | none => false
  | some env =>
    (Store.checkAppend env).isOk &&
    [none, some env.vmID].contains (s.store.scopeOf env.sourceInstanceID) &&
    ((entries s.store).all fun x => x.key != (env.sourceInstanceID, env.sourceSeq)) &&
    s.log.all fun p => (Entry.ofRecord P p.2).all fun x =>
      x.key != (env.sourceInstanceID, env.sourceSeq) &&
        (x.source != env.sourceInstanceID || x.vmID == env.vmID)

/-- The files of the writer behave, no cycle runs during its file operations, and the store takes
its records. -/
def calm {H : Type} (P : Setup H) (s : System H) (a : Action) : Bool :=
  a.behaves &&
    match a, s.writer with
    | .op, .busy (op :: _) _ _ =>
      s.pc.resting && (op.added s.disk).all fun p => acceptable P s p.2
    | _, _ => true

section Calm

variable {H : Type} {P : Setup H} {s s' : System H}

lemma acceptable_spec {b : Bytes} (h : acceptable P s b = true) :
    ∃ env payload, Envelope.unmarshal P.conv b = some env ∧ Store.checkAppend env = .ok payload ∧
      s.store.scopeOf env.sourceInstanceID ∈ [none, some env.vmID] ∧
      (∀ x ∈ entries s.store, x.key ≠ (env.sourceInstanceID, env.sourceSeq)) ∧
      ∀ p ∈ s.log, ∀ x, Entry.ofRecord P p.2 = some x →
        x.key ≠ (env.sourceInstanceID, env.sourceSeq) ∧
          (x.source = env.sourceInstanceID → x.vmID = env.vmID) := by
  unfold acceptable at h
  split at h
  · cases h
  next env henv =>
  simp only [Bool.and_eq_true] at h
  obtain ⟨⟨⟨hcheck, hscope⟩, hstore⟩, hlog⟩ := h
  cases hp : Store.checkAppend env with
  | error err => simp [hp, Except.isOk, Except.toBool] at hcheck
  | ok payload =>
    refine ⟨env, payload, henv, hp, ?_, fun x hx => ?_, fun p hp x hx => ?_⟩
    · simpa using hscope
    · simpa using all_eq_true.1 hstore x hx
    · have hall := all_eq_true.1 hlog p hp
      rw [hx, all_some, Bool.and_eq_true, Bool.or_eq_true] at hall
      refine ⟨by simpa using hall.1, fun hsource => ?_⟩
      rcases hall.2 with hne | heq
      · exact absurd hsource (by simpa using hne)
      · simpa using heq

lemma calm_op {op : FileOp} {ops : List FileOp} {next : Option Writer} {ack : Option Bytes}
    (h : calm P s .op = true) (hw : s.writer = .busy (op :: ops) next ack) :
    s.pc.resting = true ∧ ∀ p ∈ op.added s.disk, acceptable P s p.2 = true := by
  simpa [calm, hw, Action.behaves] using h

lemma careful_of_calm {a : Action} (h : calm P s a = true) : careful P s a = true := by
  cases a with
  | op =>
    cases hw : s.writer with
    | busy ops next ack =>
      cases ops with
      | nil => simp [careful, behaved, hw, Action.behaves]
      | cons op ops =>
        obtain ⟨hrest, hall⟩ := calm_op h hw
        have hdec : recordsDecode P s op = true := by
          refine all_eq_true.2 fun p hp => ?_
          obtain ⟨env, -, henv, -⟩ := acceptable_spec (hall p hp)
          rw [henv]
          rfl
        have hretire : retiresUnread s op = false := by
          unfold retiresUnread
          split
          · next hpc =>
            rw [hpc] at hrest
            exact absurd hrest (by simp [Pc.resting])
          · rfl
        simp [careful, behaved, hw, Action.behaves, hdec, hretire]
    | absent | listed | ready => simp [careful, behaved, hw, Action.behaves]
  | start | importer | fail | kill | openWriter | issue | append | close | ret | stopWriter =>
    simpa [calm, careful, behaved] using h

end Calm

/-! ## Segments the cycle has left -/

/-- Nothing is added during a cycle: what it has left behind is stored, the segment it has stopped
at has no more records than it has read, and there are no gaps. -/
structure Settled {H : Type} (P : Setup H) (s : System H) : Prop where
  left : s.pc.resting = false → ∀ j ∈ s.disk.keys, j ∉ s.pc.plan → AllStored P s.disk s.store j
  stopped : ∀ c k n eof todo, s.pc = .stopped c k n eof todo → (recordsAt s.disk k).length = n
  gaps : s.pc.gaps = []

section Settled

variable {H : Type} {P : Setup H} {s s' : System H}

lemma Settled.of_resting (hrest : s'.pc.resting = true) : Settled P s' := by
  refine ⟨fun h => absurd (h.symm.trans hrest) (by simp), fun c k n eof todo hpc => ?_, ?_⟩
  · rw [hpc] at hrest
    exact absurd hrest (by simp [Pc.resting])
  · cases hpc : s'.pc with
    | idle | done => rfl
    | recovering | discarding | loading | recording | walking | counted | reading | committed
    | stopped | pruning => simp [hpc, Pc.resting] at hrest

/-- A step of a cycle on the same files, with the same segments still to do. -/
lemma Settled.quiet (h : Settled P s) (hrest : s.pc.resting = false)
    (hget : ∀ j, s'.disk.get j = s.disk.get j) (hext : s.store.Extends s'.store)
    (hplan : s'.pc.plan = s.pc.plan) (hstopped : ∀ c k n eof todo, s'.pc = .stopped c k n eof todo →
      (recordsAt s'.disk k).length = n) (hgaps : s'.pc.gaps = []) : Settled P s' := by
  refine ⟨fun _ j hj hjp => ?_, hstopped, hgaps⟩
  have hj' : j ∈ s.disk.keys := by
    rw [Dir.mem_keys] at hj ⊢
    rwa [hget] at hj
  exact (h.left hrest j hj' (hplan ▸ hjp)).mono (recordsAt_congr (hget j)) hext

lemma Settled.pc (h : Settled P s) (hrest : s.pc.resting = false) {pc : Pc}
    (hplan : pc.plan = s.pc.plan)
    (hstopped : ∀ c k n eof todo, pc = .stopped c k n eof todo → (recordsAt s.disk k).length = n)
    (hgaps : pc.gaps = []) : Settled P { s with pc := pc } :=
  h.quiet hrest (fun _ => rfl) (.refl _) hplan hstopped hgaps

/-- The cycle drops a segment that is stored, or removes it. -/
lemma Settled.leave (h : Settled P s) (hrest : s.pc.resting = false) {k : Nat} {pc : Pc}
    {d : Dir Bytes} (hd : d = s.disk ∨ d = s.disk.erase k)
    (hplan : ∀ t, t ∈ s.pc.plan ↔ t = k ∨ t ∈ pc.plan) (hk : AllStored P s.disk s.store k)
    (hstopped : ∀ c k n eof todo, pc ≠ .stopped c k n eof todo) (hgaps : pc.gaps = []) :
    Settled P { s with disk := d, pc := pc } := by
  refine ⟨fun _ j hj hjp => ?_, fun c k n eof todo hpc => absurd hpc (hstopped c k n eof todo), hgaps⟩
  have hstored (hj : j ∈ s.disk.keys) : AllStored P s.disk s.store j := by
    by_cases hjk : j = k
    · exact hjk ▸ hk
    · refine h.left hrest j hj ?_
      rw [hplan, not_or]
      exact ⟨hjk, hjp⟩
  rcases hd with rfl | rfl
  · exact hstored hj
  · obtain ⟨hj, hjk⟩ := Dir.mem_keys_erase.1 hj
    exact (hstored hj).mono (by rw [recordsAt_erase, if_neg hjk]) (.refl _)

variable [DecidableEq H]

attribute [local simp] Pc.plan

lemma Settled.imported (h : Settled P s) (hord : Ordered s) (hshape : Shape s) (hkept : Kept P s)
    {i : Input} (hstep : Imported P s i s') : Settled P s' := by
  have hgaps := h.gaps
  have hplace := hshape.here
  have hhere := hkept.here
  have hnil {k : Nat} {file : Bytes} (hfile : s.disk.get k = some file)
      (hline : readLine file = none) : AllStored P s.disk s.store k := by
    rw [hshape.files.eq_nil hfile hline] at hfile
    intro b hb
    rw [recordsAt_nil hfile] at hb
    cases hb
  cases hstep with
  | aborted | gapRefused | refused | finished => exact .of_resting rfl
  | recovered hpc =>
    split
    · exact .of_resting rfl
    · refine h.pc (by simp [hpc, Pc.resting]) (by simp [hpc]) (by simp) ?_
      rwa [hpc] at hgaps
  | skipped hpc hfile hline =>
    refine h.leave (by simp [hpc, Pc.resting]) (.inl rfl) (fun t => ?_) (hnil hfile hline) (by simp) ?_
    · simp [hpc, or_comm]
    · rwa [hpc] at hgaps
  | headerless hpc | loaded hpc =>
    refine h.pc (by simp [hpc, Pc.resting]) (by simp [hpc]) (by simp) ?_
    rwa [hpc] at hgaps
  | scanned hpc hfile hrec hhead =>
    refine h.quiet (by simp [hpc, Pc.resting]) (hshape.files.recover_get hfile hrec hhead) (.refl _)
      (by simp [hpc, Report.add]) (by simp) ?_
    rw [hpc] at hgaps
    simpa [Pc.gaps, Report.add, (hshape.files.recover hfile hrec hhead).2] using hgaps
  | @discarded k todo report hpc _ =>
    rw [hpc] at hplace
    refine h.leave (by simp [hpc, Pc.resting]) (.inr rfl) (fun t => ?_)
      (hnil hplace.1 (by decide)) (by simp) ?_
    · simp only [hpc, Pc.plan, mem_append, mem_cons]
      tauto
    · rwa [hpc] at hgaps
  | gapRecorded hpc => simp [hpc, Pc.gaps] at hgaps
  | gapsDone hpc | past hpc | opened hpc | passed hpc =>
    exact h.pc (by simp [hpc, Pc.resting]) (by simp [hpc]) (by simp) rfl
  | commit hpc =>
    exact h.quiet (by simp [hpc, Pc.resting]) (fun _ => rfl) (Store.extends_append P.hash _ _)
      (by simp [hpc]) (by simp) rfl
  | wroteCursor hpc =>
    exact h.quiet (by simp [hpc, Pc.resting]) (fun _ => rfl) (.refl _)
      (by simp [hpc, cursorStep]) (by simp [cursorStep]) rfl
  | @probedPast c k n todo file closed hpc hfile hmark =>
    rw [hpc] at hhere
    have hread := hkept.cursor c (hord.cursor.held c (by simp [hpc, Pc.cursor])) k
      (Dir.mem_keys_of_get hfile)
    rw [CursorRead, show place c k = .past from hhere] at hread
    split
    · exact h.pc (by simp [hpc, Pc.resting]) (by simp [hpc]) (by simp) rfl
    · exact h.leave (k := k) (by simp [hpc, Pc.resting]) (.inl rfl) (by simp [hpc]) hread
        (by simp) rfl
  | @atEnd c r todo bs hpc hbs hnext =>
    rw [hpc] at hplace
    obtain ⟨g, hget, -, hmatch⟩ := hplace.next P.conv hbs
    rw [hnext] at hmatch
    refine h.pc (by simp [hpc, Pc.resting]) (by simp [hpc]) (fun c k n eof todo heq => ?_) rfl
    simp only [Pc.stopped.injEq] at heq
    obtain ⟨-, rfl, rfl, -⟩ := heq
    rw [recordsAt_segment hget, hmatch]
  | @atCorrupt c r todo bs hpc hbs hnext =>
    rw [hpc] at hplace
    exact absurd hnext (hkept.not_corrupt hplace hbs)
  | @probed c k n eof todo file closed hpc hfile hmark =>
    rw [hpc] at hhere
    split
    · exact h.pc (by simp [hpc, Pc.resting]) (by simp [hpc]) (by simp) rfl
    · exact h.leave (k := k) (by simp [hpc, Pc.resting]) (.inl rfl) (by simp [hpc])
        (hhere.1.all (h.stopped c k n eof todo hpc)) (by simp) rfl
  | @pruned c k todo hpc _ =>
    rw [hpc] at hhere
    exact h.leave (k := k) (by simp [hpc, Pc.resting]) (.inr rfl) (by simp [hpc]) hhere
      (by simp) rfl

lemma Settled.step (h : Settled P s) (hord : Ordered s) (hshape : Shape s) (hkept : Kept P s)
    {a : Action} (ha : calm P s a = true) (hstep : step P s a = some s') : Settled P s' := by
  cases step_cases hstep with
  | start => exact ⟨fun _ j hj hjp => absurd (by simpa using hj) hjp, by simp, rfl⟩
  | importer himp => exact h.imported hord hshape hkept himp
  | fail | kill => exact .of_resting rfl
  | @op op ops next ack hw =>
    refine .of_resting ?_
    rw [hshape.op_pc hw]
    exact (calm_op ha hw).1
  | writer => exact ⟨h.left, h.stopped, h.gaps⟩

end Settled

/-! ## What the store has taken -/

/-- The store takes the record, now and later. -/
def Formed {H : Type} (P : Setup H) (store₀ store : Store H) (b : Bytes) : Prop :=
  ∃ env payload, Envelope.unmarshal P.conv b = some env ∧ Store.checkAppend env = .ok payload ∧
    store.scopeOf env.sourceInstanceID ∈ [none, some env.vmID] ∧
    ∀ x ∈ entries store₀, x.key ≠ (env.sourceInstanceID, env.sourceSeq)

/-- The store holds what it began with and the first `n` records of the log. -/
def TakenUpto {H : Type} (P : Setup H) (store₀ : Store H) (s : System H) (n : Nat) : Prop :=
  (entries s.store).map some = (entries store₀).map some ++ logEntries P (s.log.take n)

structure Taken {H : Type} (P : Setup H) (store₀ : Store H) (s : System H) : Prop where
  formed : ∀ p ∈ s.log, Formed P store₀ s.store p.2
  distinct : s.log.Pairwise fun p q => ∀ x y, Entry.ofRecord P p.2 = some x →
    Entry.ofRecord P q.2 = some y → x.key ≠ y.key
  scopes : ∀ p ∈ s.log, ∀ q ∈ s.log, ∀ x y, Entry.ofRecord P p.2 = some x →
    Entry.ofRecord P q.2 = some y → x.source = y.source → x.vmID = y.vmID
  taken : ∃ n ≤ s.log.length, TakenUpto P store₀ s n

section Taken

variable {H : Type} {P : Setup H} {store₀ : Store H} {s s' : System H}

variable {b : Bytes} {env : Envelope} {i k n : Nat} {p : Nat × Bytes}

lemma ofRecord_eq {payload : Bytes} (henv : Envelope.unmarshal P.conv b = some env)
    (hcheck : Store.checkAppend env = .ok payload) :
    Entry.ofRecord P b = some (.ofEnvelope env payload) := by
  simp [Entry.ofRecord, henv, (Store.checkAppend_eq_ok.1 hcheck).2.2.2]

lemma Taken.of_key (h : Taken P store₀ s) (hn : TakenUpto P store₀ s n) (hp : s.log[i]? = some p)
    {x : Entry} (hx : Entry.ofRecord P p.2 = some x) {e : Store.Event H} (he : e ∈ s.store.events)
    (hkey : (Entry.ofEvent e).key = x.key) :
    i < n ∧ Entry.ofEvent e = x := by
  have hpmem := mem_of_getElem? hp
  have hmem : some (Entry.ofEvent e) ∈ (entries s.store).map some :=
    mem_map_of_mem (mem_map_of_mem he)
  rw [hn, mem_append] at hmem
  rcases hmem with hold | hnew
  · obtain ⟨env, payload, henv, hcheck, -, hfresh⟩ := h.formed p hpmem
    rw [ofRecord_eq henv hcheck] at hx
    cases hx
    obtain ⟨y, hy, hye⟩ := mem_map.1 hold
    cases hye
    exact absurd hkey (hfresh _ hy)
  · obtain ⟨j, hj⟩ := mem_iff_getElem?.1 hnew
    simp only [logEntries, List.getElem?_map, map_eq_some_iff] at hj
    obtain ⟨q, hq, hqe⟩ := hj
    have hjn : j < n := by
      by_contra hge
      rw [List.getElem?_take_eq_none (by omega)] at hq
      cases hq
    rw [List.getElem?_take_of_lt hjn] at hq
    -- two places of the log with one key are the same place
    obtain ⟨hjlen, rfl⟩ := List.getElem?_eq_some_iff.1 hq
    obtain ⟨hilen, rfl⟩ := List.getElem?_eq_some_iff.1 hp
    rcases Nat.lt_trichotomy j i with hlt | rfl | hgt
    · exact absurd hkey (pairwise_iff_getElem.1 h.distinct j i hjlen hilen hlt _ _ hqe hx)
    · rw [hx] at hqe
      exact ⟨hjn, (Option.some.inj hqe).symm⟩
    · exact absurd hkey.symm
        (pairwise_iff_getElem.1 h.distinct i j hilen hjlen hgt _ _ hx hqe)

lemma Taken.of_stored (h : Taken P store₀ s) (hn : TakenUpto P store₀ s n)
    (hp : s.log[i]? = some p) (hstored : Stored P s.store p.2) : i < n := by
  obtain ⟨env, payload, henv, hpayload, e, he, hkey, -⟩ := hstored
  have hx : Entry.ofRecord P p.2 = some (.ofEnvelope env payload) := by
    simp [Entry.ofRecord, henv, hpayload]
  exact (h.of_key hn hp hx he hkey).1

lemma Taken.le_of_stored (h : Taken P store₀ s) (hn : TakenUpto P store₀ s n)
    {front back : List (Nat × Bytes)} (hlog : s.log = front ++ back)
    (hfront : ∀ p ∈ front, Stored P s.store p.2) : front.length ≤ n := by
  by_contra hlt
  rw [not_le] at hlt
  have hp : s.log[n]? = some front[n] := by
    rw [hlog, List.getElem?_append_left hlt, List.getElem?_eq_getElem hlt]
  exact lt_irrefl _ (h.of_stored hn hp (hfront _ (getElem_mem hlt)))

lemma TakenUpto.mem (hn : TakenUpto P store₀ s n) (hp : s.log[i]? = some p) (hi : i < n)
    {x : Entry} (hx : Entry.ofRecord P p.2 = some x) :
    ∃ e ∈ s.store.events, Entry.ofEvent e = x := by
  have hmem : some x ∈ (entries s.store).map some := by
    rw [hn, mem_append]
    refine .inr (mem_map.2 ⟨p, ?_, hx⟩)
    exact mem_of_getElem? ((List.getElem?_take_of_lt hi).trans hp)
  obtain ⟨y, hy, hyx⟩ := mem_map.1 hmem
  cases hyx
  exact mem_map.1 hy

/-- A step that leaves the log and the tables alone. -/
lemma Taken.quiet (h : Taken P store₀ s) (hlog : s'.log = s.log)
    (hevents : s'.store.events = s.store.events) (hstreams : s'.store.streams = s.store.streams) :
    Taken P store₀ s' := by
  have hentries : entries s'.store = entries s.store := by simp [entries, hevents]
  refine ⟨fun p hp => ?_, hlog ▸ h.distinct, hlog ▸ h.scopes, ?_⟩
  · obtain ⟨env, payload, henv, hcheck, hin, hfresh⟩ := h.formed p (hlog ▸ hp)
    exact ⟨env, payload, henv, hcheck, by rwa [Store.scopeOf_congr hstreams], hfresh⟩
  · obtain ⟨n, hle, hn⟩ := h.taken
    refine ⟨n, hlog ▸ hle, ?_⟩
    rw [TakenUpto, hentries, hlog]
    exact hn

/-- The records before the one being read. -/
lemma split_of_loggedAt {log : List (Nat × Bytes)} (h : (loggedAt log k)[n]? = some b) :
    ∃ front back, log = front ++ (k, b) :: back ∧ loggedAt front k = (loggedAt log k).take n := by
  unfold loggedAt at h ⊢
  rw [List.getElem?_map, map_eq_some_iff] at h
  obtain ⟨⟨j, b'⟩, hget, rfl⟩ := h
  obtain ⟨hn, hget⟩ := List.getElem?_eq_some_iff.1 hget
  have hj : j = k := by
    have hmem : (j, b') ∈ log.filter fun p => p.1 == k := hget ▸ getElem_mem hn
    simpa using (mem_filter.1 hmem).2
  subst hj
  have hsplit := (take_append_drop n (log.filter fun p => p.1 == j)).symm
  rw [drop_eq_getElem_cons hn, hget] at hsplit
  obtain ⟨front, rest, rfl, hfront, hrest⟩ := filter_eq_append_iff.1 hsplit
  obtain ⟨skipped, back, rfl, hskipped, -, -⟩ := filter_eq_cons_iff.1 hrest
  refine ⟨front ++ skipped, back, by simp, ?_⟩
  rw [filter_append, filter_eq_nil_iff.2 hskipped, append_nil, hfront, map_take]

lemma stored_before (hshape : Shape s) (hkept : Kept P s) (hist : History s) {c : Cursor}
    {r : Reading} {todo : List Nat} (hpc : s.pc = .reading c r todo)
    (hb : (recordsAt s.disk r.segment)[r.recIdx]? = some b) :
    ∃ front back, s.log = front ++ (r.segment, b) :: back ∧
      ∀ p ∈ front, Stored P s.store p.2 := by
  have hkey : r.segment ∈ s.disk.keys := hshape.plan.onDisk _ (by simp [hpc, Pc.plan])
  have hrec := hist.records _ hkey
  obtain ⟨front, back, hlog, hfront⟩ := split_of_loggedAt (hrec ▸ hb)
  refine ⟨front, back, hlog, fun p hp => ?_⟩
  have hpk : p.1 ≤ r.segment := by
    have hsorted := hist.sorted
    rw [hlog] at hsorted
    exact (pairwise_append.1 hsorted).2.2 p hp (r.segment, b) (by simp)
  have hlogged := hkept.logged p.1 p.2 (by simp [hlog, hp])
  refine hlogged.elim id fun hmem => ?_
  rcases hpk.lt_or_eq with hlt | heq
  · refine hkept.walked p.1 r.segment (by simp [hpc, Pc.plan]) hlt (fun hin => ?_) _ hmem
    have hsorted := hshape.plan.sorted
    rw [hpc] at hin hsorted
    rcases mem_cons.1 hin with heq | hin
    · exact absurd heq hlt.ne
    · exact absurd ((pairwise_cons.1 hsorted).1 p.1 hin) (by omega)
  · have hhere := hkept.here
    rw [hpc] at hhere
    refine hhere.1.2 p.2 ?_
    rw [hrec, ← hfront]
    exact mem_loggedAt.2 (heq ▸ hp)

/-- A binding that agrees with the scopes of the log changes nothing for its records. -/
lemma Taken.formed_bind (h : Taken P store₀ s) {q : Nat × Bytes} (hq : q ∈ s.log) {payload : Bytes}
    (henv : Envelope.unmarshal P.conv q.2 = some env)
    (hcheck : Store.checkAppend env = .ok payload) (hp : p ∈ s.log) {store' : Store H}
    (hstreams : store'.streams = s.store.streams ∨
      store'.streams = s.store.streams ++ [(env.sourceInstanceID, env.vmID)]) :
    Formed P store₀ store' p.2 := by
  obtain ⟨env', payload', henv', hcheck', hscope, hfresh⟩ := h.formed p hp
  refine ⟨env', payload', henv', hcheck', ?_, hfresh⟩
  rcases hstreams with heq | heq
  · rwa [Store.scopeOf_congr heq]
  · have hbind := (Store.scopeOf_congr heq env'.sourceInstanceID).trans
      (Store.scopeOf_append s.store env'.sourceInstanceID env.sourceInstanceID env.vmID)
    rw [hbind]
    rcases mem_cons.1 hscope with hnone | hsome
    · rw [hnone, none_or]
      split
      · next hsource =>
        have hvm : env.vmID = env'.vmID :=
          h.scopes q hq p hp _ _ (ofRecord_eq henv hcheck) (ofRecord_eq henv' hcheck') hsource
        simp [hvm]
      · simp
    · rw [mem_singleton.1 hsome]
      simp

variable [DecidableEq H]

lemma Taken.commit (h : Taken P store₀ s) {i : Input} {front back : List (Nat × Bytes)}
    (hlog : s.log = front ++ (k, b) :: back) (hfront : ∀ p ∈ front, Stored P s.store p.2)
    (henv : Envelope.unmarshal P.conv b = some env) (herr : (storeAppend P s i env).2.err = none)
    (pc : Pc) :
    Taken P store₀ { s with store := (storeAppend P s i env).1, pc := pc } := by
  obtain ⟨res, hcase⟩ := Store.append_ok_cases P.hash herr
  change Store.PlainCase P.hash s.store env ((storeAppend P s i env).1, res, none) at hcase
  generalize (storeAppend P s i env).1 = store' at hcase ⊢
  cases hcase with
  | duplicate => exact h.quiet rfl rfl rfl
  | inserted payload row streams hcheck hlookup hrow hstreams =>
    obtain ⟨-, hsource, hseq, hvm, -, hpayload, -⟩ := hrow
    have hmem : (k, b) ∈ s.log := by simp [hlog]
    have hp : s.log[front.length]? = some (k, b) := by simp [hlog]
    obtain ⟨n, hle, hn⟩ := h.taken
    have hnew : n ≤ front.length := by
      by_contra hlt
      obtain ⟨e, he, hentry⟩ := hn.mem hp (not_le.1 hlt) (ofRecord_eq henv hcheck)
      have hkey : e.key = (env.sourceInstanceID, env.sourceSeq) := congrArg Entry.key hentry
      exact Store.lookup_eq_none.1 hlookup (hkey ▸ mem_map_of_mem he)
    obtain rfl : n = front.length := le_antisymm hnew (h.le_of_stored hn hlog hfront)
    refine ⟨fun p hp => h.formed_bind hmem henv hcheck hp (hstreams.imp And.right And.right),
      h.distinct, h.scopes, front.length + 1, by simp [hlog], ?_⟩
    have hrow : Entry.ofEvent row = .ofEnvelope env payload := by
      simp [Entry.ofEvent, Entry.ofEnvelope, hsource, hseq, hvm, hpayload]
    unfold TakenUpto at hn ⊢
    dsimp only [entries] at hn ⊢
    rw [map_append, map_append, hn, take_add_one, hp]
    simp [logEntries, hrow, ofRecord_eq henv hcheck]

/-- A record of the log is refused only by the database, and then nothing changes. -/
lemma Taken.refused (h : Taken P store₀ s) (hwf : s.store.Wf P.hash) {i : Input}
    (hmem : (k, b) ∈ s.log) (henv : Envelope.unmarshal P.conv b = some env) :
    if i.dbOk then (storeAppend P s i env).2.err = none else (storeAppend P s i env).1 = s.store := by
  obtain ⟨env', payload, henv', hcheck, hscope, -⟩ := h.formed _ hmem
  obtain rfl : env = env' := Option.some.inj (henv.symm.trans henv')
  refine Store.append_formed P.hash (c := ⟨env, i.dbOk, i.healthDbOk, i.now⟩) hcheck hscope
    fun e he => ?_
  obtain ⟨hin, hkey⟩ := Store.mem_of_lookup he
  obtain ⟨n, -, hn⟩ := h.taken
  obtain ⟨j, hj⟩ := mem_iff_getElem?.1 hmem
  have hentry := (h.of_key hn hj (ofRecord_eq henv hcheck) hin hkey).2
  have hpayload : e.payload = payload := congrArg Entry.payload hentry
  rw [hwf.hashed e hin, hpayload]

/-- A step of a cycle takes the next record or none. -/
lemma Taken.imported (h : Taken P store₀ s) (hshape : Shape s) (hkept : Kept P s)
    (hist : History s) (hsettled : Settled P s) {i : Input} (hstep : Imported P s i s') :
    Taken P store₀ s' := by
  have hgaps := hsettled.gaps
  have hplace := hshape.here
  -- the record at the reader's place is in the log, after records that are stored
  have hread {c : Cursor} {r : Reading} {todo : List Nat} {bs rest : Bytes} {env : Envelope}
      (hpc : s.pc = .reading c r todo) (hbs : r.bytes s.disk = some bs)
      (hnext : SegmentIter.next P.conv bs = .envelope env rest) :
      ∃ b front back, s.log = front ++ (r.segment, b) :: back ∧
        (∀ p ∈ front, Stored P s.store p.2) ∧ Envelope.unmarshal P.conv b = some env := by
    rw [hpc] at hplace
    obtain ⟨g, hget, -, hmatch⟩ := hplace.next P.conv hbs
    rw [hnext] at hmatch
    obtain ⟨b, hb, henv, -⟩ := hmatch
    obtain ⟨front, back, hlog, hfront⟩ := stored_before hshape hkept hist hpc
      (b := b) (by rw [recordsAt_segment hget, hb])
    exact ⟨b, front, back, hlog, hfront, henv⟩
  cases hstep with
  | aborted | recovered | skipped | headerless | scanned | discarded | loaded | gapsDone | finished
  | past | opened | probedPast | atEnd | atCorrupt | passed | wroteCursor | probed | pruned =>
    exact h.quiet rfl rfl rfl
  | gapRecorded hpc | gapRefused hpc => simp [hpc, Pc.gaps] at hgaps
  | commit hpc hbs hnext _ herr =>
    obtain ⟨b, front, back, hlog, hfront, henv⟩ := hread hpc hbs hnext
    exact h.commit hlog hfront henv herr _
  | @refused c r todo bs env rest hpc hbs hnext _ herr =>
    obtain ⟨b, front, back, hlog, -, henv⟩ := hread hpc hbs hnext
    have hdb := h.refused hkept.wf (i := i) (k := r.segment) (by simp [hlog]) henv
    split at hdb
    · exact absurd hdb herr
    · exact h.quiet rfl (by simp [abort, hdb]) (by simp [abort, hdb])

omit [DecidableEq H] in
/-- A record is written. -/
lemma Taken.op (h : Taken P store₀ s) (hshape : Shape s) (hord : Ordered s) {op : FileOp}
    {ops : List FileOp} {next : Option Writer} {ack : Option Bytes}
    (hw : s.writer = .busy (op :: ops) next ack)
    (hall : ∀ p ∈ op.added s.disk, acceptable P s p.2 = true) :
    Taken P store₀ (opStep s op ops next ack) := by
  rcases (hshape.op_effect hord hw).1.records with ⟨hnil, -⟩ | ⟨k, b, -, -, hadded, -⟩
  · exact h.quiet (by simp [opStep, hnil]) rfl rfl
  obtain ⟨env, payload, henv, hcheck, hscope, hstore, hlog⟩ :=
    acceptable_spec (hall (k, b) (by simp [hadded]))
  have hrec := ofRecord_eq henv hcheck
  have hlog' : (opStep s op ops next ack).log = s.log ++ [(k, b)] := by rw [← hadded]; rfl
  obtain ⟨n, hle, hn⟩ := h.taken
  have hinit : ∀ x ∈ entries store₀, x.key ≠ (env.sourceInstanceID, env.sourceSeq) := by
    intro x hx
    refine hstore x ?_
    have hmem : some x ∈ (entries s.store).map some := by
      rw [hn]
      exact mem_append_left _ (mem_map_of_mem hx)
    simpa using hmem
  refine ⟨fun p hp => ?_, ?_, fun p hp q hq x y hx hy hsource => ?_, n, ?_, ?_⟩
  · rw [hlog', mem_append, mem_singleton] at hp
    rcases hp with hp | rfl
    · exact h.formed p hp
    · exact ⟨env, payload, henv, hcheck, hscope, hinit⟩
  · rw [hlog']
    refine pairwise_append.2 ⟨h.distinct, pairwise_singleton _ _, ?_⟩
    intro p hp q hq x y hx hy
    rw [mem_singleton.1 hq, hrec] at hy
    rw [← Option.some.inj hy]
    exact (hlog p hp x hx).1
  · rw [hlog', mem_append, mem_singleton] at hp hq
    rcases hp with hp | rfl <;> rcases hq with hq | rfl
    · exact h.scopes p hp q hq x y hx hy hsource
    · obtain rfl := Option.some.inj (hrec.symm.trans hy)
      exact (hlog p hp x hx).2 hsource
    · obtain rfl := Option.some.inj (hrec.symm.trans hx)
      exact ((hlog q hq y hy).2 hsource.symm).symm
    · rw [Option.some.inj (hx.symm.trans hy)]
  · rw [hlog', length_append]
    omega
  · rw [TakenUpto, hlog', take_append_of_le_length hle]
    exact hn

lemma Taken.step (h : Taken P store₀ s) (hord : Ordered s) (hshape : Shape s) (hkept : Kept P s)
    (hist : History s) (hsettled : Settled P s) {a : Action} (ha : calm P s a = true)
    (hstep : step P s a = some s') : Taken P store₀ s' := by
  cases step_cases hstep with
  | start | fail | kill | writer => exact h.quiet rfl rfl rfl
  | importer himp => exact h.imported hshape hkept hist hsettled himp
  | op hw => exact h.op hshape hord hw (calm_op ha hw).2

end Taken

end Observatory.Spool
