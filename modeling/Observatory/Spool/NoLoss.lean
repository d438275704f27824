/-
# No acknowledged record is lost

The importer removes a segment when it has read it to its end and then finds the end marker.
Between the two the writer may append and retire, and then a record goes that was never read.
When no segment is retired behind the importer's back in that way, every record whose append
returned nil is in the store or still on disk at a place the importer has not passed. The
invariant says what is stored: everything up to the persisted cursor, everything the running
cycle has read, and every segment it has left behind.
-/
import Observatory.Spool.Shape

namespace Observatory.Spool

open Lib Events List

variable {H : Type}

/-! ## Records in the store -/

def Stored (P : Setup H) (store : Store H) (b : Bytes) : Prop :=
  ∃ env payload, Envelope.unmarshal P.conv b = some env ∧ env.marshal = some payload ∧
    ∃ e ∈ store.events, e.key = (env.sourceInstanceID, env.sourceSeq) ∧ e.payload = payload

def AllStored (P : Setup H) (d : Dir Bytes) (store : Store H) (k : Nat) : Prop :=
  ∀ b ∈ recordsAt d k, Stored P store b

/-- The first `m` records of the segment are there and stored. -/
def Upto (P : Setup H) (d : Dir Bytes) (store : Store H) (k m : Nat) : Prop :=
  m ≤ (recordsAt d k).length ∧ ∀ b ∈ (recordsAt d k).take m, Stored P store b

section Stored

variable {P : Setup H} {d d' : Dir Bytes} {store store' : Store H} {k m : Nat}

variable {b : Bytes}

lemma Stored.mono (h : Stored P store b) (hext : store.Extends store') :
    Stored P store' b := by
  obtain ⟨env, payload, henv, hpayload, e, he, hkey⟩ := h
  exact ⟨env, payload, henv, hpayload, e, hext.1.subset he, hkey⟩

lemma AllStored.mono (h : AllStored P d store k) (hrec : recordsAt d' k = recordsAt d k)
    (hext : store.Extends store') : AllStored P d' store' k :=
  fun b hb => (h b (hrec ▸ hb)).mono hext

lemma Upto.mono (h : Upto P d store k m) (hrec : recordsAt d k <+: recordsAt d' k)
    (hext : store.Extends store') : Upto P d' store' k m := by
  refine ⟨h.1.trans hrec.length_le, fun b hb => (h.2 b ?_).mono hext⟩
  obtain ⟨more, hmore⟩ := hrec
  rwa [← hmore, take_append_of_le_length h.1] at hb

lemma Upto.le {n : Nat} (h : Upto P d store k n) (hmn : m ≤ n) : Upto P d store k m :=
  ⟨hmn.trans h.1, fun b hb => h.2 b ((take_prefix_take_left hmn).subset hb)⟩

lemma Upto.zero : Upto P d store k 0 := ⟨Nat.zero_le _, by simp⟩

lemma Upto.succ (h : Upto P d store k m) (hb : (recordsAt d k)[m]? = some b)
    (hstored : Stored P store b) : Upto P d store k (m + 1) := by
  refine ⟨(List.getElem?_eq_some_iff.1 hb).1, fun b' hb' => ?_⟩
  rw [take_add_one, hb, Option.toList_some, mem_append, mem_singleton] at hb'
  rcases hb' with hb' | rfl
  · exact h.2 b' hb'
  · exact hstored

lemma Upto.get (h : Upto P d store k m) {n : Nat} (hb : (recordsAt d k)[n]? = some b) (hn : n < m) :
    Stored P store b :=
  h.2 b (mem_of_getElem? ((List.getElem?_take_of_lt hn).trans hb))

lemma Upto.all (h : Upto P d store k m) (hm : (recordsAt d k).length = m) :
    AllStored P d store k := fun b hb => h.2 b (by rwa [← hm, take_length])

lemma stored_of_append [DecidableEq H] (hinj : Function.Injective P.hash) {s : System H}
    {i : Input} {env : Envelope} (hwf : s.store.Wf P.hash)
    (henv : Envelope.unmarshal P.conv b = some env) (herr : (storeAppend P s i env).2.err = none) :
    Stored P (storeAppend P s i env).1 b := by
  obtain ⟨payload, e, hcheck, hlookup, hhash, -, -⟩ := Store.append_accepted P.hash hwf herr
  obtain ⟨hmem, hkey⟩ := Store.mem_of_lookup hlookup
  refine ⟨env, payload, henv, (Store.checkAppend_eq_ok.1 hcheck).2.2.2, e, hmem, hkey, hinj ?_⟩
  rw [← hhash, ((hwf.append P.hash _).hashed e hmem)]

end Stored

/-! ## Places the importer has passed -/

/-- The cursor is at or after the record `n` of the segment `k`. -/
def Cursor.passed (c : Cursor) (k n : Nat) : Prop :=
  match place c k with
  | .past => True
  | .current => (n : Int) ≤ c.record
  | .future => False

/-- The next record of the running cycle, once it walks the segments. -/
def Pc.front : Pc → Option (Nat × Nat)
  | .walking _ (k :: _) | .counted _ k _ _ | .pruning _ k _ => some (k, 0)
  | .reading _ r _ => some (r.segment, r.recIdx)
  | .committed _ r _ => some (r.segment, r.recIdx + 1)
  | .stopped _ k n _ _ => some (k, n)
  | _ => none

/-- The importer has passed the record `n` of the segment `k`: by its persisted cursor, or in the
running cycle. -/
def System.passed (s : System H) (k n : Nat) : Prop :=
  (∃ c, readCursor s.cursorFile = .ok c ∧ c.passed k n) ∨
    ∃ j m, s.pc.front = some (j, m) ∧ (k < j ∨ k = j ∧ n < m)

/-! ## Retirements behind the importer's back -/

def recordsDecode (P : Setup H) (s : System H) (op : FileOp) : Bool :=
  (op.added s.disk).all fun p => (Envelope.unmarshal P.conv p.2).isSome

/-- The operation retires the segment at whose end the importer has stopped, after records were
added to it. -/
def retiresUnread (s : System H) (op : FileOp) : Bool :=
  match op, s.pc with
  | .writeAt k _ _, .stopped _ j n _ _ => k == j && (recordsAt s.disk k).length != n
  | _, _ => false

/-- The files of the writer behave, and its records decode. -/
def behaved (P : Setup H) (s : System H) (a : Action) : Bool :=
  a.behaves &&
    match a, s.writer with
    | .op, .busy (op :: _) _ _ => recordsDecode P s op
    | _, _ => true

/-- The same, and no segment is retired unread. -/
def careful (P : Setup H) (s : System H) (a : Action) : Bool :=
  behaved P s a &&
    match a, s.writer with
    | .op, .busy (op :: _) _ _ => !retiresUnread s op
    | _, _ => true

/-! ## The invariant -/

/-- What a cursor says of a segment on disk. -/
def CursorRead (P : Setup H) (d : Dir Bytes) (store : Store H) (c : Cursor) (k : Nat) : Prop :=
  match place c k with
  | .past => AllStored P d store k
  | .current => Upto P d store k (c.record + 1).toNat
  | .future => True

def Here (P : Setup H) (d : Dir Bytes) (store : Store H) : Pc → Prop
  | .counted c k _ _ => place c k = .past
  | .reading _ r _ => Upto P d store r.segment r.recIdx ∧ Upto P d store r.segment r.skip.toNat
  | .committed _ r _ =>
    Upto P d store r.segment (r.recIdx + 1) ∧ Upto P d store r.segment r.skip.toNat
  | .stopped _ k n _ todo => Upto P d store k n ∧
      ((recordsAt d k).length = n ∨
        todo = [] ∧ ∃ g : Segment, g.closed = false ∧ d.get k = some g.bytes)
  | .pruning _ k _ => AllStored P d store k
  | _ => True

/-- The records that are stored: those the cursor or the running cycle is past, and those that
are no longer on disk. -/
structure Kept (P : Setup H) (s : System H) : Prop where
  wf : s.store.Wf P.hash
  decodes : ∀ k, ∀ b ∈ recordsAt s.disk k, (Envelope.unmarshal P.conv b).isSome = true
  cursor : ∀ c, readCursor s.cursorFile = .ok c → ∀ k ∈ s.disk.keys,
    CursorRead P s.disk s.store c k
  walked : ∀ j, ∀ t ∈ s.pc.plan, j < t → j ∉ s.pc.plan → AllStored P s.disk s.store j
  here : Here P s.disk s.store s.pc
  logged : ∀ k b, (k, b) ∈ s.log → Stored P s.store b ∨ b ∈ recordsAt s.disk k

/-- The records that were acknowledged, and the one about to be, are in the log. -/
structure Acked (s : System H) : Prop where
  logged : ∀ b ∈ s.acked, ∃ k, (k, b) ∈ s.log
  flight : ∀ ops next b, s.writer = .busy ops next (some b) →
    IsBody b ∧ ((∃ k, .write k (encodeFrame b) ∈ ops) ∨ ∃ k, (k, b) ∈ s.log)

section Steps

variable {P : Setup H} {s s' : System H} {d d' : Dir Bytes} {store store' : Store H}

variable {a : Action} {c : Cursor} {todo : List Nat} {k : Nat}

lemma CursorRead.mono (h : CursorRead P d store c k) (hrec : recordsAt d' k = recordsAt d k)
    (hext : store.Extends store') :
    CursorRead P d' store' c k := by
  unfold CursorRead at h ⊢
  split at h
  · exact AllStored.mono h hrec hext
  · exact Upto.mono h (by rw [hrec]) hext
  · trivial

lemma Here.mono {pc : Pc} (h : Here P d store pc) (hget : ∀ j, d'.get j = d.get j)
    (hext : store.Extends store') : Here P d' store' pc := by
  have hrec (j : Nat) : recordsAt d' j = recordsAt d j := recordsAt_congr (hget j)
  have hupto {k m : Nat} (h : Upto P d store k m) : Upto P d' store' k m :=
    h.mono (by rw [hrec]) hext
  cases pc with
  | counted c k n todo => exact h
  | reading c r todo | committed c r todo => exact ⟨hupto h.1, hupto h.2⟩
  | stopped c k n eof todo =>
    refine ⟨hupto h.1, h.2.imp (fun hlen => by rw [hrec, hlen]) fun ⟨hnil, g, hopen, hg⟩ => ?_⟩
    exact ⟨hnil, g, hopen, by rw [hget, hg]⟩
  | pruning c k todo => exact AllStored.mono h (hrec k) hext
  | idle | done | recovering | discarding | loading | recording | walking => trivial

lemma Here.length_of_closed {n : Nat} {eof : Bool} {file : Bytes}
    (h : Here P d store (.stopped c k n eof todo)) (hfile : d.get k = some file)
    (hmark : segmentHasEndMarker file = some true) : (recordsAt d k).length = n := by
  refine h.2.resolve_right ?_
  rintro ⟨-, g, hopen, hget⟩
  rw [hfile] at hget
  rw [Option.some.inj hget, g.hasEndMarker_bytes, hopen] at hmark
  cases hmark

/-- A step that leaves the files alone. -/
lemma Kept.quiet (h : Kept P s) (hget : ∀ j, s'.disk.get j = s.disk.get j)
    (hfile : s'.cursorFile = s.cursorFile) (hlog : s'.log = s.log)
    (hext : s.store.Extends s'.store) (hwf : s'.store.Wf P.hash)
    (hwalked : ∀ j, ∀ t ∈ s'.pc.plan, j < t → j ∉ s'.pc.plan → AllStored P s.disk s.store j)
    (hhere : Here P s.disk s'.store s'.pc) : Kept P s' := by
  have hrec (j : Nat) : recordsAt s'.disk j = recordsAt s.disk j := recordsAt_congr (hget j)
  have hkeys (j : Nat) : j ∈ s'.disk.keys ↔ j ∈ s.disk.keys := by simp [hget]
  refine ⟨hwf, fun k b hb => h.decodes k b (hrec k ▸ hb), fun c hc k hk => ?_,
    fun j t ht hjt hj => (hwalked j t ht hjt hj).mono (hrec j) hext,
    hhere.mono hget (.refl _), fun k b hb => ?_⟩
  · exact (h.cursor c (hfile ▸ hc) k ((hkeys k).1 hk)).mono (hrec k) hext
  · rw [hrec]
    exact (h.logged k b (hlog ▸ hb)).imp_left fun hs => hs.mono hext

/-- A step of a cycle that leaves the files alone, with the same segments still to do. -/
lemma Kept.pc (h : Kept P s) {pc : Pc} (hplan : pc.plan = s.pc.plan)
    (hhere : Here P s.disk s.store pc) : Kept P { s with pc := pc } :=
  h.quiet (fun _ => rfl) rfl rfl (.refl _) h.wf
    (fun j t ht hjt hj => h.walked j t (hplan ▸ ht) hjt (hplan ▸ hj)) hhere

/-- The cycle is over. -/
lemma Kept.rest (h : Kept P s) {pc : Pc} (hplan : pc.plan = []) (hhere : Here P s.disk store' pc)
    (hext : s.store.Extends store') (hwf : store'.Wf P.hash) :
    Kept P { s with store := store', pc := pc } :=
  h.quiet (fun _ => rfl) rfl rfl hext hwf (fun j t ht => absurd (hplan ▸ ht) (by simp)) hhere

/-- The cycle leaves a segment behind it. -/
lemma Kept.leave (h : Kept P s) {pc : Pc} (hplan : s.pc.plan = k :: todo) (hplan' : pc.plan = todo)
    (hhere : Here P s.disk s.store pc) (hk : todo ≠ [] → AllStored P s.disk s.store k) :
    Kept P { s with pc := pc } := by
  refine h.quiet (fun _ => rfl) rfl rfl (.refl _) h.wf
    (fun j t ht hjt hj => ?_) hhere
  have ht' : t ∈ todo := hplan' ▸ ht
  by_cases hjk : j = k
  · exact hjk ▸ hk (ne_nil_of_mem ht')
  · refine h.walked j t (by simp [hplan, ht']) hjt ?_
    rw [hplan, mem_cons, not_or]
    exact ⟨hjk, hplan' ▸ hj⟩

/-- A segment is removed. -/
lemma Kept.erase (h : Kept P s) {pc : Pc} (hk : AllStored P s.disk s.store k)
    (hplan : ∀ t, t ∈ s.pc.plan ↔ t = k ∨ t ∈ pc.plan) (hhere : ∀ d store, Here P d store pc) :
    Kept P { s with disk := s.disk.erase k, pc := pc } := by
  have hrec {j : Nat} (hjk : j ≠ k) : recordsAt (s.disk.erase k) j = recordsAt s.disk j := by
    rw [recordsAt_erase, if_neg hjk]
  have hnil : recordsAt (s.disk.erase k) k = [] := by rw [recordsAt_erase, if_pos rfl]
  have hrefl : s.store.Extends s.store := .refl _
  refine ⟨h.wf, fun j b hb => ?_, fun c hc j hj => ?_, fun j t ht hjt hj => ?_, hhere _ _,
    fun j b hb => ?_⟩
  · rw [recordsAt_erase] at hb
    split at hb
    · cases hb
    · exact h.decodes j b hb
  · rw [Dir.mem_keys_erase] at hj
    exact (h.cursor c hc j hj.1).mono (hrec hj.2) hrefl
  · by_cases hjk : j = k
    · intro b hb
      rw [hjk, hnil] at hb
      cases hb
    · refine (h.walked j t ((hplan t).2 (.inr ht)) hjt ?_).mono (hrec hjk) hrefl
      rw [hplan, not_or]
      exact ⟨hjk, hj⟩
  · by_cases hjk : j = k
    · subst hjk
      exact .inl ((h.logged j b hb).elim id (hk b))
    · rw [hrec hjk]
      exact h.logged j b hb

lemma Kept.not_corrupt (h : Kept P s) {r : Reading} {bs : Bytes}
    (hplace : HereOk s.disk (.reading c r todo)) (hbs : r.bytes s.disk = some bs) :
    SegmentIter.next P.conv bs ≠ .corruptRecord := by
  intro hnext
  obtain ⟨g, hget, -, hmatch⟩ := hplace.next P.conv hbs
  rw [hnext] at hmatch
  obtain ⟨b, hb, hnone⟩ := hmatch
  have hmem : b ∈ recordsAt s.disk r.segment := by
    rw [recordsAt_segment hget]
    exact mem_of_getElem? hb
  have hdec := h.decodes r.segment b hmem
  rw [hnone] at hdec
  cases hdec

lemma Kept.cursorStep (h : Kept P s) (hord : Ordered s) (hshape : Shape s) {r : Reading}
    (hpc : s.pc = .committed c r todo) (hlt : r.recIdx < 2 ^ 63) :
    Kept P (cursorStep s r todo) := by
  have hmax := (hord.cursor.notPast c r todo (.inr hpc)).1
  have hnames : Names ⟨segmentName r.segment, r.recIdx⟩ r.segment := ⟨hmax, rfl⟩
  have hhere := h.here
  have hwalked := h.walked
  have hsorted := hshape.plan.sorted
  rw [hpc] at hhere hwalked hsorted
  refine ⟨h.wf, h.decodes, fun c' hc' k hk => ?_, hwalked, hhere, h.logged⟩
  rw [Spool.cursorStep, readCursor_marshal hmax hlt] at hc'
  cases hc'
  unfold CursorRead
  rw [place_of_names hnames (hord.cursor.keys_le k hk)]
  rcases Nat.lt_trichotomy k r.segment with hlt' | rfl | hgt
  · rw [if_pos hlt']
    refine hwalked k r.segment (by simp [Pc.plan]) hlt' fun hmem => ?_
    rcases mem_cons.1 hmem with rfl | hmem
    · exact lt_irrefl _ hlt'
    · exact absurd ((pairwise_cons.1 hsorted).1 k hmem) (by omega)
  · rw [if_neg (lt_irrefl _), if_pos rfl]
    exact hhere.1
  · rw [if_neg (by omega), if_neg (by omega)]
    trivial

/-- An operation of the writer keeps what the place of the cycle says. -/
lemma Here.op {pc : Pc} {f : Option Bytes} {op : FileOp} (h : Here P d store pc)
    (hplace : HereOk d pc) (hplan : PlanOk d pc.plan) (heff : OpEffect d f op)
    (hretire : ∀ c k n eof todo offset bytes, pc = .stopped c k n eof todo →
      op = .writeAt k offset bytes → (recordsAt d k).length = n) :
    Here P (op.apply d) store pc := by
  have hupto {k m : Nat} (h : Upto P d store k m) : Upto P (op.apply d) store k m :=
    h.mono (heff.recordsAt_prefix k) (.refl _)
  cases pc with
  | counted c k n todo => exact h
  | reading c r todo | committed c r todo => exact ⟨hupto h.1, hupto h.2⟩
  | stopped c k n eof todo =>
    refine ⟨hupto h.1, ?_⟩
    rcases heff.recordsAt k with heq | ⟨b, g, hop, hopen, hget, hbelow⟩
    · rw [heq]
      rcases h.2 with hlen | ⟨hnil, g, hopen, hget⟩
      · exact .inl hlen
      · rcases heff.open hopen hget with hg | ⟨offset, bytes, hop⟩
        · exact .inr ⟨hnil, hg⟩
        · exact .inl (hretire c k n eof todo offset bytes rfl hop)
    · -- records are added to the newest segment only, so nothing is left to do after it
      rcases heff.open hopen hget with hg | ⟨offset, bytes, hop'⟩
      · refine .inr ⟨eq_nil_iff_forall_not_mem.2 fun t ht => ?_, hg⟩
        have hkt := (pairwise_cons.1 hplan.sorted).1 t ht
        have htk := hbelow.1 t (hplan.onDisk t (.tail _ ht))
        omega
      · cases hop.symm.trans hop'
  | pruning c k todo =>
    obtain ⟨g, hclosed, hget⟩ := hplace
    exact AllStored.mono h (heff.recordsAt_closed hclosed hget) (.refl _)
  | idle | done | recovering | discarding | loading | recording | walking => trivial

lemma Kept.cursorRead_op (h : Kept P s) (hord : Ordered s) {op : FileOp}
    (heff : OpEffect s.disk s.cursorFile op) (hc : readCursor s.cursorFile = .ok c)
    (hk : k ∈ (op.apply s.disk).keys) (hmax : k ≤ maxSegmentIndex) :
    CursorRead P (op.apply s.disk) s.store c k := by
  rcases heff.mem_keys hk with hk | hbelow
  · have hread := h.cursor c hc k hk
    rcases heff.recordsAt k with heq | ⟨-, -, -, -, -, hbelow⟩
    · exact hread.mono heq (.refl _)
    · -- the cursor is not past the newest segment
      unfold CursorRead at hread ⊢
      rcases hord.names hc with hempty | ⟨j, hj⟩
      · rw [place_of_empty hempty]
        trivial
      · have hjk := hbelow.2 c j hc hj
        rw [place_of_names hj hmax, if_neg (by omega)] at hread ⊢
        by_cases hkj : k = j
        · rw [if_pos hkj] at hread ⊢
          exact Upto.mono hread (heff.recordsAt_prefix k) (.refl _)
        · rw [if_neg hkj]
          trivial
  · have hplace : place c k = .future := place_of_lt hmax
      ((hord.names hc).imp_right fun ⟨j, hj⟩ => ⟨j, hj, hbelow.2 c j hc hj⟩)
    rw [CursorRead, hplace]
    trivial

lemma Kept.op (h : Kept P s) (hord : Ordered s) (hshape : Shape s) {op : FileOp}
    {ops : List FileOp} {next : Option Writer} {ack : Option Bytes}
    (hw : s.writer = .busy (op :: ops) next ack) (hdec : recordsDecode P s op = true)
    (hretire : retiresUnread s op = false) : Kept P (opStep s op ops next ack) := by
  have heff := (hshape.op_effect hord hw).1
  refine ⟨h.wf, fun k b hb => ?_, fun c hc k hk => ?_, fun j t ht hjt hj => ?_, ?_, fun k b hb => ?_⟩
  · change b ∈ recordsAt (op.apply s.disk) k at hb
    rcases heff.records with ⟨-, hrec⟩ | ⟨j, b', g, -, hadded, -, -, -, -, hrec⟩
    · exact h.decodes k b (hrec k ▸ hb)
    · rw [hrec] at hb
      split at hb
      · rcases mem_append.1 hb with hb | hb
        · exact h.decodes j b hb
        · rw [recordsDecode, hadded, all_cons, all_nil, Bool.and_true] at hdec
          rwa [mem_singleton.1 hb]
      · exact h.decodes k b hb
  · exact h.cursorRead_op hord heff hc hk ((hord.op hw).cursor.keys_le k hk)
  · rw [hshape.op_pc hw] at ht hj
    refine (h.walked j t ht hjt hj).mono ((heff.recordsAt j).resolve_right ?_) (.refl _)
    rintro ⟨-, -, -, -, -, hbelow⟩
    have := hbelow.1 t (hshape.plan.onDisk t ht)
    omega
  · rw [hshape.op_pc hw]
    refine h.here.op hshape.here hshape.plan heff fun c k n eof todo offset bytes hpc hop => ?_
    subst hop
    simpa [retiresUnread, hpc] using hretire
  · change (k, b) ∈ s.log ++ op.added s.disk at hb
    change _ ∨ b ∈ recordsAt (op.apply s.disk) k
    rcases mem_append.1 hb with hb | hb
    · exact (h.logged k b hb).imp_right fun hmem => (heff.recordsAt_prefix k).subset hmem
    · rcases heff.records with ⟨hnil, -⟩ | ⟨j, b', g, -, hadded, -, -, -, -, hrec⟩
      · rw [hnil] at hb
        cases hb
      · rw [hadded, mem_singleton, Prod.mk.injEq] at hb
        obtain ⟨rfl, rfl⟩ := hb
        rw [hrec, if_pos rfl]
        exact .inr (by simp)

lemma behaves_of_careful (h : careful P s a = true) : a.behaves = true := by
  simp only [careful, behaved, Bool.and_eq_true] at h
  exact h.1.1

attribute [local simp] System.init

lemma kept_init (hwf : store.Wf P.hash) : Kept P (System.init store) :=
  ⟨hwf, by simp [recordsAt], by simp, by simp [Pc.plan],
    trivial, by simp⟩

lemma Kept.stored_of_passed (h : Kept P s) (hshape : Shape s) {n : Nat} {b : Bytes}
    (hb : (recordsAt s.disk k)[n]? = some b) (hpassed : s.passed k n) : Stored P s.store b := by
  have hmem := mem_of_getElem? hb
  have hk : k ∈ s.disk.keys := by
    by_contra hk
    rw [recordsAt_not_mem hk] at hmem
    cases hmem
  rcases hpassed with ⟨c, hc, hpassed⟩ | ⟨j, m, hfront, hlt⟩
  · have hread := h.cursor c hc k hk
    unfold CursorRead at hread
    unfold Cursor.passed at hpassed
    cases hp : place c k with
    | past =>
      rw [hp] at hread
      exact hread b hmem
    | current =>
      rw [hp] at hread hpassed
      exact Upto.get hread hb (by omega)
    | future =>
      rw [hp] at hpassed
      exact hpassed.elim
  · obtain ⟨todo, hplan, hupto⟩ : ∃ todo, s.pc.plan = j :: todo ∧ Upto P s.disk s.store j m := by
      have hhere := h.here
      cases hpc : s.pc with
      | walking c todo =>
        cases todo with
        | nil => simp [hpc, Pc.front] at hfront
        | cons t todo =>
          obtain ⟨rfl, rfl⟩ : t = j ∧ 0 = m := by simpa [hpc, Pc.front] using hfront
          exact ⟨todo, rfl, Upto.zero⟩
      | counted c t x todo | pruning c t todo =>
        obtain ⟨rfl, rfl⟩ : t = j ∧ 0 = m := by simpa [hpc, Pc.front] using hfront
        exact ⟨todo, rfl, Upto.zero⟩
      | reading c r todo | committed c r todo | stopped c t x eof todo =>
        rw [hpc] at hhere hfront
        simp only [Pc.front, Option.some.injEq, Prod.mk.injEq] at hfront
        obtain ⟨rfl, rfl⟩ := hfront
        exact ⟨todo, rfl, hhere.1⟩
      | idle | done | recovering | discarding | loading | recording => simp [hpc, Pc.front] at hfront
    rcases hlt with hlt | ⟨rfl, hlt⟩
    · have hsorted := hshape.plan.sorted
      rw [hplan] at hsorted
      refine h.walked k j (by simp [hplan]) hlt (fun hin => ?_) b hmem
      rw [hplan, mem_cons] at hin
      rcases hin with rfl | hin
      · exact lt_irrefl _ hlt
      · exact absurd ((pairwise_cons.1 hsorted).1 k hin) (by omega)
    · exact hupto.get hb hlt

variable [DecidableEq H]

/-- A step of a cycle keeps what is stored. -/
lemma Kept.imported (hinj : Function.Injective P.hash) (h : Kept P s) (hord : Ordered s)
    (hshape : Shape s) {i : Input} (hstep : Imported P s i s') : Kept P s' := by
  have happend (env : Envelope) : s.store.Extends (storeAppend P s i env).1 ∧
      (storeAppend P s i env).1.Wf P.hash := ⟨Store.extends_append P.hash _ _, h.wf.append P.hash _⟩
  have hhere := h.here
  have hplace := hshape.here
  cases hstep with
  | aborted | finished hpc => exact h.rest rfl trivial (.refl _) h.wf
  | gapRefused | refused => exact h.rest rfl trivial (happend _).1 (happend _).2
  | recovered hpc =>
    split
    · exact h.rest rfl trivial (.refl _) h.wf
    · exact h.pc (by simp [hpc, Pc.plan]) trivial
  | @skipped k report file hpc hfile hline =>
    have hsorted := hshape.plan.sorted
    simp only [hpc, Pc.plan, pairwise_append] at hsorted
    refine h.quiet (fun _ => rfl) rfl rfl (.refl _) h.wf (fun j t ht hjt hj => ?_) trivial
    simp only [Pc.plan, append_nil] at ht hj
    refine h.walked j t (by simp [hpc, Pc.plan, ht]) hjt ?_
    have htk := hsorted.2.2 t ht k (by simp)
    simp only [hpc, Pc.plan, mem_append, mem_singleton, not_or]
    exact ⟨hj, by omega⟩
  | headerless hpc hfile hline | loaded hpc | gapsDone hpc =>
    exact h.pc (by simp [hpc, Pc.plan]) trivial
  | @scanned k todo report file r hpc hfile hrec hhead =>
    refine h.quiet (hshape.files.recover_get hfile hrec hhead) rfl rfl (.refl _) h.wf
      (fun j t ht hjt hj => h.walked j t ?_ hjt ?_) trivial
    · simpa [hpc, Pc.plan, Report.add] using ht
    · simpa [hpc, Pc.plan, Report.add] using hj
  | @discarded k todo report hpc _ =>
    rw [hpc] at hplace
    refine h.erase (fun b hb => ?_) (fun t => ?_) fun _ _ => trivial
    · rw [recordsAt_nil hplace.1] at hb
      cases hb
    · simp only [hpc, Pc.plan, mem_append, mem_cons]
      tauto
  | gapRecorded hpc =>
    refine h.quiet (fun _ => rfl) rfl rfl (happend _).1 (happend _).2 (fun j t ht hjt hj => ?_) trivial
    exact h.walked j t (by simpa [hpc, Pc.plan] using ht) hjt (by simpa [hpc, Pc.plan] using hj)
  | past hpc _ hpast _ => exact h.pc (by simp [hpc, Pc.plan]) hpast
  | @opened c k todo file rest hpc hfile hnot hopen =>
    refine h.pc (by simp [hpc, Pc.plan]) ⟨Upto.zero, ?_⟩
    have hread := h.cursor c (hord.cursor.held c (by simp [hpc, Pc.cursor])) k
      (Dir.mem_keys_of_get hfile)
    unfold CursorRead at hread
    dsimp only [resumeFrom]
    cases hp : place c k with
    | past => exact absurd hp hnot
    | current => rwa [hp] at hread
    | future => exact Upto.zero
  | @probedPast c k n todo file closed hpc hfile hmark =>
    rw [hpc] at hhere
    have hread := h.cursor c (hord.cursor.held c (by simp [hpc, Pc.cursor])) k
      (Dir.mem_keys_of_get hfile)
    rw [CursorRead, show place c k = .past from hhere] at hread
    split
    · exact h.pc (by simp [hpc, Pc.plan]) hread
    · exact h.leave (by simp [hpc, Pc.plan]) rfl trivial fun _ => hread
  | @atEnd c r todo bs hpc hbs hnext =>
    rw [hpc] at hplace hhere
    obtain ⟨g, hget, -, hmatch⟩ := hplace.next P.conv hbs
    rw [hnext] at hmatch
    exact h.pc (by simp [hpc, Pc.plan]) ⟨hhere.1, .inl (by rw [recordsAt_segment hget, hmatch])⟩
  | @atCorrupt c r todo bs hpc hbs hnext =>
    rw [hpc] at hplace
    exact absurd hnext (h.not_corrupt hplace hbs)
  | @passed c r todo bs env rest hpc hbs hnext hskip =>
    rw [hpc] at hhere
    exact h.pc (by simp [hpc, Pc.plan]) ⟨hhere.2.le (by dsimp only; omega), hhere.2⟩
  | @commit c r todo bs env rest hpc hbs hnext _ herr =>
    rw [hpc] at hplace hhere
    obtain ⟨g, hget, -, hmatch⟩ := hplace.next P.conv hbs
    rw [hnext] at hmatch
    obtain ⟨b, hb, henv, -⟩ := hmatch
    have hmono {k m : Nat} (hu : Upto P s.disk s.store k m) :
        Upto P s.disk (storeAppend P s i env).1 k m := hu.mono (prefix_refl _) (happend _).1
    refine h.quiet (fun _ => rfl) rfl rfl (happend _).1 (happend _).2 (fun j t ht hjt hj => ?_)
      ⟨(hmono hhere.1).succ ?_ (stored_of_append hinj h.wf henv herr), hmono hhere.2⟩
    · exact h.walked j t (by simpa [hpc, Pc.plan] using ht) hjt (by simpa [hpc, Pc.plan] using hj)
    · rw [recordsAt_segment hget, hb]
  | wroteCursor hpc hlt => exact h.cursorStep hord hshape hpc hlt
  | @probed c k n eof todo file closed hpc hfile hmark =>
    rw [hpc] at hhere
    split
    · next hc =>
      rw [(Bool.and_eq_true_iff.1 hc).2] at hmark
      exact h.pc (by simp [hpc, Pc.plan]) (hhere.1.all (hhere.length_of_closed hfile hmark))
    · refine h.leave (k := k) (by simp [hpc, Pc.plan]) rfl trivial fun htodo => ?_
      exact hhere.1.all (hhere.2.resolve_right fun hr => htodo hr.1)
  | @pruned c k todo hpc _ =>
    rw [hpc] at hhere
    refine h.erase hhere (fun t => ?_) fun _ _ => trivial
    simp [hpc, Pc.plan]

lemma Kept.step (hinj : Function.Injective P.hash) (h : Kept P s) (hord : Ordered s)
    (hshape : Shape s) (ha : careful P s a = true) (hstep : step P s a = some s') :
    Kept P s' := by
  cases step_cases hstep with
  | start =>
    refine h.quiet (fun _ => rfl) rfl rfl (.refl _) h.wf (fun j t ht hjt hj b hb => ?_) trivial
    rw [recordsAt_not_mem (by simpa [Pc.plan] using hj)] at hb
    cases hb
  | importer himp => exact h.imported hinj hord hshape himp
  | fail => exact h.rest rfl trivial (.refl _) h.wf
  | @kill instanceID =>
    exact h.rest rfl trivial (Store.extends_runs P.hash s.store [.reopen instanceID])
      (h.wf.runs P.hash [.reopen instanceID])
  | @op op ops next ack hw =>
    obtain ⟨hdec, hretire⟩ : recordsDecode P s op = true ∧ retiresUnread s op = false := by
      simpa [careful, behaved, hw, Action.behaves] using ha
    exact h.op hord hshape hw hdec hretire
  | writer => exact h.quiet (fun _ => rfl) rfl rfl (.refl _) h.wf h.walked h.here

/-- A step keeps the acknowledged records in the log. -/
lemma Acked.step (h : Acked s) (hshape : Shape s) (hstep : step P s a = some s') :
    Acked s' := by
  cases step_cases hstep with
  | start | fail | kill => exact ⟨h.logged, h.flight⟩
  | importer himp => cases himp <;> exact ⟨h.logged, h.flight⟩
  | @op op ops next ack hw =>
    refine ⟨fun b hb => ?_, fun ops' next' b hb => ?_⟩
    · obtain ⟨k, hk⟩ := h.logged b hb
      exact ⟨k, mem_append_left _ hk⟩
    · simp only [opStep, WriterSide.busy.injEq] at hb
      obtain ⟨rfl, rfl, rfl⟩ := hb
      obtain ⟨hbody, hflight⟩ := h.flight _ _ b hw
      refine ⟨hbody, ?_⟩
      rcases hflight with ⟨k, hk⟩ | ⟨k, hk⟩
      · rcases mem_cons.1 hk with rfl | hk
        · refine .inr ⟨k, mem_append_right _ ?_⟩
          rw [hshape.added_write hbody hw]
          simp
        · exact .inl ⟨k, hk⟩
      · exact .inr ⟨k, mem_append_left _ hk⟩
  | writer hcall =>
    cases hcall with
    | listed | unreadable | issued | close | stop =>
      exact ⟨h.logged, fun ops next b hb => by simp at hb⟩
    | @append t env w hw =>
      refine ⟨h.logged, fun ops next b hb => ?_⟩
      simp only [WriterSide.busy.injEq] at hb
      obtain ⟨rfl, -, hack⟩ := hb
      split at hack
      · next herr =>
        obtain ⟨hbody, hwrite⟩ := Writer.append_writes hack (by simpa using herr)
        exact ⟨hbody, .inl hwrite⟩
      · cases hack
    | @ret next ack hw =>
      refine ⟨fun b hb => ?_, fun ops next' b hb => ?_⟩
      · rcases mem_append.1 hb with hb | hb
        · exact h.logged b hb
        · rw [Option.mem_toList] at hb
          obtain ⟨-, hflight⟩ := h.flight [] next b (by rw [hw, hb])
          simpa using hflight
      · cases next <;> simp at hb

/-! ## Runs -/

/-- **No acknowledged record is lost.**  In every run in which the writer's files behave, its
records decode and no segment is retired unread, every record whose append returned nil is in
the store or stands in a segment at a place the importer has not passed, and a segment that is
about to be removed has nothing that is not in the store. -/
theorem acknowledged_kept (hinj : Function.Injective P.hash) (store : Store H)
    (hwf : store.Wf P.hash) (as : List Action) (s : System H)
    (hcareful : Along (step P) (fun s a => careful P s a = true) (System.init store) as)
    (hrun : run (step P) (System.init store) as = some s) : (∀ b ∈ s.acked, Stored P s.store b ∨
      ∃ k n, (recordsAt s.disk k)[n]? = some b ∧ ¬ s.passed k n) ∧
    ∀ c k todo, s.pc = .pruning c k todo → ∀ b ∈ recordsAt s.disk k, Stored P s.store b := by
  obtain ⟨hord, hshape, hkept, hacked⟩ : Ordered s ∧ Shape s ∧ Kept P s ∧ Acked s := by
    refine run_invariant (p := fun s a => careful P s a = true)
      (I := fun s => Ordered s ∧ Shape s ∧ Kept P s ∧ Acked s) ?_ ?_ hcareful hrun
    · rintro s a s' ⟨hord, hshape, hkept, hacked⟩ ha hstep
      exact ⟨hord.step hstep, hshape.step hord (behaves_of_careful ha) hstep,
        hkept.step hinj hord hshape ha hstep, hacked.step hshape hstep⟩
    · exact ⟨ordered_init store, shape_init store, kept_init hwf, by simp,
        by simp⟩
  refine ⟨fun b hb => ?_, fun c k todo hpc => ?_⟩
  · obtain ⟨k, hk⟩ := hacked.logged b hb
    rcases hkept.logged k b hk with hstored | hmem
    · exact .inl hstored
    · obtain ⟨n, hn⟩ := mem_iff_getElem?.1 hmem
      by_cases hpassed : s.passed k n
      · exact .inl (hkept.stored_of_passed hshape hn hpassed)
      · exact .inr ⟨k, n, hn, hpassed⟩
  · have hhere := hkept.here
    rw [hpc] at hhere
    exact hhere

end Steps

/-- The importer reads the new segment to its end; then a record is appended, its append returns,
and the segment is retired; then the importer looks for the end marker. -/
def retiredUnread : List Action :=
  [Action.openWriter demoCfg, .issue .ok demoTime, .op, .op, .op, .ret] ++
  [Action.start] ++ List.replicate 6 (Action.importer demoInput) ++
  [Action.append (quiet 0 fun _ => none) (Store.sampleEnvelope []), .op, .ret] ++
  [Action.close (quiet 0 fun _ => none), .op, .op, .op, .ret, .stopWriter] ++
  List.replicate 3 (Action.importer demoInput)

set_option maxRecDepth 100000 in
/-- The record of that run is acknowledged, and neither in the store nor on disk. -/
theorem retiredUnread_lost :
    Along (step demo) (fun s a => behaved demo s a = true) demoInit retiredUnread ∧
    ∃ s, run (step demo) demoInit retiredUnread = some s ∧ ∃ b ∈ s.acked,
      ¬ Stored demo s.store b ∧ ∀ k, b ∉ recordsAt s.disk k := by
  obtain ⟨s, hguarded, hacked, hevents, hkeys⟩ : ∃ s,
      run (guarded (step demo) fun s a => behaved demo s a = true) demoInit retiredUnread = some s ∧
      s.acked.length = 1 ∧ s.store.events = [] ∧ s.disk.keys = [] := by decide +kernel
  obtain ⟨hrun, hbehaved⟩ := of_run_guarded hguarded
  obtain ⟨b, hb⟩ := length_eq_one_iff.1 hacked
  refine ⟨hbehaved, s, hrun, b, by simp [hb], ?_, fun k hk => ?_⟩
  · rintro ⟨env, payload, -, -, e, he, -⟩
    rw [hevents] at he
    cases he
  · rw [recordsAt_not_mem (by simp [hkeys])] at hk
    cases hk

set_option maxRecDepth 100000 in
/-- A run in which the importer takes the record in before it removes the segment. -/
theorem acknowledged_kept_prunedThenOpened :
    ∃ s, run (step demo) demoInit prunedThenOpened = some s ∧ s.disk.keys = [] ∧
      ∃ b, s.acked = [b] ∧ Stored demo s.store b := by
  obtain ⟨s, hguarded, hlen, hkeys⟩ : ∃ s,
      run (guarded (step demo) fun s a => careful demo s a = true) demoInit prunedThenOpened =
        some s ∧ s.acked.length = 1 ∧ s.disk.keys = [] := by decide +kernel
  obtain ⟨hrun, hcareful⟩ := of_run_guarded hguarded
  obtain ⟨b, hb⟩ := length_eq_one_iff.1 hlen
  refine ⟨s, hrun, hkeys, b, hb, ?_⟩
  rcases (acknowledged_kept (P := demo) (fun _ _ h => h) _ (Store.wf_new _ _) prunedThenOpened s
    hcareful hrun).1 b (by simp [hb]) with hstored | ⟨k, n, hn, -⟩
  · exact hstored
  · rw [recordsAt_not_mem (by simp [hkeys])] at hn
    cases hn

end Observatory.Spool
