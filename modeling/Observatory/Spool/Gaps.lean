/-
# Gap records

Recovery makes a gap record for every segment it finds corrupt, under a source that stands for
the directory and a sequence number that is the segment's position among the segments it
reports. The position changes when a segment before it is pruned: then one segment gets two gap
events, and another one is taken for it and gets none.
-/
import Mathlib.Data.Finset.Card
import Mathlib.Order.Interval.Finset.Nat
import Mathlib.Data.Nat.Count
import Observatory.Spool.System

namespace Observatory.Spool

open Lib Events List

/-! ## Gap events -/

def jsonMember (name : Bytes) : Json → Option Json
  | .obj ms => ms.lookup name
  | _ => none

/-- The segment the payload of a gap event names. -/
def affectedSegment (payload : Bytes) : Option Bytes :=
  match (Json.parse maxNestingDepth payload).bind fun j =>
      (jsonMember (ascii "data") j).bind (jsonMember (ascii "affected_segment")) with
  | some (.str s) => some s
  | _ => none

def isGap {H : Type} (source segment : Bytes) (e : Store.Event H) : Bool :=
  e.sourceInstanceID == source && e.kind == ascii "spool.recovery_gap" &&
    affectedSegment e.payload == some segment

/-! ## Cycles on a spool that changes between them -/

/-- What happens to the spool of a VM: cycles and what ends them, and between two cycles new
segments and segments whose bytes change. -/
inductive Turn where
  | start
  | importer (i : Input)
  | fail
  | kill (instanceID : Bytes)
  | appear (segment : Nat) (file : Bytes)
  | change (segment : Nat) (file : Bytes)

/-- A segment that has its header line, so that recovery reports it. -/
def headed (d : Dir Bytes) (k : Nat) : Bool := (d.get k).any fun file => (readLine file).isSome

section Turns

variable {H : Type} [DecidableEq H] (P : Setup H)

def turn (s : System H) : Turn → Option (System H)
  | .start => step P s .start
  | .importer i => step P s (.importer i)
  | .fail => step P s .fail
  | .kill instanceID => step P s (.kill instanceID)
  | .appear k file =>
    if s.pc.resting = true ∧ k ≤ maxSegmentIndex ∧ ∀ j ∈ s.disk.keys, j < k then
      some { s with disk := s.disk.create k file }
    else none
  | .change k file =>
    if s.pc.resting = true then some { s with disk := s.disk.modify k fun _ => file } else none

end Turns

def recordedBelow {H : Type} (s : System H) (k : Nat) : Bool :=
  s.recorded.all fun e => (parseSegmentName e.1).all (· < k)

/-- No segment at or below one whose gap was recorded is pruned or loses or gets a header line, and
nothing but recovery uses the source of the gap records. -/
def steady {H : Type} (P : Setup H) (s : System H) : Turn → Bool
  | .importer _ =>
    match s.pc with
    | .pruning _ k _ => recordedBelow s k
    | .reading _ r _ =>
      match (r.bytes s.disk).map (SegmentIter.next P.conv) with
      | some (.envelope env _) => env.sourceInstanceID != P.gapSource
      | _ => true
    | _ => true
  | .change k file => headed s.disk k == (readLine file).isSome || recordedBelow s k
  | .kill instanceID => instanceID != P.gapSource
  | _ => true

/-! ## What a gap record says -/

section Build

variable {source : Bytes} {k position corruptCount : Nat} {mtime : Instant}

lemma gapEntry_buildGapEnvelope :
    gapEntry (buildGapEnvelope source k position corruptCount mtime) =
      (segmentName k, source, formatUint position) := rfl

lemma lookup_data (env : Envelope) : (Json.cleanMembers env.members).lookup (ascii "data") =
    some (env.data.elim Json.null Json.obj).clean := by
  have hmembers : env.members = Envelope.Field.all.dropLast.flatMap env.member ++
      [(Envelope.Field.data.name, env.data.elim Json.null Json.obj)] := by
    simp [Envelope.members, Envelope.Field.all, Envelope.member]
  have hname (f : Envelope.Field) : ∀ m ∈ env.member f, m.1 = f.name := by
    cases f <;> simp [Envelope.member, optMember, textMember, textsMember] <;> aesop
  have hother : ∀ f ∈ Envelope.Field.all.dropLast, ascii "data" ≠ sanitize f.name := by decide
  rw [hmembers, Json.cleanMembers_eq, map_append, lookup_append]
  have hnone : (((Envelope.Field.all.dropLast.flatMap env.member).map
      fun m => (sanitize m.1, m.2.clean)).lookup (ascii "data")) = none := by
    rw [lookup_eq_none_iff]
    intro p hp
    obtain ⟨m, hm, rfl⟩ := mem_map.1 hp
    obtain ⟨f, hf, hmf⟩ := mem_flatMap.1 hm
    rw [hname f m hmf, bne_iff_ne]
    exact hother f hf
  rw [hnone, Option.none_or]
  rfl

lemma affectedSegment_buildGapEnvelope (hk : k ≤ maxSegmentIndex) {payload : Bytes}
    (h : (buildGapEnvelope source k position corruptCount mtime).marshal = some payload) :
    affectedSegment payload = some (segmentName k) := by
  unfold Envelope.marshal at h
  split at h
  · next hnums =>
    cases h
    have hdepth : (Json.obj
        (buildGapEnvelope source k position corruptCount mtime).members).depth ≤ maxNestingDepth := by
      refine Json.depth_obj_le.2 fun m hm => ?_
      obtain ⟨f, -, hmf⟩ := mem_flatMap.1 hm
      refine Envelope.depth_member (by decide) (fun ms hms => ?_) f m hmf
      cases hms
      refine Json.depth_obj_le.2 fun m' hm' => ?_
      rcases mem_cons.1 hm' with rfl | hm'
      · exact Nat.zero_le _
      · obtain rfl := mem_singleton.1 hm'
        exact Nat.zero_le _
    have hname : sanitize (segmentName k) = segmentName k :=
      sanitize_of_ascii fun b hb => (segmentName_bytes hk b hb).1
    rw [affectedSegment, Json.parse_encode hnums hdepth, Json.clean]
    have hdata : (buildGapEnvelope source k position corruptCount mtime).data =
        some [(ascii "affected_segment", .str (segmentName k)),
          (ascii "corrupt_record_count", .num (formatUint corruptCount))] := rfl
    have hkey : sanitize (ascii "affected_segment") = ascii "affected_segment" := by decide
    simp only [Option.bind_some, jsonMember, lookup_data, hdata, Option.elim_some, Json.clean,
      Json.cleanMembers, hkey, hname, lookup_cons_self]
  · cases h

end Build

/-! ## Positions -/

/-- The position of a segment among those recovery reports. -/
def position (d : Dir Bytes) (k : Nat) : Nat := Nat.count (fun j => headed d j = true) k

def Placed (d : Dir Bytes) (k p : Nat) : Prop :=
  k ≤ maxSegmentIndex ∧ headed d k = true ∧ position d k = p

variable {d : Dir Bytes} {j k : Nat}

lemma mem_keys_of_headed (h : headed d k = true) : k ∈ d.keys := by
  obtain ⟨file, hfile, -⟩ := Option.any_eq_true _ _ |>.1 h
  exact Dir.mem_keys_of_get hfile

/-- Two segments are not at one position. -/
lemma Placed.injective {p : Nat} (hj : Placed d j p) (hk : Placed d k p) :
    j = k :=
  Nat.count_injective hj.2.1 hk.2.1 (hj.2.2.trans hk.2.2.symm)

/-- A position depends on the segments up to it only. -/
lemma Placed.congr {d' : Dir Bytes} {p : Nat} (h : Placed d k p)
    (hsame : ∀ j ≤ k, headed d' j = headed d j) : Placed d' k p := by
  refine ⟨h.1, (hsame k le_rfl).trans h.2.1, ?_⟩
  rw [← h.2.2, position, position, Nat.count_eq_card_filter_range, Nat.count_eq_card_filter_range]
  refine congrArg Finset.card (Finset.filter_congr fun j hj => ?_)
  rw [hsame j (Finset.mem_range.1 hj).le]

/-- The segments reported before `k` are as many as its position says. -/
lemma length_filter_headed {front todo : List Nat} (hkeys : d.keys = front ++ k :: todo) :
    (front.filter (headed d)).length = position d k := by
  have hsorted := d.sorted_keys
  rw [hkeys, pairwise_append] at hsorted
  have hnodup : (front.filter (headed d)).Nodup :=
    (hsorted.1.imp fun h => Nat.ne_of_lt h).filter _
  rw [position, Nat.count_eq_card_filter_range, ← toFinset_card_of_nodup hnodup]
  refine congrArg Finset.card (Finset.ext fun j => ?_)
  simp only [mem_toFinset, mem_filter, Finset.mem_filter, Finset.mem_range]
  refine and_congr_left fun hj => ⟨fun hmem => hsorted.2.2 j hmem k mem_cons_self, fun hlt => ?_⟩
  -- a segment on disk is before `k`, or it is `k` or after it
  have hmem := mem_keys_of_headed hj
  rw [hkeys, mem_append, mem_cons] at hmem
  rcases hmem with hmem | rfl | hmem
  · exact hmem
  · exact absurd hlt (Nat.lt_irrefl _)
  · exact absurd ((pairwise_cons.1 hsorted.2.1).1 j hmem) (Nat.lt_asymm hlt)

lemma headed_erase (h : j ≠ k) : headed (d.erase k) j = headed d j := by
  rw [headed, Dir.get_erase, if_neg h, headed]

lemma headed_modify_of_ne {file : Bytes} (h : j ≠ k) :
    headed (d.modify k fun _ => file) j = headed d j := by
  rw [headed, Dir.get_modify, if_neg h, headed]

lemma headed_modify {file : Bytes} (h : headed d k = (readLine file).isSome) (j : Nat) :
    headed (d.modify k fun _ => file) j = headed d j := by
  by_cases hjk : j = k
  · subst hjk
    rw [headed, Dir.get_modify, if_pos rfl]
    unfold headed at h ⊢
    cases hget : d.get j with
    | none => rfl
    | some old =>
      rw [hget] at h
      exact h.symm
  · exact headed_modify_of_ne hjk

/-! ## Gap events in the store -/

section Store

variable {H : Type} (hash : Bytes → H) (source : Bytes)

/-- The gap records that were handled and the events of their source agree. -/
structure Witnessed (store : Store H) (recorded : List (Bytes × Bytes × Bytes)) : Prop where
  wf : store.Wf hash
  own : store.instanceID ≠ source
  events : ∀ ev ∈ store.events, ev.sourceInstanceID = source →
    ev.kind = ascii "spool.recovery_gap" ∧
      ∃ e ∈ recorded, affectedSegment ev.payload = some e.1 ∧ ev.key = e.2
  stored : ∀ e ∈ recorded, ∃ ev ∈ store.events, ev.key = e.2

variable {hash source} {store store' : Store H} {recorded : List (Bytes × Bytes × Bytes)}

lemma Witnessed.other (h : Witnessed hash source store recorded) (hwf : store'.Wf hash)
    (hid : store'.instanceID ≠ source) {rows : List (Store.Event H)}
    (hevents : store'.events = store.events ++ rows)
    (hrows : ∀ row ∈ rows, row.sourceInstanceID ≠ source) :
    Witnessed hash source store' recorded where
  wf := hwf
  own := hid
  events := by
    intro ev hev hsource
    rw [hevents, mem_append] at hev
    rcases hev with hev | hev
    · exact h.events ev hev hsource
    · exact absurd hsource (hrows ev hev)
  stored := by
    intro e he
    obtain ⟨ev, hev, hkey⟩ := h.stored e he
    exact ⟨ev, by rw [hevents]; exact mem_append_left _ hev, hkey⟩

lemma Witnessed.healthAdded (h : Witnessed hash source store recorded) (hwf : store'.Wf hash)
    (hadded : Store.OnlyHealthAdded store store') : Witnessed hash source store' recorded := by
  have hid : store'.instanceID ≠ source := by
    rw [hadded.1]
    exact h.own
  rcases hadded.2 with ⟨hevents, -, -⟩ | ⟨row, hevents, -, hrow, -, -, -⟩
  · exact h.other hwf hid (by rw [hevents, append_nil]) (by simp)
  · refine h.other hwf hid hevents fun row' hrow' => ?_
    rw [mem_singleton.1 hrow', hrow]
    exact h.own

lemma Witnessed.again (h : Witnessed hash source store recorded) {e : Bytes × Bytes × Bytes}
    (he : e ∈ recorded) : Witnessed hash source store (recorded ++ [e]) where
  wf := h.wf
  own := h.own
  events := by
    intro ev hev hsource
    obtain ⟨hkind, e', he', hpayload, hkey⟩ := h.events ev hev hsource
    exact ⟨hkind, e', mem_append_left _ he', hpayload, hkey⟩
  stored := by
    intro e' he'
    rcases mem_append.1 he' with he' | he'
    · exact h.stored e' he'
    · rw [mem_singleton.1 he']
      exact h.stored e he

variable [DecidableEq H]

lemma Witnessed.accepted (h : Witnessed hash source store recorded) {c : Store.Call}
    (herr : (store.append hash c).2.err = none) (hsource : c.env.sourceInstanceID ≠ source) :
    Witnessed hash source (store.append hash c).1 recorded := by
  have hwf := h.wf.append hash c
  obtain ⟨res, hcase⟩ := Store.append_ok_cases hash herr
  generalize (store.append hash c).1 = t at hcase hwf ⊢
  cases hcase with
  | duplicate => exact h
  | inserted payload row streams _ _ hrow _ =>
    refine h.other hwf h.own rfl fun row' hrow' => ?_
    rw [mem_singleton.1 hrow', hrow.2.1]
    exact hsource

lemma Witnessed.recordGap (h : Witnessed hash source store recorded) {c : Store.Call}
    {k p corruptCount : Nat} {mtime : Instant}
    (hg : c.env = buildGapEnvelope source k p corruptCount mtime) (hk : k ≤ maxSegmentIndex)
    (hsame : ∀ e ∈ recorded, e.2 = (source, formatUint p) →
      e = (segmentName k, source, formatUint p)) (herr : (store.append hash c).2.err = none ∨
      ∃ source seq, (store.append hash c).2.err = some (.integrityFailure source seq)) :
    Witnessed hash source (store.append hash c).1
      (recorded ++ [(segmentName k, source, formatUint p)]) := by
  have hwf := h.wf.append hash c
  -- an event under the key is one that was recorded for this segment
  have hknown : ∀ ev, store.lookup c.env.sourceInstanceID c.env.sourceSeq = some ev →
      (segmentName k, source, formatUint p) ∈ recorded := by
    intro ev hlookup
    rw [hg] at hlookup
    obtain ⟨hmem, hkey⟩ := Store.mem_of_lookup hlookup
    obtain ⟨-, e, he, -, hkey'⟩ := h.events ev hmem (Prod.mk.inj hkey).1
    rw [← hsame e he (hkey'.symm.trans hkey)]
    exact he
  rcases herr with hok | ⟨source', seq, hconflict⟩
  · obtain ⟨res, hcase⟩ := Store.append_ok_cases hash hok
    generalize (store.append hash c).1 = t at hcase hwf ⊢
    cases hcase with
    | duplicate payload ev _ _ hlookup _ => exact h.again (hknown ev hlookup)
    | inserted payload row streams hcheck _ hrow _ =>
      obtain ⟨-, hsource, hseq, -, hkind, hpayload, -⟩ := hrow
      rw [hg] at hsource hseq hkind
      have hmarshal := (Store.checkAppend_eq_ok.1 hcheck).2.2.2
      rw [hg] at hmarshal
      refine ⟨hwf, h.own, fun ev hev hevsource => ?_, fun e he => ?_⟩
      · rcases mem_append.1 hev with hev | hev
        · exact (h.events ev hev hevsource).imp_right fun ⟨e, he, hrest⟩ =>
            ⟨e, mem_append_left _ he, hrest⟩
        · rw [mem_singleton.1 hev]
          refine ⟨hkind, _, mem_append_right _ (mem_singleton_self _), ?_, ?_⟩
          · rw [hpayload]
            exact affectedSegment_buildGapEnvelope hk hmarshal
          · exact Prod.ext hsource hseq
      · rcases mem_append.1 he with he | he
        · obtain ⟨ev, hev, hkey⟩ := h.stored e he
          exact ⟨ev, mem_append_left _ hev, hkey⟩
        · refine ⟨row, mem_append_right _ (mem_singleton_self _), ?_⟩
          rw [mem_singleton.1 he]
          exact Prod.ext hsource hseq
  · obtain ⟨ev, hlookup⟩ := Store.append_integrity hash hconflict
    have hadded := Store.append_refused hash (s := store) (c := c) (by rw [hconflict]; simp)
    exact (h.healthAdded hwf hadded).again (hknown ev hlookup)

end Store

/-! ## What holds between cycles and within them -/

section Invariant

variable {H : Type} (P : Setup H)

def Scanned (d : Dir Bytes) : Pc → Prop
  | .recovering todo report =>
    ∃ front, d.keys = front ++ todo ∧ report.segments = front.filter (headed d)
  | .discarding k todo report =>
    headed d k = false ∧
      ∃ front, d.keys = front ++ k :: todo ∧ report.segments = front.filter (headed d)
  | _ => True

/-- The entry of a gap record for a segment that stands at its position. -/
def Entered (d : Dir Bytes) (e : Bytes × Bytes × Bytes) : Prop :=
  ∃ k p, e = (segmentName k, P.gapSource, formatUint p) ∧ Placed d k p

structure Gapped (s : System H) : Prop where
  keys : ∀ k ∈ s.disk.keys, k ≤ maxSegmentIndex
  scan : Scanned s.disk s.pc
  pending : ∀ g ∈ s.pc.gaps, ∃ k p corruptCount mtime,
    g = buildGapEnvelope P.gapSource k p corruptCount mtime ∧ Placed s.disk k p
  placed : ∀ e ∈ s.recorded, Entered P s.disk e
  found : s.pc ≠ .idle → ∀ k ∈ s.detected,
    ∃ e ∈ s.recorded ++ s.pc.gaps.map gapEntry, e.1 = segmentName k
  witnessed : Witnessed P.hash P.gapSource s.store s.recorded

variable {P}

variable {e : Bytes × Bytes × Bytes} {d : Dir Bytes} {i : Input} {todo : List Nat} {k : Nat}
  {report : Report}

/-- Entries of one segment have one key, and entries with one key are of one segment. -/
lemma Entered.unique {e' : Bytes × Bytes × Bytes} (h : Entered P d e) (h' : Entered P d e') :
    e.1 = e'.1 ↔ e.2 = e'.2 := by
  obtain ⟨k, p, rfl, hp⟩ := h
  obtain ⟨k', p', rfl, hp'⟩ := h'
  constructor
  · intro hname
    obtain rfl := segmentName_injective hp.1 hp'.1 hname
    exact Prod.ext rfl (congrArg formatUint (hp.2.2.symm.trans hp'.2.2))
  · intro hkey
    have hpp : p = p' := by
      rw [← natOfDigits_formatUint p, (Prod.mk.inj hkey).2, natOfDigits_formatUint]
    subst hpp
    exact congrArg segmentName (hp.injective hp')

lemma Entered.congr {d' : Dir Bytes} (h : Entered P d e)
    (hsame : ∀ k ≤ maxSegmentIndex, e.1 = segmentName k → ∀ j ≤ k, headed d' j = headed d j) :
    Entered P d' e := by
  obtain ⟨k, p, rfl, hp⟩ := h
  exact ⟨k, p, rfl, hp.congr (hsame k hp.1 rfl)⟩

/-- Segments up to the last one with a gap record are left alone. -/
lemma Entered.below {d' : Dir Bytes} {s : System H} (hbelow : recordedBelow s k = true)
    (hsame : ∀ j, j ≠ k → headed d' j = headed d j) (he : e ∈ s.recorded) (h : Entered P d e) :
    Entered P d' e := by
  refine h.congr fun i hi hname j hj => hsame j ?_
  have hlt := all_eq_true.1 hbelow e he
  rw [hname, parseSegmentName_segmentName hi] at hlt
  have : i < k := by simpa using hlt
  omega

variable {s : System H}

/-- The cycle goes on, or is dropped, without touching a file or the store. -/
lemma Gapped.pc (h : Gapped P s) {pc : Pc} (hpc : pc ≠ .idle → s.pc ≠ .idle)
    (hgaps : pc ≠ .idle → pc.gaps = s.pc.gaps) (hscan : Scanned s.disk pc) :
    Gapped P { s with pc := pc } where
  keys := h.keys
  scan := hscan
  pending := by
    intro g hg
    have hidle : pc ≠ .idle := by
      rintro rfl
      exact absurd hg (by simp [Pc.gaps])
    exact h.pending g (hgaps hidle ▸ hg)
  placed := h.placed
  found := by
    intro hidle k hk
    obtain ⟨e, he, hname⟩ := h.found (hpc hidle) k hk
    exact ⟨e, by rw [hgaps hidle]; exact he, hname⟩
  witnessed := h.witnessed

lemma Gapped.abort (h : Gapped P s) : Gapped P (abort s) :=
  h.pc (fun hidle => absurd rfl hidle) (fun hidle => absurd rfl hidle) trivial

lemma Gapped.store (h : Gapped P s) {store : Store H}
    (hw : Witnessed P.hash P.gapSource store s.recorded) : Gapped P { s with store := store } :=
  ⟨h.keys, h.scan, h.pending, h.placed, h.found, hw⟩

lemma Gapped.recovered (h : Gapped P s) (hpc : s.pc = .recovering [] report) :
    Gapped P { s with pc := if report.segments.isEmpty then .done else .loading report } := by
  have hidle : s.pc ≠ .idle := by rw [hpc]; simp
  have hgaps : s.pc.gaps = report.gaps := by rw [hpc]; rfl
  refine h.pc (fun _ => hidle) (fun _ => ?_) (by split <;> trivial)
  split
  · next hempty =>
    rw [hgaps]
    refine (eq_nil_iff_forall_not_mem.2 fun g hg => ?_).symm
    obtain ⟨k, p, _, _, -, hplaced⟩ := h.pending g (hgaps ▸ hg)
    have hscan := h.scan
    rw [hpc] at hscan
    obtain ⟨front, hkeys, hsegments⟩ := hscan
    have hmem : k ∈ report.segments := by
      rw [hsegments, mem_filter]
      refine ⟨?_, hplaced.2.1⟩
      have := mem_keys_of_headed hplaced.2.1
      rwa [hkeys, append_nil] at this
    rw [isEmpty_iff.1 hempty] at hmem
    cases hmem
  · exact hgaps.symm

lemma Gapped.scanned (h : Gapped P s) {file : Bytes} {r : Recovered} {mtime : Instant}
    (hpc : s.pc = .recovering (k :: todo) report) (hfile : s.disk.get k = some file)
    (hrec : recoverSegment file todo.isEmpty = .ok r) (hhead : r.headerless = false) :
    Gapped P
      { s with
        disk := s.disk.modify k fun _ => r.file
        pc := .recovering todo (report.add P.gapSource k r.corruptCount mtime)
        detected := if 0 < r.corruptCount then s.detected ++ [k] else s.detected } := by
  have hidle : s.pc ≠ .idle := by rw [hpc]; simp
  have hgaps : s.pc.gaps = report.gaps := by rw [hpc]; rfl
  have hline : headed s.disk k = (readLine file).isSome := by simp [headed, hfile]
  have hheaded : headed s.disk k = true := by
    rw [hline, Option.isSome_iff_ne_none]
    intro hnone
    rw [(recoverSegment_headerless hrec).2 hnone] at hhead
    cases hhead
  have hsame := headed_modify (hline.trans (recoverSegment_readLine hrec).symm)
  have hscan := h.scan
  rw [hpc] at hscan
  obtain ⟨front, hkeys, hsegments⟩ := hscan
  have hplaced : Placed s.disk k report.segments.length :=
    ⟨h.keys k (mem_keys_of_headed hheaded), hheaded, by
      rw [hsegments, length_filter_headed hkeys]⟩
  have hcongr : ∀ {j p}, Placed s.disk j p → Placed (s.disk.modify k fun _ => r.file) j p :=
    fun hp => hp.congr fun j _ => hsame j
  refine ⟨?_, ?_, ?_, ?_, fun _ => ?_, h.witnessed⟩
  · intro j hj
    rw [Dir.keys_modify] at hj
    exact h.keys j hj
  · refine ⟨front ++ [k], by rw [Dir.keys_modify, hkeys]; simp, ?_⟩
    rw [show headed (s.disk.modify k fun _ => r.file) = headed s.disk from funext hsame,
      filter_append, ← hsegments, filter_singleton, hheaded]
    rfl
  · intro g hg
    simp only [Pc.gaps, Report.add] at hg
    have hold : g ∈ report.gaps → ∃ j p corruptCount mtime,
        g = buildGapEnvelope P.gapSource j p corruptCount mtime ∧
          Placed (s.disk.modify k fun _ => r.file) j p := by
      intro hg
      obtain ⟨j, p, c, m, hg, hp⟩ := h.pending g (hgaps ▸ hg)
      exact ⟨j, p, c, m, hg, hcongr hp⟩
    split at hg
    · rcases mem_append.1 hg with hg | hg
      · exact hold hg
      · exact ⟨k, _, _, _, mem_singleton.1 hg, hcongr hplaced⟩
    · exact hold hg
  · intro e he
    exact (h.placed e he).congr fun _ _ _ j _ => hsame j
  · intro j hj
    have hfound := h.found hidle
    rw [hgaps] at hfound
    simp only [Pc.gaps, Report.add]
    split at hj
    · next hcorrupt =>
      rw [if_pos hcorrupt, map_append, ← append_assoc]
      rcases mem_append.1 hj with hj | hj
      · obtain ⟨e, he, hname⟩ := hfound j hj
        exact ⟨e, mem_append_left _ he, hname⟩
      · rw [mem_singleton.1 hj]
        exact ⟨_, mem_append_right _ (mem_singleton_self _), rfl⟩
    · next hcorrupt =>
      rw [if_neg hcorrupt]
      exact hfound j hj

lemma Gapped.discarded (h : Gapped P s) (hpc : s.pc = .discarding k todo report) :
    Gapped P { s with disk := s.disk.erase k, pc := .recovering todo report } := by
  have hscan := h.scan
  rw [hpc] at hscan
  obtain ⟨hheadless, front, hkeys, hsegments⟩ := hscan
  have hsame : ∀ j, headed (s.disk.erase k) j = headed s.disk j := by
    intro j
    by_cases hjk : j = k
    · subst hjk
      rw [hheadless, headed, Dir.get_erase, if_pos rfl]
      rfl
    · exact headed_erase hjk
  have hsorted := s.disk.sorted_keys
  rw [hkeys, pairwise_append] at hsorted
  have hfront : front.filter (· ≠ k) = front := by
    refine filter_eq_self.2 fun j hj => ?_
    have := hsorted.2.2 j hj k mem_cons_self
    simpa using Nat.ne_of_lt this
  have htodo : todo.filter (· ≠ k) = todo := by
    refine filter_eq_self.2 fun j hj => ?_
    have := (pairwise_cons.1 hsorted.2.1).1 j hj
    simpa using Nat.ne_of_gt this
  refine ⟨?_, ?_, ?_, ?_, fun _ => ?_, h.witnessed⟩
  · intro j hj
    exact h.keys j (Dir.mem_keys_erase.1 hj).1
  · refine ⟨front, ?_, ?_⟩
    · rw [Dir.keys_erase, hkeys, filter_append, hfront, filter_cons_of_neg (by simp), htodo]
    · rw [hsegments, funext hsame]
  · intro g hg
    obtain ⟨j, p, c, m, hg, hp⟩ := h.pending g (by rw [hpc]; exact hg)
    exact ⟨j, p, c, m, hg, hp.congr fun i _ => hsame i⟩
  · intro e he
    exact (h.placed e he).congr fun _ _ _ j _ => hsame j
  · have hfound := h.found (by rw [hpc]; simp)
    rwa [hpc] at hfound

/-- A segment above all that have a gap record is removed. -/
lemma Gapped.pruned (h : Gapped P s) {cur : Cursor} (hpc : s.pc = .pruning cur k todo)
    (hbelow : recordedBelow s k = true) :
    Gapped P { s with disk := s.disk.erase k, pc := .walking cur todo } where
  keys j hj := h.keys j (Dir.mem_keys_erase.1 hj).1
  scan := trivial
  pending g hg := absurd hg (by simp [Pc.gaps])
  placed e he := (h.placed e he).below hbelow (fun _ hjk => headed_erase hjk) he
  found _ := by
    have hfound := h.found (by rw [hpc]; simp)
    rwa [hpc] at hfound
  witnessed := h.witnessed

lemma Pc.gaps_of_resting {pc : Pc} (h : pc.resting = true) : pc.gaps = [] := by
  cases pc <;> first | rfl | exact absurd h (by simp [Pc.resting])

/-- Files change between two cycles. -/
lemma Gapped.resting (h : Gapped P s) (hrest : s.pc.resting = true)
    (hkeys : ∀ k ∈ d.keys, k ≤ maxSegmentIndex)
    (hplaced : ∀ e ∈ s.recorded, Entered P s.disk e → Entered P d e) :
    Gapped P { s with disk := d } where
  keys := hkeys
  scan := by
    show Scanned d s.pc
    cases hpc : s.pc <;> first | trivial | exact absurd hrest (by simp [hpc, Pc.resting])
  pending g hg := absurd hg (by simp [Pc.gaps_of_resting hrest])
  placed e he := hplaced e he (h.placed e he)
  found := h.found
  witnessed := h.witnessed

variable [DecidableEq H]

lemma Gapped.refused (h : Gapped P s) {env : Envelope}
    (herr : (storeAppend P s i env).2.err ≠ none) :
    Gapped P (Spool.abort { s with store := (storeAppend P s i env).1 }) :=
  (h.store (h.witnessed.healthAdded (h.witnessed.wf.append P.hash _)
    (Store.append_refused P.hash herr))).abort

lemma Gapped.gapRecorded (h : Gapped P s) {cur : Cursor} {g : Envelope} {gaps : List Envelope}
    (hpc : s.pc = .recording cur (g :: gaps) todo) (herr : (storeAppend P s i g).2.err = none ∨
      ∃ source seq, (storeAppend P s i g).2.err = some (.integrityFailure source seq)) :
    Gapped P
      { s with
        store := (storeAppend P s i g).1
        pc := .recording cur gaps todo
        recorded := s.recorded ++ [gapEntry g] } := by
  have hgaps : s.pc.gaps = g :: gaps := by rw [hpc]; rfl
  obtain ⟨k, p, c, m, hg, hplaced⟩ := h.pending g (by rw [hgaps]; exact mem_cons_self)
  have hentry : gapEntry g = (segmentName k, P.gapSource, formatUint p) := by
    rw [hg, gapEntry_buildGapEnvelope]
  have hentered : Entered P s.disk (gapEntry g) := ⟨k, p, hentry, hplaced⟩
  refine ⟨h.keys, trivial, fun g' hg' => ?_, fun e he => ?_, fun _ j hj => ?_, ?_⟩
  · exact h.pending g' (by rw [hgaps]; exact mem_cons_of_mem _ hg')
  · rcases mem_append.1 he with he | he
    · exact h.placed e he
    · rw [mem_singleton.1 he]
      exact hentered
  · obtain ⟨e, he, hname⟩ := h.found (by rw [hpc]; simp) j hj
    refine ⟨e, ?_, hname⟩
    rw [hgaps] at he
    simpa [Pc.gaps] using he
  · rw [hentry]
    refine h.witnessed.recordGap hg hplaced.1 (fun e he hkey => ?_) herr
    have hunique := (h.placed e he).unique hentered
    rw [hentry] at hunique
    exact Prod.ext (hunique.2 hkey) hkey

/-- One step of a cycle keeps the invariant. -/
lemma Gapped.imported (h : Gapped P s) {s' : System H} (himp : Imported P s i s')
    (hsteady : steady P s (.importer i) = true) : Gapped P s' := by
  -- places that hold no gap records, and what recovery hands on unchanged
  have hmove : ∀ {pc : Pc}, s.pc ≠ .idle → pc.gaps = s.pc.gaps → Scanned s.disk pc →
      Gapped P { s with pc := pc } := fun hidle hgaps => h.pc (fun _ => hidle) fun _ => hgaps
  cases himp with
  | aborted => exact h.abort
  | recovered hpc => exact h.recovered hpc
  | skipped hpc hfile hline =>
    have hscan := h.scan
    rw [hpc] at hscan
    obtain ⟨front, hkeys, hsegments⟩ := hscan
    refine hmove (by rw [hpc]; simp) (by rw [hpc]; rfl) ⟨_, by rw [hkeys, append_nil], ?_⟩
    rw [hsegments, filter_append, filter_cons_of_neg (by simp [headed, hfile, hline]),
      filter_nil, append_nil]
  | headerless hpc hfile hline =>
    have hscan := h.scan
    rw [hpc] at hscan
    exact hmove (by rw [hpc]; simp) (by rw [hpc]; rfl) ⟨by simp [headed, hfile, hline], hscan⟩
  | scanned hpc hfile hrec hhead => exact h.scanned hpc hfile hrec hhead
  | discarded hpc => exact h.discarded hpc
  | gapRecorded hpc herr => exact h.gapRecorded hpc herr
  | gapRefused _ herr | refused _ _ _ _ herr => exact h.refused herr
  | commit hpc hbs hnext _ herr =>
    have hsource := hsteady
    simp only [steady, hpc, hbs, Option.map_some, hnext, bne_iff_ne] at hsource
    refine (h.store (h.witnessed.accepted herr hsource)).pc (fun _ => ?_) (fun _ => ?_) trivial
    · show s.pc ≠ .idle
      rw [hpc]
      simp
    · show _ = s.pc.gaps
      rw [hpc]
      rfl
  | @wroteCursor cur r todo hpc =>
    have hidle : s.pc ≠ .idle := by rw [hpc]; simp
    have hfound := h.found hidle
    rw [hpc] at hfound
    exact ⟨h.keys, trivial, fun g hg => absurd hg (by simp [cursorStep, Pc.gaps]), h.placed,
      fun _ => hfound, h.witnessed⟩
  | pruned hpc =>
    refine h.pruned hpc ?_
    simpa only [steady, hpc] using hsteady
  | probedPast hpc | probed hpc =>
    refine hmove (by rw [hpc]; simp) ?_ ?_
    · rw [hpc]
      split <;> rfl
    · split <;> trivial
  | loaded hpc | gapsDone hpc | finished hpc | past hpc | opened hpc | atEnd hpc | atCorrupt hpc
  | passed hpc =>
    exact hmove (by rw [hpc]; simp) (by rw [hpc]; rfl) trivial

lemma Gapped.turn (h : Gapped P s) {a : Turn} {s' : System H} (hsteady : steady P s a = true)
    (hturn : turn P s a = some s') : Gapped P s' := by
  cases a with
  | start =>
    cases step_cases (P := P) (a := .start) hturn with
    | start hrest =>
      exact ⟨h.keys, ⟨[], rfl, rfl⟩, fun g hg => absurd hg (by simp [Pc.gaps]), h.placed,
        fun _ k hk => absurd hk (by simp), h.witnessed⟩
    | writer hcall => cases hcall
  | importer i =>
    cases step_cases (a := .importer i) hturn with
    | importer himp => exact h.imported himp hsteady
    | writer hcall => cases hcall
  | fail =>
    cases step_cases (P := P) (a := .fail) hturn with
    | fail => exact h.abort
    | writer hcall => cases hcall
  | kill instanceID =>
    cases step_cases (a := .kill instanceID) hturn with
    | kill =>
      refine h.abort.store (h.witnessed.other ?_ ?_ (append_nil s.store.events).symm (by simp))
      · exact h.witnessed.wf.runs P.hash [.reopen instanceID]
      · show instanceID ≠ P.gapSource
        simpa [steady] using hsteady
    | writer hcall => cases hcall
  | appear k file =>
    simp only [Spool.turn] at hturn
    split at hturn
    · next hok =>
      cases hturn
      obtain ⟨hrest, hk, habove⟩ := hok
      have hfree : s.disk.get k = none := by
        by_contra hsome
        exact Nat.lt_irrefl k (habove k (by simpa [Option.isSome_iff_ne_none] using hsome))
      refine h.resting hrest (fun j hj => ?_) (fun e he hent => hent.congr ?_)
      · rcases Dir.mem_keys_create.1 hj with hj | rfl
        · exact h.keys j hj
        · exact hk
      · intro i hi hname j hj
        obtain ⟨k', p, rfl, hp⟩ := hent
        obtain rfl := segmentName_injective hp.1 hi hname
        have := habove k' (mem_keys_of_headed hp.2.1)
        rw [headed, Dir.get_create _ hfree, if_neg (by omega), headed]
    · cases hturn
  | change k file =>
    simp only [Spool.turn] at hturn
    split at hturn
    · next hrest =>
      cases hturn
      refine h.resting hrest (fun j hj => h.keys j (by rwa [Dir.keys_modify] at hj)) fun e he hent => ?_
      simp only [steady, Bool.or_eq_true, beq_iff_eq] at hsteady
      rcases hsteady with hsame | hbelow
      · exact hent.congr fun _ _ _ j _ => headed_modify hsame j
      · exact hent.below hbelow (fun j hjk => headed_modify_of_ne hjk) he
    · cases hturn

omit [DecidableEq H] in
lemma Gapped.existsUnique (h : Gapped P s) (he : e ∈ s.recorded) :
    ∃! ev, ev ∈ s.store.events ∧ isGap P.gapSource e.1 ev = true := by
  obtain ⟨ev, hev, hkey⟩ := h.witnessed.stored e he
  have hsource : ev.sourceInstanceID = P.gapSource := by
    obtain ⟨k, p, rfl, -⟩ := h.placed e he
    exact (Prod.mk.inj hkey).1
  obtain ⟨hkind, e', he', hpayload, hkey'⟩ := h.witnessed.events ev hev hsource
  have hname : e'.1 = e.1 :=
    ((h.placed e' he').unique (h.placed e he)).2 (hkey'.symm.trans hkey)
  refine ⟨ev, ⟨hev, by simp [isGap, hsource, hkind, hpayload, hname]⟩, fun ev' ⟨hev', hgap⟩ => ?_⟩
  simp only [isGap, Bool.and_eq_true, beq_iff_eq] at hgap
  obtain ⟨-, e'', he'', hpayload'', hkey''⟩ := h.witnessed.events ev' hev' hgap.1.1
  -- the other event is of the same segment, so it has the same key
  have hname'' : e''.1 = e.1 := Option.some.inj (hpayload''.symm.trans hgap.2)
  have hsame : ev'.key = ev.key := by
    rw [hkey'', hkey]
    exact ((h.placed e'' he'').unique (h.placed e he)).1 hname''
  exact inj_on_of_nodup_map h.witnessed.wf.keys hev' hev hsame

end Invariant

/-- **Every segment found corrupt has exactly one gap event**, in every run in which no segment at
or below one with a recorded gap is removed or loses or gets its header line, and nothing else
uses the source of the gap records. When a cycle has handled its gap records, each segment it
found corrupt has been recorded; a recorded segment has one event; and over all cycles a segment
and the key of its gap records determine each other. -/
theorem gaps_recorded_once {H : Type} [DecidableEq H] (P : Setup H) (store : Store H)
    (hwf : store.Wf P.hash) (hown : store.instanceID ≠ P.gapSource)
    (hfresh : ∀ ev ∈ store.events, ev.sourceInstanceID ≠ P.gapSource) (turns : List Turn)
    (s : System H)
    (hsteady : Along (turn P) (fun s a => steady P s a = true) (System.init store) turns)
    (hrun : run (turn P) (System.init store) turns = some s) :
    (s.pc ≠ .idle → s.pc.gaps = [] → ∀ k ∈ s.detected, segmentName k ∈ s.recorded.map Prod.fst) ∧
      (∀ e ∈ s.recorded, ∃! ev, ev ∈ s.store.events ∧ isGap P.gapSource e.1 ev = true) ∧
      ∀ e ∈ s.recorded ++ s.pc.gaps.map gapEntry, ∀ e' ∈ s.recorded ++ s.pc.gaps.map gapEntry,
        e.1 = e'.1 ↔ e.2 = e'.2 := by
  have hinit : Gapped P (System.init store) :=
    ⟨by simp [System.init], trivial, by simp [System.init, Pc.gaps], by simp [System.init],
      by simp [System.init],
      ⟨hwf, hown, fun ev hev hsource => absurd hsource (hfresh ev hev), by simp [System.init]⟩⟩
  have h : Gapped P s :=
    run_invariant (I := Gapped P) (fun _ _ _ h hp hstep => h.turn hp hstep) hinit hsteady hrun
  refine ⟨fun hidle hgaps k hk => ?_, fun e he => h.existsUnique he, ?_⟩
  · obtain ⟨e, he, hname⟩ := h.found hidle k hk
    rw [hgaps, map_nil, append_nil] at he
    exact mem_map.2 ⟨e, he, hname⟩
  · have hentered : ∀ e ∈ s.recorded ++ s.pc.gaps.map gapEntry, Entered P s.disk e := by
      intro e he
      rcases mem_append.1 he with he | he
      · exact h.placed e he
      · obtain ⟨g, hg, rfl⟩ := mem_map.1 he
        obtain ⟨k, p, c, m, rfl, hp⟩ := h.pending g hg
        exact ⟨k, p, rfl, hp⟩
    exact fun e he e' he' => (hentered e he).unique (hentered e' he')

def emptySegment (closed : Bool) : Bytes := layout (ascii "vm") (ascii "runner") [] closed

/-- A segment with a frame whose checksum is wrong. -/
def corruptSegment : Bytes :=
  headerLine (ascii "vm") (ascii "runner") ++ [0, 0, 0, 1, 0, 0, 0, 0, 0x41]

/-- Two cycles over a corrupt segment that stays; before the second one a segment becomes corrupt
and another one appears. -/
def twoCycles : List Turn :=
  [Turn.appear 0 corruptSegment, .appear 1 (emptySegment false), .start] ++
  List.replicate 13 (Turn.importer demoInput) ++
  [Turn.appear 2 (emptySegment false), .change 1 corruptSegment, .start] ++
  List.replicate 18 (Turn.importer demoInput)

/-- Both segments have one gap event after those cycles. -/
theorem gaps_recorded_once_twoCycles :
    ∃ s, run (turn demo) demoInit twoCycles = some s ∧ s.detected = [0, 1] ∧
      ∀ k ∈ s.detected,
        ∃! ev, ev ∈ s.store.events ∧ isGap demo.gapSource (segmentName k) ev = true := by
  obtain ⟨s, hguarded, hdetected, hdone⟩ : ∃ s,
      run (guarded (turn demo) fun s a => steady demo s a = true) demoInit twoCycles = some s ∧
      s.detected = [0, 1] ∧ (s.pc matches .done) = true := by decide +kernel
  obtain ⟨hrun, hsteady⟩ := of_run_guarded hguarded
  have hpc : s.pc = .done := by
    revert hdone
    cases s.pc <;> simp
  obtain ⟨hfound, honce, -⟩ := gaps_recorded_once demo _ (Store.wf_new _ _) (by decide)
    (by simp [Store.new]) twoCycles s hsteady hrun
  refine ⟨s, hrun, hdetected, fun k hk => ?_⟩
  obtain ⟨e, he, hname⟩ := mem_map.1 (hfound (by simp [hpc]) (by simp [hpc, Pc.gaps]) k hk)
  exact hname ▸ honce e he

/-- A first cycle records the gap of segment 1 and removes segment 0; then segment 2 becomes corrupt
and a second cycle comes. -/
def renumbered : List Turn :=
  [Turn.appear 0 (emptySegment true), .appear 1 corruptSegment, .appear 2 (emptySegment false),
    .start] ++
  List.replicate 18 (Turn.importer demoInput) ++
  [Turn.change 2 corruptSegment, .start] ++ List.replicate 14 (Turn.importer demoInput)

/-- After those cycles segment 1 has two gap events, under two keys, and segment 2 none: its gap record
has the key of the first one of segment 1. -/
theorem renumbered_gaps :
    ∃ s, run (turn demo) demoInit renumbered = some s ∧ s.detected = [1, 2] ∧
      s.pc.resting = true ∧
      (s.store.events.filter (isGap demo.gapSource (segmentName 1))).length = 2 ∧
      (s.store.events.filter (isGap demo.gapSource (segmentName 2))).length = 0 ∧
      s.recorded.map (fun e => (e.1, e.2.2)) =
        [(segmentName 1, ascii "1"), (segmentName 1, ascii "0"), (segmentName 2, ascii "1")] := by
  decide +kernel

end Observatory.Spool
