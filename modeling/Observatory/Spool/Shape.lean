/-
# The shape of the spool when its files behave

As long as the writer's files behave, every file on disk is a laid out segment or a creation
that has no header yet, records are only ever appended to the newest segment, and the importer
stands at the place of a record. `OpEffect` says what one operation of a writer does to the
segments; it is what the results about records are proved from.
-/
import Observatory.Spool.Calls
import Observatory.Spool.Indices

namespace Observatory.Spool

open Lib Events List Option Segment Dir

/-- The files an action works on behave. -/
def Action.behaves : Action → Bool
  | .issue create _ => create.behaves
  | .append t _ | .close t => t.behaves
  | _ => true

/-! ## Files and phases -/

/-- Every file is a segment, or a creation without a header. -/
def FilesOk (d : Dir Bytes) : Prop :=
  ∀ k file, d.get k = some file → file = [] ∨ ∃ g : Segment, file = g.bytes

def LiveAt (d : Dir Bytes) (k size : Nat) : Prop :=
  ∃ g : Segment, g.closed = false ∧ d.get k = some g.bytes ∧ g.bytes.length = size

/-- What a phase of the writer means for the files. -/
def Phase.Holds (d : Dir Bytes) (f : Option Bytes) : Phase → Prop
  | .none => True
  | .opening n => d.get n = some [] ∧ Below d f (n + 1)
  | .live k size => LiveAt d k size ∧ Below d f (k + 1)
  | .creating k size n => LiveAt d k size ∧ k < n ∧ d.get n = some [] ∧ Below d f (n + 1)
  | .retiring k size n m => LiveAt d k size ∧ k < n ∧ LiveAt d n m ∧ Below d f (n + 1)

def SideShape (d : Dir Bytes) (f : Option Bytes) : WriterSide → Prop
  | .absent | .listed _ _ => True
  | .ready w => w.phase.Holds d f
  | .busy ops next _ => ∃ p q, p.Holds d f ∧ Exec p ops q ∧ ∀ w, next = some w → q = w.phase

/-- What one operation of a writer does. -/
inductive OpEffect (d : Dir Bytes) (f : Option Bytes) : FileOp → Prop
  | quiet {op} (h : ∀ j, (op.apply d).get j = d.get j) : OpEffect d f op
  | created {n} (hbelow : Below d f n) : OpEffect d f (.create n)
  | headed {n v i} (hget : d.get n = some []) (hbelow : Below d f (n + 1)) :
      OpEffect d f (.write n (headerLine v i))
  | appended {k b} {g : Segment} (hb : IsBody b) (hopen : g.closed = false)
      (hget : d.get k = some g.bytes) (hbelow : Below d f (k + 1)) :
      OpEffect d f (.write k (encodeFrame b))
  | retired {k} {g : Segment} (hopen : g.closed = false) (hget : d.get k = some g.bytes) :
      OpEffect d f (.writeAt k g.bytes.length (putUint32 endMarker))

section Ops

variable {d : Dir Bytes} {f : Option Bytes}

lemma truncateTo_length (file : Bytes) : truncateTo file.length file = file := by
  simp [truncateTo]

lemma overwrite_length (file bytes : Bytes) : overwrite file.length bytes file = file ++ bytes := by
  simp [overwrite, truncateTo_length]

variable {file : Bytes} {d' : Dir Bytes} {k n size : Nat} {g : Segment}

lemma get_write (hget : d.get k = some file) (bytes : Bytes) (j : Nat) :
    ((FileOp.write k bytes).apply d).get j = if j = k then some (file ++ bytes) else d.get j := by
  rw [FileOp.apply, get_modify, hget]
  rfl

lemma get_marker (hget : d.get k = some file) (bytes : Bytes) (j : Nat) :
    ((FileOp.writeAt k file.length bytes).apply d).get j =
      if j = k then some (file ++ bytes) else d.get j := by
  rw [FileOp.apply, get_modify, hget, map_some, overwrite_length]

lemma get_trim (hget : d.get k = some file) (j : Nat) :
    ((FileOp.truncate k file.length).apply d).get j = d.get j := by
  rw [FileOp.apply, get_modify, hget, map_some, truncateTo_length]
  split
  · next hjk => rw [hjk, hget]
  · rfl

lemma get_none_of_below (h : Below d f n) : d.get n = none := by
  cases hg : d.get n with
  | none => rfl
  | some file => exact absurd (h.1 n (mem_keys_of_get hg)) (lt_irrefl n)

lemma get_created (h : Below d f n) (j : Nat) :
    ((FileOp.create n).apply d).get j = if j = n then some [] else d.get j :=
  get_create d (get_none_of_below h) [] j

lemma below_created (h : Below d f n) : Below ((FileOp.create n).apply d) f (n + 1) := by
  refine ⟨fun k hk => ?_, fun c k hc hk => (h.2 c k hc hk).trans (Nat.lt_succ_self n)⟩
  rcases mem_keys_create.1 hk with hk | rfl
  · exact (h.1 k hk).trans (Nat.lt_succ_self n)
  · exact Nat.lt_succ_self k

lemma below_apply {op : FileOp} (htame : op.tame = true) (h : Below d f n) :
    Below (op.apply d) f n :=
  h.of_keys fun k hk => by rwa [keys_apply_of_tame htame] at hk

lemma LiveAt.of_get (h : LiveAt d k size) (hget : d'.get k = d.get k) : LiveAt d' k size := by
  obtain ⟨g, hopen, hg, hlen⟩ := h
  exact ⟨g, hopen, hget.trans hg, hlen⟩

lemma LiveAt.lt (h : LiveAt d k size) (hb : Below d f n) : k < n := by
  obtain ⟨g, -, hg, -⟩ := h
  exact hb.1 k (mem_keys_of_get hg)

lemma Phase.Holds.of_get {p : Phase} (h : p.Holds d f) (hget : ∀ j, d'.get j = d.get j) :
    p.Holds d' f := by
  have hbelow {n : Nat} (hb : Below d f n) : Below d' f n :=
    hb.of_keys fun k hk => by rwa [Dir.mem_keys, hget, ← Dir.mem_keys] at hk
  cases p with
  | none => trivial
  | opening n => exact ⟨(hget n).trans h.1, hbelow h.2⟩
  | live k size => exact ⟨h.1.of_get (hget k), hbelow h.2⟩
  | creating k size n =>
    exact ⟨h.1.of_get (hget k), h.2.1, (hget n).trans h.2.2.1, hbelow h.2.2.2⟩
  | retiring k size n m =>
    exact ⟨h.1.of_get (hget k), h.2.1, h.2.2.1.of_get (hget n), hbelow h.2.2.2⟩

lemma retire_step (h : LiveAt d k size) :
    ∃ g : Segment, g.closed = false ∧ d.get k = some g.bytes ∧
      OpEffect d f (.writeAt k size (putUint32 endMarker)) := by
  obtain ⟨g, hopen, hget, rfl⟩ := h
  exact ⟨g, hopen, hget, .retired hopen hget⟩

/-- The next operation of a call, in the phase it comes in. -/
lemma op_effect {p q : Phase} {op : FileOp} {ops : List FileOp} (hp : p.Holds d f)
    (hexec : Exec p (op :: ops) q) (hcreate : ∀ n, op = .create n → Below d f n) :
    OpEffect d f op ∧ ∃ p', p'.Holds (op.apply d) f ∧ Exec p' ops q := by
  cases hexec with
  | status hr => exact ⟨.quiet fun _ => rfl, p, hp, hr⟩
  | @frame k size b _ _ hb hr =>
    obtain ⟨⟨g, hopen, hget, rfl⟩, hbelow⟩ := hp
    refine ⟨.appended hb hopen hget hbelow, .live k _, ⟨⟨g.push b hb, hopen, ?_, ?_⟩,
      below_apply rfl hbelow⟩, hr⟩
    · rw [get_write hget, if_pos rfl, bytes_push hopen]
    · rw [bytes_push hopen, length_append]
  | @trim k size _ _ hr | @trimOld k size n m _ _ hr =>
    obtain ⟨g, hopen, hget, rfl⟩ := hp.1
    exact ⟨.quiet (get_trim hget), _, hp.of_get (get_trim hget), hr⟩
  | finish hr =>
    obtain ⟨-, -, -, heff⟩ := @retire_step d f _ _ hp.1
    exact ⟨heff, .none, trivial, hr⟩
  | @create k size n _ _ hr =>
    have hb := hcreate n rfl
    have hlt := hp.1.lt hb
    refine ⟨.created hb, .creating k size n, ⟨hp.1.of_get ?_, hlt, ?_, below_created hb⟩, hr⟩
    · rw [get_created hb, if_neg hlt.ne]
    · rw [get_created hb, if_pos rfl]
  | @header k size n v i _ _ hr =>
    obtain ⟨hlive, hlt, hget, hbelow⟩ := hp
    refine ⟨.headed hget hbelow, .retiring k size n _, ⟨hlive.of_get ?_, hlt, ⟨.new v i, rfl, ?_, ?_⟩,
      below_apply rfl hbelow⟩, hr⟩
    · rw [get_write hget, if_neg hlt.ne]
    · rw [get_write hget, if_pos rfl, bytes_new, nil_append]
    · rw [bytes_new]
  | @retire k size n m _ _ hr =>
    obtain ⟨⟨g, hopen, hget, rfl⟩, hlt, hlive, hbelow⟩ := hp
    refine ⟨.retired hopen hget, .live n m, ⟨hlive.of_get ?_, below_apply rfl hbelow⟩, hr⟩
    rw [get_marker hget, if_neg hlt.ne']
  | @first n _ _ hr =>
    have hb := hcreate n rfl
    refine ⟨.created hb, .opening n, ⟨?_, below_created hb⟩, hr⟩
    rw [get_created hb, if_pos rfl]
  | @firstHeader n v i _ _ hr =>
    obtain ⟨hget, hbelow⟩ := hp
    refine ⟨.headed hget hbelow, .live n _, ⟨⟨.new v i, rfl, ?_, ?_⟩, below_apply rfl hbelow⟩, hr⟩
    · rw [get_write hget, if_pos rfl, bytes_new, nil_append]
    · rw [bytes_new]

lemma OpEffect.segment {op : FileOp} (h : OpEffect d f op) (hget : d.get k = some g.bytes) :
    ∃ g' : Segment, (op.apply d).get k = some g'.bytes ∧ g.bodies <+: g'.bodies ∧
      (∀ n ≤ g.bodies.length, g'.offset n = g.offset n) ∧ (g.closed = true → g' = g) := by
  have hsame (heq : (op.apply d).get k = d.get k) : ∃ g' : Segment,
      (op.apply d).get k = some g'.bytes ∧ g.bodies <+: g'.bodies ∧
      (∀ n ≤ g.bodies.length, g'.offset n = g.offset n) ∧ (g.closed = true → g' = g) :=
    ⟨g, heq.trans hget, prefix_refl _, fun _ _ => rfl, fun _ => rfl⟩
  cases h with
  | quiet h => exact hsame (h k)
  | @created n hbelow =>
    refine hsame ?_
    rw [get_created hbelow, if_neg]
    exact (hbelow.1 k (mem_keys_of_get hget)).ne
  | @headed n v i hget' _ =>
    refine hsame ?_
    rw [get_write hget', if_neg]
    rintro rfl
    rw [hget] at hget'
    exact g.bytes_ne_nil (some.inj hget')
  | @appended j b g0 hb hopen hget' _ =>
    by_cases hjk : k = j
    · subst hjk
      have hclosed : g.closed = false := by
        rw [hget] at hget'
        rw [closed_eq_of_bytes (some.inj hget'), hopen]
      refine ⟨g.push b hb, ?_, prefix_append _ _, fun n hn => g.offset_push hb hn, ?_⟩
      · rw [get_write hget, if_pos rfl, bytes_push hclosed]
      · rw [hclosed]
        exact fun h => absurd h (by simp)
    · refine hsame ?_
      rw [get_write hget', if_neg hjk]
  | @retired j g0 hopen hget' =>
    by_cases hjk : k = j
    · subst hjk
      have hbytes : g0.bytes = g.bytes := by
        rw [hget] at hget'
        exact (some.inj hget').symm
      have hclosed : g.closed = false := by rw [← closed_eq_of_bytes hbytes, hopen]
      refine ⟨g.retired, ?_, prefix_refl _, fun _ _ => rfl, ?_⟩
      · rw [hbytes, get_marker hget, if_pos rfl, bytes_retired hclosed]
      · rw [hclosed]
        exact fun h => absurd h (by simp)
    · refine hsame ?_
      rw [get_marker hget', if_neg hjk]

/-- A creation without a header stays one, unless it is the newest file. -/
lemma OpEffect.empty {op : FileOp} (h : OpEffect d f op) {j : Nat} (hget : d.get k = some [])
    (hj : j ∈ d.keys) (hkj : k < j) : (op.apply d).get k = some [] := by
  cases h with
  | quiet h => exact (h k).trans hget
  | @created n hbelow =>
    rw [get_created hbelow, if_neg (hbelow.1 k (mem_keys_of_get hget)).ne, hget]
  | @headed n v i hget' hbelow =>
    have hlt : k < n := lt_of_lt_of_le hkj (Nat.lt_succ_iff.1 (hbelow.1 j hj))
    rw [get_write hget', if_neg hlt.ne, hget]
  | @appended n b g hb hopen hget' _ =>
    rw [get_write hget', if_neg, hget]
    rintro rfl
    rw [hget] at hget'
    exact g.bytes_ne_nil (some.inj hget').symm
  | @retired n g hopen hget' =>
    rw [get_marker hget', if_neg, hget]
    rintro rfl
    rw [hget] at hget'
    exact g.bytes_ne_nil (some.inj hget').symm

lemma OpEffect.keys {op : FileOp} (h : OpEffect d f op) (hk : k ∈ d.keys) :
    k ∈ (op.apply d).keys := by
  cases h with
  | quiet h => rwa [Dir.mem_keys, h, ← Dir.mem_keys]
  | created => exact mem_keys_create.2 (.inl hk)
  | headed | appended | retired => rwa [keys_apply_of_tame rfl]

lemma OpEffect.files {op : FileOp} (h : OpEffect d f op) (hf : FilesOk d) :
    FilesOk (op.apply d) := by
  intro k file' hget'
  cases hg : d.get k with
  | some file =>
    rcases hf k file hg with rfl | ⟨g, rfl⟩
    · -- a creation: only its header can have been added
      cases h with
      | quiet h =>
        rw [h, hg] at hget'
        exact .inl (some.inj hget').symm
      | @created n hbelow =>
        rw [get_created hbelow, if_neg (hbelow.1 k (mem_keys_of_get hg)).ne, hg] at hget'
        exact .inl (some.inj hget').symm
      | @headed n v i hget _ =>
        rw [get_write hget] at hget'
        split at hget'
        · cases hget'
          exact .inr ⟨.new v i, by rw [bytes_new, nil_append]⟩
        · rw [hg] at hget'
          exact .inl (some.inj hget').symm
      | @appended n b g hb hopen hget _ =>
        rw [get_write hget] at hget'
        split at hget'
        · next hkn =>
          rw [hkn, hget] at hg
          exact absurd (some.inj hg) g.bytes_ne_nil
        · rw [hg] at hget'
          exact .inl (some.inj hget').symm
      | @retired n g hopen hget =>
        rw [get_marker hget] at hget'
        split at hget'
        · next hkn =>
          rw [hkn, hget] at hg
          exact absurd (some.inj hg) g.bytes_ne_nil
        · rw [hg] at hget'
          exact .inl (some.inj hget').symm
    · obtain ⟨g', hg', -⟩ := h.segment hg
      rw [hg'] at hget'
      exact .inr ⟨g', (some.inj hget').symm⟩
  | none =>
    cases h with
    | quiet h =>
      rw [h, hg] at hget'
      cases hget'
    | @created n hbelow =>
      rw [get_created hbelow] at hget'
      split at hget'
      · exact .inl (some.inj hget').symm
      · rw [hg] at hget'
        cases hget'
    | headed | appended | retired =>
      have := mem_keys_of_get hget'
      rw [keys_apply_of_tame rfl, Dir.mem_keys, hg] at this
      exact absurd this (by simp)

/-! ### Records -/

lemma recordsAt_segment (h : d.get k = some g.bytes) :
    recordsAt d k = g.bodies := by
  simp [recordsAt, h]

lemma recordsAt_congr (h : d'.get k = d.get k) :
    recordsAt d' k = recordsAt d k := by
  simp [recordsAt, h]

lemma recordsAt_nil (h : d.get k = some []) : recordsAt d k = [] := by
  simp [recordsAt, h, records, readSegment_nil]

lemma recordsAt_none (h : d.get k = none) : recordsAt d k = [] := by
  simp [recordsAt, h]

lemma recordsAt_not_mem (h : k ∉ d.keys) : recordsAt d k = [] :=
  recordsAt_none (by simpa using h)

lemma recordsAt_erase (k j : Nat) :
    recordsAt (d.erase k) j = if j = k then [] else recordsAt d j := by
  split
  · next hjk => exact recordsAt_none (by rw [get_erase, if_pos hjk])
  · next hjk => exact recordsAt_congr (by rw [get_erase, if_neg hjk])

lemma recordsAt_write {b : Bytes} (hb : IsBody b) (hopen : g.closed = false)
    (hget : d.get k = some g.bytes) (j : Nat) :
    recordsAt ((FileOp.write k (encodeFrame b)).apply d) j =
      if j = k then recordsAt d k ++ [b] else recordsAt d j := by
  split
  · next hjk =>
    have hpush : ((FileOp.write k (encodeFrame b)).apply d).get j = some (g.push b hb).bytes := by
      rw [get_write hget, if_pos hjk, bytes_push hopen]
    rw [recordsAt_segment hpush, recordsAt_segment hget]
    rfl
  · next hjk => exact recordsAt_congr (by rw [get_write hget, if_neg hjk])

lemma added_write {b : Bytes} (hb : IsBody b) (hopen : g.closed = false)
    (hget : d.get k = some g.bytes) : (FileOp.write k (encodeFrame b)).added d = [(k, b)] := by
  simp [FileOp.added, recordsAt_write hb hopen hget]

lemma OpEffect.records {op : FileOp} (h : OpEffect d f op) :
    (op.added d = [] ∧ ∀ j, recordsAt (op.apply d) j = recordsAt d j) ∨
      ∃ k b, ∃ g : Segment, op = .write k (encodeFrame b) ∧ op.added d = [(k, b)] ∧ IsBody b ∧
        g.closed = false ∧ d.get k = some g.bytes ∧ Below d f (k + 1) ∧
        ∀ j, recordsAt (op.apply d) j = if j = k then recordsAt d k ++ [b] else recordsAt d j := by
  have hquiet (heq : ∀ j, recordsAt (op.apply d) j = recordsAt d j) :
      op.added d = [] ∧ ∀ j, recordsAt (op.apply d) j = recordsAt d j := by
    refine ⟨?_, heq⟩
    cases op with
    | write k bytes => simp [FileOp.added, heq]
    | create k | truncate k size | writeAt k offset bytes | remove k | status h => rfl
  cases h with
  | quiet h => exact .inl (hquiet fun j => recordsAt_congr (h j))
  | @created n hbelow =>
    refine .inl (hquiet fun j => ?_)
    by_cases hj : j = n
    · subst hj
      rw [recordsAt_nil (by rw [get_created hbelow, if_pos rfl]),
        recordsAt_none (get_none_of_below hbelow)]
    · exact recordsAt_congr (by rw [get_created hbelow, if_neg hj])
  | @headed n v i hget _ =>
    refine .inl (hquiet fun j => ?_)
    by_cases hj : j = n
    · subst hj
      have hnew : ((FileOp.write j (headerLine v i)).apply d).get j =
          some (new v i).bytes := by
        rw [get_write hget, if_pos rfl, bytes_new, nil_append]
      rw [recordsAt_segment hnew, recordsAt_nil hget]
      rfl
    · exact recordsAt_congr (by rw [get_write hget, if_neg hj])
  | @appended k b g hb hopen hget hbelow =>
    exact .inr ⟨k, b, g, rfl, added_write hb hopen hget, hb, hopen, hget, hbelow,
      recordsAt_write hb hopen hget⟩
  | @retired k g hopen hget =>
    refine .inl (hquiet fun j => ?_)
    by_cases hj : j = k
    · subst hj
      have hmark : ((FileOp.writeAt j g.bytes.length (putUint32 endMarker)).apply d).get j =
          some g.retired.bytes := by
        rw [get_marker hget, if_pos rfl, bytes_retired hopen]
      rw [recordsAt_segment hmark, recordsAt_segment hget]
      rfl
    · exact recordsAt_congr (by rw [get_marker hget, if_neg hj])

lemma OpEffect.recordsAt {op : FileOp} (h : OpEffect d f op) (j : Nat) :
    recordsAt (op.apply d) j = recordsAt d j ∨
      ∃ b, ∃ g : Segment, op = .write j (encodeFrame b) ∧ g.closed = false ∧
        d.get j = some g.bytes ∧ Below d f (j + 1) := by
  rcases h.records with ⟨-, hrec⟩ | ⟨k, b, g, hop, -, -, hopen, hget, hbelow, hrec⟩
  · exact .inl (hrec j)
  · by_cases hjk : j = k
    · subst hjk
      exact .inr ⟨b, g, hop, hopen, hget, hbelow⟩
    · exact .inl (by rw [hrec, if_neg hjk])

lemma OpEffect.recordsAt_closed {op : FileOp} (h : OpEffect d f op) (hclosed : g.closed = true)
    (hget : d.get k = some g.bytes) :
    Spool.recordsAt (op.apply d) k = Spool.recordsAt d k := by
  obtain ⟨g', hget', -, -, hsame⟩ := h.segment hget
  rw [hsame hclosed] at hget'
  exact recordsAt_congr (hget'.trans hget.symm)

lemma OpEffect.recordsAt_prefix {op : FileOp} (h : OpEffect d f op) (j : Nat) :
    Spool.recordsAt d j <+: Spool.recordsAt (op.apply d) j := by
  rcases h.records with ⟨-, hrec⟩ | ⟨k, b, g, -, -, -, -, -, -, hrec⟩
  · rw [hrec]
  · rw [hrec]
    split
    · next hjk => exact hjk ▸ prefix_append _ _
    · exact prefix_refl _

lemma OpEffect.open {op : FileOp} (h : OpEffect d f op) (hopen : g.closed = false)
    (hget : d.get k = some g.bytes) :
    (∃ g' : Segment, g'.closed = false ∧ (op.apply d).get k = some g'.bytes) ∨
      ∃ offset bytes, op = .writeAt k offset bytes := by
  have hsame (heq : (op.apply d).get k = d.get k) :
      ∃ g' : Segment, g'.closed = false ∧ (op.apply d).get k = some g'.bytes :=
    ⟨g, hopen, heq.trans hget⟩
  cases h with
  | quiet h => exact .inl (hsame (h k))
  | created hbelow =>
    refine .inl (hsame ?_)
    rw [get_created hbelow, if_neg (hbelow.1 k (mem_keys_of_get hget)).ne]
  | headed hget' _ =>
    refine .inl (hsame ?_)
    rw [get_write hget', if_neg]
    rintro rfl
    rw [hget] at hget'
    exact g.bytes_ne_nil (some.inj hget')
  | @appended j b _ hb _ hget' _ =>
    by_cases hjk : k = j
    · subst hjk
      exact .inl ⟨g.push b hb, hopen, by rw [get_write hget, if_pos rfl, bytes_push hopen]⟩
    · exact .inl (hsame (by rw [get_write hget', if_neg hjk]))
  | @retired j _ _ hget' =>
    by_cases hjk : k = j
    · subst hjk
      exact .inr ⟨_, _, rfl⟩
    · exact .inl (hsame (by rw [get_marker hget', if_neg hjk]))

/-- A file is on disk already or created above everything. -/
lemma OpEffect.mem_keys {op : FileOp} (h : OpEffect d f op) (hk : k ∈ (op.apply d).keys) :
    k ∈ d.keys ∨ Below d f k := by
  cases h with
  | quiet h =>
    rw [Dir.mem_keys, h] at hk
    exact .inl (Dir.mem_keys.2 hk)
  | created hbelow =>
    rw [Dir.mem_keys, get_created hbelow] at hk
    split at hk
    · next hkn => exact .inr (hkn ▸ hbelow)
    · exact .inl (Dir.mem_keys.2 hk)
  | headed | appended | retired =>
    rw [keys_apply_of_tame rfl] at hk
    exact .inl hk

end Ops

/-! ## The importer's place -/

/-- The segments a cycle has still to do with, in order. -/
def Pc.plan : Pc → List Nat
  | .idle | .done => []
  | .recovering todo report => report.segments ++ todo
  | .discarding k todo report => report.segments ++ k :: todo
  | .loading report => report.segments
  | .recording _ _ todo | .walking _ todo => todo
  | .counted _ k _ todo | .stopped _ k _ _ todo | .pruning _ k todo => k :: todo
  | .reading _ r todo | .committed _ r todo => r.segment :: todo

structure PlanOk (d : Dir Bytes) (plan : List Nat) : Prop where
  sorted : plan.Pairwise (· < ·)
  onDisk : ∀ k ∈ plan, k ∈ d.keys

/-- What is known of the segment a cycle is at. -/
def HereOk (d : Dir Bytes) : Pc → Prop
  | .discarding k todo _ => d.get k = some [] ∧ todo ≠ []
  | .counted _ k _ _ | .stopped _ k _ _ _ => ∃ g : Segment, d.get k = some g.bytes
  | .reading _ r _ => r.detached = false ∧ ∃ g : Segment, d.get r.segment = some g.bytes ∧
      r.recIdx ≤ g.bodies.length ∧ r.offset = g.offset r.recIdx
  | .committed _ r _ => r.detached = false ∧ ∃ g : Segment, d.get r.segment = some g.bytes ∧
      r.recIdx < g.bodies.length ∧ r.offset = g.offset (r.recIdx + 1)
  | .pruning _ k _ => ∃ g : Segment, g.closed = true ∧ d.get k = some g.bytes
  | _ => True

/-- The invariant of a run in which files behave. -/
structure Shape {H : Type} (s : System H) : Prop where
  files : FilesOk s.disk
  side : SideShape s.disk s.cursorFile s.writer
  plan : PlanOk s.disk s.pc.plan
  here : HereOk s.disk s.pc

section Importer

variable {d d' : Dir Bytes} {f : Option Bytes}

lemma PlanOk.sublist {plan plan' : List Nat} (h : PlanOk d plan) (hsub : plan'.Sublist plan) :
    PlanOk d plan' :=
  ⟨h.sorted.sublist hsub, fun k hk => h.onDisk k (hsub.subset hk)⟩

lemma PlanOk.keys {plan : List Nat} (h : PlanOk d plan) (hkeys : ∀ k ∈ d.keys, k ∈ d'.keys) :
    PlanOk d' plan :=
  ⟨h.sorted, fun k hk => hkeys k (h.onDisk k hk)⟩

lemma PlanOk.nil : PlanOk d [] := ⟨.nil, by simp⟩

variable {file : Bytes} {k : Nat}

lemma PlanOk.erase (front : List Nat) {todo : List Nat} (h : PlanOk d (front ++ k :: todo)) :
    PlanOk (d.erase k) (front ++ todo) := by
  have hsub : (front ++ todo).Sublist (front ++ k :: todo) :=
    List.Sublist.append_left (sublist_cons_self k todo) front
  refine ⟨h.sorted.sublist hsub, fun j hj => mem_keys_erase.2 ⟨h.onDisk j (hsub.subset hj), ?_⟩⟩
  rintro rfl
  have hsorted := pairwise_append.1 h.sorted
  rcases mem_append.1 hj with hj | hj
  · exact lt_irrefl j (hsorted.2.2 j hj j mem_cons_self)
  · exact lt_irrefl j ((pairwise_cons.1 hsorted.2.1).1 j hj)

lemma HereOk.op {pc : Pc} (h : HereOk d pc) (hplan : PlanOk d pc.plan) {op : FileOp}
    (heff : OpEffect d f op) : HereOk (op.apply d) pc := by
  cases pc with
  | idle | done | recovering | loading | recording | walking => trivial
  | discarding k todo report =>
    obtain ⟨hget, hne⟩ := h
    obtain ⟨j, todo, rfl⟩ := exists_cons_of_ne_nil hne
    have hsorted := (pairwise_append.1 hplan.sorted).2.1
    refine ⟨heff.empty hget (hplan.onDisk j (by simp [Pc.plan])) ?_, hne⟩
    exact (pairwise_cons.1 hsorted).1 j mem_cons_self
  | counted c k n todo | stopped c k n e todo =>
    obtain ⟨g, hget⟩ := h
    obtain ⟨g', hget', -⟩ := heff.segment hget
    exact ⟨g', hget'⟩
  | reading c r todo =>
    obtain ⟨hd, g, hget, hle, hoff⟩ := h
    obtain ⟨g', hget', hpre, hoff', -⟩ := heff.segment hget
    exact ⟨hd, g', hget', hle.trans hpre.length_le, by rw [hoff, hoff' _ hle]⟩
  | committed c r todo =>
    obtain ⟨hd, g, hget, hlt, hoff⟩ := h
    obtain ⟨g', hget', hpre, hoff', -⟩ := heff.segment hget
    exact ⟨hd, g', hget', hlt.trans_le hpre.length_le, by rw [hoff, hoff' _ hlt]⟩
  | pruning c k todo =>
    obtain ⟨g, hclosed, hget⟩ := h
    obtain ⟨g', hget', -, -, hsame⟩ := heff.segment hget
    obtain rfl := hsame hclosed
    exact ⟨g', hclosed, hget'⟩

lemma Phase.Holds.erase {p : Phase} (h : p.Holds d f)
    (hlive : ∀ g : Segment, g.closed = false → d.get k ≠ some g.bytes)
    (hnew : d.get k = some [] → ∃ j ∈ d.keys, k < j) : p.Holds (d.erase k) f := by
  have hbelow {n : Nat} (hb : Below d f n) : Below (d.erase k) f n :=
    hb.of_keys fun j hj => (mem_keys_erase.1 hj).1
  have hkeep {j size : Nat} (hj : LiveAt d j size) : LiveAt (d.erase k) j size := by
    refine hj.of_get ?_
    obtain ⟨g, hopen, hget, -⟩ := hj
    rw [get_erase, if_neg]
    rintro rfl
    exact hlive g hopen hget
  have hcreation {n : Nat} (hget : d.get n = some []) (hb : Below d f (n + 1)) :
      (d.erase k).get n = some [] := by
    rw [get_erase, if_neg, hget]
    rintro rfl
    obtain ⟨j, hj, hlt⟩ := hnew hget
    have := hb.1 j hj
    omega
  cases p with
  | none => trivial
  | opening n => exact ⟨hcreation h.1 h.2, hbelow h.2⟩
  | live j size => exact ⟨hkeep h.1, hbelow h.2⟩
  | creating j size n => exact ⟨hkeep h.1, h.2.1, hcreation h.2.2.1 h.2.2.2, hbelow h.2.2.2⟩
  | retiring j size n m => exact ⟨hkeep h.1, h.2.1, hkeep h.2.2.1, hbelow h.2.2.2⟩

lemma SideShape.mono {side : WriterSide} {f' : Option Bytes} (h : SideShape d f side)
    (hp : ∀ p : Phase, p.Holds d f → p.Holds d' f') : SideShape d' f' side := by
  cases side with
  | absent | listed => trivial
  | ready w => exact hp _ h
  | busy ops next ack =>
    obtain ⟨p, q, hold, hexec, hnext⟩ := h
    exact ⟨p, q, hp p hold, hexec, hnext⟩

lemma FilesOk.erase (h : FilesOk d) (k : Nat) : FilesOk (d.erase k) := by
  intro j file hj
  rw [get_erase] at hj
  split at hj
  · cases hj
  · exact h j file hj

lemma Phase.Holds.cursor {p : Phase} {f' : Option Bytes} (h : p.Holds d f)
    (hb : ∀ n, Below d f n → Below d f' n) : p.Holds d f' := by
  cases p with
  | none => trivial
  | opening n | live j size => exact ⟨h.1, hb _ h.2⟩
  | creating j size n | retiring j size n m => exact ⟨h.1, h.2.1, h.2.2.1, hb _ h.2.2.2⟩

lemma FilesOk.eq_nil (h : FilesOk d) (hget : d.get k = some file) (hline : readLine file = none) :
    file = [] := by
  rcases h k file hget with rfl | ⟨g, rfl⟩
  · rfl
  · rw [bytes, layout, readLine_headerLine] at hline
    cases hline

lemma FilesOk.segment (h : FilesOk d) {rest : Bytes} (hget : d.get k = some file)
    (hopen : readSegment file = .ok rest) : ∃ g : Segment, file = g.bytes := by
  rcases h k file hget with rfl | hg
  · rw [readSegment_nil] at hopen
    cases hopen
  · exact hg

lemma FilesOk.recover (h : FilesOk d) {isNewest : Bool} {r : Recovered}
    (hget : d.get k = some file) (hrec : recoverSegment file isNewest = .ok r)
    (hhead : r.headerless = false) : r.file = file ∧ r.corruptCount = 0 := by
  rcases h k file hget with rfl | ⟨g, rfl⟩
  · have := (recoverSegment_headerless hrec).2 (by decide)
    rw [hhead] at this
    exact absurd this (by simp)
  · rw [g.recover_bytes] at hrec
    cases hrec
    exact ⟨rfl, rfl⟩

lemma FilesOk.recover_get (h : FilesOk d) {isNewest : Bool} {r : Recovered}
    (hget : d.get k = some file) (hrec : recoverSegment file isNewest = .ok r)
    (hhead : r.headerless = false) (j : Nat) : (d.modify k fun _ => r.file).get j = d.get j := by
  rw [get_modify, hget, (h.recover hget hrec hhead).1]
  split
  · next hjk => rw [hjk, hget, map_some]
  · rfl

/-- What the reader finds at its place. -/
lemma HereOk.next (conv : FloatText) {c : Cursor} {r : Reading} {todo : List Nat} {bs : Bytes}
    (h : HereOk d (.reading c r todo)) (hbs : r.bytes d = some bs) :
    ∃ g : Segment, d.get r.segment = some g.bytes ∧ r.recIdx ≤ g.bodies.length ∧
      match SegmentIter.next conv bs with
      | .eof => r.recIdx = g.bodies.length
      | .corruptRecord => ∃ b, g.bodies[r.recIdx]? = some b ∧ Envelope.unmarshal conv b = none
      | .envelope env rest => ∃ b, g.bodies[r.recIdx]? = some b ∧
          Envelope.unmarshal conv b = some env ∧
          r.offset + (bs.length - rest.length) = g.offset (r.recIdx + 1) := by
  obtain ⟨hd, g, hget, hle, hoff⟩ := h
  refine ⟨g, hget, hle, ?_⟩
  obtain rfl : g.bytes.drop r.offset = bs := by
    simpa [Reading.bytes, hd, hget] using hbs
  have hnext := @next_layout g.vmID g.instanceID g.bodies g.closed conv g.length_le r.recIdx
  rw [hoff]
  simp only [bytes, offset] at hnext ⊢
  rw [hnext]
  cases hb : g.bodies[r.recIdx]? with
  | none =>
    have := List.getElem?_eq_none_iff.1 hb
    exact le_antisymm hle this
  | some b =>
    dsimp only
    cases henv : Envelope.unmarshal conv b with
    | none => exact ⟨b, rfl, henv⟩
    | some env => exact ⟨b, rfl, henv, length_drop_offsetOf hb⟩

end Importer

/-! ## Steps -/

variable {H : Type} {P : Setup H} {s s' : System H}

/-- A step of the importer that leaves the files alone. -/
lemma Shape.of_disk (h : Shape s) (hdisk : s'.disk = s.disk) (hfile : s'.cursorFile = s.cursorFile)
    (hwriter : s'.writer = s.writer) (hplan : s'.pc.plan.Sublist s.pc.plan)
    (hhere : HereOk s.disk s'.pc) : Shape s' where
  files := by rw [hdisk]; exact h.files
  side := by rw [hdisk, hfile, hwriter]; exact h.side
  plan := by rw [hdisk]; exact h.plan.sublist hplan
  here := by rw [hdisk]; exact hhere

variable {ops : List FileOp} {ack : Option Bytes}

/-- An index is created above everything that is there. -/
lemma Ordered.create_below (h : Ordered s) {n : Nat} {next : Option Writer}
    (hw : s.writer = .busy (.create n :: ops) next ack) :
    Below s.disk s.cursorFile n := by
  have hside := h.side
  rw [hw] at hside
  obtain ⟨m, st, hops, -, hst⟩ := hside
  cases hops with
  | rest hall => exact absurd hall (by simp [FileOp.tame])
  | create => exact hst

lemma Shape.op_effect (h : Shape s) (hord : Ordered s) {op : FileOp} {next : Option Writer}
    (hw : s.writer = .busy (op :: ops) next ack) :
    OpEffect s.disk s.cursorFile op ∧
      SideShape (op.apply s.disk) s.cursorFile (.busy ops next ack) := by
  have hside := h.side
  rw [hw] at hside
  obtain ⟨p, q, hp, hexec, hnext⟩ := hside
  obtain ⟨heff, p', hp', hexec'⟩ := Spool.op_effect hp hexec fun n hn =>
    hord.create_below (n := n) (hn ▸ hw)
  exact ⟨heff, p', q, hp', hexec', hnext⟩

/-- The reader keeps its file: no operation removes one. -/
lemma Shape.op_pc (h : Shape s) {op : FileOp} {next : Option Writer}
    (hw : s.writer = .busy (op :: ops) next ack) : (opStep s op ops next ack).pc = s.pc := by
  have hside := h.side
  rw [hw] at hside
  obtain ⟨p, q, -, hexec, -⟩ := hside
  cases hexec <;> rfl

lemma Shape.added_write (h : Shape s) {k : Nat} {b : Bytes} (hb : IsBody b) {next : Option Writer}
    (hw : s.writer = .busy (.write k (encodeFrame b) :: ops) next ack) :
    (FileOp.write k (encodeFrame b)).added s.disk = [(k, b)] := by
  have hside := h.side
  rw [hw] at hside
  obtain ⟨p, q, hp, hexec, -⟩ := hside
  generalize hframe : encodeFrame b = frame at hexec
  cases hexec with
  | frame hb' =>
    obtain ⟨⟨g, hopen, hget, -⟩, -⟩ := hp
    exact hframe ▸ Spool.added_write hb hopen hget
  | header | firstHeader => exact absurd hframe (encodeFrame_ne_headerLine hb _ _)

lemma Shape.op (h : Shape s) (hord : Ordered s) {op : FileOp} {next : Option Writer}
    (hw : s.writer = .busy (op :: ops) next ack) :
    Shape (opStep s op ops next ack) := by
  obtain ⟨heff, hside⟩ := h.op_effect hord hw
  refine ⟨heff.files h.files, hside, ?_, ?_⟩
  · rw [h.op_pc hw]
    exact h.plan.keys fun k hk => heff.keys hk
  · rw [h.op_pc hw]
    exact h.here.op h.plan heff

lemma shape_init (store : Store H) : Shape (System.init store) :=
  ⟨by simp [FilesOk, System.init], trivial, PlanOk.nil, trivial⟩

variable [DecidableEq H]

lemma Shape.imported (h : Shape s) (hord : Ordered s) {i : Input} (hstep : Imported P s i s') :
    Shape s' := by
  cases hstep with
  | aborted | gapRefused | refused =>
    exact h.of_disk rfl rfl rfl (nil_sublist _) trivial
  | recovered hpc =>
    split
    · exact h.of_disk rfl rfl rfl (nil_sublist _) trivial
    · exact h.of_disk rfl rfl rfl (by simp [hpc, Pc.plan]) trivial
  | skipped hpc => exact h.of_disk rfl rfl rfl (by simp [hpc, Pc.plan]) trivial
  | headerless hpc hfile hline =>
    refine h.of_disk rfl rfl rfl (by simp [hpc, Pc.plan]) ⟨?_, by simp⟩
    rw [hfile, h.files.eq_nil hfile hline]
  | @scanned k todo report file r hpc hfile hrec hhead =>
    have hget := h.files.recover_get hfile hrec hhead
    have hplan := h.plan
    rw [hpc] at hplan
    refine ⟨fun j file' hj => h.files j file' ((hget j).symm.trans hj),
      h.side.mono fun p hp => hp.of_get hget, ?_, trivial⟩
    refine PlanOk.keys (d := s.disk) ?_ fun j hj => by rwa [keys_modify]
    simpa [Pc.plan, Report.add] using hplan
  | @discarded k todo report hpc _ =>
    have hplan := h.plan
    have hhere := h.here
    rw [hpc] at hplan hhere
    obtain ⟨hget, hne⟩ := hhere
    obtain ⟨j, rest, rfl⟩ := exists_cons_of_ne_nil hne
    have hkj : k < j :=
      (pairwise_cons.1 (pairwise_append.1 hplan.sorted).2.1).1 j mem_cons_self
    refine ⟨h.files.erase k, h.side.mono fun p hp => hp.erase ?_ ?_, hplan.erase _, trivial⟩
    · intro g _ hg
      rw [hget] at hg
      exact g.bytes_ne_nil (some.inj hg).symm
    · exact fun _ => ⟨j, hplan.onDisk j (by simp [Pc.plan]), hkj⟩
  | loaded hpc | gapsDone hpc | gapRecorded hpc =>
    exact h.of_disk rfl rfl rfl (by simp [hpc, Pc.plan]) trivial
  | finished hpc => exact h.of_disk rfl rfl rfl (nil_sublist _) trivial
  | @past c k todo file n hpc hfile _ hcount =>
    refine h.of_disk rfl rfl rfl (by simp [hpc, Pc.plan]) ?_
    cases hopen : readSegment file with
    | error err => simp [countSegmentRecords, hopen, Except.map] at hcount
    | ok rest =>
      obtain ⟨g, rfl⟩ := h.files.segment hfile hopen
      exact ⟨g, hfile⟩
  | @opened c k todo file rest hpc hfile _ hopen =>
    obtain ⟨g, rfl⟩ := h.files.segment hfile hopen
    refine h.of_disk rfl rfl rfl (by simp [hpc, Pc.plan]) ⟨rfl, g, hfile, Nat.zero_le _, ?_⟩
    rw [bytes, readSegment_layout] at hopen
    cases hopen
    exact length_layout_sub_rest
  | @probedPast c k n todo file closed hpc hfile hmark
  | @probed c k n reachedEOF todo file closed hpc hfile hmark =>
    have hhere := h.here
    rw [hpc] at hhere
    obtain ⟨g, hget⟩ := hhere
    obtain rfl : file = g.bytes := by rw [hfile] at hget; exact some.inj hget
    rw [g.hasEndMarker_bytes] at hmark
    split
    · next hc =>
      refine h.of_disk rfl rfl rfl (by simp [hpc, Pc.plan]) ⟨g, ?_, hget⟩
      rw [some.inj hmark]
      exact (Bool.and_eq_true_iff.1 hc).2
    · exact h.of_disk rfl rfl rfl (by simp [hpc, Pc.plan]) trivial
  | atEnd hpc hbs | atCorrupt hpc hbs =>
    have hhere := h.here
    rw [hpc] at hhere
    obtain ⟨-, g, hget, -⟩ := hhere
    exact h.of_disk rfl rfl rfl (by simp [hpc, Pc.plan]) ⟨g, hget⟩
  | @passed c r todo bs env rest hpc hbs hnext _
  | @commit c r todo bs env rest hpc hbs hnext _ _ =>
    have hhere := h.here
    rw [hpc] at hhere
    obtain ⟨g, hget, -, hmatch⟩ := hhere.next P.conv hbs
    rw [hnext] at hmatch
    obtain ⟨b, hb, -, hoff⟩ := hmatch
    have hlt := (List.getElem?_eq_some_iff.1 hb).1
    exact h.of_disk rfl rfl rfl (by simp [hpc, Pc.plan]) ⟨hhere.1, g, hget, hlt, hoff⟩
  | @wroteCursor c r todo hpc hlt =>
    have hhere := h.here
    have hplan := h.plan
    rw [hpc] at hhere hplan
    obtain ⟨hd, g, hget, hidx, hoff⟩ := hhere
    have hmax := (hord.cursor.notPast c r todo (.inr hpc)).1
    refine ⟨h.files, h.side.mono fun p hp => hp.cursor fun n hb =>
      hb.cursorStep (mem_keys_of_get hget) hmax hlt, hplan, hd, g, hget, hidx, hoff⟩
  | @pruned c k todo hpc _ =>
    have hhere := h.here
    have hplan := h.plan
    rw [hpc] at hhere hplan
    obtain ⟨g, hclosed, hget⟩ := hhere
    refine ⟨h.files.erase k, h.side.mono fun p hp => hp.erase ?_ ?_, hplan.erase [],
      trivial⟩
    · intro g' hopen hg'
      rw [hget] at hg'
      rw [closed_eq_of_bytes (some.inj hg'), hopen] at hclosed
      cases hclosed
    · intro hnil
      rw [hget] at hnil
      exact absurd (some.inj hnil) g.bytes_ne_nil

lemma Shape.step (h : Shape s) (hord : Ordered s) {a : Action} (ha : a.behaves = true)
    (hstep : step P s a = some s') : Shape s' := by
  cases step_cases hstep with
  | start =>
    exact ⟨h.files, h.side, ⟨by simpa [Pc.plan] using s.disk.sorted_keys, by simp [Pc.plan]⟩, trivial⟩
  | importer himp => exact h.imported hord himp
  | fail | kill => exact h.of_disk rfl rfl rfl (nil_sublist _) trivial
  | op hw => exact h.op hord hw
  | writer hcall =>
    refine ⟨h.files, ?_, h.plan, h.here⟩
    have hside := h.side
    cases hcall with
    | listed | unreadable | stop => trivial
    | @issued create now cfg found idx =>
      obtain ⟨q, hexec, hnext⟩ := Writer.openWriter_exec cfg idx ha now
      exact ⟨.none, q, trivial, hexec, hnext⟩
    | @append t env w hw =>
      rw [hw] at hside
      exact ⟨w.phase, _, hside, w.append_exec ha env, fun w' hw' => by rw [some.inj hw']⟩
    | @close t w hw =>
      rw [hw] at hside
      exact ⟨w.phase, _, hside, w.close_exec ha, fun w' hw' => by rw [some.inj hw']⟩
    | @ret next ack hw =>
      rw [hw] at hside
      obtain ⟨p, q, hp, hexec, hnext⟩ := hside
      cases hexec
      cases next with
      | none => trivial
      | some w =>
        have hphase := hnext w rfl
        subst hphase
        exact hp

end Observatory.Spool
