/-
# Creating under a key is idempotent

What a caller learns about its key stays so, since the registry only grows; so all callers that
learn something of one key learn the same. The argument is over every interleaving of the
programs of `Store/Creation.lean`: a protocol for the calls of a create records what its caller
knows, and the registry is shown to bear it out.
-/
import Observatory.Store.Creation

namespace Observatory.Store.Registry

open Lib List Function

variable {r r' : Registry} {q : Create} {e : Env}

/-! ## What a caller knows -/

/-- What a caller has learnt about its key. -/
inductive Known where
  | fresh
  /-- The readers found nothing. -/
  | missed
  | found (ref : Ref) (hash : Bytes)
  | knows (out : Outcome)

namespace Known

def Holds (r : Registry) (k : Key) (hash : Bytes) : Known → Prop
  | fresh | missed => True
  | found ref h => r.find k = some (ref, h)
  | knows out => ∃ ref, r.find k = some (ref, hash) ∧ r.read ref = .ok out

def after (g : Known) : (c : Call) → c.Reply → Known
  | .find _, .ok none => missed
  | .find _, .ok (some (ref, hash)) => found ref hash
  | .read _, .ok out => knows out
  | .create q, .ok (.replay ref) => found ref q.requestHash
  | .create _, .ok (.done out) => knows out
  | _, _ => g

def Answers (hash : Bytes) : Known → Except StoreError Outcome → Prop
  | fresh, out => out = .error .database
  | missed, out => ∃ err, out = .error err
  | found _ h, out => out = .error .database ∨ (h ≠ hash ∧ out = .error .idempotencyConflict)
  | knows o, out => out = .ok o ∨ out = .error .database

lemma Holds.mono {g : Known} {k : Key} {hash : Bytes} (h : g.Holds r k hash) (hr : r.Wf)
    (hgrown : Grown r r') : g.Holds r' k hash := by
  cases g with
  | fresh | missed => trivial
  | found ref h' => exact hgrown.find h
  | knows out =>
    obtain ⟨ref, hfind, hread⟩ := h
    exact ⟨ref, hgrown.find hfind, hgrown.read hr hread⟩

end Known

def Create.permits (q : Create) (g : Known) : Call → Prop
  | .find k => q.key = some k ∧ g = .fresh
  | .read ref => g = .found ref q.requestHash
  | .create q' => q' = q
  | .answer q' out => q' = q ∧ (q.key ≠ none → g.Answers q.requestHash out)
  | .transition .. => False

/-- The replies a create can count on: readers fail with the database only, and a request whose
outcome is known is not decided again. -/
def Known.Relies (g : Known) : (c : Call) → c.Reply → Prop
  | .find _, .error err => err = .database
  | .read _, .error err => err = .database
  | .create _, reply => ∀ out, g = .knows out →
      reply = .error .database ∨ ∃ ref, reply = .ok (.replay ref)
  | _, _ => True

def Job.keyed : Job → Prop
  | create q => q.key ≠ none
  | transition .. => False

def keyed (j : Job) : Protocol Call Call.Reply Known where
  guarantee g c :=
    match j with
    | .create q => q.permits g c
    | .transition .. => ∃ inp reason operationID, c = .transition inp reason operationID
  rely g c reply := j.keyed → g.Relies c reply
  next g c reply := g.after c reply

/-! ## The programs keep to it -/

section wp

variable {α : Type} {g : Known} {Φ : Known → α → Prop}

lemma wp_perform {c : Call} {k : c.Reply → M α} {j : Job} :
    (perform c >>= k).wp (keyed j) g Φ ↔ (keyed j).guarantee g c ∧
      ∀ reply, (j.keyed → g.Relies c reply) → (k reply).wp (keyed j) (g.after c reply) Φ := by
  rw [Prog.wp_bind]
  exact Iff.rfl

lemma wp_read {ref : Ref} :
    (perform (.read ref)).wp (keyed (.create q)) (.found ref q.requestHash) fun g' out =>
      q.key ≠ none → g'.Answers q.requestHash out := by
  refine ⟨rfl, fun reply hreply hkey => ?_⟩
  rcases reply with err | out
  · exact .inl (congrArg Except.error (hreply hkey))
  · exact .inl rfl

lemma wp_writer (hg : q.key ≠ none → g = .missed ∨ ∃ out, g = .knows out) :
    (writer q).wp (keyed (.create q)) g fun g' out =>
      q.key ≠ none → g'.Answers q.requestHash out := by
  refine wp_perform.2 ⟨rfl, fun reply hreply => ?_⟩
  rcases reply with err | (ref | out)
  · intro hkey
    rcases hg hkey with rfl | ⟨out, rfl⟩
    · exact ⟨err, rfl⟩
    · rcases hreply hkey out rfl with hfault | ⟨ref, hreplay⟩
      · exact .inr (congrArg Except.error (Except.error.inj hfault))
      · cases hreplay
  · exact wp_read
  · intro hkey
    rcases hg hkey with rfl | ⟨out', rfl⟩
    · exact .inl rfl
    · rcases hreply hkey out' rfl with hfault | ⟨ref, hreplay⟩
      · cases hfault
      · cases hreplay

lemma wp_create : (create q).wp (keyed (.create q)) .fresh fun g' out =>
    q.key ≠ none → g'.Answers q.requestHash out := by
  unfold create
  split
  · rename_i hkey
    exact wp_writer fun h => absurd hkey h
  · rename_i k hkey
    refine wp_perform.2 ⟨⟨hkey, rfl⟩, fun reply hreply => ?_⟩
    rcases reply with err | (- | ⟨ref, hash⟩)
    · exact fun hkey => congrArg Except.error (hreply hkey)
    · exact wp_writer fun _ => .inl rfl
    · refine (Prog.wp_ite _ _ _).2 ⟨fun hne _ => .inr ⟨hne, rfl⟩, fun heq => ?_⟩
      obtain rfl : hash = q.requestHash := not_not.1 heq
      refine wp_perform.2 ⟨rfl, fun reply hreply => ?_⟩
      rcases reply with err | out
      · exact fun hkey => .inl (congrArg Except.error (hreply hkey))
      · refine (Prog.wp_ite _ _ _).2 ⟨fun _ => wp_writer fun _ => .inr ⟨out, rfl⟩, fun _ _ => ?_⟩
        exact .inl rfl

lemma submit_eq (q : Create) : submit q = create q >>= fun out => perform (.answer q out) := by
  cases q <;> rfl

lemma follows (j : Job) : j.prog.wp (keyed j) .fresh fun _ _ => True := by
  cases j with
  | create q =>
    show (submit q).wp _ _ _
    rw [submit_eq, Prog.wp_bind]
    refine Prog.wp_mono (fun g out h => ?_) wp_create
    exact ⟨⟨rfl, h⟩, fun _ _ => trivial⟩
  | transition inp reason operationID =>
    exact wp_perform.2 ⟨⟨inp, reason, operationID, rfl⟩, fun _ _ => trivial⟩

end wp

def callerDiscipline : Discipline callers Known where
  protocol := keyed
  init _ := .fresh
  idle := .fresh
  done _ := True
  jobs _ := True
  done_idle := trivial
  follows j _ := follows j

/-! ## One call of a create -/

variable {hash : Bytes} {s : CallerPool} {k : Key} {g : Known} {as : List (Move Env Job)} {i : Nat}
  {o : Outcome} {α : Type} {a : α}

lemma readers_error {x : Except StoreError α} {err : StoreError} (hx : x = .ok a)
    (h : readers e x = .error err) : err = .database := by
  subst hx
  simp only [readers] at h
  split_ifs at h
  exact (Except.error.inj h).symm

lemma readers_ok {x : Except StoreError α} (h : readers e x = .ok a) :
    x = .ok a := by
  simp only [readers] at h
  split_ifs at h
  exact h

lemma transact_ok {fault : Bool} {tx : Except StoreError (α × Registry)}
    (h : r.transact fault tx = (.ok a, r')) : tx = .ok (a, r') := by
  simp only [transact] at h
  split_ifs at h
  · have hfst := congrArg Prod.fst h
    cases hfst
  · cases htx : tx with
    | error err => simp [htx] at h
    | ok p =>
      obtain ⟨a', r₁⟩ := p
      simp only [htx, Prod.mk.injEq, Except.ok.injEq] at h
      rw [h.1, h.2]

/-- A call of a create under a key, made with what it knows: the reply is as it counts on, and what
it knows afterwards is so. -/
lemma call_effect {c : Call} {reply : c.Reply} (hr : r.Sound) (hkey : q.key = some k)
    (hg : g.Holds r k q.requestHash) (hpermits : q.permits g c) (hexec : c.exec r e = (r', reply)) :
    g.Relies c reply ∧ (g.after c reply).Holds r' k q.requestHash := by
  have heffect := exec_effect hr e c
  rw [hexec] at heffect
  have hkeep := hg.mono hr.wf heffect.2
  cases c with
  | find k' =>
    obtain ⟨hk', rfl⟩ := hpermits
    obtain rfl : k = k' := Option.some.inj (hkey.symm.trans hk')
    obtain ⟨rfl, hreply⟩ := Prod.mk.inj hexec
    rcases reply with err | (- | ⟨ref, hash⟩)
    · exact ⟨readers_error rfl hreply, trivial⟩
    · exact ⟨trivial, trivial⟩
    · exact ⟨trivial, Except.ok.inj (readers_ok hreply)⟩
  | read ref =>
    obtain rfl : g = .found ref q.requestHash := hpermits
    obtain ⟨rfl, hreply⟩ := Prod.mk.inj hexec
    rcases reply with err | out
    · obtain ⟨out, hout⟩ := hr.readable hg
      exact ⟨readers_error hout hreply, hg⟩
    · exact ⟨trivial, ref, hg, readers_ok hreply⟩
  | create q' =>
    obtain rfl : q' = q := hpermits
    have htx : r.transact e.fault (q'.tx r e) = (reply, r') :=
      Prod.ext (congrArg Prod.snd hexec) (congrArg Prod.fst hexec)
    constructor
    · rintro out rfl
      obtain ⟨ref, hfind, -⟩ := hg
      rw [tx_of_taken hkey hfind, transact] at htx
      split_ifs at htx
      · exact .inl (congrArg Prod.fst htx).symm
      · exact .inr ⟨ref, (congrArg Prod.fst htx).symm⟩
    · rcases reply with err | (ref | out)
      · exact hkeep
      · exact (txEffect hr (transact_ok htx)).settles k hkey
      · exact (txEffect hr (transact_ok htx)).settles k hkey
  | answer q' out => exact ⟨trivial, hkeep⟩
  | transition => exact hpermits.elim

/-! ## All interleavings -/

abbrev CallerPool := Pool Call Call.Reply Registry Job

/-- The call a trace records, and the thread that made it. -/
def Answered (s : CallerPool) (i : Nat) (q : Create) (out : Except StoreError Outcome) : Prop :=
  (i, ⟨.answer q out, ()⟩) ∈ s.trace

def Under (r : Registry) (k : Key) (hash : Bytes) (out : Outcome) : Prop :=
  ∃ ref, r.find k = some (ref, hash) ∧ r.read ref = .ok out

lemma Under.mono {out : Outcome} (h : Under r k hash out) (hr : r.Wf) (hgrown : Grown r r') :
    Under r' k hash out := by
  obtain ⟨ref, hfind, hread⟩ := h
  exact ⟨ref, hgrown.find hfind, hgrown.read hr hread⟩

lemma Under.unique {hash' : Bytes} {out out' : Outcome} (h : Under r k hash out)
    (h' : Under r k hash' out') : hash = hash' ∧ out = out' := by
  obtain ⟨ref, hfind, hread⟩ := h
  obtain ⟨ref', hfind', hread'⟩ := h'
  obtain ⟨rfl, rfl⟩ := Prod.mk.inj (Option.some.inj (hfind.symm.trans hfind'))
  exact ⟨rfl, Except.ok.inj (hread.symm.trans hread')⟩

structure Inv (γ : Nat → Known) (s : CallerPool) : Prop where
  sound : s.world.Sound
  known : ∀ {i q p k}, s.threads[i]? = some (.create q, p) → q.key = some k →
    (γ i).Holds s.world k q.requestHash
  answered : ∀ {i q o k}, Answered s i q (.ok o) → q.key = some k →
    Under s.world k q.requestHash o
  trace : ∀ x ∈ s.trace, x.1 < s.threads.length

/-- The invariant with one more thread, which knows nothing yet. -/
lemma Inv.add {γ : Nat → Known} (h : Inv γ s) (j : Job) :
    Inv (update γ s.threads.length .fresh) (callers.add s j) where
  sound := h.sound
  known hget hkey := by
    rcases System.add_thread hget with ⟨hne, hold⟩ | ⟨rfl, -, -⟩
    · rw [update_of_ne hne]
      exact h.known hold hkey
    · rw [update_self]
      trivial
  answered := h.answered
  trace x hx := by
    have hlt := h.trace x hx
    simp only [System.add, length_append]
    omega

lemma Inv.crashed {γ : Nat → Known} (h : Inv γ s) :
    Inv (fun _ => .fresh) (callers.crashed s) where
  sound := h.sound
  known _ _ := trivial
  answered := h.answered
  trace x hx := by
    have hlt := h.trace x hx
    rwa [System.crashed_length]

lemma knows_of_answers (h : g.Answers hash (.ok o)) :
    g = .knows o := by
  cases g with
  | fresh => cases h
  | missed =>
    obtain ⟨err, herr⟩ := h
    cases herr
  | found ref h' =>
    rcases h with h | ⟨-, h⟩
    · cases h
    · cases h
  | knows o' =>
    rcases h with h | h
    · rw [Except.ok.inj h]
    · cases h

lemma answer_of_guarantee {j : Job} {out : Except StoreError Outcome}
    (h : (keyed j).guarantee g (.answer q out)) :
    j = .create q ∧ (q.key ≠ none → g.Answers q.requestHash out) := by
  cases j with
  | create q' =>
    obtain ⟨rfl, hanswers⟩ := h
    exact ⟨rfl, hanswers⟩
  | transition =>
    obtain ⟨_, _, _, heq⟩ := h
    cases heq

section step

variable {γ : Nat → Known} {s : CallerPool} {i : Nat} {j : Job} {c : Call}
  {k : c.Reply → M Unit} {w : Registry} {reply : c.Reply}

lemma answered_called {i' : Nat} {out : Except StoreError Outcome}
    (h : Answered (s.called i j c k w reply) i' q out) :
    Answered s i' q out ∨ (i' = i ∧ c = .answer q out) := by
  rcases mem_append.1 h with h | h
  · exact .inl h
  · have heq := mem_singleton.1 h
    obtain ⟨hi, hcall⟩ := Prod.mk.inj heq
    exact .inr ⟨hi, (congrArg Sigma.fst hcall).symm⟩

lemma Inv.step (h : Inv γ s) (hthread : s.threads[i]? = some (j, .call c k))
    (hguarantee : (keyed j).guarantee (γ i) c) (hexec : c.exec s.world e = (w, reply)) :
    (j.keyed → (γ i).Relies c reply) ∧
      Inv (update γ i ((γ i).after c reply)) (s.called i j c k w reply) := by
  have heffect := exec_effect h.sound e c
  rw [hexec] at heffect
  refine ⟨fun hkeyed => ?_, heffect.1, fun hget hkey => ?_, fun hanswered hkey => ?_, ?_⟩
  · cases j with
    | create q =>
      obtain ⟨key, hkey⟩ := Option.ne_none_iff_exists'.1 hkeyed
      exact (call_effect h.sound hkey (h.known hthread hkey) hguarantee hexec).1
    | transition => exact hkeyed.elim
  · rcases Pool.called_thread hthread hget with ⟨hne, hold⟩ | ⟨rfl, rfl, -⟩
    · rw [update_of_ne hne]
      exact (h.known hold hkey).mono h.sound.wf heffect.2
    · rw [update_self]
      exact (call_effect h.sound hkey (h.known hthread hkey) hguarantee hexec).2
  · rcases answered_called hanswered with hold | ⟨rfl, rfl⟩
    · exact (h.answered hold hkey).mono h.sound.wf heffect.2
    · obtain ⟨rfl, hanswers⟩ := answer_of_guarantee hguarantee
      have hknows := knows_of_answers (hanswers (by simp [hkey]))
      have hholds := h.known hthread hkey
      rw [hknows] at hholds
      exact Under.mono hholds h.sound.wf heffect.2
  · intro x hx
    rw [Pool.called_length]
    rcases mem_append.1 hx with hx | hx
    · exact h.trace x hx
    · rw [mem_singleton.1 hx]
      exact (List.getElem?_eq_some_iff.1 hthread).1

end step

/-- The answers to a request of the hash `mine` under a key that was settled for a request of the
hash `hash`: what was returned then, or a conflict. -/
def Resolved (hash : Bytes) (o : Outcome) (mine : Bytes) (out : Except StoreError Outcome) : Prop :=
  out = .error .database ∨ (mine = hash ∧ out = .ok o) ∨
    (mine ≠ hash ∧ out = .error .idempotencyConflict)

/-- The answers of the threads from `n` on, to requests whose key was settled before they
started. -/
structure Repeats (n : Nat) (k : Key) (hash : Bytes) (o : Outcome) (γ : Nat → Known)
    (s : CallerPool) : Prop where
  under : Under s.world k hash o
  known : ∀ {i q p}, n ≤ i → s.threads[i]? = some (.create q, p) → q.key = some k → γ i ≠ .missed
  answered : ∀ {i q out}, n ≤ i → Answered s i q out → q.key = some k →
    Resolved hash o q.requestHash out

namespace Repeats

variable {n : Nat} {key : Key} {hash : Bytes} {o : Outcome} {γ : Nat → Known} {s : CallerPool}

lemma add (h : Repeats n key hash o γ s) (j : Job) :
    Repeats n key hash o (update γ s.threads.length .fresh) (callers.add s j) where
  under := h.under
  known hle hget hkey := by
    rcases System.add_thread hget with ⟨hne, hold⟩ | ⟨rfl, -, -⟩
    · rw [update_of_ne hne]
      exact h.known hle hold hkey
    · rw [update_self]
      exact nofun
  answered := h.answered

lemma crashed (h : Repeats n key hash o γ s) :
    Repeats n key hash o (fun _ => .fresh) (callers.crashed s) where
  under := h.under
  known _ _ _ heq := nomatch heq
  answered := h.answered

lemma after_ne_missed {g : Known} {c : Call} {reply : c.Reply} (hunder : Under r key hash o)
    (hkey : q.key = some key) (hg : g ≠ .missed) (hpermits : q.permits g c)
    (hexec : c.exec r e = (r', reply)) : g.after c reply ≠ .missed := by
  obtain ⟨ref, hfind, -⟩ := hunder
  cases c with
  | find k =>
    obtain ⟨hk, rfl⟩ := hpermits
    obtain rfl : key = k := Option.some.inj (hkey.symm.trans hk)
    obtain ⟨-, hreply⟩ := Prod.mk.inj hexec
    rcases reply with err | (- | x)
    · exact hg
    · have hnone := Except.ok.inj (readers_ok hreply)
      rw [hfind] at hnone
      cases hnone
    · exact nofun
  | read ref =>
    rcases reply with err | out
    · exact hg
    · exact nofun
  | create q' =>
    rcases reply with err | (ref | out)
    · exact hg
    · exact nofun
    · exact nofun
  | answer | transition => exact hg

lemma answers {g : Known} {mine : Bytes} {out : Except StoreError Outcome}
    (hunder : Under r key hash o) (hholds : g.Holds r key mine) (hg : g ≠ .missed)
    (h : g.Answers mine out) : Resolved hash o mine out := by
  cases g with
  | fresh => exact .inl h
  | missed => exact absurd rfl hg
  | found ref h' =>
    rcases h with h | ⟨hne, h⟩
    · exact .inl h
    · obtain ⟨ref', hfind, -⟩ := hunder
      have heq := Option.some.inj (hfind.symm.trans hholds)
      obtain rfl : hash = h' := congrArg Prod.snd heq
      exact .inr (.inr ⟨hne.symm, h⟩)
  | knows o' =>
    obtain ⟨rfl, rfl⟩ := hunder.unique hholds
    rcases h with h | h
    · exact .inr (.inl ⟨rfl, h⟩)
    · exact .inl h

lemma step {i : Nat} {j : Job} {c : Call} {k : c.Reply → M Unit} {w : Registry} {reply : c.Reply}
    (h : Repeats n key hash o γ s) (hinv : Inv γ s) (hthread : s.threads[i]? = some (j, .call c k))
    (hguarantee : (keyed j).guarantee (γ i) c) (hexec : c.exec s.world e = (w, reply)) :
    Repeats n key hash o (update γ i ((γ i).after c reply)) (s.called i j c k w reply) := by
  have heffect := exec_effect hinv.sound e c
  rw [hexec] at heffect
  refine ⟨h.under.mono hinv.sound.wf heffect.2, fun hle hget hkey => ?_,
    fun hle hanswered hkey => ?_⟩
  · rcases Pool.called_thread hthread hget with ⟨hne, hold⟩ | ⟨rfl, rfl, -⟩
    · rw [update_of_ne hne]
      exact h.known hle hold hkey
    · rw [update_self]
      exact after_ne_missed h.under hkey (h.known hle hthread hkey) hguarantee hexec
  · rcases answered_called hanswered with hold | ⟨rfl, rfl⟩
    · exact h.answered hle hold hkey
    · obtain ⟨rfl, hanswers⟩ := answer_of_guarantee hguarantee
      exact answers h.under (hinv.known hthread hkey) (h.known hle hthread hkey)
        (hanswers (by simp [hkey]))

end Repeats

lemma inv_keeps : callerDiscipline.Keeps (fun _ _ => True) Inv where
  start {γ s j} _ h _ _ := ⟨trivial, h.add j⟩
  crash {γ s j} h _ _ := by
    have hadd := h.crashed.add j
    rw [System.crashed_length] at hadd
    exact ⟨trivial, hadd⟩
  step {γ s i e j c k w r} _ h _ hthread hguarantee hexec := by
    obtain ⟨hrely, hinv⟩ := h.step hthread hguarantee (Option.some.inj hexec)
    exact ⟨hrely, hinv, fun _ hspawn => nomatch hspawn⟩

lemma repeats_keeps (n : Nat) (k : Key) (hash : Bytes) (o : Outcome) :
    callerDiscipline.Keeps (fun _ _ => True) fun γ s => Inv γ s ∧ Repeats n k hash o γ s where
  start {γ s j} _ h _ _ := ⟨trivial, h.1.add j, h.2.add j⟩
  crash {γ s j} h _ _ := by
    have hadd := h.1.crashed.add j
    have hrep := h.2.crashed.add j
    rw [System.crashed_length] at hadd hrep
    exact ⟨trivial, hadd, hrep⟩
  step {γ s i e j c k w r} _ h _ hthread hguarantee hexec := by
    obtain ⟨hrely, hinv⟩ := h.1.step hthread hguarantee (Option.some.inj hexec)
    have hrep := h.2.step h.1 hthread hguarantee (Option.some.inj hexec)
    exact ⟨hrely, ⟨hinv, hrep⟩, fun _ hspawn => nomatch hspawn⟩

def rowsUnder (r : Registry) : Key → List Ref
  | .vm owner key => (r.operations.filter fun op => op.key = some (owner, .vmCreate, key)).map
      fun op => .operation op.operationID
  | .batch owner key => (r.batches.filter fun b => b.key = some (owner, key)).map
      fun b => .batch b.batchID
  | .run owner key => (r.runs.filter fun row => row.key = some (owner, key)).map
      fun row => .run row.runID

lemma Wf.rowsUnder_le_one (hr : r.Wf) (k : Key) : (r.rowsUnder k).length ≤ 1 := by
  cases k with
  | vm owner key =>
    rw [rowsUnder, length_map]
    exact Table.length_filter_le_one hr.operationKeys (owner, .vmCreate, key)
  | batch owner key =>
    rw [rowsUnder, length_map]
    exact Table.length_filter_le_one hr.batchKeys (owner, key)
  | run owner key =>
    rw [rowsUnder, length_map]
    exact Table.length_filter_le_one hr.runKeys (owner, key)

lemma run_inv (hrun : run callers.step (Pool.quiet Registry.empty) as = some s) :
    ∃ γ, callerDiscipline.Coupled γ s ∧ Inv γ s := by
  have hempty : Inv (fun _ => .fresh) (Pool.quiet Registry.empty) :=
    ⟨sound_empty, fun _ _ => trivial, fun h => (nomatch h), fun _ h => (nomatch h)⟩
  exact inv_keeps.run_coupled ⟨_, Discipline.coupled_quiet Registry.empty, hempty⟩
    (along_of_forall (fun _ _ => trivial) _ _) hrun

/-- Two calls under one key that both return something were made for one request, and return the
same. -/
lemma answers_agree (hrun : run callers.step (Pool.quiet Registry.empty) as = some s) {i' : Nat}
    {q' : Create} {o' : Outcome} (hanswer : Answered s i q (.ok o))
    (hanswer' : Answered s i' q' (.ok o')) (hkey : q.key = some k) (hkey' : q'.key = some k) :
    q.requestHash = q'.requestHash ∧ o = o' := by
  obtain ⟨γ, -, hinv⟩ := run_inv hrun
  exact (hinv.answered hanswer hkey).unique (hinv.answered hanswer' hkey')

/-- Once a call under a key has returned something, it decides the calls that start later. -/
lemma answers_later {bs : List (Move Env Job)} {s' : CallerPool}
    (hrun : run callers.step (Pool.quiet Registry.empty) as = some s)
    (hrun' : run callers.step s bs = some s') {i' : Nat} {q' : Create}
    {out : Except StoreError Outcome} (hanswer : Answered s i q (.ok o)) (hkey : q.key = some k)
    (hle : s.threads.length ≤ i') (hanswer' : Answered s' i' q' out) (hkey' : q'.key = some k) :
    Resolved q.requestHash o q'.requestHash out := by
  obtain ⟨γ, hcoupled, hinv⟩ := run_inv hrun
  -- nobody has started from here on, so that the repeats are all still to come
  have hrepeats : Repeats s.threads.length k q.requestHash o γ s := by
    refine ⟨hinv.answered hanswer hkey, fun hle hget _ => ?_, fun hle hold _ => ?_⟩
    · rw [List.getElem?_eq_none hle] at hget
      exact nomatch hget
    · exact absurd (hinv.trace _ hold) (Nat.not_lt.2 hle)
  obtain ⟨γ', -, -, hrepeats'⟩ := (repeats_keeps s.threads.length k q.requestHash o).run_coupled
    ⟨γ, hcoupled, hinv, hrepeats⟩ (along_of_forall (fun _ _ => trivial) _ _) hrun'
  exact hrepeats'.answered hle hanswer' hkey'

/-- **Creating under a key is idempotent.**  However the calls of any number of callers interleave,
whatever admission decides and wherever the database or the process fails: at most one resource
is created under a key; all calls that return one return the same, a refusal included; and once
a call has returned one, every later call for the same request returns it again, unless the
database fails. -/
theorem create_idempotent {as : List (Move Env Job)} {s : CallerPool}
    (hrun : run callers.step (Pool.quiet Registry.empty) as = some s) :
    (∀ k, (s.world.rowsUnder k).length ≤ 1) ∧
      (∀ i i' q q' o o' k, Answered s i q (.ok o) → Answered s i' q' (.ok o') →
        q.key = some k → q'.key = some k → o = o') ∧
      ∀ i q o k bs s', Answered s i q (.ok o) → q.key = some k → run callers.step s bs = some s' →
        ∀ i' q' out, s.threads.length ≤ i' → Answered s' i' q' out → q'.key = some k →
          q'.requestHash = q.requestHash → out = .ok o ∨ out = .error .database := by
  obtain ⟨γ, -, hinv⟩ := run_inv hrun
  refine ⟨hinv.sound.wf.rowsUnder_le_one, ?_, ?_⟩
  · intro i i' q q' o o' k hanswer hanswer' hkey hkey'
    exact (answers_agree hrun hanswer hanswer' hkey hkey').2
  · intro i q o k bs s' hanswer hkey hrun' i' q' out hle hanswer' hkey' hhash
    rcases answers_later hrun hrun' hanswer hkey hle hanswer' hkey' with h | ⟨-, h⟩ | ⟨hne, -⟩
    · exact .inr h
    · exact .inl h
    · exact absurd hhash hne

/-! ### A refusal that is returned again -/

def noRoom : AdmissionRefusal := ⟨ascii "insufficient_capacity", ascii "memory"⟩

def refusedOnce : List (Move Env Job) :=
  [Move.start (.create (.vm demoCreate)), .step 0 {},
    .step 0 { admission := fun _ => .refused noRoom }, .step 0 {}]

/-- The request is made again, at a time when it would be granted. -/
def askedAgain : List (Move Env Job) :=
  Move.start (.create (.vm demoCreate)) :: List.replicate 5 (.step 1 {})

def outcomes (s : CallerPool) : List (Nat × Create × Outcome) :=
  s.trace.filterMap fun
    | (i, ⟨.answer q (.ok o), _⟩) => some (i, q, o)
    | _ => none

lemma answered_of_mem_outcomes (h : (i, q, o) ∈ outcomes s) : Answered s i q (.ok o) := by
  obtain ⟨⟨i', c, reply⟩, hmem, hx⟩ := mem_filterMap.1 h
  rcases c with _ | _ | _ | _ | ⟨q', err | o'⟩ <;> simp only [reduceCtorEq, Option.some.injEq,
    Prod.mk.injEq] at hx
  obtain ⟨rfl, rfl, rfl⟩ := hx
  exact hmem

theorem create_idempotent_refusal : ∃ s s',
    run callers.step (Pool.quiet Registry.empty) refusedOnce = some s ∧
      run callers.step s askedAgain = some s' ∧
      Answered s 0 (.vm demoCreate) (.ok (.refused noRoom 1)) ∧
      ∃ out, Answered s' 1 (.vm demoCreate) out ∧
        (out = .ok (.refused noRoom 1) ∨ out = .error .database) := by
  obtain ⟨s, hrun, hlength, hfirst, s', hrun', hsecond⟩ : ∃ s,
      run callers.step (Pool.quiet Registry.empty) refusedOnce = some s ∧ s.threads.length = 1 ∧
      outcomes s = [(0, .vm demoCreate, .refused noRoom 1)] ∧
      ∃ s', run callers.step s askedAgain = some s' ∧ outcomes s' =
        [(0, .vm demoCreate, .refused noRoom 1), (1, .vm demoCreate, .refused noRoom 1)] := by
    decide +kernel
  have hanswer : Answered s 0 (.vm demoCreate) (.ok (.refused noRoom 1)) :=
    answered_of_mem_outcomes (by simp [hfirst])
  have hanswer' : Answered s' 1 (.vm demoCreate) (.ok (.refused noRoom 1)) :=
    answered_of_mem_outcomes (by simp [hsecond])
  exact ⟨s, s', hrun, hrun', hanswer, _, hanswer',
    (create_idempotent hrun).2.2 0 _ _ _ _ s' hanswer rfl hrun' 1 _ _ (by simp [hlength]) hanswer'
      rfl rfl⟩

end Observatory.Store.Registry
