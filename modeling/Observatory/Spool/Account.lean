/-
# The account of refused appends

A writer that is called again and again, with any pattern of failures, next to two records of
what happened: the outcome of each append in the order of the calls, and the frames that became
durable in the order they did. The main result reads the first off the second.
-/
import Observatory.Spool.Writer

namespace Observatory.Spool

open Lib Events List

namespace Writer

/-! ## What one call does -/

/-- The ways an append can end, with the frames it made durable and the outage it leaves. -/
inductive AppendCase (w : Writer) (t : Faults) (env : Envelope) (r : AppendResult) : Prop where
  /-- rejected for its content, or after the close -/
  | rejected (hw : r.writer = w) (hf : r.frames = []) (he : r.err ≠ none)
      (hr : ∀ err, r.err ≠ some (.refused err))
  | accepted (hw : w.outage = none) (ho : r.writer.outage = none) (hf : r.frames = [.record env])
      (he : r.err = none)
  /-- accepted after the loss frame of the open outage -/
  | recovered (o : Outage) (hw : w.outage = some o) (ho : r.writer.outage = none)
      (hf : r.frames = [.loss { o with untilAt := t.lossAt }, .record env]) (he : r.err = none)
  /-- refused, and nothing became durable -/
  | refused (err : Bytes) (ho : r.writer.outage = (w.refuse t env err).outage)
      (hf : r.frames = []) (he : r.err = some (.refused err))
  /-- refused after the loss frame of the open outage became durable -/
  | refusedAfterLoss (o : Outage) (err : Bytes) (hw : w.outage = some o)
      (ho : r.writer.outage = ({ w with outage := none }.refuse t env err).outage)
      (hf : r.frames = [.loss { o with untilAt := t.lossAt }]) (he : r.err = some (.refused err))

lemma refuse_outage_congr {w w' : Writer} (h : w.outage = w'.outage) (t : Faults) (env : Envelope)
    (err : Bytes) : (w.refuse t env err).outage = (w'.refuse t env err).outage := by
  simp only [refuse, h]

/-- An append that stopped with an error before any frame was durable is a plain refusal. -/
lemma finish_refused {w : Writer} {t : Faults} {env : Envelope} {e : Effect} {err : Bytes}
    (he : e.err = some err) (hf : e.frames = []) (ho : e.writer.outage = w.outage) :
    AppendCase w t env (finish e t env) := by
  refine .refused err ?_ ?_ ?_
  · simp only [finish, he]
    exact refuse_outage_congr ho t env err
  · simp only [finish, he, hf]
  · simp only [finish, he]

lemma attempt_cases (w : Writer) (t : Faults) (env : Envelope) (rec : Bytes) :
    AppendCase w t env (finish (w.attempt t env rec) t env) := by
  unfold attempt
  split
  · exact finish_refused rfl rfl rfl
  split
  · exact finish_refused rfl rfl rfl
  split
  · exact finish_refused rfl rfl rfl
  next loss hloss =>
  obtain ⟨hnone, hsome⟩ := w.writePending_spec t loss rec.length
  -- the record's own frame, written after the pending loss
  have hrec := writeFrame_spec (w.writePending t loss rec.length).writer rec (ascii "record")
    (.record env) t.record t.trimmed
  cases herr : (w.writePending t loss rec.length).err with
  | some err =>
    have hstop : (w.writePending t loss rec.length).andThen (fun w =>
        w.writeFrame rec (ascii "record") (.record env) t.record t.trimmed) =
        w.writePending t loss rec.length := by
      simp only [Effect.andThen, herr]
    rw [hstop]
    rcases pendingLoss_ok hloss with ⟨rfl, -⟩ | ⟨o, frame, -, rfl⟩
    · exact finish_refused herr (hnone rfl).1 (hnone rfl).2
    · rcases hsome _ _ rfl with ⟨h, -⟩ | ⟨-, hf, ho⟩
      · rw [herr] at h
        cases h
      · exact finish_refused herr hf ho
  | none =>
    generalize hw1 : (w.writePending t loss rec.length).writer = w1 at hrec hnone hsome
    generalize hfs : (w.writePending t loss rec.length).frames = fs at hnone hsome
    have hthen : (w.writePending t loss rec.length).andThen (fun w =>
        w.writeFrame rec (ascii "record") (.record env) t.record t.trimmed) =
        ⟨(w1.writeFrame rec (ascii "record") (.record env) t.record t.trimmed).writer,
          (w.writePending t loss rec.length).ops ++
            (w1.writeFrame rec (ascii "record") (.record env) t.record t.trimmed).ops,
          fs ++ (w1.writeFrame rec (ascii "record") (.record env) t.record t.trimmed).frames,
          (w1.writeFrame rec (ascii "record") (.record env) t.record t.trimmed).err⟩ := by
      simp only [Effect.andThen, herr, hw1, hfs]
    rw [hthen]
    rcases pendingLoss_ok hloss with ⟨rfl, hout⟩ | ⟨o, frame, hout, rfl⟩
    · -- no outage was open
      obtain ⟨rfl, ho⟩ := hnone rfl
      rcases hrec with ⟨hro, ⟨he, hf⟩ | ⟨he, hf⟩⟩
      · refine .accepted hout ?_ ?_ ?_ <;> simp only [finish, he]
        · rw [hro, ho, hout]
        · rw [hf, nil_append]
      · obtain ⟨err, he⟩ := Option.ne_none_iff_exists'.1 he
        exact finish_refused he (by simp only [hf, append_nil]) (by rw [hro, ho])
    · -- the loss frame is durable
      rcases hsome _ _ rfl with ⟨-, rfl, ho⟩ | ⟨h, -⟩
      · rcases hrec with ⟨hro, ⟨he, hf⟩ | ⟨he, hf⟩⟩
        · refine .recovered o hout ?_ ?_ ?_ <;> simp only [finish, he]
          · rw [hro, ho]
          · rw [hf]
            rfl
        · obtain ⟨err, he⟩ := Option.ne_none_iff_exists'.1 he
          refine .refusedAfterLoss o err hout ?_ ?_ ?_ <;> simp only [finish, he]
          · exact refuse_outage_congr (by rw [hro, ho]) t env err
          · rw [hf, append_nil]
      · rw [herr] at h
        exact absurd rfl h

lemma append_cases (w : Writer) (t : Faults) (env : Envelope) :
    AppendCase w t env (w.append t env) := by
  unfold append
  split
  · exact .rejected rfl rfl (by simp) (by simp)
  split
  · exact .rejected rfl rfl (by simp) (by simp)
  split
  · exact .rejected rfl rfl (by simp) (by simp)
  · exact w.attempt_cases t env _

/-- A close makes the loss frame of the open outage durable and closes the outage, or leaves
both as they are. -/
lemma close_cases (w : Writer) (t : Faults) :
    (w.close t).frames = [] ∧ (w.close t).writer.outage = w.outage ∨
      ∃ o, w.outage = some o ∧ (w.close t).frames = [.loss { o with untilAt := t.lossAt }] ∧
        (w.close t).writer.outage = none := by
  unfold close
  split
  · exact .inl ⟨rfl, rfl⟩
  dsimp only
  split
  · unfold recordOutage
    split
    · exact .inl ⟨rfl, rfl⟩
    next loss hloss =>
    obtain ⟨hnone, hsome⟩ := writePending_spec { w with closed := true } t loss 0
    rcases pendingLoss_ok hloss with ⟨rfl, -⟩ | ⟨o, frame, hout, rfl⟩
    · exact .inl (hnone rfl)
    · rcases hsome _ _ rfl with ⟨-, hf, ho⟩ | ⟨-, hf, ho⟩
      · exact .inr ⟨o, hout, hf, ho⟩
      · exact .inl ⟨hf, ho⟩
  · exact .inl ⟨rfl, rfl⟩

end Writer

/-! ## Counting -/

def isGuest (env : Envelope) : Bool := env.provenance = .guestReported

def Counts (o : Outage) (refused : List Envelope) : Prop :=
  o.guestPushesRefused = (refused.filter isGuest).length ∧
    o.runnerRecordsRefused = (refused.filter fun e => !isGuest e).length

lemma saturate_of_lt {n : Nat} (h : n < maxUint64) : saturate n = n + 1 := if_pos h

lemma counts_count {o : Outage} {refused : List Envelope} (h : Counts o refused) (env : Envelope)
    (hlt : refused.length < maxUint64) : Counts (o.count env) (refused ++ [env]) := by
  have hg := length_filter_le isGuest refused
  have hr := length_filter_le (fun e => !isGuest e) refused
  obtain ⟨h1, h2⟩ := h
  unfold Outage.count
  split
  · next hp =>
    have hguest : isGuest env = true := by simpa [isGuest] using hp
    refine ⟨?_, ?_⟩
    · simp only [filter_append, length_append, h1]
      rw [saturate_of_lt (by omega)]
      simp [hguest]
    · simpa [filter_append, hguest] using h2
  · next hp =>
    have hguest : isGuest env = false := by simpa [isGuest] using hp
    refine ⟨?_, ?_⟩
    · simpa [filter_append, hguest] using h1
    · simp only [filter_append, length_append, h2]
      rw [saturate_of_lt (by omega)]
      simp [hguest]

lemma counts_refuse_none {w : Writer} (h : w.outage = none) (t : Faults) (env : Envelope)
    (err : Bytes) : ∃ o, (w.refuse t env err).outage = some o ∧ Counts o [env] := by
  refine ⟨_, rfl, ?_⟩
  rw [h]
  have h0 : Counts ⟨t.refusedAt, ⟨0, 0, Instant.zero_nsec_lt⟩, boundRunes err maxCauseRunes, 0, 0⟩ [] :=
    ⟨rfl, rfl⟩
  exact counts_count h0 env (by decide)

lemma counts_refuse_some {w : Writer} {o : Outage} {refused : List Envelope}
    (h : w.outage = some o) (hc : Counts o refused) (hlt : refused.length < maxUint64) (t : Faults)
    (env : Envelope) (err : Bytes) :
    ∃ o', (w.refuse t env err).outage = some o' ∧ Counts o' (refused ++ [env]) := by
  refine ⟨_, rfl, ?_⟩
  rw [h]
  exact counts_count hc env hlt

/-! ## Runs -/

inductive Call where
  | append (t : Faults) (env : Envelope)
  | close (t : Faults)

/-- How an append ended: it returned nil, or it was refused. -/
inductive Outcome where
  | accepted (env : Envelope)
  | refused (env : Envelope)

def outcomeOf (env : Envelope) : Option Writer.AppendError → List Outcome
  | none => [.accepted env]
  | some (.refused _) => [.refused env]
  | some _ => []

/-- A writer, the outcomes of the appends so far and the frames made durable so far. -/
structure Account where
  writer : Writer
  outcomes : List Outcome
  frames : List Frame

namespace Account

def step (s : Account) : Call → Option Account
  | .append t env =>
    let r := s.writer.append t env
    some ⟨r.writer, s.outcomes ++ outcomeOf env r.err, s.frames ++ r.frames⟩
  | .close t =>
    let e := s.writer.close t
    some ⟨e.writer, s.outcomes, s.frames ++ e.frames⟩

/-- The refused envelopes, in order. -/
def refusals (outcomes : List Outcome) : List Envelope :=
  outcomes.filterMap fun
    | .accepted _ => none
    | .refused env => some env

end Account

/-- Records that were accepted, the refusals that followed, and the outage whose loss frame
counts those refusals. -/
structure Round where
  accepted : List Envelope
  refused : List Envelope
  outage : Outage

namespace Round

def outcomes (r : Round) : List Outcome := r.accepted.map .accepted ++ r.refused.map .refused

def frames (r : Round) : List Frame := r.accepted.map .record ++ [.loss r.outage]

end Round

/-- The account is exact. The outcomes fall into rounds of accepted records and refusals, then
records accepted and refusals not reported yet; the durable frames are, round by round, the
accepted records and one loss frame that counts the refusals of the round, then the records
accepted since; and the open outage counts the refusals not reported yet. -/
def Account.Exact (s : Account) : Prop :=
  ∃ (rounds : List Round) (accepted refused : List Envelope),
    s.outcomes = rounds.flatMap Round.outcomes ++
      (accepted.map .accepted ++ refused.map .refused) ∧
    s.frames = rounds.flatMap Round.frames ++ accepted.map .record ∧
    (∀ r ∈ rounds, r.refused ≠ [] ∧ Counts r.outage r.refused) ∧
    (s.writer.outage = none ↔ refused = []) ∧
    ∀ o, s.writer.outage = some o → Counts o refused

namespace Account

lemma refusals_append (as bs : List Outcome) : refusals (as ++ bs) = refusals as ++ refusals bs :=
  filterMap_append

lemma refusals_of_exact (rounds : List Round) (accepted refused : List Envelope) :
    refused.length ≤ (refusals (rounds.flatMap Round.outcomes ++
      (accepted.map Outcome.accepted ++ refused.map Outcome.refused))).length := by
  have h : refusals (refused.map Outcome.refused) = refused := by
    simp [refusals, filterMap_map]
  simp only [refusals_append, length_append, h]
  omega

lemma round_of_outage {rounds : List Round} {accepted refused : List Envelope} {o : Outage}
    {at' : Instant} (hr : ∀ r ∈ rounds, r.refused ≠ [] ∧ Counts r.outage r.refused)
    (hne : refused ≠ []) (hc : Counts o refused) :
    (∀ r ∈ rounds ++ [⟨accepted, refused, { o with untilAt := at' }⟩],
      r.refused ≠ [] ∧ Counts r.outage r.refused) := by
  intro r hmem
  rcases mem_append.1 hmem with h | h
  · exact hr r h
  · obtain rfl := mem_singleton.1 h
    exact ⟨hne, hc⟩

lemma exact_append {s : Account} {t : Faults} {env : Envelope} (h : s.Exact)
    (hlt : (refusals (s.outcomes ++ outcomeOf env (s.writer.append t env).err)).length < 2 ^ 64) :
    Exact ⟨(s.writer.append t env).writer,
      s.outcomes ++ outcomeOf env (s.writer.append t env).err,
      s.frames ++ (s.writer.append t env).frames⟩ := by
  obtain ⟨rounds, accepted, refused, hout, hfr, hr, hnone, hc⟩ := h
  -- every refusal so far, and one more, fits the counters
  have hroom : ∀ err, (s.writer.append t env).err = some (.refused err) →
      refused.length < maxUint64 := by
    intro err he
    rw [he, refusals_append, length_append, hout] at hlt
    have h1 := refusals_of_exact rounds accepted refused
    have h2 : (refusals (outcomeOf env (some (.refused err)))).length = 1 := rfl
    unfold maxUint64
    omega
  have hneOf : ∀ o, s.writer.outage = some o → refused ≠ [] := by
    intro o ho hnil
    rw [hnone.2 hnil] at ho
    cases ho
  cases s.writer.append_cases t env with
  | rejected hw hf he hrej =>
    have hoc : outcomeOf env (s.writer.append t env).err = [] := by
      cases hx : (s.writer.append t env).err with
      | none => exact absurd hx he
      | some x =>
        cases x with
        | refused err => exact absurd hx (hrej err)
        | _ => rfl
    rw [hw, hf, hoc, append_nil, append_nil]
    exact ⟨rounds, accepted, refused, hout, hfr, hr, hnone, hc⟩
  | accepted hw ho hf he =>
    have hnil : refused = [] := hnone.1 hw
    subst hnil
    refine ⟨rounds, accepted ++ [env], [], ?_, ?_, hr, ?_, ?_⟩
    · rw [hout, he]
      simp [outcomeOf]
    · rw [hfr, hf]
      simp
    · simp [ho]
    · simp [ho]
  | recovered o hw ho hf he =>
    refine ⟨rounds ++ [⟨accepted, refused, { o with untilAt := t.lossAt }⟩], [env], [], ?_, ?_,
      round_of_outage hr (hneOf o hw) (hc o hw), ?_, ?_⟩
    · rw [hout, he]
      simp [outcomeOf, Round.outcomes]
    · rw [hfr, hf]
      simp [Round.frames]
    · simp [ho]
    · simp [ho]
  | refused err ho hf he =>
    obtain ⟨o', ho', hc'⟩ : ∃ o', (s.writer.refuse t env err).outage = some o' ∧
        Counts o' (refused ++ [env]) := by
      cases hw : s.writer.outage with
      | none =>
        have hnil : refused = [] := hnone.1 hw
        subst hnil
        exact counts_refuse_none hw t env err
      | some o => exact counts_refuse_some hw (hc o hw) (hroom err he) t env err
    refine ⟨rounds, accepted, refused ++ [env], ?_, ?_, hr, ?_, ?_⟩
    · rw [hout, he]
      simp [outcomeOf]
    · rw [hfr, hf, append_nil]
    · simp [ho, ho']
    · intro o hs
      rw [ho, ho'] at hs
      obtain rfl : o' = o := by simpa using hs
      exact hc'
  | refusedAfterLoss o err hw ho hf he =>
    obtain ⟨o', ho', hc'⟩ := counts_refuse_none (w := { s.writer with outage := none }) rfl t env err
    refine ⟨rounds ++ [⟨accepted, refused, { o with untilAt := t.lossAt }⟩], [], [env], ?_, ?_,
      round_of_outage hr (hneOf o hw) (hc o hw), ?_, ?_⟩
    · rw [hout, he]
      simp [outcomeOf, Round.outcomes]
    · rw [hfr, hf]
      simp [Round.frames]
    · simp [ho, ho']
    · intro o'' hs
      rw [ho, ho'] at hs
      obtain rfl : o' = o'' := by simpa using hs
      exact hc'

lemma exact_close {s : Account} {t : Faults} (h : s.Exact) :
    Exact ⟨(s.writer.close t).writer, s.outcomes, s.frames ++ (s.writer.close t).frames⟩ := by
  obtain ⟨rounds, accepted, refused, hout, hfr, hr, hnone, hc⟩ := h
  rcases s.writer.close_cases t with ⟨hf, ho⟩ | ⟨o, hw, hf, ho⟩
  · refine ⟨rounds, accepted, refused, hout, ?_, hr, ?_, ?_⟩
    · rw [hf, append_nil, hfr]
    · rw [ho]
      exact hnone
    · rw [ho]
      exact hc
  · have hne : refused ≠ [] := by
      intro hnil
      rw [hnone.2 hnil] at hw
      cases hw
    refine ⟨rounds ++ [⟨accepted, refused, { o with untilAt := t.lossAt }⟩], [], [], ?_, ?_,
      round_of_outage hr hne (hc o hw), ?_, ?_⟩
    · rw [hout]
      simp [Round.outcomes]
    · rw [hfr, hf]
      simp [Round.frames]
    · simp [ho]
    · simp [ho]

lemma exact_step {s s' : Account} {c : Call}
    (h : (refusals s.outcomes).length < 2 ^ 64 → s.Exact) (hs : s.step c = some s') :
    (refusals s'.outcomes).length < 2 ^ 64 → s'.Exact := by
  intro hlt
  cases c with
  | append t env =>
    cases hs
    refine exact_append (h ?_) hlt
    rw [refusals_append, length_append] at hlt
    omega
  | close t =>
    cases hs
    exact exact_close (h hlt)

/-- **Outage accounting is exact.**  Whatever a new writer is called with and whatever fails,
while fewer than `2 ^ 64` appends were refused each refusal is counted once, in the loss frame
of its round or in the open outage, with guest pushes and runner records apart; and each loss
frame stands after the records accepted before the refusals it counts and before those accepted
after them. -/
theorem run_exact (cfg : WriterCfg) (idx : Nat) (o : CreateOutcome) (now : Instant) (w : Writer)
    (calls : List Call) (s : Account) (hopen : (Writer.openWriter cfg idx o now).1 = some w)
    (hrun : run step ⟨w, [], []⟩ calls = some s)
    (hlt : (refusals s.outcomes).length < 2 ^ 64) : s.Exact := by
  have hnone : w.outage = none := by
    unfold Writer.openWriter at hopen
    dsimp only at hopen
    split at hopen
    · cases hopen
    split at hopen
    · cases hopen
    · cases hopen
      exact (Writer.createSegment_spec _ o).2
  have hinit : Exact ⟨w, [], []⟩ := ⟨[], [], [], rfl, rfl, by simp, by simp [hnone], by simp [hnone]⟩
  exact run_invariant (I := fun s => (refusals s.outcomes).length < 2 ^ 64 → s.Exact)
    (fun _ _ _ hI _ hs => exact_step hI hs) (fun _ => hinit)
    (along_of_forall (fun _ _ => trivial) _ _) hrun hlt

/-- A guest push refused by a full spool, then a runner record that goes through. -/
def fullThenFree : List Call :=
  let env (p : Provenance) : Envelope := { Envelope.zero with provenance := p }
  let loss (o : Outage) : Option Envelope := some { Envelope.zero with data := some o.data }
  [.append (quiet defaultMaxSpoolBytes loss) (env .guestReported),
    .append (quiet 0 loss) (env .hostObserved), .close (quiet 0 loss)]

theorem run_exact_fullThenFree :
    ∃ w s, (Writer.openWriter ⟨[], [], 4096, 0⟩ 0 .ok ⟨0, 0, Instant.zero_nsec_lt⟩).1 = some w ∧
      run step ⟨w, [], []⟩ fullThenFree = some s ∧ (refusals s.outcomes).length = 1 ∧
      s.frames.length = 2 ∧ s.Exact := by
  exact ⟨_, _, yields (by decide +kernel), yields (by decide +kernel), by decide +kernel,
    by decide +kernel, run_exact _ _ _ _ _ _ _ (yields _) (yields _) (by decide +kernel)⟩

end Account

end Observatory.Spool
