/-
# Acknowledgements

An acknowledgement covers every sequence up to the one it names. What it covers is settled by
a record in the spool when each push comes above everything the guest still waits for, and when
the record of a refused kind can be appended: the runner does not look at that append, and it
takes every sequence below the highest one settled for a repetition.
-/
import Observatory.Runner.Telemetry

namespace Observatory.Runner

open Lib Events Guest Spool List Client

/-! ## The condition -/

/-- The sequence of a frame that can be read. -/
def pushed (data : Bytes) : Option (TelemetryPush × Nat) :=
  match decodeTelemetryPush data with
  | .error _ => none
  | .ok push => (parseUint push.seq).map fun n => (push, n)

/-- A sequence at or below the settled one is one that was pushed before. -/
def repeats (s : Client) (streamID : Bytes) (n : Nat) : Bool :=
  decide (s.spooled streamID < n) || s.offered.contains (streamID, n)

/-- Every lower sequence of the stream is settled. -/
def inOrder (s : Client) (streamID : Bytes) (n : Nat) : Bool :=
  s.offered.all fun p => p.1 != streamID || decide (n ≤ p.2) || decide (p.2 ≤ s.spooled streamID)

def refusalEnvelope (P : Setup) (s : Client) (i : Input) (streamID : Bytes) (push : TelemetryPush) :
    Envelope :=
  newEnvelope P.cfg s.nextSeq (refusal streamID push (lookupKind push.kind)).1
    (refusal streamID push (lookupKind push.kind)).2 i.now

/-- The guest pushes in order, and a kind it may not report is refused on record. -/
def orderly (P : Setup) (s : Client) : Action → Bool
  | .frame kind data i =>
    match s.conn with
    | none => true
    | some streamID =>
      if kind ≠ ascii "telemetry.push" then true
      else
        match pushed data with
        | none => true
        | some (push, n) =>
          repeats s streamID n && inOrder s streamID n &&
            (decide ((lookupKind push.kind).map KindInfo.provenance = some .guestReported) ||
              decide (n ≤ s.spooled streamID) ||
              s.appends i.faults (refusalEnvelope P s i streamID push))
  | .lost streamID data =>
    match pushed data with
    | none => true
    | some (_, n) => repeats s streamID n
  | _ => true

/-! ## What is settled -/

/-- The record speaks of the push: it is its event, or it names its stream and sequence. -/
def Durable.Reports (d : Durable) : Prop :=
  if d.refused then
    ∃ ms, d.env.data = some ms ∧ ms.lookup (ascii "source_instance_id") = some (.str d.streamID) ∧
      ∃ seq, ms.lookup (ascii "source_seq") = some (.str seq) ∧ parseUint seq = some d.seq
  else d.env.sourceInstanceID = d.streamID ∧ parseUint d.env.sourceSeq = some d.seq

structure Settled (s : Client) : Prop where
  /-- Every push up to the settled sequence has a record. -/
  recorded : ∀ p ∈ s.offered, p.2 ≤ s.spooled p.1 →
    ∃ d ∈ s.durable, d.streamID = p.1 ∧ d.seq = p.2
  reports : ∀ d ∈ s.durable, d.Reports
  acked : ∀ p ∈ s.acks, ∃ m, parseUint p.2 = some m ∧ m ≤ s.spooled p.1
  /-- The remembered envelope is one of the remembered push. -/
  remembered : ∀ l, s.lastRefusal = some l →
    l.env.sourceInstanceID = l.streamID ∧ l.env.sourceSeq = l.push.seq

lemma settled_init (w : Writer) : Settled (init w) :=
  ⟨by simp [init], by simp [init], by simp [init], by simp [init]⟩

variable {s s' : Client}

lemma Settled.congr (h : Settled s) (hspooled : s'.spooled = s.spooled)
    (hoffered : s'.offered = s.offered) (hdurable : s'.durable = s.durable)
    (hacks : s'.acks = s.acks) (hlast : s'.lastRefusal = s.lastRefusal) : Settled s' where
  recorded := by
    rw [hspooled, hoffered, hdurable]
    exact h.recorded
  reports := by
    rw [hdurable]
    exact h.reports
  acked := by
    rw [hacks, hspooled]
    exact h.acked
  remembered := by
    rw [hlast]
    exact h.remembered

lemma Client.durable_append (s : Client) (t : Faults) (env : Envelope) (made : Option Durable) :
    (s.append t env made).durable = if s.appends t env then s.durable ++ made.toList else s.durable :=
  rfl

lemma Client.durable_append_none (s : Client) (t : Faults) (env : Envelope) :
    (s.append t env none).durable = s.durable := by
  simp [durable_append]

lemma Client.offer_eq (s : Client) (streamID data : Bytes) :
    s.offer streamID data =
      { s with offered := s.offered ++ ((pushed data).map fun p => (streamID, p.2)).toList } := by
  unfold offer pushed
  cases decodeTelemetryPush data with
  | error err => simp
  | ok push => simp [Option.map_map, Function.comp_def]

variable {streamID : Bytes}

lemma Settled.offer (h : Settled s) {data : Bytes}
    (hrepeats : ∀ p, pushed data = some p → repeats s streamID p.2 = true) :
    Settled (s.offer streamID data) := by
  rw [offer_eq]
  refine ⟨fun p hp hle => ?_, h.reports, h.acked, h.remembered⟩
  rcases mem_append.1 hp with hp | hp
  · exact h.recorded p hp hle
  · cases hpush : pushed data with
    | none =>
      rw [hpush] at hp
      cases hp
    | some q =>
      rw [hpush] at hp
      obtain rfl : p = (streamID, q.2) := by simpa using hp
      have hq := hrepeats q hpush
      simp only [repeats, Bool.or_eq_true, decide_eq_true_eq, contains_iff_mem] at hq
      rcases hq with hlt | hmem
      · exact absurd hle (Nat.not_le_of_lt hlt)
      · exact h.recorded _ hmem hle

/-- A new sequence is settled: it has a record now, and every lower one had one before. -/
lemma Settled.settle (h : Settled s) (d : Durable) {n : Nat}
    (hspooled : s'.spooled = Function.update s.spooled streamID n)
    (hoffered : s'.offered = s.offered) (hdurable : s'.durable = s.durable ++ [d])
    (hacks : s'.acks = s.acks) (hlast : ∀ l, s'.lastRefusal = some l →
      l.env.sourceInstanceID = l.streamID ∧ l.env.sourceSeq = l.push.seq)
    (hd : d.streamID = streamID ∧ d.seq = n) (hreports : d.Reports) (hlt : s.spooled streamID < n)
    (horder : ∀ p ∈ s.offered, p.1 = streamID → p.2 < n → p.2 ≤ s.spooled streamID) :
    Settled s' where
  recorded := by
    rw [hspooled, hoffered, hdurable]
    intro p hp hle
    by_cases hsame : p.1 = streamID
    · rw [hsame, Function.update_self] at hle
      rcases Nat.lt_or_eq_of_le hle with hbelow | heq
      · obtain ⟨d', hd', hspec⟩ := h.recorded p hp (hsame ▸ horder p hp hsame hbelow)
        exact ⟨d', mem_append_left _ hd', hspec⟩
      · exact ⟨d, mem_append_right _ (mem_singleton_self d), hd.1.trans hsame.symm,
          hd.2.trans heq.symm⟩
    · rw [Function.update_of_ne hsame] at hle
      obtain ⟨d', hd', hspec⟩ := h.recorded p hp hle
      exact ⟨d', mem_append_left _ hd', hspec⟩
  reports := by
    rw [hdurable]
    intro d' hd'
    rcases mem_append.1 hd' with hd' | hd'
    · exact h.reports d' hd'
    · rw [mem_singleton.1 hd']
      exact hreports
  acked := by
    rw [hacks, hspooled]
    intro p hp
    obtain ⟨m, hm, hle⟩ := h.acked p hp
    refine ⟨m, hm, hle.trans ?_⟩
    by_cases hsame : p.1 = streamID
    · rw [hsame, Function.update_self]
      exact hlt.le
    · rw [Function.update_of_ne hsame]
  remembered := hlast

lemma reports_refusal {cfg : Config} {seq n : Nat} {push : TelemetryPush} {info : Option KindInfo}
    {now : Instant} (hseq : parseUint push.seq = some n) :
    Durable.Reports ⟨streamID, n, true,
      newEnvelope cfg seq (refusal streamID push info).1 (refusal streamID push info).2 now⟩ := by
  rw [Durable.Reports, if_pos rfl]
  refine ⟨_, rfl, ?_, push.seq, ?_, hseq⟩
  · cases info <;> rfl
  · cases info <;> rfl

lemma Settled.ack (h : Settled s) {seq : Bytes} {m : Nat} (hm : parseUint seq = some m)
    (hle : m ≤ s.spooled streamID) : Settled { s with acks := s.acks ++ [(streamID, seq)] } := by
  refine ⟨h.recorded, h.reports, fun p hp => ?_, h.remembered⟩
  rcases mem_append.1 hp with hp | hp
  · exact h.acked p hp
  · rw [mem_singleton.1 hp]
    exact ⟨m, hm, hle⟩

variable {P : Setup}

lemma Settled.envelopeFor (h : Settled s) (i : Input) (streamID : Bytes) (push : TelemetryPush)
    (data : Option (List (Bytes × Json))) :
    (s.envelopeFor P i streamID push data).sourceInstanceID = streamID ∧
      (s.envelopeFor P i streamID push data).sourceSeq = push.seq := by
  unfold Client.envelopeFor
  cases hreuse : s.lastRefusal.bind fun l => l.reuse streamID push with
  | none => exact ⟨rfl, rfl⟩
  | some env =>
    obtain ⟨l, hl, henv⟩ := Option.bind_eq_some_iff.1 hreuse
    unfold RefusedPush.reuse at henv
    split at henv
    · next hsame =>
      cases henv
      obtain ⟨hsource, hseq⟩ := h.remembered l hl
      exact ⟨hsource.trans hsame.1, hseq.trans hsame.2.1⟩
    · cases henv

lemma Settled.spool (h : Settled s) {i : Input} {push : TelemetryPush}
    (horder : ∀ n, parseUint push.seq = some n →
      ∀ p ∈ s.offered, p.1 = streamID → p.2 < n → p.2 ≤ s.spooled streamID)
    (hrefusal : ∀ n, parseUint push.seq = some n → s.spooled streamID < n →
      (lookupKind push.kind).map KindInfo.provenance ≠ some .guestReported →
      s.appends i.faults (refusalEnvelope P s i streamID push) = true) :
    Settled (s.spoolTelemetryPush P i streamID push).1 ∧
      ∀ seq, (s.spoolTelemetryPush P i streamID push).2 = .ok seq →
        ∃ m, parseUint seq = some m ∧
          m ≤ (s.spoolTelemetryPush P i streamID push).1.spooled streamID := by
  have hcase := s.spoolTelemetryPush_cases (P := P) i streamID push
  generalize s.spoolTelemetryPush P i streamID push = r at hcase ⊢
  cases hcase with
  | failed err => exact ⟨h, fun seq hok => absurd hok (by simp)⟩
  | @again n hseq hle =>
    refine ⟨h, fun seq hok => ⟨n, ?_, hle⟩⟩
    cases hok
    exact hseq
  | @refused n hseq hlt hkind =>
    have happend := hrefusal n hseq hlt hkind
    refine ⟨h.settle ⟨streamID, n, true, refusalEnvelope P s i streamID push⟩ rfl rfl ?_ rfl
      h.remembered ⟨rfl, rfl⟩ (reports_refusal hseq) hlt (horder n hseq), fun seq hok => ⟨n, ?_, ?_⟩⟩
    · exact (durable_append { s with seq := s.nextSeq } _ _ _).trans (if_pos happend)
    · cases hok
      exact hseq
    · exact (Function.update_self streamID n s.spooled).ge
  | @spooled n data hseq hlt _ _ happend =>
    have hevent := h.envelopeFor (P := P) i streamID push data
    refine ⟨h.settle ⟨streamID, n, false, s.envelopeFor P i streamID push data⟩ rfl rfl ?_ rfl
      (by simp) ⟨rfl, rfl⟩ ?_ hlt (horder n hseq), fun seq hok => ⟨n, ?_, ?_⟩⟩
    · exact (s.durable_append _ _ _).trans (if_pos happend)
    · rw [Durable.Reports, if_neg (by simp), hevent.2]
      exact ⟨hevent.1, hseq⟩
    · cases hok
      exact hseq
    · exact (Function.update_self streamID n s.spooled).ge
  | @remembered n data hseq _ _ happend =>
    have hdurable := (s.durable_append i.faults (s.envelopeFor P i streamID push data)
      (some ⟨streamID, n, false, s.envelopeFor P i streamID push data⟩)).trans
      (if_neg (by simp [happend]))
    refine ⟨⟨?_, ?_, h.acked, ?_⟩, fun seq hok => absurd hok (by simp)⟩
    · simp only [hdurable]
      exact h.recorded
    · simp only [hdurable]
      exact h.reports
    · intro l hl
      cases hl
      exact h.envelopeFor i streamID push data

lemma Settled.serveFrame (h : Settled s) {i : Input} {kind data : Bytes}
    (hconn : s.conn = some streamID) (horderly : orderly P s (.frame kind data i) = true) :
    Settled (s.serveFrame P i streamID kind data) := by
  simp only [orderly, hconn] at horderly
  unfold Client.serveFrame
  split
  · exact h.congr rfl rfl (durable_append_none _ _ _) rfl rfl
  next hkind =>
  rw [if_neg hkind] at horderly
  split
  · exact h.congr rfl rfl (durable_append_none _ _ _) rfl rfl
  next push hpush =>
  have hpushed : pushed data = (parseUint push.seq).map fun n => (push, n) := by
    simp [pushed, hpush]
  -- what the condition says of the sequence of this push
  have hcond : ∀ n, parseUint push.seq = some n →
      repeats s streamID n = true ∧ inOrder s streamID n = true ∧
        ((lookupKind push.kind).map KindInfo.provenance = some .guestReported ∨
          n ≤ s.spooled streamID ∨
          s.appends i.faults (refusalEnvelope P s i streamID push) = true) := by
    intro n hn
    rw [hpushed, hn] at horderly
    simpa [and_assoc, or_assoc] using horderly
  have hoffer : Settled (s.offer streamID data) := by
    refine h.offer fun p hp => ?_
    rw [hpushed] at hp
    obtain ⟨n, hn, rfl⟩ := Option.map_eq_some_iff.1 hp
    exact (hcond n hn).1
  have horder : ∀ n, parseUint push.seq = some n →
      ∀ p ∈ (s.offer streamID data).offered, p.1 = streamID → p.2 < n →
        p.2 ≤ (s.offer streamID data).spooled streamID := by
    intro n hn p hp hstream hlt
    rw [offer_eq] at hp ⊢
    rcases mem_append.1 hp with hp | hp
    · have hin := all_eq_true.1 (hcond n hn).2.1 p hp
      simp only [hstream, bne_self_eq_false, Bool.false_or, Bool.or_eq_true, decide_eq_true_eq] at hin
      exact hin.resolve_left (Nat.not_le_of_lt hlt)
    · rw [hpushed, hn] at hp
      obtain rfl : p = (streamID, n) := by simpa using hp
      exact absurd hlt (Nat.lt_irrefl n)
  have hrefusal : ∀ n, parseUint push.seq = some n → (s.offer streamID data).spooled streamID < n →
      (lookupKind push.kind).map KindInfo.provenance ≠ some .guestReported →
      (s.offer streamID data).appends i.faults
        (refusalEnvelope P (s.offer streamID data) i streamID push) = true := by
    intro n hn hlt hguest
    rw [offer_eq] at hlt ⊢
    exact ((hcond n hn).2.2.resolve_left hguest).resolve_left (Nat.not_le_of_lt hlt)
  obtain ⟨hspool, hack⟩ := hoffer.spool horder hrefusal
  generalize (s.offer streamID data).spoolTelemetryPush P i streamID push = r at hspool hack
  obtain ⟨s', _ | seq⟩ := r
  · exact hspool.congr rfl rfl rfl rfl rfl
  · obtain ⟨m, hm, hle⟩ := hack seq rfl
    dsimp only
    split
    · exact hspool.ack hm hle
    · exact hspool.congr rfl rfl rfl rfl rfl

lemma Settled.step (h : Settled s) {a : Action} (horderly : orderly P s a = true)
    (hstep : step P s a = some s') : Settled s' := by
  cases a with
  | connect reply =>
    simp only [Runner.step] at hstep
    split at hstep
    · cases hstep
      exact h.congr rfl rfl rfl rfl rfl
    · cases hstep
  | frame kind data i =>
    obtain ⟨streamID, hconn, rfl⟩ := Option.map_eq_some_iff.1 hstep
    exact h.serveFrame hconn horderly
  | lost streamID data =>
    cases hstep
    refine h.offer fun p hp => ?_
    simpa [orderly, hp] using horderly
  | drop =>
    cases hstep
    exact h.congr rfl rfl rfl rfl rfl
  | other t env taken =>
    cases hstep
    exact h.congr rfl rfl (durable_append_none _ _ _) rfl rfl

/-- **The runner acknowledges what is durable**, in every run in which the guest pushes in order and
the record of every refused kind can be appended: whenever an acknowledgement covers a sequence
that the guest pushed on the stream, an append returned nil for the event of that sequence or
for the record that reports its refusal. -/
theorem acknowledged_durable (P : Setup) (w : Writer) (as : List Action) (s : Client)
    (horderly : Along (step P) (fun s a => orderly P s a = true) (Client.init w) as)
    (hrun : run (step P) (Client.init w) as = some s) :
    ∀ ack ∈ s.acks, ∃ m, parseUint ack.2 = some m ∧ ∀ n ≤ m, (ack.1, n) ∈ s.offered →
      ∃ d ∈ s.durable, d.streamID = ack.1 ∧ d.seq = n ∧ d.Reports := by
  have h : Settled s := run_invariant (I := Settled)
    (fun _ _ _ h hp hstep => h.step hp hstep) (settled_init w) horderly hrun
  intro ack hack
  obtain ⟨m, hm, hle⟩ := h.acked ack hack
  refine ⟨m, hm, fun n hn hoffered => ?_⟩
  obtain ⟨d, hd, hstream, hseq⟩ := h.recorded (ack.1, n) hoffered (hn.trans hle)
  exact ⟨d, hd, hstream, hseq, h.reports d hd⟩

/-! ## Runs -/

def demoPush (kind : String) (seq : Nat) (total : Except Bytes Int) : Action :=
  .frame (ascii "telemetry.push")
    (Json.obj
      [(ascii "seq", .str (formatUint seq)), (ascii "kind", .str (ascii kind)),
       (ascii "data", .obj [(ascii "path", .str (ascii "/etc/hosts"))])]).encode
    ⟨demoTime, { quiet 0 fun _ => none with total := total }, [], true⟩

/-- An event and a refused kind, then the event again. -/
def pushesInOrder : List Action :=
  [greeting, demoPush "fs.modify" 1 (.ok 0), demoPush "vm.created" 2 (.ok 0), .drop, greeting,
    demoPush "fs.modify" 1 (.ok 0)]

/-- The pushes of that run are acknowledged and recorded. -/
theorem acknowledged_durable_pushesInOrder :
    ∃ s, run (step demo) (Client.init demoWriter) pushesInOrder = some s ∧
      s.acks = [(demoStream, ascii "1"), (demoStream, ascii "2"), (demoStream, ascii "1")] ∧
      (∃ d ∈ s.durable, d.streamID = demoStream ∧ d.seq = 1 ∧ d.Reports) ∧
      ∃ d ∈ s.durable, d.streamID = demoStream ∧ d.seq = 2 ∧ d.Reports := by
  obtain ⟨s, hguarded, hacks, hoffered⟩ : ∃ s,
      run (guarded (step demo) fun s a => orderly demo s a = true) (init demoWriter)
        pushesInOrder = some s ∧
      s.acks = [(demoStream, ascii "1"), (demoStream, ascii "2"), (demoStream, ascii "1")] ∧
      s.offered = [(demoStream, 1), (demoStream, 2), (demoStream, 1)] := by decide +kernel
  obtain ⟨hrun, horderly⟩ := of_run_guarded hguarded
  obtain ⟨m, hm, hcovered⟩ := acknowledged_durable demo demoWriter pushesInOrder s
    horderly hrun (demoStream, ascii "2") (by simp [hacks])
  obtain rfl : m = 2 := by
    have : parseUint (ascii "2") = some 2 := by decide
    exact Option.some.inj (hm.symm.trans this)
  exact ⟨s, hrun, hacks, hcovered 1 (by decide) (by simp [hoffered]),
    hcovered 2 le_rfl (by simp [hoffered])⟩

/-- A kind the guest may not report, while the spool cannot be measured, is acknowledged without a
record; so is a sequence that comes after a higher one. -/
theorem acknowledged_without_record : (run (step demo) (Client.init demoWriter)
        [greeting, demoPush "vm.created" 1 (.error (ascii "input/output error"))]).map
      (fun s => (s.acks, s.offered, s.durable.length)) =
      some ([(demoStream, ascii "1")], [(demoStream, 1)], 0) ∧
    (run (step demo) (Client.init demoWriter)
        [greeting, demoPush "fs.modify" 2 (.ok 0), demoPush "fs.modify" 1 (.ok 0)]).map
      (fun s => (s.acks, s.offered, s.durable.map Durable.seq)) =
      some ([(demoStream, ascii "2"), (demoStream, ascii "1")], [(demoStream, 2), (demoStream, 1)],
        [2]) := by
  constructor
  · decide +kernel
  · decide +kernel

end Observatory.Runner
