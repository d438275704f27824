/-
# Calls of a writer when its files behave

When writes, fsyncs and retirements work and a create either works or fails to open its file, a
call's operations do a few things only: append a whole record to the live segment, move on to a
new one, retire the old one. `Exec` says which sequences of operations lead from one such
situation to another, and the lemmas say that the calls of the writer are among them.
-/
import Observatory.Spool.Layout
import Observatory.Spool.Writer

namespace Observatory.Spool

open Lib Events

/-! ## Surroundings that behave -/

def CreateOutcome.behaves : CreateOutcome → Bool
  | .ok | .openError _ => true
  | .failed _ _ _ => false

/-- No write, fsync or retirement fails. -/
def Faults.behaves (t : Faults) : Bool :=
  t.create.behaves && t.retire == .ok && t.loss == .ok && t.record == .ok && t.closeRetire == .ok

lemma Faults.behaves_iff {t : Faults} : t.behaves = true ↔ t.create.behaves = true ∧
    t.retire = .ok ∧ t.loss = .ok ∧ t.record = .ok ∧ t.closeRetire = .ok := by
  simp [Faults.behaves, and_assoc]

/-! ## Phases -/

/-- What a writer is doing with its segments: nothing, creating its first one, writing one of a
given size, creating the next one, or about to retire the one before. -/
inductive Phase where
  | none
  | opening (new : Nat)
  | live (segment size : Nat)
  | creating (segment size new : Nat)
  | retiring (segment size new newSize : Nat)

/-- Operations that lead from one phase to another. -/
inductive Exec : Phase → List FileOp → Phase → Prop
  | nil {p} : Exec p [] p
  | status {p q h ops} (hr : Exec p ops q) : Exec p (.status h :: ops) q
  | frame {k size b ops q} (hb : IsBody b)
      (hr : Exec (.live k (size + (encodeFrame b).length)) ops q) :
      Exec (.live k size) (.write k (encodeFrame b) :: ops) q
  | trim {k size ops q} (hr : Exec (.live k size) ops q) :
      Exec (.live k size) (.truncate k size :: ops) q
  | finish {k size ops q} (hr : Exec .none ops q) :
      Exec (.live k size) (.writeAt k size (putUint32 endMarker) :: ops) q
  | create {k size n ops q} (hr : Exec (.creating k size n) ops q) :
      Exec (.live k size) (.create n :: ops) q
  | header {k size n v i ops q} (hr : Exec (.retiring k size n (headerLine v i).length) ops q) :
      Exec (.creating k size n) (.write n (headerLine v i) :: ops) q
  | trimOld {k size n m ops q} (hr : Exec (.retiring k size n m) ops q) :
      Exec (.retiring k size n m) (.truncate k size :: ops) q
  | retire {k size n m ops q} (hr : Exec (.live n m) ops q) :
      Exec (.retiring k size n m) (.writeAt k size (putUint32 endMarker) :: ops) q
  | first {n ops q} (hr : Exec (.opening n) ops q) : Exec .none (.create n :: ops) q
  | firstHeader {n v i ops q} (hr : Exec (.live n (headerLine v i).length) ops q) :
      Exec (.opening n) (.write n (headerLine v i) :: ops) q

lemma Exec.append {p q r : Phase} {ops more : List FileOp} (h : Exec p ops q)
    (hmore : Exec q more r) : Exec p (ops ++ more) r := by
  induction h with
  | nil => exact hmore
  | status _ ih => exact .status (ih hmore)
  | frame hb _ ih => exact .frame hb (ih hmore)
  | trim _ ih => exact .trim (ih hmore)
  | finish _ ih => exact .finish (ih hmore)
  | create _ ih => exact .create (ih hmore)
  | header _ ih => exact .header (ih hmore)
  | trimOld _ ih => exact .trimOld (ih hmore)
  | retire _ ih => exact .retire (ih hmore)
  | first _ ih => exact .first (ih hmore)
  | firstHeader _ ih => exact .firstHeader (ih hmore)

/-! ## Records -/

lemma getLast?_encodeMoreMembers (ms : List (Bytes × Json)) :
    (Json.encodeMoreMembers ms).getLast? = some 0x7D := by
  induction ms with
  | nil => rfl
  | cons m ms ih => simp [Json.encodeMoreMembers, List.getLast?_cons, List.getLast?_append, ih]

lemma isBody_of_marshal {env : Envelope} {body : Bytes} (h : env.marshal = some body)
    (hlen : ¬ maxRecordBytes < body.length) : IsBody body := by
  unfold Envelope.marshal at h
  split at h
  · cases h
    refine ⟨Nat.le_of_not_lt hlen, ?_⟩
    cases env.members with
    | nil => rfl
    | cons m ms =>
      simp [Json.encode, Json.encodeMembers, List.getLast?_cons, List.getLast?_append,
        getLast?_encodeMoreMembers]
  · cases h

namespace Writer

def phase (w : Writer) : Phase := if w.closed then .none else .live w.current w.segBytes

/-- An effect goes from the live segment of `w` to the live segment of its writer. -/
def Runs (w : Writer) (e : Effect) : Prop :=
  Exec (.live w.current w.segBytes) e.ops (.live e.writer.current e.writer.segBytes) ∧
    e.writer.closed = w.closed

variable {b : Bytes} {t : Faults} {w : Writer}

lemma runs_nil {w' : Writer} {frames : List Frame} {err : Option Bytes}
    (hcur : w'.current = w.current) (hsize : w'.segBytes = w.segBytes)
    (hclosed : w'.closed = w.closed) : w.Runs ⟨w', [], frames, err⟩ :=
  ⟨by rw [hcur, hsize]; exact .nil, hclosed⟩

lemma Runs.andThen {e : Effect} {k : Writer → Effect} (h : w.Runs e)
    (hk : e.writer.Runs (k e.writer)) : w.Runs (e.andThen k) := by
  unfold Effect.andThen
  split
  · exact h
  · exact ⟨h.1.append hk.1, hk.2.trans h.2⟩

attribute [local simp] CreateOutcome.behaves

lemma advance_runs (w : Writer) (ht : t.behaves = true) : w.Runs (w.advance t) := by
  obtain ⟨hcreate, hretire, -⟩ := Faults.behaves_iff.1 ht
  have hdamage : Exec (.live w.current w.segBytes) (w.damageOps t.trimmed)
      (.live w.current w.segBytes) := by
    unfold damageOps
    split
    · exact .trim .nil
    · exact .nil
  unfold advance createSegment
  dsimp only
  split
  · next err herr =>
    split at herr
    · next hmax =>
      rw [if_pos hmax]
      exact ⟨hdamage, rfl⟩
    · next hmax =>
      rw [if_neg hmax]
      cases hc : t.create with
      | ok => simp [hc, createOps] at herr
      | openError e => exact ⟨hdamage, rfl⟩
      | failed stage removed e => simp [hc] at hcreate
  · next herr =>
    split at herr
    · cases herr
    · next hmax =>
      rw [if_neg hmax, hretire]
      cases hc : t.create with
      | ok => exact ⟨.create (.header (.trimOld (.retire .nil))), rfl⟩
      | openError e => simp [hc, createOps] at herr
      | failed stage removed e => simp [hc] at hcreate

lemma makeRoom_runs (w : Writer) (ht : t.behaves = true) (n : Nat) :
    w.Runs (w.makeRoom t n) := by
  unfold makeRoom
  split
  · exact w.advance_runs ht
  · exact runs_nil rfl rfl rfl

lemma writeFrame_runs (w : Writer) (hb : IsBody b) (what : Bytes) (d : Frame) (trimmed : Bool) :
    w.Runs (w.writeFrame (encodeFrame b) what d .ok trimmed) :=
  ⟨.frame hb .nil, rfl⟩

lemma writeLoss_runs (w : Writer) (ht : t.behaves = true) (o : Outage) (hb : IsBody b) :
    w.Runs (w.writeLoss t o (encodeFrame b)) := by
  obtain ⟨-, -, hloss, -⟩ := Faults.behaves_iff.1 ht
  unfold writeLoss
  rw [hloss]
  exact (w.writeFrame_runs hb _ _ _).andThen ⟨.status .nil, rfl⟩

lemma pendingLoss_frame {o : Outage} {frame : Bytes} (h : w.pendingLoss t = .ok (some (o, frame))) :
    ∃ b, IsBody b ∧ frame = encodeFrame b := by
  unfold pendingLoss at h
  split at h
  · cases h
  unfold lossFrame at h
  dsimp only at h
  split at h
  · cases h
  split at h
  · cases h
  next body hbody =>
  split at h
  · cases h
  next hlen =>
  obtain ⟨-, rfl⟩ : _ ∧ encodeFrame body = frame := by simpa [Except.map] using h
  exact ⟨body, isBody_of_marshal hbody hlen, rfl⟩

lemma writePending_runs {w' : Writer} (ht : t.behaves = true) {loss : Option (Outage × Bytes)}
    (h : w'.pendingLoss t = .ok loss) (n : Nat) :
    w.Runs (w.writePending t loss n) := by
  unfold writePending
  cases loss with
  | none => exact w.makeRoom_runs ht n
  | some p =>
    obtain ⟨o, frame⟩ := p
    obtain ⟨b, hb, rfl⟩ := pendingLoss_frame h
    exact (w.makeRoom_runs ht _).andThen (writeLoss_runs _ ht o hb)

lemma attempt_runs (w : Writer) (ht : t.behaves = true) (env : Envelope) (hb : IsBody b) :
    w.Runs (w.attempt t env (encodeFrame b)) := by
  obtain ⟨-, -, -, hrecord, -⟩ := Faults.behaves_iff.1 ht
  unfold attempt
  split
  · exact runs_nil rfl rfl rfl
  split
  · exact runs_nil rfl rfl rfl
  split
  · exact runs_nil rfl rfl rfl
  next loss hloss =>
  rw [hrecord]
  exact (writePending_runs ht hloss _).andThen (writeFrame_runs _ hb _ _ _)

lemma append_exec (w : Writer) (ht : t.behaves = true) (env : Envelope) :
    Exec w.phase (w.append t env).ops (w.append t env).writer.phase := by
  unfold append
  split
  · exact .nil
  next hopen =>
  split
  · exact .nil
  next body hbody =>
  split
  · exact .nil
  next hlen =>
  obtain ⟨hruns, hclosed⟩ := w.attempt_runs ht env (isBody_of_marshal hbody hlen)
  have hphase : w.phase = .live w.current w.segBytes := by simp [phase, hopen]
  unfold finish
  split
  · next err _ =>
    have hafter : (((w.attempt t env (encodeFrame body)).writer).refuse t env err).phase =
        .live (w.attempt t env (encodeFrame body)).writer.current
          (w.attempt t env (encodeFrame body)).writer.segBytes := by
      simp [phase, refuse, hclosed, hopen]
    dsimp only
    rw [hphase, hafter]
    exact hruns.append (.status .nil)
  · have hafter : (w.attempt t env (encodeFrame body)).writer.phase =
        .live (w.attempt t env (encodeFrame body)).writer.current
          (w.attempt t env (encodeFrame body)).writer.segBytes := by
      simp [phase, hclosed, hopen]
    dsimp only
    rw [hphase, hafter]
    exact hruns

lemma append_writes {env : Envelope} (hb : env.marshal = some b) (h : (w.append t env).err = none) :
    IsBody b ∧ ∃ k, .write k (encodeFrame b) ∈ (w.append t env).ops := by
  have hattempt (e : Effect) (k : Writer → Effect) (h : (e.andThen k).err = none) :
      e.err = none ∧ (k e.writer).err = none := by
    unfold Effect.andThen at h
    split at h
    · next err herr => exact absurd (h.symm.trans herr) (by simp)
    · next herr => exact ⟨herr, h⟩
  unfold append at h ⊢
  split at h
  · cases h
  next hopen =>
  rw [hb] at h ⊢
  dsimp only at h ⊢
  split at h
  · cases h
  next hlen =>
  refine ⟨isBody_of_marshal hb hlen, ?_⟩
  rw [if_neg hopen, if_neg hlen]
  unfold finish at h ⊢
  split at h
  · cases h
  next herr =>
  dsimp only
  unfold attempt at herr ⊢
  split at herr
  · cases herr
  split at herr
  · cases herr
  next hroom =>
  rw [if_neg hroom]
  split at herr
  · cases herr
  next loss _ =>
  obtain ⟨hpending, hwrite⟩ := hattempt _ _ herr
  cases hrecord : t.record with
  | ok =>
    refine ⟨(w.writePending t loss (encodeFrame b).length).writer.current, ?_⟩
    simp [Effect.andThen, hpending, writeFrame]
  | writeError n err | syncError err => simp [writeFrame, hrecord] at hwrite

lemma close_exec (w : Writer) (ht : t.behaves = true) :
    Exec w.phase (w.close t).ops (w.close t).writer.phase := by
  obtain ⟨-, -, -, -, hclose⟩ := Faults.behaves_iff.1 ht
  unfold close
  split
  · exact .nil
  next hopen =>
  have hphase : w.phase = .live w.current w.segBytes := by simp [phase, hopen]
  have hrecord : Runs { w with closed := true } (recordOutage { w with closed := true } t) := by
    unfold recordOutage
    split
    · exact runs_nil rfl rfl rfl
    · next loss hloss => exact writePending_runs ht hloss 0
  have hfinish {e : Effect} (h : Runs { w with closed := true } e) :
      Exec (.live w.current w.segBytes)
        (e.ops ++ (retireSegment e.writer.current e.writer.segBytes t.closeRetire).1 ++
          [.status (e.writer.health t.updatedAt)]) e.writer.phase := by
    have hnone : e.writer.phase = .none := by simp [phase, h.2]
    rw [hnone, hclose, List.append_assoc]
    exact h.1.append (.trim (.finish (.status .nil)))
  rw [hphase]
  dsimp only
  split
  · exact hfinish hrecord
  · exact hfinish (e := ⟨{ w with closed := true }, [], [], none⟩) (runs_nil rfl rfl rfl)

/-- Opening a writer leads from nothing to its first segment, or nowhere. -/
lemma openWriter_exec (cfg : WriterCfg) (idx : Nat) {o : CreateOutcome} (ho : o.behaves = true)
    (now : Instant) :
    ∃ q, Exec .none (openWriter cfg idx o now).2 q ∧
      ∀ w, (openWriter cfg idx o now).1 = some w → q = w.phase := by
  unfold openWriter createSegment
  split
  · exact ⟨.none, .nil, by simp⟩
  dsimp only
  split
  · next err herr =>
    split at herr
    · next hmax =>
      rw [if_pos hmax]
      exact ⟨.none, .nil, by simp⟩
    · next hmax =>
      rw [if_neg hmax]
      cases o with
      | ok => simp [createOps] at herr
      | openError e => exact ⟨.none, .nil, by simp⟩
      | failed stage removed e => exact absurd ho (by simp)
  · next herr =>
    split at herr
    · cases herr
    · next hmax =>
      rw [if_neg hmax]
      cases o with
      | ok =>
        refine ⟨_, .first (.firstHeader (.status .nil)), ?_⟩
        intro w hw
        cases hw
        rfl
      | openError e => simp [createOps] at herr
      | failed stage removed e => exact absurd ho (by simp)

end Writer

end Observatory.Spool
