/-
# Report jobs

The report of a run is made in the background, as an operation of its own: after the run was
concluded, when a report is asked for that is not there, and for what is missing when the process
starts. Each of them runs the generator, which looks for an operation under way before it inserts
its own. The look and the insertion are two calls, and nothing stands between them: two generators
that have both looked will both insert.
-/
import Observatory.Lib.Pool
import Observatory.Store.Runs

namespace Observatory.Report.Jobs

open Lib Store Function List Prog

/-! ## The tables -/

inductive OpState where
  | pending | running | succeeded | failed
deriving DecidableEq

inductive OpPhase where
  | generating | storing | done

/-- A row of the operations table, of the kind `run.report_generate`. -/
structure Operation where
  operationID : Nat
  owner : Bytes
  vmID : Bytes
  /-- The column of the request's hash, which holds the run. -/
  requestHash : Bytes
  phase : OpPhase
  state : OpState

structure RunRow where
  runID : Bytes
  owner : Bytes
  vmID : Bytes
  phase : RunPhase

structure World where
  runs : List RunRow
  operations : List Operation
  lastOperationID : Nat
  /-- The runs whose reports are stored. -/
  reports : List Bytes

def World.new : World := ⟨[], [], 0, []⟩

/-! ## Calls -/

inductive ReportLookup where
  | found | missing | failed

inductive PutResult where
  | stored | immutable | failed

inductive Call where
  | createRun (row : RunRow)
  | getRun (runID : Bytes)
  | transitionRun (runID : Bytes) (dest : RunPhase)
  | listRunsInPhases (phases : List RunPhase)
  /-- Whether the VM is still up, as its row says. -/
  | vmLive (vmID : Bytes)
  | getRunReport (runID : Bytes)
  | getLatestReportOperation (runID : Bytes)
  | hasRunningReportOp (runID : Bytes)
  | insertReportOperation (owner vmID runID : Bytes)
  | generate (runID : Bytes)
  | putRunReport (runID : Bytes) (operationID : Nat)
  | updateOperation (operationID : Nat) (ifState : Option OpState) (phase : OpPhase)
      (state : OpState)
  | listOperationsByState (state : OpState)
  /-- Run the generator in the background, unless the manager is closing. -/
  | goTracked (runID : Bytes)

@[reducible] def Call.Reply : Call → Type
  | createRun _ | transitionRun _ _ | vmLive _ | generate _ | updateOperation _ _ _ _
  | goTracked _ => Bool
  | getRun _ => Option RunRow
  | listRunsInPhases _ => Option (List RunRow)
  | getRunReport _ => ReportLookup
  | getLatestReportOperation _ => Option Operation
  | hasRunningReportOp _ => Option Bool
  | insertReportOperation _ _ _ => Option Nat
  | putRunReport _ _ => PutResult
  | listOperationsByState _ => Option (List Operation)

namespace World

def getRun (w : World) (runID : Bytes) : Option RunRow := Table.find RunRow.runID runID w.runs

def operationsOf (w : World) (runID : Bytes) : List Operation :=
  w.operations.filter fun op => op.requestHash = runID

def createRun (w : World) (row : RunRow) : World × Bool :=
  match Table.insert RunRow.runID row w.runs with
  | none => (w, false)
  | some runs => ({ w with runs := runs }, true)

def transitionRun (w : World) (runID : Bytes) (dest : RunPhase) : World × Bool :=
  match w.getRun runID with
  | none => (w, false)
  | some run =>
    if runTransitionAllowed run.phase dest then
      ({ w with
        runs := Table.modify RunRow.runID runID (fun r => { r with phase := dest }) w.runs }, true)
    else (w, false)

def hasRunningReportOp (w : World) (runID : Bytes) : Bool :=
  (w.operationsOf runID).any fun op => op.state = .running || op.state = .pending

def insertReportOperation (w : World) (owner vmID runID : Bytes) : World × Nat :=
  ({ w with
    operations := w.operations ++
      [⟨w.lastOperationID + 1, owner, vmID, runID, .generating, .running⟩]
    lastOperationID := w.lastOperationID + 1 }, w.lastOperationID + 1)

def putRunReport (w : World) (runID : Bytes) : World × PutResult :=
  if w.reports.contains runID then (w, .immutable)
  else ({ w with reports := w.reports ++ [runID] }, .stored)

def updateOperation (w : World) (operationID : Nat) (ifState : Option OpState) (phase : OpPhase)
    (state : OpState) : World × Bool :=
  match Table.find Operation.operationID operationID w.operations with
  | none => (w, false)
  | some op =>
    if ifState.any (· ≠ op.state) then (w, false)
    else
      ({ w with
        operations := Table.modify Operation.operationID operationID
          (fun op => { op with phase := phase, state := state }) w.operations }, true)

end World

/-- What a call does; `ok` is whether the database, the generation and the manager let it. -/
def Call.exec (w : World) (c : Call) (ok : Bool) : Option (World × c.Reply) :=
  match c with
  | createRun row => some (if ok then w.createRun row else (w, false))
  | getRun runID => some (w, if ok then w.getRun runID else none)
  | transitionRun runID dest => some (if ok then w.transitionRun runID dest else (w, false))
  | listRunsInPhases phases =>
    some (w, if ok then some (w.runs.filter fun r => phases.contains r.phase) else none)
  | vmLive _ => some (w, ok)
  | getRunReport runID =>
    some (w, if !ok then .failed else if w.reports.contains runID then .found else .missing)
  | getLatestReportOperation runID =>
    some (w, if ok then (w.operationsOf runID).getLast? else none)
  | hasRunningReportOp runID => some (w, if ok then some (w.hasRunningReportOp runID) else none)
  | insertReportOperation owner vmID runID =>
    if ok then
      let r := w.insertReportOperation owner vmID runID
      some (r.1, some r.2)
    else some (w, none)
  | generate runID => some (w, ok && (w.getRun runID).any fun run => run.phase.terminal)
  | putRunReport runID _ => some (if ok then w.putRunReport runID else (w, .failed))
  | updateOperation operationID ifState phase state =>
    some (if ok then w.updateOperation operationID ifState phase state else (w, false))
  | listOperationsByState state =>
    some (w, if ok then some (w.operations.filter fun op => op.state = state) else none)
  | goTracked _ => some (w, ok)

/-! ## Programs -/

abbrev M := Prog Call Call.Reply

open Prog (perform)

def finish (operationID : Nat) (phase : OpPhase) (state : OpState) : M Unit :=
  perform (.updateOperation operationID (some .running) phase state) fun _ => ()

/-- Make the report and store it; that it is stored already is fine. -/
def produce (runID : Bytes) (operationID : Nat) : M Unit := do
  if ← perform (.generate runID) id then
    match ← perform (.putRunReport runID operationID) id with
    | .failed => finish operationID .storing .failed
    | _ => finish operationID .done .succeeded
  else finish operationID .generating .failed

/-- The generator. -/
def reportGen (runID : Bytes) : M Unit := do
  match ← perform (.getRun runID) id with
  | none => pure ()
  | some run =>
    match ← perform (.hasRunningReportOp runID) id with
    | some false =>
      match ← perform (.insertReportOperation run.owner run.vmID runID) id with
      | none => pure ()
      | some operationID => produce runID operationID
    | _ => pure ()

def postConclude (runID : Bytes) : M Unit := perform (.goTracked runID) fun _ => ()

/-- Bring a conclusion to its end; `verdict` is what the run is evaluated to. -/
def settleRun (runID : Bytes) (verdict : RunPhase) : M Unit := do
  if ← perform (.transitionRun runID verdict) id then postConclude runID

def concludeRun (runID : Bytes) (verdict : RunPhase) : M Unit := do
  match ← perform (.getRun runID) id with
  | none => pure ()
  | some run =>
    if run.phase.terminal then pure ()
    else if run.phase = .concluding then settleRun runID verdict
    else
      if ← perform (.transitionRun runID .concluding) id then settleRun runID verdict

def enqueueReport (runID : Bytes) : M Unit := do
  match ← perform (.hasRunningReportOp runID) id with
  | some false => perform (.goTracked runID) fun _ => ()
  | _ => pure ()

/-- A request for a report: one that is missing or could not be made is enqueued. -/
def getReport (runID : Bytes) : M Unit := do
  match ← perform (.getRun runID) id with
  | none => pure ()
  | some run =>
    if run.phase.terminal then
      match ← perform (.getRunReport runID) id with
      | .missing =>
        match ← perform (.getLatestReportOperation runID) id with
        | none => enqueueReport runID
        | some op => if op.state = .failed then enqueueReport runID else pure ()
      | _ => pure ()
    else pure ()

/-- Fail operations one after the other, until one cannot be. -/
def failOperations : List Operation → M Bool
  | [] => pure true
  | op :: ops => do
    if ← perform (.updateOperation op.operationID none op.phase .failed) id then failOperations ops
    else pure false

def failInState (state : OpState) : M Bool := do
  match ← perform (.listOperationsByState state) id with
  | none => pure false
  | some ops => failOperations ops

def recoverReport (run : RunRow) : M Unit := do
  match ← perform (.getRunReport run.runID) id with
  | .missing =>
    match ← perform (.hasRunningReportOp run.runID) id with
    | some true => pure ()
    | _ => reportGen run.runID
  | _ => pure ()

def reconcileRuns (verdict : Bytes → RunPhase) : M Unit := do
  match ← perform (.listRunsInPhases [.pending, .running, .concluding]) id with
  | none => pure ()
  | some active =>
    Prog.forEach (fun run => do
      if ← perform (.vmLive run.vmID) id then pure ()
      else concludeRun run.runID (verdict run.runID)) active
    match ← perform (.listRunsInPhases [.succeeded, .failed, .inconclusive, .aborted]) id with
    | none => pure ()
    | some ended => Prog.forEach recoverReport ended

/-- What is done when the process starts: operations under way are failed, then come the runs. -/
def reconcile (verdict : Bytes → RunPhase) : M Unit := do
  if ← failInState .pending then
    if ← failInState .running then reconcileRuns verdict

/-! ## The system -/

inductive Job where
  | createRun (row : RunRow)
  | concludeRun (runID : Bytes) (verdict : RunPhase)
  | getReport (runID : Bytes)
  | reportGen (runID : Bytes)
  | reconcile (verdict : Bytes → RunPhase)

def Job.prog : Job → M Unit
  | createRun row => perform (.createRun row) fun _ => ()
  | concludeRun runID verdict => Jobs.concludeRun runID verdict
  | getReport runID => Jobs.getReport runID
  | reportGen runID => Jobs.reportGen runID
  | reconcile verdict => Jobs.reconcile verdict

/-- The generator is started by others, and what is done at the start is done there. -/
def Job.entry : Job → Bool
  | reportGen _ | reconcile _ => false
  | _ => true

def Job.boot : Job → Bool
  | reconcile _ => true
  | _ => false

def spawn : (c : Call) → c.Reply → Option Job
  | .goTracked runID, tracked => if tracked then some (.reportGen runID) else none
  | _, _ => none

/-- The report jobs. The tables are kept over a restart. -/
def reportJobs : System Call Call.Reply World Bool Job where
  exec := Call.exec
  spawn := spawn
  prog := Job.prog
  entry := Job.entry
  boot := Job.boot
  restart := id

abbrev JobPool := Pool Call Call.Reply World Job

abbrev JobMove := Move Bool Job

/-! ## What the generator has learnt -/

/-- How far a thread is with an insertion. -/
inductive Stage where
  | idle
  /-- The run was read. -/
  | ready (runID : Bytes)
  /-- No operation was under way. -/
  | cleared (runID : Bytes)
deriving DecidableEq

/-- The calls at a stage: what follows the look is the insertion, and nothing else inserts or brings
an operation back. -/
def Stage.permits : Stage → Call → Prop
  | .cleared r, c => ∃ owner vmID, c = .insertReportOperation owner vmID r
  | _, .insertReportOperation _ _ _ => False
  | _, .updateOperation _ _ _ state => state ≠ .running
  | _, _ => True

def Stage.after : Stage → (c : Call) → c.Reply → Stage
  | _, .getRun r, some _ => .ready r
  | .ready r, .hasRunningReportOp r', some false => if r' = r then .cleared r else .idle
  | _, _, _ => .idle

def inserting : Protocol Call Call.Reply Stage where
  guarantee := Stage.permits
  rely _ _ _ := True
  next := Stage.after

def reading : Protocol Call Call.Reply Stage where
  guarantee g c := g = .idle ∧ Stage.permits .idle c
  rely _ _ _ := True
  next _ _ _ := .idle

/-- A thread may return unless it has an insertion to make. -/
def Stage.done (g : Stage) : Prop := ∀ r, g ≠ .cleared r

section follows

variable {α : Type} {g : Stage} {r : Bytes}

/-- A call that neither looks nor inserts. -/
def Call.plain : Call → Prop
  | .insertReportOperation _ _ _ | .hasRunningReportOp _ => False
  | .updateOperation _ _ _ state => state ≠ .running
  | _ => True

lemma Stage.done_idle : Stage.idle.done := nofun

lemma Stage.done_ready (r : Bytes) : (Stage.ready r).done := nofun

variable {c : Call}

lemma permits_of_plain (hg : g.done) (hc : c.plain) : g.permits c := by
  cases g with
  | cleared r => exact absurd rfl (hg r)
  | idle | ready r =>
    cases c with
    | insertReportOperation | hasRunningReportOp => exact hc.elim
    | updateOperation => exact hc
    | _ => trivial

/-- Only a look leads to an insertion. -/
lemma done_after (hc : ∀ r, c ≠ .hasRunningReportOp r) (reply : c.Reply) :
    (g.after c reply).done := by
  cases c with
  | hasRunningReportOp r => exact absurd rfl (hc r)
  | getRun r =>
    cases reply with
    | none => cases g <;> exact Stage.done_idle
    | some run => cases g <;> exact Stage.done_ready r
  | _ => cases g <;> exact Stage.done_idle

lemma done_after_of_plain (hc : c.plain) (reply : c.Reply) : (g.after c reply).done :=
  done_after (fun r hr => by rw [hr] at hc; exact hc) reply

lemma wp_of_plain {p : M α} (hp : p.Uses Call.plain) (hg : g.done) :
    p.wp inserting g fun g' _ => g'.done :=
  wp_invariant hp (fun _ _ hc hg => ⟨permits_of_plain hg hc,
    fun reply _ => done_after_of_plain hc reply⟩) hg

lemma wp_plain_bind {β : Type} {f : c.Reply → α} {k : α → M β} {Φ : Stage → β → Prop}
    (hc : c.plain) (hg : g.done) (hk : ∀ reply g', g'.done → (k (f reply)).wp inserting g' Φ) :
    (perform c f >>= k).wp inserting g Φ := by
  rw [wp_bind, wp_perform]
  exact ⟨permits_of_plain hg hc, fun reply _ => hk reply _ (done_after_of_plain hc reply)⟩

lemma uses_finish (operationID : Nat) (phase : OpPhase) {state : OpState} (h : state ≠ .running) :
    (finish operationID phase state).Uses Call.plain :=
  (uses_perform _ _).2 h

lemma uses_produce (r : Bytes) (operationID : Nat) : (produce r operationID).Uses Call.plain := by
  refine Prog.Uses.bind ((uses_perform _ _).2 trivial) fun generated => ?_
  rw [uses_ite]
  refine ⟨fun _ => ?_, fun _ => uses_finish _ _ (by decide)⟩
  refine Prog.Uses.bind ((uses_perform _ _).2 trivial) fun put => ?_
  cases put <;> exact uses_finish _ _ (by decide)

lemma uses_settleRun (r : Bytes) (verdict : RunPhase) : (settleRun r verdict).Uses Call.plain := by
  refine Prog.Uses.bind ((uses_perform _ _).2 trivial) fun ended => ?_
  rw [uses_ite]
  exact ⟨fun _ => (uses_perform _ _).2 trivial, fun _ => trivial⟩

lemma uses_concludeRun (r : Bytes) (verdict : RunPhase) :
    (concludeRun r verdict).Uses Call.plain := by
  refine Prog.Uses.bind ((uses_perform _ _).2 trivial) fun read => ?_
  cases read with
  | none => trivial
  | some run =>
    rw [uses_ite, uses_ite]
    refine ⟨fun _ => trivial, fun _ => ⟨fun _ => uses_settleRun r verdict, fun _ => ?_⟩⟩
    refine Prog.Uses.bind ((uses_perform _ _).2 trivial) fun begun => ?_
    rw [uses_ite]
    exact ⟨fun _ => uses_settleRun r verdict, fun _ => trivial⟩

lemma uses_failOperations (ops : List Operation) : (failOperations ops).Uses Call.plain := by
  induction ops with
  | nil => trivial
  | cons op ops ih =>
    refine Prog.Uses.bind ((uses_perform _ _).2 (by simp [Call.plain])) fun updated => ?_
    rw [uses_ite]
    exact ⟨fun _ => ih, fun _ => trivial⟩

lemma uses_failInState (state : OpState) : (failInState state).Uses Call.plain := by
  refine Prog.Uses.bind ((uses_perform _ _).2 trivial) fun read => ?_
  cases read with
  | none => trivial
  | some ops => exact uses_failOperations ops

/-- The generator inserts when its look found nothing. -/
lemma wp_reportGen (hg : g.done) : (reportGen r).wp inserting g fun g' _ => g'.done := by
  unfold reportGen
  rw [wp_bind, wp_perform]
  refine ⟨permits_of_plain hg trivial, fun read _ => ?_⟩
  have hafter := done_after_of_plain (g := g) (c := .getRun r) trivial read
  cases read with
  | none => exact hafter
  | some run =>
    have hready : g.after (.getRun r) (some run) = .ready r := by cases g <;> rfl
    simp only [id, inserting, hready]
    rw [wp_bind, wp_perform]
    refine ⟨trivial, fun found _ => ?_⟩
    rcases found with _ | _ | _
    · exact Stage.done_idle
    · have hcleared : (Stage.ready r).after (.hasRunningReportOp r) (some false) = .cleared r :=
        if_pos rfl
      simp only [id, hcleared]
      rw [wp_bind, wp_perform]
      refine ⟨⟨run.owner, run.vmID, rfl⟩, fun inserted _ => ?_⟩
      cases inserted with
      | none => exact Stage.done_idle
      | some operationID => exact wp_of_plain (uses_produce r operationID) Stage.done_idle
    · exact Stage.done_idle

/-- A look whose answer leads to no insertion of its own. -/
lemma wp_recoverReport (run : RunRow) (hg : g.done) :
    (recoverReport run).wp inserting g fun g' _ => g'.done := by
  unfold recoverReport
  rw [wp_bind, wp_perform]
  refine ⟨permits_of_plain hg trivial, fun read _ => ?_⟩
  have hidle : g.after (.getRunReport run.runID) read = .idle := by cases g <;> rfl
  cases read with
  | found | failed => exact Stage.done_idle
  | missing =>
    dsimp only [id]
    rw [wp_bind, wp_perform]
    refine ⟨trivial, fun found _ => ?_⟩
    rcases found with _ | _ | _
    · exact wp_reportGen Stage.done_idle
    · exact wp_reportGen Stage.done_idle
    · exact Stage.done_idle

lemma wp_reconcileRuns (verdict : Bytes → RunPhase) (hg : g.done) :
    (reconcileRuns verdict).wp inserting g fun g' _ => g'.done := by
  refine wp_plain_bind trivial hg fun read g hg => ?_
  cases read with
  | none => exact hg
  | some active =>
    dsimp only [id]
    rw [wp_bind]
    refine wp_mono (fun g _ hg => ?_) (wp_forEach (fun run _ g hg => ?_) hg)
    · refine wp_plain_bind trivial hg fun read g hg => ?_
      cases read with
      | none => exact hg
      | some ended => exact wp_forEach (fun run _ g hg => wp_recoverReport run hg) hg
    · refine wp_plain_bind trivial hg fun live g hg => ?_
      rw [wp_ite]
      exact ⟨fun _ => hg, fun _ => wp_of_plain (uses_concludeRun _ _) hg⟩

lemma wp_reconcile (verdict : Bytes → RunPhase) (hg : g.done) :
    (reconcile verdict).wp inserting g fun g' _ => g'.done := by
  unfold reconcile
  rw [wp_bind]
  refine wp_mono (fun g _ hg => ?_) (wp_of_plain (uses_failInState .pending) hg)
  rw [wp_ite]
  refine ⟨fun _ => ?_, fun _ => hg⟩
  rw [wp_bind]
  refine wp_mono (fun g _ hg => ?_) (wp_of_plain (uses_failInState .running) hg)
  rw [wp_ite]
  exact ⟨fun _ => wp_reconcileRuns verdict hg, fun _ => hg⟩

/-- A request looks, but does not insert. -/
lemma uses_getReport (r : Bytes) : (getReport r).Uses (Stage.permits .idle) := by
  have henqueue : (enqueueReport r).Uses (Stage.permits .idle) := by
    refine Prog.Uses.bind ((uses_perform _ _).2 trivial) fun found => ?_
    rcases found with _ | _ | _
    · trivial
    · exact (uses_perform _ _).2 trivial
    · trivial
  refine Prog.Uses.bind ((uses_perform _ _).2 trivial) fun read => ?_
  cases read with
  | none => trivial
  | some run =>
    rw [uses_ite]
    refine ⟨fun _ => ?_, fun _ => trivial⟩
    refine Prog.Uses.bind ((uses_perform _ _).2 trivial) fun report => ?_
    cases report with
    | found | failed => trivial
    | missing =>
      refine Prog.Uses.bind ((uses_perform _ _).2 trivial) fun latest => ?_
      cases latest with
      | none => exact henqueue
      | some op =>
        rw [uses_ite]
        exact ⟨fun _ => henqueue, fun _ => trivial⟩

end follows

/-- Whether a job has a generator in it. -/
def Job.inserts : Job → Bool
  | reportGen _ | reconcile _ => true
  | _ => false

def jobStages : Discipline reportJobs Stage where
  protocol j := if j.inserts then inserting else reading
  init _ := .idle
  idle := .idle
  done := Stage.done
  jobs _ := True
  done_idle := Stage.done_idle
  follows := by
    intro j _
    have hreading {p : M Unit} (hp : p.Uses (Stage.permits .idle)) :
        p.wp reading .idle fun g _ => g.done :=
      Prog.wp_of_uses hp (fun c hc => ⟨⟨rfl, hc⟩, fun _ => rfl⟩) fun _ => Stage.done_idle
    cases j with
    | createRun row => exact hreading ((Prog.uses_perform _ _).2 trivial)
    | concludeRun r verdict =>
      exact hreading ((uses_concludeRun r verdict).mono fun c hc =>
        permits_of_plain Stage.done_idle hc)
    | getReport r => exact hreading (uses_getReport r)
    | reportGen r => exact wp_reportGen Stage.done_idle
    | reconcile verdict => exact wp_reconcile verdict Stage.done_idle

/-! ## One at a time -/

def World.underWay (w : World) (runID : Bytes) : Nat :=
  w.operations.countP fun op => op.requestHash = runID && op.state = .running

/-- No generator looks while another one of the same run has looked and not inserted yet. -/
def apart (s : JobPool) : JobMove → Bool
  | .step i _ =>
    match s.next? i with
    | some (j, .hasRunningReportOp r) =>
      !j.inserts || (List.range s.threads.length).all fun i' =>
        match s.next? i' with
        | some (_, .insertReportOperation _ _ r') => r' ≠ r
        | _ => true
    | _ => true
  | _ => true

/-- A run has an operation under way, or a thread that is about to insert one, or neither. -/
structure Inv (γ : Nat → Stage) (w : World) : Prop where
  one : ∀ r, w.underWay r ≤ 1
  cleared : ∀ i r, γ i = .cleared r → w.underWay r = 0
  single : ∀ i i' r, γ i = .cleared r → γ i' = .cleared r → i = i'

section inv

variable {γ : Nat → Stage} {w w' : World} {i : Nat}

/-- No thread is about to insert. -/
lemma Inv.of_idle (hone : ∀ r, w.underWay r ≤ 1) : Inv (fun _ => .idle) w := by
  refine ⟨hone, ?_, ?_⟩
  · rintro i r ⟨⟩
  · rintro i i' r ⟨⟩

lemma Inv.mono (h : Inv γ w) (hle : ∀ r, w'.underWay r ≤ w.underWay r) : Inv γ w' where
  one r := (hle r).trans (h.one r)
  cleared i r hi := Nat.le_zero.1 ((hle r).trans_eq (h.cleared i r hi))
  single := h.single

/-- A thread that is not about to insert does not count. -/
lemma Inv.update (h : Inv γ w) {g : Stage} (hg : g.done) : Inv (update γ i g) w := by
  have hold : ∀ i' r, Function.update γ i g i' = .cleared r → γ i' = .cleared r := by
    intro i' r hi'
    by_cases hii : i' = i
    · rw [hii, update_self] at hi'
      exact absurd hi' (hg r)
    · rwa [update_of_ne hii] at hi'
  exact ⟨h.one, fun i' r hi' => h.cleared i' r (hold i' r hi'),
    fun i₁ i₂ r h₁ h₂ => h.single i₁ i₂ r (hold i₁ r h₁) (hold i₂ r h₂)⟩

variable {r : Bytes} {c : Call}

lemma Inv.look (h : Inv γ w) (hnone : w.underWay r = 0) (halone : ∀ i', γ i' = .cleared r → i' = i) :
    Inv (Function.update γ i (.cleared r)) w := by
  have hcase : ∀ i' r', Function.update γ i (.cleared r) i' = .cleared r' →
      (i' = i ∧ r' = r) ∨ γ i' = .cleared r' := by
    intro i' r' hi'
    by_cases hii : i' = i
    · rw [hii, update_self] at hi'
      cases hi'
      exact .inl ⟨hii, rfl⟩
    · rw [update_of_ne hii] at hi'
      exact .inr hi'
  refine ⟨h.one, fun i' r' hi' => ?_, fun i₁ i₂ r' h₁ h₂ => ?_⟩
  · obtain ⟨-, rfl⟩ | hold := hcase i' r' hi'
    · exact hnone
    · exact h.cleared i' r' hold
  · obtain ⟨rfl, rfl⟩ | hold₁ := hcase i₁ r' h₁
    · obtain ⟨rfl, -⟩ | hold₂ := hcase i₂ r' h₂
      · rfl
      · exact (halone i₂ hold₂).symm
    · obtain ⟨rfl, rfl⟩ | hold₂ := hcase i₂ r' h₂
      · exact halone i₁ hold₁
      · exact h.single i₁ i₂ r' hold₁ hold₂

lemma underWay_insert (w : World) (owner vmID runID r : Bytes) :
    (w.insertReportOperation owner vmID runID).1.underWay r =
      w.underWay r + if runID = r then 1 else 0 := by
  simp only [World.insertReportOperation, World.underWay, countP_append,
    countP_singleton, decide_true, Bool.and_true, decide_eq_true_eq]

lemma Inv.insert (h : Inv γ w) (hi : γ i = .cleared r) (owner vmID : Bytes) :
    Inv (Function.update γ i .idle) (w.insertReportOperation owner vmID r).1 := by
  have hold : ∀ i' r', Function.update γ i .idle i' = .cleared r' → γ i' = .cleared r' ∧ r ≠ r' := by
    intro i' r' hi'
    by_cases hii : i' = i
    · rw [hii, update_self] at hi'
      cases hi'
    · rw [update_of_ne hii] at hi'
      refine ⟨hi', ?_⟩
      rintro rfl
      exact hii (h.single i' i r hi' hi)
  refine ⟨fun r' => ?_, fun i' r' hi' => ?_, fun i₁ i₂ r' h₁ h₂ => ?_⟩
  · rw [underWay_insert]
    split
    · next heq => rw [← heq, h.cleared i r hi]
    · exact h.one r'
  · obtain ⟨hi', hne⟩ := hold i' r' hi'
    rw [underWay_insert, if_neg hne, h.cleared i' r' hi']
  · exact h.single i₁ i₂ r' (hold i₁ r' h₁).1 (hold i₂ r' h₂).1

lemma underWay_updateOperation {state : OpState} (hstate : state ≠ .running) (operationID : Nat)
    (ifState : Option OpState) (phase : OpPhase) (r : Bytes) :
    (w.updateOperation operationID ifState phase state).1.underWay r ≤ w.underWay r := by
  unfold World.updateOperation
  split
  · exact le_rfl
  split
  · exact le_rfl
  · simp only [World.underWay, Table.modify, countP_map]
    refine countP_mono_left fun op _ hop => ?_
    rw [Function.comp_apply] at hop
    split at hop
    · simp [hstate] at hop
    · exact hop

lemma underWay_exec {ok : Bool} {reply : c.Reply} (h : c.exec w ok = some (w', reply))
    (hc : Stage.permits .idle c) (r : Bytes) :
    w'.underWay r ≤ w.underWay r := by
  have hrefl : w'.operations = w.operations → w'.underWay r ≤ w.underWay r := fun heq => by
    rw [World.underWay, heq, World.underWay]
  cases c with
  | insertReportOperation => exact hc.elim
  | updateOperation operationID ifState phase state =>
    simp only [Call.exec, Option.some.injEq] at h
    split at h
    · have hle := underWay_updateOperation (w := w) hc operationID ifState phase r
      rw [h] at hle
      exact hle
    · cases h
      exact le_rfl
  | createRun row =>
    refine hrefl ?_
    simp only [Call.exec, Option.some.injEq] at h
    split at h
    · unfold World.createRun at h
      split at h <;> cases h <;> rfl
    · cases h
      rfl
  | transitionRun runID dest =>
    refine hrefl ?_
    simp only [Call.exec, Option.some.injEq] at h
    split at h
    · unfold World.transitionRun at h
      split at h
      · cases h
        rfl
      · split at h <;> cases h <;> rfl
    · cases h
      rfl
  | putRunReport runID operationID =>
    refine hrefl ?_
    simp only [Call.exec, Option.some.injEq] at h
    split at h
    · unfold World.putRunReport at h
      split at h <;> cases h <;> rfl
    · cases h
      rfl
  | _ =>
    simp only [Call.exec, Option.some.injEq, Prod.mk.injEq] at h
    exact hrefl (by rw [← h.1])

lemma underWay_of_look (h : w.hasRunningReportOp r = false) : w.underWay r = 0 := by
  rw [World.underWay, countP_eq_zero]
  intro op hop hunder
  simp only [Bool.and_eq_true, decide_eq_true_eq] at hunder
  have hstate := any_eq_false.1 h op (mem_filter.2 ⟨hop, by simp [hunder.1]⟩)
  simp [hunder.2] at hstate

lemma permits_idle_of_done {g : Stage} (hg : g.done) (h : g.permits c) :
    Stage.permits .idle c := by
  cases g with
  | cleared r => exact absurd rfl (hg r)
  | idle => exact h
  | ready r => cases c <;> exact h

/-- A call of a thread with a generator in it. -/
lemma Inv.step (h : Inv γ w) {ok : Bool} {reply : c.Reply} (hexec : c.exec w ok = some (w', reply))
    (hpermits : (γ i).permits c)
    (halone : ∀ r, c = .hasRunningReportOp r → ∀ i', γ i' = .cleared r → i' = i) :
    Inv (Function.update γ i ((γ i).after c reply)) w' := by
  by_cases hdone : (γ i).done
  · have hmono := h.mono (underWay_exec hexec (permits_idle_of_done hdone hpermits))
    by_cases hlook : ∃ r, c = .hasRunningReportOp r
    · obtain ⟨r, rfl⟩ := hlook
      obtain ⟨rfl, rfl⟩ := hexec
      generalize hfound : (if ok then some (w.hasRunningReportOp r) else none) = found
      cases hg : γ i with
      | cleared r' => exact absurd hg (hdone r')
      | idle => exact h.update Stage.done_idle
      | ready r' =>
        rcases found with _ | _ | _
        · exact h.update Stage.done_idle
        · have hnone : w.hasRunningReportOp r = false := by
            cases ok
            · cases hfound
            · exact Option.some.inj hfound
          by_cases hr : r = r'
          · subst hr
            rw [Stage.after, if_pos rfl]
            exact h.look (underWay_of_look hnone) (halone r rfl)
          · rw [Stage.after, if_neg hr]
            exact h.update Stage.done_idle
        · exact h.update Stage.done_idle
    · exact hmono.update (done_after (fun r hr => hlook ⟨r, hr⟩) reply)
  · -- what is permitted is the insertion
    obtain ⟨r, hg⟩ : ∃ r, γ i = .cleared r := by
      simpa [Stage.done] using hdone
    rw [hg] at hpermits ⊢
    obtain ⟨owner, vmID, rfl⟩ := hpermits
    simp only [Call.exec] at hexec
    split at hexec
    · cases hexec
      exact h.insert hg owner vmID
    · cases hexec
      exact h.update Stage.done_idle

end inv

lemma next_of_cleared {γ : Nat → Stage} {s : JobPool} (h : jobStages.Coupled γ s) {i : Nat}
    {r : Bytes} (hi : γ i = .cleared r) :
    i < s.threads.length ∧ ∃ j owner vmID, s.next? i = some (j, .insertReportOperation owner vmID r) := by
  have hlt : i < s.threads.length := by
    by_contra hge
    have hidle := h.idle i (by omega)
    rw [hi] at hidle
    cases hidle
  obtain ⟨⟨j, p⟩, hthread⟩ : ∃ t, s.threads[i]? = some t := ⟨_, List.getElem?_eq_getElem hlt⟩
  have hfollows := h.follows hthread
  refine ⟨hlt, ?_⟩
  rw [hi] at hfollows
  cases p with
  | ret a => exact absurd rfl (hfollows r)
  | call c k =>
    have hpermits := hfollows.1
    by_cases hj : j.inserts = true
    · simp only [jobStages, hj, if_true] at hpermits
      obtain ⟨owner, vmID, rfl⟩ := hpermits
      exact ⟨j, owner, vmID, Pool.next?_eq_some hthread⟩
    · simp only [jobStages, hj] at hpermits
      cases hpermits.1

lemma keeps_inv : jobStages.Keeps (fun s a => apart s a = true) fun γ s => Inv γ s.world where
  start := fun _ hK _ _ => ⟨trivial, hK.update Stage.done_idle⟩
  crash := fun hK _ _ => ⟨trivial, (Inv.of_idle hK.one).update Stage.done_idle⟩
  step := by
    intro γ s i ok j c k w reply hcoupled hK hapart hthread hguarantee hexec
    have hcalled : Inv (update γ i ((jobStages.protocol j).next (γ i) c reply)) w := by
      by_cases hj : j.inserts = true
      · simp only [jobStages, hj, if_true] at hguarantee ⊢
        refine hK.step hexec hguarantee ?_
        rintro r rfl i' hi'
        -- a thread that has looked is about to insert, which the condition excludes
        obtain ⟨hlt, j', owner, vmID, hnext⟩ := next_of_cleared hcoupled hi'
        simp only [apart, Pool.next?_eq_some hthread, hj, Bool.not_true, Bool.false_or,
          all_eq_true, mem_range] at hapart
        have hne := hapart i' hlt
        simp [hnext] at hne
      · simp only [jobStages, hj] at hguarantee ⊢
        exact (hK.mono (underWay_exec hexec hguarantee.2)).update Stage.done_idle
    refine ⟨?_, hcalled, fun j' _ => ⟨trivial, hcalled.update Stage.done_idle⟩⟩
    by_cases hj : j.inserts = true <;> simp [jobStages, hj, inserting, reading]

/-- **One report job at a time.**  As long as no generator looks while another one of the same run
has looked and not inserted yet, a run has at most one operation under way, whatever runs are
concluded, reports asked for and processes started. -/
theorem one_report_job {as : List JobMove} {s : JobPool}
    (hrun : run reportJobs.step (Pool.quiet World.new) as = some s)
    (hapart : Along reportJobs.step (fun s a => apart s a = true) (Pool.quiet World.new) as)
    (runID : Bytes) : s.world.underWay runID ≤ 1 := by
  have hnew : Inv (fun _ => .idle) World.new := .of_idle fun r => Nat.zero_le 1
  obtain ⟨γ, -, hinv⟩ := keeps_inv.run_coupled
    ⟨_, Discipline.coupled_quiet (D := jobStages) _, hnew⟩ hapart hrun
  exact hinv.one runID

/-! ## Two generators -/

def sampleRow : RunRow := ⟨ascii "run-1", ascii "owner", ascii "vm-1", .running⟩

/-- A run that is created and concluded, and a request for its report. -/
def sampleStart : List JobMove :=
  [Move.start (.createRun sampleRow), .step 0 true,
   .start (.concludeRun sampleRow.runID .succeeded), .step 1 true, .step 1 true, .step 1 true,
   .step 1 true,
   .start (.getReport sampleRow.runID), .step 3 true, .step 3 true, .step 3 true, .step 3 true,
   .step 3 true]

/-- One generator inserts before the other one looks. -/
theorem one_report_job_apart :
    ∃ s, run reportJobs.step (Pool.quiet World.new)
        (sampleStart ++ [.step 2 true, .step 2 true, .step 2 true, .step 4 true, .step 4 true]) =
        some s ∧ s.world.underWay sampleRow.runID = 1 ∧
      ∀ runID, s.world.underWay runID ≤ 1 := by
  exact ⟨_, yields (by decide +kernel), by decide +kernel,
    one_report_job (yields _) (by decide +kernel)⟩

/-- Both generators look, and both insert. -/
theorem two_report_jobs :
    ∃ s, run reportJobs.step (Pool.quiet World.new)
        (sampleStart ++ [.step 2 true, .step 2 true, .step 4 true, .step 4 true, .step 2 true,
          .step 4 true]) = some s ∧ s.world.underWay sampleRow.runID = 2 := by
  decide +kernel

end Observatory.Report.Jobs
