/-
# The spool as a system

One spool directory with the writers that come and go on it and the importer that reads it
into the event store, as a machine whose steps are single file operations and single store
transactions. A writer's call is taken apart into its operations, a cycle of the importer into
its places (`Pc`); either may be stopped between any two steps. Writes and removals take
effect at once, a file is read in one step up to the record that is asked for, and recovery
scans a segment and cuts its torn tail in one step.
-/
import Observatory.Lib.Dir
import Observatory.Spool.Importer
import Observatory.Spool.Layout
import Observatory.Spool.Writer

namespace Observatory.Spool

open Lib Events

/-! ## State -/

/-- What the model leaves open: the conversion of numbers, the two hashes and the directory. -/
structure Setup (H : Type) where
  conv : FloatText
  hash : Bytes → H
  sha256 : Bytes → Bytes
  vmDir : Bytes

def Setup.gapSource {H : Type} (P : Setup H) : Bytes := gapSourceInstanceID P.sha256 P.vmDir

/-- The writer's side: no writer, one that has listed the directory and not yet read the cursor,
one in a call with operations left to do, or one between calls. -/
inductive WriterSide where
  | absent
  | listed (cfg : WriterCfg) (found : Option Nat)
  | busy (ops : List FileOp) (next : Option Writer) (ack : Option Bytes)
  | ready (w : Writer)

/-- The system, with histories that no step reads: the records whose append returned nil, every
record that came to stand in a segment, every cursor that was persisted, the segments found
corrupt in the present cycle, and the gap records that were handled. -/
structure System (H : Type) where
  disk : Dir Bytes
  cursorFile : Option Bytes
  store : Store H
  pc : Pc
  writer : WriterSide
  acked : List Bytes
  log : List (Nat × Bytes)
  cursors : List Cursor
  detected : List Nat
  recorded : List (Bytes × Bytes × Bytes)

def System.init {H : Type} (store : Store H) : System H where
  disk := .empty
  cursorFile := none
  store := store
  pc := .idle
  writer := .absent
  acked := []
  log := []
  cursors := []
  detected := []
  recorded := []

/-! ## File operations -/

/-- Cut a file to a size, or fill it up with zeros. -/
def truncateTo (size : Nat) (file : Bytes) : Bytes :=
  file.take size ++ List.replicate (size - file.length) 0

def overwrite (offset : Nat) (bytes file : Bytes) : Bytes :=
  truncateTo offset file ++ bytes ++ file.drop (offset + bytes.length)

def FileOp.apply (d : Dir Bytes) : FileOp → Dir Bytes
  | .create k => d.create k []
  | .write k bytes => d.modify k (· ++ bytes)
  | .truncate k size => d.modify k (truncateTo size)
  | .writeAt k offset bytes => d.modify k (overwrite offset bytes)
  | .remove k => d.erase k
  | .status _ => d

def recordsAt (d : Dir Bytes) (k : Nat) : List Bytes := (d.get k).elim [] records

/-- The records an operation adds to the segment it works on. -/
def FileOp.added (d : Dir Bytes) (op : FileOp) : List (Nat × Bytes) :=
  match op with
  | .write k _ =>
    ((recordsAt (op.apply d) k).drop (recordsAt d k).length).map fun b => (k, b)
  | _ => []

/-! ## Steps of the importer -/

variable {H : Type} [DecidableEq H] (P : Setup H)

/-- What the surroundings give one step of a cycle: whether the transactions go through, the
clock and the modification time of a file. -/
structure Input where
  dbOk : Bool
  healthDbOk : Bool
  now : Instant
  mtime : Instant

def storeAppend (s : System H) (i : Input) (env : Envelope) : Store H × Store.Reply :=
  s.store.append P.hash ⟨env, i.dbOk, i.healthDbOk, i.now⟩

/-- The cycle returns with an error. -/
def abort (s : System H) : System H := { s with pc := .idle }

/-- Remove a segment and go on. -/
def removeStep (s : System H) (k : Nat) (pc : Pc) : System H :=
  if (s.disk.get k).isSome then { s with disk := s.disk.erase k, pc := pc } else abort s

/-- Scan the next segment. -/
def recoverStep (s : System H) (i : Input) (k : Nat) (todo : List Nat) (report : Report) :
    System H :=
  match s.disk.get k with
  | none => abort s
  | some file =>
    match recoverSegment file todo.isEmpty with
    | .error _ => abort s
    | .ok r =>
      if r.headerless = true then
        -- the creation of the newest segment may be under way
        if todo.isEmpty = true then { s with pc := .recovering todo report }
        else { s with pc := .discarding k todo report }
      else
        let report := report.add P.gapSource k r.corruptCount i.mtime
        { s with
          disk := s.disk.modify k fun _ => r.file
          pc := .recovering todo report
          detected := if 0 < r.corruptCount then s.detected ++ [k] else s.detected }

/-- The key and the segment name of a gap record. -/
def gapEntry (env : Envelope) : Bytes × Bytes × Bytes :=
  ((((env.data.getD []).lookup (ascii "affected_segment")).elim [] fun j => (j.decodeText []).getD []),
    env.sourceInstanceID, env.sourceSeq)

/-- Append a gap record; a conflict with the one already there is as good as a duplicate. -/
def recordStep (s : System H) (i : Input) (cur : Cursor) (g : Envelope) (gaps : List Envelope)
    (todo : List Nat) : System H :=
  let r := storeAppend P s i g
  match r.2.err with
  | none | some (.integrityFailure _ _) =>
    { s with
      store := r.1
      pc := .recording cur gaps todo
      recorded := s.recorded ++ [gapEntry g] }
  | some _ => abort { s with store := r.1 }

/-- Turn to the next segment. -/
def walkStep (s : System H) (cur : Cursor) (k : Nat) (todo : List Nat) : System H :=
  match s.disk.get k with
  | none => abort s
  | some file =>
    match place cur k with
    | .past =>
      match countSegmentRecords P.conv file with
      | .error _ => abort s
      | .ok n => { s with pc := .counted cur k n todo }
    | _ =>
      match readSegment file with
      | .error _ => abort s
      | .ok rest =>
        { s with pc := .reading cur ⟨k, file.length - rest.length, 0, resumeFrom cur k, false⟩ todo }

/-- What the reader has before it. A file that a writer removed is a failed creation: nothing
follows its header. -/
def Reading.bytes (r : Reading) (d : Dir Bytes) : Option Bytes :=
  if r.detached then some [] else (d.get r.segment).map (·.drop r.offset)

/-- Read the next record; unless it is one to skip, commit it. -/
def readStep (s : System H) (i : Input) (cur : Cursor) (r : Reading) (todo : List Nat) :
    System H :=
  match r.bytes s.disk with
  | none => abort s
  | some bs =>
    match SegmentIter.next P.conv bs with
    | .eof => { s with pc := .stopped cur r.segment r.recIdx true todo }
    | .corruptRecord => { s with pc := .stopped cur r.segment r.recIdx false todo }
    | .envelope env rest =>
      let r' := { r with offset := r.offset + (bs.length - rest.length) }
      if r.recIdx < r.skip then { s with pc := .reading cur { r' with recIdx := r.recIdx + 1 } todo }
      else
        let a := storeAppend P s i env
        match a.2.err with
        | none => { s with store := a.1, pc := .committed cur r' todo }
        | some _ => abort { s with store := a.1 }

/-- Write the cursor for the record that was committed. -/
def cursorStep (s : System H) (r : Reading) (todo : List Nat) : System H :=
  let cur : Cursor := ⟨segmentName r.segment, r.recIdx⟩
  { s with
    cursorFile := some cur.marshal
    cursors := s.cursors ++ [cur]
    pc := .reading cur { r with recIdx := r.recIdx + 1 } todo }

/-- Look for the end marker, and go on to remove the segment when everything allows it. -/
def probeStep (s : System H) (cur : Cursor) (k : Nat) (mayPrune : Bool) (todo : List Nat) :
    System H :=
  match (s.disk.get k).bind segmentHasEndMarker with
  | none => abort s
  | some closed =>
    { s with pc := if (mayPrune && closed) = true then .pruning cur k todo else .walking cur todo }

/-- The next step of the cycle. Record indices past the range of an int are not modelled. -/
def importStep (s : System H) (i : Input) : Option (System H) :=
  match s.pc with
  | .idle | .done => none
  | .recovering [] report =>
    some { s with pc := if report.segments.isEmpty then .done else .loading report }
  | .recovering (k :: todo) report => some (recoverStep P s i k todo report)
  | .discarding k todo report => some (removeStep s k (.recovering todo report))
  | .loading report =>
    match readCursor s.cursorFile with
    | .error _ => some (abort s)
    | .ok cur => some { s with pc := .recording cur report.gaps report.segments }
  | .recording cur [] todo => some { s with pc := .walking cur todo }
  | .recording cur (g :: gaps) todo => some (recordStep P s i cur g gaps todo)
  | .walking _ [] => some { s with pc := .done }
  | .walking cur (k :: todo) => some (walkStep P s cur k todo)
  | .counted cur k n todo => some (probeStep s cur k n.isSome todo)
  | .reading cur r todo => some (readStep P s i cur r todo)
  | .committed _ r todo => if r.recIdx < 2 ^ 63 then some (cursorStep s r todo) else none
  | .stopped cur k _ reachedEOF todo => some (probeStep s cur k reachedEOF todo)
  | .pruning cur k todo => some (removeStep s k (.walking cur todo))

/-! ## Steps of the system -/

inductive Action where
  /-- A cycle begins: the directory is listed. -/
  | start
  | importer (i : Input)
  /-- The next operation of the cycle fails. -/
  | fail
  /-- The importer's process ends, and the store is opened again. -/
  | kill (instanceID : Bytes)
  /-- A writer is opened: it lists the directory. -/
  | openWriter (cfg : WriterCfg)
  /-- It reads the cursor and creates its first segment. -/
  | issue (create : CreateOutcome) (now : Instant)
  | append (t : Faults) (env : Envelope)
  | close (t : Faults)
  /-- The next file operation of the writer's call. -/
  | op
  /-- The call returns. -/
  | ret
  /-- The writer's process ends. -/
  | stopWriter

def opStep (s : System H) (op : FileOp) (ops : List FileOp) (next : Option Writer)
    (ack : Option Bytes) : System H :=
  { s with
    disk := op.apply s.disk
    writer := .busy ops next ack
    log := s.log ++ op.added s.disk
    pc :=
      match op with
      | .remove k => s.pc.detach k
      | _ => s.pc }

def step (s : System H) : Action → Option (System H)
  | .start =>
    if s.pc.resting then some { s with pc := .recovering s.disk.keys ⟨[], []⟩, detected := [] }
    else none
  | .importer i => importStep P s i
  | .fail => if s.pc.resting then none else some (abort s)
  | .kill instanceID =>
    some { abort s with store := s.store.step P.hash (.reopen instanceID) }
  | .openWriter cfg =>
    match s.writer with
    | .absent => some { s with writer := .listed cfg (newestListed s.disk.keys) }
    | _ => none
  | .issue create now =>
    match s.writer with
    | .listed cfg found =>
      match nextSegmentIndex found s.cursorFile with
      | .error _ => some { s with writer := .absent }
      | .ok idx =>
        let r := Writer.openWriter cfg idx create now
        some { s with writer := .busy r.2 r.1 none }
    | _ => none
  | .append t env =>
    match s.writer with
    | .ready w =>
      let r := w.append t env
      some { s with
        writer := .busy r.ops (some r.writer) (if r.err.isNone then env.marshal else none) }
    | _ => none
  | .close t =>
    match s.writer with
    | .ready w => some { s with writer := .busy (w.close t).ops (some (w.close t).writer) none }
    | _ => none
  | .op =>
    match s.writer with
    | .busy (op :: ops) next ack => some (opStep s op ops next ack)
    | _ => none
  | .ret =>
    match s.writer with
    | .busy [] next ack =>
      some { s with
        writer := next.elim .absent .ready
        acked := s.acked ++ ack.toList }
    | _ => none
  | .stopWriter => some { s with writer := .absent }

/-- A small instance, for runs that are evaluated. -/
def demo : Setup Bytes := ⟨.smallNumerals, id, id, ascii "/spool/vm"⟩

def demoInit : System Bytes :=
  System.init (Store.new Bytes (ascii "22222222-2222-2222-2222-222222222222"))

def demoCfg : WriterCfg := ⟨ascii "vm", ascii "runner", 4096, 0⟩

def demoTime : Instant := ⟨63000000000, 0, Instant.zero_nsec_lt⟩

def demoInput : Input := ⟨true, true, demoTime, demoTime⟩

/-! ## What one step of a cycle can do -/

/-- The steps of a cycle, one constructor for each way through it. -/
inductive Imported (s : System H) (i : Input) : System H → Prop
  | aborted : Imported s i (abort s)
  | recovered {report} (hpc : s.pc = .recovering [] report) :
      Imported s i { s with pc := if report.segments.isEmpty then .done else .loading report }
  | skipped {k report file} (hpc : s.pc = .recovering [k] report) (hfile : s.disk.get k = some file)
      (hline : readLine file = none) : Imported s i { s with pc := .recovering [] report }
  | headerless {k j todo report file} (hpc : s.pc = .recovering (k :: j :: todo) report)
      (hfile : s.disk.get k = some file) (hline : readLine file = none) :
      Imported s i { s with pc := .discarding k (j :: todo) report }
  | scanned {k todo report file r} (hpc : s.pc = .recovering (k :: todo) report)
      (hfile : s.disk.get k = some file) (hrec : recoverSegment file todo.isEmpty = .ok r)
      (hhead : r.headerless = false) :
      Imported s i
        { s with
          disk := s.disk.modify k fun _ => r.file
          pc := .recovering todo (report.add P.gapSource k r.corruptCount i.mtime)
          detected := if 0 < r.corruptCount then s.detected ++ [k] else s.detected }
  | discarded {k todo report} (hpc : s.pc = .discarding k todo report)
      (hfile : (s.disk.get k).isSome = true) :
      Imported s i { s with disk := s.disk.erase k, pc := .recovering todo report }
  | loaded {report cur} (hpc : s.pc = .loading report) (hcur : readCursor s.cursorFile = .ok cur) :
      Imported s i { s with pc := .recording cur report.gaps report.segments }
  | gapsDone {cur todo} (hpc : s.pc = .recording cur [] todo) :
      Imported s i { s with pc := .walking cur todo }
  | gapRecorded {cur g gaps todo} (hpc : s.pc = .recording cur (g :: gaps) todo)
      (herr : (storeAppend P s i g).2.err = none ∨
        ∃ source seq, (storeAppend P s i g).2.err = some (.integrityFailure source seq)) :
      Imported s i
        { s with
          store := (storeAppend P s i g).1
          pc := .recording cur gaps todo
          recorded := s.recorded ++ [gapEntry g] }
  | gapRefused {cur g gaps todo} (hpc : s.pc = .recording cur (g :: gaps) todo)
      (herr : (storeAppend P s i g).2.err ≠ none) :
      Imported s i (abort { s with store := (storeAppend P s i g).1 })
  | finished {cur} (hpc : s.pc = .walking cur []) : Imported s i { s with pc := .done }
  | past {cur k todo file n} (hpc : s.pc = .walking cur (k :: todo))
      (hfile : s.disk.get k = some file) (hplace : place cur k = .past)
      (hcount : countSegmentRecords P.conv file = .ok n) :
      Imported s i { s with pc := .counted cur k n todo }
  | opened {cur k todo file rest} (hpc : s.pc = .walking cur (k :: todo))
      (hfile : s.disk.get k = some file) (hplace : place cur k ≠ .past)
      (hopen : readSegment file = .ok rest) :
      Imported s i
        { s with
          pc := .reading cur ⟨k, file.length - rest.length, 0, resumeFrom cur k, false⟩ todo }
  | probedPast {cur k n todo file closed} (hpc : s.pc = .counted cur k n todo)
      (hfile : s.disk.get k = some file) (hmark : segmentHasEndMarker file = some closed) :
      Imported s i
        { s with
          pc := if (n.isSome && closed) = true then .pruning cur k todo else .walking cur todo }
  | atEnd {cur r todo bs} (hpc : s.pc = .reading cur r todo) (hbs : r.bytes s.disk = some bs)
      (hnext : SegmentIter.next P.conv bs = .eof) :
      Imported s i { s with pc := .stopped cur r.segment r.recIdx true todo }
  | atCorrupt {cur r todo bs} (hpc : s.pc = .reading cur r todo) (hbs : r.bytes s.disk = some bs)
      (hnext : SegmentIter.next P.conv bs = .corruptRecord) :
      Imported s i { s with pc := .stopped cur r.segment r.recIdx false todo }
  | passed {cur r todo bs env rest} (hpc : s.pc = .reading cur r todo)
      (hbs : r.bytes s.disk = some bs) (hnext : SegmentIter.next P.conv bs = .envelope env rest)
      (hskip : r.recIdx < r.skip) :
      Imported s i
        { s with
          pc := .reading cur
            { r with offset := r.offset + (bs.length - rest.length), recIdx := r.recIdx + 1 } todo }
  | commit {cur r todo bs env rest} (hpc : s.pc = .reading cur r todo)
      (hbs : r.bytes s.disk = some bs) (hnext : SegmentIter.next P.conv bs = .envelope env rest)
      (hskip : ¬ r.recIdx < r.skip) (herr : (storeAppend P s i env).2.err = none) :
      Imported s i
        { s with
          store := (storeAppend P s i env).1
          pc := .committed cur { r with offset := r.offset + (bs.length - rest.length) } todo }
  | refused {cur r todo bs env rest} (hpc : s.pc = .reading cur r todo)
      (hbs : r.bytes s.disk = some bs) (hnext : SegmentIter.next P.conv bs = .envelope env rest)
      (hskip : ¬ r.recIdx < r.skip) (herr : (storeAppend P s i env).2.err ≠ none) :
      Imported s i (abort { s with store := (storeAppend P s i env).1 })
  | wroteCursor {cur r todo} (hpc : s.pc = .committed cur r todo) (hlt : r.recIdx < 2 ^ 63) :
      Imported s i (cursorStep s r todo)
  | probed {cur k n reachedEOF todo file closed} (hpc : s.pc = .stopped cur k n reachedEOF todo)
      (hfile : s.disk.get k = some file) (hmark : segmentHasEndMarker file = some closed) :
      Imported s i
        { s with
          pc := if (reachedEOF && closed) = true then .pruning cur k todo else .walking cur todo }
  | pruned {cur k todo} (hpc : s.pc = .pruning cur k todo)
      (hfile : (s.disk.get k).isSome = true) :
      Imported s i { s with disk := s.disk.erase k, pc := .walking cur todo }

variable {P}

lemma recoverSegment_headerless {file : Bytes} {isNewest : Bool} {r : Recovered}
    (h : recoverSegment file isNewest = .ok r) :
    r.headerless = true ↔ readLine file = none := by
  rcases recoverSegment_cases h with ⟨hline, rfl⟩ | ⟨line, rest, hline, hhead, -⟩
  · simp [hline]
  · simp [hline, hhead]

variable {cur : Cursor} {i : Input} {todo : List Nat} {s : System H}

lemma recoverStep_cases {k : Nat} {report : Report} (hpc : s.pc = .recovering (k :: todo) report) :
    Imported P s i (recoverStep P s i k todo report) := by
  unfold recoverStep
  cases hfile : s.disk.get k with
  | none => exact .aborted
  | some file =>
    dsimp only
    cases hrec : recoverSegment file todo.isEmpty with
    | error err => exact .aborted
    | ok r =>
      dsimp only
      by_cases hhead : r.headerless = true
      · have hline := (recoverSegment_headerless hrec).1 hhead
        rw [if_pos hhead]
        cases todo with
        | nil => exact .skipped hpc hfile hline
        | cons j todo => exact .headerless hpc hfile hline
      · rw [if_neg hhead]
        exact .scanned hpc hfile hrec (by simpa using hhead)

lemma recordStep_cases {g : Envelope} {gaps : List Envelope}
    (hpc : s.pc = .recording cur (g :: gaps) todo) :
    Imported P s i (recordStep P s i cur g gaps todo) := by
  unfold recordStep
  dsimp only
  split
  · next herr => exact .gapRecorded hpc (.inl herr)
  · next source seq herr => exact .gapRecorded hpc (.inr ⟨source, seq, herr⟩)
  · next err _ herr => exact .gapRefused hpc (by rw [herr]; simp)

lemma walkStep_cases {k : Nat} (hpc : s.pc = .walking cur (k :: todo)) :
    Imported P s i (walkStep P s cur k todo) := by
  unfold walkStep
  cases hfile : s.disk.get k with
  | none => exact .aborted
  | some file =>
    dsimp only
    split
    · next hplace =>
      cases hcount : countSegmentRecords P.conv file with
      | error err => exact .aborted
      | ok n => exact .past hpc hfile hplace hcount
    · next hplace =>
      cases hopen : readSegment file with
      | error err => exact .aborted
      | ok rest => exact .opened hpc hfile hplace hopen

lemma readStep_cases {r : Reading} (hpc : s.pc = .reading cur r todo) :
    Imported P s i (readStep P s i cur r todo) := by
  unfold readStep
  cases hbs : r.bytes s.disk with
  | none => exact .aborted
  | some bs =>
    dsimp only
    cases hnext : SegmentIter.next P.conv bs with
    | eof => exact .atEnd hpc hbs hnext
    | corruptRecord => exact .atCorrupt hpc hbs hnext
    | envelope env rest =>
      dsimp only
      by_cases hskip : r.recIdx < r.skip
      · rw [if_pos hskip]
        exact .passed hpc hbs hnext hskip
      · rw [if_neg hskip]
        cases herr : (storeAppend P s i env).2.err with
        | none => exact .commit hpc hbs hnext hskip herr
        | some err => exact .refused hpc hbs hnext hskip (by rw [herr]; simp)

lemma importStep_cases {s' : System H} (h : importStep P s i = some s') :
    Imported P s i s' := by
  unfold importStep at h
  split at h
  · cases h
  · cases h
  · next report hpc =>
    cases h
    exact .recovered hpc
  · next k todo report hpc =>
    cases h
    exact recoverStep_cases hpc
  · next k todo report hpc =>
    cases h
    unfold removeStep
    split
    · next hfile => exact .discarded hpc hfile
    · exact .aborted
  · next report hpc =>
    split at h
    · cases h
      exact .aborted
    · next cur hcur =>
      cases h
      exact .loaded hpc hcur
  · next cur todo hpc =>
    cases h
    exact .gapsDone hpc
  · next cur g gaps todo hpc =>
    cases h
    exact recordStep_cases hpc
  · next cur hpc =>
    cases h
    exact .finished hpc
  · next cur k todo hpc =>
    cases h
    exact walkStep_cases hpc
  · next cur k n todo hpc =>
    cases h
    unfold probeStep
    cases hfile : s.disk.get k with
    | none => exact .aborted
    | some file =>
      cases hmark : segmentHasEndMarker file with
      | none => simpa [hmark] using Imported.aborted
      | some closed => simpa [hmark] using Imported.probedPast hpc hfile hmark
  · next cur r todo hpc =>
    cases h
    exact readStep_cases hpc
  · next cur r todo hpc =>
    split at h
    · next hlt =>
      cases h
      exact .wroteCursor hpc hlt
    · cases h
  · next cur k n reachedEOF todo hpc =>
    cases h
    unfold probeStep
    cases hfile : s.disk.get k with
    | none => exact .aborted
    | some file =>
      cases hmark : segmentHasEndMarker file with
      | none => simpa [hmark] using Imported.aborted
      | some closed => simpa [hmark] using Imported.probed hpc hfile hmark
  · next cur k todo hpc =>
    cases h
    unfold removeStep
    split
    · next hfile => exact .pruned hpc hfile
    · exact .aborted

/-! ## What one step of the system can do -/

/-- The steps of a writer that touch no file, with its side and the acknowledged records after
them. -/
inductive WriterStep (s : System H) : Action → WriterSide → List Bytes → Prop
  | listed {cfg} (hw : s.writer = .absent) :
      WriterStep s (.openWriter cfg) (.listed cfg (newestListed s.disk.keys)) s.acked
  | unreadable {create now cfg found} (hw : s.writer = .listed cfg found) :
      WriterStep s (.issue create now) .absent s.acked
  | issued {create now cfg found idx} (hw : s.writer = .listed cfg found)
      (hidx : nextSegmentIndex found s.cursorFile = .ok idx) :
      WriterStep s (.issue create now)
        (.busy (Writer.openWriter cfg idx create now).2 (Writer.openWriter cfg idx create now).1
          none) s.acked
  | append {t env w} (hw : s.writer = .ready w) :
      WriterStep s (.append t env)
        (.busy (w.append t env).ops (some (w.append t env).writer)
          (if (w.append t env).err.isNone then env.marshal else none)) s.acked
  | close {t w} (hw : s.writer = .ready w) :
      WriterStep s (.close t) (.busy (w.close t).ops (some (w.close t).writer) none) s.acked
  | ret {next ack} (hw : s.writer = .busy [] next ack) :
      WriterStep s .ret (next.elim .absent .ready) (s.acked ++ ack.toList)
  | stop : WriterStep s .stopWriter .absent s.acked

variable (P) in
/-- The steps of the system: a cycle begins, goes on or ends, or a writer takes a step. -/
inductive Stepped (s : System H) : Action → System H → Prop
  | start (hrest : s.pc.resting = true) :
      Stepped s .start { s with pc := .recovering s.disk.keys ⟨[], []⟩, detected := [] }
  | importer {i s'} (himp : Imported P s i s') : Stepped s (.importer i) s'
  | fail : Stepped s .fail (abort s)
  | kill {instanceID} : Stepped s (.kill instanceID)
      { abort s with store := s.store.step P.hash (.reopen instanceID) }
  | op {op ops next ack} (hw : s.writer = .busy (op :: ops) next ack) :
      Stepped s .op (opStep s op ops next ack)
  | writer {a side acked} (hside : WriterStep s a side acked) :
      Stepped s a { s with writer := side, acked := acked }

lemma step_cases {s' : System H} {a : Action} (h : step P s a = some s') : Stepped P s a s' := by
  cases a with
  | start =>
    simp only [step] at h
    split at h
    · next hrest => exact Option.some.inj h ▸ .start hrest
    · cases h
  | importer i => exact .importer (importStep_cases h)
  | fail =>
    simp only [step] at h
    split at h
    · cases h
    · exact Option.some.inj h ▸ .fail
  | kill instanceID => exact Option.some.inj h ▸ .kill
  | openWriter cfg =>
    simp only [step] at h
    split at h
    · next hw => exact Option.some.inj h ▸ .writer (.listed hw)
    · cases h
  | issue create now =>
    simp only [step] at h
    split at h
    · next cfg found hw =>
      split at h
      · exact Option.some.inj h ▸ .writer (.unreadable hw)
      · next idx hidx => exact Option.some.inj h ▸ .writer (.issued hw hidx)
    · cases h
  | append t env =>
    simp only [step] at h
    split at h
    · next w hw => exact Option.some.inj h ▸ .writer (.append hw)
    · cases h
  | close t =>
    simp only [step] at h
    split at h
    · next w hw => exact Option.some.inj h ▸ .writer (.close hw)
    · cases h
  | op =>
    simp only [step] at h
    split at h
    · next op ops next ack hw => exact Option.some.inj h ▸ .op hw
    · cases h
  | ret =>
    simp only [step] at h
    split at h
    · next next ack hw => exact Option.some.inj h ▸ .writer (.ret hw)
    · cases h
  | stopWriter => exact Option.some.inj h ▸ .writer .stop

end Observatory.Spool
