/-
# The importer

What one import cycle of a VM's spool computes between its file operations, and the places
in the cycle where a file operation or a store transaction comes next. A cycle recovers the
segments, loads the cursor, records a gap for each corrupt segment, and walks the segments in
order: past ones are counted, the others are read from the cursor on; for each record the
store commits, the cursor is written, and a segment that was read to its end and has its end
marker is removed.
-/
import Observatory.Spool.Cursor
import Observatory.Spool.Recovery
import Observatory.Store.Append

namespace Observatory.Spool

open Lib Events

/-! ## Gap records -/

/-- Two hexadecimal digits for each byte. -/
def hexText (bs : Bytes) : Bytes :=
  bs.flatMap fun b => [hexDigit (b.toNat / 16), hexDigit (b.toNat % 16)]

/-- The stable source of the gap records of a directory: a hash of its path in the shape of a
UUID. -/
def gapSourceInstanceID (sha256 : Bytes → Bytes) (vmDir : Bytes) : Bytes :=
  let b := (sha256 (ascii "spool.recovery.gap:" ++ vmDir)).take 16
  let b := (b.modify 6 fun x => x &&& 0x0F ||| 0x40).modify 8 fun x => x &&& 0x3F ||| 0x80
  hexText (b.take 4) ++ 0x2D :: (hexText ((b.drop 4).take 2) ++
    0x2D :: (hexText ((b.drop 6).take 2) ++ 0x2D :: (hexText ((b.drop 8).take 2) ++
      0x2D :: hexText (b.drop 10))))

/-- The gap record of the corrupt segment `k`, at `position` among the reported segments. -/
def buildGapEnvelope (source : Bytes) (k position corruptCount : Nat) (mtime : Instant) :
    Envelope :=
  { Envelope.zero with
    schemaVersion := 1
    sourceInstanceID := source
    sourceSeq := formatUint position
    kind := ascii "spool.recovery_gap"
    provenance := .hostObserved
    sensor := ascii "spool.recovery"
    hostReceivedAt := mtime
    quality :=
      { Store.notApplicableQuality with
        notes := [ascii "synthetic gap record emitted by spool recovery"] }
    data := some (mkMap
      [(ascii "affected_segment", .str (segmentName k)),
       (ascii "corrupt_record_count", .num (formatUint corruptCount))]) }

/-- What recovery reports: the segments to import, in order, and the gap records. -/
structure Report where
  segments : List Nat
  gaps : List Envelope

def Report.add (report : Report) (source : Bytes) (k corruptCount : Nat) (mtime : Instant) :
    Report where
  segments := report.segments ++ [k]
  gaps :=
    if 0 < corruptCount then
      report.gaps ++ [buildGapEnvelope source k report.segments.length corruptCount mtime]
    else report.gaps

/-! ## Segments and the cursor -/

/-- Where a segment stands relative to the cursor. -/
inductive Place where
  | past
  | current
  | future
deriving DecidableEq

def place (cur : Cursor) (k : Nat) : Place :=
  if cur.segment ≠ [] ∧ bytesLt (segmentName k) cur.segment = true then .past
  else if cur.segment = segmentName k then .current
  else .future

/-- The number of records to skip at the front of a segment that is not past. -/
def resumeFrom (cur : Cursor) (k : Nat) : Int :=
  match place cur k with
  | .current => cur.record + 1
  | _ => 0

/-- The records of a segment: `none` when one of them is corrupt. -/
def countSegmentRecords (conv : FloatText) (file : Bytes) :
    Except OpenError (Option Nat) :=
  (readSegment file).map fun rest =>
    match SegmentIter.readAll conv rest with
    | (envs, .eof) => some envs.length
    | (_, .corruptRecord) => none

/-! ## Places in a cycle -/

/-- A segment being read: the next byte, the index of the next record and how many to skip. The
reader holds the file open; `detached` says that a writer has removed it meanwhile. -/
structure Reading where
  segment : Nat
  offset : Nat
  recIdx : Nat
  skip : Int
  detached : Bool

/-- What comes next in a cycle; `idle` before the first cycle and after one that failed, `done`
after one that returned without error. -/
inductive Pc where
  | idle
  | done
  | recovering (todo : List Nat) (report : Report)
  | discarding (segment : Nat) (todo : List Nat) (report : Report)
  | loading (report : Report)
  | recording (cur : Cursor) (gaps : List Envelope) (todo : List Nat)
  | walking (cur : Cursor) (todo : List Nat)
  | counted (cur : Cursor) (segment : Nat) (n : Option Nat) (todo : List Nat)
  | reading (cur : Cursor) (r : Reading) (todo : List Nat)
  | committed (cur : Cursor) (r : Reading) (todo : List Nat)
  | stopped (cur : Cursor) (segment recIdx : Nat) (reachedEOF : Bool) (todo : List Nat)
  | pruning (cur : Cursor) (segment : Nat) (todo : List Nat)

namespace Pc

/-- The cycle is not running. -/
def resting : Pc → Bool
  | .idle | .done => true
  | _ => false

/-- The cursor the cycle holds in memory. -/
def cursor : Pc → Option Cursor
  | .recording cur _ _ | .walking cur _ | .counted cur _ _ _ | .reading cur _ _
  | .committed cur _ _ | .stopped cur _ _ _ _ | .pruning cur _ _ => some cur
  | _ => none

/-- The gap records the cycle has found and not handled yet. -/
def gaps : Pc → List Envelope
  | .recovering _ report | .discarding _ _ report | .loading report => report.gaps
  | .recording _ gaps _ => gaps
  | _ => []

/-- A file that is removed while it is being read stays open. -/
def detach (k : Nat) : Pc → Pc
  | .reading cur r todo => .reading cur { r with detached := r.detached || r.segment == k } todo
  | .committed cur r todo => .committed cur { r with detached := r.detached || r.segment == k } todo
  | pc => pc

end Pc

end Observatory.Spool
