/-
# What is kept of failed launches

The files of a launch that failed are rescued into an archive, a directory named after the second,
the VM and the boot. Then all but the last archives by name are removed. Names start with a
timestamp, so these are the newest ones, provided the clock has moved on since the last rescue.
-/
import Observatory.Lib.Instant
import Observatory.Lib.Machine
import Observatory.Lib.Utf8
import Mathlib.Data.List.Sort

namespace Observatory.Jailer.Postmortem

open Lib List

def maxRescuedLaunches : Nat := 16

def archiveByte : Rune → UInt8
  | .ascii b =>
    if (0x61 ≤ b ∧ b ≤ 0x7A) ∨ (0x41 ≤ b ∧ b ≤ 0x5A) ∨ (0x30 ≤ b ∧ b ≤ 0x39) ∨ b ∈ ascii ".-_" then b
    else 0x5F
  | _ => 0x5F

def archiveSegment (s : Bytes) : Bytes := (runes (s.take 64)).map archiveByte

def archiveName (now : Instant) (vmID bootID : Bytes) : Bytes :=
  Instant.formatYear now.year ++ fixedDigits 2 now.month ++ fixedDigits 2 now.day ++ ascii "T" ++
    fixedDigits 2 (now.clock / 3600) ++ fixedDigits 2 (now.clock / 60 % 60) ++
    fixedDigits 2 (now.clock % 60) ++ ascii "Z-" ++ archiveSegment vmID ++ ascii "-" ++
    archiveSegment bootID

/-- A file of the runner, as it is read. -/
inductive Source where
  | notExist
  | failed
  | body (tail : Bytes)
deriving DecidableEq

inductive Outcome where
  /-- Some file is written. -/
  | landed
  /-- Every write fails. -/
  | noneLanded
  /-- The archive is not made, or not made durable. -/
  | mkdirError (created : Bool)

structure Launch where
  vmID : Bytes
  bootID : Bytes
  now : Instant
  sources : List Source
  outcome : Outcome

/-- A directory is the list of its names, in the order in which they are read. -/
def mkdir (name : Bytes) (dir : List Bytes) : List Bytes :=
  if dir.contains name then dir else dir.orderedInsert (· ≤ ·) name

def pruneRescued (dir : List Bytes) (keep : Nat) : List Bytes := dir.drop (dir.length - keep)

/-- The archive, if there is one, and the directory of the archives afterwards. -/
def rescueFailedLaunch (dir : List Bytes) (l : Launch) : Option Bytes × List Bytes :=
  let archive := archiveName l.now l.vmID l.bootID
  if l.sources.all fun s => s ∈ [.notExist, .failed, .body []] then (none, dir)
  else
    match l.outcome with
    | .mkdirError created => (none, if created then mkdir archive dir else dir)
    | .noneLanded => (none, (mkdir archive dir).filter (· ≠ archive))
    | .landed => (some archive, pruneRescued (mkdir archive dir) maxRescuedLaunches)

def step (dir : List Bytes) (l : Launch) : Option (List Bytes) := some (rescueFailedLaunch dir l).2

variable {dir : List Bytes} {l : Launch} {archive : Bytes}

/-- A launch that fails at a second of one day, with a log. -/
def failedAt (sec : Int) : Launch :=
  ⟨ascii "vm-1", ascii "b1", ⟨sec, 0, Instant.zero_nsec_lt⟩, [.body [1], .notExist], .landed⟩

end Observatory.Jailer.Postmortem
