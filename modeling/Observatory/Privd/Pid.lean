/-
# Is a process alive?

A pid alone is not an identity: the kernel hands it on. A process is known by its pid and its
start time, field 22 of `/proc/<pid>/stat`. `processAlive` tells a process that is gone from one
whose identity could not be read; `PIDAlive` does not.
-/
import Observatory.Lib.Bytes
import Mathlib.Tactic.SplitIfs

namespace Observatory.Privd

open Lib (Bytes parseUint)

/-- What reading a file under `/proc` gave. -/
inductive ProcRead where
  | notExist
  | failed
  | text (data : Bytes)
deriving DecidableEq

/-- White space of `/proc` files. -/
def isSpace (b : UInt8) : Bool := b == 32 || (9 ≤ b && b ≤ 13)

def fields (s : Bytes) : List Bytes := (s.splitOnP isSpace).filter fun f => !f.isEmpty

/-- The fields from field 3 on: what follows the last closing parenthesis, since the command in
field 2 may hold anything. -/
def statFields (line : Bytes) : Option (List Bytes) :=
  if 41 ∈ line then some (fields (line.reverse.takeWhile (· ≠ 41)).reverse) else none

def parseStartTime (line : Bytes) : Bytes := ((statFields line).getD []).getD 19 []

/-- `strconv.ParseUint(s, 10, 64)` succeeds. -/
def isUint (s : Bytes) : Bool := (parseUint s).isSome

inductive ProbeError where
  | invalidPID
  | invalidStartTime
  | unreadable
  | unreadableStartTime

/-- A process that has exited: a zombie, or a dead one. -/
def exited (line : Bytes) : Bool :=
  ((statFields line).getD []).getD 0 [] == [90] || ((statFields line).getD []).getD 0 [] == [88]

def processAlive (pid : Int) (starttime : Bytes) (stat : ProcRead) : Except ProbeError Bool :=
  if pid ≤ 0 then .error .invalidPID
  else if !isUint starttime then .error .invalidStartTime
  else
    match stat with
    | .notExist => .ok false
    | .failed => .error .unreadable
    | .text line =>
      if !isUint (parseStartTime line) then .error .unreadableStartTime
      else if parseStartTime line ≠ starttime then .ok false
      else .ok (!exited line)

/-- An error counts as not alive. -/
def PIDAlive (pid : Int) (starttime : Bytes) (stat : ProcRead) : Bool :=
  (processAlive pid starttime stat).toOption.getD false

end Observatory.Privd
