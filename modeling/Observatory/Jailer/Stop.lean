/-
# A stop claims no death it has not proven

A stop that returns nil, or reports only a jail that could not be removed, lets the memory of the
VM be given away. It may do so only if the process that the manifest names is gone, or no process
was ever started. What the stop has to go on are the manifest, the root daemon's answer about a
start whose reply was lost, and its probes of `/proc`.

The last probe decides. Where it gives an answer the stop is right. A stat file that cannot be
read gives none, and the stop takes it for death: the gate asks `PIDAlive`, to which an error is
the same as an exited process.
-/
import Observatory.Jailer.Host

namespace Observatory.Jailer

open Lib Privd Prog

/-! ## The evidence -/

/-- One look at the process of a pid. -/
inductive Probe where
  | stat (pid : Int) (reply : StatReply)
  | read (pid : Int) (reply : ProcRead)
deriving DecidableEq

/-- What a stop has seen: the manifest, the root daemon's answer about its start, and the last
probe. -/
structure Seen where
  manifest : Option Manifest := none
  outcome : Option (Option OperationOutcome) := none
  probe : Option Probe := none

namespace Seen

def next (g : Seen) : (c : Call) → c.Reply → Seen
  | .readManifest _, .ok m => { g with manifest := some m }
  | .queryOperation _, outcome => { g with outcome := some outcome }
  | .statProc pid, reply => { g with probe := some (.stat pid reply) }
  | .readProcStat pid, reply => { g with probe := some (.read pid reply) }
  | _, _ => g

/-- The process in question: the manifest's, or the one recovered for it. -/
def process (g : Seen) (m : Manifest) : Int × Bytes :=
  if m.startOpID = [] ∨ 0 < m.vmmPID then (m.vmmPID, m.vmmStart)
  else
    match g.outcome with
    | some (some (.succeeded (some (pid, starttime)))) => (pid, starttime)
    | _ => (m.vmmPID, m.vmmStart)

/-- No process was ever started: none was asked for, or the root daemon says that it failed. -/
def neverStarted (g : Seen) (m : Manifest) : Bool :=
  m.vmmPID ≤ 0 && (m.startOpID = [] || g.outcome = some (some .failed))

def answered (g : Seen) (m : Manifest) : Bool :=
  match g.probe with
  | some (.read pid reply) => (processAlive pid (g.process m).2 reply).isOk
  | _ => true

end Seen

variable {cfg : Config} {g : Seen} {m : Manifest}

variable {m₀ : Manifest} {outcome : Option (Option OperationOutcome)}

section

variable {m₀ : Manifest} {outcome : Option (Option OperationOutcome)}

end

/-- The manifest that the stop goes on with is the one that what was seen leads to. -/
def Resolved (m : Manifest) (outcome : Option (Option OperationOutcome)) (m' : Manifest) : Prop :=
  ∀ g : Seen, g.outcome = outcome → g.process m = (m'.vmmPID, m'.vmmStart) ∧
    (m'.vmmPID ≤ 0 → g.neverStarted m = true)

end Observatory.Jailer
