/-
# A directory tree that a crash can roll back

A disk is a tree of directories, each a table of named entries. A change to an entry is seen
at once and is durable only after the directory that holds it has been synced; a crash leaves,
entry by entry, any value the entry has had since the last sync of its directory.

Directories are numbered and never renamed, so a directory keeps for ever the path it was made
at. That is what makes changes local: a change at one path cannot touch what a crash may leave
at a path it is not a prefix of.
-/
import Mathlib.Data.List.Infix

namespace Observatory.Lib

open List

/-- What a name stands for: a file with its content, or the number of a directory. -/
inductive Entry (κ : Type) where
  | file (content : κ)
  | dir (ino : Nat)
deriving DecidableEq

/-- One name in one directory: what it stands for now, and what it stood for at each moment
since its directory was last synced. -/
structure Slot (κ : Type) where
  now : Option (Entry κ)
  earlier : List (Option (Entry κ))

namespace Slot

variable {κ : Type}

/-- What a crash may leave here. -/
def candidates (s : Slot κ) : List (Option (Entry κ)) := s.now :: s.earlier

def put (s : Slot κ) (v : Option (Entry κ)) : Slot κ := ⟨v, s.candidates⟩

def synced (s : Slot κ) : Slot κ := ⟨s.now, []⟩

/-- A name that was never used. -/
def empty : Slot κ := ⟨none, []⟩

variable {w : Option (Entry κ)} {s : Slot κ}

@[simp] theorem mem_candidates_put {v : Option (Entry κ)} :
    w ∈ (s.put v).candidates ↔ w = v ∨ w ∈ s.candidates :=
  mem_cons

@[simp] theorem mem_candidates_synced :
    w ∈ s.synced.candidates ↔ w = s.now :=
  mem_singleton

@[simp] theorem mem_candidates_empty :
    w ∈ (empty : Slot κ).candidates ↔ w = none :=
  mem_singleton

theorem now_mem_candidates (s : Slot κ) : s.now ∈ s.candidates := mem_cons_self ..

/-- With nothing unsynced, a crash leaves what is there. -/
theorem eq_now_of_settled (hs : s.earlier = []) (hw : w ∈ s.candidates) : w = s.now := by
  rw [candidates, hs] at hw
  exact mem_singleton.mp hw

end Slot

/-- A disk: the slots of every directory, the next free directory number, and the path each
directory was made at. Directory 0 is the root. -/
structure Disk (ν κ : Type) where
  slots : Nat → ν → Slot κ
  next : Nat
  pathOf : Nat → List ν
  root : 0 < next ∧ pathOf 0 = []
  fresh : ∀ i, next ≤ i → ∀ n, slots i n = Slot.empty
  homed : ∀ i n j, some (Entry.dir j) ∈ (slots i n).candidates →
    j < next ∧ pathOf j = pathOf i ++ [n]

/-- Where a walk down a path ends. -/
inductive Walk (κ : Type) where
  | file (content : κ)
  | dir (ino : Nat)
  | missing
  | notDir
deriving DecidableEq

/-- There is nothing at the end of the path. -/
def Walk.Absent {κ : Type} (w : Walk κ) : Prop := w = .missing ∨ w = .notDir

namespace Disk

variable {ν κ : Type}

/-- The root alone, with nothing in it. -/
def bare : Disk ν κ where
  slots := fun _ _ => Slot.empty
  next := 1
  pathOf := fun _ => []
  root := ⟨Nat.one_pos, rfl⟩
  fresh := fun _ _ _ => rfl
  homed := fun _ _ _ h => nomatch Slot.mem_candidates_empty.mp h

/-- Walks down a path from directory `i`, reading each entry with `look`. -/
def walk (look : Nat → ν → Option (Entry κ)) : Nat → List ν → Walk κ
  | i, [] => .dir i
  | i, n :: rest =>
    match look i n with
    | none => .missing
    | some (.dir j) => walk look j rest
    | some (.file content) => if rest.isEmpty then .file content else .notDir

def now (d : Disk ν κ) (i : Nat) (n : ν) : Option (Entry κ) := (d.slots i n).now

/-- The entries `crash` are ones that a crash may leave. -/
def Survives (d : Disk ν κ) (crash : Nat → ν → Option (Entry κ)) : Prop :=
  ∀ i n, crash i n ∈ (d.slots i n).candidates

variable {d : Disk ν κ} {p q : List ν} {i k : Nat} {crash look : Nat → ν → Option (Entry κ)}
  {n : ν}

theorem walk_append (h : walk look i p = .dir k) : walk look i (p ++ q) = walk look k q := by
  induction p generalizing i with
  | nil =>
    rw [walk, Walk.dir.injEq] at h
    rw [h, nil_append]
  | cons n rest ih =>
    rw [walk] at h
    rw [cons_append, walk]
    cases hn : look i n with
    | none => rw [hn] at h; nomatch h
    | some e =>
      rw [hn] at h
      cases e with
      | dir j => exact ih h
      | file content =>
        dsimp only at h
        split at h <;> nomatch h

/-- A walk that misses an entry on the way misses all that is below it. -/
theorem walk_append_missing (h : walk look i p = .missing) : walk look i (p ++ q) = .missing := by
  induction p generalizing i with
  | nil => nomatch h
  | cons n rest ih =>
    rw [walk] at h
    rw [cons_append, walk]
    cases hn : look i n with
    | none => rfl
    | some e =>
      rw [hn] at h
      cases e with
      | dir j => exact ih h
      | file content =>
        dsimp only at h
        split at h <;> nomatch h

theorem walk_singleton_missing (h : walk look i [n] = .missing) : look i n = none := by
  cases hn : look i n with
  | none => rfl
  | some e => cases e <;> simp [walk, hn] at h

/-- The directory at the end of a walk was made at the path walked. -/
theorem pathOf_of_walk (hlook : d.Survives look) (hi : i < d.next) (h : walk look i p = .dir k) :
    k < d.next ∧ d.pathOf k = d.pathOf i ++ p := by
  induction p generalizing i with
  | nil =>
    rw [walk, Walk.dir.injEq] at h
    exact ⟨h ▸ hi, by rw [append_nil, h]⟩
  | cons n rest ih =>
    rw [walk] at h
    cases hn : look i n with
    | none => rw [hn] at h; nomatch h
    | some e =>
      rw [hn] at h
      cases e with
      | dir j =>
        obtain ⟨hj, hpath⟩ := d.homed i n j (hn ▸ hlook i n)
        obtain ⟨hk, hpk⟩ := ih hj h
        exact ⟨hk, by rw [hpk, hpath, append_assoc, singleton_append]⟩
      | file content =>
        dsimp only at h
        split at h <;> nomatch h

theorem survives_now (d : Disk ν κ) : d.Survives d.now :=
  fun i n => (d.slots i n).now_mem_candidates

theorem walk_now_dir (h : walk d.now 0 p = .dir k) :
    k < d.next ∧ d.pathOf k = p := by
  have hk := pathOf_of_walk d.survives_now d.root.1 h
  rwa [d.root.2, nil_append] at hk

/-- Two readings that agree on the entries of a path end at the same place. -/
theorem walk_congr {look' : Nat → ν → Option (Entry κ)} (hlook : d.Survives look)
    (hagree : ∀ i n, d.pathOf i ++ [n] <+: p → look' i n = look i n) :
    walk look' 0 p = walk look 0 p := by
  -- the induction is on what is left of the path, from a directory made where the walk stands
  suffices h : ∀ rest i, d.pathOf i ++ rest = p → walk look' i rest = walk look i rest from
    h p 0 (by rw [d.root.2, nil_append])
  intro rest
  induction rest with
  | nil => intro i _; rfl
  | cons n rest ih =>
    intro i hi
    have hsplit : (d.pathOf i ++ [n]) ++ rest = p := by
      rw [append_assoc, singleton_append, hi]
    rw [walk, walk, hagree i n ⟨rest, hsplit⟩]
    cases hn : look i n with
    | none => rfl
    | some e =>
      cases e with
      | file content => rfl
      | dir j =>
        obtain ⟨-, hpath⟩ := d.homed i n j (hn ▸ hlook i n)
        exact ih j (by rw [hpath, hsplit])

/-! ### The three changes -/

/-- Makes the entries of a directory durable. -/
def sync (d : Disk ν κ) (i : Nat) : Disk ν κ where
  slots := fun j m => if j = i then (d.slots j m).synced else d.slots j m
  next := d.next
  pathOf := d.pathOf
  root := d.root
  fresh := by
    intro j hj m
    rw [d.fresh j hj m]
    split <;> rfl
  homed := by
    intro j m k hk
    split at hk
    · exact d.homed j m k
        (by rw [Slot.mem_candidates_synced.mp hk]; exact Slot.now_mem_candidates _)
    · exact d.homed j m k hk

@[simp] theorem sync_now (d : Disk ν κ) (i : Nat) : (d.sync i).now = d.now := by
  funext j m
  rw [now, sync]
  dsimp only
  split <;> rfl

theorem sync_settled (d : Disk ν κ) (i : Nat) (n : ν) : ((d.sync i).slots i n).earlier = [] := by
  rw [sync]
  dsimp only
  rw [if_pos rfl]
  rfl

theorem sync_keeps_settled {j : Nat} (h : (d.slots j n).earlier = []) :
    ((d.sync i).slots j n).earlier = [] := by
  rw [sync]
  dsimp only
  split
  · rfl
  · exact h

/-- What a sync leaves possible was possible before. -/
theorem Survives.of_sync (h : (d.sync i).Survives crash) : d.Survives crash := by
  intro j m
  have hjm := h j m
  rw [sync] at hjm
  dsimp only at hjm
  split at hjm
  · rw [Slot.mem_candidates_synced.mp hjm]
    exact Slot.now_mem_candidates _
  · exact hjm

/-- A synced directory comes back as it was seen. -/
theorem Survives.synced (h : (d.sync i).Survives crash) : crash i n = d.now i n := by
  rw [← sync_now d i]
  exact Slot.eq_now_of_settled (d.sync_settled i n) (h i n)

section Changes

variable [DecidableEq ν]

/-- Makes an entry a file, or removes it. -/
@[simps pathOf next] def put (d : Disk ν κ) (i : Nat) (n : ν) (v : Option κ) : Disk ν κ where
  slots := fun j m =>
    if j = i ∧ m = n ∧ j < d.next then (d.slots j m).put (v.map .file) else d.slots j m
  next := d.next
  pathOf := d.pathOf
  root := d.root
  fresh := by
    intro j hj m
    rw [if_neg (by omega), d.fresh j hj m]
  homed := by
    intro j m k hk
    split at hk
    · rcases Slot.mem_candidates_put.mp hk with hv | hold
      · cases v <;> nomatch hv
      · exact d.homed j m k hold
    · exact d.homed j m k hk

/-- Makes an entry a new, empty directory. -/
def mkdir (d : Disk ν κ) (i : Nat) (n : ν) : Disk ν κ where
  slots := fun j m =>
    if j = i ∧ m = n ∧ j < d.next then (d.slots j m).put (some (.dir d.next)) else d.slots j m
  next := d.next + 1
  pathOf := fun j => if j = d.next then d.pathOf i ++ [n] else d.pathOf j
  root := by
    have hroot := d.root
    refine ⟨by omega, ?_⟩
    rw [if_neg (by omega)]
    exact hroot.2
  fresh := by
    intro j hj m
    rw [if_neg (by omega), d.fresh j (by omega) m]
  homed := by
    intro j m k hk
    split at hk
    · rename_i hslot
      obtain ⟨rfl, rfl, hj⟩ := hslot
      rcases Slot.mem_candidates_put.mp hk with hnew | hold
      · injection hnew with hnew
        injection hnew with hnew
        exact ⟨by omega, by rw [if_pos hnew, if_neg (by omega)]⟩
      · obtain ⟨hlt, hpath⟩ := d.homed j m k hold
        exact ⟨by omega, by rw [if_neg (by omega), if_neg (by omega), hpath]⟩
    · rcases Nat.lt_or_ge j d.next with hj | hj
      · obtain ⟨hlt, hpath⟩ := d.homed j m k hk
        exact ⟨by omega, by rw [if_neg (by omega), if_neg (by omega), hpath]⟩
      · -- an unused directory has no entries
        rw [d.fresh j hj m] at hk
        nomatch Slot.mem_candidates_empty.mp hk

variable {d : Disk ν κ} {i j : Nat} {m n : ν}

theorem put_slots_of_ne {v : Option κ} (h : ¬ (j = i ∧ m = n)) :
    (d.put i n v).slots j m = d.slots j m :=
  if_neg fun hjm => h ⟨hjm.1, hjm.2.1⟩

theorem put_now_self {v : Option κ} (hi : i < d.next) : (d.put i n v).now i n = v.map .file := by
  rw [now, put]
  dsimp only
  rw [if_pos ⟨rfl, rfl, hi⟩]
  rfl

theorem mkdir_now_self (hi : i < d.next) : (d.mkdir i n).now i n = some (.dir d.next) := by
  rw [now, mkdir]
  dsimp only
  rw [if_pos ⟨rfl, rfl, hi⟩]
  rfl

/-- A new directory takes no name that is in use. -/
theorem mkdir_now_of_some {e : Entry κ} (hnone : d.now i n = none) (h : d.now j m = some e) :
    (d.mkdir i n).now j m = some e := by
  rw [now, mkdir]
  dsimp only
  rw [if_neg]
  · exact h
  · rintro ⟨rfl, rfl, -⟩
    rw [hnone] at h
    nomatch h

/-- A crash leaves the new directory, or what it might have left before. -/
theorem Survives.of_mkdir {crash : Nat → ν → Option (Entry κ)} (h : (d.mkdir i n).Survives crash) :
    (j = i ∧ m = n ∧ crash j m = some (.dir d.next)) ∨ crash j m ∈ (d.slots j m).candidates := by
  have hmem := h j m
  rw [mkdir] at hmem
  dsimp only at hmem
  split at hmem
  · rename_i hslot
    rcases Slot.mem_candidates_put.mp hmem with hnew | hold
    · exact .inl ⟨hslot.1, hslot.2.1, hnew⟩
    · exact .inr hold
  · exact .inr hmem

theorem Survives.mkdir_empty {crash : Nat → ν → Option (Entry κ)}
    (h : (d.mkdir i n).Survives crash) :
    crash d.next m = none := by
  have hmem := h d.next m
  rw [mkdir] at hmem
  dsimp only at hmem
  rw [if_neg (by omega), d.fresh d.next (Nat.le_refl _) m] at hmem
  exact Slot.mem_candidates_empty.mp hmem

end Changes

/-! ### Changes that leave a path alone -/

/-- Whatever a crash may leave at `p` after, it might have left there before. -/
def Quiet (p : List ν) (d d' : Disk ν κ) : Prop :=
  ∀ crash', d'.Survives crash' → ∃ crash, d.Survives crash ∧ walk crash' 0 p = walk crash 0 p

theorem Quiet.refl (p : List ν) (d : Disk ν κ) : Quiet p d d :=
  fun crash h => ⟨crash, h, rfl⟩

theorem Quiet.trans {d₁ d₂ d₃ : Disk ν κ} (h₁ : Quiet p d₁ d₂) (h₂ : Quiet p d₂ d₃) :
    Quiet p d₁ d₃ := by
  intro crash₃ h
  obtain ⟨crash₂, hs₂, he₂⟩ := h₂ crash₃ h
  obtain ⟨crash₁, hs₁, he₁⟩ := h₁ crash₂ hs₂
  exact ⟨crash₁, hs₁, he₂.trans he₁⟩

theorem quiet_sync (p : List ν) (d : Disk ν κ) (i : Nat) : Quiet p d (d.sync i) :=
  fun crash h => ⟨crash, h.of_sync, rfl⟩

section Quiet

variable [DecidableEq ν]

/-- A change of an entry is felt only at its path and below. -/
theorem quiet_put {p : List ν} {d : Disk ν κ} {i : Nat} {n : ν} {v : Option κ}
    (h : ¬ d.pathOf i ++ [n] <+: p) : Quiet p d (d.put i n v) := by
  intro crash' hcrash'
  -- the crash before is the one after, with the changed entry as it was
  let crash := fun j m => if j = i ∧ m = n then d.now j m else crash' j m
  have hcrash : d.Survives crash := by
    intro j m
    by_cases hjm : j = i ∧ m = n
    · rw [show crash j m = d.now j m from if_pos hjm]
      exact d.survives_now j m
    · rw [show crash j m = crash' j m from if_neg hjm, ← put_slots_of_ne hjm]
      exact hcrash' j m
  refine ⟨crash, hcrash, walk_congr hcrash ?_⟩
  intro j m hp
  refine (if_neg ?_).symm
  rintro ⟨rfl, rfl⟩
  exact h hp

/-- A new directory is empty: a path below it was missing and still is. -/
theorem quiet_mkdir {p : List ν} {d : Disk ν κ} {i : Nat} {n : ν} (hnone : d.now i n = none)
    (h : d.pathOf i ++ [n] ≠ p) : Quiet p d (d.mkdir i n) := by
  classical
  intro crash' hcrash'
  -- the crash before is the one after, without the new directory
  let crash := fun j m =>
    if j = i ∧ m = n ∧ crash' j m = some (.dir d.next) then none else crash' j m
  have hcrash : d.Survives crash := by
    intro j m
    by_cases hjm : j = i ∧ m = n ∧ crash' j m = some (.dir d.next)
    · rw [show crash j m = none from if_pos hjm, ← hnone, hjm.1, hjm.2.1]
      exact d.survives_now i n
    · rw [show crash j m = crash' j m from if_neg hjm]
      exact hcrash'.of_mkdir.resolve_left hjm
  refine ⟨crash, hcrash, ?_⟩
  suffices hwalk : ∀ rest j, d.pathOf j ++ rest = p → walk crash' j rest = walk crash j rest from
    hwalk p 0 (by rw [d.root.2, nil_append])
  intro rest
  induction rest with
  | nil => intro j _; rfl
  | cons m rest ih =>
    intro j hj
    rw [walk, walk]
    by_cases hjm : j = i ∧ m = n ∧ crash' j m = some (.dir d.next)
    · -- the path goes through the new directory, and on
      rw [show crash j m = none from if_pos hjm, hjm.2.2]
      obtain ⟨rfl, rfl, -⟩ := hjm
      cases rest with
      | nil => exact absurd hj h
      | cons m' rest =>
        dsimp only
        rw [walk, hcrash'.mkdir_empty]
    · rw [show crash j m = crash' j m from if_neg hjm]
      cases hm : crash' j m with
      | none => rfl
      | some e =>
        cases e with
        | file content => rfl
        | dir k =>
          obtain ⟨-, hpath⟩ := d.homed j m k (hm ▸ hcrash'.of_mkdir.resolve_left hjm)
          exact ih k (by rw [hpath, append_assoc, singleton_append, hj])

end Quiet

/-! ### Paths that a crash cannot change -/

/-- No directory on the way down a path has an unsynced change of its own entry; with
`absentToo`, neither has the first entry that is missing. -/
def settled (d : Disk ν κ) (absentToo : Bool) : Nat → List ν → Bool
  | _, [] => true
  | i, n :: rest =>
    match d.now i n with
    | some (.dir j) => (d.slots i n).earlier.isEmpty && d.settled absentToo j rest
    | some (.file _) => true
    | none => !absentToo || (d.slots i n).earlier.isEmpty

/-- The directories that hold the entries of a path. -/
def waypoints (d : Disk ν κ) : Nat → List ν → List Nat
  | _, [] => []
  | i, n :: rest =>
    i :: match d.now i n with
      | some (.dir j) => d.waypoints j rest
      | _ => []

theorem waypoints_congr {d' : Disk ν κ} (h : d'.now = d.now) (i : Nat) (p : List ν) :
    d'.waypoints i p = d.waypoints i p := by
  induction p generalizing i with
  | nil => rfl
  | cons n rest ih =>
    rw [waypoints, waypoints, h]
    cases hn : d.now i n with
    | none => rfl
    | some e =>
      cases e with
      | file content => rfl
      | dir j => exact congrArg (i :: ·) (ih j)

/-- What is reached, or missing, over settled entries is so after the crash. -/
theorem Survives.walk_eq (hcrash : d.Survives crash) {b : Bool} (hs : d.settled b i p = true)
    {w : Walk κ} (hwalk : walk d.now i p = w)
    (hw : (∃ k, w = .dir k) ∨ b = true ∧ w = .missing) : walk crash i p = w := by
  induction p generalizing i with
  | nil => exact hwalk
  | cons n rest ih =>
    rw [walk] at hwalk ⊢
    rw [settled] at hs
    cases hn : d.now i n with
    | none =>
      rw [hn] at hwalk hs
      obtain ⟨k, rfl⟩ | ⟨rfl, rfl⟩ := hw
      · nomatch hwalk
      · rw [Slot.eq_now_of_settled (isEmpty_iff.mp hs) (hcrash i n),
          show (d.slots i n).now = none from hn]
    | some e =>
      rw [hn] at hwalk hs
      cases e with
      | file content =>
        dsimp only at hwalk
        obtain ⟨k, rfl⟩ | ⟨-, rfl⟩ := hw <;> split at hwalk <;> nomatch hwalk
      | dir j =>
        obtain ⟨hslot, hrest⟩ := Bool.and_eq_true_iff.mp hs
        rw [Slot.eq_now_of_settled (isEmpty_iff.mp hslot) (hcrash i n),
          show (d.slots i n).now = some (.dir j) from hn]
        exact ih hrest hwalk

theorem settled_append (h : d.settled false i (p ++ q) = true) : d.settled false i p = true := by
  induction p generalizing i with
  | nil => rfl
  | cons n rest ih =>
    rw [cons_append, settled] at h
    rw [settled]
    cases hn : d.now i n with
    | none => rfl
    | some e =>
      rw [hn] at h
      cases e with
      | file content => rfl
      | dir j =>
        obtain ⟨hslot, hrest⟩ := Bool.and_eq_true_iff.mp h
        exact Bool.and_eq_true_iff.mpr ⟨hslot, ih hrest⟩

/-- With every directory that holds one of its entries synced, a path comes back as seen. -/
theorem Survives.walk_waypoints (hcrash : d.Survives crash)
    (hs : ∀ k ∈ d.waypoints i p, ∀ n, (d.slots k n).earlier = []) :
    walk crash i p = walk d.now i p := by
  induction p generalizing i with
  | nil => rfl
  | cons n rest ih =>
    rw [waypoints] at hs
    have hslot : crash i n = d.now i n :=
      Slot.eq_now_of_settled (hs i (mem_cons_self ..) n) (hcrash i n)
    rw [walk, walk, hslot]
    cases hn : d.now i n with
    | none => rfl
    | some e =>
      cases e with
      | file content => rfl
      | dir j =>
        rw [hn] at hs
        exact ih fun k hk => hs k (mem_cons_of_mem _ hk)

end Disk

end Observatory.Lib
