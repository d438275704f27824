/-
# Durable publication

`internal/durable`: the four calls that publish and remove ownership records. Each is a
sequence of file-system steps that can fail one by one, ending in syncs of the directories
whose entries changed; a caller that gets nil back acts on the record.

A call here carries what the file system answers to its steps. After nil, a crash leaves at the
path what the call asked for, provided the directories above it are durable, except that `Remove`
answers nil for an absent path without taking any barrier.
-/
import Observatory.Lib.Disk
import Observatory.Lib.Bytes

namespace Observatory.Durable

open List

open Lib (Bytes Disk Entry Walk Slot)

/-- A published file: its bytes and its mode. -/
structure Record where
  data : Bytes
  mode : Nat
deriving DecidableEq

abbrev Name := Bytes

abbrev Path := List Name

/-- The tree under the durable directory, directory 0. -/
abbrev Tree := Disk Name Record

/-- A call, with what its steps meet.  `WriteFile`: whether the temporary file gets created,
written, synced and closed, whether the rename works, and the sync.  `Remove`: whether the
unlink works, and the sync.  `RemoveAll`: the paths it gets to unlink, in order, and the sync
it ends with.  `MkdirAll`: how many directories it gets to make, how many of the ancestors it
gets to sync, and the syncs above the durable directory. -/
inductive Call where
  | writeFile (dir : Path) (name : Name) (record : Record) (prepared renamed synced : Bool)
  | remove (dir : Path) (name : Name) (removed synced : Bool)
  | removeAll (dir : Path) (name : Name) (unlinked : List Path) (synced : Bool)
  | mkdirAll (path : Path) (made synced : Nat) (above : Bool)

def Call.path : Call → Path
  | .writeFile dir name .. => dir ++ [name]
  | .remove dir name .. => dir ++ [name]
  | .removeAll dir name .. => dir ++ [name]
  | .mkdirAll path .. => path

/-- The state a call asks for. -/
def Call.Done : Call → Walk Record → Prop
  | .writeFile _ _ record .., w => w = .file record
  | .remove .., w => w.Absent
  | .removeAll .., w => w.Absent
  | .mkdirAll .., w => ∃ i, w = .dir i

/-! ### The calls -/

namespace Tree

/-- `SyncDir` on a directory that is there. -/
def syncDir (t : Tree) (i : Nat) (synced : Bool) : Tree × Bool :=
  if synced then (t.sync i, true) else (t, false)

def writeFile (t : Tree) (dir : Path) (name : Name) (record : Record)
    (prepared renamed synced : Bool) : Tree × Bool :=
  match Disk.walk t.now 0 dir with
  | .dir k =>
    if !prepared then (t, false)
    else
      match t.now k name with
      -- a file is not renamed over a directory
      | some (.dir _) => (t, false)
      | _ =>
        if renamed then syncDir (t.put k name (some record)) k synced
        else (t, false)
  | _ => (t, false)

def remove (t : Tree) (dir : Path) (name : Name) (removed synced : Bool) : Tree × Bool :=
  match Disk.walk t.now 0 dir with
  | .dir k =>
    match t.now k name with
    | none => (t, true)
    | some _ =>
      if removed then syncDir (t.put k name none) k synced
      else (t, false)
  | .missing => (t, true)
  | _ => (t, false)

def unlink (t : Tree) (dir : Path) (name : Name) : Tree :=
  match Disk.walk t.now 0 dir with
  | .dir k => t.put k name none
  | _ => t

/-- The unlinks of `os.RemoveAll` on a path, each given by its place below it. -/
def unlinkAll (t : Tree) (path : Path) : List Path → Tree
  | [] => t
  | below :: rest =>
    let target := path ++ below
    (t.unlink target.dropLast (target.getLastD [])).unlinkAll path rest

/-- The barrier of `RemoveAll`: the nearest surviving ancestor, from the reversed path of the
parent upwards. -/
def syncNearest (t : Tree) (synced : Bool) : Path → Tree × Bool
  | [] => syncDir t 0 synced
  | n :: up =>
    match Disk.walk t.now 0 (n :: up).reverse with
    | .dir k => syncDir t k synced
    | .missing => t.syncNearest synced up
    | _ => (t, false)

def removeAll (t : Tree) (dir : Path) (name : Name) (unlinked : List Path) (synced : Bool) :
    Tree × Bool :=
  let t' := t.unlinkAll (dir ++ [name]) unlinked
  match Disk.walk t'.now 0 (dir ++ [name]) with
  | .missing => t'.syncNearest synced dir.reverse
  | _ => (t', false)

/-- `os.MkdirAll`: makes what is missing on a path, `made` directories at most. -/
def mkdirs (t : Tree) : Nat → Path → Nat → Tree × Bool
  | _, [], _ => (t, true)
  | i, n :: rest, made =>
    match t.now i n with
    | some (.dir j) => t.mkdirs j rest made
    | some (.file _) => (t, false)
    | none =>
      match made with
      | 0 => (t, false)
      | made + 1 => mkdirs (t.mkdir i n) t.next rest made

/-- Syncs one directory after another until one sync fails. -/
def syncEach (t : Tree) : List Nat → Nat → Tree × Bool
  | [], _ => (t, true)
  | _ :: _, 0 => (t, false)
  | i :: rest, synced + 1 => syncEach (t.sync i) rest synced

def mkdirAll (t : Tree) (path : Path) (made synced : Nat) (above : Bool) : Tree × Bool :=
  let t' := t.mkdirs 0 path made
  if !t'.2 then t'
  else
    -- every ancestor of the path, the nearest first, and then those above the durable directory
    let t'' := t'.1.syncEach (t'.1.waypoints 0 path).reverse synced
    (t''.1, t''.2 && above)

/-- One call: the tree it leaves and whether it returned nil. -/
def exec (t : Tree) : Call → Tree × Bool
  | .writeFile dir name record prepared renamed synced =>
    t.writeFile dir name record prepared renamed synced
  | .remove dir name removed synced => t.remove dir name removed synced
  | .removeAll dir name unlinked synced => t.removeAll dir name unlinked synced
  | .mkdirAll path made synced above => t.mkdirAll path made synced above

def execAll (t : Tree) (calls : List Call) : Tree := calls.foldl (fun t c => (t.exec c).1) t

end Tree

/-! ### Calls on other paths -/

/-- Neither path leads to the other. -/
def Apart (p q : Path) : Prop := ¬ p <+: q ∧ ¬ q <+: p

instance (p q : Path) : Decidable (Apart p q) := inferInstanceAs (Decidable (_ ∧ _))

namespace Tree

variable {p : Path} {t : Tree}

theorem quiet_syncDir (t : Tree) (i : Nat) (synced : Bool) :
    Disk.Quiet p t (t.syncDir i synced).1 := by
  rw [syncDir]
  split
  · exact Disk.quiet_sync p t i
  · exact Disk.Quiet.refl p t

variable {synced : Bool} {name : Name} {dir : Path}

/-- Changing the entry `name` of the directory at `dir` is felt at `dir ++ [name]` and below. -/
theorem quiet_put_at {k : Nat} {v : Option Record} (hk : Disk.walk t.now 0 dir = .dir k)
    (h : ¬ dir ++ [name] <+: p) :
    Disk.Quiet p t (t.put k name v) := by
  refine Disk.quiet_put ?_
  rw [(Disk.walk_now_dir hk).2]
  exact h

theorem quiet_writeFile {record : Record} {prepared renamed : Bool} (h : ¬ dir ++ [name] <+: p) :
    Disk.Quiet p t (t.writeFile dir name record prepared renamed synced).1 := by
  rw [writeFile]
  split
  · rename_i k hk
    split
    · exact Disk.Quiet.refl p t
    · split
      · exact Disk.Quiet.refl p t
      · split
        · exact (quiet_put_at hk h).trans (quiet_syncDir _ k synced)
        · exact Disk.Quiet.refl p t
  · exact Disk.Quiet.refl p t

theorem quiet_remove {removed : Bool} (h : ¬ dir ++ [name] <+: p) :
    Disk.Quiet p t (t.remove dir name removed synced).1 := by
  rw [remove]
  split
  · rename_i k hk
    split
    · exact Disk.Quiet.refl p t
    · split
      · exact (quiet_put_at hk h).trans (quiet_syncDir _ k synced)
      · exact Disk.Quiet.refl p t
  · exact Disk.Quiet.refl p t
  · exact Disk.Quiet.refl p t

theorem quiet_unlink (h : ¬ dir ++ [name] <+: p) :
    Disk.Quiet p t (t.unlink dir name) := by
  rw [unlink]
  split
  · rename_i k hk
    exact quiet_put_at hk h
  · exact Disk.Quiet.refl p t

/-- What lies at a path or below it leads nowhere the path does not lead. -/
theorem below_apart {below : Path} (h : ¬ dir ++ [name] <+: p) :
    ¬ (dir ++ [name] ++ below).dropLast ++ [(dir ++ [name] ++ below).getLastD []] <+: p := by
  have hne : dir ++ [name] ++ below ≠ [] := by simp
  rw [getLastD_eq_getLast?, List.getLast?_eq_some_getLast hne, Option.getD_some,
    dropLast_append_getLast hne]
  exact fun hp => h ((prefix_append _ below).trans hp)

theorem quiet_unlinkAll (h : ¬ dir ++ [name] <+: p) (unlinked : List Path) (t : Tree) :
    Disk.Quiet p t (t.unlinkAll (dir ++ [name]) unlinked) := by
  induction unlinked generalizing t with
  | nil => exact Disk.Quiet.refl p t
  | cons below rest ih => exact (quiet_unlink (below_apart h)).trans (ih _)

theorem quiet_syncNearest (synced : Bool) (up : Path) :
    Disk.Quiet p t (t.syncNearest synced up).1 := by
  induction up with
  | nil => exact quiet_syncDir t 0 synced
  | cons n up ih =>
    rw [syncNearest]
    split
    · exact quiet_syncDir t _ synced
    · exact ih
    · exact Disk.Quiet.refl p t

theorem quiet_removeAll {unlinked : List Path} (h : ¬ dir ++ [name] <+: p) :
    Disk.Quiet p t (t.removeAll dir name unlinked synced).1 := by
  rw [removeAll]
  split
  · exact (quiet_unlinkAll h unlinked t).trans (quiet_syncNearest synced _)
  · exact quiet_unlinkAll h unlinked t

/-- Directories made on the way to a path below which `p` is not. -/
theorem quiet_mkdirs {rest : Path} {i made : Nat} (t : Tree) (h : ¬ p <+: t.pathOf i ++ rest) :
    Disk.Quiet p t (t.mkdirs i rest made).1 := by
  induction rest generalizing i made t with
  | nil => exact Disk.Quiet.refl p t
  | cons n rest ih =>
    have hsplit : t.pathOf i ++ n :: rest = (t.pathOf i ++ [n]) ++ rest := by
      rw [append_assoc, singleton_append]
    rw [hsplit] at h
    rw [mkdirs.eq_def]
    dsimp only
    split
    · rename_i j hj
      have hpath := (t.homed i n j (hj ▸ t.survives_now i n)).2
      exact ih t (hpath ▸ h)
    · exact Disk.Quiet.refl p t
    · rename_i hnone
      split
      · exact Disk.Quiet.refl p t
      · have hnew : t.pathOf i ++ [n] ≠ p := fun he => h (he ▸ prefix_append _ rest)
        have hpath : (t.mkdir i n).pathOf t.next = t.pathOf i ++ [n] := if_pos rfl
        exact (Disk.quiet_mkdir hnone hnew).trans (ih (t.mkdir i n) (hpath.symm ▸ h))

theorem quiet_syncEach (inos : List Nat) (synced : Nat) (t : Tree) :
    Disk.Quiet p t (t.syncEach inos synced).1 := by
  induction inos generalizing synced t with
  | nil => exact Disk.Quiet.refl p t
  | cons i rest ih =>
    cases synced with
    | zero => exact Disk.Quiet.refl p t
    | succ synced => exact (Disk.quiet_sync p t i).trans (ih synced (t.sync i))

theorem quiet_mkdirAll {path : Path} {made synced : Nat} {above : Bool} (h : ¬ p <+: path) :
    Disk.Quiet p t (t.mkdirAll path made synced above).1 := by
  have hmade : Disk.Quiet p t (t.mkdirs 0 path made).1 :=
    quiet_mkdirs t (by rwa [t.root.2, nil_append])
  rw [mkdirAll]
  split
  · exact hmade
  · exact hmade.trans (quiet_syncEach _ synced _)

/-- A call leaves alone what a crash may leave at a path apart from its own. -/
theorem quiet_exec {c : Call} (h : Apart c.path p) : Disk.Quiet p t (t.exec c).1 := by
  cases c with
  | writeFile dir name record prepared renamed synced => exact quiet_writeFile h.1
  | remove dir name removed synced => exact quiet_remove h.1
  | removeAll dir name unlinked synced => exact quiet_removeAll h.1
  | mkdirAll path made synced above => exact quiet_mkdirAll h.2

theorem quiet_execAll {calls : List Call} (t : Tree) (h : ∀ c ∈ calls, Apart c.path p) :
    Disk.Quiet p t (t.execAll calls) := by
  induction calls generalizing t with
  | nil => exact Disk.Quiet.refl p t
  | cons c rest ih =>
    have hc := h c (mem_cons_self ..)
    exact (quiet_exec hc).trans (ih (t.exec c).1 fun c' hc' => h c' (mem_cons_of_mem _ hc'))

end Tree

/-! ### A call that returned nil -/

namespace Tree

variable {t : Tree} {dir : Path} {name : Name}

variable {synced : Bool} {i made : Nat}

theorem syncDir_ok (h : (t.syncDir i synced).2 = true) : (t.syncDir i synced).1 = t.sync i := by
  cases synced with
  | false => nomatch h
  | true => rfl

theorem writeFile_ok {record : Record} {prepared renamed : Bool}
    (h : (t.writeFile dir name record prepared renamed synced).2 = true) :
    ∃ k, Disk.walk t.now 0 dir = .dir k ∧
      (t.writeFile dir name record prepared renamed synced).1 =
        (t.put k name (some record)).sync k := by
  rw [writeFile] at h ⊢
  cases hk : Disk.walk t.now 0 dir with
  | file content | missing | notDir => rw [hk] at h; nomatch h
  | dir k =>
    rw [hk] at h
    dsimp only at h ⊢
    refine ⟨k, rfl, ?_⟩
    split at h
    · nomatch h
    · rw [if_neg ‹_›]
      split at h
      · nomatch h
      · split at h
        · rename_i hrenamed
          rw [if_pos hrenamed]
          exact syncDir_ok h
        · nomatch h

theorem remove_ok {removed : Bool} (h : (t.remove dir name removed synced).2 = true) :
    Disk.walk t.now 0 (dir ++ [name]) = .missing ∧ (t.remove dir name removed synced).1 = t ∨
    ∃ k, Disk.walk t.now 0 dir = .dir k ∧ Disk.walk t.now 0 (dir ++ [name]) ≠ .missing ∧
      (t.remove dir name removed synced).1 = (t.put k name none).sync k := by
  rw [remove] at h ⊢
  cases hk : Disk.walk t.now 0 dir with
  | file content | notDir => rw [hk] at h; exact absurd h Bool.false_ne_true
  | missing => exact .inl ⟨Disk.walk_append_missing hk, rfl⟩
  | dir k =>
    rw [hk] at h
    dsimp only at h ⊢
    rw [Disk.walk_append hk]
    cases he : t.now k name with
    | none => exact .inl ⟨by rw [Disk.walk, he], rfl⟩
    | some e =>
      rw [he] at h
      dsimp only at h ⊢
      refine .inr ⟨k, rfl, ?_, ?_⟩
      · intro hmissing
        rw [Disk.walk_singleton_missing hmissing] at he
        cases he
      · split at h
        · rename_i hremoved
          rw [if_pos hremoved]
          exact syncDir_ok h
        · exact absurd h Bool.false_ne_true

/-- The barrier of `RemoveAll` falls on the directory that the missing entry would be in. -/
theorem syncNearest_ok {up : Path} {m : Name}
    (hmissing : Disk.walk t.now 0 (up.reverse ++ [m]) = .missing)
    (h : (t.syncNearest synced up).2 = true) :
    ∃ near next k, near ++ [next] <+: up.reverse ++ [m] ∧ near <+: up.reverse ∧
      Disk.walk t.now 0 near = .dir k ∧ t.now k next = none ∧
      (t.syncNearest synced up).1 = t.sync k := by
  induction up generalizing m with
  | nil =>
    exact ⟨[], m, 0, prefix_rfl, prefix_rfl, rfl,
      Disk.walk_singleton_missing hmissing, syncDir_ok h⟩
  | cons n up ih =>
    rw [syncNearest] at h ⊢
    cases hk : Disk.walk t.now 0 (n :: up).reverse with
    | file content | notDir => rw [hk] at h; nomatch h
    | dir k =>
      rw [hk] at h
      rw [Disk.walk_append hk] at hmissing
      exact ⟨(n :: up).reverse, m, k, prefix_rfl, prefix_rfl, hk,
        Disk.walk_singleton_missing hmissing, syncDir_ok h⟩
    | missing =>
      rw [hk] at h
      rw [reverse_cons] at hk ⊢
      obtain ⟨near, next, k, hnext, hnear, hrest⟩ := ih hk h
      exact ⟨near, next, k, hnext.trans (prefix_append _ _),
        hnear.trans (prefix_append _ _), hrest⟩

theorem removeAll_ok {unlinked : List Path} (h : (t.removeAll dir name unlinked synced).2 = true) :
    ∃ near next k, near ++ [next] <+: dir ++ [name] ∧ near <+: dir ∧
      Disk.walk (t.unlinkAll (dir ++ [name]) unlinked).now 0 near = .dir k ∧
      (t.unlinkAll (dir ++ [name]) unlinked).now k next = none ∧
      (t.removeAll dir name unlinked synced).1 =
        (t.unlinkAll (dir ++ [name]) unlinked).sync k := by
  rw [removeAll] at h ⊢
  generalize t.unlinkAll (dir ++ [name]) unlinked = t' at h ⊢
  cases hw : Disk.walk t'.now 0 (dir ++ [name]) with
  | file content | dir k | notDir => rw [hw] at h; nomatch h
  | missing =>
    rw [hw] at h
    rw [← reverse_reverse dir] at hw
    have hnear := syncNearest_ok hw h
    rwa [reverse_reverse] at hnear

/-- A name in use stays in use while directories are made. -/
theorem mkdirs_now_of_some {rest : Path} {j : Nat} {m : Name} {e : Entry Record} (t : Tree)
    (h : t.now j m = some e) : (t.mkdirs i rest made).1.now j m = some e := by
  induction rest generalizing i made t with
  | nil => exact h
  | cons n rest ih =>
    rw [mkdirs.eq_def]
    dsimp only
    split
    · exact ih t h
    · exact h
    · rename_i hnone
      split
      · exact h
      · exact ih (t.mkdir i n) (Disk.mkdir_now_of_some hnone h)

/-- When `os.MkdirAll` works, the path is there. -/
theorem mkdirs_ok {rest : Path} (t : Tree) (hi : i < t.next) (h : (t.mkdirs i rest made).2 = true) :
    ∃ k, Disk.walk (t.mkdirs i rest made).1.now i rest = .dir k := by
  induction rest generalizing i made t with
  | nil => exact ⟨i, rfl⟩
  | cons n rest ih =>
    rw [mkdirs.eq_def] at h ⊢
    dsimp only at h ⊢
    cases he : t.now i n with
    | some e =>
      rw [he] at h
      cases e with
      | file content => exact absurd h Bool.false_ne_true
      | dir j =>
        obtain ⟨k, hk⟩ := ih t (t.homed i n j (he ▸ t.survives_now i n)).1 h
        refine ⟨k, ?_⟩
        rw [Disk.walk, mkdirs_now_of_some t he]
        exact hk
    | none =>
      rw [he] at h
      cases made with
      | zero => exact absurd h Bool.false_ne_true
      | succ made =>
        obtain ⟨k, hk⟩ := ih (t.mkdir i n) (Nat.lt_succ_self t.next) h
        refine ⟨k, ?_⟩
        rw [Disk.walk, mkdirs_now_of_some (t.mkdir i n) (Disk.mkdir_now_self hi)]
        exact hk

@[simp] theorem syncEach_now (inos : List Nat) (synced : Nat) (t : Tree) :
    (t.syncEach inos synced).1.now = t.now := by
  induction inos generalizing synced t with
  | nil => rfl
  | cons i rest ih =>
    cases synced with
    | zero => rfl
    | succ synced => exact (ih synced (t.sync i)).trans (t.sync_now i)

theorem syncEach_keeps_settled {inos : List Nat} {synced j : Nat} {n : Name} (t : Tree)
    (h : (t.slots j n).earlier = []) : ((t.syncEach inos synced).1.slots j n).earlier = [] := by
  induction inos generalizing synced t with
  | nil => exact h
  | cons i rest ih =>
    cases synced with
    | zero => exact h
    | succ synced => exact ih (t.sync i) (Disk.sync_keeps_settled h)

theorem syncEach_ok {inos : List Nat} {synced : Nat} (t : Tree)
    (h : (t.syncEach inos synced).2 = true) :
    ∀ k ∈ inos, ∀ n, ((t.syncEach inos synced).1.slots k n).earlier = [] := by
  induction inos generalizing synced t with
  | nil => exact fun k hk => absurd hk not_mem_nil
  | cons i rest ih =>
    cases synced with
    | zero => nomatch h
    | succ synced =>
      intro k hk n
      rcases mem_cons.mp hk with rfl | hk
      · exact syncEach_keeps_settled (t.sync k) (t.sync_settled k n)
      · exact ih (t.sync i) h k hk n

/-! ### What a crash leaves -/

/-- The entries a call relies on are durable when it is made. A call that changes an entry
syncs the directory of that entry and no other, so the directories above must be settled; a
`Remove` that finds nothing syncs nothing, so the absence must be settled as well.  `MkdirAll`
syncs every directory above. -/
def settledFor (t : Tree) : Call → Bool
  | .writeFile dir .. => t.settled false 0 dir
  | .remove dir name .. =>
    if Disk.walk t.now 0 (dir ++ [name]) = .missing then t.settled true 0 (dir ++ [name])
    else t.settled false 0 dir
  | .removeAll dir .. => t.settled false 0 dir
  | .mkdirAll .. => true

variable {crash : Nat → Name → Option (Entry Record)}

/-- A changed entry of a synced directory under settled ones survives. -/
theorem crash_put {k : Nat} {v : Option Record} (hk : Disk.walk t.now 0 dir = .dir k)
    (hs : t.settled false 0 dir = true) (hcrash : ((t.put k name v).sync k).Survives crash) :
    Disk.walk crash 0 (dir ++ [name]) = v.elim .missing .file := by
  have hapart : ¬ dir ++ [name] <+: dir := by
    intro hp
    have := hp.length_le
    simp at this
  obtain ⟨crash₀, hcrash₀, heq⟩ := (quiet_put_at hk hapart) crash hcrash.of_sync
  have hdir : Disk.walk crash 0 dir = .dir k := heq.trans (hcrash₀.walk_eq hs hk (.inl ⟨k, rfl⟩))
  have hentry : crash k name = v.map .file := by
    rw [hcrash.synced, Disk.put_now_self (Disk.walk_now_dir hk).1]
  rw [Disk.walk_append hdir, Disk.walk, hentry]
  cases v <;> rfl

/-- The unlinks of `RemoveAll` are not seen above the path. -/
theorem unlinkAll_walk {near : Path} (h : ¬ dir ++ [name] <+: near) (unlinked : List Path)
    (t : Tree) : Disk.walk (t.unlinkAll (dir ++ [name]) unlinked).now 0 near =
      Disk.walk t.now 0 near := by
  induction unlinked generalizing t with
  | nil => rfl
  | cons below rest ih =>
    refine (ih _).trans ?_
    rw [unlink]
    split
    · rename_i k hk
      refine Disk.walk_congr t.survives_now ?_
      intro i n hp
      rw [Disk.now, Disk.put_slots_of_ne, Disk.now]
      rintro ⟨rfl, rfl⟩
      rw [(Disk.walk_now_dir hk).2] at hp
      exact below_apart h hp
    · rfl

theorem crash_removeAll {unlinked : List Path}
    (h : (t.removeAll dir name unlinked synced).2 = true) (hs : t.settled false 0 dir = true)
    (hcrash : (t.removeAll dir name unlinked synced).1.Survives crash) :
    Disk.walk crash 0 (dir ++ [name]) = .missing := by
  obtain ⟨near, next, k, ⟨below, hbelow⟩, ⟨rest, hrest⟩, hk, hnone, heq⟩ := removeAll_ok h
  rw [heq] at hcrash
  have hapart : ¬ dir ++ [name] <+: near := by
    intro hp
    have hlen := hp.length_le
    have hlen' : dir.length = near.length + rest.length := by rw [← hrest, length_append]
    simp at hlen
    omega
  rw [unlinkAll_walk hapart] at hk
  obtain ⟨crash₀, hcrash₀, hwalk⟩ := (quiet_unlinkAll hapart unlinked t) crash hcrash.of_sync
  have hnear : Disk.walk crash 0 near = .dir k :=
    hwalk.trans (hcrash₀.walk_eq (Disk.settled_append (hrest ▸ hs)) hk (.inl ⟨k, rfl⟩))
  rw [← hbelow, append_assoc, Disk.walk_append hnear, singleton_append, Disk.walk,
    hcrash.synced, hnone]

theorem crash_mkdirAll {path : Path} {synced : Nat} {above : Bool}
    (h : (t.mkdirAll path made synced above).2 = true)
    (hcrash : (t.mkdirAll path made synced above).1.Survives crash) :
    ∃ k, Disk.walk crash 0 path = .dir k := by
  rw [mkdirAll] at h hcrash
  split at h
  · rename_i hfailed
    rw [h] at hfailed
    nomatch hfailed
  · rename_i hmade
    rw [if_neg hmade] at hcrash
    have hmade : (t.mkdirs 0 path made).2 = true := by simpa using hmade
    obtain ⟨k, hk⟩ := mkdirs_ok t t.root.1 hmade
    have hsynced := syncEach_ok _ (Bool.and_eq_true_iff.mp h).1
    refine ⟨k, ?_⟩
    rw [hcrash.walk_waypoints, syncEach_now]
    · exact hk
    · intro i hi
      rw [Disk.waypoints_congr (syncEach_now _ _ _)] at hi
      exact hsynced i (mem_reverse.mpr hi)

/-- A call that returns nil over settled entries leaves, crash or not, what it asked for. -/
theorem crash_exec {c : Call} (hnil : (t.exec c).2 = true) (hs : t.settledFor c = true)
    (hcrash : (t.exec c).1.Survives crash) : c.Done (Disk.walk crash 0 c.path) := by
  cases c with
  | writeFile dir name record prepared renamed synced =>
    obtain ⟨k, hk, heq⟩ := writeFile_ok hnil
    exact crash_put hk hs (heq ▸ hcrash)
  | remove dir name removed synced =>
    rw [settledFor] at hs
    rcases remove_ok hnil with ⟨hmissing, heq⟩ | ⟨k, hk, hthere, heq⟩
    · rw [if_pos hmissing] at hs
      have hcrash : t.Survives crash := heq ▸ hcrash
      exact .inl (hcrash.walk_eq hs hmissing (.inr ⟨rfl, rfl⟩))
    · rw [if_neg hthere] at hs
      exact .inl (crash_put hk hs (heq ▸ hcrash))
  | removeAll dir name unlinked synced => exact .inl (crash_removeAll hnil hs hcrash)
  | mkdirAll path made synced above => exact crash_mkdirAll hnil hcrash

/-- **A call that returned nil survives a crash.**  Whatever calls came before, whichever of
their steps failed, and whatever calls on paths apart from it come after: if the entries the
call relied on were durable when it was made and it returned nil, then every state that a
crash may leave has its path as the call asked. -/
theorem nil_survives_crash (t : Tree) (before after : List Call) (c : Call)
    (hnil : ((t.execAll before).exec c).2 = true)
    (hsettled : (t.execAll before).settledFor c = true)
    (hlast : ∀ c' ∈ after, Apart c'.path c.path) (crash : Nat → Name → Option (Entry Record))
    (hcrash : (execAll ((t.execAll before).exec c).1 after).Survives crash) :
    c.Done (Disk.walk crash 0 c.path) := by
  obtain ⟨crash₀, hcrash₀, hwalk⟩ := quiet_execAll _ hlast crash hcrash
  rw [hwalk]
  exact crash_exec hnil hsettled hcrash₀

/-- A record published in a directory just made, with a failed removal beside it afterwards. -/
theorem nil_survives_crash_demo :
    let before := [Call.mkdirAll [[97]] 1 1 true]
    let c := Call.writeFile [[97]] [114] ⟨[1, 2], 0o600⟩ true true true
    let after := [Call.remove [[97]] [115] true false, Call.mkdirAll [[98]] 1 0 true]
    (execAll Disk.bare before).settledFor c = true ∧
      ∀ crash, (execAll ((execAll Disk.bare before).exec c).1 after).Survives crash →
        c.Done (Disk.walk crash 0 c.path) :=
  ⟨by decide, nil_survives_crash Disk.bare _ _ _ (by decide) (by decide) (by decide)⟩

/-- A record is published; its removal takes effect but the sync fails, and says so; the
removal is tried again, finds nothing and returns nil. A crash brings the record back. -/
theorem removed_record_returns :
    let before := [Call.writeFile [] [114] ⟨[1, 2], 0o600⟩ true true true,
      Call.remove [] [114] true false]
    let c := Call.remove [] [114] true true
    ((execAll Disk.bare before).exec c).2 = true ∧
      ∃ crash, ((execAll Disk.bare before).exec c).1.Survives crash ∧
        Disk.walk crash 0 c.path = .file ⟨[1, 2], 0o600⟩ := by
  intro before c
  let left := ((execAll Disk.bare before).exec c).1
  let crash := fun i n =>
    if i = 0 ∧ n = [114] then some (Entry.file ⟨[1, 2], 0o600⟩) else left.now i n
  refine ⟨by decide, crash, ?_, by decide⟩
  intro i n
  by_cases h : i = 0 ∧ n = [114]
  · rw [show crash i n = some (Entry.file ⟨[1, 2], 0o600⟩) from if_pos h, h.1, h.2]
    decide
  · rw [show crash i n = left.now i n from if_neg h]
    exact left.survives_now i n

end Tree

end Observatory.Durable
