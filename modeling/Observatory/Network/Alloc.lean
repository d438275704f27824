/-
# Subnets for VMs

The allocator hands out blocks of four addresses from the configured pools: the first one that is
free, in the order of the pools. Pools that overlap a route of the host are left out. An owner
keeps its block until it is released; a block that a manifest names is restored to its owner even
when no pool has it any more.

The scan of a pool starts at the pool's first address and steps by four. A pool of one or two
addresses has no block of four; its addresses are not aligned either, and the scan takes a block
that reaches out of the pool.
-/
import Observatory.Lib.Bytes
import Observatory.Lib.Ipv4
import Observatory.Lib.Machine

namespace Observatory.Network

open Lib Lib.Ipv4 List Option Option Function

/-! ## Pools and routes -/

/-- A prefix of either family. -/
inductive IPPrefix where
  | v4 (p : Prefix)
  | v6 (bits : Nat)

def IPPrefix.bits : IPPrefix → Nat
  | v4 p => p.bits
  | v6 bits => bits

structure Route where
  dst : IPPrefix

def prefixesOverlap (pool : Prefix) : IPPrefix → Bool
  | .v4 dst => pool.overlaps dst
  | .v6 _ => false

/-- The first route, other than a default one, that a pool overlaps. -/
def overlappingRoute (hostRoutes : List Route) (pool : Prefix) : Option Route :=
  hostRoutes.find? fun r => r.dst.bits ≠ 0 && prefixesOverlap pool r.dst

def usablePools (hostRoutes : List Route) (pools : List Prefix) : List Prefix :=
  pools.filter fun pool => (overlappingRoute hostRoutes pool).isNone

def excludedPools (hostRoutes : List Route) (pools : List Prefix) : List (Prefix × Route) :=
  pools.filterMap fun pool => (overlappingRoute hostRoutes pool).map fun r => (pool, r)

/-! ## The allocator -/

structure Allocator where
  pools : List Prefix
  exclusions : List (Prefix × Route)
  leases : Bytes → Option Prefix
  occupied : Prefix → Option Bytes

def plainPools : List IPPrefix → Option (List Prefix)
  | [] => some []
  | .v4 p :: rest => (plainPools rest).map (p :: ·)
  | .v6 _ :: _ => none

inductive NewError where
  | notIPv4
  /-- The allocator is there, and has no pool. -/
  | allPoolsOverlap

def newAllocator (hostRoutes : List Route) (pools : List IPPrefix) :
    Option Allocator × Option NewError :=
  match plainPools pools with
  | none => (none, some .notIPv4)
  | some pools =>
    (some ⟨usablePools hostRoutes pools, excludedPools hostRoutes pools, fun _ => none,
        fun _ => none⟩,
      if usablePools hostRoutes pools = [] then some .allPoolsOverlap else none)

/-- The block of four an address is in, named by that address. -/
def prefix30 (addr : Nat) : Prefix where
  addr := addr % 2 ^ 32
  bits := 30
  addr_lt := Nat.mod_lt _ (Nat.two_pow_pos 32)
  bits_le := by decide

def lastAddr (p : Prefix) : Nat := p.addr ||| (2 ^ (32 - p.bits) - 1)

/-- The sum in 32 bits, and whether it overflowed. -/
def addUint32 (addr delta : Nat) : Nat × Bool :=
  ((addr + delta) % 2 ^ 32, decide ((addr + delta) % 2 ^ 32 < addr))

/-- Scan a pool from an address on for a block that is free; none if `fuel` steps do not do. -/
def scan (occupied : Prefix → Option Bytes) (pool : Prefix) : Nat → Nat → Option (Option Prefix)
  | 0, _ => none
  | fuel + 1, addr =>
    if !pool.contains addr || !pool.contains (lastAddr (prefix30 addr)) then some none
    else if (occupied (prefix30 addr)).isNone then some (some (prefix30 addr))
    else if (addUint32 addr 4).2 then some none
    else scan occupied pool fuel (addUint32 addr 4).1

/-- More steps than there are blocks of four. -/
def scanFuel : Nat := 2 ^ 30 + 1

/-- The first free block of the pools, in their order. -/
def scanPools (occupied : Prefix → Option Bytes) : List Prefix → Option (Option Prefix)
  | [] => some none
  | pool :: pools =>
    match scan occupied pool scanFuel pool.masked.addr with
    | none => none
    | some none => scanPools occupied pools
    | some (some p) => some (some p)

inductive AcquireError where
  | ownerRequired
  | poolExhausted

namespace Allocator

inductive RestoreError where
  | invalidLease
  | belongsToOther (owner : Bytes)
  | holdsOther (old : Prefix)

/-- Reserve a block for an owner. -/
def assign (a : Allocator) (vmID : Bytes) (p : Prefix) : Allocator :=
  { a with
    leases := Function.update a.leases vmID (some p)
    occupied := Function.update a.occupied p (some vmID) }

/-- The owner's block, or the first free one; none if a scan does not end. -/
def acquire (a : Allocator) (vmID : Bytes) : Option (Except AcquireError Prefix × Allocator) :=
  if vmID = [] then some (.error .ownerRequired, a)
  else
    match a.leases vmID with
    | some p => some (.ok p, a)
    | none =>
      match scanPools a.occupied a.pools with
      | none => none
      | some none => some (.error .poolExhausted, a)
      | some (some p) => some (.ok p, a.assign vmID p)

/-- Give an owner the block its manifest names. -/
def restore (a : Allocator) (vmID : Bytes) : IPPrefix → Except RestoreError Allocator
  | .v6 _ => .error .invalidLease
  | .v4 p =>
    if vmID = [] ∨ p.bits ≠ 30 ∨ p ≠ p.masked then .error .invalidLease
    else if (a.occupied p).any fun owner => owner ≠ vmID then
      .error (.belongsToOther ((a.occupied p).getD []))
    else if (a.leases vmID).any fun old => old ≠ p then
      .error (.holdsOther ((a.leases vmID).getD p))
    else .ok (a.assign vmID p)

/-- Forget an owner. -/
def release (a : Allocator) (vmID : Bytes) : Allocator :=
  match a.leases vmID with
  | none => a
  | some p =>
    { a with
      leases := Function.update a.leases vmID none
      occupied := Function.update a.occupied p none }

inductive Action where
  | acquire (vmID : Bytes)
  | restore (vmID : Bytes) (p : IPPrefix)
  | release (vmID : Bytes)

def step (a : Allocator) : Action → Option Allocator
  | .acquire vmID => (a.acquire vmID).map Prod.snd
  | .restore vmID p => some ((a.restore vmID p).toOption.getD a)
  | .release vmID => some (a.release vmID)

end Allocator

/-! ## Blocks of four -/

variable {pools : List Prefix} {fuel x : Nat} {p pool : Prefix} {occupied : Prefix → Option Bytes}

lemma prefix30_addr (hx : x < 2 ^ 32) : (prefix30 x).addr = x := Nat.mod_eq_of_lt hx

lemma prefix30_masked (hdvd : 4 ∣ x) : (prefix30 x).masked = prefix30 x := by
  have hbase : (prefix30 x).base = x % 2 ^ 32 := by
    show (x % 2 ^ 32) / 4 * 4 = x % 2 ^ 32
    omega
  simp only [Prefix.masked, hbase]
  rfl

lemma lastAddr_prefix30 (hx : x < 2 ^ 32) (hdvd : 4 ∣ x) :
    lastAddr (prefix30 x) = x + 3 := by
  obtain ⟨k, rfl⟩ := hdvd
  show ((4 * k) % 2 ^ 32) ||| 3 = 4 * k + 3
  rw [Nat.mod_eq_of_lt hx]
  exact (Nat.two_pow_add_eq_or_of_lt (i := 2) (b := 3) (by decide) k).symm

/-- Two aligned blocks with an address in common are the same. -/
lemma eq_of_contains {q : Prefix} (hp : p.bits = 30) (hq : q.bits = 30) (hp' : p.masked = p)
    (hq' : q.masked = q) (hpx : p.contains x = true) (hqx : q.contains x = true) :
    p = q := by
  have hsize : p.size = q.size := by rw [Prefix.size, Prefix.size, hp, hq]
  have hpx' : x / p.size = p.addr / p.size := of_decide_eq_true hpx
  have hqx' : x / q.size = q.addr / q.size := of_decide_eq_true hqx
  have hbase : p.base = q.base := by
    show p.addr / p.size * p.size = q.addr / q.size * q.size
    rw [← hpx', ← hqx', hsize]
  have haddr : p.addr = q.addr := by
    rw [← hp', ← hq']
    exact hbase
  cases p
  cases q
  obtain rfl : _ = _ := haddr
  obtain rfl : _ = _ := hp.trans hq.symm
  rfl

/-! ## Pools that have blocks -/

/-- A pool of four addresses or more. -/
def Large (pool : Prefix) : Prop := pool.bits ≤ 30

instance (pool : Prefix) : Decidable (Large pool) := inferInstanceAs (Decidable (_ ≤ _))

namespace Large

variable {pool : Prefix}

lemma dvd_size (h : Large pool) : 4 ∣ pool.size :=
  pow_dvd_pow 2 (show 2 ≤ 32 - pool.bits by have : pool.bits ≤ 30 := h; omega)

lemma dvd_base (h : Large pool) : 4 ∣ pool.base := Dvd.dvd.mul_left h.dvd_size _

/-- With an aligned address a pool has its whole block. -/
lemma contains_last (h : Large pool) {x : Nat} (hdvd : 4 ∣ x) (hx : pool.contains x = true) :
    pool.contains (lastAddr (prefix30 x)) = true := by
  have hlt := pool.base_add_size_le
  have hsize := h.dvd_size
  have hbase := h.dvd_base
  rw [Prefix.contains_iff] at hx
  rw [lastAddr_prefix30 (by omega) hdvd, Prefix.contains_iff]
  omega

lemma contains_block (h : Large pool) {x y : Nat} (hdvd : 4 ∣ x) (hx : pool.contains x = true)
    (hy : (prefix30 x).contains y = true) : pool.contains y = true := by
  have hlt := pool.base_add_size_le
  have hsize := h.dvd_size
  have hbase := h.dvd_base
  rw [Prefix.contains_iff] at hx
  have hy' : y / 4 = (prefix30 x).addr / 4 := of_decide_eq_true hy
  rw [prefix30_addr (by omega)] at hy'
  rw [Prefix.contains_iff]
  omega

end Large

/-! ## The scan -/

lemma addUint32_four (hx : x < 2 ^ 32) (h : (addUint32 x 4).2 = false) :
    (addUint32 x 4).1 = x + 4 ∧ x + 4 < 2 ^ 32 := by
  have hnot : ¬ (x + 4) % 2 ^ 32 < x := of_decide_eq_false h
  show (x + 4) % 2 ^ 32 = x + 4 ∧ x + 4 < 2 ^ 32
  omega

lemma le_of_addUint32 (h : (addUint32 x 4).2 = true) : 2 ^ 32 ≤ x + 4 := by
  have hlt : (x + 4) % 2 ^ 32 < x := of_decide_eq_true h
  omega

/-- With a step for each block up to the end of the address space a scan ends. -/
lemma scan_isSome (occupied : Prefix → Option Bytes) (pool : Prefix) (hx : x < 2 ^ 32)
    (hfuel : 2 ^ 32 ≤ x + 4 * fuel) : (scan occupied pool fuel x).isSome = true := by
  induction fuel generalizing x with
  | zero => omega
  | succ fuel ih =>
    rw [scan]
    split_ifs with hin hfree hover
    · rfl
    · rfl
    · rfl
    · obtain ⟨hnext, hlt⟩ := addUint32_four hx (by simpa using hover)
      rw [hnext]
      exact ih hlt (by omega)

lemma scan_found (hx : x < 2 ^ 32) (hdvd : 4 ∣ x) (h : scan occupied pool fuel x = some (some p)) :
    ∃ y < 2 ^ 32, 4 ∣ y ∧ pool.contains y = true ∧ p = prefix30 y ∧ occupied p = none := by
  induction fuel generalizing x with
  | zero => cases h
  | succ fuel ih =>
    rw [scan] at h
    split_ifs at h with hin hfree hover
    · exact nomatch some.inj h
    · cases some.inj (some.inj h)
      have hcontains : pool.contains x = true := by
        cases hc : pool.contains x with
        | true => rfl
        | false => simp [hc] at hin
      exact ⟨x, hx, hdvd, hcontains, rfl, isNone_iff_eq_none.1 hfree⟩
    · exact nomatch some.inj h
    · obtain ⟨hnext, hlt⟩ := addUint32_four hx (by simpa using hover)
      rw [hnext] at h
      exact ih hlt (by omega) h

/-- If none is found, every aligned block of the pool from there on is taken. -/
lemma scan_none (hlarge : Large pool) (hx : x < 2 ^ 32) (hdvd : 4 ∣ x) (hbase : pool.base ≤ x)
    (h : scan occupied pool fuel x = some none) {y : Nat} (hy : 4 ∣ y) (hxy : x ≤ y)
    (hcontains : pool.contains y = true) : (occupied (prefix30 y)).isSome = true := by
  have hend := pool.base_add_size_le
  have hy' := pool.contains_iff.1 hcontains
  induction fuel generalizing x with
  | zero => cases h
  | succ fuel ih =>
    -- the pool goes on up to `y`, so it has the block at `x`
    have hin : pool.contains x = true := pool.contains_iff.2 ⟨hbase, by omega⟩
    have hlast := hlarge.contains_last hdvd hin
    rw [scan, hin, hlast, if_neg (by decide)] at h
    by_cases hfree : (occupied (prefix30 x)).isNone = true
    · rw [if_pos hfree] at h
      exact nomatch some.inj h
    have htaken : (occupied (prefix30 x)).isSome = true := by
      rw [isSome_iff_ne_none]
      exact fun hnone => hfree (isNone_iff_eq_none.2 hnone)
    rw [if_neg hfree] at h
    split_ifs at h with hover
    · have hle := le_of_addUint32 hover
      obtain rfl : x = y := by omega
      exact htaken
    · obtain ⟨hnext, hlt⟩ := addUint32_four hx (by simpa using hover)
      rw [hnext] at h
      rcases Nat.eq_or_lt_of_le hxy with rfl | hlt'
      · exact htaken
      · exact ih hlt (by omega) (by omega) h (by omega)

lemma scanPools_isSome (occupied : Prefix → Option Bytes) (pools : List Prefix) :
    (scanPools occupied pools).isSome = true := by
  induction pools with
  | nil => rfl
  | cons pool pools ih =>
    have hscan : (scan occupied pool scanFuel pool.masked.addr).isSome = true := by
      refine scan_isSome occupied pool pool.masked.addr_lt ?_
      rw [scanFuel]
      omega
    rw [scanPools]
    cases hres : scan occupied pool scanFuel pool.masked.addr with
    | none => simp [hres] at hscan
    | some found =>
      cases found with
      | none => exact ih
      | some p => rfl

lemma scanPools_found (hlarge : ∀ pool ∈ pools, Large pool)
    (h : scanPools occupied pools = some (some p)) :
    ∃ pool ∈ pools, ∃ y < 2 ^ 32, 4 ∣ y ∧ pool.contains y = true ∧ p = prefix30 y ∧
      occupied p = none := by
  induction pools with
  | nil => cases h
  | cons pool pools ih =>
    rw [scanPools] at h
    cases hres : scan occupied pool scanFuel pool.masked.addr with
    | none => simp [hres] at h
    | some found =>
      simp only [hres] at h
      cases found with
      | none =>
        obtain ⟨pool', hpool', hfound⟩ := ih (fun q hq => hlarge q (.tail _ hq)) h
        exact ⟨pool', .tail _ hpool', hfound⟩
      | some q =>
        obtain rfl : q = p := some.inj (some.inj h)
        have hdvd : 4 ∣ pool.masked.addr := (hlarge pool (.head _)).dvd_base
        exact ⟨pool, mem_cons_self, scan_found pool.masked.addr_lt hdvd hres⟩

lemma scan_free (h : scan occupied pool fuel x = some (some p)) : occupied p = none := by
  induction fuel generalizing x with
  | zero => cases h
  | succ fuel ih =>
    rw [scan] at h
    split_ifs at h with hin hfree hover
    · exact nomatch some.inj h
    · cases some.inj (some.inj h)
      exact isNone_iff_eq_none.1 hfree
    · exact nomatch some.inj h
    · exact ih h

lemma scanPools_free (h : scanPools occupied pools = some (some p)) : occupied p = none := by
  induction pools with
  | nil => cases h
  | cons pool pools ih =>
    rw [scanPools] at h
    cases hres : scan occupied pool scanFuel pool.masked.addr with
    | none => simp [hres] at h
    | some found =>
      simp only [hres] at h
      cases found with
      | none => exact ih h
      | some q =>
        obtain rfl : q = p := some.inj (some.inj h)
        exact scan_free hres

lemma scanPools_none (hlarge : ∀ pool ∈ pools, Large pool)
    (h : scanPools occupied pools = some none) (hpool : pool ∈ pools) {y : Nat} (hy : 4 ∣ y)
    (hcontains : pool.contains y = true) : (occupied (prefix30 y)).isSome = true := by
  induction pools with
  | nil => cases hpool
  | cons pool' pools ih =>
    rw [scanPools] at h
    cases hres : scan occupied pool' scanFuel pool'.masked.addr with
    | none => simp [hres] at h
    | some found =>
      simp only [hres] at h
      cases found with
      | some q => exact nomatch some.inj h
      | none =>
        rcases mem_cons.1 hpool with rfl | hpool
        · have hbig := hlarge pool mem_cons_self
          exact scan_none hbig pool.masked.addr_lt hbig.dvd_base (Nat.le_refl _) hres hy
            (pool.contains_iff.1 hcontains).1 hcontains
        · exact ih (fun q hq => hlarge q (.tail _ hq)) h hpool

/-! ## Leases -/

lemma plainPools_map (pools : List Prefix) : plainPools (pools.map IPPrefix.v4) = some pools := by
  induction pools with
  | nil => rfl
  | cons p pools ih => rw [map_cons, plainPools, ih, map_some]

lemma disjoint_of_usable {hostRoutes : List Route} (hpool : pool ∈ usablePools hostRoutes pools)
    {r : Route} (hr : r ∈ hostRoutes) {dst : Prefix} (hdst : r.dst = .v4 dst)
    (hbits : dst.bits ≠ 0) (hx : pool.contains x = true) :
    dst.contains x = false := by
  have hnone : overlappingRoute hostRoutes pool = none :=
    isNone_iff_eq_none.1 (mem_filter.1 hpool).2
  have hr := List.find?_eq_none.1 hnone r hr
  have hover : pool.overlaps dst = false := by
    simpa [hdst, IPPrefix.bits, hbits, prefixesOverlap] using hr
  exact Prefix.disjoint_of_not_overlaps hover hx

namespace Allocator

/-- The two maps are inverse to each other, and hold aligned blocks. -/
structure Inv (a : Allocator) : Prop where
  inverse : ∀ v p, a.leases v = some p ↔ a.occupied p = some v
  aligned : ∀ v p, a.leases v = some p → p.bits = 30 ∧ p.masked = p

variable {a a' : Allocator}

/-- The two maps are inverse to each other. -/
def Paired (a : Allocator) : Prop := ∀ v p, a.leases v = some p ↔ a.occupied p = some v

lemma paired_new (pools : List Prefix) (exclusions : List (Prefix × Route)) :
    Paired ⟨pools, exclusions, fun _ => none, fun _ => none⟩ := by
  intro v p
  exact ⟨fun hv => absurd hv (by simp), fun hp => absurd hp (by simp)⟩

variable {v : Bytes} {p : Prefix}

/-- A block that no one else has is given to an owner that has no other. -/
lemma Paired.assign (h : Paired a) (howner : ∀ w, a.occupied p = some w → w = v)
    (hblock : ∀ q, a.leases v = some q → q = p) :
    Paired (a.assign v p) := by
  intro w q
  show update a.leases v (some p) w = some q
    ↔ update a.occupied p (some v) q = some w
  by_cases hw : w = v <;> by_cases hq : q = p
  · simp [hw, hq]
  · rw [hw, update_self, update_of_ne hq, ← h v q]
    exact ⟨fun heq => absurd (some.inj heq).symm hq,
      fun hlease => absurd (hblock q hlease) hq⟩
  · rw [hq, update_self, update_of_ne hw, h w p]
    exact ⟨fun hocc => absurd (howner w hocc) hw,
      fun heq => absurd (some.inj heq).symm hw⟩
  · rw [update_of_ne hw, update_of_ne hq]
    exact h w q

lemma Paired.release (h : Paired a) (v : Bytes) : Paired (a.release v) := by
  rw [Allocator.release]
  cases hv : a.leases v with
  | none => exact h
  | some p =>
    intro w q
    show update a.leases v none w = some q
      ↔ update a.occupied p none q = some w
    by_cases hw : w = v <;> by_cases hq : q = p
    · simp [hw, hq]
    · rw [hw, update_self, update_of_ne hq, ← h v q, hv]
      exact ⟨nofun, fun heq => absurd (some.inj heq).symm hq⟩
    · rw [hq, update_self, update_of_ne hw, h w p, (h v p).1 hv]
      exact ⟨fun heq => absurd (some.inj heq).symm hw, nofun⟩
    · rw [update_of_ne hw, update_of_ne hq]
      exact h w q

lemma restore_ok (hok : a.restore v (.v4 p) = .ok a') :
    a' = a.assign v p ∧ (p.bits = 30 ∧ p.masked = p) ∧
      (∀ w, a.occupied p = some w → w = v) ∧ ∀ q, a.leases v = some q → q = p := by
  simp only [Allocator.restore] at hok
  split_ifs at hok with hvalid hother hholds
  rw [not_or, not_or, not_not, not_not] at hvalid
  refine ⟨(Except.ok.inj hok).symm, ⟨hvalid.2.1, hvalid.2.2.symm⟩, fun w hw => ?_, fun q hq => ?_⟩
  · simpa [hw] using hother
  · simpa [hq] using hholds

/-- What an acquire that works gives: the owner's block, now or before. -/
lemma acquire_ok (h : Paired a) (hacq : a.acquire v = some (.ok p, a')) :
    Paired a' ∧ a'.occupied p = some v ∧ (a' = a ∨ a' = a.assign v p ∧ a.occupied p = none) := by
  rw [acquire] at hacq
  split_ifs at hacq with hv
  · exact nomatch some.inj hacq
  cases hlease : a.leases v with
  | some q =>
    rw [hlease] at hacq
    obtain ⟨hq, rfl⟩ := Prod.mk.inj (some.inj hacq)
    obtain rfl := Except.ok.inj hq
    exact ⟨h, (h v q).1 hlease, .inl rfl⟩
  | none =>
    rw [hlease] at hacq
    cases hscan : scanPools a.occupied a.pools with
    | none => simp [hscan] at hacq
    | some found =>
      simp only [hscan] at hacq
      cases found with
      | none => exact nomatch some.inj hacq
      | some q =>
        obtain ⟨hq, rfl⟩ := Prod.mk.inj (some.inj hacq)
        cases hq
        have hfree := scanPools_free hscan
        refine ⟨h.assign (fun w hw => ?_) (fun r hr => ?_), update_self .., .inr ⟨rfl, hfree⟩⟩
        · exact nomatch hfree.symm.trans hw
        · exact nomatch hlease.symm.trans hr

lemma inv_new (pools : List Prefix) (exclusions : List (Prefix × Route)) :
    Inv ⟨pools, exclusions, fun _ => none, fun _ => none⟩ :=
  ⟨paired_new pools exclusions, fun v p hv => absurd hv (by simp)⟩

lemma acquire_error {err : AcquireError} (hacq : a.acquire v = some (.error err, a')) : a' = a := by
  rw [acquire] at hacq
  split_ifs at hacq with hv
  · exact (Prod.mk.inj (some.inj hacq)).2.symm
  cases hlease : a.leases v with
  | some q => rw [hlease] at hacq; exact nomatch some.inj hacq
  | none =>
    rw [hlease] at hacq
    cases hscan : scanPools a.occupied a.pools with
    | none => simp [hscan] at hacq
    | some found =>
      simp only [hscan] at hacq
      cases found with
      | none => exact (Prod.mk.inj (some.inj hacq)).2.symm
      | some q => exact nomatch some.inj hacq

/-- Giving a block to an owner keeps the blocks aligned. -/
lemma Inv.assign (h : Inv a) (hp : p.bits = 30 ∧ p.masked = p)
    (howner : ∀ w, a.occupied p = some w → w = v) (hblock : ∀ q, a.leases v = some q → q = p) :
    Inv (a.assign v p) := by
  refine ⟨Paired.assign h.inverse howner hblock, fun w q hq => ?_⟩
  have hq : update a.leases v (some p) w = some q := hq
  by_cases hw : w = v
  · rw [hw, update_self] at hq
    cases hq
    exact hp
  · rw [update_of_ne hw] at hq
    exact h.aligned w q hq

lemma Inv.release (h : Inv a) (v : Bytes) : Inv (a.release v) := by
  refine ⟨Paired.release h.inverse v, fun w q hq => ?_⟩
  rw [Allocator.release] at hq
  cases hv : a.leases v with
  | none =>
    rw [hv] at hq
    exact h.aligned w q hq
  | some p =>
    rw [hv] at hq
    have hq : update a.leases v none w = some q := hq
    by_cases hw : w = v
    · rw [hw, update_self] at hq
      cases hq
    · rw [update_of_ne hw] at hq
      exact h.aligned w q hq

lemma Inv.restore (h : Inv a) {ip : IPPrefix} (hok : a.restore v ip = .ok a') :
    Inv a' ∧ a'.pools = a.pools := by
  cases ip with
  | v6 bits => cases hok
  | v4 p =>
    obtain ⟨rfl, hp, howner, hblock⟩ := restore_ok hok
    exact ⟨h.assign hp howner hblock, rfl⟩

lemma acquire_cases (hv : v ≠ []) (hnew : a.leases v = none)
    (hlarge : ∀ pool ∈ a.pools, Large pool) :
    (∃ pool ∈ a.pools, ∃ y, 4 ∣ y ∧ pool.contains y = true ∧ a.occupied (prefix30 y) = none ∧
        a.acquire v = some (.ok (prefix30 y), a.assign v (prefix30 y))) ∨
      (a.acquire v = some (.error .poolExhausted, a) ∧
        ∀ pool ∈ a.pools, ∀ y, 4 ∣ y → pool.contains y = true →
          (a.occupied (prefix30 y)).isSome = true) := by
  have hscan := scanPools_isSome a.occupied a.pools
  simp only [acquire, if_neg hv, hnew]
  cases hres : scanPools a.occupied a.pools with
  | none => simp [hres] at hscan
  | some found =>
    cases found with
    | none =>
      exact .inr ⟨rfl, fun pool hpool y hy hcontains =>
        scanPools_none hlarge hres hpool hy hcontains⟩
    | some p =>
      obtain ⟨pool, hpool, y, -, hdvd, hcontains, rfl, hfree⟩ := scanPools_found hlarge hres
      exact .inl ⟨pool, hpool, y, hdvd, hcontains, hfree, rfl⟩

lemma Inv.acquire (h : Inv a) (hlarge : ∀ pool ∈ a.pools, Large pool)
    {out : Except AcquireError Prefix} (hacq : a.acquire v = some (out, a')) :
    Inv a' ∧ a'.pools = a.pools := by
  by_cases hv : v = []
  · rw [Allocator.acquire, if_pos hv] at hacq
    obtain ⟨-, rfl⟩ := Prod.mk.inj (some.inj hacq)
    exact ⟨h, rfl⟩
  cases hlease : a.leases v with
  | some p =>
    simp only [Allocator.acquire, if_neg hv, hlease] at hacq
    obtain ⟨-, rfl⟩ := Prod.mk.inj (some.inj hacq)
    exact ⟨h, rfl⟩
  | none =>
    rcases acquire_cases hv hlease hlarge with ⟨pool, -, y, hdvd, -, hfree, heq⟩ | ⟨heq, -⟩
    · rw [heq] at hacq
      obtain ⟨-, rfl⟩ := Prod.mk.inj (some.inj hacq)
      refine ⟨h.assign ⟨rfl, prefix30_masked hdvd⟩ (fun w hw => ?_) (fun q hq => ?_), rfl⟩
      · exact nomatch hfree.symm.trans hw
      · exact nomatch hlease.symm.trans hq
    · rw [heq] at hacq
      obtain ⟨-, rfl⟩ := Prod.mk.inj (some.inj hacq)
      exact ⟨h, rfl⟩

lemma Inv.step (h : Inv a) (hlarge : ∀ pool ∈ a.pools, Large pool) {act : Action}
    (hstep : a.step act = some a') : Inv a' ∧ a'.pools = a.pools := by
  cases act with
  | acquire v =>
    obtain ⟨⟨out, b⟩, hacq, rfl⟩ := map_eq_some_iff.1 hstep
    exact h.acquire hlarge hacq
  | restore v ip =>
    cases hstep
    cases hres : a.restore v ip with
    | error err => exact ⟨h, rfl⟩
    | ok b => exact h.restore hres
  | release v =>
    cases hstep
    refine ⟨h.release v, ?_⟩
    rw [Allocator.release]
    cases a.leases v <;> rfl

/-- **Allocation is sound and complete.**  With pools of four addresses or more, after any sequence
of calls: the two maps are inverse to each other; owners hold aligned blocks of four, different
owners disjoint ones; and for an owner that has none an acquire always ends, hands out a block that
lies in a configured pool and is off every route but default ones, or reports exhaustion, and the
latter exactly when every block of the usable pools is held. -/
theorem alloc_sound_complete {hostRoutes : List Route} {pools : List Prefix} {a₀ a : Allocator}
    (hnew : (newAllocator hostRoutes (pools.map IPPrefix.v4)).1 = some a₀)
    (hlarge : ∀ pool ∈ pools, Large pool) {as : List Action} (hrun : run step a₀ as = some a) :
    (∀ v p, a.leases v = some p ↔ a.occupied p = some v) ∧
      (∀ v p, a.leases v = some p → p.bits = 30 ∧ p.masked = p) ∧
      (∀ v w p q, a.leases v = some p → a.leases w = some q → v ≠ w →
        ∀ x, ¬ (p.contains x = true ∧ q.contains x = true)) ∧
      ∀ v, v ≠ [] → a.leases v = none → ∃ out a', a.acquire v = some (out, a') ∧
        (∀ p, out = .ok p →
          (∃ pool ∈ pools, ∀ x, p.contains x = true → pool.contains x = true) ∧
          ∀ r ∈ hostRoutes, ∀ dst, r.dst = .v4 dst → dst.bits ≠ 0 →
            ∀ x, p.contains x = true → dst.contains x = false) ∧
        (out = .error .poolExhausted ↔
          ∀ pool ∈ usablePools hostRoutes pools, ∀ y, 4 ∣ y → pool.contains y = true →
            ∃ w, a.leases w = some (prefix30 y)) := by
  rw [newAllocator, plainPools_map] at hnew
  cases hnew
  have husable : ∀ pool ∈ usablePools hostRoutes pools, Large pool := fun pool hpool =>
    hlarge pool (mem_of_mem_filter hpool)
  obtain ⟨h, hpools⟩ : Inv a ∧ a.pools = usablePools hostRoutes pools :=
    run_preserves (I := fun a => Inv a ∧ a.pools = usablePools hostRoutes pools)
      (fun a act a' h hstep => by
        obtain ⟨h', hpools⟩ := h.1.step (h.2 ▸ husable) hstep
        exact ⟨h', hpools.trans h.2⟩)
      ⟨inv_new _ _, rfl⟩ hrun
  refine ⟨h.inverse, h.aligned, fun v w p q hv hw hne x hx => hne ?_, fun v hv hnone => ?_⟩
  · -- blocks with an address in common are one block, which has one owner
    obtain ⟨hp, hp'⟩ := h.aligned v p hv
    obtain ⟨hq, hq'⟩ := h.aligned w q hw
    cases eq_of_contains hp hq hp' hq' hx.1 hx.2
    exact some.inj (((h.inverse v p).1 hv).symm.trans ((h.inverse w p).1 hw))
  · rcases acquire_cases hv hnone (hpools ▸ husable) with
      ⟨pool, hpool, y, hdvd, hcontains, hfree, heq⟩ | ⟨heq, hall⟩
    · rw [hpools] at hpool
      have hblock : ∀ x, (prefix30 y).contains x = true → pool.contains x = true := fun x hx =>
        (husable pool hpool).contains_block hdvd hcontains hx
      refine ⟨_, _, heq, fun p hp => ?_, nofun, fun hall => ?_⟩
      · cases hp
        exact ⟨⟨pool, mem_of_mem_filter hpool, hblock⟩, fun r hr dst hdst hbits x hx =>
          disjoint_of_usable hpool hr hdst hbits (hblock x hx)⟩
      · obtain ⟨w, hw⟩ := hall pool hpool y hdvd hcontains
        exact nomatch hfree.symm.trans ((h.inverse w _).1 hw)
    · refine ⟨_, _, heq, nofun, fun _ pool hpool y hdvd hcontains => ?_,
        fun _ => rfl⟩
      obtain ⟨w, hw⟩ := isSome_iff_exists.1 (hall pool (hpools ▸ hpool) y hdvd hcontains)
      exact ⟨w, (h.inverse w _).2 hw⟩

/-! ### Two pools -/

def demoPool (addr bits : Nat) (haddr : addr < 2 ^ 32) (hbits : bits ≤ 32) : Prefix :=
  ⟨addr, bits, haddr, hbits⟩

/-- The last eight addresses of all: two blocks. -/
def demoPools : List Prefix := [demoPool (2 ^ 32 - 8) 29 (by decide) (by decide)]

def demoAllocator (pools : List Prefix) : Allocator := ⟨pools, [], fun _ => none, fun _ => none⟩

/-- Three owners and a release. -/
def demoCalls : List Action := [.acquire [1], .acquire [2], .acquire [3], .release [1], .acquire [3]]

theorem alloc_sound_complete_demo : ∃ a,
    run step (demoAllocator demoPools) demoCalls = some a ∧
      a.leases [3] = some (prefix30 (2 ^ 32 - 8)) ∧ a.leases [1] = none ∧
      (∀ v p, a.leases v = some p ↔ a.occupied p = some v) := by
  have hnew : (newAllocator [] (demoPools.map IPPrefix.v4)).1 = some (demoAllocator demoPools) := rfl
  exact ⟨_, yields (by decide +kernel), by decide +kernel, by decide +kernel,
    (alloc_sound_complete hnew (by decide) (yields _)).1⟩

/-- Four addresses, and the upper two of them again. -/
def demoSmall : List Prefix :=
  [demoPool (10 * 2 ^ 24) 30 (by decide) (by decide),
    demoPool (10 * 2 ^ 24 + 2) 31 (by decide) (by decide)]

/-- From a pool of two addresses the second owner is given a block that is not aligned, reaches out
of the pool and has addresses of the first one's. -/
theorem alloc_overlaps_small_pool : ∃ a₀ a p q,
    (newAllocator [] (demoSmall.map IPPrefix.v4)).1 = some a₀ ∧
      run step a₀ [.acquire [1], .acquire [2]] = some a ∧ a.leases [1] = some p ∧
      a.leases [2] = some q ∧ q.masked ≠ q ∧ p.contains (10 * 2 ^ 24) = true ∧
      q.contains (10 * 2 ^ 24) = true := by
  simp only [exists_and_left]
  decide +kernel

end Allocator

end Observatory.Network
