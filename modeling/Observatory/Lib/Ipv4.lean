/-
# IPv4 prefixes

An address is a number below `2 ^ 32`. A prefix is an address with the number of leading bits that
count; it stands for the block of addresses that agree with it in these bits. Blocks are intervals
(`contains_iff`), and two of them are nested or disjoint: testing each against the address of the
other decides which (`disjoint_of_not_overlaps`).
-/
import Mathlib.Data.Nat.Bitwise
import Mathlib.Tactic.Common

namespace Observatory.Lib.Ipv4

structure Prefix where
  addr : Nat
  bits : Nat
  addr_lt : addr < 2 ^ 32
  bits_le : bits ≤ 32
deriving DecidableEq

namespace Prefix

def size (p : Prefix) : Nat := 2 ^ (32 - p.bits)

/-- The first address of the block. -/
def base (p : Prefix) : Nat := p.addr / p.size * p.size

/-- The address agrees with the prefix in the bits that count. -/
def contains (p : Prefix) (x : Nat) : Bool := x / p.size = p.addr / p.size

lemma size_pos (p : Prefix) : 0 < p.size := Nat.two_pow_pos _

lemma base_le (p : Prefix) : p.base ≤ p.addr := Nat.div_mul_le_self _ _

lemma base_add_size_le (p : Prefix) : p.base + p.size ≤ 2 ^ 32 := by
  have hdvd : p.size ∣ 2 ^ 32 := pow_dvd_pow 2 (Nat.sub_le _ _)
  obtain ⟨m, hm⟩ := hdvd
  have hlt : p.addr / p.size < m := by
    refine Nat.div_lt_of_lt_mul ?_
    rw [← hm]
    exact p.addr_lt
  calc p.base + p.size = (p.addr / p.size + 1) * p.size := (Nat.succ_mul _ _).symm
    _ ≤ m * p.size := Nat.mul_le_mul_right _ hlt
    _ = 2 ^ 32 := by rw [hm, Nat.mul_comm]

lemma contains_iff (p : Prefix) {x : Nat} :
    p.contains x = true ↔ p.base ≤ x ∧ x < p.base + p.size := by
  have hbase : p.base = p.addr / p.size * p.size := rfl
  rw [contains, decide_eq_true_iff, Nat.div_eq_iff p.size_pos, ← hbase]
  have hpos := p.size_pos
  omega

/-- The same block, named by its first address. -/
def masked (p : Prefix) : Prefix where
  addr := p.base
  bits := p.bits
  addr_lt := Nat.lt_of_le_of_lt p.base_le p.addr_lt
  bits_le := p.bits_le

/-- One contains the address of the other. -/
def overlaps (p q : Prefix) : Bool := p.contains q.addr || q.contains p.addr

/-- A block with fewer bits that counts is a union of blocks with more. -/
lemma div_size_of_le {p q : Prefix} (h : p.bits ≤ q.bits) {x y : Nat}
    (hxy : x / q.size = y / q.size) : x / p.size = y / p.size := by
  have hsize : p.size = q.size * 2 ^ (q.bits - p.bits) := by
    have := q.bits_le
    rw [size, size, ← pow_add]
    congr 1
    omega
  rw [hsize, ← Nat.div_div_eq_div_mul, hxy, Nat.div_div_eq_div_mul]

/-- Two prefixes of which neither contains the address of the other have no address in common. -/
theorem disjoint_of_not_overlaps {p q : Prefix} (h : p.overlaps q = false) {x : Nat}
    (hp : p.contains x = true) : q.contains x = false := by
  by_contra hq
  rw [Bool.not_eq_false] at hq
  have hp' : x / p.size = p.addr / p.size := of_decide_eq_true hp
  have hq' : x / q.size = q.addr / q.size := of_decide_eq_true hq
  rw [overlaps, Bool.or_eq_false_iff] at h
  rcases Nat.le_total p.bits q.bits with hle | hle
  · have heq : q.addr / p.size = p.addr / p.size := (div_size_of_le hle hq').symm.trans hp'
    rw [contains, decide_eq_true heq] at h
    exact nomatch h.1
  · have heq : p.addr / q.size = q.addr / q.size := (div_size_of_le hle hp').symm.trans hq'
    rw [contains, contains, decide_eq_true heq] at h
    exact nomatch h.2

end Prefix

end Observatory.Lib.Ipv4
