/-
# Circular buffers

A fixed buffer that keeps the newest elements appended to it: the oldest one stands at `start`, and
the ones after it follow, from the end of the buffer back to its front. Appending overwrites what
is too old.

`contents` lists what is held, oldest first.
-/
import Mathlib.Data.List.Rotate
import Mathlib.Tactic.Common

namespace Observatory.Lib

open List List

universe u

variable {α : Type u}

/-! ## Overwriting a piece of a list -/

/-- Copy `src` over `dst` from position `i` on; what does not fit is left out. -/
def overwrite (dst : List α) (i : Nat) (src : List α) : List α :=
  dst.take i ++ src.take (dst.length - i) ++ dst.drop (i + src.length)

lemma length_overwrite {dst : List α} {i : Nat} (hi : i ≤ dst.length) (src : List α) :
    (overwrite dst i src).length = dst.length := by
  simp only [overwrite, length_append, length_take, length_drop]
  omega

lemma getElem?_overwrite {dst src : List α} {i k : Nat} (hi : i ≤ dst.length)
    (hk : k < dst.length) :
    (overwrite dst i src)[k]? = if i ≤ k ∧ k < i + src.length then src[k - i]? else dst[k]? := by
  have hlen : (dst.take i).length = i := by rw [length_take]; omega
  have hlen' : (dst.take i ++ src.take (dst.length - i)).length
      = i + min (dst.length - i) src.length := by
    rw [length_append, hlen, length_take]
  rw [overwrite]
  by_cases hlow : k < i
  · rw [if_neg (by omega), getElem?_append_left (by omega),
      getElem?_append_left (by omega), getElem?_take_of_lt hlow]
  by_cases hhigh : k < i + src.length
  · rw [if_pos ⟨by omega, hhigh⟩, getElem?_append_left (by omega),
      getElem?_append_right (by omega), hlen, getElem?_take_of_lt (by omega)]
  · rw [if_neg (by omega), getElem?_append_right (by omega), getElem?_drop, hlen']
    congr 1
    omega

/-- One turn around a cycle of length `n`. -/
lemma mod_of_lt_two_mul {x n : Nat} (h : x < 2 * n) : x % n = if x < n then x else x - n := by
  split_ifs with hx
  · exact Nat.mod_eq_of_lt hx
  · rw [Nat.mod_eq_sub_mod (by omega), Nat.mod_eq_of_lt (by omega)]

/-! ## The buffer -/

structure Circular (α : Type u) where
  buf : List α
  /-- The position of the oldest element held. -/
  start : Nat
  /-- How many are held. -/
  count : Nat
  start_lt : start < buf.length
  count_le : count ≤ buf.length

namespace Circular

def size (c : Circular α) : Nat := c.buf.length

lemma size_pos (c : Circular α) : 0 < c.size := Nat.zero_lt_of_lt c.start_lt

/-- What is held, oldest first. -/
def contents (c : Circular α) : List α := (c.buf.rotate c.start).take c.count

@[simp] lemma length_contents (c : Circular α) : c.contents.length = c.count := by
  rw [contents, length_take, length_rotate]
  exact Nat.min_eq_left c.count_le

lemma getElem?_contents (c : Circular α) {k : Nat} (hk : k < c.count) :
    c.contents[k]? = c.buf[(c.start + k) % c.size]? := by
  rw [contents, getElem?_take_of_lt hk,
    getElem?_rotate (Nat.lt_of_lt_of_le hk c.count_le), Nat.add_comm, size]

/-! ### Appending -/

/-- The buffer after `p`, shorter than it, was written from the end of what is held on: first up
to the end of the buffer, then from its front. -/
def written (c : Circular α) (p : List α) : List α :=
  overwrite (overwrite c.buf ((c.start + c.count) % c.size) p) 0
    (p.drop (min (c.size - (c.start + c.count) % c.size) p.length))

lemma length_written (c : Circular α) (p : List α) : (c.written p).length = c.size := by
  have hend := Nat.mod_lt (c.start + c.count) c.size_pos
  rw [written, length_overwrite (Nat.zero_le _), length_overwrite (Nat.le_of_lt hend), size]

def append (c : Circular α) (p : List α) : Circular α :=
  if hall : c.size ≤ p.length then
    { buf := overwrite c.buf 0 (p.drop (p.length - c.size))
      start := 0
      count := c.size
      start_lt := by
        rw [length_overwrite (Nat.zero_le _)]
        exact c.size_pos
      count_le := by
        rw [length_overwrite (Nat.zero_le _)]
        exact Nat.le_refl _ }
  else if hover : 0 < c.count + p.length - c.size then
    { buf := c.written p
      start := (c.start + (c.count + p.length - c.size)) % c.size
      count := c.size
      start_lt := by
        rw [length_written]
        exact Nat.mod_lt _ c.size_pos
      count_le := Nat.le_of_eq (c.length_written p).symm }
  else
    { buf := c.written p
      start := c.start
      count := c.count + p.length
      start_lt := by
        rw [length_written]
        exact c.start_lt
      count_le := by
        rw [length_written]
        omega }

/-- How many elements an append pushes out. -/
def excess (c : Circular α) (p : List α) : Nat := c.count + p.length - c.size

@[simp] lemma size_append (c : Circular α) (p : List α) : (c.append p).size = c.size := by
  rw [append]
  split_ifs
  · exact length_overwrite (Nat.zero_le _) _
  · exact c.length_written p
  · exact c.length_written p

lemma count_append (c : Circular α) (p : List α) :
    (c.append p).count = c.count + p.length - c.excess p := by
  have hcount : c.count ≤ c.size := c.count_le
  rw [append, excess]
  split_ifs <;> dsimp only <;> omega

/-- What is written stands behind what is held, and what is not pushed out stays. -/
lemma getElem?_written (c : Circular α) {p : List α} (hp : p.length < c.size) {j : Nat}
    (hj : c.excess p ≤ j) (hj' : j < c.count + p.length) :
    (c.written p)[(c.start + j) % c.size]? = (c.contents ++ p)[j]? := by
  have hstart : c.start < c.size := c.start_lt
  have hcount : c.count ≤ c.size := c.count_le
  rw [excess] at hj
  have hend : (c.start + c.count) % c.size < c.size := Nat.mod_lt _ c.size_pos
  have hpos : (c.start + j) % c.size < c.size := Nat.mod_lt _ c.size_pos
  have hlen : (overwrite c.buf ((c.start + c.count) % c.size) p).length = c.size :=
    length_overwrite (Nat.le_of_lt hend) p
  rw [written, getElem?_overwrite (Nat.zero_le _) (by rwa [hlen]),
    getElem?_overwrite (Nat.le_of_lt hend) hpos, length_drop, getElem?_drop]
  have hend' := mod_of_lt_two_mul (x := c.start + c.count) (n := c.size) (by omega)
  by_cases hold : j < c.count
  · -- an element that is held: its position is not written over
    rw [getElem?_append_left (by simpa using hold), c.getElem?_contents hold]
    have hpos' := mod_of_lt_two_mul (x := c.start + j) (n := c.size) (by omega)
    rw [if_neg, if_neg]
    · split_ifs at hend' hpos' <;> omega
    · split_ifs at hend' hpos' <;> omega
  · -- an element of `p`, before or behind the end of the buffer
    have hmod : (c.start + j) % c.size
        = ((c.start + c.count) % c.size + (j - c.count)) % c.size := by
      rw [Nat.mod_add_mod]
      congr 1
      omega
    rw [getElem?_append_right (by simpa using Nat.le_of_not_lt hold), length_contents, hmod]
    have hpos' := mod_of_lt_two_mul (x := (c.start + c.count) % c.size + (j - c.count))
      (n := c.size) (by omega)
    rw [hpos']
    split_ifs with h₁ h₂ h₃ h₃ h₄
    all_goals first | omega | (congr 1; omega)

/-- Appending to the buffer is appending to what it holds and keeping the newest. -/
theorem contents_append (c : Circular α) (p : List α) :
    (c.append p).contents = (c.contents ++ p).drop (c.excess p) := by
  have hcount := c.count_append p
  have hcap : c.count ≤ c.size := c.count_le
  refine ext_getElem? fun k => ?_
  rw [getElem?_drop]
  by_cases hk : k < (c.append p).count
  swap
  · rw [getElem?_eq_none (by rw [length_contents]; omega),
      getElem?_eq_none (by rw [length_append, length_contents]; omega)]
  rw [getElem?_contents _ hk, size_append]
  rw [append] at hk ⊢
  split_ifs with hall hover
  · -- everything held is pushed out
    have hover : c.excess p = c.count + (p.length - c.size) := by rw [excess]; omega
    simp only [dif_pos hall] at hk
    rw [Nat.zero_add, Nat.mod_eq_of_lt hk, getElem?_overwrite (Nat.zero_le _) hk, if_pos,
      getElem?_drop, getElem?_append_right (by rw [length_contents]; omega),
      length_contents]
    · congr 1
      omega
    · rw [length_drop]
      omega
  · simp only [dif_neg hall, dif_pos hover] at hk
    rw [Nat.mod_add_mod, Nat.add_assoc]
    exact c.getElem?_written (by omega) (Nat.le_add_right _ _) (by rw [excess] at *; omega)
  · simp only [dif_neg hall, dif_neg hover] at hk
    have hzero : c.excess p = 0 := by rw [excess]; omega
    rw [hzero, Nat.zero_add]
    exact c.getElem?_written (by omega) (by omega) hk

/-! ### Reading -/

/-- What is held from the `k`-th element on, copied in two pieces: up to the end of the buffer, and
from its front. -/
def readFrom (c : Circular α) (k : Nat) : List α :=
  let first := (c.buf.drop ((c.start + k) % c.size)).take (c.count - k)
  first ++ c.buf.take (c.count - k - first.length)

theorem readFrom_eq (c : Circular α) {k : Nat} (hk : k < c.count) :
    c.readFrom k = c.contents.drop k := by
  have hstart : c.start < c.size := c.start_lt
  have hcount : c.count ≤ c.size := c.count_le
  have hpos : (c.start + k) % c.size < c.size := Nat.mod_lt _ c.size_pos
  have hfirst : ((c.buf.drop ((c.start + k) % c.size)).take (c.count - k)).length
      = min (c.count - k) (c.size - (c.start + k) % c.size) := by
    rw [length_take, length_drop, size]
  refine ext_getElem? fun j => ?_
  rw [readFrom, getElem?_drop]
  by_cases hj : j < c.count - k
  swap
  · rw [getElem?_eq_none, getElem?_eq_none]
    · rw [length_contents]
      omega
    · rw [length_append, hfirst, length_take]
      omega
  have hmod : (c.start + (k + j)) % c.size
      = if (c.start + k) % c.size + j < c.size then (c.start + k) % c.size + j
        else (c.start + k) % c.size + j - c.size := by
    rw [← Nat.add_assoc, ← Nat.mod_add_mod, mod_of_lt_two_mul (by omega)]
  rw [c.getElem?_contents (by omega), hmod]
  split_ifs with hend
  · rw [getElem?_append_left (by omega), getElem?_take_of_lt hj, getElem?_drop]
  · rw [getElem?_append_right (by omega), getElem?_take_of_lt (by omega)]
    congr 1
    omega

end Circular

end Observatory.Lib
