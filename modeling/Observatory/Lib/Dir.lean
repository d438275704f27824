/-
# A directory of numbered files

The files of a directory whose names are numbers, in the order of their numbers. Every
operation is characterised by `get`, so that proofs never look at the list.
-/
import Mathlib.Data.List.Basic
import Mathlib.Data.List.Nodup
import Mathlib.Tactic.Common

namespace Observatory.Lib

open List

/-- Files by number, each number once and in increasing order. -/
structure Dir (α : Type*) where
  entries : List (Nat × α)
  sorted : entries.Pairwise fun p q => p.1 < q.1

namespace Dir

variable {α : Type*}

def empty : Dir α := ⟨[], .nil⟩

/-- The numbers that are taken, in increasing order. -/
def keys (d : Dir α) : List Nat := d.entries.map Prod.fst

def get (d : Dir α) (k : Nat) : Option α := (d.entries.find? fun p => p.1 = k).map Prod.snd

/-- Change the contents of a file that exists. -/
def modify (d : Dir α) (k : Nat) (f : α → α) : Dir α where
  entries := d.entries.map fun p => if p.1 = k then (p.1, f p.2) else p
  sorted := by
    refine List.Pairwise.map _ (fun p q h => ?_) d.sorted
    split <;> split <;> exact h

/-- Remove a file. -/
def erase (d : Dir α) (k : Nat) : Dir α where
  entries := d.entries.filter fun p => p.1 ≠ k
  sorted := d.sorted.filter _

/-- Create a file under a number; nothing happens when the number is taken. -/
def create (d : Dir α) (k : Nat) (v : α) : Dir α where
  entries :=
    if k ∈ d.keys then d.entries
    else d.entries.filter (·.1 < k) ++ (k, v) :: d.entries.filter (k < ·.1)
  sorted := by
    split
    · exact d.sorted
    · refine pairwise_append.2 ⟨d.sorted.filter _, ?_, ?_⟩
      · refine pairwise_cons.2 ⟨fun p hp => ?_, d.sorted.filter _⟩
        simpa using (mem_filter.1 hp).2
      · intro p hp q hq
        have hpk : p.1 < k := by simpa using (mem_filter.1 hp).2
        rcases mem_cons.1 hq with rfl | hq
        · exact hpk
        · have hkq : k < q.1 := by simpa using (mem_filter.1 hq).2
          exact Nat.lt_trans hpk hkq

variable {d : Dir α} {k : Nat} {v : α}

lemma get_eq_some : d.get k = some v ↔ (k, v) ∈ d.entries := by
  constructor
  · intro h
    obtain ⟨⟨k', v'⟩, hp, rfl⟩ := Option.map_eq_some_iff.1 h
    obtain rfl : k' = k := by simpa using List.find?_some hp
    exact mem_of_find?_eq_some hp
  · intro h
    obtain ⟨a, b, hab⟩ := append_of_mem h
    have hsorted := d.sorted
    rw [hab, pairwise_append] at hsorted
    -- no entry before it has the same number
    have hfirst : a.find? (fun p => p.1 = k) = none := by
      rw [List.find?_eq_none]
      intro p hp hk
      have := hsorted.2.2 p hp (k, v) mem_cons_self
      simp at hk this
      omega
    simp [get, hab, List.find?_append, hfirst]

@[simp] lemma mem_keys : k ∈ d.keys ↔ (d.get k).isSome = true := by
  simp only [keys, mem_map, Option.isSome_iff_exists, get_eq_some]
  constructor
  · rintro ⟨⟨k, v⟩, h, rfl⟩
    exact ⟨v, h⟩
  · rintro ⟨v, h⟩
    exact ⟨(k, v), h, rfl⟩

lemma mem_keys_of_get (h : d.get k = some v) : k ∈ d.keys := by
  simp [h]

lemma sorted_keys (d : Dir α) : d.keys.Pairwise (· < ·) :=
  List.Pairwise.map _ (fun _ _ h => h) d.sorted

@[simp] lemma get_empty (k : Nat) : (empty : Dir α).get k = none := rfl

@[simp] lemma keys_empty : (empty : Dir α).keys = [] := rfl

lemma get_modify (d : Dir α) (k : Nat) (f : α → α) (j : Nat) :
    (d.modify k f).get j = if j = k then (d.get k).map f else d.get j := by
  ext v
  simp only [get_eq_some, modify, mem_map]
  constructor
  · rintro ⟨⟨i, w⟩, hp, heq⟩
    by_cases hik : i = k
    · simp only [hik, ↓reduceIte, Prod.mk.injEq] at heq
      rw [← heq.1, if_pos rfl, ← heq.2, Option.map_eq_some_iff]
      exact ⟨w, get_eq_some.2 (hik ▸ hp), rfl⟩
    · simp only [hik, ↓reduceIte, Prod.mk.injEq] at heq
      rw [← heq.1, ← heq.2, if_neg hik]
      exact get_eq_some.2 hp
  · split
    · next hjk =>
      intro h
      obtain ⟨w, hw, rfl⟩ := Option.map_eq_some_iff.1 h
      exact ⟨(k, w), get_eq_some.1 hw, by simp [hjk]⟩
    · next hjk =>
      intro h
      exact ⟨(j, v), get_eq_some.1 h, by simp [hjk]⟩

lemma get_erase (d : Dir α) (k j : Nat) : (d.erase k).get j = if j = k then none else d.get j := by
  ext v
  simp only [get_eq_some, erase, mem_filter, decide_eq_true_eq]
  split
  · next hjk => simp [hjk]
  · next hjk => simp [hjk, get_eq_some]

lemma get_create (d : Dir α) (hk : d.get k = none) (v : α) (j : Nat) :
    (d.create k v).get j = if j = k then some v else d.get j := by
  have hfree : k ∉ d.keys := by simp [hk]
  ext w
  simp only [get_eq_some, create, if_neg hfree, mem_append, mem_cons, mem_filter,
    decide_eq_true_eq, Prod.mk.injEq]
  split
  · next hjk =>
    subst hjk
    simp [eq_comm]
  · next hjk =>
    rw [get_eq_some]
    constructor
    · rintro (h | h | h)
      · exact h.1
      · exact absurd h.1 hjk
      · exact h.1
    · intro h
      rcases Nat.lt_or_gt_of_ne hjk with hlt | hgt
      · exact .inl ⟨h, hlt⟩
      · exact .inr (.inr ⟨h, hgt⟩)

@[simp] lemma keys_modify (d : Dir α) (k : Nat) (f : α → α) : (d.modify k f).keys = d.keys := by
  simp only [keys, modify, map_map]
  refine map_congr_left fun p _ => ?_
  simp only [Function.comp_apply]
  split <;> rfl

lemma keys_erase (d : Dir α) (k : Nat) : (d.erase k).keys = d.keys.filter (· ≠ k) := by
  simp [keys, erase, filter_map, Function.comp_def]

lemma mem_keys_erase {j : Nat} : j ∈ (d.erase k).keys ↔ j ∈ d.keys ∧ j ≠ k := by
  simp [keys_erase]

lemma mem_keys_create {j : Nat} :
    j ∈ (d.create k v).keys ↔ j ∈ d.keys ∨ j = k := by
  by_cases hk : d.get k = none
  · by_cases hjk : j = k <;> simp [get_create d hk, hjk]
  · have hmem : k ∈ d.keys := by simpa [Option.isSome_iff_ne_none] using hk
    have hsame : (d.create k v).keys = d.keys := by
      unfold keys create
      simp only [if_pos hmem]
    rw [hsame]
    constructor
    · exact .inl
    · rintro (h | rfl)
      · exact h
      · exact hmem

end Dir

end Observatory.Lib
