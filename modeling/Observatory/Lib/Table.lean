/-
# Tables with a key

A table is the list of its rows, in the order they were inserted; a key names at most one of
them. Rows are found by their key and updated in place.
-/
import Mathlib.Algebra.Ring.Int.Defs
import Mathlib.Data.List.Basic
import Mathlib.Data.List.Nodup
import Mathlib.Tactic.Common

namespace Observatory.Lib.Table

open List

variable {α κ : Type} [DecidableEq κ] (key : α → κ)

def find (k : κ) (t : List α) : Option α := t.find? fun r => key r = k

/-- Update the row under a key, if there is one. -/
def modify (k : κ) (f : α → α) (t : List α) : List α := t.map fun r => if key r = k then f r else r

/-- Add a row; a key that is taken is refused. -/
def insert (row : α) (t : List α) : Option (List α) :=
  if (find key (key row) t).isSome then none else some (t ++ [row])

variable {key} {k k' : κ} {f : α → α} {t t' : List α} {row : α}

lemma mem_of_find (h : find key k t = some row) : row ∈ t ∧ key row = k :=
  ⟨mem_of_find?_eq_some h, by simpa using List.find?_some h⟩

lemma find_eq_none : find key k t = none ↔ ∀ r ∈ t, key r ≠ k := by
  simp [find]

lemma find_modify (hf : ∀ r, key (f r) = key r) (k k' : κ) (t : List α) :
    find key k (modify key k' f t) = if k = k' then (find key k t).map f else find key k t := by
  induction t with
  | nil => simp [find, modify]
  | cons r t ih =>
    simp only [find, modify, map_cons, List.find?_cons] at ih ⊢
    by_cases hr : key r = k'
    · by_cases hk : k' = k
      · subst hk
        simp [hr, hf]
      · have hk' : ¬ k = k' := fun h => hk h.symm
        simp [hr, hf, hk, ih]
    · by_cases hk : key r = k
      · have hkk' : ¬ k = k' := fun h => hr (hk.trans h)
        simp [hk, hkk']
      · simp [hr, hk, ih]

lemma find_modify_self (hf : ∀ r, key (f r) = key r) :
    find key k (modify key k f t) = (find key k t).map f := by
  rw [find_modify hf, if_pos rfl]

lemma find_modify_of_ne (hf : ∀ r, key (f r) = key r) (h : k ≠ k') :
    find key k (modify key k' f t) = find key k t := by
  rw [find_modify hf, if_neg h]

lemma keys_modify (hf : ∀ r, key (f r) = key r) : (modify key k f t).map key = t.map key := by
  rw [modify, map_map]
  refine map_congr_left fun r _ => ?_
  by_cases h : key r = k <;> simp [h, hf]

lemma mem_modify (h : row ∈ modify key k f t) :
    (row ∈ t ∧ key row ≠ k) ∨ ∃ r ∈ t, key r = k ∧ row = f r := by
  obtain ⟨r, hr, rfl⟩ := mem_map.1 h
  by_cases hk : key r = k
  · exact .inr ⟨r, hr, hk, if_pos hk⟩
  · rw [if_neg hk]
    exact .inl ⟨hr, hk⟩

/-- Rows under other keys are left alone. -/
lemma modify_of_ne (h : ∀ r ∈ t, key r ≠ k) : modify key k f t = t := by
  rw [modify]
  nth_rewrite 2 [← map_id t]
  exact map_congr_left fun r hr => if_neg (h r hr)

lemma find_of_mem (hkeys : (t.map key).Nodup) (h : row ∈ t) : find key (key row) t = some row := by
  cases hfind : find key (key row) t with
  | none => exact absurd rfl (find_eq_none.1 hfind row h)
  | some r =>
    obtain ⟨hr, hkey⟩ := mem_of_find hfind
    rw [inj_on_of_nodup_map hkeys hr h hkey]

lemma insert_eq_some :
    insert key row t = some t' ↔ find key (key row) t = none ∧ t' = t ++ [row] := by
  unfold insert
  cases find key (key row) t <;> simp [eq_comm]

lemma find_append_singleton : find key k (t ++ [row]) =
    (find key k t).or (if key row = k then some row else none) := by
  simp only [find, List.find?_append]
  by_cases h : key row = k <;> simp [h]

lemma keys_insert (hkeys : (t.map key).Nodup) (h : insert key row t = some t') :
    (t'.map key).Nodup := by
  obtain ⟨hnew, rfl⟩ := insert_eq_some.1 h
  rw [map_append, map_singleton]
  refine hkeys.append (nodup_singleton _) (disjoint_singleton.2 fun hmem => ?_)
  obtain ⟨r, hr, hkey⟩ := mem_map.1 hmem
  exact find_eq_none.1 hnew r hr hkey

lemma sum_modify {w : α → Int} (hkeys : (t.map key).Nodup) (h : find key k t = some row) :
    ((modify key k f t).map w).sum = (t.map w).sum - w row + w (f row) := by
  induction t with
  | nil => simp [find] at h
  | cons r t ih =>
    obtain ⟨hnot, hkeys⟩ := nodup_cons.1 hkeys
    by_cases hr : key r = k
    · obtain rfl : r = row := by simpa [find, hr] using h
      have hrest : ∀ r' ∈ t, key r' ≠ k :=
        fun r' hr' heq => hnot (mem_map.2 ⟨r', hr', heq.trans hr.symm⟩)
      have hmodify : modify key k f (r :: t) = f r :: t := by
        rw [modify, map_cons, if_pos hr, ← modify, modify_of_ne hrest]
      rw [hmodify, map_cons, sum_cons, map_cons, sum_cons]
      omega
    · have hfind : find key k t = some row := by simpa [find, hr] using h
      have hmodify : modify key k f (r :: t) = r :: modify key k f t := by
        rw [modify, map_cons, if_neg hr, ← modify]
      rw [hmodify, map_cons, sum_cons, ih hkeys hfind, map_cons, sum_cons]
      omega

/-! ## Partial indexes

A column that only some rows have: no two rows share a value of it. -/

section index

variable {κ' : Type} (keyOf : α → Option κ)

/-- The row an index holds under a value. -/
def findBy (k : κ) (t : List α) : Option α := t.find? fun r => keyOf r = some k

/-- A row with the value of another one is in the way. -/
def taken (row : α) (t : List α) : Bool :=
  match keyOf row with
  | none => false
  | some k => (findBy keyOf k t).isSome

variable {keyOf}

lemma mem_of_findBy (h : findBy keyOf k t = some row) : row ∈ t ∧ keyOf row = some k :=
  ⟨mem_of_find?_eq_some h, by simpa using List.find?_some h⟩

lemma findBy_eq_none : findBy keyOf k t = none ↔ ∀ r ∈ t, keyOf r ≠ some k := by
  simp [findBy]

/-- What an index holds it keeps when rows are added. -/
lemma findBy_append_of_some (h : findBy keyOf k t = some row) :
    findBy keyOf k (t ++ t') = some row := by
  simp only [findBy] at h
  simp [findBy, List.find?_append, h]

lemma findBy_append_of_none (h : findBy keyOf k t = none) :
    findBy keyOf k (t ++ t') = findBy keyOf k t' := by
  simp only [findBy] at h
  simp only [findBy, List.find?_append, h, Option.none_or]

/-- A row that nothing was in the way of is found under its value. -/
lemma findBy_append_self (hkey : keyOf row = some k) (h : taken keyOf row t = false) :
    findBy keyOf k (t ++ [row]) = some row := by
  have hfree : findBy keyOf k t = none := by simpa [taken, hkey] using h
  rw [findBy_append_of_none hfree]
  simp [findBy, hkey]

lemma unique_append (hkeys : (t.filterMap keyOf).Nodup) (h : taken keyOf row t = false) :
    ((t ++ [row]).filterMap keyOf).Nodup := by
  rw [filterMap_append]
  cases hkey : keyOf row with
  | none => simpa [hkey] using hkeys
  | some k =>
    have hfree : findBy keyOf k t = none := by simpa [taken, hkey] using h
    rw [filterMap_cons_some hkey, filterMap_nil]
    refine hkeys.append (nodup_singleton _) (disjoint_singleton.2 fun hmem => ?_)
    obtain ⟨r, hr, heq⟩ := mem_filterMap.1 hmem
    exact findBy_eq_none.1 hfree r hr heq

omit [DecidableEq κ] in
/-- Updates that keep a row's value or take it away keep an index. -/
lemma unique_modify {key : α → κ'} [DecidableEq κ'] {k' : κ'} (hkeys : (t.filterMap keyOf).Nodup)
    (hf : ∀ r ∈ t, key r = k' → keyOf (f r) = keyOf r ∨ keyOf (f r) = none) :
    ((modify key k' f t).filterMap keyOf).Nodup := by
  have hsub : ((modify key k' f t).filterMap keyOf).Sublist (t.filterMap keyOf) := by
    clear hkeys
    induction t with
    | nil => exact List.Sublist.refl _
    | cons r t ih =>
      have ih := ih fun r' hr' => hf r' (mem_cons_of_mem r hr')
      have hr : ∀ r', keyOf r' = keyOf r ∨ keyOf r' = none →
          ((r' :: modify key k' f t).filterMap keyOf).Sublist ((r :: t).filterMap keyOf) := by
        rintro r' (heq | hnone)
        · simp only [filterMap_cons, heq]
          cases keyOf r with
          | none => exact ih
          | some v => exact ih.cons_cons v
        · rw [filterMap_cons_none hnone, filterMap_cons]
          cases keyOf r with
          | none => exact ih
          | some v => exact ih.cons v
      by_cases hkey : key r = k'
      · simpa only [modify, map_cons, if_pos hkey] using hr (f r) (hf r mem_cons_self hkey)
      · simpa only [modify, map_cons, if_neg hkey] using hr r (.inl rfl)
  exact hkeys.sublist hsub

/-- An index holds at most one row under a value. -/
lemma length_filter_le_one (hkeys : (t.filterMap keyOf).Nodup) (k : κ) :
    (t.filter fun r => keyOf r = some k).length ≤ 1 := by
  induction t with
  | nil => simp
  | cons r t ih =>
    cases hr : keyOf r with
    | none =>
      rw [filterMap_cons_none hr] at hkeys
      simpa [hr] using ih hkeys
    | some k' =>
      rw [filterMap_cons_some hr, nodup_cons] at hkeys
      by_cases hk : k' = k
      · subst hk
        have hrest : t.filter (fun r => keyOf r = some k') = [] := by
          refine filter_eq_nil_iff.2 fun r' hr' heq => hkeys.1 ?_
          exact mem_filterMap.2 ⟨r', hr', by simpa using heq⟩
        simp [hr, hrest]
      · simpa [hr, hk] using ih hkeys.2

end index

end Observatory.Lib.Table
