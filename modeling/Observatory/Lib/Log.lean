/-
# Windows of an ordered log

A log is a list whose entries carry increasing numbers. `between a b` is the part of it past `a`
and up to `b`. Windows that follow one another make up one window, a page read past a number is
a window, and a log that grows past `b` keeps its windows up to `b`.
-/
import Mathlib.Data.List.Basic
import Mathlib.Data.List.Pairwise
import Mathlib.Order.Nat
import Mathlib.Tactic.Common

namespace Observatory.Lib.Log

open List

variable {α : Type} (key : α → Nat)

/-- The entries stand in the order of their numbers. -/
def Ordered (l : List α) : Prop := l.Pairwise fun x y => key x < key y

def past (a : Nat) (l : List α) : List α := l.filter fun x => a < key x

/-- The entries past `a` and up to `b`. -/
def between (a b : Nat) (l : List α) : List α := l.filter fun x => a < key x && key x ≤ b

variable {key} {l : List α} {x : α} {a b c : Nat}

lemma mem_between : x ∈ between key a b l ↔ x ∈ l ∧ a < key x ∧ key x ≤ b := by
  simp [between]

lemma between_self (a : Nat) (l : List α) : between key a a l = [] := by
  refine filter_eq_nil_iff.2 fun x _ => ?_
  simp

lemma Ordered.filter (h : Ordered key l) (p : α → Bool) : Ordered key (l.filter p) :=
  List.Pairwise.filter p h

/-- A window inside a window. -/
lemma between_between {a' b' : Nat} (ha : a ≤ a') (hb : b' ≤ b) (l : List α) :
    between key a' b' (between key a b l) = between key a' b' l := by
  rw [between, between, between, filter_filter]
  refine filter_congr fun x _ => ?_
  rw [Bool.eq_iff_iff]
  simp only [Bool.and_eq_true, decide_eq_true_eq]
  omega

lemma Ordered.parted (h : Ordered key l) (b : Nat) :
    l = (l.filter fun x => key x ≤ b) ++ l.filter fun x => b < key x := by
  induction l with
  | nil => rfl
  | cons x l ih =>
    obtain ⟨hx, hl⟩ := pairwise_cons.1 h
    by_cases hb : key x ≤ b
    · rw [filter_cons_of_pos (by simpa using hb), filter_cons_of_neg (by simpa using hb),
        cons_append, ← ih hl]
    · -- everything after an entry past `b` is past `b`
      have hpast : ∀ y ∈ l, b < key y := fun y hy => (not_le.1 hb).trans (hx y hy)
      have hnone : l.filter (fun y => decide (key y ≤ b)) = [] :=
        filter_eq_nil_iff.2 fun y hy => by simpa using hpast y hy
      have hall : l.filter (fun y => decide (b < key y)) = l :=
        filter_eq_self.2 fun y hy => by simpa using hpast y hy
      rw [filter_cons_of_neg (by simpa using hb), filter_cons_of_pos (by simpa using hb),
        hnone, hall, nil_append]

lemma Ordered.between_append (h : Ordered key l) (hab : a ≤ b) (hbc : b ≤ c) :
    between key a b l ++ between key b c l = between key a c l := by
  have hparted := (Ordered.filter h fun x => a < key x && key x ≤ c).parted b
  have hleft : (between key a c l).filter (fun x => decide (key x ≤ b)) = between key a b l := by
    rw [between, between, filter_filter]
    refine filter_congr fun x _ => ?_
    rw [Bool.eq_iff_iff]
    simp only [Bool.and_eq_true, decide_eq_true_eq]
    omega
  have hright : (between key a c l).filter (fun x => decide (b < key x)) = between key b c l := by
    rw [between, between, filter_filter]
    refine filter_congr fun x _ => ?_
    rw [Bool.eq_iff_iff]
    simp only [Bool.and_eq_true, decide_eq_true_eq]
    omega
  rw [← hleft, ← hright]
  exact hparted.symm

/-- The first entry of a window, and the window that remains. -/
lemma Ordered.between_cons (h : Ordered key l) {rest : List α}
    (heq : between key a b l = x :: rest) :
    between key a (key x) l = [x] ∧ between key (key x) b l = rest := by
  have hx : a < key x ∧ key x ≤ b := by
    have hmem : x ∈ between key a b l := by
      rw [heq]
      exact mem_cons_self
    exact (mem_between.1 hmem).2
  have hordered : Ordered key (x :: rest) := by
    rw [← heq]
    exact h.filter _
  obtain ⟨hpast, -⟩ := pairwise_cons.1 hordered
  constructor
  · rw [← between_between le_rfl hx.2, heq, between,
      filter_cons_of_pos (by simpa using hx.1), filter_eq_nil_iff.2]
    intro y hy
    have hlt := hpast y hy
    simp only [Bool.and_eq_true, decide_eq_true_eq]
    omega
  · rw [← between_between hx.1.le le_rfl, heq, between, filter_cons_of_neg (by simp),
      filter_eq_self.2]
    intro y hy
    have hle : key y ≤ b := by
      have hmem : y ∈ between key a b l := by
        rw [heq]
        exact .tail _ hy
      exact (mem_between.1 hmem).2.2
    simpa using ⟨hpast y hy, hle⟩

lemma Ordered.take_past (h : Ordered key l) (a n : Nat)
    (hlast : ((past key a l).take n).getLast? = some x) :
    (past key a l).take n = between key a (key x) l := by
  have hordered : Ordered key (past key a l) := h.filter _
  have hwindow : between key a (key x) l = (past key a l).filter fun y => key y ≤ key x := by
    rw [between, past, filter_filter]
    exact filter_congr fun y _ => Bool.and_comm _ _
  rw [hwindow]
  generalize past key a l = m at hordered hlast
  -- the page ends with `x`, and what is left of the log comes after it
  obtain ⟨init, hinit⟩ := List.getLast?_eq_some_iff.1 hlast
  have hsplit : m = (init ++ [x]) ++ m.drop n := by
    rw [← hinit, take_append_drop]
  rw [hinit]
  rw [hsplit] at hordered ⊢
  obtain ⟨hpage, -, hcross⟩ := pairwise_append.1 hordered
  rw [filter_append, filter_eq_self.2, filter_eq_nil_iff.2, append_nil]
  · intro y hy
    have hlt := hcross x (by simp) y hy
    simpa using hlt
  · intro y hy
    rcases mem_append.1 hy with hy | hy
    · have hlt := (pairwise_append.1 hpage).2.2 y hy x (mem_singleton_self x)
      simpa using hlt.le
    · rw [mem_singleton.1 hy]
      simp

/-- Entries past the end of a window do not change it. -/
lemma between_append_of_past {added : List α} (h : ∀ y ∈ added, b < key y) :
    between key a b (l ++ added) = between key a b l := by
  have hnone : between key a b added = [] := by
    refine filter_eq_nil_iff.2 fun y hy => ?_
    have hlt := h y hy
    simp only [Bool.and_eq_true, decide_eq_true_eq]
    omega
  unfold between at hnone ⊢
  rw [filter_append, hnone, append_nil]

lemma Ordered.between_append_past (h : Ordered key l) (hab : a ≤ b) :
    between key a b l ++ past key b l = past key a l := by
  have hparted := (Ordered.filter h fun x => a < key x).parted b
  have hleft : (past key a l).filter (fun x => decide (key x ≤ b)) = between key a b l := by
    rw [between, past, filter_filter]
    exact filter_congr fun x _ => Bool.and_comm _ _
  have hright : (past key a l).filter (fun x => decide (b < key x)) = past key b l := by
    rw [past, past, filter_filter]
    refine filter_congr fun x _ => ?_
    rw [Bool.eq_iff_iff]
    simp only [Bool.and_eq_true, decide_eq_true_eq]
    omega
  rw [← hleft, ← hright]
  exact hparted.symm

/-! ## Pages -/

variable (key) in
/-- Read one page of at most `n` entries from each log in turn, each page past the last entry of the
ones before. -/
def pages (n : Nat) : Nat → List (List α) → List (List α)
  | _, [] => []
  | a, l :: ls =>
    let page := (past key a l).take n
    page :: pages n ((page.getLast?.map key).getD a) ls

lemma Ordered.page_append_past {t : List α} (h : Ordered key t) (hpre : l <+: t) (a n : Nat) :
    (past key a l).take n ++
        past key ((((past key a l).take n).getLast?.map key).getD a) t = past key a t := by
  obtain ⟨added, rfl⟩ := hpre
  obtain ⟨hl, -, hcross⟩ := pairwise_append.1 h
  cases hlast : ((past key a l).take n).getLast? with
  | none => rw [List.getLast?_eq_none_iff.1 hlast, nil_append, Option.map_none, Option.getD_none]
  | some x =>
    have hmem : x ∈ past key a l := mem_of_mem_take (mem_of_getLast? hlast)
    obtain ⟨hx, hax⟩ := mem_filter.1 hmem
    rw [Ordered.take_past hl a n hlast, Option.map_some, Option.getD_some,
      ← between_append_of_past (fun y hy => hcross x hx y hy)]
    exact h.between_append_past (of_decide_eq_true hax).le

end Observatory.Lib.Log
