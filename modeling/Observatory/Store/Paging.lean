/-
# Paging over the events

A client reads the events page by page: it asks for the events past a cursor and goes on from the
cursor the page returns, until a page comes back empty. Events are appended between the pages,
and ids are given out in the order of commits, so what was read is never behind what comes.
A tail query starts at the other end, with the last events there are.
-/
import Observatory.Lib.Log
import Observatory.Store.Query

namespace Observatory.Store

open Lib Events List

variable {H : Type} {conv : FloatText} {dataVM : Bytes → Option Bytes}

/-! ## The client -/

variable (conv dataVM) in
/-- Read a page from each of the stores in turn, following the cursor of each page. -/
def follow (q : Query) : List (Store H) → Except QueryError (List (List Envelope))
  | [] => .ok []
  | s :: ss =>
    match s.query conv dataVM q with
    | .error e => .error e
    | .ok res =>
      match follow { q with after := res.nextAfter } ss with
      | .error e => .error e
      | .ok pages => .ok (res.events :: pages)

variable (conv) in
/-- A history that can be read: ids increase, they are 64-bit integers, and payloads decode. -/
structure History (s : Store H) : Prop where
  ids : Log.Ordered Event.eventID s.events
  sized : ∀ e ∈ s.events, e.eventID < 2 ^ 63
  readable : s.AllReadable conv

/-! ## Cursors -/

lemma parseCursor_formatUint (absent : Int) {n : Nat} (h : n < 2 ^ 63) :
    parseCursor absent (formatUint n) = .ok (n : Int) := by
  have hformat : formatInt n = formatUint n := by
    rw [formatInt, if_neg (by omega), Int.toNat_natCast]
  unfold parseCursor
  rw [if_neg (formatUint_ne_nil n), decimalString, isDecimal_formatUint, Bool.not_true,
    if_neg Bool.false_ne_true, ← hformat, parseInt64_formatInt h]

lemma parseCursor_nonneg {absent i : Int} {s : Bytes} (habsent : 0 ≤ absent)
    (h : parseCursor absent s = .ok i) : 0 ≤ i := by
  unfold parseCursor at h
  split at h
  · cases h
    exact habsent
  split at h
  · cases h
  next hdecimal =>
  cases hparse : parseInt64 s with
  | none => simp [hparse] at h
  | some n =>
    obtain rfl : n = i := by simpa [hparse] using h
    cases s with
    | nil => cases hparse
    | cons b ds =>
      -- a decimal numeral has no sign
      have hsign : b ≠ 0x2D := by
        rintro rfl
        cases ds <;> simp [decimalString, isDecimal, isDigit] at hdecimal
      rw [parseInt64, if_neg hsign] at hparse
      split at hparse
      · cases hparse
        exact Int.natCast_nonneg _
      · cases hparse

namespace Query

variable {q : Query} {c : Checked}

/-- A query that passes its checks has room for an event, a cursor that is not negative and the upper
bound it is given, and passes them with the cursor of any event. -/
lemma check_resume (h : q.check = .ok c) : 0 < c.limit ∧ 0 ≤ c.after ∧
    parseCursor (-1) q.upTo = .ok c.upTo ∧
    ∀ n < 2 ^ 63, { q with after := formatUint n }.check = .ok { c with after := n } := by
  unfold check at h ⊢
  dsimp only at h ⊢
  generalize hl : (if q.limit = 0 then defaultPageLimit else q.limit) = limit at h
  by_cases hfilters : q.kind ≠ [] ∧ q.family ≠ []
  · simp [hfilters] at h
  by_cases hlimit : limit < 1 ∨ maxPageLimit < limit
  · simp [hfilters, hlimit] at h
  cases hafter : parseCursor 0 q.after with
  | error err => simp [hfilters, hlimit, hafter] at h
  | ok after =>
    cases hupTo : parseCursor (-1) q.upTo with
    | error err => simp [hfilters, hlimit, hafter, hupTo] at h
    | ok upTo =>
      have hnonneg := parseCursor_nonneg le_rfl hafter
      simp only [hfilters, hlimit, hl, if_false, hafter, hupTo] at h ⊢
      have hroom : 0 < limit.toNat := by omega
      split at h
      · next hfamily =>
        cases h
        exact ⟨hroom, hnonneg, rfl, fun n hn => by
          simp only [parseCursor_formatUint 0 hn, hfamily, if_true]⟩
      · next hfamily =>
        split at h
        · cases h
        next hkinds =>
        cases h
        exact ⟨hroom, hnonneg, rfl, fun n hn => by
          simp only [parseCursor_formatUint 0 hn, hfamily, hkinds, if_false]⟩

variable (dataVM) in
def rows (q : Query) (c : Checked) (s : Store H) : List (Event H) :=
  s.events.filter (q.selects dataVM c)

end Query

/-! ## A page -/

variable {ss : List (Store H)} {q : Query} {c : Query.Checked} {s : Store H}

end Observatory.Store
