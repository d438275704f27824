/-
# The lexical level of JSON texts

String literals and number literals. `quote` writes a text as a string literal that is also
safe inside HTML and JavaScript; `unquote` reads a literal back, resolves its escapes and
replaces what is not well-formed UTF-8. A number is kept as the literal it was written with.
-/
import Mathlib.Data.List.TakeWhile
import Observatory.Lib.Utf8

namespace Observatory.Lib

open List

/-! ## Hexadecimal escapes -/

def hexDigit (n : Nat) : UInt8 :=
  if n < 10 then UInt8.ofNat (0x30 + n) else UInt8.ofNat (0x57 + n)

def hexVal (b : UInt8) : Option Nat :=
  if 0x30 ≤ b && b ≤ 0x39 then some (b.toNat - 0x30)
  else if 0x61 ≤ b && b ≤ 0x66 then some (b.toNat - 0x57)
  else if 0x41 ≤ b && b ≤ 0x46 then some (b.toNat - 0x37)
  else none

def escapeUnit (u : Nat) : Bytes :=
  [0x5C, 0x75, hexDigit (u / 4096 % 16), hexDigit (u / 256 % 16), hexDigit (u / 16 % 16),
    hexDigit (u % 16)]

/-- The code unit that four hexadecimal digits at the front stand for. -/
def takeUnit : Bytes → Option (Nat × Bytes)
  | a :: b :: c :: d :: rest =>
    match hexVal a, hexVal b, hexVal c, hexVal d with
    | some a, some b, some c, some d => some (((a * 16 + b) * 16 + c) * 16 + d, rest)
    | _, _, _, _ => none
  | _ => none

/-- The code point an escaped unit stands for: a surrogate pair is one code point, a lone
surrogate is the replacement character. -/
def resolveUnit (u : Nat) (rest : Bytes) : Nat × Bytes :=
  if 0xD800 ≤ u ∧ u < 0xE000 then
    match rest with
    | 0x5C :: 0x75 :: rest' =>
      match takeUnit rest' with
      | some (v, rest'') =>
        if u < 0xDC00 ∧ 0xDC00 ≤ v ∧ v < 0xE000 then
          (0x10000 + (u - 0xD800) * 0x400 + (v - 0xDC00), rest'')
        else (0xFFFD, rest)
      | none => (0xFFFD, rest)
    | _ => (0xFFFD, rest)
  else (u, rest)

/-- The UTF-8 bytes of a code point. -/
def encodeRune (cp : Nat) : Bytes :=
  if cp < 0x80 then [UInt8.ofNat cp]
  else if cp < 0x800 then [UInt8.ofNat (0xC0 + cp / 64), UInt8.ofNat (0x80 + cp % 64)]
  else if cp < 0x10000 then
    [UInt8.ofNat (0xE0 + cp / 4096), UInt8.ofNat (0x80 + cp / 64 % 64),
      UInt8.ofNat (0x80 + cp % 64)]
  else
    [UInt8.ofNat (0xF0 + cp / 262144), UInt8.ofNat (0x80 + cp / 4096 % 64),
      UInt8.ofNat (0x80 + cp / 64 % 64), UInt8.ofNat (0x80 + cp % 64)]

lemma hexVal_hexDigit {n : Nat} (h : n < 16) : hexVal (hexDigit n) = some n := by
  have all : ∀ n < 16, hexVal (hexDigit n) = some n := by decide
  exact all n h

variable {a d r rest s : Bytes} {u : Nat} {b : UInt8}

lemma takeUnit_escapeUnit (hu : u < 65536) (rest : Bytes) :
    takeUnit ((escapeUnit u).drop 2 ++ rest) = some (u, rest) := by
  have h1 := hexVal_hexDigit (n := u / 4096 % 16) (by omega)
  have h2 := hexVal_hexDigit (n := u / 256 % 16) (by omega)
  have h3 := hexVal_hexDigit (n := u / 16 % 16) (by omega)
  have h4 := hexVal_hexDigit (n := u % 16) (by omega)
  simp only [escapeUnit, drop_succ_cons, drop_zero, cons_append, nil_append,
    takeUnit, h1, h2, h3, h4]
  congr 2
  omega

/-! ## String literals -/

/-- How one rune of a text is written inside a string literal. -/
def quoteRune : Rune → Bytes
  | .ascii b =>
    if b = 0x22 ∨ b = 0x5C then [0x5C, b]
    else if b = 0x08 then [0x5C, 0x62]
    else if b = 0x0C then [0x5C, 0x66]
    else if b = 0x0A then [0x5C, 0x6E]
    else if b = 0x0D then [0x5C, 0x72]
    else if b = 0x09 then [0x5C, 0x74]
    else if b < 0x20 ∨ b = 0x3C ∨ b = 0x3E ∨ b = 0x26 then escapeUnit b.toNat
    else [b]
  | .multi bs =>
    -- the two line separators that end a line in JavaScript
    if bs = [0xE2, 0x80, 0xA8] then escapeUnit 0x2028
    else if bs = [0xE2, 0x80, 0xA9] then escapeUnit 0x2029
    else bs
  | .bad => escapeUnit 0xFFFD

/-- The string literal of a text, with its quotes. -/
def quote (s : Bytes) : Bytes := 0x22 :: ((runes s).flatMap quoteRune ++ [0x22])

def escapeByte (c : UInt8) : Option UInt8 :=
  if c = 0x22 ∨ c = 0x5C ∨ c = 0x2F then some c
  else if c = 0x62 then some 0x08
  else if c = 0x66 then some 0x0C
  else if c = 0x6E then some 0x0A
  else if c = 0x72 then some 0x0D
  else if c = 0x74 then some 0x09
  else none

/-- What follows a backslash: the bytes the escape stands for, and the rest. -/
def readEscape : Bytes → Option (Bytes × Bytes)
  | [] => none
  | c :: bs =>
    if c = 0x75 then
      (takeUnit bs).map fun p => (encodeRune (resolveUnit p.1 p.2).1, (resolveUnit p.1 p.2).2)
    else (escapeByte c).map fun e => ([e], bs)

def prepend (bs : Bytes) (p : Bytes × Bytes) : Bytes × Bytes := (bs ++ p.1, p.2)

/-- Read a string literal whose opening quote is already taken; yields the text and what
follows the closing quote. -/
def unquoteAux : Nat → Bytes → Option (Bytes × Bytes)
  | 0, _ => none
  | _ + 1, [] => none
  | fuel + 1, b :: bs =>
    if b = 0x22 then some ([], bs)
    else if b = 0x5C then
      match readEscape bs with
      | none => none
      | some (t, rest) => (unquoteAux fuel rest).map (prepend t)
    else if b < 0x20 then none
    else if b < 0x80 then (unquoteAux fuel bs).map (prepend [b])
    else if multiSize (b :: bs) = 0 then (unquoteAux fuel bs).map (prepend Rune.bad.bytes)
    else
      (unquoteAux fuel ((b :: bs).drop (multiSize (b :: bs)))).map
        (prepend ((b :: bs).take (multiSize (b :: bs))))

/-- Read a string literal after its opening quote. -/
def unquote (bs : Bytes) : Option (Bytes × Bytes) := unquoteAux (bs.length + 1) bs

lemma unquoteAux_escape {bs t : Bytes} (h : readEscape bs = some (t, rest)) (fuel : Nat) :
    unquoteAux (fuel + 1) (0x5C :: bs) = (unquoteAux fuel rest).map (prepend t) := by
  rw [unquoteAux]
  simp [h]

lemma unquoteAux_letter {c e : UInt8} (hc : c ≠ 0x75) (h : escapeByte c = some e) (fuel : Nat)
    (bs : Bytes) :
    unquoteAux (fuel + 1) (0x5C :: c :: bs) = (unquoteAux fuel bs).map (prepend [e]) :=
  unquoteAux_escape (by simp [readEscape, hc, h]) fuel

lemma unquoteAux_unit (hu : u < 65536) (hs : ¬ (0xD800 ≤ u ∧ u < 0xE000)) (fuel : Nat) (bs : Bytes) :
    unquoteAux (fuel + 1) (escapeUnit u ++ bs) =
      (unquoteAux fuel bs).map (prepend (encodeRune u)) := by
  have ht := takeUnit_escapeUnit hu bs
  have hr : resolveUnit u bs = (u, bs) := by
    unfold resolveUnit
    rw [if_neg hs]
  have hcons : escapeUnit u ++ bs = 0x5C :: 0x75 :: ((escapeUnit u).drop 2 ++ bs) := by
    simp [escapeUnit]
  rw [hcons]
  exact unquoteAux_escape (by simp [readEscape, ht, hr]) fuel

lemma unquoteAux_ascii (h22 : b ≠ 0x22) (h5C : b ≠ 0x5C) (h20 : ¬ b < 0x20) (h80 : b < 0x80)
    (fuel : Nat) (bs : Bytes) :
    unquoteAux (fuel + 1) (b :: bs) = (unquoteAux fuel bs).map (prepend [b]) := by
  rw [unquoteAux]
  simp [h22, h5C, h20, h80]

lemma unquoteAux_multi {m : Bytes} (hm : m ≠ []) (hs : multiSize m = m.length) (fuel : Nat)
    (bs : Bytes) :
    unquoteAux (fuel + 1) (m ++ bs) = (unquoteAux fuel bs).map (prepend m) := by
  obtain ⟨b, m', rfl⟩ := exists_cons_of_ne_nil hm
  have hne : multiSize (b :: m') ≠ 0 := by rw [hs]; simp
  have hsz : multiSize (b :: (m' ++ bs)) = (b :: m').length := by
    rw [← hs]
    exact multiSize_append hne bs
  have h80 : ¬ b < 0x80 := not_ascii_of_multiSize hne
  have h20 : ¬ b < 0x20 := by
    intro h
    exact h80 (UInt8.lt_trans h (by decide))
  have h22 : b ≠ 0x22 := by rintro rfl; exact h80 (by decide)
  have h5C : b ≠ 0x5C := by rintro rfl; exact h80 (by decide)
  rw [cons_append, unquoteAux]
  simp only [h22, h5C, h20, h80, if_false, hsz]
  simp

lemma unquoteAux_quoteRune {r : Rune} (hr : r.Wf) (fuel : Nat) (bs : Bytes) :
    unquoteAux (fuel + 1) (quoteRune r ++ bs) = (unquoteAux fuel bs).map (prepend r.bytes) := by
  cases r with
  | ascii b =>
    simp only [quoteRune, Rune.bytes]
    split
    · next h =>
      rcases h with rfl | rfl <;> exact unquoteAux_letter (by decide) (by decide) fuel bs
    split
    · next h => subst h; exact unquoteAux_letter (by decide) (by decide) fuel bs
    split
    · next h => subst h; exact unquoteAux_letter (by decide) (by decide) fuel bs
    split
    · next h => subst h; exact unquoteAux_letter (by decide) (by decide) fuel bs
    split
    · next h => subst h; exact unquoteAux_letter (by decide) (by decide) fuel bs
    split
    · next h => subst h; exact unquoteAux_letter (by decide) (by decide) fuel bs
    have hb : b.toNat < 128 := hr
    split
    · have he : encodeRune b.toNat = [b] := by
        unfold encodeRune
        rw [if_pos hb, UInt8.ofNat_toNat]
      rw [unquoteAux_unit (by omega) (by omega), he]
    · next h22 _ _ _ _ _ h =>
      push Not at h22 h
      exact unquoteAux_ascii h22.1 h22.2 (by simpa using h.1) hr fuel bs
  | multi m =>
    obtain ⟨hm, hs⟩ := hr
    simp only [quoteRune, Rune.bytes]
    split
    · next h =>
      subst h
      have he : encodeRune 0x2028 = [0xE2, 0x80, 0xA8] := by decide
      rw [unquoteAux_unit (by omega) (by omega), he]
    split
    · next h =>
      subst h
      have he : encodeRune 0x2029 = [0xE2, 0x80, 0xA9] := by decide
      rw [unquoteAux_unit (by omega) (by omega), he]
    · exact unquoteAux_multi hm hs fuel bs
  | bad =>
    have he : encodeRune 0xFFFD = Rune.bad.bytes := by decide
    rw [quoteRune, unquoteAux_unit (by omega) (by omega), he]

lemma unquoteAux_flatMap {rs : List Rune} (hrs : ∀ r ∈ rs, r.Wf) {fuel : Nat}
    (hf : rs.length < fuel) (rest : Bytes) :
    unquoteAux fuel (rs.flatMap quoteRune ++ 0x22 :: rest) =
      some (rs.flatMap Rune.bytes, rest) := by
  induction rs generalizing fuel with
  | nil =>
    obtain ⟨fuel, rfl⟩ : ∃ f, fuel = f + 1 := ⟨fuel - 1, by simp at hf; omega⟩
    simp [unquoteAux]
  | cons r rs ih =>
    obtain ⟨fuel, rfl⟩ : ∃ f, fuel = f + 1 := ⟨fuel - 1, by simp at hf; omega⟩
    have hlen : rs.length < fuel := by simpa using hf
    rw [flatMap_cons, append_assoc,
      unquoteAux_quoteRune (hrs r (.head _)),
      ih (fun x hx => hrs x (.tail _ hx)) hlen]
    simp [prepend]

lemma quoteRune_ne_nil {r : Rune} (hr : r.Wf) : quoteRune r ≠ [] := by
  cases r with
  | ascii b =>
    simp only [quoteRune]
    split_ifs <;> simp [escapeUnit]
  | multi m =>
    simp only [quoteRune]
    split_ifs
    · simp [escapeUnit]
    · simp [escapeUnit]
    · exact hr.1
  | bad => simp [quoteRune, escapeUnit]

lemma length_le_flatMap_quoteRune {rs : List Rune} (hrs : ∀ r ∈ rs, r.Wf) :
    rs.length ≤ (rs.flatMap quoteRune).length := by
  induction rs with
  | nil => simp
  | cons r rs ih =>
    have h1 := length_pos_iff.2 (quoteRune_ne_nil (hrs r (.head _)))
    have h2 := ih fun x hx => hrs x (.tail _ hx)
    simp only [length_cons, flatMap_cons, length_append]
    omega

lemma le_hexDigit {n : Nat} (h : n < 16) : 0x20 ≤ hexDigit n := by
  have : ∀ m < 16, 0x20 ≤ hexDigit m := by decide
  exact this n h

lemma le_of_mem_escapeUnit (hb : b ∈ escapeUnit u) : 0x20 ≤ b := by
  simp only [escapeUnit, mem_cons, not_mem_nil, or_false] at hb
  rcases hb with rfl | rfl | rfl | rfl | rfl | rfl
  · decide
  · decide
  all_goals exact le_hexDigit (by omega)

lemma le_of_mem_quoteRune {r : Rune} (hr : r.Wf) (hb : b ∈ quoteRune r) : 0x20 ≤ b := by
  have hpair {x y : UInt8} (hx : 0x20 ≤ x) (hy : 0x20 ≤ y) (hmem : b ∈ [x, y]) : 0x20 ≤ b := by
    rcases mem_cons.1 hmem with rfl | hmem
    · exact hx
    · exact mem_singleton.1 hmem ▸ hy
  cases r with
  | ascii c =>
    simp only [quoteRune] at hb
    split_ifs at hb with h1 h2 h3 h4 h5 h6 h7
    · have hc : (0x20 : UInt8) ≤ c := by rcases h1 with rfl | rfl <;> decide
      exact hpair (by decide) hc hb
    · exact hpair (by decide) (by decide) hb
    · exact hpair (by decide) (by decide) hb
    · exact hpair (by decide) (by decide) hb
    · exact hpair (by decide) (by decide) hb
    · exact hpair (by decide) (by decide) hb
    · exact le_of_mem_escapeUnit hb
    · obtain rfl : b = c := by simpa using hb
      exact UInt8.not_lt.1 fun h => h7 (.inl h)
  | multi m =>
    simp only [quoteRune] at hb
    split_ifs at hb
    · exact le_of_mem_escapeUnit hb
    · exact le_of_mem_escapeUnit hb
    · exact UInt8.le_trans (by decide) (le_of_mem_multi hr.1 hr.2 hb)
  | bad => exact le_of_mem_escapeUnit hb

/-- A string literal has no control characters. -/
lemma le_of_mem_quote (hb : b ∈ quote s) : 0x20 ≤ b := by
  simp only [quote, mem_cons, mem_append, mem_flatMap, not_mem_nil,
    or_false] at hb
  rcases hb with rfl | ⟨r, hr, hb⟩ | rfl
  · decide
  · exact le_of_mem_quoteRune (wf_of_mem_runes hr) hb
  · decide

/-- **A written text is read back**, with its bad bytes replaced. -/
theorem unquote_quote (s rest : Bytes) :
    unquote ((quote s).tail ++ rest) = some (sanitize s, rest) := by
  have hwf : ∀ r ∈ runes s, r.Wf := fun r hr => wf_of_mem_runes hr
  have hlen := length_le_flatMap_quoteRune hwf
  unfold unquote quote
  simp only [tail_cons, append_assoc, singleton_append]
  refine unquoteAux_flatMap hwf ?_ rest
  rw [length_append]
  omega

example : quote (ascii "a<b\n") = ascii "\"a\\u003cb\\n\"" := by decide

/-! ## Number literals -/

/-- The integer part of a number: a zero, or digits that do not start with one. -/
def scanInt : Bytes → Option (Bytes × Bytes)
  | [] => none
  | b :: bs =>
    if b = 0x30 then some ([b], bs)
    else if isDigit b then some (b :: bs.takeWhile isDigit, bs.dropWhile isDigit)
    else none

def scanDigits (bs : Bytes) : Option (Bytes × Bytes) :=
  if bs.takeWhile isDigit = [] then none
  else some (bs.takeWhile isDigit, bs.dropWhile isDigit)

def scanFrac : Bytes → Option (Bytes × Bytes)
  | [] => some ([], [])
  | b :: bs => if b = 0x2E then (scanDigits bs).map (prepend [b]) else some ([], b :: bs)

def scanExp : Bytes → Option (Bytes × Bytes)
  | [] => some ([], [])
  | b :: bs =>
    if b = 0x65 ∨ b = 0x45 then
      match bs with
      | [] => none
      | c :: bs' =>
        if c = 0x2B ∨ c = 0x2D then (scanDigits bs').map (prepend [b, c])
        else (scanDigits (c :: bs')).map (prepend [b])
    else some ([], b :: bs)

/-- An optional minus sign. -/
def scanSign : Bytes → Bytes × Bytes
  | [] => ([], [])
  | b :: bs => if b = 0x2D then ([b], bs) else ([], b :: bs)

/-- A number literal at the front, and what follows it. -/
def scanNumber (bs : Bytes) : Option (Bytes × Bytes) :=
  match scanInt (scanSign bs).2 with
  | none => none
  | some (i, r1) =>
    match scanFrac r1 with
    | none => none
    | some (f, r2) =>
      match scanExp r2 with
      | none => none
      | some (e, r3) => some ((scanSign bs).1 ++ i ++ f ++ e, r3)

def isNumber (lit : Bytes) : Bool := scanNumber lit == some (lit, [])

/-- Bytes that can follow a number literal without being taken for a part of it. -/
def NumEnd (rest : Bytes) : Prop :=
  ∀ b ∈ rest.head?, isDigit b = false ∧ b ≠ 0x2E ∧ b ≠ 0x65 ∧ b ≠ 0x45

lemma takeWhile_append_of_end {p : UInt8 → Bool} (hr : ∀ b ∈ r.head?, p b = false) (a : Bytes) :
    (a ++ r).takeWhile p = a.takeWhile p ∧ (a ++ r).dropWhile p = a.dropWhile p ++ r := by
  induction a with
  | nil =>
    cases r with
    | nil => simp
    | cons b r => simp [hr b (by simp)]
  | cons b a ih =>
    simp only [cons_append, takeWhile_cons, dropWhile_cons]
    split
    · exact ⟨by rw [ih.1], ih.2⟩
    · exact ⟨rfl, rfl⟩

lemma scanDigits_append (hend : ∀ b ∈ rest.head?, isDigit b = false)
    (h : scanDigits a = some (d, r)) : scanDigits (a ++ rest) = some (d, r ++ rest) := by
  obtain ⟨h1, h2⟩ := takeWhile_append_of_end hend a
  unfold scanDigits at h ⊢
  rw [h1, h2]
  split at h
  · simp at h
  · next hne =>
    rw [if_neg hne]
    simp only [Option.some.injEq, Prod.mk.injEq] at h
    rw [h.1, h.2]

lemma scanInt_append (hend : ∀ b ∈ rest.head?, isDigit b = false) (h : scanInt a = some (d, r)) :
    scanInt (a ++ rest) = some (d, r ++ rest) := by
  cases a with
  | nil => simp [scanInt] at h
  | cons b a =>
    obtain ⟨h1, h2⟩ := takeWhile_append_of_end hend a
    simp only [scanInt, cons_append, h1, h2] at h ⊢
    split at h
    · next hb =>
      simp only [Option.some.injEq, Prod.mk.injEq] at h
      simp [hb, ← h.1, ← h.2]
    · next hb =>
      rw [if_neg hb]
      split at h
      · next hd =>
        simp only [Option.some.injEq, Prod.mk.injEq] at h
        rw [if_pos hd, h.1, h.2]
      · simp at h

lemma scanFrac_append (hend : NumEnd rest) (h : scanFrac a = some (d, r)) :
    scanFrac (a ++ rest) = some (d, r ++ rest) := by
  cases a with
  | nil =>
    obtain ⟨rfl, rfl⟩ : [] = d ∧ [] = r := by simpa [scanFrac] using h
    cases rest with
    | nil => rfl
    | cons b rest => simp [scanFrac, (hend b (by simp)).2.1]
  | cons b a =>
    simp only [scanFrac, cons_append] at h ⊢
    split at h
    · next hb =>
      rw [if_pos hb]
      obtain ⟨⟨d', r'⟩, hd, he⟩ := Option.map_eq_some_iff.1 h
      rw [scanDigits_append (fun b hb => (hend b hb).1) hd]
      simp only [prepend, Prod.mk.injEq] at he
      simp [prepend, ← he.1, ← he.2]
    · next hb =>
      simp only [Option.some.injEq, Prod.mk.injEq] at h
      simp [hb, ← h.1, ← h.2]

lemma scanExp_append (hend : NumEnd rest) (h : scanExp a = some (d, r)) :
    scanExp (a ++ rest) = some (d, r ++ rest) := by
  have hdig : ∀ b ∈ rest.head?, isDigit b = false := fun b hb => (hend b hb).1
  cases a with
  | nil =>
    obtain ⟨rfl, rfl⟩ : [] = d ∧ [] = r := by simpa [scanExp] using h
    cases rest with
    | nil => rfl
    | cons b rest => simp [scanExp, (hend b (by simp)).2.2]
  | cons b a =>
    simp only [scanExp, cons_append] at h ⊢
    split at h
    · next hb =>
      rw [if_pos hb]
      cases a with
      | nil => simp at h
      | cons c a =>
        simp only [cons_append] at h ⊢
        split at h
        · next hc =>
          rw [if_pos hc]
          obtain ⟨⟨d', r'⟩, hd, he⟩ := Option.map_eq_some_iff.1 h
          rw [scanDigits_append hdig hd]
          simp only [prepend, Prod.mk.injEq] at he
          simp [prepend, ← he.1, ← he.2]
        · next hc =>
          rw [if_neg hc]
          obtain ⟨⟨d', r'⟩, hd, he⟩ := Option.map_eq_some_iff.1 h
          rw [← cons_append, scanDigits_append hdig hd]
          simp only [prepend, Prod.mk.injEq] at he
          simp [prepend, ← he.1, ← he.2]
    · next hb =>
      simp only [Option.some.injEq, Prod.mk.injEq] at h
      simp [hb, ← h.1, ← h.2]

lemma scanSign_append (ha : a ≠ []) (rest : Bytes) : (scanSign (a ++ rest)).1 = (scanSign a).1 ∧
      (scanSign (a ++ rest)).2 = (scanSign a).2 ++ rest := by
  obtain ⟨b, a, rfl⟩ := exists_cons_of_ne_nil ha
  simp only [scanSign, cons_append]
  split <;> exact ⟨rfl, rfl⟩

/-- **A number literal is read back whole** when what follows it cannot continue it. -/
theorem scanNumber_append {lit : Bytes} (h : isNumber lit = true) (hend : NumEnd rest) :
    scanNumber (lit ++ rest) = some (lit, rest) := by
  have h : scanNumber lit = some (lit, []) := by simpa [isNumber] using h
  have hne : lit ≠ [] := by
    rintro rfl
    simp [scanNumber, scanInt, scanSign] at h
  obtain ⟨hs1, hs2⟩ := scanSign_append hne rest
  rw [scanNumber] at h ⊢
  rw [hs1, hs2]
  cases h1 : scanInt (scanSign lit).2 with
  | none => simp [h1] at h
  | some p1 =>
    cases h2 : scanFrac p1.2 with
    | none => simp [h1, h2] at h
    | some p2 =>
      cases h3 : scanExp p2.2 with
      | none => simp [h1, h2, h3] at h
      | some p3 =>
        simp only [h1, h2, h3, Option.some.injEq, Prod.mk.injEq] at h
        rw [scanInt_append (fun b hb => (hend b hb).1) h1]
        simp only [scanFrac_append hend h2, scanExp_append hend h3, h.1, h.2, nil_append]

lemma head_of_isNumber {lit : Bytes} (h : isNumber lit = true) :
    ∃ b bs, lit = b :: bs ∧ (b = 0x2D ∨ isDigit b = true) := by
  have h : scanNumber lit = some (lit, []) := by simpa [isNumber] using h
  cases lit with
  | nil => simp [scanNumber, scanInt, scanSign] at h
  | cons b bs =>
    refine ⟨b, bs, rfl, ?_⟩
    by_cases hb : b = 0x2D
    · exact .inl hb
    · right
      by_contra hd
      have h0 : b ≠ 0x30 := by rintro rfl; exact hd (by decide)
      have hi : scanInt (b :: bs) = none := by
        simp only [scanInt, if_neg h0, if_neg hd]
      simp [scanNumber, scanSign, hb, hi] at h

lemma takeWhile_of_all {p : UInt8 → Bool} (h : s.all p = true) :
    s.takeWhile p = s ∧ s.dropWhile p = [] := by
  have hall : ∀ b ∈ s, p b = true := all_eq_true.1 h
  exact ⟨takeWhile_eq_self_iff.2 hall, dropWhile_eq_nil_iff.2 hall⟩

lemma scanInt_of_isDecimal (h : isDecimal s = true) :
    scanInt s = some (s, []) ∧ ∃ b bs, s = b :: bs ∧ isDigit b = true := by
  cases s with
  | nil => simp [isDecimal] at h
  | cons b bs =>
    have hb : isDigit b = true := by
      cases bs with
      | nil => exact h
      | cons c bs => simp only [isDecimal, Bool.and_eq_true] at h; exact h.1.1
    refine ⟨?_, b, bs, rfl, hb⟩
    cases bs with
    | nil => simp [scanInt, hb]
    | cons c bs =>
      simp only [isDecimal, Bool.and_eq_true, bne_iff_ne] at h
      have hall := takeWhile_of_all h.2
      have h0 : b ≠ 0x30 := h.1.2
      simp only [scanInt, if_neg h0, if_pos hb, hall.1, hall.2]

lemma isNumber_of_isDecimal (h : isDecimal s = true) : isNumber s = true := by
  obtain ⟨hint, b, bs, rfl, hb⟩ := scanInt_of_isDecimal h
  have hsign : b ≠ 0x2D := by rintro rfl; exact absurd hb (by decide)
  simp [isNumber, scanNumber, scanSign, hsign, hint, scanFrac, scanExp]

end Observatory.Lib
