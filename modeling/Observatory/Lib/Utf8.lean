/-
# UTF-8 texts as byte strings

A text is any byte string; a decoder splits it into runes and meets every byte that does
not start a well-formed rune as a single bad byte. `runes` is that split, and `sanitize`
puts the replacement character where a bad byte stood, which is what a text becomes when it
goes through an encoder that writes only well-formed texts.
-/
import Observatory.Lib.Bytes

namespace Observatory.Lib

open List

def isCont (b : UInt8) : Bool := 0x80 ≤ b && b ≤ 0xBF

/-- Whether `b1` may follow the first byte `b0` of a rune: no overlong form, no surrogate,
nothing past the last code point. -/
def isSecond (b0 b1 : UInt8) : Bool :=
  if b0 = 0xE0 then 0xA0 ≤ b1 && b1 ≤ 0xBF
  else if b0 = 0xED then 0x80 ≤ b1 && b1 ≤ 0x9F
  else if b0 = 0xF0 then 0x90 ≤ b1 && b1 ≤ 0xBF
  else if b0 = 0xF4 then 0x80 ≤ b1 && b1 ≤ 0x8F
  else isCont b1

/-- The length a rune of more than one byte has by its first byte, or `0`. -/
def leadSize (b : UInt8) : Nat :=
  if 0xC2 ≤ b && b ≤ 0xDF then 2
  else if 0xE0 ≤ b && b ≤ 0xEF then 3
  else if 0xF0 ≤ b && b ≤ 0xF4 then 4
  else 0

/-- Whether a text starts with `n` continuation bytes. -/
def hasConts : Nat → Bytes → Bool
  | 0, _ => true
  | _ + 1, [] => false
  | n + 1, b :: bs => isCont b && hasConts n bs

/-- The length of the well-formed rune of more than one byte at the front, or `0`. -/
def multiSize : Bytes → Nat
  | b0 :: b1 :: rest =>
    if isSecond b0 b1 && hasConts (leadSize b0 - 2) rest then leadSize b0 else 0
  | _ => 0

/-- What a decoder meets at one place of a text. -/
inductive Rune where
  | ascii (b : UInt8)
  | multi (bs : Bytes)
  | bad

namespace Rune

/-- A rune as `runes` yields it. -/
def Wf : Rune → Prop
  | .ascii b => b < 0x80
  | .multi bs => bs ≠ [] ∧ multiSize bs = bs.length
  | .bad => True

/-- The bytes a rune leaves in a well-formed text. -/
def bytes : Rune → Bytes
  | .ascii b => [b]
  | .multi bs => bs
  | .bad => [0xEF, 0xBF, 0xBD]

end Rune

/-- Split at most `fuel` runes off a text. -/
def runesAux : Nat → Bytes → List Rune
  | 0, _ => []
  | _ + 1, [] => []
  | fuel + 1, b :: bs =>
    if b < 0x80 then .ascii b :: runesAux fuel bs
    else
      let n := multiSize (b :: bs)
      if n = 0 then .bad :: runesAux fuel bs
      else .multi ((b :: bs).take n) :: runesAux fuel ((b :: bs).drop n)

def runes (s : Bytes) : List Rune := runesAux s.length s

/-- The well-formed text a text becomes when bad bytes are replaced. -/
def sanitize (s : Bytes) : Bytes := (runes s).flatMap Rune.bytes

variable {s : Bytes} {n : Nat} {b : UInt8}

lemma length_of_hasConts (h : hasConts n s = true) : n ≤ s.length := by
  induction n generalizing s with
  | zero => simp
  | succ n ih =>
    cases s with
    | nil => simp [hasConts] at h
    | cons b s =>
      simp only [hasConts, Bool.and_eq_true] at h
      simpa using ih h.2

lemma hasConts_append (h : hasConts n s = true) (t : Bytes) :
    hasConts n (s ++ t) = true := by
  induction n generalizing s with
  | zero => simp [hasConts]
  | succ n ih =>
    cases s with
    | nil => simp [hasConts] at h
    | cons b s =>
      simp only [hasConts, Bool.and_eq_true, cons_append] at h ⊢
      exact ⟨h.1, ih h.2⟩

lemma hasConts_take (h : hasConts n s = true) :
    hasConts n (s.take n) = true := by
  induction n generalizing s with
  | zero => simp [hasConts]
  | succ n ih =>
    cases s with
    | nil => simp [hasConts] at h
    | cons b s =>
      simp only [hasConts, Bool.and_eq_true, take_succ_cons] at h ⊢
      exact ⟨h.1, ih h.2⟩

lemma leadSize_ne_one (b : UInt8) : leadSize b ≠ 1 := by
  unfold leadSize
  split
  · simp
  · split
    · simp
    · split <;> simp

/-- The shape of a text that starts with a rune of more than one byte. -/
lemma multiSize_ne_zero (h : multiSize s ≠ 0) :
    ∃ b0 b1 rest n, s = b0 :: b1 :: rest ∧ leadSize b0 = n + 2 ∧ isSecond b0 b1 = true ∧
      hasConts n rest = true := by
  match s with
  | [] => simp [multiSize] at h
  | [_] => simp [multiSize] at h
  | b0 :: b1 :: rest =>
    simp only [multiSize] at h
    split at h
    · next hc =>
      rw [Bool.and_eq_true] at hc
      obtain ⟨n, hn⟩ : ∃ n, leadSize b0 = n + 2 :=
        ⟨leadSize b0 - 2, by have := leadSize_ne_one b0; omega⟩
      refine ⟨b0, b1, rest, n, rfl, hn, hc.1, ?_⟩
      simpa [hn] using hc.2
    · simp at h

lemma multiSize_cons {b0 b1 : UInt8} {rest : Bytes} (hl : leadSize b0 = n + 2)
    (h1 : isSecond b0 b1 = true) (hc : hasConts n rest = true) :
    multiSize (b0 :: b1 :: rest) = n + 2 := by
  simp [multiSize, hl, h1, hc]

lemma multiSize_le (s : Bytes) : multiSize s ≤ s.length := by
  by_cases h : multiSize s = 0
  · omega
  · obtain ⟨b0, b1, rest, n, rfl, hl, h1, hc⟩ := multiSize_ne_zero h
    rw [multiSize_cons hl h1 hc]
    simpa using length_of_hasConts hc

/-- A well-formed rune is recognised whatever follows it. -/
lemma multiSize_append (h : multiSize s ≠ 0) (t : Bytes) :
    multiSize (s ++ t) = multiSize s := by
  obtain ⟨b0, b1, rest, n, rfl, hl, h1, hc⟩ := multiSize_ne_zero h
  rw [multiSize_cons hl h1 hc, cons_append, cons_append,
    multiSize_cons hl h1 (hasConts_append hc t)]

/-- The bytes of the rune at the front are themselves a well-formed rune. -/
lemma multiSize_take (h : multiSize s ≠ 0) :
    multiSize (s.take (multiSize s)) = multiSize s := by
  obtain ⟨b0, b1, rest, n, rfl, hl, h1, hc⟩ := multiSize_ne_zero h
  rw [multiSize_cons hl h1 hc, take_succ_cons, take_succ_cons,
    multiSize_cons hl h1 (hasConts_take hc)]

/-- A rune of more than one byte starts outside ASCII. -/
lemma not_ascii_of_multiSize (h : multiSize (b :: s) ≠ 0) :
    ¬ b < 0x80 := by
  obtain ⟨b0, b1, rest, n, hs, hl, -, -⟩ := multiSize_ne_zero h
  obtain ⟨rfl, -⟩ := List.cons.inj hs
  intro hb
  have hlt : b.toNat < 0x80 := hb
  have h0 : leadSize b = 0 := by
    unfold leadSize
    simp only [Bool.and_eq_true, decide_eq_true_eq, UInt8.le_iff_toNat_le, UInt8.reduceToNat]
    rw [if_neg (by omega), if_neg (by omega), if_neg (by omega)]
  omega

lemma le_of_mem_hasConts (h : hasConts n s = true) (hb : b ∈ s.take n) : 0x80 ≤ b := by
  induction n generalizing s with
  | zero => simp at hb
  | succ n ih =>
    cases s with
    | nil => simp at hb
    | cons c s =>
      simp only [hasConts, isCont, Bool.and_eq_true, decide_eq_true_eq] at h
      rcases mem_cons.1 hb with rfl | hb
      · exact h.1.1
      · exact ih h.2 hb

/-- No byte of a rune of more than one byte is ASCII. -/
lemma le_of_mem_multi (hne : s ≠ []) (hs : multiSize s = s.length) (hb : b ∈ s) : 0x80 ≤ b := by
  have h0 : multiSize s ≠ 0 := by rwa [hs, ne_eq, length_eq_zero_iff]
  obtain ⟨b0, b1, rest, n, rfl, hl, h1, hc⟩ := multiSize_ne_zero h0
  have hn : rest.length = n := by
    rw [multiSize_cons hl h1 hc] at hs
    simp at hs
    omega
  rcases mem_cons.1 hb with rfl | hb
  · exact UInt8.not_lt.1 (not_ascii_of_multiSize h0)
  rcases mem_cons.1 hb with rfl | hb
  · unfold isSecond isCont at h1
    split_ifs at h1 <;>
      · simp only [Bool.and_eq_true, decide_eq_true_eq, UInt8.le_iff_toNat_le,
          UInt8.reduceToNat] at h1 ⊢
        omega
  · exact le_of_mem_hasConts hc (by rwa [take_of_length_le (by omega)])

lemma wf_of_mem_runesAux {fuel : Nat} {r : Rune} (h : r ∈ runesAux fuel s) : r.Wf := by
  induction fuel generalizing s with
  | zero => simp [runesAux] at h
  | succ fuel ih =>
    match s with
    | [] => simp [runesAux] at h
    | b :: bs =>
      simp only [runesAux] at h
      split at h
      · next hb =>
        rcases mem_cons.1 h with rfl | h
        · exact hb
        · exact ih h
      · split at h
        · rcases mem_cons.1 h with rfl | h
          · trivial
          · exact ih h
        · next hn =>
          rcases mem_cons.1 h with rfl | h
          · refine ⟨by simp [hn], ?_⟩
            rw [multiSize_take hn, length_take]
            have := multiSize_le (b :: bs)
            omega
          · exact ih h

lemma wf_of_mem_runes {r : Rune} (h : r ∈ runes s) : r.Wf := wf_of_mem_runesAux h

lemma sanitize_of_ascii (h : ∀ b ∈ s, b < 0x80) : sanitize s = s := by
  have key : ∀ (s : Bytes), (∀ b ∈ s, b < 0x80) → (runesAux s.length s).flatMap Rune.bytes = s := by
    intro s
    induction s with
    | nil => simp [runesAux]
    | cons b s ih =>
      intro h
      simp only [length_cons, runesAux, if_pos (h b mem_cons_self), flatMap_cons,
        Rune.bytes, ih fun x hx => h x (mem_cons_of_mem _ hx), singleton_append]
  exact key s h

end Observatory.Lib
