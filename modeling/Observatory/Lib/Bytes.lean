/-
# Byte strings

Files, frames and texts are lists of octets. This file has the small vocabulary every
codec of the development is written in: ASCII constants, big-endian 32-bit words, decimal
numerals in the form a number formatter writes them, and the Castagnoli checksum.
-/
import Mathlib.Data.Nat.Digits.Lemmas
import Mathlib.Tactic.Common
import Mathlib.Tactic.Linarith

namespace Observatory.Lib

open List

/-- A byte string. -/
abbrev Bytes := List UInt8

def ascii (s : String) : Bytes := s.toList.map fun c => UInt8.ofNat c.toNat

/-! ## Big-endian words -/

/-- The four bytes of `n`, most significant first; only the low 32 bits count. -/
def putUint32 (n : Nat) : Bytes :=
  [UInt8.ofNat (n / 2 ^ 24), UInt8.ofNat (n / 2 ^ 16), UInt8.ofNat (n / 2 ^ 8), UInt8.ofNat n]

/-- The word four bytes stand for. -/
def uint32 (a b c d : UInt8) : Nat :=
  a.toNat * 2 ^ 24 + b.toNat * 2 ^ 16 + c.toNat * 2 ^ 8 + d.toNat

@[simp] lemma length_putUint32 (n : Nat) : (putUint32 n).length = 4 := rfl

/-- Reading back a written word gives the word. -/
lemma uint32_putUint32 {n : Nat} (h : n < 2 ^ 32) :
    uint32 (UInt8.ofNat (n / 2 ^ 24)) (UInt8.ofNat (n / 2 ^ 16)) (UInt8.ofNat (n / 2 ^ 8))
      (UInt8.ofNat n) = n := by
  simp only [uint32, UInt8.toNat_ofNat']
  omega

/-- Read a word off the front of a byte string. -/
def takeUint32 : Bytes → Option (Nat × Bytes)
  | a :: b :: c :: d :: rest => some (uint32 a b c d, rest)
  | _ => none

lemma takeUint32_putUint32 {n : Nat} (h : n < 2 ^ 32) (rest : Bytes) :
    takeUint32 (putUint32 n ++ rest) = some (n, rest) := by
  simp only [putUint32, cons_append, nil_append, takeUint32, uint32_putUint32 h]

lemma eq_putUint32_of_takeUint32 {bs rest : Bytes} {n : Nat}
    (h : takeUint32 bs = some (n, rest)) : bs = putUint32 n ++ rest := by
  match bs, h with
  | a :: b :: c :: d :: r, h =>
    obtain ⟨rfl, rfl⟩ := h
    have ha := a.toNat_lt
    have hb := b.toNat_lt
    have hc := c.toNat_lt
    have hd := d.toNat_lt
    simp only [putUint32, uint32, cons_append, nil_append, List.cons.injEq, and_true]
    refine ⟨?_, ?_, ?_, ?_⟩ <;> apply UInt8.toNat_inj.1 <;> rw [UInt8.toNat_ofNat'] <;> omega

/-! ## Decimal numerals -/

def digitByte (d : Nat) : UInt8 := UInt8.ofNat (48 + d)

/-- Whether a byte is a decimal digit. -/
def isDigit (b : UInt8) : Bool := 48 ≤ b && b ≤ 57

def digitVal (b : UInt8) : Nat := b.toNat - 48

/-- The value of a digit string. -/
def natOfDigits (ds : Bytes) : Nat := ds.foldl (fun acc b => acc * 10 + digitVal b) 0

/-- The canonical decimal numeral of `n`: no leading zero, and `0` for zero. -/
def formatUint (n : Nat) : Bytes :=
  if n = 0 then [48] else ((Nat.digits 10 n).map digitByte).reverse

/-- Read a decimal numeral of at most 64 bits: digits only, at least one, value in range. -/
def parseUint (ds : Bytes) : Option Nat :=
  if ds ≠ [] ∧ ds.all isDigit ∧ natOfDigits ds < 2 ^ 64 then some (natOfDigits ds) else none

/-- A canonical decimal numeral: `0`, or digits that do not start with `0`. -/
def isDecimal : Bytes → Bool
  | [] => false
  | [b] => isDigit b
  | b :: bs => isDigit b && b != 48 && bs.all isDigit

lemma toNat_digitByte {d : Nat} (h : d < 10) : (digitByte d).toNat = 48 + d := by
  simp only [digitByte, UInt8.toNat_ofNat']
  omega

lemma isDigit_iff {b : UInt8} : isDigit b = true ↔ 48 ≤ b.toNat ∧ b.toNat ≤ 57 := by
  simp [isDigit, UInt8.le_iff_toNat_le]

lemma isDigit_digitByte {d : Nat} (h : d < 10) : isDigit (digitByte d) = true := by
  rw [isDigit_iff, toNat_digitByte h]
  omega

lemma digitVal_digitByte {d : Nat} (h : d < 10) : digitVal (digitByte d) = d := by
  rw [digitVal, toNat_digitByte h]
  omega

lemma natOfDigits_append_singleton (ds : Bytes) (b : UInt8) :
    natOfDigits (ds ++ [b]) = natOfDigits ds * 10 + digitVal b := by
  simp [natOfDigits]

lemma natOfDigits_reverse_map {l : List Nat} (h : ∀ d ∈ l, d < 10) :
    natOfDigits (l.map digitByte).reverse = Nat.ofDigits 10 l := by
  induction l with
  | nil => rfl
  | cons d l ih =>
    rw [map_cons, reverse_cons, natOfDigits_append_singleton,
      ih fun x hx => h x (mem_cons_of_mem _ hx), digitVal_digitByte (h d mem_cons_self),
      Nat.ofDigits_cons]
    ring

lemma natOfDigits_formatUint (n : Nat) : natOfDigits (formatUint n) = n := by
  unfold formatUint
  split
  · next h => subst h; decide
  · rw [natOfDigits_reverse_map fun d hd => Nat.digits_lt_base (by decide) hd,
      Nat.ofDigits_digits]

lemma all_isDigit_formatUint (n : Nat) : (formatUint n).all isDigit = true := by
  unfold formatUint
  split
  · decide
  · rw [all_eq_true]
    intro b hb
    rw [mem_reverse, mem_map] at hb
    obtain ⟨d, hd, rfl⟩ := hb
    exact isDigit_digitByte (Nat.digits_lt_base (by decide) hd)

lemma formatUint_ne_nil (n : Nat) : formatUint n ≠ [] := by
  unfold formatUint
  split
  · simp
  · next h => simpa [Nat.digits_eq_nil_iff_eq_zero] using h

/-- Reading back a formatted 64-bit number gives the number. -/
lemma parseUint_formatUint {n : Nat} (h : n < 2 ^ 64) : parseUint (formatUint n) = some n := by
  rw [parseUint, if_pos, natOfDigits_formatUint]
  exact ⟨formatUint_ne_nil n, all_isDigit_formatUint n, by rwa [natOfDigits_formatUint]⟩

lemma formatUint_injective : Function.Injective formatUint := by
  intro m n h
  have h' := congrArg natOfDigits h
  rwa [natOfDigits_formatUint, natOfDigits_formatUint] at h'

lemma isDecimal_formatUint (n : Nat) : isDecimal (formatUint n) = true := by
  by_cases hn : n = 0
  · subst hn; decide
  have hne : Nat.digits 10 n ≠ [] := Nat.digits_ne_nil_iff_ne_zero.2 hn
  have hall := all_isDigit_formatUint n
  have hhead : (formatUint n).head? = some (digitByte ((Nat.digits 10 n).getLast hne)) := by
    rw [formatUint, if_neg hn, List.head?_reverse, List.getLast?_map,
      List.getLast?_eq_some_getLast hne]
    rfl
  have hlast : (Nat.digits 10 n).getLast hne ≠ 0 := Nat.getLast_digit_ne_zero 10 hn
  have hlt : (Nat.digits 10 n).getLast hne < 10 :=
    Nat.digits_lt_base (by decide) (getLast_mem hne)
  match hf : formatUint n, hhead, hall with
  | [], hhead, _ => simp at hhead
  | [b], _, hall => simpa [isDecimal] using hall
  | b :: c :: bs, hhead, hall =>
    simp only [List.head?_cons, Option.some.injEq] at hhead
    have hb : b ≠ 48 := by
      intro hb
      have := congrArg UInt8.toNat (hhead.symm.trans hb)
      rw [toNat_digitByte hlt] at this
      simp at this
      exact hlast this
    simp only [all_cons, Bool.and_eq_true] at hall
    simp [isDecimal, hall.1, hall.2.1, hall.2.2, hb]

/-! ## The Castagnoli checksum -/

/-- One bit of the reflected CRC with the Castagnoli polynomial. -/
def crc32cBit (c : UInt32) : UInt32 :=
  if c &&& 1 = 1 then (c >>> 1) ^^^ 0x82F63B78 else c >>> 1

def crc32cByte (c : UInt32) (b : UInt8) : UInt32 :=
  let c := c ^^^ b.toUInt32
  crc32cBit (crc32cBit (crc32cBit (crc32cBit
    (crc32cBit (crc32cBit (crc32cBit (crc32cBit c)))))))

def crc32c (bs : Bytes) : Nat := (bs.foldl crc32cByte 0xFFFFFFFF ^^^ 0xFFFFFFFF).toNat

lemma crc32c_lt (bs : Bytes) : crc32c bs < 2 ^ 32 := UInt32.toNat_lt _

-- The published check value of CRC-32C, over the nine digits.
example : crc32c (ascii "123456789") = 0xE3069283 := by decide +kernel

end Observatory.Lib
