/-
# Instants and their RFC 3339 texts

An instant is a number of seconds since the first day of year one, UTC, with nanoseconds.
`format` writes it with microseconds and the zone `Z`; `parse` reads the RFC 3339 texts with
any fraction and any offset. The calendar is the proleptic Gregorian one, and years need not
have four digits: `format` writes what it gets, `parse` takes four digits only.
-/
import Mathlib.Data.List.TakeWhile
import Observatory.Lib.Bytes

namespace Observatory.Lib

open List Option

/-! ## The calendar -/

/-- Days from the first of January of year one to the first of January of year `y`. -/
def daysBeforeYear (y : Int) : Int :=
  365 * (y - 1) + (y - 1) / 4 - (y - 1) / 100 + (y - 1) / 400

def isLeap (y : Int) : Bool := y % 4 = 0 && (y % 100 ≠ 0 || y % 400 = 0)

def leapDays (y : Int) : Nat := if isLeap y then 1 else 0

def daysBeforeMonth (l m : Nat) : Nat :=
  match m with
  | 1 => 0
  | 2 => 31
  | 3 => 59 + l
  | 4 => 90 + l
  | 5 => 120 + l
  | 6 => 151 + l
  | 7 => 181 + l
  | 8 => 212 + l
  | 9 => 243 + l
  | 10 => 273 + l
  | 11 => 304 + l
  | 12 => 334 + l
  | _ => 365 + l

def daysIn (l m : Nat) : Nat := daysBeforeMonth l (m + 1) - daysBeforeMonth l m

def dayNumber (y : Int) (m d : Nat) : Int :=
  daysBeforeYear y + (daysBeforeMonth (leapDays y) m + (d - 1) : Nat)

/-- The year of day `n`: the mean length of a year gives it up to one. -/
def yearOf (n : Int) : Int :=
  let y := n * 400 / 146097 + 1
  if n < daysBeforeYear y then y - 1
  else if daysBeforeYear (y + 1) ≤ n then y + 1
  else y

/-- The month of the `n`th day of a year (counted from `0`) with `l` leap days. -/
def monthOf (l n : Nat) : Nat :=
  if n < 31 then 1
  else if n < 59 + l then 2
  else if n < 90 + l then 3
  else if n < 120 + l then 4
  else if n < 151 + l then 5
  else if n < 181 + l then 6
  else if n < 212 + l then 7
  else if n < 243 + l then 8
  else if n < 273 + l then 9
  else if n < 304 + l then 10
  else if n < 334 + l then 11
  else 12

lemma leapDays_le (y : Int) : leapDays y ≤ 1 := by
  unfold leapDays
  split <;> simp

lemma daysBeforeYear_succ (y : Int) :
    daysBeforeYear (y + 1) = daysBeforeYear y + 365 + leapDays y := by
  have h : (leapDays y : Int) = y / 4 - (y - 1) / 4 - (y / 100 - (y - 1) / 100) +
      (y / 400 - (y - 1) / 400) := by
    unfold leapDays isLeap
    split
    · next h =>
      simp only [Bool.and_eq_true, Bool.or_eq_true, decide_eq_true_eq] at h
      push_cast
      omega
    · next h =>
      simp only [Bool.and_eq_true, Bool.or_eq_true, decide_eq_true_eq] at h
      push_cast
      omega
  unfold daysBeforeYear
  rw [h, show y + 1 - 1 = y by omega]
  omega

lemma daysBeforeYear_bounds (y : Int) :
    146097 * (y - 1) - 699 ≤ 400 * daysBeforeYear y ∧
      400 * daysBeforeYear y ≤ 146097 * (y - 1) + 396 := by
  have h4 := Int.mul_ediv_add_emod (y - 1) 4
  have h100 := Int.mul_ediv_add_emod (y - 1) 100
  have h400 := Int.mul_ediv_add_emod (y - 1) 400
  have m4 := Int.emod_nonneg (y - 1) (show (4 : Int) ≠ 0 by decide)
  have m4' := Int.emod_lt_of_pos (y - 1) (show (0 : Int) < 4 by decide)
  have m100 := Int.emod_nonneg (y - 1) (show (100 : Int) ≠ 0 by decide)
  have m100' := Int.emod_lt_of_pos (y - 1) (show (0 : Int) < 100 by decide)
  have m400 := Int.emod_nonneg (y - 1) (show (400 : Int) ≠ 0 by decide)
  have m400' := Int.emod_lt_of_pos (y - 1) (show (0 : Int) < 400 by decide)
  unfold daysBeforeYear
  constructor <;> linarith

lemma yearOf_spec (n : Int) :
    daysBeforeYear (yearOf n) ≤ n ∧ n < daysBeforeYear (yearOf n + 1) := by
  have hlo := (daysBeforeYear_bounds (n * 400 / 146097 + 1 - 1)).2
  have hhi := (daysBeforeYear_bounds (n * 400 / 146097 + 1 + 1 + 1)).1
  unfold yearOf
  dsimp only
  split
  · next h =>
    exact ⟨by omega, by rw [Int.sub_add_cancel]; exact h⟩
  · next h =>
    split
    · next h' => exact ⟨h', by omega⟩
    · next h' => exact ⟨by omega, by omega⟩

lemma monthOf_spec {l n : Nat} (hl : l ≤ 1) (hn : n < 365 + l) :
    1 ≤ monthOf l n ∧ monthOf l n ≤ 12 ∧ daysBeforeMonth l (monthOf l n) ≤ n ∧
      n < daysBeforeMonth l (monthOf l n + 1) := by
  have all : ∀ l < 2, ∀ n < 365 + l, 1 ≤ monthOf l n ∧ monthOf l n ≤ 12 ∧
      daysBeforeMonth l (monthOf l n) ≤ n ∧ n < daysBeforeMonth l (monthOf l n + 1) := by
    decide +kernel
  exact all l (by omega) n hn

/-! ## Fixed-width numerals -/

def fixedDigits : Nat → Nat → Bytes
  | 0, _ => []
  | w + 1, n => fixedDigits w (n / 10) ++ [digitByte (n % 10)]

/-- A number written with exactly `w` digits, and what follows it. -/
def takeDigits (w : Nat) (s : Bytes) : Option (Nat × Bytes) :=
  if w ≤ s.length ∧ (s.take w).all isDigit = true then some (natOfDigits (s.take w), s.drop w)
  else none

lemma length_fixedDigits (w n : Nat) : (fixedDigits w n).length = w := by
  induction w generalizing n with
  | zero => rfl
  | succ w ih => simp [fixedDigits, ih]

lemma all_isDigit_fixedDigits (w n : Nat) : (fixedDigits w n).all isDigit = true := by
  induction w generalizing n with
  | zero => rfl
  | succ w ih => simp [fixedDigits, ih, isDigit_digitByte (Nat.mod_lt n (by decide))]

lemma natOfDigits_fixedDigits {w n : Nat} (h : n < 10 ^ w) : natOfDigits (fixedDigits w n) = n := by
  induction w generalizing n with
  | zero =>
    have : n = 0 := by simpa using h
    subst this
    rfl
  | succ w ih =>
    have hdiv : n / 10 < 10 ^ w := Nat.div_lt_of_lt_mul (by rw [Nat.pow_succ] at h; omega)
    rw [fixedDigits, natOfDigits_append_singleton, ih hdiv,
      digitVal_digitByte (Nat.mod_lt n (by decide))]
    omega

lemma takeDigits_fixedDigits {w n : Nat} (h : n < 10 ^ w) (rest : Bytes) :
    takeDigits w (fixedDigits w n ++ rest) = some (n, rest) := by
  have hlen := length_fixedDigits w n
  have htake : (fixedDigits w n ++ rest).take w = fixedDigits w n := by
    rw [take_append_of_le_length (by omega), take_of_length_le (by omega)]
  have hdrop : (fixedDigits w n ++ rest).drop w = rest := by
    rw [drop_append_of_le_length (by omega), drop_of_length_le (by omega),
      nil_append]
  rw [takeDigits, htake, hdrop, natOfDigits_fixedDigits h,
    if_pos ⟨by rw [length_append]; omega, all_isDigit_fixedDigits w n⟩]

/-! ## Instants -/

/-- Seconds since `0001-01-01T00:00:00Z`, and nanoseconds. -/
structure Instant where
  sec : Int
  nsec : Nat
  nsec_lt : nsec < 1000000000

namespace Instant

/-- A whole second. -/
lemma zero_nsec_lt : 0 < 1000000000 := by decide

def year (t : Instant) : Int := yearOf (t.sec / 86400)

def yearDay (t : Instant) : Nat := (t.sec / 86400 - daysBeforeYear t.year).toNat

def month (t : Instant) : Nat := monthOf (leapDays t.year) t.yearDay

def day (t : Instant) : Nat := t.yearDay - daysBeforeMonth (leapDays t.year) t.month + 1

/-- The second of the day. -/
def clock (t : Instant) : Nat := (t.sec % 86400).toNat

/-- The first instant of year one, which stands for a time that was never set. -/
def isZero (t : Instant) : Bool := t.sec = 0 && t.nsec = 0

/-- The instant without what `format` does not write. -/
def truncMicros (t : Instant) : Instant where
  sec := t.sec
  nsec := t.nsec / 1000 * 1000
  nsec_lt := by have := t.nsec_lt; omega

def FourDigitYear (t : Instant) : Prop := 0 ≤ t.year ∧ t.year ≤ 9999

instance (t : Instant) : Decidable t.FourDigitYear :=
  inferInstanceAs (Decidable (_ ∧ _))

/-! ## Writing -/

def formatYear (y : Int) : Bytes :=
  let digits (n : Nat) : Bytes := if n < 10000 then fixedDigits 4 n else formatUint n
  if y < 0 then 0x2D :: digits (-y).toNat else digits y.toNat

/-- The text of an instant, in UTC and with microseconds. -/
def format (t : Instant) : Bytes :=
  formatYear t.year ++ 0x2D :: (fixedDigits 2 t.month ++ 0x2D :: (fixedDigits 2 t.day ++
    0x54 :: (fixedDigits 2 (t.clock / 3600) ++ 0x3A :: (fixedDigits 2 (t.clock / 60 % 60) ++
      0x3A :: (fixedDigits 2 (t.clock % 60) ++ 0x2E :: (fixedDigits 6 (t.nsec / 1000) ++
        [0x5A]))))))

/-! ## Reading -/

def takeByte (c : UInt8) : Bytes → Option Bytes
  | [] => none
  | b :: bs => if b = c then some bs else none

def takeHour (s : Bytes) : Option (Nat × Bytes) :=
  match takeDigits 2 s with
  | some p => some p
  | none => takeDigits 1 s

/-- The nanoseconds that the digits after the separator stand for; digits after the ninth are
dropped. -/
def nanos (ds : Bytes) : Nat := natOfDigits (ds.take 9) * 10 ^ (9 - (ds.take 9).length)

/-- An optional fraction of a second, after a period or a comma. -/
def takeFraction : Bytes → Nat × Bytes
  | [] => (0, [])
  | c :: rest =>
    if (c = 0x2E ∨ c = 0x2C) ∧ rest.takeWhile isDigit ≠ [] then
      (nanos (rest.takeWhile isDigit), rest.dropWhile isDigit)
    else (0, c :: rest)

/-- The zone as seconds east of UTC. Offsets of 24 hours and 60 minutes are let through. -/
def takeZone : Bytes → Option (Int × Bytes)
  | [] => none
  | b :: s =>
    if b = 0x5A then some (0, s)
    else do
      let (h, s) ← takeDigits 2 s
      let s ← takeByte 0x3A s
      let (m, s) ← takeDigits 2 s
      if 24 < h ∨ 60 < m then none
      else if b = 0x2B then some ((h * 60 + m) * 60, s)
      else if b = 0x2D then some (-((h * 60 + m) * 60), s)
      else none

lemma natOfDigits_lt {ds : Bytes} (h : ds.all isDigit = true) :
    natOfDigits ds < 10 ^ ds.length := by
  induction ds using List.reverseRecOn with
  | nil => simp [natOfDigits]
  | append_singleton ds b ih =>
    simp only [all_append, all_cons, all_nil, Bool.and_true, Bool.and_eq_true] at h
    have hb := isDigit_iff.1 h.2
    have := ih h.1
    rw [natOfDigits_append_singleton, length_append, length_singleton, Nat.pow_succ,
      digitVal]
    omega

lemma nanos_lt {ds : Bytes} (h : ds.all isDigit = true) : nanos ds < 1000000000 := by
  have hall : (ds.take 9).all isDigit = true :=
    all_eq_true.2 fun b hb => all_eq_true.1 h b (mem_of_mem_take hb)
  have hlen : (ds.take 9).length ≤ 9 := by simp
  have hpow : 10 ^ (ds.take 9).length * 10 ^ (9 - (ds.take 9).length) = 1000000000 := by
    rw [← Nat.pow_add, Nat.add_sub_cancel' hlen]
  calc nanos ds < 10 ^ (ds.take 9).length * 10 ^ (9 - (ds.take 9).length) :=
        Nat.mul_lt_mul_of_pos_right (natOfDigits_lt hall) (Nat.pow_pos (by decide))
    _ = 1000000000 := hpow

lemma takeFraction_lt (s : Bytes) : (takeFraction s).1 < 1000000000 := by
  cases s with
  | nil => simp [takeFraction]
  | cons c rest =>
    simp only [takeFraction]
    split
    · exact nanos_lt (all_eq_true.2 fun b hb => mem_takeWhile_imp hb)
    · simp

/-- Two numbers of two digits around the byte `c`, the first read by `first`. -/
def takePair (first : Bytes → Option (Nat × Bytes)) (c : UInt8) (s : Bytes) :
    Option (Nat × Nat × Bytes) := do
  let (a, s) ← first s
  let s ← takeByte c s
  let (b, s) ← takeDigits 2 s
  some (a, b, s)

/-- Read an RFC 3339 text. -/
def parse (s : Bytes) : Option Instant := do
  let (y, s) ← takeDigits 4 s
  let s ← takeByte 0x2D s
  let (mo, d, s) ← takePair (takeDigits 2) 0x2D s
  let s ← takeByte 0x54 s
  let (h, mi, s) ← takePair takeHour 0x3A s
  let s ← takeByte 0x3A s
  let (se, s) ← takeDigits 2 s
  let (off, rest) ← takeZone (takeFraction s).2
  if 1 ≤ mo ∧ mo ≤ 12 ∧ 1 ≤ d ∧ d ≤ daysIn (leapDays y) mo ∧ h < 24 ∧ mi < 60 ∧ se < 60 ∧
      rest = [] then
    some ⟨dayNumber y mo d * 86400 + (h * 3600 + mi * 60 + se : Nat) - off, (takeFraction s).1,
      takeFraction_lt s⟩
  else none

/-! ## A written instant is read back -/

lemma yearDay_lt (t : Instant) :
    t.yearDay < 365 + leapDays t.year ∧
      t.sec / 86400 = daysBeforeYear t.year + t.yearDay := by
  have hspec := yearOf_spec (t.sec / 86400)
  have hsucc := daysBeforeYear_succ t.year
  have hle : daysBeforeYear t.year ≤ t.sec / 86400 := hspec.1
  have hlt : t.sec / 86400 < daysBeforeYear (t.year + 1) := hspec.2
  have hday : (t.yearDay : Int) = t.sec / 86400 - daysBeforeYear t.year :=
    Int.toNat_of_nonneg (by omega)
  constructor
  · zify
    omega
  · omega

lemma date_valid (t : Instant) :
    1 ≤ t.month ∧ t.month ≤ 12 ∧ 1 ≤ t.day ∧ t.day ≤ daysIn (leapDays t.year) t.month ∧
      dayNumber t.year t.month t.day = t.sec / 86400 := by
  obtain ⟨hlt, heq⟩ := t.yearDay_lt
  obtain ⟨h1, h12, hle, hlt'⟩ := monthOf_spec (leapDays_le t.year) hlt
  have hle : daysBeforeMonth (leapDays t.year) t.month ≤ t.yearDay := hle
  have hlt' : t.yearDay < daysBeforeMonth (leapDays t.year) (t.month + 1) := hlt'
  have hday : t.day = t.yearDay - daysBeforeMonth (leapDays t.year) t.month + 1 := rfl
  refine ⟨h1, h12, by omega, ?_, ?_⟩
  · unfold daysIn
    omega
  · have hsum : daysBeforeMonth (leapDays t.year) t.month + (t.day - 1) = t.yearDay := by omega
    rw [dayNumber, hsum, heq]

lemma day_lt (t : Instant) : t.day < 100 := by
  obtain ⟨h1, h12, -, hd, -⟩ := t.date_valid
  have all : ∀ l < 2, ∀ m < 13, 1 ≤ m → daysIn l m < 100 := by decide
  have := all (leapDays t.year) (by have := leapDays_le t.year; omega) t.month (by omega) h1
  omega

lemma clock_lt (t : Instant) : t.clock < 86400 := by
  have h := Int.emod_lt_of_pos t.sec (show (0 : Int) < 86400 by decide)
  have h0 := Int.emod_nonneg t.sec (show (86400 : Int) ≠ 0 by decide)
  unfold clock
  omega

lemma formatYear_of_fourDigits {y : Int} (h : 0 ≤ y ∧ y ≤ 9999) :
    formatYear y = fixedDigits 4 y.toNat := by
  unfold formatYear
  rw [if_neg (by omega)]
  exact if_pos (by omega)

@[simp] lemma takeByte_cons (c : UInt8) (bs : Bytes) : takeByte c (c :: bs) = some bs := by
  simp [takeByte]

lemma takeHour_fixedDigits {n : Nat} (h : n < 10 ^ 2) (rest : Bytes) :
    takeHour (fixedDigits 2 n ++ rest) = some (n, rest) := by
  rw [takeHour, takeDigits_fixedDigits h]

lemma takePair_eq {first : Bytes → Option (Nat × Bytes)} {c : UInt8} {s rest : Bytes} {a b : Nat}
    (ha : first s = some (a, c :: (fixedDigits 2 b ++ rest))) (hb : b < 10 ^ 2) :
    takePair first c s = some (a, b, rest) := by
  simp only [takePair, ha, bind_eq_bind, bind_some, takeByte_cons,
    takeDigits_fixedDigits hb]

lemma takeFraction_micros {n : Nat} (h : n < 10 ^ 6) :
    takeFraction (0x2E :: (fixedDigits 6 n ++ [0x5A])) = (n * 1000, [0x5A]) := by
  have hall : ∀ b ∈ fixedDigits 6 n, isDigit b = true :=
    all_eq_true.1 (all_isDigit_fixedDigits 6 n)
  have htake : (fixedDigits 6 n ++ [0x5A]).takeWhile isDigit = fixedDigits 6 n := by
    rw [takeWhile_append_of_pos hall]
    simp [isDigit]
  have hdrop : (fixedDigits 6 n ++ [0x5A]).dropWhile isDigit = [0x5A] := by
    rw [dropWhile_append_of_pos hall]
    simp [isDigit]
  have hlen := length_fixedDigits 6 n
  have hne : fixedDigits 6 n ≠ [] := by
    intro h0
    rw [h0] at hlen
    exact absurd hlen (by decide)
  have htake9 : (fixedDigits 6 n).take 9 = fixedDigits 6 n := take_of_length_le (by omega)
  rw [takeFraction, htake, hdrop, if_pos ⟨.inl rfl, hne⟩, nanos, htake9, hlen,
    natOfDigits_fixedDigits h]
  rfl

/-- **A written instant is read back** up to its microsecond, when its year has four
digits. -/
theorem parse_format {t : Instant} (hy : t.FourDigitYear) : parse t.format = some t.truncMicros := by
  obtain ⟨h1, h12, hd1, hd, hnum⟩ := t.date_valid
  have hclock := t.clock_lt
  have hsec : t.sec = t.sec / 86400 * 86400 + t.clock := by
    have h0 := Int.emod_nonneg t.sec (show (86400 : Int) ≠ 0 by decide)
    have hc : (t.clock : Int) = t.sec % 86400 := Int.toNat_of_nonneg h0
    omega
  have hyear : (t.year.toNat : Int) = t.year := Int.toNat_of_nonneg hy.1
  have hmicro : t.nsec / 1000 < 10 ^ 6 := by have := t.nsec_lt; omega
  have hh : t.clock / 3600 < 10 ^ 2 := by omega
  have hm : t.clock / 60 % 60 < 10 ^ 2 := by omega
  have hs : t.clock % 60 < 10 ^ 2 := by omega
  have hy4 : t.year.toNat < 10 ^ 4 := by have := hy.2; omega
  have hd2 : t.day < 10 ^ 2 := t.day_lt
  have hmo : t.month < 10 ^ 2 := by omega
  unfold parse format
  rw [formatYear_of_fourDigits hy, takeDigits_fixedDigits hy4]
  simp only [bind_eq_bind, bind_some, takeByte_cons]
  rw [takePair_eq (takeDigits_fixedDigits hmo _) hd2]
  simp only [bind_some, takeByte_cons]
  rw [takePair_eq (takeHour_fixedDigits hh _) hm]
  simp only [bind_some, takeByte_cons]
  rw [takeDigits_fixedDigits hs]
  simp only [bind_some, takeFraction_micros hmicro, takeZone, if_true, hyear]
  rw [if_pos ⟨h1, h12, hd1, hd, by omega, by omega, by omega, trivial⟩, hnum]
  simp only [truncMicros, Option.some.injEq, mk.injEq, and_true]
  omega

lemma lt_of_isDigit {b : UInt8} (h : isDigit b = true) : b < 0x80 := by
  have := (isDigit_iff.1 h).2
  rw [UInt8.lt_iff_toNat_lt]
  exact Nat.lt_of_le_of_lt this (by decide)

lemma format_lt {t : Instant} (hy : t.FourDigitYear) : ∀ b ∈ t.format, b < 0x80 := by
  have hfix : ∀ w n, ∀ b ∈ fixedDigits w n, b < 0x80 := fun w n b hb =>
    lt_of_isDigit (all_eq_true.1 (all_isDigit_fixedDigits w n) b hb)
  intro b hb
  simp only [format, formatYear_of_fourDigits hy, mem_append, mem_cons,
    not_mem_nil, or_false] at hb
  rcases hb with h | rfl | h | rfl | h | rfl | h | rfl | h | rfl | h | rfl | h | rfl
  all_goals first | exact hfix _ _ _ h | decide

example : (parse (ascii "9999-12-31T23:59:59-01:00")).map format =
    some (ascii "10000-01-01T00:59:59.000000Z") := by decide +kernel

end Instant

end Observatory.Lib
