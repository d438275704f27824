/-
# Decoding JSON trees

The second half of reading a JSON text: the tree becomes a value. A decoder with a target
type is a function of the value that was there before, because `null` and members that are
absent leave it as it was. A decoder without one turns numbers into 64-bit floats and objects
into maps. A map is kept as its members sorted by key, each key once, so that equal maps are
equal lists and the writer can write the list as it stands; a float is kept as the text it is
written with again, and how a literal becomes that text is a parameter.
-/
import Observatory.Lib.Instant
import Observatory.Lib.Json

namespace Observatory.Lib

open List Option

/-- How a number literal goes through a 64-bit float: `float lit` is the text the float read
from `lit` is written with, or `none` when the literal is out of range. A written float is a
number literal that reads as the same float. -/
structure FloatText where
  float : Bytes → Option Bytes
  isNumber_float : ∀ {lit c : Bytes}, float lit = some c → isNumber c = true
  float_float : ∀ {lit c : Bytes}, float lit = some c → float c = some c

/-- Numerals of at most fifteen digits only, which a float holds exactly. -/
def FloatText.smallNumerals : FloatText where
  float lit := if isDecimal lit && lit.length ≤ 15 then some lit else none
  isNumber_float := by
    intro lit c h
    split at h
    · next hc =>
      obtain rfl : lit = c := by simpa using h
      rw [Bool.and_eq_true] at hc
      exact isNumber_of_isDecimal hc.1
    · cases h
  float_float := by
    intro lit c h
    split at h
    · next hc =>
      obtain rfl : lit = c := by simpa using h
      rw [if_pos hc]
    · cases h

/-- Every literal is kept as it is written. -/
def FloatText.verbatim : FloatText where
  float lit := if isNumber lit then some lit else none
  isNumber_float := by
    intro lit c h
    split at h
    · next hc =>
      obtain rfl : lit = c := by simpa using h
      exact hc
    · cases h
  float_float := by
    intro lit c h
    split at h
    · next hc =>
      obtain rfl : lit = c := by simpa using h
      rw [if_pos hc]
    · cases h

/-- The order of texts by their bytes. -/
def bytesLt : Bytes → Bytes → Bool
  | _, [] => false
  | [], _ :: _ => true
  | a :: as, b :: bs => a < b || (a == b && bytesLt as bs)

lemma bytesLt_irrefl (a : Bytes) : bytesLt a a = false := by
  induction a with
  | nil => rfl
  | cons b a ih => simp [bytesLt, ih]

/-- Texts with parts of one length compare part by part. -/
lemma bytesLt_append {a b : Bytes} (h : a.length = b.length) (c d : Bytes) :
    bytesLt (a ++ c) (b ++ d) = (bytesLt a b || (a == b && bytesLt c d)) := by
  induction a generalizing b with
  | nil =>
    obtain rfl : b = [] := length_eq_zero_iff.1 h.symm
    simp [bytesLt]
  | cons x a ih =>
    cases b with
    | nil => simp at h
    | cons y b =>
      have hlen : a.length = b.length := by simpa using h
      simp only [cons_append, bytesLt, ih hlen]
      by_cases hxy : x = y
      · subst hxy
        simp
      · have : (x == y) = false := by simpa using hxy
        simp [this]

lemma digitByte_lt {m n : Nat} (hm : m < 10) (hn : n < 10) :
    digitByte m < digitByte n ↔ m < n := by
  rw [UInt8.lt_iff_toNat_lt, toNat_digitByte hm, toNat_digitByte hn]
  omega

lemma fixedDigits_inj {w m n : Nat} (hm : m < 10 ^ w) (hn : n < 10 ^ w) :
    fixedDigits w m = fixedDigits w n ↔ m = n := by
  constructor
  · intro h
    rw [← natOfDigits_fixedDigits hm, h, natOfDigits_fixedDigits hn]
  · rintro rfl
    rfl

/-- Numbers with the same number of digits are in order as texts. -/
lemma bytesLt_fixedDigits {w m n : Nat} (hm : m < 10 ^ w) (hn : n < 10 ^ w) :
    bytesLt (fixedDigits w m) (fixedDigits w n) = decide (m < n) := by
  induction w generalizing m n with
  | zero =>
    have hm0 : m = 0 := by simpa using hm
    have hn0 : n = 0 := by simpa using hn
    subst hm0 hn0
    rfl
  | succ w ih =>
    have hm' : m / 10 < 10 ^ w := Nat.div_lt_of_lt_mul (by rw [Nat.pow_succ] at hm; omega)
    have hn' : n / 10 < 10 ^ w := Nat.div_lt_of_lt_mul (by rw [Nat.pow_succ] at hn; omega)
    have hlast : bytesLt [digitByte (m % 10)] [digitByte (n % 10)] = decide (m % 10 < n % 10) := by
      simp [bytesLt, digitByte_lt (Nat.mod_lt m (by decide)) (Nat.mod_lt n (by decide))]
    have heq : (fixedDigits w (m / 10) == fixedDigits w (n / 10)) = decide (m / 10 = n / 10) := by
      rw [Bool.eq_iff_iff, beq_iff_eq, decide_eq_true_eq]
      exact fixedDigits_inj hm' hn'
    rw [fixedDigits, fixedDigits, bytesLt_append (by simp [length_fixedDigits]), ih hm' hn', hlast,
      heq, Bool.eq_iff_iff]
    simp only [Bool.or_eq_true, Bool.and_eq_true, decide_eq_true_eq]
    omega

def setKey {α : Type} (k : Bytes) (v : α) : List (Bytes × α) → List (Bytes × α)
  | [] => [(k, v)]
  | (k', v') :: ms =>
    if k = k' then (k, v) :: ms
    else if bytesLt k k' then (k, v) :: (k', v') :: ms
    else (k', v') :: setKey k v ms

/-- The map with the given members, the last one winning. -/
def mkMap {α : Type} (ms : List (Bytes × α)) : List (Bytes × α) :=
  ms.foldl (fun m p => setKey p.1 p.2 m) []

lemma lookup_setKey_self {α : Type} (k : Bytes) (v : α) (ms : List (Bytes × α)) :
    (setKey k v ms).lookup k = some v := by
  induction ms with
  | nil => simp [setKey]
  | cons m ms ih =>
    obtain ⟨k', v'⟩ := m
    unfold setKey
    by_cases hk : k = k'
    · simp [hk]
    · by_cases hlt : bytesLt k k' = true
      · simp [hk, hlt]
      · simp [hk, hlt, lookup_cons, beq_false_of_ne hk, ih]

lemma lookup_setKey_of_ne {α : Type} {k j : Bytes} (h : j ≠ k) (v : α) (ms : List (Bytes × α)) :
    (setKey k v ms).lookup j = ms.lookup j := by
  induction ms with
  | nil => simp [setKey, lookup_cons, beq_false_of_ne h]
  | cons m ms ih =>
    obtain ⟨k', v'⟩ := m
    unfold setKey
    by_cases hk : k = k'
    · subst hk
      simp [lookup_cons, beq_false_of_ne h]
    · by_cases hlt : bytesLt k k' = true
      · simp [hk, hlt, lookup_cons, beq_false_of_ne h]
      · simp [hk, hlt, lookup_cons, ih]

lemma mkMap_append_singleton {α : Type} (ms : List (Bytes × α)) (k : Bytes) (v : α) :
    mkMap (ms ++ [(k, v)]) = setKey k v (mkMap ms) := by
  simp [mkMap]

namespace Json

variable (conv : FloatText)

mutual

/-- Decode a tree without a target type. -/
def toAny : Json → Option Json
  | .num lit => (conv.float lit).map .num
  | .arr xs => (toAnyElems xs).map .arr
  | .obj ms => (toAnyMembers ms []).map .obj
  | .null => some .null
  | .bool b => some (.bool b)
  | .str s => some (.str s)

def toAnyElems : List Json → Option (List Json)
  | [] => some []
  | x :: xs =>
    match toAny x, toAnyElems xs with
    | some v, some vs => some (v :: vs)
    | _, _ => none

def toAnyMembers : List (Bytes × Json) → List (Bytes × Json) → Option (List (Bytes × Json))
  | [], acc => some acc
  | (k, x) :: ms, acc =>
    match toAny x with
    | some v => toAnyMembers ms (setKey k v acc)
    | none => none

end

def isAny (j : Json) : Bool := j.allNums fun lit => conv.float lit == some lit

/-- Every number is one that a float can be read from. -/
def inRange (j : Json) : Bool := j.allNums fun lit => (conv.float lit).isSome

variable {conv}

lemma mem_setKey {α : Type} {k : Bytes} {v : α} {ms : List (Bytes × α)} {m : Bytes × α}
    (h : m ∈ setKey k v ms) : m = (k, v) ∨ m ∈ ms := by
  induction ms with
  | nil => exact .inl (by simpa [setKey] using h)
  | cons p ms ih =>
    obtain ⟨k', v'⟩ := p
    simp only [setKey] at h
    split at h
    · rcases mem_cons.1 h with h | h
      · exact .inl h
      · exact .inr (.tail _ h)
    · split at h
      · rcases mem_cons.1 h with h | h
        · exact .inl h
        · exact .inr h
      · rcases mem_cons.1 h with h | h
        · exact .inr (h ▸ (.head _))
        · rcases ih h with h | h
          · exact .inl h
          · exact .inr (.tail _ h)

lemma mem_mkMap {α : Type} {ms : List (Bytes × α)} {m : Bytes × α} (h : m ∈ mkMap ms) : m ∈ ms := by
  have hfold : ∀ (ms acc : List (Bytes × α)),
      m ∈ ms.foldl (fun acc p => setKey p.1 p.2 acc) acc → m ∈ acc ∨ m ∈ ms := by
    intro ms
    induction ms with
    | nil => exact fun acc h => .inl h
    | cons p ms ih =>
      intro acc h
      rcases ih _ h with h | h
      · rcases mem_setKey h with rfl | h
        · exact .inr mem_cons_self
        · exact .inl h
      · exact .inr (.tail _ h)
  exact (hfold ms [] h).resolve_left (by simp)

lemma allNums_of_isAny {p : Bytes → Bool} (hp : ∀ lit, conv.float lit = some lit → p lit = true) :
    ∀ {j : Json}, j.isAny conv = true → j.allNums p = true := by
  refine @induct _ (fun _ => rfl) (fun _ _ => rfl) ?_ (fun _ _ => rfl) ?_ ?_
  · intro lit h
    exact hp lit (by simpa [isAny, allNums] using h)
  · intro xs ih h
    exact allNums_arr.2 fun x hx => ih x hx (allNums_arr.1 h x hx)
  · intro ms ih h
    exact allNums_obj.2 fun m hm => ih m hm (allNums_obj.1 h m hm)

lemma numsOk_of_isAny {j : Json} (h : j.isAny conv = true) : j.numsOk = true :=
  allNums_of_isAny (fun _ hfloat => conv.isNumber_float hfloat) h

/-! ## What a decoded value satisfies -/

lemma toAnyElems_spec {P : Json → Prop} {xs vs : List Json}
    (h : toAnyElems conv xs = some vs) (hP : ∀ x ∈ xs, ∀ v, toAny conv x = some v → P v) :
    ∀ v ∈ vs, P v := by
  induction xs generalizing vs with
  | nil =>
    obtain rfl : [] = vs := by simpa [toAnyElems] using h
    simp
  | cons x xs ih =>
    simp only [toAnyElems] at h
    split at h
    · next v ws hv hws =>
      obtain rfl : v :: ws = vs := by simpa using h
      exact forall_mem_cons.2 ⟨hP x mem_cons_self v hv,
        ih hws fun y hy => hP y (.tail _ hy)⟩
    · cases h

lemma toAnyMembers_spec {P : Json → Prop} {ms acc vs : List (Bytes × Json)}
    (h : toAnyMembers conv ms acc = some vs)
    (hP : ∀ m ∈ ms, ∀ v, toAny conv m.2 = some v → P v) (hacc : ∀ m ∈ acc, P m.2) :
    ∀ m ∈ vs, P m.2 := by
  induction ms generalizing acc with
  | nil =>
    obtain rfl : acc = vs := by simpa [toAnyMembers] using h
    exact hacc
  | cons p ms ih =>
    obtain ⟨k, x⟩ := p
    simp only [toAnyMembers] at h
    split at h
    · next v hv =>
      refine ih h (fun m hm => hP m (.tail _ hm)) fun m hm => ?_
      rcases mem_setKey hm with rfl | hm
      · exact hP (k, x) mem_cons_self v hv
      · exact hacc m hm
    · cases h

lemma isAny_toAny : ∀ {j v : Json}, toAny conv j = some v → v.isAny conv = true := by
  refine @induct _ ?_ ?_ ?_ ?_ ?_ ?_
  · intro v h
    obtain rfl : null = v := by simpa [toAny] using h
    rfl
  · intro b v h
    obtain rfl : bool b = v := by simpa [toAny] using h
    rfl
  · intro lit v h
    obtain ⟨c, hc, rfl⟩ := map_eq_some_iff.1 h
    simpa [isAny, allNums] using conv.float_float hc
  · intro s v h
    obtain rfl : str s = v := by simpa [toAny] using h
    rfl
  · intro xs ih v h
    obtain ⟨vs, hvs, rfl⟩ := map_eq_some_iff.1 h
    exact allNums_arr.2 (toAnyElems_spec hvs fun x hx v hv => ih x hx hv)
  · intro ms ih v h
    obtain ⟨vs, hvs, rfl⟩ := map_eq_some_iff.1 h
    exact allNums_obj.2
      (toAnyMembers_spec (P := fun v => v.isAny conv = true) hvs (fun m hm v hv => ih m hm hv)
        (by simp))

lemma depth_toAny : ∀ {j v : Json}, toAny conv j = some v → v.depth ≤ j.depth := by
  refine @induct _ ?_ ?_ ?_ ?_ ?_ ?_
  · intro v h
    obtain rfl : null = v := by simpa [toAny] using h
    exact le_rfl
  · intro b v h
    obtain rfl : bool b = v := by simpa [toAny] using h
    exact le_rfl
  · intro lit v h
    obtain ⟨c, hc, rfl⟩ := map_eq_some_iff.1 h
    exact le_rfl
  · intro s v h
    obtain rfl : str s = v := by simpa [toAny] using h
    exact le_rfl
  · intro xs ih v h
    obtain ⟨vs, hvs, rfl⟩ := map_eq_some_iff.1 h
    have hx := depth_arr_le.1 (show (arr xs).depth ≤ depthElems xs + 1 from le_rfl)
    exact depth_arr_le.2 (toAnyElems_spec hvs fun x hx' v hv => (ih x hx' hv).trans (hx x hx'))
  · intro ms ih v h
    obtain ⟨vs, hvs, rfl⟩ := map_eq_some_iff.1 h
    have hm := depth_obj_le.1 (show (obj ms).depth ≤ depthMembers ms + 1 from le_rfl)
    exact depth_obj_le.2 (toAnyMembers_spec (P := fun v => v.depth ≤ depthMembers ms) hvs
      (fun m hm' v hv => (ih m hm' hv).trans (hm m hm')) (by simp))

/-! ## A decoded value is decoded again -/

lemma toAnyElems_isSome {xs : List Json} (h : ∀ x ∈ xs, (toAny conv x).isSome = true) :
    (toAnyElems conv xs).isSome = true := by
  induction xs with
  | nil => rfl
  | cons x xs ih =>
    obtain ⟨v, hv⟩ := isSome_iff_exists.1 (h x (.head _))
    obtain ⟨vs, hvs⟩ := isSome_iff_exists.1 (ih fun y hy => h y (.tail _ hy))
    simp [toAnyElems, hv, hvs]

lemma toAnyMembers_isSome {ms : List (Bytes × Json)}
    (h : ∀ m ∈ ms, (toAny conv m.2).isSome = true) (acc : List (Bytes × Json)) :
    (toAnyMembers conv ms acc).isSome = true := by
  induction ms generalizing acc with
  | nil => rfl
  | cons m ms ih =>
    obtain ⟨k, x⟩ := m
    obtain ⟨v, hv⟩ := isSome_iff_exists.1 (h (k, x) (.head _))
    simp only [toAnyMembers, hv]
    exact ih (fun y hy => h y (.tail _ hy)) _

lemma inRange_of_isAny {j : Json} (h : j.isAny conv = true) : j.inRange conv = true :=
  allNums_of_isAny (fun _ hfloat => by simp [hfloat]) h

/-- A value whose numbers are in range is decoded, also when its texts were cleaned before. -/
lemma toAny_clean_isSome : ∀ {j : Json}, j.inRange conv = true →
    (toAny conv j.clean).isSome = true := by
  refine @induct _ (fun _ => rfl) (fun _ _ => rfl) ?_ (fun _ _ => rfl) ?_ ?_
  · intro lit h
    have : (conv.float lit).isSome = true := by simpa [inRange, allNums] using h
    simp [clean, toAny, this]
  · intro xs ih h
    rw [clean, cleanElems_eq, toAny, isSome_map]
    refine toAnyElems_isSome fun x hx => ?_
    obtain ⟨y, hy, rfl⟩ := mem_map.1 hx
    exact ih y hy (allNums_arr.1 h y hy)
  · intro ms ih h
    rw [clean, cleanMembers_eq, toAny, isSome_map]
    refine toAnyMembers_isSome (fun m hm => ?_) []
    obtain ⟨y, hy, rfl⟩ := mem_map.1 hm
    exact ih y hy (allNums_obj.1 h y hy)

end Json

/-! ## Decoders with a target type -/

/-- A 64-bit signed integer in decimal. -/
def parseInt64 (lit : Bytes) : Option Int :=
  match lit with
  | [] => none
  | b :: ds =>
    if b = 0x2D then
      if ds ≠ [] ∧ ds.all isDigit = true ∧ natOfDigits ds ≤ 2 ^ 63 then some (-(natOfDigits ds))
      else none
    else if (b :: ds).all isDigit = true ∧ natOfDigits (b :: ds) < 2 ^ 63 then
      some (natOfDigits (b :: ds))
    else none

def formatInt (i : Int) : Bytes :=
  if i < 0 then 0x2D :: formatUint (-i).toNat else formatUint i.toNat

lemma parseInt64_formatInt {n : Nat} (h : n < 2 ^ 63) : parseInt64 (formatInt n) = some (n : Int) := by
  have hne := formatUint_ne_nil n
  have hall := all_isDigit_formatUint n
  have hval := natOfDigits_formatUint n
  rw [formatInt, if_neg (by omega), Int.toNat_natCast]
  cases hd : formatUint n with
  | nil => exact absurd hd hne
  | cons b ds =>
    rw [hd] at hall hval
    have hb : b ≠ 0x2D := by
      rintro rfl
      simp [isDigit] at hall
    simp only [parseInt64, if_neg hb, hall, hval, h, and_self, ↓reduceIte]

namespace Json

def decodeText (old : Bytes) : Json → Option Bytes
  | .null => some old
  | .str s => some s
  | _ => none

def decodeBool (old : Bool) : Json → Option Bool
  | .null => some old
  | .bool b => some b
  | _ => none

def decodeInt (old : Int) : Json → Option Int
  | .null => some old
  | .num lit => parseInt64 lit
  | _ => none

/-- A pointer to a text: `null` makes it nil. -/
def decodeTextPtr : Json → Option (Option Bytes)
  | .null => some none
  | .str s => some (some s)
  | _ => none

/-- The elements are decoded over those that were there before. -/
def decodeTextElems (old : List Bytes) : List Json → Option (List Bytes)
  | [] => some []
  | x :: xs =>
    match decodeText (old.headD []) x, decodeTextElems old.tail xs with
    | some s, some ss => some (s :: ss)
    | _, _ => none

def decodeTexts (old : List Bytes) : Json → Option (List Bytes)
  | .null => some []
  | .arr xs => decodeTextElems old xs
  | _ => none

/-- A map of untyped values: members are added to the map that was there before. -/
def decodeMap (conv : FloatText) (old : Option (List (Bytes × Json))) :
    Json → Option (Option (List (Bytes × Json)))
  | .null => some none
  | .obj ms => (toAnyMembers conv ms (old.getD [])).map some
  | _ => none

/-- A time is never `null`. -/
def decodeInstant : Json → Option Instant
  | .str s => Instant.parse s
  | _ => none

def decodeInstantPtr : Json → Option (Option Instant)
  | .null => some none
  | j => (decodeInstant j).map some

end Json

/-! ## Structures -/

/-- One rune of a name without its case. Two runes outside ASCII fold to a letter; the others
never equal a letter. -/
def foldRune : Rune → Bytes
  | .ascii b => if 0x61 ≤ b && b ≤ 0x7A then [b - 0x20] else [b]
  | .multi bs =>
    if bs = [0xC5, 0xBF] then [0x53]
    else if bs = [0xE2, 0x84, 0xAA] then [0x4B]
    else bs
  | .bad => Rune.bad.bytes

def foldName (s : Bytes) : Bytes := (runes s).flatMap foldRune

/-- The field a member belongs to: the one of that name, or the first of that name up to
case. -/
def lookupField {φ : Type} (fields : List (Bytes × φ)) (key : Bytes) : Option φ :=
  match fields.find? (fun f => f.1 = key) with
  | some f => some f.2
  | none => (fields.find? fun f => foldName f.1 = foldName key).map (·.2)

/-- Decode members into a structure, one after the other; unknown members are skipped. -/
def decodeStruct {φ σ : Type} (fields : List (Bytes × φ)) (set : σ → φ → Json → Option σ) :
    σ → List (Bytes × Json) → Option σ
  | s, [] => some s
  | s, (k, j) :: ms =>
    match lookupField fields k with
    | none => decodeStruct fields set s ms
    | some f =>
      match set s f j with
      | none => none
      | some s' => decodeStruct fields set s' ms

lemma decodeStruct_append {φ σ : Type} (fields : List (Bytes × φ)) (set : σ → φ → Json → Option σ)
    (s : σ) (as bs : List (Bytes × Json)) :
    decodeStruct fields set s (as ++ bs) =
      (decodeStruct fields set s as).bind fun s' => decodeStruct fields set s' bs := by
  induction as generalizing s with
  | nil => rfl
  | cons p as ih =>
    obtain ⟨k, j⟩ := p
    simp only [cons_append, decodeStruct]
    split
    · exact ih s
    · split
      · rfl
      · exact ih _

lemma decodeStruct_singleton {φ σ : Type} {fields : List (Bytes × φ)}
    (set : σ → φ → Json → Option σ) {k : Bytes} {f : φ} (hf : lookupField fields k = some f)
    (s : σ) (j : Json) : decodeStruct fields set s [(k, j)] = set s f j := by
  simp only [decodeStruct, hf]
  cases set s f j <;> rfl

end Observatory.Lib
