/-
# JSON texts

`Json` is the tree a JSON text stands for, with numbers kept as literals and the members of an
object in the order of the text, repeated keys included. `Json.encode` writes a tree without
white space; `parse` reads a text with a bound on the nesting of arrays and objects. The main
result is that a written tree is read back, with the texts in it made well formed.
-/
import Observatory.Lib.JsonText

namespace Observatory.Lib

open List Option

inductive Json where
  | null
  | bool (b : Bool)
  | num (lit : Bytes)
  | str (s : Bytes)
  | arr (xs : List Json)
  | obj (ms : List (Bytes × Json))

namespace Json

/-! ## Writing -/

mutual

/-- The text of a tree. -/
def encode : Json → Bytes
  | .null => ascii "null"
  | .bool b => if b then ascii "true" else ascii "false"
  | .num lit => lit
  | .str s => quote s
  | .arr xs => 0x5B :: encodeElems xs
  | .obj ms => 0x7B :: encodeMembers ms

/-- The elements of an array, with the closing bracket. -/
def encodeElems : List Json → Bytes
  | [] => [0x5D]
  | x :: xs => x.encode ++ encodeMoreElems xs

/-- Further elements of an array. -/
def encodeMoreElems : List Json → Bytes
  | [] => [0x5D]
  | x :: xs => 0x2C :: (x.encode ++ encodeMoreElems xs)

/-- The members of an object, with the closing brace. -/
def encodeMembers : List (Bytes × Json) → Bytes
  | [] => [0x7D]
  | (k, x) :: ms => quote k ++ 0x3A :: (x.encode ++ encodeMoreMembers ms)

/-- Further members of an object. -/
def encodeMoreMembers : List (Bytes × Json) → Bytes
  | [] => [0x7D]
  | (k, x) :: ms => 0x2C :: (quote k ++ 0x3A :: (x.encode ++ encodeMoreMembers ms))

end

/-! ## Reading -/

def isSpace (b : UInt8) : Bool := b = 0x20 || b = 0x09 || b = 0x0A || b = 0x0D

def skipSpace (bs : Bytes) : Bytes := bs.dropWhile isSpace

def word (w : Bytes) (j : Json) (bs : Bytes) : Option (Json × Bytes) :=
  if bs.take w.length = w then some (j, bs.drop w.length) else none

mutual

/-- Read one value; `d` more arrays and objects may be opened. -/
def parseValue : Nat → Nat → Bytes → Option (Json × Bytes)
  | 0, _, _ => none
  | fuel + 1, d, bs =>
    match skipSpace bs with
    | [] => none
    | b :: rest =>
      if b = 0x22 then (unquote rest).map fun p => (.str p.1, p.2)
      else if b = 0x5B then
        match d with
        | 0 => none
        | d + 1 =>
          if (skipSpace rest).head? = some 0x5D then some (.arr [], (skipSpace rest).tail)
          else (parseElems fuel d rest).map fun p => (.arr p.1, p.2)
      else if b = 0x7B then
        match d with
        | 0 => none
        | d + 1 =>
          if (skipSpace rest).head? = some 0x7D then some (.obj [], (skipSpace rest).tail)
          else (parseMembers fuel d rest).map fun p => (.obj p.1, p.2)
      else if b = 0x6E then word (ascii "null") .null (b :: rest)
      else if b = 0x74 then word (ascii "true") (.bool true) (b :: rest)
      else if b = 0x66 then word (ascii "false") (.bool false) (b :: rest)
      else (scanNumber (b :: rest)).map fun p => (.num p.1, p.2)

/-- Read the elements of an array that is not empty, and the closing bracket. -/
def parseElems : Nat → Nat → Bytes → Option (List Json × Bytes)
  | 0, _, _ => none
  | fuel + 1, d, bs =>
    match parseValue fuel d bs with
    | none => none
    | some (x, rest) =>
      match skipSpace rest with
      | [] => none
      | c :: rest =>
        if c = 0x2C then (parseElems fuel d rest).map fun p => (x :: p.1, p.2)
        else if c = 0x5D then some ([x], rest)
        else none

/-- Read the members of an object that is not empty, and the closing brace. -/
def parseMembers : Nat → Nat → Bytes → Option (List (Bytes × Json) × Bytes)
  | 0, _, _ => none
  | fuel + 1, d, bs =>
    match skipSpace bs with
    | [] => none
    | b :: rest =>
      if b ≠ 0x22 then none
      else
        match unquote rest with
        | none => none
        | some (k, rest) =>
          match skipSpace rest with
          | [] => none
          | c :: rest =>
            if c ≠ 0x3A then none
            else
              match parseValue fuel d rest with
              | none => none
              | some (x, rest) =>
                match skipSpace rest with
                | [] => none
                | c :: rest =>
                  if c = 0x2C then (parseMembers fuel d rest).map fun p => ((k, x) :: p.1, p.2)
                  else if c = 0x7D then some ([(k, x)], rest)
                  else none

end

/-- Read a whole text as one value. -/
def parse (maxDepth : Nat) (bs : Bytes) : Option Json :=
  match parseValue (bs.length + 1) maxDepth bs with
  | none => none
  | some (j, rest) => if skipSpace rest = [] then some j else none

/-! ## Trees -/

mutual

/-- How deep arrays and objects are nested. -/
def depth : Json → Nat
  | .arr xs => depthElems xs + 1
  | .obj ms => depthMembers ms + 1
  | _ => 0

def depthElems : List Json → Nat
  | [] => 0
  | x :: xs => max x.depth (depthElems xs)

def depthMembers : List (Bytes × Json) → Nat
  | [] => 0
  | (_, x) :: ms => max x.depth (depthMembers ms)

end

mutual

/-- Every number of the tree has the property `p`. -/
def allNums (p : Bytes → Bool) : Json → Bool
  | .num lit => p lit
  | .arr xs => allNumsElems p xs
  | .obj ms => allNumsMembers p ms
  | _ => true

def allNumsElems (p : Bytes → Bool) : List Json → Bool
  | [] => true
  | x :: xs => x.allNums p && allNumsElems p xs

def allNumsMembers (p : Bytes → Bool) : List (Bytes × Json) → Bool
  | [] => true
  | (_, x) :: ms => x.allNums p && allNumsMembers p ms

end

def numsOk (j : Json) : Bool := j.allNums isNumber

mutual

/-- The tree with all its texts made well formed. -/
def clean : Json → Json
  | .str s => .str (sanitize s)
  | .arr xs => .arr (cleanElems xs)
  | .obj ms => .obj (cleanMembers ms)
  | .null => .null
  | .bool b => .bool b
  | .num lit => .num lit

def cleanElems : List Json → List Json
  | [] => []
  | x :: xs => x.clean :: cleanElems xs

def cleanMembers : List (Bytes × Json) → List (Bytes × Json)
  | [] => []
  | (k, x) :: ms => (sanitize k, x.clean) :: cleanMembers ms

end

/-- Induction on trees: an array or object has the property when all its parts have it. -/
theorem induct {P : Json → Prop} (null : P .null) (bool : ∀ b, P (.bool b))
    (num : ∀ lit, P (.num lit)) (str : ∀ s, P (.str s)) (arr : ∀ xs, (∀ x ∈ xs, P x) → P (.arr xs))
    (obj : ∀ ms : List (Bytes × Json), (∀ m ∈ ms, P m.2) → P (.obj ms)) : ∀ j, P j :=
  @Json.rec P (fun xs => ∀ x ∈ xs, P x) (fun ms => ∀ m ∈ ms, P m.2) (fun m => P m.2)
    null bool num str arr obj
    (by simp) (fun _ _ hx hxs => forall_mem_cons.2 ⟨hx, hxs⟩)
    (by simp) (fun _ _ hm hms => forall_mem_cons.2 ⟨hm, hms⟩)
    (fun _ _ h => h)

variable {bs rest : Bytes} {j x : Json} {ms : List (Bytes × Json)} {xs : List Json} {d fuel : Nat}
  {b c : UInt8}

lemma allNums_arr {p : Bytes → Bool} :
    (arr xs).allNums p = true ↔ ∀ x ∈ xs, x.allNums p = true := by
  rw [allNums]
  induction xs with
  | nil => simp [allNumsElems]
  | cons x xs ih => simp [allNumsElems, ih]

lemma allNums_obj {p : Bytes → Bool} :
    (obj ms).allNums p = true ↔ ∀ m ∈ ms, m.2.allNums p = true := by
  rw [allNums]
  induction ms with
  | nil => simp [allNumsMembers]
  | cons m ms ih => simp [allNumsMembers, ih]

lemma depth_arr_le {n : Nat} : (arr xs).depth ≤ n + 1 ↔ ∀ x ∈ xs, x.depth ≤ n := by
  rw [depth, Nat.add_le_add_iff_right]
  induction xs with
  | nil => simp [depthElems]
  | cons x xs ih => simp [depthElems, ih]

lemma depth_obj_le {n : Nat} : (obj ms).depth ≤ n + 1 ↔ ∀ m ∈ ms, m.2.depth ≤ n := by
  rw [depth, Nat.add_le_add_iff_right]
  induction ms with
  | nil => simp [depthMembers]
  | cons m ms ih => simp [depthMembers, ih]

lemma cleanElems_eq (xs : List Json) : cleanElems xs = xs.map clean := by
  induction xs with
  | nil => rfl
  | cons x xs ih => simp [cleanElems, ih]

lemma cleanMembers_eq (ms : List (Bytes × Json)) :
    cleanMembers ms = ms.map fun m => (sanitize m.1, m.2.clean) := by
  induction ms with
  | nil => rfl
  | cons m ms ih => simp [cleanMembers, ih]

/-! ## A written tree is read back -/

/-- What the reader does with a written tree, whatever follows it. -/
def ReadsBack (j : Json) : Prop :=
  ∀ (fuel d : Nat) (rest : Bytes), j.encode.length < fuel → j.depth ≤ d → NumEnd rest →
    parseValue fuel d (j.encode ++ rest) = some (j.clean, rest)

lemma skipSpace_cons (h : isSpace b = false) (bs : Bytes) :
    skipSpace (b :: bs) = b :: bs := by
  simp [skipSpace, h]

lemma numEnd_nil : NumEnd [] := by simp [NumEnd]

lemma numEnd_cons (h : isDigit b = false ∧ b ≠ 0x2E ∧ b ≠ 0x65 ∧ b ≠ 0x45) : NumEnd (b :: bs) := by
  simpa [NumEnd] using h

lemma numEnd_encodeMoreElems (xs : List Json) (rest : Bytes) :
    NumEnd (encodeMoreElems xs ++ rest) := by
  cases xs <;> exact numEnd_cons (by decide)

lemma numEnd_encodeMoreMembers (ms : List (Bytes × Json)) (rest : Bytes) :
    NumEnd (encodeMoreMembers ms ++ rest) := by
  rcases ms with _ | ⟨⟨k, x⟩, ms⟩ <;> exact numEnd_cons (by decide)

/-- The first byte of a number is none of the bytes other values or spaces start with. -/
lemma ne_of_numStart (hb : b = 0x2D ∨ isDigit b = true) (hc : c ≠ 0x2D ∧ isDigit c = false) :
    b ≠ c := by
  rintro rfl
  rcases hb with rfl | hb
  · exact hc.1 rfl
  · rw [hb] at hc
    exact absurd hc.2 (by decide)

lemma isSpace_numStart (hb : b = 0x2D ∨ isDigit b = true) : isSpace b = false := by
  have h1 := ne_of_numStart hb (c := 0x20) (by decide)
  have h2 := ne_of_numStart hb (c := 0x09) (by decide)
  have h3 := ne_of_numStart hb (c := 0x0A) (by decide)
  have h4 := ne_of_numStart hb (c := 0x0D) (by decide)
  simp [isSpace, h1, h2, h3, h4]

/-- A byte that a written value can start with. -/
def isStart (b : UInt8) : Bool := !isSpace b && b != 0x5D && b != 0x7D

lemma encode_head (h : j.numsOk = true) :
    ∃ b bs, j.encode = b :: bs ∧ isStart b = true := by
  cases j with
  | null | str s | arr xs | obj ms => exact ⟨_, _, rfl, by decide⟩
  | bool b => cases b <;> exact ⟨_, _, rfl, by decide⟩
  | num lit =>
    obtain ⟨b, bs, rfl, hb⟩ := head_of_isNumber h
    refine ⟨b, bs, rfl, ?_⟩
    have h1 := ne_of_numStart hb (c := 0x5D) (by decide)
    have h2 := ne_of_numStart hb (c := 0x7D) (by decide)
    simp [isStart, isSpace_numStart hb, h1, h2]

lemma readsBack_word {w : Bytes} {w' : Bytes} (hw : w = b :: w') (hj : j.encode = w)
    (hc : j.clean = j)
    (hp : ∀ fuel d rest, parseValue (fuel + 1) d (b :: rest) = word w j (b :: rest)) :
    ReadsBack j := by
  intro fuel d rest hf _ _
  obtain ⟨fuel, rfl⟩ : ∃ f, fuel = f + 1 := ⟨fuel - 1, by omega⟩
  rw [hj, hw, cons_append, hp, ← cons_append, ← hw, word]
  simp [hc]

lemma readsBack_num {lit : Bytes} (h : isNumber lit = true) : ReadsBack (.num lit) := by
  intro fuel d rest hf _ hend
  obtain ⟨fuel, rfl⟩ : ∃ f, fuel = f + 1 := ⟨fuel - 1, by omega⟩
  have hs := scanNumber_append h hend
  obtain ⟨b, bs, rfl, hb⟩ := head_of_isNumber h
  have h1 := ne_of_numStart hb (c := 0x22) (by decide)
  have h2 := ne_of_numStart hb (c := 0x5B) (by decide)
  have h3 := ne_of_numStart hb (c := 0x7B) (by decide)
  have h4 := ne_of_numStart hb (c := 0x6E) (by decide)
  have h5 := ne_of_numStart hb (c := 0x74) (by decide)
  have h6 := ne_of_numStart hb (c := 0x66) (by decide)
  rw [encode, parseValue, cons_append, skipSpace_cons (isSpace_numStart hb)]
  simp only [h1, h2, h3, h4, h5, h6, if_false]
  rw [← cons_append, hs]
  rfl

lemma readsBack_str (s : Bytes) : ReadsBack (.str s) := by
  intro fuel d rest hf _ _
  obtain ⟨fuel, rfl⟩ : ∃ f, fuel = f + 1 := ⟨fuel - 1, by omega⟩
  have hq : quote s ++ rest = 0x22 :: ((quote s).tail ++ rest) := rfl
  rw [encode, hq, parseValue, skipSpace_cons (by decide)]
  simp only [if_true, unquote_quote]
  rfl

/-- Skipping space before a written value changes nothing. -/
lemma skipSpace_encode (h : j.numsOk = true) (rest : Bytes) :
    skipSpace (j.encode ++ rest) = j.encode ++ rest := by
  obtain ⟨b, bs, he, hb⟩ := encode_head h
  rw [he, cons_append]
  exact skipSpace_cons (by simp only [isStart, Bool.and_eq_true] at hb; simpa using hb.1.1) _

/-- The step over one element: what remains is decided by the byte that follows it. -/
lemma parseElems_of_value (h : parseValue fuel d bs = some (x, c :: rest)) (hc : isSpace c = false) :
    parseElems (fuel + 1) d bs =
      if c = 0x2C then (parseElems fuel d rest).map fun p => (x :: p.1, p.2)
      else if c = 0x5D then some ([x], rest)
      else none := by
  rw [parseElems, h]
  simp only [skipSpace_cons hc]

lemma parseElems_encode (hx : ∀ y ∈ x :: xs, ReadsBack y) (rest : Bytes)
    (hf : (encodeElems (x :: xs)).length < fuel) (hd : depthElems (x :: xs) ≤ d) :
    parseElems fuel d (encodeElems (x :: xs) ++ rest) = some (cleanElems (x :: xs), rest) := by
  induction xs generalizing x fuel with
  | nil =>
    obtain ⟨fuel, rfl⟩ : ∃ f, fuel = f + 1 := ⟨fuel - 1, by omega⟩
    simp only [encodeElems, encodeMoreElems, depthElems, length_append, length_cons,
      length_nil, append_assoc] at hf hd ⊢
    have h1 := hx x mem_cons_self fuel d ([0x5D] ++ rest) (by omega) (by omega)
      (numEnd_cons (by decide))
    rw [parseElems_of_value h1 (by decide)]
    simp [cleanElems]
  | cons y ys ih =>
    obtain ⟨fuel, rfl⟩ : ∃ f, fuel = f + 1 := ⟨fuel - 1, by omega⟩
    simp only [encodeElems, encodeMoreElems, depthElems, length_append, length_cons,
      append_assoc, cons_append] at hf hd ⊢
    have h1 := hx x mem_cons_self fuel d
      (0x2C :: (y.encode ++ (encodeMoreElems ys ++ rest))) (by omega) (by omega)
      (numEnd_cons (by decide))
    have hlen : (encodeElems (y :: ys)).length < fuel := by
      simp only [encodeElems, length_append]
      omega
    have h2 := ih (fun z hz => hx z (.tail _ hz)) hlen
      (by simp only [depthElems]; omega)
    simp only [encodeElems, append_assoc] at h2
    rw [parseElems_of_value h1 (by decide), if_pos rfl, h2]
    simp [cleanElems]

lemma parseMembers_of_value {k : Bytes} (h : parseValue fuel d bs = some (x, c :: rest))
    (hc : isSpace c = false) :
    parseMembers (fuel + 1) d (quote k ++ 0x3A :: bs) =
      if c = 0x2C then (parseMembers fuel d rest).map fun p => ((sanitize k, x) :: p.1, p.2)
      else if c = 0x7D then some ([(sanitize k, x)], rest)
      else none := by
  have hq : quote k ++ 0x3A :: bs = 0x22 :: ((quote k).tail ++ 0x3A :: bs) := rfl
  rw [hq, parseMembers, skipSpace_cons (by decide)]
  simp only [ne_eq, not_true_eq_false, if_false, unquote_quote, skipSpace_cons (b := 0x3A) (by decide),
    h, skipSpace_cons hc]

lemma parseMembers_encode {m : Bytes × Json} (hm : ∀ m' ∈ m :: ms, ReadsBack m'.2) (rest : Bytes)
    (hf : (encodeMembers (m :: ms)).length < fuel) (hd : depthMembers (m :: ms) ≤ d) :
    parseMembers fuel d (encodeMembers (m :: ms) ++ rest) = some (cleanMembers (m :: ms), rest) := by
  induction ms generalizing m fuel with
  | nil =>
    obtain ⟨k, x⟩ := m
    obtain ⟨fuel, rfl⟩ : ∃ f, fuel = f + 1 := ⟨fuel - 1, by omega⟩
    simp only [encodeMembers, encodeMoreMembers, depthMembers, length_append, length_cons,
      length_nil, append_assoc, cons_append, nil_append] at hf hd ⊢
    have h1 : parseValue fuel d (x.encode ++ 0x7D :: rest) = some (x.clean, 0x7D :: rest) :=
      hm (k, x) mem_cons_self fuel d _ (by dsimp only; omega) (by dsimp only; omega)
        (numEnd_cons (by decide))
    rw [parseMembers_of_value h1 (by decide)]
    simp [cleanMembers]
  | cons m' ms ih =>
    obtain ⟨k, x⟩ := m
    obtain ⟨k', x'⟩ := m'
    obtain ⟨fuel, rfl⟩ : ∃ f, fuel = f + 1 := ⟨fuel - 1, by omega⟩
    simp only [encodeMembers, encodeMoreMembers, depthMembers, length_append, length_cons,
      append_assoc, cons_append] at hf hd ⊢
    have h1 := hm (k, x) mem_cons_self fuel d
      (0x2C :: (quote k' ++ 0x3A :: (x'.encode ++ (encodeMoreMembers ms ++ rest))))
      (by dsimp only; omega) (by dsimp only; omega) (numEnd_cons (by decide))
    have hlen : (encodeMembers ((k', x') :: ms)).length < fuel := by
      simp only [encodeMembers, length_append, length_cons]
      omega
    have h2 := ih (fun z hz => hm z (.tail _ hz)) hlen
      (by simp only [depthMembers]; omega)
    simp only [encodeMembers, append_assoc, cons_append] at h2
    rw [parseMembers_of_value h1 (by decide), if_pos rfl, h2]
    simp [cleanMembers]

lemma readsBack_arr (hn : ∀ x ∈ xs, x.numsOk = true) (hx : ∀ x ∈ xs, ReadsBack x) :
    ReadsBack (.arr xs) := by
  intro fuel d rest hf hd _
  obtain ⟨fuel, rfl⟩ : ∃ f, fuel = f + 1 := ⟨fuel - 1, by omega⟩
  simp only [encode, length_cons] at hf
  obtain ⟨d, rfl⟩ : ∃ e, d = e + 1 := ⟨d - 1, by simp only [depth] at hd; omega⟩
  rw [encode, cons_append, parseValue, skipSpace_cons (by decide)]
  cases xs with
  | nil => simp [encodeElems, skipSpace, isSpace, clean, cleanElems]
  | cons x xs =>
    have hx0 := hn x mem_cons_self
    obtain ⟨b, bs, he, hb⟩ := encode_head hx0
    have hhead : (skipSpace (encodeElems (x :: xs) ++ rest)).head? ≠ some 0x5D := by
      rw [encodeElems, append_assoc, skipSpace_encode hx0, he]
      simp only [isStart, Bool.and_eq_true, bne_iff_ne] at hb
      simpa using hb.1.2
    have hlen : (encodeElems (x :: xs)).length < fuel := by omega
    have hp := parseElems_encode hx rest hlen
      (by simpa only [depth, Nat.add_le_add_iff_right] using hd)
    simp only [if_neg hhead, hp]
    simp [clean]

lemma readsBack_obj (hm : ∀ m ∈ ms, ReadsBack m.2) :
    ReadsBack (.obj ms) := by
  intro fuel d rest hf hd _
  obtain ⟨fuel, rfl⟩ : ∃ f, fuel = f + 1 := ⟨fuel - 1, by omega⟩
  simp only [encode, length_cons] at hf
  obtain ⟨d, rfl⟩ : ∃ e, d = e + 1 := ⟨d - 1, by simp only [depth] at hd; omega⟩
  rw [encode, cons_append, parseValue, skipSpace_cons (by decide)]
  rcases ms with _ | ⟨m, ms⟩
  · simp [encodeMembers, skipSpace, isSpace, clean, cleanMembers]
  · have hhead : (skipSpace (encodeMembers (m :: ms) ++ rest)).head? ≠ some 0x7D := by
      simp [encodeMembers, quote, skipSpace, isSpace]
    have hlen : (encodeMembers (m :: ms)).length < fuel := by omega
    have hp := parseMembers_encode hm rest hlen
      (by simpa only [depth, Nat.add_le_add_iff_right] using hd)
    simp only [if_neg hhead, hp]
    simp [clean]

lemma readsBack : ∀ j : Json, j.numsOk = true → ReadsBack j :=
  induct
    (fun _ => readsBack_word (w := ascii "null") rfl rfl rfl fun _ _ _ => rfl)
    (fun b _ => by
      cases b with
      | true => exact readsBack_word (w := ascii "true") rfl rfl rfl fun _ _ _ => rfl
      | false => exact readsBack_word (w := ascii "false") rfl rfl rfl fun _ _ _ => rfl)
    (fun _ h => readsBack_num h)
    (fun s _ => readsBack_str s)
    (fun _ ih h => readsBack_arr (allNums_arr.1 h) fun x hx => ih x hx (allNums_arr.1 h x hx))
    (fun _ ih h => readsBack_obj fun m hm => ih m hm (allNums_obj.1 h m hm))

/-- **Reading inverts writing**: a tree whose numbers are literals and whose nesting is within
the bound is read back from its text, with its texts made well formed. -/
theorem parse_encode {maxDepth : Nat} (hn : j.numsOk = true) (hd : j.depth ≤ maxDepth) :
    parse maxDepth j.encode = some j.clean := by
  have h := readsBack j hn (j.encode.length + 1) maxDepth [] (by omega) hd numEnd_nil
  rw [append_nil] at h
  rw [parse, h]
  simp [skipSpace]

/-! ## Nesting of what was read -/

lemma depth_word {w : Bytes} {j' : Json} (hj : j.depth = 0) (h : word w j bs = some (j', rest)) :
    j'.depth = 0 := by
  unfold word at h
  split at h
  · obtain ⟨rfl, -⟩ : j = j' ∧ _ := by simpa using h
    exact hj
  · cases h

/-- Nothing that is read is nested deeper than the bound. -/
lemma depth_le_of_parse (fuel : Nat) :
    (∀ d bs j rest, parseValue fuel d bs = some (j, rest) → j.depth ≤ d) ∧
    (∀ d bs xs rest, parseElems fuel d bs = some (xs, rest) → ∀ x ∈ xs, x.depth ≤ d) ∧
    (∀ d bs ms rest, parseMembers fuel d bs = some (ms, rest) → ∀ m ∈ ms, m.2.depth ≤ d) := by
  induction fuel with
  | zero => simp [parseValue, parseElems, parseMembers]
  | succ fuel ih =>
    obtain ⟨ihv, ihe, ihm⟩ := ih
    refine ⟨fun d bs j rest h => ?_, fun d bs xs rest h => ?_, fun d bs ms rest h => ?_⟩
    · simp only [parseValue] at h
      split at h
      · cases h
      split at h
      · -- a string
        obtain ⟨p, -, hp⟩ := map_eq_some_iff.1 h
        obtain ⟨rfl, -⟩ := Prod.mk.inj hp
        exact Nat.zero_le d
      split at h
      · -- an array
        cases d with
        | zero => cases h
        | succ d =>
          dsimp only at h
          split at h
          · obtain ⟨rfl, -⟩ : arr [] = j ∧ _ := by simpa using h
            exact depth_arr_le.2 (by simp)
          · obtain ⟨p, hp, he⟩ := map_eq_some_iff.1 h
            obtain ⟨rfl, -⟩ := Prod.mk.inj he
            exact depth_arr_le.2 (ihe d _ p.1 p.2 hp)
      split at h
      · -- an object
        cases d with
        | zero => cases h
        | succ d =>
          dsimp only at h
          split at h
          · obtain ⟨rfl, -⟩ : obj [] = j ∧ _ := by simpa using h
            exact depth_obj_le.2 (by simp)
          · obtain ⟨p, hp, he⟩ := map_eq_some_iff.1 h
            obtain ⟨rfl, -⟩ := Prod.mk.inj he
            exact depth_obj_le.2 (ihm d _ p.1 p.2 hp)
      split at h
      · exact (depth_word rfl h).trans_le (Nat.zero_le d)
      split at h
      · exact (depth_word rfl h).trans_le (Nat.zero_le d)
      split at h
      · exact (depth_word rfl h).trans_le (Nat.zero_le d)
      · obtain ⟨p, -, hp⟩ := map_eq_some_iff.1 h
        obtain ⟨rfl, -⟩ := Prod.mk.inj hp
        exact Nat.zero_le d
    · simp only [parseElems] at h
      split at h
      · cases h
      next x rest' hx =>
        have hd := ihv d bs x rest' hx
        split at h
        · cases h
        split at h
        · obtain ⟨p, hp, he⟩ := map_eq_some_iff.1 h
          obtain ⟨rfl, -⟩ := Prod.mk.inj he
          exact forall_mem_cons.2 ⟨hd, ihe d _ p.1 p.2 hp⟩
        split at h
        · obtain ⟨rfl, -⟩ : [x] = xs ∧ _ := by simpa using h
          simpa using hd
        · cases h
    · simp only [parseMembers] at h
      split at h
      · cases h
      split at h
      · cases h
      split at h
      · cases h
      split at h
      · cases h
      split at h
      · cases h
      split at h
      · cases h
      next k _ _ _ _ _ _ _ _ x rest' hx =>
        have hd := ihv d _ x rest' hx
        split at h
        · cases h
        split at h
        · obtain ⟨p, hp, he⟩ := map_eq_some_iff.1 h
          obtain ⟨rfl, -⟩ := Prod.mk.inj he
          exact forall_mem_cons.2 ⟨hd, ihm d _ p.1 p.2 hp⟩
        split at h
        · obtain ⟨rfl, -⟩ : [(k, x)] = ms ∧ _ := by simpa using h
          simpa using hd
        · cases h

end Json

end Observatory.Lib
