/-
# JSON objects with the texts of their members

A reader that leaves the values of an object unread keeps the bytes each one stands in. The
members are read as `Json.parse` reads them; only the bytes are kept beside the values.
-/
import Observatory.Lib.Json

namespace Observatory.Lib

open Option

structure RawJson where
  text : Bytes
  value : Json

namespace Json

def parseRawValue (fuel d : Nat) (bs : Bytes) : Option (RawJson × Bytes) :=
  (parseValue fuel d bs).map fun p =>
    (⟨(skipSpace bs).take ((skipSpace bs).length - p.2.length), p.1⟩, p.2)

/-- Read the members of an object that is not empty, and the closing brace. -/
def parseRawMembers : Nat → Nat → Bytes → Option (List (Bytes × RawJson) × Bytes)
  | 0, _, _ => none
  | fuel + 1, d, bs =>
    match skipSpace bs with
    | [] => none
    | b :: rest =>
      if b ≠ 0x22 then none
      else
        match unquote rest with
        | none => none
        | some (k, rest) =>
          match skipSpace rest with
          | [] => none
          | c :: rest =>
            if c ≠ 0x3A then none
            else
              match parseRawValue fuel d rest with
              | none => none
              | some (x, rest) =>
                match skipSpace rest with
                | [] => none
                | c :: rest =>
                  if c = 0x2C then (parseRawMembers fuel d rest).map fun p => ((k, x) :: p.1, p.2)
                  else if c = 0x7D then some ([(k, x)], rest)
                  else none

/-- The members of the object a text holds, each with its bytes. -/
def rawMembers (maxDepth : Nat) (bs : Bytes) : List (Bytes × RawJson) :=
  match skipSpace bs with
  | [] => []
  | _ :: rest => ((parseRawMembers bs.length (maxDepth - 1) rest).map Prod.fst).getD []

/-- Read a text as an object whose values are left unread; `null` has no members. -/
def parseRawMap (maxDepth : Nat) (bs : Bytes) : Option (List (Bytes × RawJson)) :=
  match parse maxDepth bs with
  | some .null => some []
  | some (.obj _) => some (rawMembers maxDepth bs)
  | _ => none

def values (ms : List (Bytes × RawJson)) : List (Bytes × Json) := ms.map fun m => (m.1, m.2.value)

lemma parseRawMembers_values (fuel d : Nat) (bs : Bytes) :
    (parseRawMembers fuel d bs).map (fun p => (values p.1, p.2)) = parseMembers fuel d bs := by
  induction fuel generalizing bs with
  | zero => simp [parseRawMembers, parseMembers]
  | succ fuel ih =>
    rw [parseRawMembers, parseMembers]
    cases skipSpace bs with
    | nil => rfl
    | cons b rest =>
      by_cases hquote : b ≠ 0x22
      · simp [hquote]
      simp only [hquote, if_false]
      cases unquote rest with
      | none => rfl
      | some kr =>
        obtain ⟨k, rest⟩ := kr
        dsimp only
        cases skipSpace rest with
        | nil => rfl
        | cons c rest =>
          by_cases hcolon : c ≠ 0x3A
          · simp [hcolon]
          simp only [hcolon, if_false, parseRawValue]
          cases parseValue fuel d rest with
          | none => rfl
          | some xr =>
            obtain ⟨x, rest⟩ := xr
            dsimp only [map_some]
            cases skipSpace rest with
            | nil => rfl
            | cons c rest =>
              dsimp only
              split_ifs
              · rw [← ih rest, map_map, map_map]
                rfl
              · rfl
              · rfl

/-- A text read as an object begins with a brace and goes on with its members. -/
lemma parseValue_obj {fuel d : Nat} {bs rest : Bytes} {ms : List (Bytes × Json)}
    (h : parseValue (fuel + 1) d bs = some (.obj ms, rest)) :
    ∃ b tail d', skipSpace bs = b :: tail ∧ d = d' + 1 ∧
      ((skipSpace tail).head? = some 0x7D ∧ ms = [] ∨ parseMembers fuel d' tail = some (ms, rest)) := by
  have hword {w : Bytes} {j : Json} {cs : Bytes} (hj : ∀ ms, j ≠ .obj ms) :
      word w j cs ≠ some (.obj ms, rest) := by
    unfold word
    split
    · intro h
      exact hj ms (Prod.mk.inj (Option.some.inj h)).1
    · simp
  rw [parseValue] at h
  cases hbs : skipSpace bs with
  | nil => simp [hbs] at h
  | cons b tail =>
    cases d with
    | zero =>
      simp only [hbs] at h
      split_ifs at h
      · simp at h
      · exact absurd h (hword (by simp))
      · exact absurd h (hword (by simp))
      · exact absurd h (hword (by simp))
      · simp at h
    | succ d =>
      simp only [hbs] at h
      split_ifs at h with _ _ _ _ hempty
      · simp at h
      · simp at h
      · simp at h
      · exact ⟨b, tail, d, rfl, rfl, .inl ⟨hempty, by simp_all⟩⟩
      · obtain ⟨p, hp, he⟩ := map_eq_some_iff.1 h
        obtain ⟨hms, rfl⟩ := Prod.mk.inj he
        obtain rfl := Json.obj.inj hms
        exact ⟨b, tail, d, rfl, rfl, .inr hp⟩
      · exact absurd h (hword (by simp))
      · exact absurd h (hword (by simp))
      · exact absurd h (hword (by simp))
      · simp at h

lemma values_rawMembers {maxDepth : Nat} {bs : Bytes} {ms : List (Bytes × Json)}
    (h : parse maxDepth bs = some (.obj ms)) : values (rawMembers maxDepth bs) = ms := by
  rw [parse] at h
  split at h
  · cases h
  next j rest hvalue =>
  split at h
  · cases h
    obtain ⟨b, tail, d, hbs, rfl, hcase⟩ := parseValue_obj hvalue
    have hraw := parseRawMembers_values bs.length d tail
    rw [rawMembers, hbs]
    dsimp only
    rw [Nat.add_sub_cancel]
    rcases hcase with ⟨hclose, rfl⟩ | hmembers
    · -- a closing brace begins no member
      have hnone : parseMembers bs.length d tail = none := by
        cases hlen : bs.length with
        | zero => rfl
        | succ n =>
          rw [parseMembers]
          cases htail : skipSpace tail with
          | nil => rfl
          | cons c cs =>
            rw [htail] at hclose
            obtain rfl : c = 0x7D := by simpa using hclose
            simp
      rw [hnone, map_eq_none_iff] at hraw
      rw [hraw]
      rfl
    · rw [hmembers] at hraw
      obtain ⟨p, hp, he⟩ := map_eq_some_iff.1 hraw
      rw [hp]
      exact (Prod.mk.inj he).1
  · cases h

/-- Values left unread are nested less deep than the text may be. -/
lemma depth_rawMembers {maxDepth : Nat} {bs : Bytes} {ms : List (Bytes × RawJson)}
    (h : parseRawMap maxDepth bs = some ms) {m : Bytes × RawJson} (hm : m ∈ ms) :
    m.2.value.depth < maxDepth := by
  unfold parseRawMap at h
  split at h
  · cases h
    cases hm
  · next vs hparse =>
    cases h
    have hmem : (m.1, m.2.value) ∈ vs := by
      rw [← values_rawMembers hparse]
      exact List.mem_map_of_mem hm
    have hdepth : (obj vs).depth ≤ maxDepth := by
      rw [parse] at hparse
      split at hparse
      · cases hparse
      next j rest hvalue =>
      split at hparse
      · cases hparse
        exact (depth_le_of_parse _).1 _ _ _ _ hvalue
      · cases hparse
    cases maxDepth with
    | zero => simp [depth] at hdepth
    | succ d => exact Nat.lt_succ_of_le (depth_obj_le.1 hdepth _ hmem)
  · cases h

end Json

end Observatory.Lib
