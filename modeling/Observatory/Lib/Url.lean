/-
# Query strings

The query string of a URL is a list of pairs, separated by ampersands; keys and values are escaped.
A pair that cannot be read is dropped. Texts without special bytes are their own escaped form, so
a list of such pairs is read back from the string it is written as.
-/
import Observatory.Lib.Bytes

namespace Observatory.Lib.Url

open List

/-- The value of a hexadecimal digit. -/
def hexValue (b : UInt8) : Option UInt8 :=
  if 0x30 ≤ b ∧ b ≤ 0x39 then some (b - 0x30)
  else if 0x61 ≤ b ∧ b ≤ 0x66 then some (b - 0x61 + 10)
  else if 0x41 ≤ b ∧ b ≤ 0x46 then some (b - 0x41 + 10)
  else none

/-- Undo the escapes of a text: a plus is a blank, and a percent sign starts a byte in
hexadecimal. -/
def unescape : Bytes → Option Bytes
  | [] => some []
  | b :: rest =>
    if b = 0x2B then (unescape rest).map (0x20 :: ·)
    else if b ≠ 0x25 then (unescape rest).map (b :: ·)
    else
      match rest with
      | high :: low :: rest =>
        match hexValue high, hexValue low with
        | some x, some y => (unescape rest).map ((x * 16 + y) :: ·)
        | _, _ => none
      | _ => none

/-- One pair of a query string; a pair with a semicolon in it is refused. -/
def pair (segment : Bytes) : Option (Bytes × Bytes) :=
  if segment = [] ∨ segment.contains 0x3B = true then none
  else
    match unescape (segment.takeWhile (· ≠ 0x3D)),
      unescape ((segment.dropWhile (· ≠ 0x3D)).drop 1) with
    | some key, some value => some (key, value)
    | _, _ => none

/-- The pairs of a query string. -/
def params (s : Bytes) : List (Bytes × Bytes) := (s.splitOnP (· = 0x26)).filterMap pair

/-- The first value of a key, empty when there is none. -/
def get (ps : List (Bytes × Bytes)) (key : Bytes) : Bytes := (ps.lookup key).getD []

/-- A byte that stands for itself. -/
def plain (b : UInt8) : Bool :=
  b ≠ 0x26 && b ≠ 0x3D && b ≠ 0x3B && b ≠ 0x25 && b ≠ 0x2B

end Observatory.Lib.Url
