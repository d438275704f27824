/-
# From JSON to frames

A control connection starts with one JSON object on a line and goes on in frames. The JSON
decoder reads what the connection gives it and stops at the brace that ends the object; what it
has read beyond is put back in front of the connection, without the white space it starts with.
Where a read ends at that brace nothing was read beyond, and the newline is left for the frames.
-/
import Observatory.Guest.Proto
import Observatory.Lib.Json

namespace Observatory.Runner

open Lib List Guest.Proto

/-- Read until the buffer holds a value. `valueEnd` is the scanner of the JSON library: how long
the value at the start of a buffer is, if its end is there. The result is what was buffered
beyond the value, and the reads still to come. -/
def decode (valueEnd : Bytes → Option Nat) (buf : Bytes) :
    List Bytes → Option (Bytes × List Bytes)
  | [] => (valueEnd buf).map fun n => (buf.drop n, [])
  | r :: reads =>
    match valueEnd buf with
    | some n => some (buf.drop n, r :: reads)
    | none => decode valueEnd (buf ++ r) reads

/-- The scanner finds the end of the object `line` where it is. -/
structure Scans (valueEnd : Bytes → Option Nat) (line : Bytes) : Prop where
  ends : ∀ more, valueEnd (line ++ more) = some line.length
  unfinished : ∀ b, b <+: line → b ≠ line → valueEnd b = none

variable {valueEnd : Bytes → Option Nat} {line buf tail : Bytes} {reads : List Bytes}

lemma Scans.decode (h : Scans valueEnd line) (hbuf : buf ++ reads.flatten = line ++ 0x0A :: tail)
    (hcut : ∀ i, buf ++ (reads.take i).flatten ≠ line) :
    ∃ rest conn, decode valueEnd buf reads = some (0x0A :: rest, conn) ∧
      rest ++ conn.flatten = tail := by
  induction reads generalizing buf with
  | nil =>
    rw [flatten_nil, append_nil] at hbuf
    refine ⟨tail, [], ?_, append_nil _⟩
    rw [Runner.decode, hbuf, h.ends, Option.map_some, drop_left]
  | cons r reads ih =>
    rw [Runner.decode]
    by_cases hline : line <+: buf
    · obtain ⟨q, rfl⟩ := hline
      rw [append_assoc, append_cancel_left_eq] at hbuf
      cases q with
      | nil => exact absurd (by simp) (hcut 0)
      | cons b rest =>
        obtain ⟨rfl, hrest⟩ := cons.inj hbuf
        exact ⟨rest, r :: reads, by simp only [h.ends, drop_left], hrest⟩
    · have hshort : buf <+: line := by
        have hwhole : buf <+: line ++ 0x0A :: tail := hbuf ▸ prefix_append buf _
        exact (List.prefix_or_prefix_of_prefix hwhole (prefix_append line _)).resolve_right hline
      rw [h.unfinished buf hshort fun heq => hline (heq ▸ prefix_refl buf)]
      refine ih (by rw [← hbuf, flatten_cons, append_assoc]) fun i => ?_
      have := hcut (i + 1)
      rwa [take_succ_cons, flatten_cons, ← append_assoc] at this

end Observatory.Runner
