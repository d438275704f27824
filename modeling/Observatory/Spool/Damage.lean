/-
# Cut and altered segments

What the readers of a segment make of a file that is not as its writer left it. A cut anywhere
behind the header leaves the records before it. Altered bytes are found or left alone as long as
no length comes to stand for another one; a length that runs past the end of the file looks like a
torn tail. The probe for the end marker looks at four bytes only, and a checksum may have them.
-/
import Observatory.Spool.Layout

namespace Observatory.Spool

open Lib Events List

variable {conv : FloatText} {vmID instanceID bs : Bytes} {bodies : List Bytes} {closed : Bool}

/-! ## Cuts -/

end Observatory.Spool
