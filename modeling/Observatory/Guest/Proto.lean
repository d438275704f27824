/-
# Frames of the guest channel

A frame is a type byte, the length of its payload in four bytes, and the payload. Each type has
a limit on the payload. The writer compares the length with it after it has cut the length down
to 32 bits, so that the limit holds for payloads below 4 GiB only.
-/
import Observatory.Lib.Bytes

namespace Observatory.Guest.Proto

open Lib List

def frameControl : UInt8 := 0x01
def framePTY : UInt8 := 0x02
def frameArtifact : UInt8 := 0x03

def maxControlFrame : Nat := 2 ^ 20
def maxBinaryFrame : Nat := 256 * 2 ^ 10

/-- The largest payload of a type, and 0 for a type that is not known. -/
def maxLen (typ : UInt8) : Nat :=
  if typ = frameControl then maxControlFrame
  else if typ = framePTY ∨ typ = frameArtifact then maxBinaryFrame
  else 0

structure Frame where
  typ : UInt8
  payload : Bytes
deriving DecidableEq

/-- Whether a read that failed came to the end at once or inside is part of its error. -/
inductive FrameError where
  | unknownType (typ : UInt8)
  | frameLength (length max : Nat) (typ : UInt8)
  | readHeader (eof : Bool)
  | readPayload (eof : Bool)
deriving DecidableEq

/-- The bytes `WriteFrame` writes. -/
def writeFrame (f : Frame) : Except FrameError Bytes :=
  if maxLen f.typ = 0 then .error (.unknownType f.typ)
  else if maxLen f.typ < f.payload.length % 2 ^ 32 then
    .error (.frameLength f.payload.length (maxLen f.typ) f.typ)
  else .ok (f.typ :: (putUint32 f.payload.length ++ f.payload))

/-- Read one frame; also what is left of the stream. -/
def readFrame : Bytes → Except FrameError (Frame × Bytes)
  | typ :: a :: b :: c :: d :: rest =>
    if maxLen typ = 0 then .error (.unknownType typ)
    else if maxLen typ < uint32 a b c d then
      .error (.frameLength (uint32 a b c d) (maxLen typ) typ)
    else if rest.length < uint32 a b c d then .error (.readPayload rest.isEmpty)
    else .ok (⟨typ, rest.take (uint32 a b c d)⟩, rest.drop (uint32 a b c d))
  | bs => .error (.readHeader bs.isEmpty)

variable {f : Frame} {bs : Bytes}

variable {fs : List Frame} {parts : List Bytes} {n : Nat}

end Observatory.Guest.Proto
