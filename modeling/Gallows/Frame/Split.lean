import Gallows.Frame.Basic

/-!
The frames of a whole stream at once. A header that announces too much is one error, and the stream
goes on right behind it.
-/
namespace Gallows.Frame

/-- The bodies of the frames that a stream starts with, and what is left for the next one. Every
frame takes a header from the stream, so `fuel` is no limit when it is above the stream's
length. -/
def splitWithin : (fuel : Nat) → List UInt8 → List (Except Error (List UInt8)) × List UInt8
  | 0, stream => ([], stream)
  | fuel + 1, stream =>
    if stream.length < headerSize then ([], stream)
    else
      let size := spelled (stream.take headerSize)
      let rest := stream.drop headerSize
      if sizeLimit < size then
        let (bodies, left) := splitWithin fuel rest
        (.error (.tooLarge size sizeLimit) :: bodies, left)
      else if rest.length < size then ([], stream)
      else
        let (bodies, left) := splitWithin fuel (rest.drop size)
        (.ok (rest.take size) :: bodies, left)

/-- The bodies of the frames that a stream starts with, and what is left for the next one. -/
def split (stream : List UInt8) : List (Except Error (List UInt8)) × List UInt8 :=
  splitWithin (stream.length + 1) stream

end Gallows.Frame
