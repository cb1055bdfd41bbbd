import Gallows.Bytes.Cursor
import Gallows.Transport.Fault

/-!
Streams to read from, as scripts of what their reads give.
-/
namespace Gallows

namespace Source

/-- What a stream has for the reads to come. -/
inductive Item
  /-- Bytes, for as many reads as it takes. -/
  | data (bytes : Cursor)
  /-- One read that finds the end. -/
  | ended
  /-- One read that fails. -/
  | failed (fault : Fault)

/-- How many bytes an item has. -/
def Item.size : Item → Nat
  | data bytes => bytes.remaining
  | _ => 0

/-- A bound on the reads that an item serves. -/
def Item.weight : Item → Nat
  | data bytes => bytes.remaining + 1
  | _ => 1

end Source

/-- A stream to read from. Behind its last item every read finds the end. -/
abbrev Source := List Source.Item

namespace Source

/-- A stream that gives `bytes` and then ends. -/
def ofBytes (bytes : ByteArray) : Source := [.data (.ofBytes bytes)]

/-- How many bytes are still to come. -/
def remaining (s : Source) : Nat :=
  s.foldr (fun item n => item.size + n) 0

/-- A bound on the reads that a stream serves before it has nothing but its end. -/
def weight (s : Source) : Nat := s.foldr (fun item n => item.weight + n) 0

/-- Reads at most `limit` bytes, and none only at an end. -/
def read (limit : Nat) : Source → Except Fault ByteArray × Source
  | [] => (.ok .empty, [])
  | .ended :: rest => (.ok .empty, rest)
  | .failed fault :: rest => (.error fault, rest)
  | .data bytes :: rest =>
    match bytes.take? (min limit bytes.remaining) with
    | none => read limit rest
    | some (chunk, left) =>
      if bytes.remaining = 0 then read limit rest
      else if left.remaining = 0 then (.ok chunk, rest)
      else (.ok chunk, .data left :: rest)

/-- Reads as `read` does, over again while the failure is transient. -/
def readSteadily (limit : Nat) (s : Source) : Except Fault ByteArray × Source :=
  match s with
  | .failed fault :: rest =>
    if fault.isTransient then readSteadily limit rest else (.error fault, rest)
  | .data bytes :: rest =>
    if bytes.remaining = 0 then readSteadily limit rest else read limit (.data bytes :: rest)
  | s => read limit s

end Source
end Gallows
