import Gallows.Frame.Assembler
import Gallows.Protocol.Error
import Gallows.Transport.Sink
import Gallows.Transport.Source
import Gallows.Wire.Message

/-!
Messages in frames: held in memory, read from streams, and written to streams.
-/
namespace Gallows.Frame
open Wire (Message)

variable {α : Type} [Message α]

/-- The message that a body holds. -/
def decodeBody (body : ByteArray) : Except ProtocolError α :=
  (Wire.decode body).mapError .envelope

/-- The frame of a message. -/
def encode (m : α) : Except Error ByteArray := ofBody (Message.encode m)

/-- The message in the frame that `bytes` start with. -/
def decode (bytes : ByteArray) : Except ProtocolError α := do
  let body ← (body bytes).mapError .frame
  decodeBody body

/-- Reads until `body` has `size` bytes. Every read but the last but one takes something from the
stream, so `fuel` is no limit when it is above the stream's weight. -/
def readFully (size : Nat) :
    (fuel : Nat) → ByteArray → Source → Except ProtocolError ByteArray × Source
  | fuel, body, source =>
    if size ≤ body.size then (.ok body, source)
    else
      match fuel with
      | 0 => (.error (.frame (.closed size body.size)), source)
      | fuel + 1 =>
        match source.readSteadily (size - body.size) with
        | (.error fault, source) => (.error (.transport fault), source)
        | (.ok piece, source) =>
          if piece.size = 0 then (.error (.frame (.closed size body.size)), source)
          else readFully size fuel (body ++ piece) source

/-- Reads a body of `size` bytes and the message in it. -/
def readBody (size : Nat) (source : Source) : Except ProtocolError α × Source :=
  match checkSize size with
  | .error e => (.error (.frame e), source)
  | .ok () =>
    let (body, source) := readFully size (source.weight + 1) .empty source
    (body.bind decodeBody, source)

/-- A stream of frames that is being read. -/
structure Reader where
  source : Source
  assembler : Assembler := {}

namespace Reader

/-- Reads until a frame is complete, or the stream ends or fails. Every read takes something from
the stream unless it has nothing but its end, so `fuel` is no limit when it is above the stream's
weight. -/
def readBodyWithin : (fuel : Nat) → Reader → Except ProtocolError (Option ByteArray) × Reader
  | 0, r => (.ok none, r)
  | fuel + 1, ⟨source, assembler⟩ =>
    match source.readSteadily assembler.unfilled with
    | (.error fault, source) => (.error (.transport fault), ⟨source, assembler⟩)
    | (.ok piece, source) =>
      if piece.size = 0 && assembler.isIdle then (.ok none, ⟨source, assembler⟩)
      else
        match assembler.feed piece with
        | (.error e, assembler) => (.error (.frame e), ⟨source, assembler⟩)
        | (.ok (some body), assembler) => (.ok (some body), ⟨source, assembler⟩)
        | (.ok none, assembler) => readBodyWithin fuel ⟨source, assembler⟩

/-- Reads the next message; `none` if the stream ends between frames. A failed read loses nothing
of the frame. -/
def read (r : Reader) : Except ProtocolError (Option α) × Reader :=
  let (body, r) := r.readBodyWithin (r.source.weight + 1)
  match body with
  | .error e => (.error e, r)
  | .ok none => (.ok none, r)
  | .ok (some body) => ((decodeBody body).map some, r)

end Reader

/-- Writes the frame of a message. -/
def write (m : α) (sink : Sink) : Except ProtocolError Unit × Sink :=
  match encode m with
  | .error e => (.error (.frame e), sink)
  | .ok bytes =>
    let (r, sink) := sink.write bytes
    (r.mapError .transport, sink)

/-- Flushes the stream behind the frames. -/
def flush (sink : Sink) : Except ProtocolError Unit × Sink :=
  let (r, sink) := sink.flush
  (r.mapError .transport, sink)

end Gallows.Frame
