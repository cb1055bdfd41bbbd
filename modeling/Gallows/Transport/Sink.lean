import Gallows.Bytes.Cursor
import Gallows.Transport.Fault

/-!
Streams to write to, as scripts of what their writes take.
-/
namespace Gallows

/-- What one write does. -/
inductive Sink.Step
  | takes (count : Nat)
  | fails (fault : Fault)
deriving DecidableEq, Repr

/-- A stream to write to. Behind the last step of its script every write takes everything. -/
structure Sink where
  script : List Sink.Step
  /-- What has been written. -/
  written : ByteArray := .empty
  /-- How often the stream has been flushed. -/
  flushes : Nat := 0
  /-- What every flush fails with, if it does. -/
  flushFault : Option Fault := none

namespace Sink

/-- Writes the rest of `bytes`, over again until all are taken. Failures that `passes` admits are
passed over. -/
def writeRest (passes : Fault → Bool) (sink : Sink) :
    List Step → Cursor → Except Fault Unit × Sink
  | script, bytes =>
    if bytes.remaining = 0 then (.ok (), { sink with script })
    else
      match script with
      | [] =>
        let all := bytes.bytes.extract bytes.pos bytes.bytes.size
        (.ok (), { sink with script := [], written := sink.written ++ all })
      | .fails fault :: script =>
        if passes fault then sink.writeRest passes script bytes
        else (.error fault, { sink with script })
      | .takes count :: script =>
        match bytes.take? (min count bytes.remaining) with
        | none => (.error .nothingWritten, { sink with script })
        | some (chunk, left) =>
          if count = 0 then (.error .nothingWritten, { sink with script })
          else { sink with written := sink.written ++ chunk }.writeRest passes script left

/-- Writes all of `bytes`. A write that is interrupted is made again. -/
def write (sink : Sink) (bytes : ByteArray) : Except Fault Unit × Sink :=
  sink.writeRest Fault.isTransient sink.script (.ofBytes bytes)

/-- Writes all of `bytes` as sockets are written to, where a write that is interrupted fails like
any other. -/
def push (sink : Sink) (bytes : ByteArray) : Except Fault Unit × Sink :=
  sink.writeRest (fun _ => false) sink.script (.ofBytes bytes)

/-- Pushes out what has been written. -/
def flush (sink : Sink) : Except Fault Unit × Sink :=
  let sink := { sink with flushes := sink.flushes + 1 }
  match sink.flushFault with
  | none => (.ok (), sink)
  | some fault => (.error fault, sink)

end Sink
end Gallows
