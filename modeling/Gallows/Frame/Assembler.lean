import Gallows.Frame.Basic

/-!
Putting frames together from pieces. An assembler owns the part of a frame that has been read, so
that reading may be given up between two pieces and taken up again later.
-/
namespace Gallows.Frame

/-- Which part of a frame is being read. -/
inductive Phase
  | awaitingHeader
  | awaitingBody
deriving DecidableEq, Repr

/-- `n` zero bytes. -/
def zeros (n : Nat) : ByteArray :=
  if n = 0 then .empty
  else
    let half := zeros (n / 2)
    if n % 2 = 0 then half ++ half else (half ++ half).push 0

/-- A frame that is being read. A buffer beyond its filled part holds bytes that do not count. -/
structure Assembler where
  phase : Phase := .awaitingHeader
  header : ByteArray := zeros headerSize
  headerFilled : Nat := 0
  body : ByteArray := .empty
  bodyFilled : Nat := 0

namespace Assembler

/-- Whether nothing of the next frame has been read. -/
def isIdle (a : Assembler) : Bool := a.phase = .awaitingHeader && a.headerFilled = 0

/-- How many bytes of the frame have been read. -/
def buffered (a : Assembler) : Nat := a.headerFilled + a.bodyFilled

/-- How many bytes the part being read still lacks. -/
def unfilled (a : Assembler) : Nat :=
  match a.phase with
  | .awaitingHeader => a.header.size - a.headerFilled
  | .awaitingBody => a.body.size - a.bodyFilled

/-- Drops what has been read. The header's buffer keeps its bytes. -/
def reset (a : Assembler) : Assembler :=
  { a with phase := .awaitingHeader, headerFilled := 0, body := .empty, bodyFilled := 0 }

/-- Puts bytes into the unfilled part; they count once the assembler advances over them. -/
def put (a : Assembler) (bytes : ByteArray) : Assembler :=
  let bytes := bytes.extract 0 a.unfilled
  match a with
  | ⟨.awaitingHeader, header, headerFilled, body, bodyFilled⟩ =>
    ⟨.awaitingHeader, bytes.copySlice 0 header headerFilled bytes.size, headerFilled, body,
      bodyFilled⟩
  | ⟨.awaitingBody, header, headerFilled, body, bodyFilled⟩ =>
    ⟨.awaitingBody, header, headerFilled, bytes.copySlice 0 body bodyFilled bytes.size, bodyFilled⟩

/-- How many bytes the part being read has, and how many of them have been read. -/
def progress (a : Assembler) : Nat × Nat :=
  match a.phase with
  | .awaitingHeader => (headerSize, a.headerFilled)
  | .awaitingBody => (a.body.size, a.bodyFilled)

/-- Takes note of a full header. -/
def beginBody (a : Assembler) : Except Error (Option ByteArray) × Assembler :=
  let size := announced a.header
  match checkSize size with
  | .error e => (.error e, a.reset)
  | .ok () =>
    if size = 0 then (.ok (some .empty), a.reset)
    else (.ok none, { a with phase := .awaitingBody, body := zeros size, bodyFilled := 0 })

/-- Counts `n` bytes as read and gives the body when they complete it. No bytes mean that the
stream has ended. After a body or an error the assembler awaits a new header. -/
def advance (a : Assembler) (n : Nat) : Except Error (Option ByteArray) × Assembler :=
  if n = 0 then (.error (.closed a.progress.1 a.progress.2), a.reset)
  else
    match a with
    | ⟨.awaitingHeader, header, headerFilled, body, bodyFilled⟩ =>
      let a : Assembler := ⟨.awaitingHeader, header, headerFilled + n, body, bodyFilled⟩
      if a.headerFilled < headerSize then (.ok none, a) else a.beginBody
    | ⟨.awaitingBody, header, headerFilled, body, bodyFilled⟩ =>
      let a : Assembler := ⟨.awaitingBody, header, headerFilled, body, bodyFilled + n⟩
      if a.bodyFilled < a.body.size then (.ok none, a) else (.ok (some a.body), a.reset)

/-- Takes in a piece that was read. -/
def feed (a : Assembler) (piece : ByteArray) : Except Error (Option ByteArray) × Assembler :=
  (a.put piece).advance piece.size

end Assembler
end Gallows.Frame
