/-!
Frames: a length of four bytes, most significant first, and a body of that length, which may be
empty.
-/
namespace Gallows.Frame

/-- How many bytes a header has. -/
def headerSize : Nat := 4

/-- The greatest length of a body. -/
def sizeLimit : Nat := 16777216

/-- What is wrong with a frame. -/
inductive Error
  /-- The header announces, or the body has, more than the limit. -/
  | tooLarge (size limit : Nat)
  /-- The bytes at hand end within the frame. -/
  | incomplete (expected received : Nat)
  /-- The stream ended within the header or within the body. -/
  | closed (expected received : Nat)
deriving DecidableEq, Repr

/-- The wording of an error. -/
def Error.message : Error → String
  | tooLarge size limit => s!"frame too large: {size} bytes (max: {limit})"
  | incomplete expected received =>
    s!"incomplete frame: expected {expected} bytes, got {received}"
  | closed expected received =>
    s!"connection closed by peer: expected {expected} bytes, got {received}"

/-- The header of a body of `size` bytes. -/
def header (size : Nat) : ByteArray :=
  [size / 0x1000000, size / 0x10000, size / 0x100, size].map Nat.toUInt8 |>.toByteArray

/-- The number that bytes spell, most significant first. -/
def spelled (bytes : List UInt8) : Nat := bytes.foldl (fun n b => 256 * n + b.toNat) 0

/-- The length that a header announces. -/
def announced (header : ByteArray) : Nat := spelled header.data.toList

/-- Refuses a length above the limit. -/
def checkSize (size : Nat) : Except Error Unit :=
  if sizeLimit < size then .error (.tooLarge size sizeLimit) else .ok ()

/-- The frame of a body. The length in the error is cut off at 32 bits. -/
def ofBody (body : ByteArray) : Except Error ByteArray :=
  if sizeLimit < body.size then .error (.tooLarge (min body.size 0xffffffff) sizeLimit)
  else .ok (header body.size ++ body)

/-- The body of the frame that `bytes` start with. -/
def body (bytes : ByteArray) : Except Error ByteArray := do
  if bytes.size < headerSize then throw (.incomplete headerSize bytes.size)
  let size := announced (bytes.extract 0 headerSize)
  checkSize size
  if bytes.size < headerSize + size then throw (.incomplete (headerSize + size) bytes.size)
  return bytes.extract headerSize (headerSize + size)

end Gallows.Frame
