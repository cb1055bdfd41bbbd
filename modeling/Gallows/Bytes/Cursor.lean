/-!
A reading position in a byte array. Every operation is described by `rest`, the bytes still to
be read.
-/
namespace Gallows

/-- A byte array and the index of the next byte to read. -/
structure Cursor where
  bytes : ByteArray
  pos : Nat
deriving Inhabited

namespace Cursor
variable {c d : Cursor} {b : UInt8} {n : Nat} {chunk : ByteArray}

/-- The start of `bytes`. -/
def ofBytes (bytes : ByteArray) : Cursor := ⟨bytes, 0⟩

/-- The bytes still to be read. -/
def rest (c : Cursor) : List UInt8 := c.bytes.data.toList.drop c.pos

/-- How many bytes are still to be read. -/
def remaining (c : Cursor) : Nat := c.bytes.size - c.pos

/-- The next byte, if there is one. -/
def next? (c : Cursor) : Option (UInt8 × Cursor) :=
  if h : c.pos < c.bytes.size then some (c.bytes[c.pos], { c with pos := c.pos + 1 }) else none

/-- The next `n` bytes, if there are that many. -/
def take? (c : Cursor) (n : Nat) : Option (ByteArray × Cursor) :=
  if n ≤ c.remaining then
    some (c.bytes.extract c.pos (c.pos + n), { c with pos := c.pos + n })
  else none

/-- The position `n` bytes further on, if there are that many. -/
def skip? (c : Cursor) (n : Nat) : Option Cursor :=
  if n ≤ c.remaining then some { c with pos := c.pos + n } else none

theorem length_rest : c.rest.length = c.remaining := by
  simp [rest, remaining]

theorem rest_ofBytes (bytes : ByteArray) : (ofBytes bytes).rest = bytes.data.toList := by
  simp [rest, ofBytes]

theorem next?_eq_none_iff : c.next? = none ↔ c.rest = [] := by
  simp [next?, rest]

theorem rest_of_next? (h : c.next? = some (b, d)) : c.rest = b :: d.rest := by
  unfold next? at h
  split at h
  · cases h
    simp only [rest]
    rw [List.drop_eq_getElem_cons (by simpa using ‹_›)]
    rfl
  · cases h

theorem rest_of_skip? (h : c.skip? n = some d) : d.rest = c.rest.drop n := by
  unfold skip? at h
  split at h <;> cases h
  simp [rest, List.drop_drop]

theorem rest_of_take? (h : c.take? n = some (chunk, d)) :
    chunk.data.toList = c.rest.take n ∧ d.rest = c.rest.drop n := by
  unfold take? at h
  split at h <;> cases h
  refine ⟨?_, by simp [rest, List.drop_drop]⟩
  simp [rest, List.extract_eq_take_drop]

theorem take?_isSome_iff : (c.take? n).isSome ↔ n ≤ c.rest.length := by
  simp only [take?, length_rest]
  split <;> simp_all

end Cursor
end Gallows
