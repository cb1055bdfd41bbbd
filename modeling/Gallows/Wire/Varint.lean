import Gallows.Bytes.Cursor

/-!
Base-128 integers: seven bits a byte, least significant first, with the top bit set on every
byte but the last. Writing takes the fewest bytes; reading takes up to ten.
-/
namespace Gallows.Wire

/-- The bytes of `n`, the fewest that hold it. -/
def varint (n : Nat) : List UInt8 :=
  if n < 128 then [n.toUInt8] else (n % 128 + 128).toUInt8 :: varint (n / 128)

/-- An integer of at most `budget` bytes. The last byte of a full budget may only add the one
bit that still fits into 64. -/
def readVarintWithin : (budget : Nat) → Cursor → Option (Nat × Cursor)
  | 0, _ => none
  | budget + 1, c => do
    let (b, c) ← c.next?
    if b < 128 then
      if budget = 0 ∧ 1 < b then none else some (b.toNat, c)
    else
      let (high, c) ← readVarintWithin budget c
      some (b.toNat - 128 + 128 * high, c)

/-- An integer below 2^64; `none` if the bytes end too soon or hold more. -/
def readVarint (c : Cursor) : Option (Nat × Cursor) := readVarintWithin 10 c

theorem varint_ne_nil (n : Nat) : varint n ≠ [] := by
  rw [varint]; split <;> simp

end Gallows.Wire
