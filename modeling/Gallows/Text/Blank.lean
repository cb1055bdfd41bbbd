/-!
White space, of any script.
-/
namespace Gallows.Text

/-- The code points of white space as ranges; both ends belong to a range. -/
def blankRanges : List (Nat × Nat) :=
  [(0x9, 0xd), (0x20, 0x20), (0x85, 0x85), (0xa0, 0xa0), (0x1680, 0x1680), (0x2000, 0x200a),
    (0x2028, 0x2029), (0x202f, 0x202f), (0x205f, 0x205f), (0x3000, 0x3000)]

/-- Whether a character is white space. -/
def isBlank (c : Char) : Bool :=
  blankRanges.any fun (first, last) => first ≤ c.toNat && c.toNat ≤ last

/-- Characters without the white space in front of them. -/
def dropBlank (cs : List Char) : List Char := cs.dropWhile isBlank

/-- A text without the white space at its ends. -/
def trim (s : String) : String :=
  String.ofList (dropBlank (dropBlank s.toList).reverse).reverse

/-- Whether a text holds nothing but white space. -/
def isBlankText (s : String) : Bool := s.toList.all isBlank

end Gallows.Text
