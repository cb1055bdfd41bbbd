import Gallows.Decimal.Shortest
import Gallows.Text.Quoted
import Gallows.Time.Reader

/-!
Why a JSON text does not hold the document that was asked for.
-/
namespace Gallows.Json

/-- A value that was met, as far as messages show it. -/
inductive Found
  | flag (value : Bool)
  | integer (value : Int)
  /-- A number with a fraction or an exponent, or one beyond 64 bits, by the bits of its double. -/
  | decimal (bits : UInt64)
  | text (value : String)
  | null
  | sequence
  | map
deriving DecidableEq, Repr

/-- What does not fit. -/
inductive Mismatch
  | type (found : Found) (expected : String)
  | value (found : Found) (expected : String)
  | missing (field : String)
  | duplicate (field : String)
  | length (found : Nat) (expected : String)
  | variant (found : String) (known : List String)
  | moment (cause : Time.ReadError)
deriving DecidableEq, Repr

/-- The text stops within a value, breaks the grammar, or holds a value that does not fit. -/
inductive Error
  | ended
  | malformed
  | mismatch (cause : Mismatch)
deriving DecidableEq, Repr

/-- Digits with a point behind the first `front` of them. -/
def pointed (front : Nat) (digits : List Char) : String :=
  String.ofList (digits.take front) ++ "." ++
    if digits.length ≤ front then "0" else String.ofList (digits.drop front)

/-- A magnitude in the fewest digits: positional from 10^-5 up to 10^16, with an exponent
elsewhere. -/
def magnitudeText (d : Decimal.Scaled) : String :=
  let digits := Nat.toDigits 10 d.digits
  let leading := d.exponent + digits.length - 1
  if 0 ≤ leading ∧ leading < 16 then
    let front := leading.toNat + 1
    pointed front (digits ++ List.replicate (front - digits.length) '0')
  else if -5 ≤ leading ∧ leading < 0 then
    "0." ++ "".pushn '0' (-leading - 1).toNat ++ String.ofList digits
  else
    let mantissa := if digits.length = 1 then String.ofList digits else pointed 1 digits
    let sign := if leading < 0 then "-" else "+"
    s!"{mantissa}e{sign}{leading.natAbs}"

/-- The double with these bits, which has to be finite. -/
def decimalText (bits : UInt64) : String :=
  let sign := if bits.toNat < 0x8000000000000000 then "" else "-"
  let x := Decimal.Binary.ofBits bits
  if x.m = 0 then sign ++ "0.0" else sign ++ magnitudeText x.shortest

/-- The wording for a value that was met. -/
def Found.describe : Found → String
  | flag value => s!"boolean `{value}`"
  | integer value => s!"integer `{value}`"
  | decimal bits => s!"floating point `{decimalText bits}`"
  | text value => s!"string {Text.quoted value}"
  | null => "null"
  | sequence => "sequence"
  | map => "map"

/-- The wording of a mismatch. -/
def Mismatch.message : Mismatch → String
  | type found expected => s!"invalid type: {found.describe}, expected {expected}"
  | value found expected => s!"invalid value: {found.describe}, expected {expected}"
  | missing field => s!"missing field `{field}`"
  | duplicate field => s!"duplicate field `{field}`"
  | length found expected => s!"invalid length {found}, expected {expected}"
  | variant found known =>
    let names := ", ".intercalate (known.map fun name => s!"`{name}`")
    s!"unknown variant `{found}`, expected one of {names}"
  | moment cause => cause.message

/-- The wording of an error. A broken text is only marked as such: where it breaks is not
reported. -/
def Error.message : Error → String
  | ended => "<eof>"
  | malformed => "<syntax>"
  | mismatch cause => cause.message

end Gallows.Json
