/-!
The status that a server puts on every reply.
-/
namespace Gallows

/-- What a reply says about its request. -/
inductive Status
  | success
  | badRequest
  | unknownCommand
  | unauthorized
  | invalidPayload
  | notFound
  | conflict
  | roomAlreadyExists
  | roomNotFound
  | roomFull
  | gameNotStarted
  | gameOver
  | invalidMove
  | internalServerError
  | other (code : Int32)
deriving DecidableEq, Repr

namespace Status

/-- The statuses that have a meaning of their own. -/
def known : List Status :=
  [success, badRequest, unknownCommand, unauthorized, invalidPayload, notFound, conflict,
    roomAlreadyExists, roomNotFound, roomFull, gameNotStarted, gameOver, invalidMove,
    internalServerError]

/-- The number that stands for a status on the wire. -/
def code : Status → Int32
  | success => 2000
  | badRequest => 4000
  | unknownCommand => 4001
  | unauthorized => 4002
  | invalidPayload => 4003
  | notFound => 4004
  | conflict => 4009
  | roomAlreadyExists => 4100
  | roomNotFound => 4101
  | roomFull => 4102
  | gameNotStarted => 4200
  | gameOver => 4201
  | invalidMove => 4202
  | internalServerError => 5000
  | other code => code

/-- The status with this number; every number has one. -/
def ofCode (n : Int32) : Status := (known.find? (·.code = n)).getD (other n)

/-- What a status means. -/
def description : Status → String
  | success => "Success"
  | badRequest => "Malformed request"
  | unknownCommand => "Unknown command"
  | unauthorized => "Unauthorized action"
  | invalidPayload => "Invalid request payload"
  | notFound => "Not found"
  | conflict => "Conflict"
  | roomAlreadyExists => "Room already exists"
  | roomNotFound => "Room not found"
  | roomFull => "Room is full"
  | gameNotStarted => "Game has not started"
  | gameOver => "Game is over"
  | invalidMove => "Invalid move"
  | internalServerError => "Internal server error"
  | other _ => "Unrecognized status"

/-- A status as shown to the player. -/
def text (s : Status) : String := s!"{s.code.toInt} ({s.description})"

theorem code_ofCode (n : Int32) : (ofCode n).code = n := by
  unfold ofCode
  cases h : known.find? (·.code = n) with
  | none => rfl
  | some s => simpa using List.find?_some h

end Status
end Gallows
