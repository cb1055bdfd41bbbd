/-!
What a client can ask a server to do.
-/
namespace Gallows

/-- What a client asks for. -/
inductive Command
  | createRoom
  | joinRoom
  | startGame
  | leaveRoom
  | deleteRoom
  | guessLetter
  | getGameState
  | getRoomState
  | getAllRooms
  | getLeaderboard
  | updateRoom
  | checkUsername
  /-- Asks for the events of a player; the server sends no reply. -/
  | subscribe
deriving DecidableEq, Repr

namespace Command

/-- Every command. -/
def all : List Command :=
  [createRoom, joinRoom, startGame, leaveRoom, deleteRoom, guessLetter, getGameState,
    getRoomState, getAllRooms, getLeaderboard, updateRoom, checkUsername, subscribe]

/-- The name of a command on the wire. -/
def wireName : Command → String
  | createRoom => "CREATE_ROOM"
  | joinRoom => "JOIN_ROOM"
  | startGame => "START_GAME"
  | leaveRoom => "LEAVE_ROOM"
  | deleteRoom => "DELETE_ROOM"
  | guessLetter => "GUESS_LETTER"
  | getGameState => "GET_GAME_STATE"
  | getRoomState => "GET_ROOM_STATE"
  | getAllRooms => "GET_ALL_ROOMS"
  | getLeaderboard => "GET_LEADERBOARD"
  | updateRoom => "UPDATE_ROOM"
  | checkUsername => "CHECK_USERNAME"
  | subscribe => "SUBSCRIBE"

end Command
end Gallows
