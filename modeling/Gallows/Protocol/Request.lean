import Gallows.Document.Reader
import Gallows.Protocol.Command

/-!
The documents that requests carry. Every member is required, except for the changes to a room,
which are left out where nothing changes.
-/
namespace Gallows
open Document

namespace Request

/-- A record that has all of these members. -/
def record (name : String) (members : List String) : Shape :=
  .record name (.of .refused (members.map fun member => (member, .text)) .nil)

/-- A record that names a player, a room and the room's password. -/
def inRoom (name : String) : Shape := record name ["player_username", "room_id", "password"]

def createRoom : Shape :=
  record "CreateRoomRequest"
    ["player_username", "room_id", "password", "category", "difficulty"]

def joinRoom : Shape := inRoom "JoinRoomRequest"

def startGame : Shape := inRoom "StartGameRequest"

def leaveRoom : Shape := inRoom "LeaveRoomRequest"

def deleteRoom : Shape := inRoom "DeleteRoomRequest"

def guessLetter : Shape :=
  record "GuessLetterRequest" ["player_username", "room_id", "password", "letter"]

def getGameState : Shape := record "GetGameStateRequest" ["player_username", "room_id"]

def getRoomState : Shape := record "GetRoomStateRequest" ["room_id", "password"]

def getAllRooms : Shape := record "GetAllRoomsRequest" []

def getLeaderboard : Shape := record "GetLeaderboardRequest" []

def updateRoom : Shape :=
  .record "UpdateRoomRequest" <|
    .of .refused [("player_username", .text), ("room_id", .text), ("password", .text)] <|
    .of .omitted [("category", .optional .text), ("difficulty", .optional .text),
      ("new_password", .optional .text)] .nil

def checkUsername : Shape := record "CheckUsernameRequest" ["username"]

def subscribe : Shape := record "SubscribeRequest" ["player_username"]

end Request

/-- The shape of the document that a request with this command carries. -/
def Command.request : Command → Shape
  | createRoom => Request.createRoom
  | joinRoom => Request.joinRoom
  | startGame => Request.startGame
  | leaveRoom => Request.leaveRoom
  | deleteRoom => Request.deleteRoom
  | guessLetter => Request.guessLetter
  | getGameState => Request.getGameState
  | getRoomState => Request.getRoomState
  | getAllRooms => Request.getAllRooms
  | getLeaderboard => Request.getLeaderboard
  | updateRoom => Request.updateRoom
  | checkUsername => Request.checkUsername
  | subscribe => Request.subscribe

/-- The guess of a letter, which travels as a text of one character. -/
def Request.guess (player room password : String) (letter : Char) : Request.guessLetter.El :=
  (player, room, password, String.singleton letter, ())

end Gallows
