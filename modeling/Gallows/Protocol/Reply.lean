import Gallows.Document.Reader
import Gallows.Protocol.Command

/-!
The documents that replies carry. A member that a server leaves out has its default.
-/
namespace Gallows
open Document

namespace Reply

/-- A record whose members may all be left out. -/
def record (name : String) (members : List (String × Shape)) : Shape :=
  .record name (.of .defaulted members .nil)

/-- A player and their score. -/
def playerScore : Shape := record "PlayerScore" [("username", .text), ("score", .int .int64)]

def createRoom : Shape := record "CreateRoomResponse" [("message", .text), ("room_id", .text)]

def joinRoom : Shape :=
  record "JoinRoomResponse"
    [("id", .text), ("owner", .text), ("players", .list playerScore),
      ("last_activity", .optional .moment), ("max_players", .int .uint32), ("password", .text),
      ("category", .text), ("difficulty", .text), ("state", .text)]

def startGame : Shape := record "StartGameResponse" [("message", .text)]

def leaveRoom : Shape := record "LeaveRoomResponse" [("message", .text), ("room_id", .text)]

def deleteRoom : Shape := record "DeleteRoomResponse" [("success", .flag), ("message", .text)]

def guessLetter : Shape :=
  record "GuessLetterResponse"
    [("player_username", .text), ("is_correct", .flag), ("game_over", .flag), ("feedback", .text)]

/-- What a player has found of the word. -/
def playerGameState : Shape :=
  record "PlayerGameState"
    [("word_progress", .text), ("attempts_left", .int .int32), ("is_game_over", .flag),
      ("score", .int .int64)]

def gameState : Shape := record "GameStateResponse" [("players", .table playerGameState)]

/-- A member of a room. -/
def roomPlayer : Shape :=
  record "RoomPlayer" [("username", .text), ("score", .int .int64), ("is_connected", .flag)]

def roomState : Shape :=
  record "RoomStateResponse" [("owner", .text), ("state", .text), ("players", .list roomPlayer)]

/-- An entry of the list of rooms. -/
def roomSummary : Shape :=
  record "RoomSummary"
    [("id", .text), ("owner", .text), ("players_count", .int .uint32),
      ("max_players", .int .uint32), ("last_activity", .optional .moment)]

def allRooms : Shape := record "AllRoomsResponse" [("rooms", .list roomSummary)]

def leaderboard : Shape := record "LeaderboardResponse" [("players", .list playerScore)]

def updateRoom : Shape := record "UpdateRoomResponse" [("message", .text), ("room_id", .text)]

def checkUsername : Shape := record "CheckUsernameResponse" [("is_unique", .flag)]

/-- Every shape that a reply, or a part of one, can have. -/
def all : List Shape :=
  [createRoom, playerScore, joinRoom, startGame, leaveRoom, deleteRoom, guessLetter,
    playerGameState, gameState, roomPlayer, roomState, roomSummary, allRooms, leaderboard,
    updateRoom, checkUsername]

end Reply

/-- The shape of the document in the reply to a command, if there is a reply. -/
def Command.reply? : Command → Option Shape
  | createRoom => some Reply.createRoom
  | joinRoom => some Reply.joinRoom
  | startGame => some Reply.startGame
  | leaveRoom => some Reply.leaveRoom
  | deleteRoom => some Reply.deleteRoom
  | guessLetter => some Reply.guessLetter
  | getGameState => some Reply.gameState
  | getRoomState => some Reply.roomState
  | getAllRooms => some Reply.allRooms
  | getLeaderboard => some Reply.leaderboard
  | updateRoom => some Reply.updateRoom
  | checkUsername => some Reply.checkUsername
  | subscribe => none

end Gallows
