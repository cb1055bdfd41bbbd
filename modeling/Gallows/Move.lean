import Gallows.Caller
import Gallows.Protocol.Request

/-!
What a player can ask of the server, and the requests for it.
-/
namespace Gallows
open Document

/-- What of a room is to change; what is not given stays. -/
structure RoomChanges where
  category : Option String := none
  difficulty : Option String := none
  newPassword : Option String := none
deriving DecidableEq, Repr

/-- What a player asks of the server. -/
inductive Move
  | createRoom (room password category difficulty : String)
  | joinRoom (room password : String)
  | startGame (room password : String)
  | leaveRoom (room password : String)
  | deleteRoom (room password : String)
  | guess (room password : String) (letter : Char)
  | gameState (room : String)
  | roomState (room password : String)
  | rooms
  | leaderboard
  | updateRoom (room password : String) (changes : RoomChanges)
  | checkUsername (username : String)
deriving DecidableEq, Repr

namespace Move

/-- The command that asks for a move. -/
def command : Move → Command
  | createRoom .. => .createRoom
  | joinRoom .. => .joinRoom
  | startGame .. => .startGame
  | leaveRoom .. => .leaveRoom
  | deleteRoom .. => .deleteRoom
  | guess .. => .guessLetter
  | gameState .. => .getGameState
  | roomState .. => .getRoomState
  | rooms => .getAllRooms
  | leaderboard => .getLeaderboard
  | updateRoom .. => .updateRoom
  | checkUsername .. => .checkUsername

/-- The document that asks for a move of a player. -/
def document (player : String) : (m : Move) → m.command.request.El
  | createRoom room password category difficulty =>
    (player, room, password, category, difficulty, ())
  | joinRoom room password => (player, room, password, ())
  | startGame room password => (player, room, password, ())
  | leaveRoom room password => (player, room, password, ())
  | deleteRoom room password => (player, room, password, ())
  | guess room password letter => Request.guess player room password letter
  | gameState room => (player, room, ())
  | roomState room password => (room, password, ())
  | rooms => ()
  | leaderboard => ()
  | updateRoom room password changes =>
    (player, room, password, changes.category, changes.difficulty, changes.newPassword, ())
  | checkUsername username => (username, ())

/-- The payload that asks for a move of a player. The lists of rooms and of scores are asked for
without a document. -/
def payload (player : String) (m : Move) : ByteArray :=
  match m with
  | rooms | leaderboard => Request.noDocument
  | m => m.command.request.toPayload (m.document player)

/-- The shape of the document in the reply. -/
def reply : Move → Shape
  | createRoom .. => Reply.createRoom
  | joinRoom .. => Reply.joinRoom
  | startGame .. => Reply.startGame
  | leaveRoom .. => Reply.leaveRoom
  | deleteRoom .. => Reply.deleteRoom
  | guess .. => Reply.guessLetter
  | gameState .. => Reply.gameState
  | roomState .. => Reply.roomState
  | rooms => Reply.allRooms
  | leaderboard => Reply.leaderboard
  | updateRoom .. => Reply.updateRoom
  | checkUsername .. => Reply.checkUsername

end Move

/-- A player at a channel for requests. -/
structure Player where
  caller : Caller
  username : String

namespace Player

/-- Makes a move and gives the document of the reply. -/
def perform (p : Player) (m : Move) (deadline : Nat) (net : Network) :
    Outcome m.reply.El × Player × Network :=
  let (r, caller, net) := p.caller.call m.command (m.payload p.username) m.reply deadline net
  (r, { p with caller }, net)

end Player
end Gallows
