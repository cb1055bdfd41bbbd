import Gallows.Client
import Gallows.Invocation
import Gallows.Relay.Subscriber
import Gallows.Report
import Gallows.Settings.Check
import Gallows.Settings.Reader

/-!
The commands that need the server: one move and its reply, or the events as they come.
-/
namespace Gallows

/-- The move that a task asks for, with the password to play with. -/
def Task.move? (password : String) : Task → Option Move
  | .createRoom room category difficulty => some (.createRoom room password category difficulty)
  | .joinRoom room => some (.joinRoom room password)
  | .startGame room => some (.startGame room password)
  | .leaveRoom room => some (.leaveRoom room password)
  | .deleteRoom room => some (.deleteRoom room password)
  | .guess room letter => some (.guess room password letter)
  | .gameState room => some (.gameState room)
  | .roomState room => some (.roomState room password)
  | .rooms => some .rooms
  | .leaderboard => some .leaderboard
  | .updateRoom room category difficulty newPassword =>
    some (.updateRoom room password { category, difficulty, newPassword })
  | .checkUsername username => some (.checkUsername username)
  | .watch | .settings _ => none

/-- The line that shows an event. -/
def Event.line (e : Event) : String := e.write ++ "\n"

/-- What a watcher shows of what a relay hands on: the events, up to a failure, which ends it. -/
def Relay.show : List Relay.Item → Report
  | [] => {}
  | .error f :: _ => .failure f
  | .ok e :: items =>
    let report := Relay.show items
    { report with stdout := e.line ++ report.stdout }

namespace Client

/-- Makes a move and shows the document of the reply. -/
def showMove (c : Client) (m : Move) (deadline : Nat) (net : Network) : Report × Network :=
  match c.perform m deadline net with
  | (r, c, net) =>
    let (_, net) := c.close net
    match r with
    | none => ({ result := none }, net)
    | some (.error f) => (.failure f, net)
    | some (.ok document) => ({ stdout := (m.reply.toJson document).pretty ++ "\n" }, net)

/-- Shows the events of the feed, one a line, until the token fires or something fails. -/
def watch (c : Client) (token : Token) (deadline : Nat) (net : Network) : Report × Network :=
  let relay : Relay := { feed := c.feed }
  let (ended, items, relay, net) := relay.collect token deadline none net
  let report := Relay.show items
  let (_, net) := { c with feed := relay.feed }.close net
  (if ended.isSome then report else { report with result := none }, net)

end Client

/-- What is said of a command that is not for a player. -/
def Task.needless : Failure := .settings "config commands do not need a connection"

/-- Does a task as the player of the settings. -/
def Task.play (task : Task) (host : Host) (settings : Settings) (token : Token) (deadline : Nat)
    (net : Network) : Report × Network :=
  match settings.player.username, settings.player.resolvePassword host with
  | none, _ => (.failure (Settings.Error.noUsername (Settings.defaultPath host)).toFailure, net)
  | _, .error e => (.failure e.toFailure, net)
  | some username, .ok password =>
    match Client.connect settings.server.options username deadline net with
    | (none, net) => ({ result := none }, net)
    | (some (.error f), net) => (.failure f, net)
    | (some (.ok client), net) =>
      match task.move? (password.getD "") with
      | some move => client.showMove move deadline net
      | none =>
        match task with
        | .watch => client.watch token deadline net
        | _ =>
          let (_, net) := client.close net
          (.failure Task.needless, net)

end Gallows
