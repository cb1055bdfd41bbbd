import Gallows.Move
import Gallows.Proofs.Channel.Deeds
import Gallows.Proofs.Channel.Outbound
import Gallows.Proofs.Document.Requests
import Gallows.Proofs.Json.Texts

/-!
What a move puts on the wire: the name of an operation, and the player's name with what the move is
about, each under a name of its own.
-/
namespace Gallows

open Document

namespace Channel

variable {net net' : Network} {c c' : Channel}

theorem readWithin_written (socket : Socket) (deadline fuel : Nat) (c : Channel) (net : Network) :
    (readWithin socket deadline fuel c net).2.2.written = net.written := by
  obtain ⟨deeds, a, hcourse, hreads, -⟩ := readWithin_course socket deadline fuel c net
  funext s
  rw [hcourse.written]
  · have hnone : deeds.flatMap (·.adds s) = [] := by
      apply List.flatMap_eq_nil_iff.mpr
      intro deed hd
      obtain ⟨r, rfl⟩ := hreads deed hd
      rfl
    rw [hnone, List.append_nil]
  · rintro deed hd ⟨bytes, fault, rfl⟩
    obtain ⟨r, he⟩ := hreads _ hd
    cases he

/-- Receiving writes nothing, whatever has been read before. -/
theorem receive_written (c : Channel) (deadline : Nat) (net : Network) :
    (c.receive deadline net).2.2.written = net.written := by
  have hensured := (ensured c deadline net).spares.written
  simp only [receive, read]
  generalize c.ensure deadline net = result at hensured ⊢
  obtain ⟨_ | ⟨f | socket⟩, c₁, net₁⟩ := result
  · exact hensured
  · exact hensured
  · have hread := readWithin_written socket deadline (net₁.weightOf socket + 1) c₁ net₁
    dsimp only at hensured ⊢
    generalize readWithin socket _ _ c₁ net₁ = result at hread ⊢
    obtain ⟨_ | ⟨f | e⟩, c₂, net₂⟩ := result
    · exact hread.trans hensured
    · dsimp only at hread ⊢
      rw [fail]
      split
      · exact hread.trans hensured
      · exact (spares_close c₂ net₂).written.trans (hread.trans hensured)
    · exact hread.trans hensured

end Channel

namespace Caller

/-- What a call writes is what sending its envelope writes. -/
theorem call_written (c : Caller) (command : Command) (payload : ByteArray) (reply : Shape)
    (deadline : Nat) (net : Network) :
    (c.call command payload reply deadline net).2.2.written =
      (c.channel.send ⟨command.wireName, payload⟩ deadline net).2.2.written := by
  simp only [call]
  generalize c.channel.send ⟨command.wireName, payload⟩ deadline net = result
  obtain ⟨_ | ⟨f | ⟨⟩⟩, c₁, net₁⟩ := result
  · rfl
  · rfl
  · dsimp only
    have hreceive := c₁.receive_written (min (net₁.now + c.requestTimeout) deadline) net₁
    generalize c₁.receive _ net₁ = result at hreceive ⊢
    obtain ⟨_ | ⟨f | e⟩, c₂, net₂⟩ := result
    · dsimp only
      split
      · exact (Channel.spares_close c₂ net₂).written.trans hreceive
      · exact hreceive
    · exact hreceive
    · exact hreceive

end Caller

namespace Move

/-- A member that is there if it is given. -/
def given (name : String) (v : Option String) : List (String × String) :=
  (v.map fun v => (name, v)).toList

/-- The operation that a move asks for, by its name on the wire. -/
def operation : Move → String
  | createRoom .. => "CREATE_ROOM"
  | joinRoom .. => "JOIN_ROOM"
  | startGame .. => "START_GAME"
  | leaveRoom .. => "LEAVE_ROOM"
  | deleteRoom .. => "DELETE_ROOM"
  | guess .. => "GUESS_LETTER"
  | gameState .. => "GET_GAME_STATE"
  | roomState .. => "GET_ROOM_STATE"
  | rooms => "GET_ALL_ROOMS"
  | leaderboard => "GET_LEADERBOARD"
  | updateRoom .. => "UPDATE_ROOM"
  | checkUsername .. => "CHECK_USERNAME"

/-- What a move tells the server. A letter is a text of that one character. -/
def told (player : String) : Move → List (String × String)
  | createRoom room password category difficulty =>
    [("player_username", player), ("room_id", room), ("password", password),
      ("category", category), ("difficulty", difficulty)]
  | joinRoom room password | startGame room password | leaveRoom room password
  | deleteRoom room password =>
    [("player_username", player), ("room_id", room), ("password", password)]
  | guess room password letter =>
    [("player_username", player), ("room_id", room), ("password", password),
      ("letter", String.singleton letter)]
  | gameState room => [("player_username", player), ("room_id", room)]
  | roomState room password => [("room_id", room), ("password", password)]
  | rooms | leaderboard => []
  | updateRoom room password changes =>
    [("player_username", player), ("room_id", room), ("password", password)] ++
      given "category" changes.category ++ given "difficulty" changes.difficulty ++
      given "new_password" changes.newPassword
  | checkUsername username => [("username", username)]

theorem wireName_command (m : Move) : m.command.wireName = m.operation := by
  cases m <;> rfl

theorem toJson_document (player : String) (m : Move) :
    m.command.request.toJson (m.document player) = .object (Json.textMembers (m.told player)) := by
  cases m with
  | updateRoom room password changes =>
    obtain ⟨category, difficulty, newPassword⟩ := changes
    cases category <;> cases difficulty <;> cases newPassword <;> rfl
  | _ => rfl

/-- A request without a document is the request with an empty one. -/
theorem payload_eq_toPayload (player : String) (m : Move) :
    m.payload player = m.command.request.toPayload (m.document player) := by
  cases m <;> rfl

/-- Whether an envelope asks for a move. -/
structure Asks (player : String) (m : Move) (e : Envelope.Client) : Prop where
  operation : e.command = m.operation
  /-- As a JSON text the document has the members that the move tells, and no more. -/
  members : Json.readWhole Json.readAny e.payload.data.toList =
    .ok (.object (Json.textNodes (m.told player)))
  /-- As a request of its kind it holds them, each in its own place. -/
  request : ∃ v, m.command.request.ofPayload e.payload = .ok v ∧
    m.command.request.toJson v = .object (Json.textMembers (m.told player))
  /-- It is what is written of that request. -/
  payload : e.payload = m.command.request.toPayload (m.document player)

theorem asks_payload (player : String) (m : Move) :
    m.Asks player ⟨m.command.wireName, m.payload player⟩ where
  operation := m.wireName_command
  members := by
    have hlaid := laidOut_toPayload m.command.request (m.document player)
    rw [toJson_document] at hlaid
    rw [payload_eq_toPayload]
    exact (Json.accepts_texts (m.told player)).readWhole (by decide) hlaid
  request := by
    refine ⟨m.document player, ?_, m.toJson_document player⟩
    rw [payload_eq_toPayload]
    exact ofPayload_toPayload_request m.command (m.document player)
  payload := m.payload_eq_toPayload player

end Move

namespace Player

/-- What has become of a frame that was to be written on a channel. -/
inductive Put {α : Type} (frame : ByteArray) (c : Channel) (deadline : Nat) (net : Network)
    (r : Outcome α) (net' : Network) : Prop
  /-- The channel has an open socket, which takes the frame. -/
  | whole (socket : Socket) (c₁ : Channel) (net₁ : Network)
      (opened : c.ensure deadline net = (some (.ok socket), c₁, net₁))
      (ok : (net₁.write socket frame).1 = .ok ())
      (written : net'.written =
        Function.update net.written socket (net.written socket ++ frame.data.toList))
  /-- It has an open socket, which breaks within the frame. -/
  | broken (socket : Socket) (c₁ : Channel) (net₁ : Network)
      (opened : c.ensure deadline net = (some (.ok socket), c₁, net₁)) (fault : Fault)
      (failed : (net₁.write socket frame).1 = .error fault)
      (answer : r = some (.error (.transport fault))) (part : List UInt8)
      (begins : part <+: frame.data.toList)
      (written : net'.written = Function.update net.written socket (net.written socket ++ part))
  /-- It has none, and gets none. -/
  | unopened (closed : ∀ socket, (c.ensure deadline net).1 ≠ some (.ok socket))
      (answer : ∀ v, r ≠ some (.ok v)) (written : net'.written = net.written)

variable {frame : ByteArray} {net : Network}

theorem call_put (c : Caller) (command : Command) (payload : ByteArray) (reply : Shape)
    (deadline : Nat)
    (he : Frame.encode (⟨command.wireName, payload⟩ : Envelope.Client) = .ok frame) :
    Put frame c.channel deadline net (c.call command payload reply deadline net).1
      (c.call command payload reply deadline net).2.2 := by
  have hwritten := c.call_written command payload reply deadline net
  have hensured := (Channel.ensured c.channel deadline net).spares.written
  cases hopened : c.channel.ensure deadline net with
  | mk r rest =>
    obtain ⟨c₁, net₁⟩ := rest
    rw [hopened] at hensured
    simp only [Channel.send, he, hopened] at hwritten
    rcases r with _ | ⟨f | socket⟩
    · refine .unopened (by simp [hopened]) ?_ (hwritten.trans hensured)
      simp [Caller.call, Channel.send, he, hopened]
    · refine .unopened (by simp [hopened]) ?_ (hwritten.trans hensured)
      simp [Caller.call, Channel.send, he, hopened]
    · obtain ⟨part, hpart, hw, hall⟩ := Network.written_write net₁ socket frame
      dsimp only at hwritten hensured
      cases hwrite : net₁.write socket frame with
      | mk result net₂ =>
        rw [hwrite] at hwritten hw hall
        cases result with
        | ok done =>
          refine .whole socket c₁ net₁ hopened (by rw [hwrite]) ?_
          rw [← hall rfl, ← hensured, ← hw]
          exact hwritten
        | error fault =>
          refine .broken socket c₁ net₁ hopened fault (by rw [hwrite]) ?_ part hpart ?_
          · simp [Caller.call, Channel.send, he, hopened, hwrite]
          · rw [← hensured, ← hw]
            exact hwritten.trans (Channel.spares_close c₁ net₂).written

/-- A move asks for itself, in one frame, and tells the player's name and its own arguments as they
are. If the frame would be too large, nothing is done. -/
theorem perform_asks (p : Player) (m : Move) (deadline : Nat) (net : Network) :
    ∃ e : Envelope.Client, m.Asks p.username e ∧
      match Frame.encode e with
      | .ok frame =>
        (Wire.Message.encode e).size ≤ Frame.sizeLimit ∧ Frame.decode frame = .ok e ∧
          Put frame p.caller.channel deadline net (p.perform m deadline net).1
            (p.perform m deadline net).2.2
      | .error fault =>
        Frame.sizeLimit < (Wire.Message.encode e).size ∧
          fault = .tooLarge (min (Wire.Message.encode e).size 0xffffffff) Frame.sizeLimit ∧
          p.perform m deadline net = (some (.error (.protocol (.frame fault))), p, net) := by
  refine ⟨⟨m.command.wireName, m.payload p.username⟩, m.asks_payload p.username, ?_⟩
  rcases Nat.lt_or_ge Frame.sizeLimit
    (Wire.Message.encode (⟨m.command.wireName, m.payload p.username⟩ : Envelope.Client)).size
    with hlarge | hfits
  · have he := Frame.encode_of_large hlarge
    rw [he]
    refine ⟨hlarge, rfl, ?_⟩
    simp only [perform, Caller.call, Channel.send, he]
  · obtain ⟨frame, he, -⟩ := Frame.encode_eq_ok hfits
    rw [he]
    exact ⟨hfits, Frame.decode_encode .client he, call_put _ _ _ _ _ he⟩

end Player
end Gallows
