import Gallows.Document.OfNode
import Gallows.Protocol.Error

/-!
What a server announces without being asked. An event travels as a document under the tag of its
kind; on its own it is written with the name of its variant as a member. Tags, decoders and variants
are each a table to themselves.
-/
namespace Gallows
open Document

/-- An event. -/
inductive Event
  /-- The host started the game. -/
  | gameStarted (category difficulty : String)
  /-- A player entered the room. -/
  | playerJoined (username : String)
  /-- A player left the room. -/
  | playerLeft (username : String)
  /-- The settings of the room changed. -/
  | roomUpdated (room : String)
  /-- The owner deleted the room. -/
  | roomDeleted (room : String)
deriving DecidableEq, Repr

namespace Event

/-- The kinds of events. -/
inductive Kind
  | gameStarted
  | playerJoined
  | playerLeft
  | roomUpdated
  | roomDeleted
deriving DecidableEq, Repr

namespace Kind

/-- Every kind. -/
def all : List Kind := [gameStarted, playerJoined, playerLeft, roomUpdated, roomDeleted]

/-- The tag of a kind. -/
def tag : Kind → String
  | gameStarted => "GameStarted"
  | playerJoined => "PlayerJoined"
  | playerLeft => "PlayerLeft"
  | roomUpdated => "RoomUpdated"
  | roomDeleted => "RoomDeleted"

/-- The kind with this very tag. -/
def ofTag? (t : String) : Option Kind := all.find? (·.tag = t)

end Kind

/-- The kind of an event. -/
def kind : Event → Kind
  | gameStarted .. => .gameStarted
  | playerJoined .. => .playerJoined
  | playerLeft .. => .playerLeft
  | roomUpdated .. => .roomUpdated
  | roomDeleted .. => .roomDeleted

/-- The document of an event of one kind: what it is called in messages, and its members. -/
structure Record where
  name : String
  members : List String

namespace Record

/-- The members, all of them required texts. -/
def fields (r : Record) : Fields := .of .refused (r.members.map fun member => (member, .text)) .nil

/-- The shape of the document. -/
def shape (r : Record) : Shape := .record r.name r.fields

def gameStarted : Record := ⟨"GameStarted", ["category", "difficulty"]⟩

def playerJoined : Record := ⟨"PlayerJoined", ["username"]⟩

def playerLeft : Record := ⟨"PlayerLeft", ["username"]⟩

def roomUpdated : Record := ⟨"RoomUpdated", ["room_id"]⟩

def roomDeleted : Record := ⟨"RoomDeleted", ["room_id"]⟩

end Record

/-! Each event is made of its document. -/

def ofGameStarted : Record.gameStarted.shape.El → Event
  | (category, difficulty, ()) => .gameStarted category difficulty

def ofPlayerJoined : Record.playerJoined.shape.El → Event
  | (username, ()) => .playerJoined username

def ofPlayerLeft : Record.playerLeft.shape.El → Event
  | (username, ()) => .playerLeft username

def ofRoomUpdated : Record.roomUpdated.shape.El → Event
  | (room, ()) => .roomUpdated room

def ofRoomDeleted : Record.roomDeleted.shape.El → Event
  | (room, ()) => .roomDeleted room

/-- What the document of an event looks like. -/
def record : Event → Record
  | gameStarted .. => .gameStarted
  | playerJoined .. => .playerJoined
  | playerLeft .. => .playerLeft
  | roomUpdated .. => .roomUpdated
  | roomDeleted .. => .roomDeleted

/-- The document of an event. -/
def document : (e : Event) → e.record.shape.El
  | gameStarted category difficulty => (category, difficulty, ())
  | playerJoined username => (username, ())
  | playerLeft username => (username, ())
  | roomUpdated room => (room, ())
  | roomDeleted room => (room, ())

/-- The payload that carries the document of an event. -/
def payload (e : Event) : ByteArray := e.record.shape.toPayload e.document

/-- The room that an event is about, if it names one. -/
def room? : Event → Option String
  | roomUpdated room | roomDeleted room => some room
  | _ => none

/-- The player that an event is about, if it names one. -/
def player? : Event → Option String
  | playerJoined username | playerLeft username => some username
  | _ => none

/-- What makes an event of a payload. -/
abbrev Decoder : Type := ByteArray → Except ProtocolError Event

/-- Makes an event of the document that a payload carries. -/
def decoder (r : Record) (make : r.shape.El → Event) : Decoder := fun payload =>
  match r.shape.ofPayload payload with
  | .ok document => .ok (make document)
  | .error e => .error (.document e)

/-- The decoders, each beside the kind that it is for. -/
def decoders : List (Kind × Decoder) :=
  [(.gameStarted, decoder .gameStarted ofGameStarted),
    (.playerJoined, decoder .playerJoined ofPlayerJoined),
    (.playerLeft, decoder .playerLeft ofPlayerLeft),
    (.roomUpdated, decoder .roomUpdated ofRoomUpdated),
    (.roomDeleted, decoder .roomDeleted ofRoomDeleted)]

/-- The event with this tag whose document a payload carries. -/
def decode (tag : String) (payload : ByteArray) : Except ProtocolError Event :=
  match Kind.ofTag? tag with
  | none => .error (.unknownEvent tag)
  | some kind =>
    match decoders.find? (·.1 = kind) with
    | none => .error (.unknownEvent tag)
    | some (_, decode) => decode payload

/-! An event on its own is named by its variant, which has a table of names to itself. -/

/-- The member that holds the name of the variant when an event is written on its own. -/
def tagName : String := "type"

/-- The name of the variant that an event is written under. -/
def variantName : Event → String
  | gameStarted .. => "GameStarted"
  | playerJoined .. => "PlayerJoined"
  | playerLeft .. => "PlayerLeft"
  | roomUpdated .. => "RoomUpdated"
  | roomDeleted .. => "RoomDeleted"

/-- An event on its own: an object with the name of the variant first. -/
def toJson (e : Event) : Json.Value :=
  .object ((tagName, .text e.variantName) :: e.record.fields.toMembers e.document)

/-- An event on its own, as a text. -/
def write (e : Event) : String := e.toJson.compact

/-- What an event on its own is called in messages. -/
def taggedForm : String := "internally tagged enum GameEvent"

/-- A variant that an event on its own is read as. -/
structure Variant where
  name : String
  record : Record
  make : record.shape.El → Event

namespace Variant

/-- Every variant. -/
def all : List Variant :=
  [⟨"GameStarted", .gameStarted, ofGameStarted⟩, ⟨"PlayerJoined", .playerJoined, ofPlayerJoined⟩,
    ⟨"PlayerLeft", .playerLeft, ofPlayerLeft⟩, ⟨"RoomUpdated", .roomUpdated, ofRoomUpdated⟩,
    ⟨"RoomDeleted", .roomDeleted, ofRoomDeleted⟩]

/-- The variant with this very name. -/
def ofName? (name : String) : Option Variant := all.find? (·.name = name)

/-- The event of a variant that `node` holds. -/
def ofNode (v : Variant) (node : Json.Node) : Except Json.Error Event :=
  match v.record.shape.ofNode node with
  | .ok document => .ok (v.make document)
  | .error e => .error (.mismatch e)

end Variant

/-- The name of a variant. -/
def readVariant : Json.Read Variant := fun l bs => do
  let (name, bs) ← Json.readText "variant identifier" l bs
  match Variant.ofName? name with
  | some v => return (v, bs)
  | none => throw (.mismatch (.variant name (Variant.all.map Variant.name)))

/-- Takes in one member of an event on its own: the name of its variant, or a value that is kept
until the variant is known. -/
def readMember (l : Json.Limits) (key : String) (s : Option Variant × List (String × Json.Node)) :
    Json.Scan (Option Variant × List (String × Json.Node)) := fun bs => do
  if key = tagName then
    if s.1.isSome then throw (.mismatch (.duplicate tagName))
    let (v, bs) ← readVariant l (← Json.scanColon bs)
    return ((some v, s.2), bs)
  else
    let (value, bs) ← Json.readAny l (← Json.scanColon bs)
    return ((s.1, (key, value) :: s.2), bs)

/-- An event on its own: an object with the variant anywhere, or a list with the variant first. -/
def read : Json.Read Event := fun l bs =>
  match Json.dropBlank bs with
  | 91 :: bs => do
    let inner ← l.enter
    let (more, bs) ← Json.scanNextItem true bs
    if !more then throw (.mismatch (.missing tagName))
    let (v, bs) ← readVariant inner bs
    let (items, bs) ← Json.readItems (Json.readAny inner) (l.size + 1) false [] bs
    let bs ← Json.scanListEnd bs
    return (← v.ofNode (.list items.reverse), bs)
  | 123 :: bs => do
    let inner ← l.enter
    let ((v?, members), bs) ←
      Json.readMembers l.size (readMember inner) (l.size + 1) true (none, []) bs
    let some v := v? | throw (.mismatch (.missing tagName))
    let bs ← Json.scanObjectEnd bs
    return (← v.ofNode (.object members.reverse), bs)
  | bs => .error (Json.unfit l taggedForm bs)

/-- The event that a text holds on its own. -/
def ofBytes (bs : List UInt8) : Except Json.Error Event := Json.readWhole read bs

end Event
end Gallows
