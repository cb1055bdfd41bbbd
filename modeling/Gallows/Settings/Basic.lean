/-!
The settings of the client: how to reach the server, and who plays.
-/
namespace Gallows

namespace Settings

/-- How to reach the server, and how long to wait for it. -/
structure Server where
  /-- A host name or an address. -/
  address : String := "127.0.0.1"
  /-- The port that takes requests. -/
  gamePort : UInt16 := 8001
  /-- The port that sends events. -/
  notificationPort : UInt16 := 8002
  /-- How long a connection may take to come about, in seconds. -/
  connectTimeout : UInt64 := 5
  /-- How long one look for an event lasts, in milliseconds. -/
  readTimeout : UInt64 := 1000
  /-- How long a reply may take, in seconds. -/
  requestTimeout : UInt64 := 10
  /-- How long to pause between two looks for an event, in milliseconds. -/
  pollInterval : UInt64 := 100
  /-- Whether to ask for events on every new connection. -/
  subscribe : Bool := true
deriving DecidableEq, Repr

/-- Who plays. -/
structure Player where
  /-- The name in every request. -/
  username : Option String := none
  /-- The password of rooms, or a reference to where it is kept. -/
  password : Option String := none
deriving DecidableEq, Repr

end Settings

/-- The settings of the client. -/
structure Settings where
  server : Settings.Server := {}
  player : Settings.Player := {}
deriving DecidableEq, Repr

end Gallows
