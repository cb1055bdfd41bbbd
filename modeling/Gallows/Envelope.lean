import Gallows.Status
import Gallows.Wire.Message

/-!
The two messages of the protocol. A client sends a command with a document, a server answers, or
announces an event, with a status, a text and a document.
-/
namespace Gallows.Envelope
open Wire

/-- What a client sends. -/
structure Client where
  /-- The name of the command. -/
  command : String := ""
  /-- The request document. -/
  payload : ByteArray := .empty
deriving Inhabited

/-- What a server sends. -/
structure Server where
  /-- The number of the status. -/
  status : Int32 := 0
  /-- A text for the player, or the tag of an event. -/
  message : String := ""
  /-- The reply or event document. -/
  payload : ByteArray := .empty
deriving Inhabited

instance : Message Client where
  empty := {}
  merge? e key :=
    match key.number with
    | 1 => some (merging "ClientEnvelope" "command" (readText key) ({ e with command := · }))
    | 2 => some (merging "ClientEnvelope" "payload" (readBytes key) ({ e with payload := · }))
    | _ => none
  encode e := writeText 1 e.command ++ writeBytes 2 e.payload

instance : Message Server where
  empty := {}
  merge? e key :=
    match key.number with
    | 1 => some (merging "ServerEnvelope" "status_code" (readInt32 key) ({ e with status := · }))
    | 2 => some (merging "ServerEnvelope" "message" (readText key) ({ e with message := · }))
    | 3 => some (merging "ServerEnvelope" "payload" (readBytes key) ({ e with payload := · }))
    | _ => none
  encode e := writeInt32 1 e.status ++ writeText 2 e.message ++ writeBytes 3 e.payload

namespace Server

/-- The number of the status of a successful reply. -/
def successCode : Int32 := Status.success.code

/-- Whether the status is that of a successful reply. -/
def isSuccess (e : Server) : Bool := e.status = successCode

/-- Whether there is a document. -/
def hasPayload (e : Server) : Bool := e.payload.size ≠ 0

/-- Whether this is the envelope without fields, which stands for the absence of data. -/
def isEmpty (e : Server) : Bool := e.status = 0 && e.message.isEmpty && e.payload.size = 0

end Server
end Gallows.Envelope
