import Gallows.Proofs.Document.RoundTrip
import Gallows.Protocol.Request

/-!
The documents of requests. What is written of a request is read back as that request.
-/
namespace Gallows.Document
open Json (quote utf8 utf8_append)

/-- The payload that carries a document is read as that document. -/
theorem ofPayload_toPayload {s : Shape} (hs : s.isSound) (hheight : s.height < Json.depthLimit)
    (v : s.El) : s.ofPayload (s.toPayload v) = .ok v :=
  ofPayload_of_varies hs hheight (s.varies_toJson v) (laidOut_toPayload s v)

theorem isSound_request (command : Command) :
    command.request.isSound ∧ command.request.height < Json.depthLimit := by
  cases command <;> decide

/-- The payload that carries a request is read as that request. -/
theorem ofPayload_toPayload_request (command : Command) (v : command.request.El) :
    command.request.ofPayload (command.request.toPayload v) = .ok v := by
  obtain ⟨hsound, hheight⟩ := isSound_request command
  exact ofPayload_toPayload hsound hheight v

/-- The text of a record of one text. -/
theorem utf8_write_record (name member v : String) :
    utf8 ((Request.record name [member]).write (v, ())) =
      123 :: (utf8 (quote member) ++ 58 :: (utf8 (quote v) ++ [125])) := by
  have hwrite : (Request.record name [member]).write (v, ()) =
      "\x7b" ++ (quote member ++ ":" ++ quote v) ++ "\x7d" := rfl
  rw [hwrite]
  simp [utf8_append, Json.utf8_opening, Json.utf8_colon, Json.utf8_closing]

end Gallows.Document
