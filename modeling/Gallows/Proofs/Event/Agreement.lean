import Gallows.Proofs.Document.Requests
import Gallows.Proofs.Event.Line

/-!
The two forms of an event: the document under the tag of its kind, and the event on its own with the
name of its variant among its members. Tags, decoders and variants come from three tables, and each
entry of one has its like in the others: both forms stand for the same event, and no other tag
stands for any.
-/
namespace Gallows.Event
open Document
open Json (utf8 textMembers)

variable {k : Kind} {t : String} {e : Event}

/-- The tags that there are. -/
def tags : List String :=
  ["GameStarted", "PlayerJoined", "PlayerLeft", "RoomUpdated", "RoomDeleted"]

theorem map_tag_all : Kind.all.map Kind.tag = tags := by
  decide

theorem map_name_all : Variant.all.map Variant.name = tags := by
  decide

theorem Kind.mem_all (k : Kind) : k ∈ Kind.all := by
  cases k <;> decide

theorem ofTag?_tag (k : Kind) : Kind.ofTag? k.tag = some k := by
  cases k <;> decide

theorem ofTag?_eq_some_iff : Kind.ofTag? t = some k ↔ k.tag = t := by
  constructor
  · intro h
    simpa using List.find?_some h
  · rintro rfl
    exact ofTag?_tag k

theorem mem_tags_iff : t ∈ tags ↔ ∃ k, Kind.ofTag? t = some k := by
  rw [← map_tag_all]
  constructor
  · intro h
    obtain ⟨k, -, htag⟩ := List.mem_map.mp h
    exact ⟨k, ofTag?_eq_some_iff.mpr htag⟩
  · rintro ⟨k, hk⟩
    exact List.mem_map.mpr ⟨k, k.mem_all, ofTag?_eq_some_iff.mp hk⟩

/-- What a decoder makes of a payload is made of its document. -/
theorem decoder_makes {r : Record} {make : r.shape.El → Event} (hmake : ∀ d, (make d).kind = k)
    (payload : ByteArray) :
    (∃ cause, decoder r make payload = .error (.document cause)) ∨
      ∃ e, decoder r make payload = .ok e ∧ e.kind = k := by
  cases hd : r.shape.ofPayload payload with
  | error cause =>
    left
    exact ⟨cause, by simp only [decoder, hd]⟩
  | ok document =>
    right
    exact ⟨make document, by simp only [decoder, hd], hmake document⟩

/-- Every kind has a decoder, which makes events of that kind. -/
theorem find?_decoders (k : Kind) :
    ∃ r make, decoders.find? (·.1 = k) = some (k, decoder r make) ∧ ∀ d, (make d).kind = k := by
  cases k
  · exact ⟨.gameStarted, ofGameStarted, rfl, fun _ => rfl⟩
  · exact ⟨.playerJoined, ofPlayerJoined, rfl, fun _ => rfl⟩
  · exact ⟨.playerLeft, ofPlayerLeft, rfl, fun _ => rfl⟩
  · exact ⟨.roomUpdated, ofRoomUpdated, rfl, fun _ => rfl⟩
  · exact ⟨.roomDeleted, ofRoomDeleted, rfl, fun _ => rfl⟩

/-- A payload under a tag of an event has an event of that kind, or is no such document. -/
theorem decode_known (h : Kind.ofTag? t = some k) (payload : ByteArray) :
    (∃ cause, decode t payload = .error (.document cause)) ∨
      ∃ e, decode t payload = .ok e ∧ e.kind = k := by
  obtain ⟨r, make, hfind, hmake⟩ := find?_decoders k
  simp only [decode, h, hfind]
  exact decoder_makes hmake payload

theorem decode_eq_unknownEvent_iff (payload : ByteArray) :
    decode t payload = .error (.unknownEvent t) ↔ t ∉ tags := by
  rw [mem_tags_iff]
  constructor
  · rintro h ⟨k, hk⟩
    rcases decode_known hk payload with ⟨cause, hcause⟩ | ⟨e, he, -⟩
    · rw [h] at hcause
      cases hcause
    · rw [h] at he
      cases he
  · intro h
    have hnone : Kind.ofTag? t = none := by
      cases hk : Kind.ofTag? t with
      | none => rfl
      | some k => exact absurd ⟨k, hk⟩ h
    rw [decode, hnone]

/-- Why a payload has no event: its tag is unknown, or it is no such document. -/
theorem cause_of_decode {payload : ByteArray} {cause : ProtocolError}
    (h : decode t payload = .error cause) :
    cause = .unknownEvent t ∨ ∃ e, cause = .document e := by
  cases hk : Kind.ofTag? t with
  | none =>
    rw [decode, hk] at h
    cases h
    exact .inl rfl
  | some k =>
    right
    rcases decode_known hk payload with ⟨e, he⟩ | ⟨e, he, -⟩
    · rw [h] at he
      cases he
      exact ⟨e, rfl⟩
    · rw [h] at he
      cases he

/-- The decoder of an event's kind reads the document of that event. -/
theorem find?_decoders_kind (e : Event) :
    ∃ make, decoders.find? (·.1 = e.kind) = some (e.kind, decoder e.record make) ∧
      make e.document = e := by
  cases e
  · exact ⟨ofGameStarted, rfl, rfl⟩
  · exact ⟨ofPlayerJoined, rfl, rfl⟩
  · exact ⟨ofPlayerLeft, rfl, rfl⟩
  · exact ⟨ofRoomUpdated, rfl, rfl⟩
  · exact ⟨ofRoomDeleted, rfl, rfl⟩

theorem isSound_record (e : Event) :
    e.record.shape.isSound ∧ e.record.shape.height < Json.depthLimit := by
  have hsound : ∀ r ∈ [Record.gameStarted, .playerJoined, .playerLeft, .roomUpdated, .roomDeleted],
      r.shape.isSound ∧ r.shape.height < Json.depthLimit := by decide
  exact hsound e.record (by cases e <;> simp [record])

/-- The document of an event is read as the event under the tag of its kind. -/
theorem decode_payload (e : Event) : decode e.kind.tag e.payload = .ok e := by
  obtain ⟨make, hfind, hmake⟩ := find?_decoders_kind e
  have hpayload : e.record.shape.ofPayload e.payload = .ok e.document :=
    ofPayload_toPayload (isSound_record e).1 (isSound_record e).2 e.document
  simp only [decode, ofTag?_tag, hfind, decoder, hpayload, hmake]

theorem size_payload_pos (e : Event) : 0 < e.payload.size := by
  have hpayload : e.payload =
      (Json.Value.object (e.record.fields.toMembers e.document)).compact.toUTF8 := rfl
  have hbrace : 0 < "\x7b".utf8ByteSize := by decide
  rw [hpayload, Json.Value.compact]
  simp [String.toUTF8, hbrace]

/-- An event is written under the tag of its kind. -/
theorem variantName_eq (e : Event) : e.variantName = e.kind.tag := by
  cases e <;> rfl

theorem ofName?_eq_none_iff : Variant.ofName? t = none ↔ t ∉ tags := by
  rw [← map_name_all, Variant.ofName?, List.find?_eq_none]
  simp

/-- What is read under the name of a variant is of the kind with that tag. -/
theorem tag_of_ofNode {v : Variant} {node : Json.Node} (hv : Variant.ofName? t = some v)
    (h : v.ofNode node = .ok e) : e.kind.tag = t := by
  have hname : v.name = t := by simpa using List.find?_some hv
  have hmake : ∀ v ∈ Variant.all, ∀ d, (v.make d).kind.tag = v.name := by
    simp only [Variant.all, List.forall_mem_cons]
    exact ⟨fun _ => rfl, fun _ => rfl, fun _ => rfl, fun _ => rfl, fun _ => rfl, by simp⟩
  rw [Variant.ofNode] at h
  split at h
  · cases h
    rw [hmake v (List.mem_of_find?_eq_some hv), hname]
  · cases h

/-- An event on its own may have its members in any order. -/
theorem ofBytes_reordered {ms : List (String × Json.Value)}
    (h : ms.Perm (textMembers ((tagName, e.variantName) :: e.told))) :
    ofBytes (utf8 (Json.Value.object ms).compact) = .ok e := by
  have hcomp : Relation.Comp (· = List.map (fun m => (m.1, Json.Value.text m.2)) ·) List.Perm ms
      ((tagName, e.variantName) :: e.told) := by
    rw [List.eq_map_comp_perm]
    exact h
  obtain ⟨texts, rfl, htexts⟩ := hcomp
  exact ofBytes_texts htexts

/-- Exactly the tags are known. A payload under one of them gives an event of the kind with that tag
if it gives any, and so does whatever is read on its own under one. Every event is read from its
document under the tag of its kind, and on its own from the object that is written of it, which has
that tag first, however the members are reordered. -/
theorem forms_agree :
    (∀ (t : String) (payload : ByteArray),
      (decode t payload = .error (.unknownEvent t) ↔ t ∉ tags) ∧
      (t ∈ tags →
        (∃ cause, decode t payload = .error (.document cause)) ∨
          ∃ e, decode t payload = .ok e ∧ e.kind.tag = t)) ∧
    (∀ t : String,
      (Variant.ofName? t = none ↔ t ∉ tags) ∧
      ∀ v node e, Variant.ofName? t = some v → v.ofNode node = .ok e → e.kind.tag = t) ∧
    ∀ e : Event,
      decode e.kind.tag e.payload = .ok e ∧
      ∃ members,
        e.write = (Json.Value.object ((tagName, .text e.kind.tag) :: members)).compact ∧
        (∀ m ∈ members, m.1 ≠ tagName) ∧
        ∀ ms, ms.Perm ((tagName, .text e.kind.tag) :: members) →
          ofBytes (utf8 (Json.Value.object ms).compact) = .ok e := by
  refine ⟨fun t payload => ⟨decode_eq_unknownEvent_iff payload, ?_⟩,
    fun t => ⟨ofName?_eq_none_iff, fun v node e => tag_of_ofNode⟩, fun e =>
    ⟨decode_payload e, textMembers e.told, ?_⟩⟩
  · intro ht
    obtain ⟨k, hk⟩ := mem_tags_iff.mp ht
    rcases decode_known hk payload with hfailed | ⟨e, he, rfl⟩
    · exact .inl hfailed
    · exact .inr ⟨e, he, ofTag?_eq_some_iff.mp hk⟩
  · rw [← variantName_eq]
    refine ⟨?_, ?_, fun ms h => ofBytes_reordered h⟩
    · rw [write, toJson_eq]
      rfl
    · intro m hm
      obtain ⟨text, htext, rfl⟩ := List.mem_map.mp hm
      exact e.told_ne_tagName text htext

end Gallows.Event
