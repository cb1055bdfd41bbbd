import Gallows.Proofs.Document.RoundTrip
import Gallows.Protocol.Reply

/-!
The documents of replies. A reply is read back from what is written of it, and as well with its
members in another order, with members that nobody knows, without those that hold their default and
with blanks between its tokens. A payload without content is read as the default.
-/
namespace Gallows.Document
open Json (Tree)

/-- Whether every member may be left out. -/
def Fields.Lenient : Fields → Prop
  | .nil => True
  | .cons _ _ absence rest => absence ≠ .refused ∧ rest.Lenient

theorem lenient_of (members : List (String × Shape)) :
    (Fields.of .defaulted members .nil).Lenient := by
  induction members with
  | nil => trivial
  | cons member members ih => exact ⟨by decide, ih⟩

theorem Fields.keeps_default : (fs : Fields) → fs.Lenient → fs.Keeps fs.default []
  | .nil, _ => rfl
  | .cons _ _ _ rest, ⟨habsence, hrest⟩ => .inl ⟨habsence, rfl, rest.keeps_default hrest⟩

/-- The empty object stands for the record whose members all have their defaults. -/
theorem varies_empty (name : String) {fs : Fields} (h : fs.Lenient) :
    (Shape.record name fs).Varies fs.default (.object []) :=
  ⟨[], [], [], rfl, .nil, List.forall_mem_nil _, fs.keeps_default h, List.forall_mem_nil _⟩

end Gallows.Document

namespace Gallows.Reply
open Document
open Json (Tree)

variable {s : Shape}

theorem isSound_of_mem_all : ∀ s ∈ all, s.isSound ∧ s.height < Json.depthLimit := by
  decide

theorem eq_record_of_mem_all (h : s ∈ all) : ∃ name members, s = record name members := by
  simp only [all, List.mem_cons, List.not_mem_nil, or_false] at h
  rcases h with rfl | rfl | rfl | rfl | rfl | rfl | rfl | rfl | rfl | rfl | rfl | rfl | rfl | rfl |
    rfl | rfl <;> exact ⟨_, _, rfl⟩

/-- A reply whose payload has nothing but blanks has its default. -/
theorem ofPayload_of_blank (hs : s ∈ all) {payload : ByteArray}
    (h : payload.data.toList.all isBlankByte) : s.ofPayload payload = .ok s.default := by
  obtain ⟨hsound, hheight⟩ := isSound_of_mem_all s hs
  obtain ⟨name, members, rfl⟩ := eq_record_of_mem_all hs
  have hempty := varies_empty name (lenient_of members)
  have hlaid : (Tree.object []).LaidOut [123, 125] := (Json.Value.object []).laidOut
  rw [Shape.ofPayload, if_pos h]
  exact (Shape.accepts _ hsound _ _ hempty).readWhole hheight hlaid

/-- A reply is read from every payload that stands for it, among them what is written of it; a
payload of nothing but blanks stands for the default. -/
theorem ofPayload_tolerant (hs : s ∈ all) :
    (∀ (v : s.El) (tree : Tree) (payload : ByteArray), s.Varies v tree →
      tree.LaidOut payload.data.toList → s.ofPayload payload = .ok v) ∧
    (∀ v : s.El, s.Varies v (s.toJson v).tree ∧
      (s.toJson v).tree.LaidOut (s.toPayload v).data.toList ∧
      s.ofPayload (s.toPayload v) = .ok v) ∧
    ∀ payload : ByteArray, payload.data.toList.all isBlankByte →
      s.ofPayload payload = .ok s.default := by
  obtain ⟨hsound, hheight⟩ := isSound_of_mem_all s hs
  refine ⟨?_, ?_, fun payload h => ofPayload_of_blank hs h⟩
  · intro v tree payload h hpayload
    exact ofPayload_of_varies hsound hheight h hpayload
  · intro v
    have hvaries := s.varies_toJson v
    have hlaid := laidOut_toPayload s v
    exact ⟨hvaries, hlaid, ofPayload_of_varies hsound hheight hvaries hlaid⟩

/-- The members stand in the other order, with one among them that nobody knows. -/
theorem ofPayload_tolerant_deleteRoom :
    deleteRoom ∈ all ∧
      deleteRoom.ofPayload
        "\x7b \"message\" : \"gone\", \"more\" : [null] ,\"success\":true \x7d".toUTF8 =
          .ok (true, "gone", ()) := by
  have hall : deleteRoom ∈ all := by
    simp only [all, List.mem_cons, true_or, or_true]
  let message : String × Json.Value := ("message", .text "gone")
  let more : String × Json.Value := ("more", .list [.null])
  let success : String × Json.Value := ("success", .flag true)
  let tree : Tree := (Json.Value.object [message, more, success]).tree
  have hvaries : deleteRoom.Varies (true, "gone", ()) tree := by
    refine ⟨_, [.of success, .of message], [.of more], rfl, ?_, ?_, ?_, ?_⟩
    · have hperm : ([message, more] ++ [success]).Perm ([success] ++ [message, more]) :=
        List.perm_append_comm
      exact hperm.map fun m => (Member.of m).2
    · intro m hm
      have hmembers : m ∈ [success, message, more].map Member.of := hm
      obtain ⟨member, -, rfl⟩ := List.mem_map.mp hmembers
      exact Json.spells_quote member.1
    · exact .inr ⟨_, _, _, rfl, rfl, .inr ⟨_, _, _, rfl, ⟨_, rfl, Json.spells_quote _⟩, rfl⟩⟩
    · intro m hm
      obtain rfl := List.mem_singleton.mp hm
      decide
  have hblank : ∀ b ∈ ([32] : List UInt8), Json.isBlank b :=
    List.forall_mem_singleton.mpr rfl
  have hnone : ∀ b ∈ ([] : List UInt8), Json.isBlank b := List.forall_mem_nil _
  have hlaid : Json.Laid tree.tokens _ :=
    .cons [] hnone <| .cons [32] hblank <| .cons [32] hblank <| .cons [32] hblank <|
      .cons [] hnone <| .cons [32] hblank <| .cons [32] hblank <| .cons [32] hblank <|
      .cons [] hnone <| .cons [] hnone <| .cons [32] hblank <| .cons [] hnone <|
      .cons [] hnone <| .cons [] hnone <| .cons [32] hblank .nil
  refine ⟨hall, (ofPayload_tolerant hall).1 _ tree _ hvaries ⟨_, [], ?_, hlaid, hnone⟩⟩
  decide +kernel

end Gallows.Reply
