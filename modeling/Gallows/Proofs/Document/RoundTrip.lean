import Gallows.Proofs.Document.Variation
import Gallows.Proofs.Json.Compact

/-!
What is written of a document is one of the texts that stand for it, and all of them are read as
that document.
-/
namespace Gallows.Document
open Json (Name Spells Tree memberTrees_eq itemTrees_eq spells_quote)

theorem eq_epoch (t : Time.Moment) (h : t.isEpoch) : t = Time.epoch := of_decide_eq_true h

mutual
/-- Only the default counts as one. -/
theorem Shape.eq_default : (s : Shape) → (v : s.El) → s.isDefault v → v = s.default
  | .text, v, h => by
    simp only [Shape.isDefault] at h
    exact String.isEmpty_iff.mp h
  | .flag, v, h => by
    simp only [Shape.isDefault] at h
    exact (Bool.not_eq_true' v).mp h
  | .int width, v, h => by
    simp only [Shape.isDefault] at h
    exact Subtype.ext (of_decide_eq_true h)
  | .moment, v, h => by
    simp only [Shape.isDefault] at h
    exact eq_epoch v h
  | .optional value, v, h => by
    simp only [Shape.isDefault] at h
    exact Option.isNone_iff_eq_none.mp h
  | .list item, v, h => by
    simp only [Shape.isDefault] at h
    exact List.isEmpty_iff.mp h
  | .table value, v, h => by
    simp only [Shape.isDefault] at h
    obtain ⟨entries, hsorted⟩ := v
    obtain rfl : entries = [] := List.isEmpty_iff.mp h
    rfl
  | .record name fields, v, h => by
    simp only [Shape.isDefault] at h
    exact fields.eq_default v h

theorem Fields.eq_default : (fs : Fields) → (v : fs.El) → fs.isDefault v → v = fs.default
  | .nil, _, _ => rfl
  | .cons name value absence rest, v, h => by
    simp only [Fields.isDefault, Bool.and_eq_true] at h
    exact Prod.ext (value.eq_default v.1 h.1) (rest.eq_default v.2 h.2)
end

/-- A member as it is written. -/
def Member.of (m : String × Json.Value) : Member := (m.1, .of m.1, m.2.tree)

mutual
/-- What is written of a document stands for it. -/
theorem Shape.varies_toJson : (s : Shape) → (v : s.El) → s.Varies v (s.toJson v).tree
  | .text, v => by
    simp only [Shape.toJson, Json.Value.tree]
    exact ⟨.text v, rfl, spells_quote v⟩
  | .flag, v => by
    simp only [Shape.toJson, Json.Value.tree]
    rfl
  | .int width, v => by
    simp only [Shape.toJson, Json.Value.tree]
    rfl
  | .moment, v => by
    simp only [Shape.toJson, Json.Value.tree]
    exact ⟨.text (Time.Moment.text v), rfl, spells_quote _⟩
  | .optional value, none => by
    simp only [Shape.toJson, Json.Value.tree]
    rfl
  | .optional value, some v => by
    simp only [Shape.toJson]
    exact value.varies_toJson v
  | .list item, v => by
    simp only [Shape.toJson, Json.Value.tree, itemTrees_eq]
    have hitems (vs : List item.El) :
        List.Forall₂ item.Varies vs ((vs.map item.toJson).map Json.Value.tree) := by
      rw [List.map_map, List.forall₂_map_right_iff, List.forall₂_same]
      exact fun v _ => item.varies_toJson v
    exact ⟨_, rfl, hitems v⟩
  | .table value, v => by
    simp only [Shape.toJson, Json.Value.tree, memberTrees_eq]
    refine ⟨Table.entries v, _, rfl, .refl _, ?_⟩
    rw [List.map_map, List.forall₂_map_right_iff, List.forall₂_same]
    exact fun e _ => ⟨spells_quote e.1, value.varies_toJson e.2⟩
  | .record name fields, v => by
    simp only [Shape.toJson, Json.Value.tree, memberTrees_eq]
    refine ⟨_, (fields.toMembers v).map .of, [], rfl, ?_, ?_, fields.keeps_toMembers v,
      List.forall_mem_nil _⟩
    · rw [List.append_nil, List.map_map]
      exact .refl _
    · intro m hm
      rw [List.append_nil] at hm
      obtain ⟨member, -, rfl⟩ := List.mem_map.mp hm
      exact spells_quote member.1

theorem Fields.keeps_toMembers : (fs : Fields) → (v : fs.El) →
    fs.Keeps v ((fs.toMembers v).map .of)
  | .nil, _ => rfl
  | .cons name value absence rest, v => by
    simp only [Fields.toMembers]
    split
    · rename_i hdefault
      obtain ⟨rfl, hvalue⟩ : absence = .omitted ∧ value.isDefault v.1 := by
        simpa using hdefault
      exact .inl ⟨by decide, value.eq_default v.1 hvalue, rest.keeps_toMembers v.2⟩
    · exact .inr ⟨_, _, _, rfl, value.varies_toJson v.1, rest.keeps_toMembers v.2⟩
end

theorem not_isBlankByte_of_opens {b : UInt8} (h : Json.Opens b) : isBlankByte b = false := by
  obtain ⟨hblank, -, -, -⟩ := h.ne
  have hfeed : b ≠ 12 := by
    rintro rfl
    rcases h with (h | h | h | h | h | h) | h | h <;> cases h
  simp only [Json.isBlank, Bool.or_eq_false_iff, decide_eq_false_iff_not] at hblank
  simp [isBlankByte, hblank, hfeed]

/-- A payload that holds a value has more than blanks. -/
theorem not_all_isBlankByte {tree : Tree} {bs : List UInt8} (h : tree.LaidOut bs) :
    bs.all isBlankByte = false := by
  obtain ⟨text, blank, rfl, htext, -⟩ := h
  obtain ⟨b, token, tokens, htokens, hb⟩ := tree.opens
  rw [htokens] at htext
  obtain ⟨rest, -, hdrop, -⟩ := htext.first hb.ne.1 blank
  have hmem : b ∈ text ++ blank := by
    have hbehind : b ∈ Json.dropBlank (text ++ blank) := by
      rw [hdrop]
      exact List.mem_cons_self
    exact (List.dropWhile_sublist Json.isBlank).subset hbehind
  rw [List.all_eq_false]
  exact ⟨b, hmem, by simp [not_isBlankByte_of_opens hb]⟩

/-- A payload is read as the document that its value stands for. -/
theorem ofPayload_of_varies {s : Shape} (hs : s.isSound) (hheight : s.height < Json.depthLimit)
    {v : s.El} {tree : Tree} (h : s.Varies v tree) {payload : ByteArray}
    (hpayload : tree.LaidOut payload.data.toList) : s.ofPayload payload = .ok v := by
  rw [Shape.ofPayload, if_neg (by simp [not_all_isBlankByte hpayload])]
  exact (s.accepts hs v tree h).readWhole hheight hpayload

theorem laidOut_toPayload (s : Shape) (v : s.El) :
    (s.toJson v).tree.LaidOut (s.toPayload v).data.toList :=
  (s.toJson v).laidOut

end Gallows.Document
