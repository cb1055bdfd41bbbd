import Gallows.Proofs.Json.Texts
import Gallows.Protocol.Event

/-!
Events on their own. What is written of an event is one line, whatever characters the names in it
have, and reads back as that event.
-/
namespace Gallows

namespace Json

/-- What is written of a character breaks no line. -/
theorem newline_not_mem_written (c : Char) : (10 : UInt8) ∉ written c := by
  by_cases hshort : c ∈ ['"', '\\', '\n', '\r', '\t', '\x08', '\x0c']
  · simp only [List.mem_cons, List.not_mem_nil, or_false] at hshort
    rcases hshort with rfl | rfl | rfl | rfl | rfl | rfl | rfl <;> decide
  · simp only [List.mem_cons, List.not_mem_nil, or_false, not_or] at hshort
    obtain ⟨hquote, hslash, hline, hreturn, htab, hback, hfeed⟩ := hshort
    simp only [written, escapeChar, if_neg hquote, if_neg hslash, if_neg hline, if_neg hreturn,
      if_neg htab, if_neg hback, if_neg hfeed]
    by_cases hcontrol : c.toNat < 32
    · have hdigit : ∀ n, n < 16 → hexDigit n ≠ 10 := by decide
      rw [if_pos hcontrol, (utf8_control c.toNat hcontrol).1]
      have hhigh := hdigit (c.toNat / 16) (by omega)
      have hlow := hdigit (c.toNat % 16) (by omega)
      simp [hhigh.symm, hlow.symm]
    · have hne {d : Char} (h : c ≠ d) : c.toNat ≠ d.toNat := fun he => h (Char.toNat_inj.mp he)
      rw [if_neg hcontrol, utf8_singleton]
      intro hmem
      exact (plain_of_mem_utf8EncodeChar (Nat.le_of_not_lt hcontrol) (hne hquote) (hne hslash)
        10 hmem).2.2 (by decide)

theorem newline_not_mem_quote (s : String) : (10 : UInt8) ∉ utf8 (quote s) := by
  have hchars : (10 : UInt8) ∉ s.toList.flatMap written := by
    intro hmem
    obtain ⟨c, -, hc⟩ := List.mem_flatMap.mp hmem
    exact newline_not_mem_written c hc
  simp [utf8_quote, hchars]

theorem newline_not_mem_intercalate {parts : List String}
    (h : ∀ part ∈ parts, (10 : UInt8) ∉ utf8 part) :
    (10 : UInt8) ∉ utf8 (String.intercalate "," parts) := by
  induction parts with
  | nil => decide
  | cons part parts ih =>
    obtain ⟨hpart, hparts⟩ := List.forall_mem_cons.mp h
    cases parts with
    | nil => simpa using hpart
    | cons part' parts =>
      rw [String.intercalate_cons_cons, utf8_append, utf8_append, utf8_comma]
      simp [hpart, ih hparts]

/-- An object of texts breaks no line. -/
theorem newline_not_mem_object (texts : List (String × String)) :
    (10 : UInt8) ∉ utf8 (Value.object (textMembers texts)).compact := by
  have hmembers : ∀ part ∈ compactMembers (textMembers texts), (10 : UInt8) ∉ utf8 part := by
    induction texts with
    | nil => exact List.forall_mem_nil _
    | cons m texts ih =>
      refine List.forall_mem_cons.mpr ⟨?_, ih⟩
      simp [Value.compact, utf8_append, utf8_colon, newline_not_mem_quote]
  have hinner := newline_not_mem_intercalate hmembers
  simp [Value.compact, utf8_append, utf8_opening, utf8_closing, hinner]

/-- A newline among the characters is one among the bytes. -/
theorem newline_mem_utf8 {s : String} (h : '\n' ∈ s.toList) : (10 : UInt8) ∈ utf8 s := by
  rw [utf8_eq_flatMap]
  exact List.mem_flatMap.mpr ⟨'\n', h, by decide⟩

end Json

namespace Event

open Json (textMembers textNodes)

/-- The names that an event tells, each under the name of its member. -/
def told : Event → List (String × String)
  | gameStarted category difficulty => [("category", category), ("difficulty", difficulty)]
  | playerJoined username | playerLeft username => [("username", username)]
  | roomUpdated room | roomDeleted room => [("room_id", room)]

theorem toJson_eq (e : Event) :
    e.toJson = .object (textMembers ((tagName, e.variantName) :: e.told)) := by
  cases e <;> rfl

/-- What is written of an event has no newline in it. -/
theorem newline_not_mem_write (e : Event) : '\n' ∉ e.write.toList := by
  intro hmem
  have hbytes := Json.newline_mem_utf8 hmem
  rw [write, toJson_eq] at hbytes
  exact Json.newline_not_mem_object _ hbytes

theorem told_ne_tagName (e : Event) : ∀ m ∈ e.told, m.1 ≠ tagName := by
  cases e <;> simp [told, tagName]

/-- The name that an event is written under is that of a variant which makes the event of its names
again, in any order. -/
theorem ofName?_variantName (e : Event) :
    ∃ v, Variant.ofName? e.variantName = some v ∧
      ∀ texts, texts.Perm e.told → v.ofNode (.object (textNodes texts)) = .ok e := by
  cases e with
  | gameStarted category difficulty =>
    refine ⟨_, rfl, fun texts h => ?_⟩
    rcases List.perm_pair.mp h with rfl | rfl <;> rfl
  | _ =>
    refine ⟨_, rfl, fun texts h => ?_⟩
    obtain rfl := List.perm_singleton.mp h
    rfl

/-- Members beside the name of the variant are kept until all have been read. -/
theorem takes_kept {l : Json.Limits} (v? : Option Variant) {texts : List (String × String)}
    (htexts : ∀ m ∈ texts, m.1 ≠ tagName) (seen : List (String × Json.Node)) :
    Json.Takes l.size (readMember l) (Json.memberTrees (textMembers texts)) (v?, seen)
      (v?, (textNodes texts).reverse ++ seen) := by
  refine Json.takes_texts (l.depth - 1) (fun seen => (v?, seen)) ?_ seen
  intro m hm seen bs
  exact if_neg (htexts m hm)

theorem takes_name {l : Json.Limits} (hd : 0 < l.depth) {name : String} {v : Variant}
    (hv : Variant.ofName? name = some v) (seen : List (String × Json.Node)) :
    Json.Takes l.size (readMember l) [(.of tagName, (Json.Value.text name).tree)] (none, seen)
      (some v, seen) := by
  refine .cons (Json.spells_quote tagName) ?_ (.nil _)
  intro text t htext ht hsize
  obtain ⟨rest, hrest, hcolon, hlength⟩ := htext.colon t
  have hname : Json.readText "variant identifier" l (rest ++ t) = .ok (name, t) :=
    Json.accepts_text "variant identifier" (Json.spells_quote name) l rest t hd hrest ht
      (hlength.trans hsize)
  simp only [readMember, if_true, readVariant, hcolon, hname, hv, bind, Except.bind, pure,
    Except.pure]
  rfl

/-- The name of the variant may stand anywhere among the members. -/
theorem takes_event {l : Json.Limits} (hd : 0 < l.depth) {e : Event} {v : Variant}
    (hv : Variant.ofName? e.variantName = some v) {texts : List (String × String)}
    (h : texts.Perm ((tagName, e.variantName) :: e.told)) :
    ∃ names, names.Perm e.told ∧
      Json.Takes l.size (readMember l) (Json.memberTrees (textMembers texts)) (none, [])
        (some v, (textNodes names).reverse) := by
  obtain ⟨before, after, rfl⟩ := List.append_of_mem (h.symm.subset List.mem_cons_self)
  have hnames : (before ++ after).Perm e.told := (List.perm_middle.symm.trans h).cons_inv
  have htold : ∀ m ∈ before ++ after, m.1 ≠ tagName :=
    fun m hm => e.told_ne_tagName m (hnames.subset hm)
  rw [List.forall_mem_append] at htold
  refine ⟨_, hnames, ?_⟩
  have hbefore := takes_kept (l := l) none htold.1 []
  have hafter := takes_kept (l := l) (some v) htold.2 ((textNodes before).reverse ++ [])
  have htakes := hbefore.append ((takes_name hd hv _).append hafter)
  simpa [textMembers, textNodes, Json.memberTrees_eq] using htakes

/-- An event on its own reads back, in whatever order its members stand. -/
theorem ofBytes_texts {e : Event} {texts : List (String × String)}
    (h : texts.Perm ((tagName, e.variantName) :: e.told)) :
    ofBytes (Json.utf8 (Json.Value.object (textMembers texts)).compact) = .ok e := by
  obtain ⟨v, hv, hmakes⟩ := ofName?_variantName e
  have haccepts : Json.Accepts 1 read (Json.Value.object (textMembers texts)).tree e := by
    intro l text t hd htext _ hsize
    have hinner : 0 < ({ l with depth := l.depth - 1 } : Json.Limits).depth :=
      Nat.sub_pos_of_lt hd
    obtain ⟨names, hnames, htakes⟩ := takes_event hinner hv h
    obtain ⟨bs, hdrop, hmembers⟩ := htakes.readMembers htext hsize
    simp only [read, hdrop, Json.enter_of_lt hd, bind, Except.bind]
    rw [hmembers]
    simp only [Json.scanObjectEnd_close, List.reverse_reverse, hmakes names hnames, pure,
      Except.pure]
  exact haccepts.readWhole (by decide) (Json.Value.laidOut _)

/-- What is written of an event reads back as that event. -/
theorem ofBytes_write (e : Event) : ofBytes e.write.toUTF8.data.toList = .ok e := by
  have hbytes : e.write.toUTF8.data.toList = Json.utf8 e.toJson.compact := rfl
  rw [hbytes, toJson_eq]
  exact ofBytes_texts (List.Perm.refl _)

end Event
end Gallows
