import Gallows.Json.Node
import Gallows.Proofs.Json.Compact

/-!
Objects of texts, where any value may stand.
-/
namespace Gallows.Json

variable {σ : Type} {depth size : Nat} {text t : List UInt8} {texts : List (String × String)}

/-- Members that are texts. -/
def textMembers (texts : List (String × String)) : List (String × Value) :=
  texts.map fun m => (m.1, .text m.2)

/-- Members that are texts, as they are read where any value may stand. -/
def textNodes (texts : List (String × String)) : List (String × Node) :=
  texts.map fun m => (m.1, .text m.2)

/-- A text where any value may stand. -/
theorem readNode_text (depth : Nat) {s : String} (htext : Laid (Tree.single (.text s)).tokens text)
    (hsize : (text ++ t).length ≤ size) : readNode size depth (text ++ t) = .ok (.text s, t) := by
  obtain ⟨bs, hbs⟩ : ∃ bs, utf8 (quote s) = 34 :: bs := ⟨_, utf8_quote s⟩
  obtain ⟨hdrop, hlength⟩ := htext.atom hbs t
  have hspells : Spells s (34 :: bs) := hbs ▸ spells_quote s
  have hscan : scanString size (bs ++ t) = .ok (s, t) := hspells.scanString (by
    simp only [List.length_append] at hsize ⊢
    omega)
  rw [readNode, hdrop]
  change (scanString size (bs ++ t) >>= fun read => pure (Node.text read.1, read.2)) = _
  rw [hscan]
  rfl

/-- A handler that puts the values of these members in front of those that it has seen. -/
theorem takes_texts (depth : Nat) {member : String → σ → Scan σ} (keep : List (String × Node) → σ)
    (hmember : ∀ m ∈ texts, ∀ seen bs, member m.1 (keep seen) bs = do
      let (value, bs) ← readNode size depth (← scanColon bs)
      return (keep ((m.1, value) :: seen), bs))
    (seen : List (String × Node)) :
    Takes size member (memberTrees (textMembers texts)) (keep seen)
      (keep ((textNodes texts).reverse ++ seen)) := by
  induction texts generalizing seen with
  | nil => exact .nil (keep seen)
  | cons m texts ih =>
    obtain ⟨hm, hmember⟩ := List.forall_mem_cons.mp hmember
    have hrest := ih hmember ((m.1, .text m.2) :: seen)
    simp only [textMembers, textNodes, List.map_cons, List.reverse_cons, List.append_assoc,
      memberTrees]
    refine .cons (spells_quote m.1) ?_ hrest
    intro text t htext _ hsize
    obtain ⟨rest, hrest, hcolon, hlength⟩ := htext.colon t
    have hvalue : readNode size depth (rest ++ t) = .ok (.text m.2, t) :=
      readNode_text depth hrest (hlength.trans hsize)
    rw [hm, hcolon]
    simp only [hvalue, bind, Except.bind, pure, Except.pure]

/-- An object of texts where any value may stand. -/
theorem accepts_texts (texts : List (String × String)) :
    Accepts 1 readAny (Value.object (textMembers texts)).tree (.object (textNodes texts)) := by
  intro l text t hd htext _ hsize
  obtain ⟨depth, hdepth⟩ : ∃ depth, l.depth - 1 = depth + 1 := ⟨l.depth - 2, by omega⟩
  have htakes : Takes l.size (fun key seen bs => do
      let (value, bs) ← readNode l.size depth (← scanColon bs)
      return ((key, value) :: seen, bs)) (memberTrees (textMembers texts)) []
        ((textNodes texts).reverse ++ []) :=
    takes_texts depth id (fun _ _ _ _ => rfl) []
  rw [List.append_nil] at htakes
  obtain ⟨bs, hdrop, hmembers⟩ := htakes.readMembers htext hsize
  rw [readAny, hdepth, readNode, hdrop]
  change (readMembers l.size _ (l.size + 1) true [] bs >>= fun read =>
    scanObjectEnd read.2 >>= fun rest => pure (Node.object read.1.reverse, rest)) = _
  rw [hmembers]
  change Except.ok (Node.object (textNodes texts).reverse.reverse, t) = _
  rw [List.reverse_reverse]

end Gallows.Json
