import Gallows.Play
import Gallows.Proofs.Feed.Tale
import Gallows.Proofs.Relay.Forwarding

/-!
A relay whose feed is told a tale. However far ahead of its subscriber it works, the items to come
stay the events of the tale and the failure at its end; and a subscriber that takes everything, and
waits for long enough, gets just these.
-/
namespace Gallows

namespace Relay

open Feed (At Tale Told Stage)

variable {server : Server} {f₀ : Feed} {r r' : Relay} {net net' : Network} {items : List Item}
  {item : Item} {deadline : Nat}

/-- What is still to come out of the feed of a relay. -/
inductive Owes (server : Server) (f₀ : Feed) (r : Relay) (net : Network) : List Item → Prop
  | running {stage : Stage} {n : Nat} {events : List Event} {failure : Failure}
      (ho : r.isOver = false) (hat : At server f₀ r.feed net stage n)
      (tale : Tale f₀ server stage n events failure) :
      Owes server f₀ r net (itemsOf events (some failure))
  | ended (ho : r.isOver = true) : Owes server f₀ r net []

/-- Whether these items are to come out of a relay: those that are queued and parked, and what its
feed owes. -/
structure Promises (server : Server) (f₀ : Feed) (r : Relay) (net : Network) (items : List Item) :
    Prop where
  items_eq : ∃ owed, Owes server f₀ r net owed ∧ r.queue ++ r.parked.toList ++ owed = items
  bounded : r.queue.length ≤ capacity

theorem Owes.of_same {owed : List Item} (h : Owes server f₀ r net owed) (hf : r'.feed = r.feed)
    (ho : r'.isOver = r.isOver) : Owes server f₀ r' net owed := by
  cases h with
  | running hover hat tale => exact .running (ho.trans hover) (hf ▸ hat) tale
  | ended hover => exact .ended (ho.trans hover)

/-- A look takes from what the feed owes. -/
theorem Owes.looked {owed : List Item} {feed : Feed} {result : Except Failure Feed.Found}
    (h : Owes server f₀ r net owed) (h0 : 0 < f₀.channel.readTimeout) (hp : r.parked = none)
    (hb : r.queue.length ≤ capacity) (ho : r.isOver = false)
    (hn : r.feed.next .never deadline net = (some result, feed, net')) :
    Promises server f₀ (r.afterLook feed result) net' (r.queue ++ owed) := by
  cases h with
  | ended hover => simp [ho] at hover
  | @running _ _ _ failure _ hat tale =>
    obtain ⟨result', feed', net'', hto, htold⟩ := tale.hears h0 hat
    obtain ⟨rfl, rfl, rfl⟩ := hto.unique hn
    cases htold with
    | @event e _ _ _ _ _ _ hat' tale' =>
      obtain ⟨hqueue, hbounded, hfeed, hover⟩ := offer_spec
        (r := { r with feed, isLooking := false }) hp hb (.ok e)
      refine ⟨⟨_, .running (hover.trans ho) (hfeed ▸ hat') tale', ?_⟩, hbounded⟩
      rw [afterLook, hqueue]
      simp [itemsOf]
    | failed =>
      obtain ⟨hqueue, hbounded, -, hover⟩ := offer_spec
        (r := { r with feed, isLooking := false, isOver := true }) hp hb (.error failure)
      refine ⟨⟨[], .ended hover, ?_⟩, hbounded⟩
      rw [afterLook, hqueue]
      simp [itemsOf]

/-- A step of the relay keeps what it promises. -/
theorem Promises.step (h : Promises server f₀ r net items) (h0 : 0 < f₀.channel.readTimeout)
    (hs : r.step? .never deadline net = some (r', net')) : Promises server f₀ r' net' items := by
  obtain ⟨⟨owed, howes, rfl⟩, hb⟩ := h
  have hsteps := step?_steps hs
  generalize r.look? .never deadline net = look at hsteps
  cases hsteps with
  | unparked item hp hroom =>
    refine ⟨⟨owed, howes.of_same rfl rfl, ?_⟩, ?_⟩
    · simp [hp]
    · rw [List.length_append]
      exact hroom
  | looked result hp ho hn =>
    simpa [hp] using howes.looked h0 hp hb ho hn

theorem Promises.run (h : Promises server f₀ r net items) (h0 : 0 < f₀.channel.readTimeout)
    (deadline fuel : Nat) :
    Promises server f₀ (r.run .never deadline fuel net).1 (r.run .never deadline fuel net).2
      items := by
  induction fuel generalizing r net with
  | zero => exact h
  | succ fuel ih =>
    simp only [Relay.run]
    cases hs : r.step? .never deadline net with
    | none =>
      obtain ⟨⟨owed, howes, hitems⟩, hb⟩ := h
      exact ⟨⟨owed, howes.of_same rfl rfl, hitems⟩, hb⟩
    | some result => exact ih (h.step h0 hs)

/-- The item that is taken is the first of those promised. -/
theorem Promises.take (h : Promises server f₀ r net items) {queue : List Item}
    (hq : r.queue = item :: queue) :
    ∃ rest, items = item :: rest ∧ Promises server f₀ { r with queue } net rest := by
  obtain ⟨⟨owed, howes, hitems⟩, hb⟩ := h
  rw [hq] at hitems hb
  refine ⟨queue ++ r.parked.toList ++ owed, hitems.symm, ?_⟩
  exact ⟨⟨owed, howes.of_same rfl rfl, rfl⟩, Nat.le_of_succ_le hb⟩

/-! A relay that has promised an item puts it into its queue, if it may look for long enough. -/

theorem queue_offer (r : Relay) (item : Item) : r.queue <+: (r.offer item).queue := by
  rw [offer]
  split
  · exact List.prefix_append _ _
  · exact List.prefix_refl _

theorem queue_afterLook (r : Relay) (feed : Feed) (result : Except Failure Feed.Found) :
    r.queue <+: (r.afterLook feed result).queue := by
  rcases result with failure | _ | _ | _
  · exact queue_offer { r with feed, isLooking := false, isOver := true } (.error failure)
  · exact queue_offer { r with feed, isLooking := false } _
  · exact List.prefix_refl _
  · exact List.prefix_refl _

/-- By itself a relay takes nothing out of its queue. -/
theorem queue_run (deadline fuel : Nat) (r : Relay) (net : Network) :
    r.queue <+: (r.run .never deadline fuel net).1.queue := by
  induction fuel generalizing r net with
  | zero => exact List.prefix_refl _
  | succ fuel ih =>
    simp only [Relay.run]
    cases hs : r.step? .never deadline net with
    | none => exact List.prefix_refl _
    | some result =>
      obtain ⟨r', net'⟩ := result
      have hstep : r.queue <+: r'.queue := by
        have hsteps := step?_steps hs
        generalize r.look? .never deadline net = look at hsteps
        cases hsteps with
        | unparked => exact List.prefix_append _ _
        | looked => exact queue_afterLook _ _ _
      exact hstep.trans (ih r' net')

/-- A relay that has more to hand on than is queued, and is not stuck, goes on if it is patient
enough. -/
theorem Promises.advance (h : Promises server f₀ r net items) (h0 : 0 < f₀.channel.readTimeout)
    (hmore : r.queue.length < items.length) (hs : ¬ r.IsStuck) :
    ∃ patience r' net',
      (r.queue.length < capacity ∧ r'.queue.length = r.queue.length + 1 ∨ r'.IsStuck) ∧
      ∀ deadline, patience ≤ deadline → r.step? .never deadline net = some (r', net') := by
  obtain ⟨⟨owed, howes, hitems⟩, -⟩ := h
  cases hp : r.parked with
  | some parked =>
    have hroom := room_of_not_stuck hs hp
    refine ⟨0, { r with queue := r.queue ++ [parked], parked := none }, net,
      Or.inl ⟨hroom, List.length_append⟩, ?_⟩
    intro deadline _
    simp only [step?, hp, if_pos hroom]
  | none =>
    cases howes with
    | ended =>
      rw [← hitems, hp] at hmore
      simp at hmore
    | running ho hat tale =>
      obtain ⟨result, feed, net', hto, htold⟩ := tale.hears h0 hat
      obtain ⟨patience, hnext⟩ := hto.next
      refine ⟨patience, r.afterLook feed result, net', ?_, ?_⟩
      · cases htold with
        | event => exact offer_advances { r with feed, isLooking := false } _
        | failed => exact offer_advances { r with feed, isLooking := false, isOver := true } _
      · intro deadline hd
        simp [step?, hp, ho, hnext deadline hd]

/-- A subscriber that waits for long enough gets the next item promised. -/
theorem Promises.receive (h : Promises server f₀ r net (item :: items))
    (h0 : 0 < f₀.channel.readTimeout) :
    ∃ patience r' net', Promises server f₀ r' net' items ∧ ∀ deadline, patience ≤ deadline →
      r.receive .never deadline net = (some (some item), r', net') := by
  cases hq : r.queue with
  | cons first queue =>
    obtain ⟨rest, hitems, hrest⟩ := h.take hq
    obtain ⟨rfl, rfl⟩ := List.cons.inj hitems
    exact ⟨0, _, net, hrest, fun deadline _ => by simp only [Relay.receive, take?, hq]⟩
  | nil =>
    obtain ⟨patience, r₁, net₁, hadvance, hstep⟩ := h.advance h0 (by simp [hq])
      fun hs => absurd hs.2 (by simp [hq, capacity])
    have hne : r₁.queue ≠ [] := by
      apply List.ne_nil_of_length_pos
      rcases hadvance with ⟨-, hlength⟩ | hs
      · omega
      · exact Nat.lt_of_lt_of_le (by decide) hs.2
    have h₂ := (h.step h0 (hstep patience (Nat.le_refl _))).run h0 net₁.now (capacity + 3)
    have hqueue := queue_run net₁.now (capacity + 3) r₁ net₁
    generalize hrun : r₁.run .never net₁.now (capacity + 3) net₁ = result at h₂ hqueue
    obtain ⟨r₂, net₂⟩ := result
    dsimp only at h₂ hqueue
    cases hq₂ : r₂.queue with
    | nil =>
      rw [hq₂, List.prefix_nil] at hqueue
      exact absurd hqueue hne
    | cons first queue =>
      obtain ⟨rest, hitems, hrest⟩ := h₂.take hq₂
      obtain ⟨rfl, rfl⟩ := List.cons.inj hitems
      refine ⟨patience, _, net₂, hrest, fun deadline hd => ?_⟩
      have hnone : r.take? = none := by simp only [take?, hq]
      have htake : r₂.take? = some (item, { r₂ with queue }) := by simp only [take?, hq₂]
      simp only [Relay.receive, hnone, hstep deadline hd, hrun, htake]

/-- A relay that promises nothing more has ended. -/
theorem Promises.receive_end (h : Promises server f₀ r net []) (deadline : Nat) :
    r.receive .never deadline net = (some none, r, net) := by
  obtain ⟨⟨owed, howes, hitems⟩, -⟩ := h
  simp only [List.append_eq_nil_iff, Option.toList_eq_nil_iff] at hitems
  obtain ⟨⟨hq, hp⟩, howed⟩ := hitems
  cases howes with
  | running => simp [itemsOf] at howed
  | ended ho => simp [Relay.receive, take?, step?, hq, hp, ho]

/-- A subscriber that takes everything gets all that is promised. -/
theorem Promises.collectWithin (h : Promises server f₀ r net items)
    (h0 : 0 < f₀.channel.readTimeout) :
    ∃ patience r' net', ∀ deadline fuel, patience ≤ deadline → items.length < fuel →
      Relay.collectWithin .never deadline fuel none r net = (some true, items, r', net') := by
  induction items generalizing r net with
  | nil =>
    refine ⟨0, r, net, ?_⟩
    intro deadline fuel _ hf
    obtain ⟨fuel, rfl⟩ := Nat.exists_eq_succ_of_ne_zero (Nat.ne_of_gt hf)
    simp only [Relay.collectWithin, h.receive_end deadline]
  | cons item items ih =>
    obtain ⟨patience, r₁, net₁, h₁, hreceive⟩ := h.receive h0
    obtain ⟨patience', r', net', hcollect⟩ := ih h₁
    refine ⟨max patience patience', r', net', ?_⟩
    intro deadline fuel hd hf
    obtain ⟨fuel, rfl⟩ := Nat.exists_eq_succ_of_ne_zero (Nat.ne_of_gt (Nat.zero_lt_of_lt hf))
    have hd' : patience ≤ deadline ∧ patience' ≤ deadline := by omega
    simp only [Relay.collectWithin, hreceive deadline hd'.1, Option.map_none,
      hcollect deadline fuel hd'.2 (Nat.lt_of_succ_lt_succ hf)]

theorem Promises.collect (h : Promises server f₀ r net items) (h0 : 0 < f₀.channel.readTimeout) :
    ∃ patience r' net', ∀ deadline, patience ≤ deadline →
      r.collect .never deadline none net = (some true, items, r', net') := by
  obtain ⟨patience, r', net', hcollect⟩ := h.collectWithin h0
  refine ⟨max patience (net.now + items.length), r', net', ?_⟩
  intro deadline hd
  refine hcollect deadline _ (by omega) ?_
  simp only [Network.patience]
  omega

/-- What is shown of a tale: a line for every event, in order, and the failure behind them. -/
theorem show_itemsOf (events : List Event) (failure : Failure) :
    Relay.show (itemsOf events (some failure)) =
      { stdout := String.join (events.map Event.line), result := some (.error failure) } := by
  induction events with
  | nil => rfl
  | cons e events ih =>
    have hcons : itemsOf (e :: events) (some failure) =
        .ok e :: itemsOf events (some failure) := rfl
    rw [hcons, Relay.show, ih]
    simp [String.join_cons]

end Relay

end Gallows
