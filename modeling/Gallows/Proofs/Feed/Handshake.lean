import Gallows.Proofs.Channel.Deeds
import Gallows.Proofs.Document.Requests
import Gallows.Proofs.Feed.Delivery
import Gallows.Proofs.Feed.Rounds
import Gallows.Proofs.Frame.Streams

/-!
A feed introduces itself once on every socket that it opens. The subscription is written before
anything is read, and it is all that is written; a socket on which it cannot be written is closed
and not read from. When no frame holds the subscription, a socket stays open on which nothing is
said.
-/
namespace Gallows.Feed

open Channel (OnlyReads Listens Opens Posts)
open Network (Course Deed on)

/-- What is done at last to a socket that is still open or not. -/
def ending (s : Socket) (isOpen : Bool) : List Deed := if isOpen then [] else [.closed s]

/-- What is done to a socket that a feed opens, from first to last. -/
inductive Handshake (username : String) (subscribe : Bool) (s : Socket) : Bool → List Deed → Prop
  /-- The subscription is written whole, and from then on the socket is only read from. -/
  | greeted (frame : ByteArray) (hsub : subscribe)
      (hframe : Frame.encode (subscription username) = .ok frame) (reads : List Deed)
      (hreads : OnlyReads s reads) (isOpen : Bool) :
      Handshake username subscribe s isOpen
        (.opened s :: .wrote s frame (.ok ()) :: (reads ++ ending s isOpen))
  /-- Writing the subscription fails, and the socket is dropped. -/
  | broken (frame : ByteArray) (hsub : subscribe)
      (hframe : Frame.encode (subscription username) = .ok frame) (fault : Fault) :
      Handshake username subscribe s false
        [.opened s, .wrote s frame (.error fault), .closed s]
  /-- No frame holds the subscription, so that nothing is written or read. -/
  | unsaid (cause : Frame.Error) (hsub : subscribe)
      (hframe : Frame.encode (subscription username) = .error cause) (isOpen : Bool) :
      Handshake username subscribe s isOpen (.opened s :: ending s isOpen)
  /-- The feed does not subscribe, and only reads. -/
  | silent (hsub : subscribe = false) (reads : List Deed) (hreads : OnlyReads s reads)
      (isOpen : Bool) :
      Handshake username subscribe s isOpen (.opened s :: (reads ++ ending s isOpen))

variable {f₀ f f' : Feed} {net₀ net net' net₁ : Network} {c c' : Channel}
  {deeds new reads : List Deed} {s : Socket} {username : String} {subscribe isOpen : Bool}
  {deadline : Nat} {token : Token}

theorem ending_true (s : Socket) : ending s true = [] := rfl

theorem ending_false (s : Socket) : ending s false = [.closed s] := rfl

theorem Handshake.ne_nil (h : Handshake username subscribe s isOpen deeds) : deeds ≠ [] := by
  cases h <;> simp

theorem Handshake.socket_eq (h : Handshake username subscribe s isOpen deeds) :
    ∀ deed ∈ deeds, deed.socket = s := by
  have hlisten {reads : List Deed} (hreads : OnlyReads s reads) :
      ∀ deed ∈ reads ++ ending s isOpen, deed.socket = s := by
    intro deed hd
    rcases List.mem_append.mp hd with hd | hd
    · obtain ⟨r, rfl⟩ := hreads deed hd
      rfl
    · cases isOpen with
      | true => cases hd
      | false =>
        rw [List.mem_singleton.mp hd]
        rfl
  cases h with
  | greeted frame _ _ reads hreads =>
    exact List.forall_mem_cons.mpr ⟨rfl, List.forall_mem_cons.mpr ⟨rfl, hlisten hreads⟩⟩
  | broken => simp [Deed.socket]
  | unsaid =>
    have hnone : OnlyReads s [] := List.forall_mem_nil _
    exact List.forall_mem_cons.mpr ⟨rfl, hlisten hnone⟩
  | silent _ reads hreads => exact List.forall_mem_cons.mpr ⟨rfl, hlisten hreads⟩

/-- An open socket that has been greeted, or need not be, is read from. -/
theorem Handshake.listens (h : Handshake username subscribe s true deeds)
    (hok : subscribe → ∃ frame, Frame.encode (subscription username) = .ok frame)
    (hreads : OnlyReads s reads) (isOpen : Bool) :
    Handshake username subscribe s isOpen (deeds ++ (reads ++ ending s isOpen)) := by
  have hboth {before : List Deed} (hbefore : OnlyReads s before) :
      OnlyReads s (before ++ reads) := by
    intro deed hd
    rcases List.mem_append.mp hd with hd | hd
    · exact hbefore deed hd
    · exact hreads deed hd
  cases h with
  | greeted frame hsub hframe before hbefore =>
    have hgreeted := Handshake.greeted frame hsub hframe (before ++ reads) (hboth hbefore) isOpen
    simpa [ending_true] using hgreeted
  | unsaid cause hsub hframe =>
    obtain ⟨frame, he⟩ := hok hsub
    rw [hframe] at he
    cases he
  | silent hsub before hbefore =>
    have hsilent : Handshake username subscribe s isOpen _ :=
      .silent hsub (before ++ reads) (hboth hbefore) isOpen
    simpa [ending_true] using hsilent

theorem Handshake.close (h : Handshake username subscribe s true deeds) :
    Handshake username subscribe s false (deeds ++ [.closed s]) := by
  cases h with
  | greeted frame hsub hframe reads hreads =>
    have hgreeted := Handshake.greeted frame hsub hframe reads hreads false
    simpa [ending_true, ending_false] using hgreeted
  | unsaid cause hsub hframe =>
    have hunsaid : Handshake username subscribe s false _ := .unsaid cause hsub hframe false
    simpa [ending_true, ending_false] using hunsaid
  | silent hsub reads hreads =>
    have hsilent : Handshake username subscribe s false _ := .silent hsub reads hreads false
    simpa [ending_true, ending_false] using hsilent

/-- Whether a feed, which was `f₀` at first, knows whether it has subscribed on its open socket. -/
structure Counted (f₀ f : Feed) : Prop where
  le : f.subscribed ≤ f.channel.generation
  greeted : f.channel.socket ≠ none → f₀.subscribe →
    ∀ frame, Frame.encode (subscription f₀.username) = .ok frame →
      f.subscribed = f.channel.generation
  ungreeted : f.channel.socket ≠ none →
    ∀ cause, Frame.encode (subscription f₀.username) = .error cause →
      f.subscribed < f.channel.generation

/-- Whether these deeds are all that a feed has done, which was `f₀` at first. -/
structure Handled (f₀ : Feed) (net₀ : Network) (f : Feed) (net : Network) (deeds : List Deed) :
    Prop where
  course : Course net₀ deeds net
  username : f.username = f₀.username
  subscribe : f.subscribe = f₀.subscribe
  bound : ∀ deed ∈ deeds, deed.socket < net.connections.length
  sockets : ∀ s, on s deeds ≠ [] → net₀.connections.length ≤ s ∧
    Handshake f₀.username f₀.subscribe s (f.channel.socket = some s) (on s deeds)
  current : ∀ s, f.channel.socket = some s → on s deeds ≠ []
  counted : Counted f₀ f

/-- Whether a feed may read: it has an open socket, on which it has subscribed if it does so. -/
def Ready (f₀ f : Feed) : Prop :=
  f.channel.socket ≠ none ∧
    (f₀.subscribe → ∃ frame, Frame.encode (subscription f₀.username) = .ok frame)

/-- Nothing can be said on a socket that was just opened. -/
theorem Counted.opened (h : Counted f₀ f) (s : Socket)
    (hno : f₀.subscribe → ∀ frame, Frame.encode (subscription f₀.username) ≠ .ok frame) :
    Counted f₀ { f with channel := { f.channel with
      socket := some s
      assembler := f.channel.assembler.reset
      generation := f.channel.generation + 1 } } := by
  have hlt : f.subscribed < f.channel.generation + 1 := Nat.lt_succ_of_le h.le
  exact ⟨Nat.le_of_lt hlt, fun _ hsub frame hf => absurd hf (hno hsub frame), fun _ _ _ => hlt⟩

theorem Counted.state (h : Counted f₀ f) (state : State) : Counted f₀ { f with state } :=
  ⟨h.le, h.greeted, h.ungreeted⟩

theorem Counted.assembler (h : Counted f₀ f) (a : Frame.Assembler) :
    Counted f₀ { f with channel := { f.channel with assembler := a } } :=
  ⟨h.le, h.greeted, h.ungreeted⟩

theorem Counted.closed (h : Counted f₀ f) (a : Frame.Assembler) :
    Counted f₀ { f with channel := { f.channel with socket := none, assembler := a } } :=
  ⟨h.le, by simp, by simp⟩

theorem Handled.state (h : Handled f₀ net₀ f net deeds) (state : State) :
    Handled f₀ net₀ { f with state } net deeds :=
  ⟨h.course, h.username, h.subscribe, h.bound, h.sockets, h.current, h.counted.state state⟩

theorem Handled.wait (h : Handled f₀ net₀ f net deeds) (time : Nat) :
    Handled f₀ net₀ f (net.waitUntil time) deeds :=
  ⟨h.course.wait time, h.username, h.subscribe, h.bound, h.sockets, h.current, h.counted⟩

/-- More is done to one socket, which is the only one that is or was open. -/
theorem Handled.append (h : Handled f₀ net₀ f net deeds) (course : Course net new net')
    (huser : f'.username = f.username) (hsub : f'.subscribe = f.subscribe)
    (hold : ∀ t, f.channel.socket = some t → t = s)
    (hcur : ∀ t, f'.channel.socket = some t → t = s)
    (hfirst : net₀.connections.length ≤ s) (hlt : s < net'.connections.length)
    (hs : Handshake f₀.username f₀.subscribe s (f'.channel.socket = some s) (on s deeds ++ new))
    (hcount : Counted f₀ f') : ∃ deeds', Handled f₀ net₀ f' net' deeds' := by
  have hnew : ∀ deed ∈ new, deed.socket = s :=
    fun deed hd => hs.socket_eq deed (List.mem_append_right _ hd)
  have hsame : on s (deeds ++ new) = on s deeds ++ new := by
    rw [Network.on_append, Network.on_of_forall hnew]
  refine ⟨deeds ++ new, h.course.trans course, huser.trans h.username, hsub.trans h.subscribe,
    ?_, ?_, ?_, hcount⟩
  · intro deed hd
    rcases List.mem_append.mp hd with hd | hd
    · exact Nat.lt_of_lt_of_le (h.bound deed hd) course.length_le
    · rw [hnew deed hd]
      exact hlt
  · intro t ht
    by_cases hts : t = s
    · obtain rfl := hts
      rw [hsame]
      exact ⟨hfirst, hs⟩
    · have hother : on t (deeds ++ new) = on t deeds := by
        rw [Network.on_append, Network.on_of_forall_ne hnew hts, List.append_nil]
      rw [hother] at ht ⊢
      obtain ⟨hle, hshake⟩ := h.sockets t ht
      have hclosed : f.channel.socket ≠ some t := fun he => hts (hold t he)
      have hclosed' : f'.channel.socket ≠ some t := fun he => hts (hcur t he)
      rw [decide_eq_false hclosed] at hshake
      rw [decide_eq_false hclosed']
      exact ⟨hle, hshake⟩
  · intro t ht
    obtain rfl := hcur t ht
    rw [hsame]
    exact hs.ne_nil

/-- Nothing has been done to a socket that is not there. -/
theorem Handled.on_new (h : Handled f₀ net₀ f net deeds) :
    on net.connections.length deeds = [] := by
  apply List.filter_eq_nil_iff.mpr
  intro deed hd
  simp only [decide_eq_true_eq]
  exact Nat.ne_of_lt (h.bound deed hd)

/-- What was done to the open socket. -/
theorem Handled.of_open (h : Handled f₀ net₀ f net deeds) (hs : f.channel.socket = some s) :
    net₀.connections.length ≤ s ∧ s < net.connections.length ∧
      Handshake f₀.username f₀.subscribe s true (on s deeds) := by
  have hnil := h.current s hs
  obtain ⟨hfirst, hshake⟩ := h.sockets s hnil
  rw [decide_eq_true hs] at hshake
  obtain ⟨deed, hd⟩ := List.exists_mem_of_ne_nil _ hnil
  have hsock := hshake.socket_eq deed hd
  have hlt := h.bound deed (List.mem_of_mem_filter hd)
  rw [hsock] at hlt
  exact ⟨hfirst, hlt, hshake⟩

theorem Handled.listens (h : Handled f₀ net₀ f net deeds) (hready : Ready f₀ f)
    (hs : f.channel.socket = some s) (hl : Listens s f.channel net c net') :
    ∃ deeds', Handled f₀ net₀ { f with channel := c } net' deeds' := by
  obtain ⟨hfirst, hlt, hshake⟩ := h.of_open hs
  have hold (t : Socket) (ht : f.channel.socket = some t) : t = s :=
    Option.some.inj (ht.symm.trans hs)
  cases hl with
  | stays reads hr course a =>
    have hmore := hshake.listens hready.2 hr true
    rw [ending_true, List.append_nil] at hmore
    refine h.append course rfl rfl hold hold hfirst (Nat.lt_of_lt_of_le hlt course.length_le) ?_
      (h.counted.assembler a)
    rwa [decide_eq_true hs]
  | leaves reads hr course a =>
    have hmore := hshake.listens hready.2 hr false
    exact h.append course rfl rfl hold (by simp) hfirst (Nat.lt_of_lt_of_le hlt course.length_le)
      hmore (h.counted.closed a)

theorem Handled.close (h : Handled f₀ net₀ f net deeds) :
    ∃ deeds', Handled f₀ net₀ (f.close net).1 (f.close net).2 deeds' := by
  have hcount := h.counted.closed f.channel.assembler.reset
  cases hs : f.channel.socket with
  | none =>
    have hnet : (f.close net).2 = net := by simp only [Feed.close, Channel.close, hs]
    have hsockets := h.sockets
    rw [hs] at hsockets
    rw [hnet]
    exact ⟨deeds, h.course, h.username, h.subscribe, h.bound, hsockets,
      by simp [Feed.close, Channel.close], hcount⟩
  | some s =>
    obtain ⟨hfirst, hlt, hshake⟩ := h.of_open hs
    have hcourse : Course net [.closed s] (f.close net).2 := Channel.close_course hs net
    have hold (t : Socket) (ht : f.channel.socket = some t) : t = s :=
      Option.some.inj (ht.symm.trans hs)
    exact h.append hcourse rfl rfl hold (by simp [Feed.close, Channel.close])
      hfirst (Nat.lt_of_lt_of_le hlt hcourse.length_le) hshake.close hcount

/-- A socket is opened, and this is what is done to it. -/
theorem Handled.opens (h : Handled f₀ net₀ f net deeds) (hnone : f.channel.socket = none)
    (course : Course net new net') (hlen : net.connections.length < net'.connections.length)
    (huser : f'.username = f.username) (hsub : f'.subscribe = f.subscribe)
    (hcur : ∀ t, f'.channel.socket = some t → t = net.connections.length)
    (hs : Handshake f₀.username f₀.subscribe net.connections.length
      (f'.channel.socket = some net.connections.length) new) (hcount : Counted f₀ f') :
    ∃ deeds', Handled f₀ net₀ f' net' deeds' := by
  rw [← List.nil_append new, ← h.on_new] at hs
  exact h.append course huser hsub (by simp [hnone]) hcur h.course.length_le hlen hs hcount

/-- On the socket that it keeps, a feed has nothing more to say. -/
theorem Handled.connect_open (h : Handled f₀ net₀ f net deeds) (hs : f.channel.socket = some s)
    {r : Outcome Unit} (hconnect : Connects deadline f net r f' net') :
    f' = f ∧ net' = net ∧ (r = some (.ok ()) → Ready f₀ f) := by
  have hensure := Channel.ensure_of_open hs deadline net
  have hnone : f.channel.socket ≠ none := by simp [hs]
  have hsilent (hneed : f.subscribe ∧ f.channel.generation ≠ f.subscribed) (frame : ByteArray) :
      Frame.encode (subscription f.username) ≠ .ok frame := by
    intro hf
    rw [h.username] at hf
    rw [h.subscribe] at hneed
    exact hneed.2 (h.counted.greeted hnone hneed.1 frame hf).symm
  cases hconnect with
  | opening he | unopened failure he =>
    rw [hensure] at he
    cases he
  | silent he hneed =>
    rw [hensure] at he
    cases he
    refine ⟨rfl, rfl, fun _ => ⟨hnone, fun hsub => ?_⟩⟩
    cases hf : Frame.encode (subscription f₀.username) with
    | ok frame => exact ⟨frame, rfl⟩
    | error cause =>
      have hlt := h.counted.ungreeted hnone cause hf
      rw [h.subscribe] at hneed
      exact absurd ⟨hsub, Nat.ne_of_gt hlt⟩ hneed
  | greeted he hneed hsend =>
    rw [hensure] at he
    cases he
    cases Channel.posts_of_send hs hsend with
    | sent frame hf => exact absurd hf (hsilent hneed frame)
  | ungreeted he hneed hsend hr =>
    rw [hensure] at he
    cases he
    cases Channel.posts_of_send hs hsend with
    | refused cause hf failure => exact ⟨rfl, rfl, by simp⟩
    | sent frame hf => exact absurd rfl hr
    | broken frame hf => exact absurd hf (hsilent hneed frame)

theorem Handled.unopened (h : Handled f₀ net₀ f net deeds) (course : Course net [] net') :
    Handled f₀ net₀ f net' deeds := by
  refine ⟨?_, h.username, h.subscribe, ?_, h.sockets, h.current, h.counted⟩
  · simpa using h.course.trans course
  · intro deed hd
    exact Nat.lt_of_lt_of_le (h.bound deed hd) course.length_le

/-- On a socket that it has opened, a feed introduces itself, or is left with a socket on which it
has not, or without one. -/
theorem Handled.introduces (h : Handled f₀ net₀ f net deeds) (hs : f.channel.socket = none)
    (ho : Opens f.channel net (some (.ok s)) c net₁) (hsub : f₀.subscribe) {r : Outcome Unit}
    (hposts : Posts (subscription f₀.username) s c net₁ r c' net') :
    (r = some (.ok ()) →
      (∃ deeds', Handled f₀ net₀ { f with channel := c', subscribed := c.generation } net' deeds') ∧
        c'.socket ≠ none ∧ ∃ frame, Frame.encode (subscription f₀.username) = .ok frame) ∧
    (r ≠ some (.ok ()) → ∃ deeds', Handled f₀ net₀ { f with channel := c' } net' deeds') := by
  obtain ⟨rfl, rfl, course, hopened⟩ := ho.of_closed hs
  cases hposts with
  | refused cause hf failure =>
    have hshake : Handshake f₀.username f₀.subscribe net.connections.length true
        [.opened net.connections.length] := .unsaid cause hsub hf true
    refine ⟨by simp, fun _ => h.opens hs course hopened.length_lt rfl rfl (by simp) ?_ ?_⟩
    · simpa using hshake
    · exact h.counted.opened net.connections.length (by simp [hf])
  | sent frame hf course' =>
    have hshake : Handshake f₀.username f₀.subscribe net.connections.length true _ :=
      .greeted frame hsub hf [] (List.forall_mem_nil _) true
    have hlen := Nat.lt_of_lt_of_le hopened.length_lt course'.length_le
    refine ⟨fun _ => ⟨?_, by simp, frame, hf⟩, fun hr => absurd rfl hr⟩
    refine h.opens hs (course.trans course') hlen rfl rfl (by simp) ?_ ?_
    · simpa [ending_true] using hshake
    · exact ⟨Nat.le_refl _, fun _ _ _ _ => rfl, by simp [hf]⟩
  | broken frame hf fault course' failure =>
    have hlen := Nat.lt_of_lt_of_le hopened.length_lt course'.length_le
    refine ⟨by simp, fun _ => ?_⟩
    refine h.opens hs (course.trans course') hlen rfl rfl (by simp) ?_ ?_
    · simpa using Handshake.broken frame hsub hf fault
    · exact ⟨Nat.le_succ_of_le h.counted.le, by simp, by simp⟩

/-- A feed without a socket opens one and introduces itself there, or is left without one. -/
theorem Handled.connect_closed (h : Handled f₀ net₀ f net deeds) (hs : f.channel.socket = none)
    {r : Outcome Unit} (hconnect : Connects deadline f net r f' net') :
    (∃ deeds', Handled f₀ net₀ f' net' deeds') ∧ (r = some (.ok ()) → Ready f₀ f') := by
  -- The channel counts a socket that was opened, and the feed has not subscribed on it.
  have hneeded {s : Socket} {c : Channel} {net₁ : Network}
      (ho : Opens f.channel net (some (.ok s)) c net₁) : c.generation ≠ f.subscribed := by
    obtain ⟨-, rfl, -⟩ := ho.of_closed hs
    exact Nat.ne_of_gt (Nat.lt_succ_of_le h.counted.le)
  cases hconnect with
  | opening he | unopened failure he =>
    cases Channel.opens_of_ensure he with
    | unopened _ hr course => exact ⟨⟨deeds, h.unopened course⟩, by simp⟩
  | silent he hneed =>
    have ho := Channel.opens_of_ensure he
    have hsub : f₀.subscribe = false := by
      by_contra hsub
      have hsub' : f.subscribe = true := by simpa [h.subscribe] using hsub
      exact hneed ⟨hsub', hneeded ho⟩
    obtain ⟨rfl, rfl, course, hopened⟩ := ho.of_closed hs
    have hshake : Handshake f₀.username f₀.subscribe net.connections.length true
        [.opened net.connections.length] := .silent hsub [] (List.forall_mem_nil _) true
    refine ⟨h.opens hs course hopened.length_lt rfl rfl (by simp) ?_ ?_,
      fun _ => ⟨by simp, by simp [hsub]⟩⟩
    · simpa using hshake
    · exact h.counted.opened net.connections.length (by simp [hsub])
  | @greeted _ _ _ net₁ _ he hneed hsend =>
    have ho := Channel.opens_of_ensure he
    have hposts := Channel.posts_of_send ho.socket_eq hsend
    rw [h.username] at hposts
    obtain ⟨hgreeted, hopen, hframe⟩ := (h.introduces hs ho (h.subscribe ▸ hneed.1) hposts).1 rfl
    exact ⟨hgreeted, fun _ => ⟨hopen, fun _ => hframe⟩⟩
  | @ungreeted _ _ _ net₁ _ _ he hneed hsend hr =>
    have ho := Channel.opens_of_ensure he
    have hposts := Channel.posts_of_send ho.socket_eq hsend
    rw [h.username] at hposts
    exact ⟨(h.introduces hs ho (h.subscribe ▸ hneed.1) hposts).2 hr, fun hok => absurd hok hr⟩

theorem Handled.connect {r : Outcome Unit} (h : Handled f₀ net₀ f net deeds)
    (hc : f.connect deadline net = (r, f', net')) :
    (∃ deeds', Handled f₀ net₀ f' net' deeds') ∧ (r = some (.ok ()) → Ready f₀ f') := by
  cases hs : f.channel.socket with
  | none => exact h.connect_closed hs (connects_of_eq hc)
  | some s =>
    obtain ⟨rfl, rfl, hready⟩ := h.connect_open hs (connects_of_eq hc)
    exact ⟨⟨deeds, h⟩, hready⟩

/-- A feed that may read listens to its socket. -/
theorem Handled.behind (h : Handled f₀ net₀ f net deeds) (hready : Ready f₀ f)
    (hl : ∀ s, f.channel.socket = some s → Listens s f.channel net c net') :
    ∃ deeds', Handled f₀ net₀ (f.behind c) net' deeds' := by
  obtain ⟨s, hs⟩ := Option.ne_none_iff_exists'.mp hready.1
  obtain ⟨deeds', h'⟩ := h.listens hready hs (hl s hs)
  exact ⟨deeds', h'.state _⟩

theorem Handled.polled {f₁ : Feed} {net₁ : Network} {r : Outcome Envelope.Server}
    (h : Handled f₀ net₀ f net deeds) (hp : Polled token deadline f net f₁ net₁ r c net') :
    ∃ deeds', Handled f₀ net₀ (f₁.behind c) net' deeds' := by
  obtain ⟨⟨deeds₁, h₁⟩, hready⟩ := h.connect hp.connect_eq
  refine h₁.behind (hready rfl) ?_
  intro s hs
  have hl := Channel.poll_listens hs (token.limit deadline) net₁
  rwa [hp.poll_eq] at hl

theorem Handled.paused {g : Feed} {r : Option Bool} (h : Handled f₀ net₀ f net deeds)
    (hp : g.pause token deadline net = (r, net')) : Handled f₀ net₀ f net' deeds := by
  obtain ⟨time, rfl⟩ := pause_waits hp
  exact h.wait time

theorem Handled.round {r : Option (Outcome Found)} (h : Handled f₀ net₀ f net deeds)
    (hround : Round token deadline f net r f' net') : ∃ deeds', Handled f₀ net₀ f' net' deeds' := by
  cases hround with
  | fired => exact ⟨deeds, h.state _⟩
  | connecting _ hc | unconnected _ _ hc => exact (h.connect hc).1
  | firedMeanwhile _ hc =>
    obtain ⟨deeds₁, h₁⟩ := (h.connect hc).1
    exact ⟨deeds₁, h₁.state _⟩
  | stopped hp | brought _ hp =>
    obtain ⟨deeds₂, h₂⟩ := h.polled hp
    exact ⟨deeds₂, h₂.state _⟩
  | polling hp | failed _ hp => exact h.polled hp
  | pausing _ hp _ hpause | stoppedPausing _ hp _ hpause | goesOn _ hp _ hpause =>
    obtain ⟨deeds₂, h₂⟩ := h.polled hp
    exact ⟨deeds₂, (h₂.paused hpause).state _⟩

theorem Handled.rounds (h : Handled f₀ net₀ f net deeds)
    (hrounds : Rounds token deadline f net f' net') : ∃ deeds', Handled f₀ net₀ f' net' deeds' := by
  induction hrounds generalizing deeds with
  | nil => exact ⟨deeds, h⟩
  | cons hround _ ih =>
    obtain ⟨deeds₁, h₁⟩ := h.round hround
    exact ih h₁

theorem Handled.waits {r : Outcome Found} (h : Handled f₀ net₀ f net deeds)
    (hwaits : Waits token deadline f net r f' net') : ∃ deeds', Handled f₀ net₀ f' net' deeds' := by
  obtain ⟨g, net₁, rounds, round⟩ := hwaits
  obtain ⟨deeds₁, h₁⟩ := h.rounds rounds
  exact h₁.round round

theorem Handled.tries {r : Outcome Found} (h : Handled f₀ net₀ f net deeds)
    (htries : Tries token deadline f net r f' net') : ∃ deeds', Handled f₀ net₀ f' net' deeds' := by
  have hreceived {f₁ : Feed} {net₁ net₂ : Network} {r : Outcome Received} {c : Channel}
      (hc : f.connect deadline net = (some (.ok ()), f₁, net₁))
      (hr : f₁.channel.receiveUnless token deadline net₁ = (r, c, net₂)) :
      ∃ deeds', Handled f₀ net₀ (f₁.behind c) net₂ deeds' := by
    obtain ⟨⟨deeds₁, h₁⟩, hready⟩ := h.connect hc
    refine h₁.behind (hready rfl) ?_
    intro s hs
    have hl := Channel.receiveUnless_listens hs token deadline net₁
    rwa [hr] at hl
  cases htries with
  | fired => exact ⟨deeds, h.state _⟩
  | connecting _ hc | unconnected _ _ hc => exact (h.connect hc).1
  | receiving _ hc hr => exact hreceived hc hr
  | failed _ _ hc hr | stopped _ hc hr | brought _ _ hc hr =>
    obtain ⟨deeds₂, h₂⟩ := hreceived hc hr
    exact ⟨deeds₂, h₂.state _⟩

/-- One use of a feed keeps to the handshake on every socket. -/
theorem Handled.perform (h : Handled f₀ net₀ f net deeds) (use : Use) (deadline : Nat) :
    ∃ deeds', Handled f₀ net₀ (f.perform use deadline net).1 (f.perform use deadline net).2
      deeds' := by
  cases use with
  | connect => exact (h.connect rfl).1
  | next token => exact h.waits (waits_of_next rfl)
  | tryNext token => exact h.tries (tryNext_tries token deadline f net)
  | close => exact h.close

/-- And so does a run of uses. -/
theorem Handled.performAll (h : Handled f₀ net₀ f net deeds) (turns : List Turn) :
    ∃ deeds', Handled f₀ net₀ (performAll turns f net).1 (performAll turns f net).2 deeds' := by
  induction turns generalizing f net deeds with
  | nil => exact ⟨deeds, h⟩
  | cons turn turns ih =>
    obtain ⟨deeds₁, h₁⟩ := (h.wait turn.start).perform turn.use turn.deadline
    exact ih h₁

/-- The request names the player, and says little else. -/
theorem size_payload_subscription (username : String) :
    (subscription username).payload.size = (username.toList.flatMap Json.written).length + 22 := by
  have hmember : ("player_username".toList.flatMap Json.written).length = 15 := by decide
  change (Json.utf8 ((Request.record "SubscribeRequest" ["player_username"]).write
    (username, ()))).length = _
  rw [Document.utf8_write_record, Json.utf8_quote, Json.utf8_quote]
  simp only [List.length_cons, List.length_append, List.length_nil, hmember]
  omega

/-- A username of two million characters still fits into a frame. -/
theorem encode_subscription {username : String} (h : username.length ≤ 2 ^ 21) :
    ∃ frame, Frame.encode (subscription username) = .ok frame := by
  have hcommand : (subscription username).command.toUTF8.size = 9 := rfl
  have hpayload := size_payload_subscription username
  have hname := Json.length_flatMap_written_le username.toList
  rw [String.length_toList] at hname
  have hsize : (Wire.Message.encode (subscription username)).size ≤ Frame.sizeLimit := by
    have hle := Envelope.Sender.size_client_le (e := subscription username) (by omega) (by omega)
    have hlimit : Frame.sizeLimit = 16777216 := rfl
    omega
  obtain ⟨frame, hframe, -⟩ := Frame.encode_eq_ok hsize
  exact ⟨frame, hframe⟩

/-- A username with as many characters as a frame holds bytes does not. -/
theorem encode_subscription_of_long {username : String} (h : Frame.sizeLimit ≤ username.length) :
    ∃ size, Frame.encode (subscription username) = .error (.tooLarge size Frame.sizeLimit) := by
  have hpayload := size_payload_subscription username
  have hname := Json.length_le_flatMap_written username.toList
  rw [String.length_toList] at hname
  have hsize := Envelope.Sender.size_payload_le (subscription username)
  exact ⟨_, Frame.encode_of_large (by omega)⟩

/-- Whether a frame asks for the events of a player. -/
def Greets (username : String) (frame : ByteArray) : Prop :=
  ∃ e : Envelope.Client, Frame.decode frame = .ok e ∧ e.command = "SUBSCRIBE" ∧
    Command.subscribe.request.ofPayload e.payload = .ok (username, ())

theorem greets_of_encode {frame : ByteArray}
    (h : Frame.encode (subscription username) = .ok frame) : Greets username frame := by
  have hdecode : Frame.decode frame = .ok (subscription username) :=
    Frame.decode_encode .client (e := subscription username) h
  have hpayload := Document.ofPayload_toPayload_request .subscribe (username, ())
  exact ⟨subscription username, hdecode, rfl, hpayload⟩

/-- Nothing is written while a socket is read from, and when it is closed. -/
theorem listening_writes_nothing (hreads : OnlyReads s reads) (isOpen : Bool) :
    (∀ bytes r, .wrote s bytes r ∉ reads ++ ending s isOpen) ∧
      (reads ++ ending s isOpen).flatMap (·.adds s) = [] := by
  have hquiet : ∀ deed ∈ reads ++ ending s isOpen, (∃ r, deed = .read s r) ∨ deed = .closed s := by
    intro deed hd
    rcases List.mem_append.mp hd with hd | hd
    · exact Or.inl (hreads deed hd)
    · cases isOpen with
      | true => cases hd
      | false => exact Or.inr (List.mem_singleton.mp hd)
  constructor
  · intro bytes r hd
    rcases hquiet _ hd with ⟨r', he⟩ | he <;> cases he
  · apply List.flatMap_eq_nil_iff.mpr
    intro deed hd
    rcases hquiet deed hd with ⟨r, rfl⟩ | rfl <;> rfl

/-- A frame that was written whole is the subscription, and all that was written. -/
theorem Handshake.greeting (h : Handshake username subscribe s isOpen deeds) {frame : ByteArray}
    (hd : .wrote s frame (.ok ()) ∈ deeds) :
    Frame.encode (subscription username) = .ok frame ∧
      (∀ deed ∈ deeds, ¬ deed.FailsOn s) ∧ deeds.flatMap (·.adds s) = frame.data.toList := by
  cases h with
  | greeted frame' hsub hframe reads hreads =>
    obtain ⟨hnone, hadds⟩ := listening_writes_nothing hreads isOpen
    have hsame : frame = frame' := by
      rcases List.mem_cons.mp hd with he | hd
      · cases he
      rcases List.mem_cons.mp hd with he | hd
      · cases he
        rfl
      · exact absurd hd (hnone frame (.ok ()))
    obtain rfl := hsame
    refine ⟨hframe, ?_, ?_⟩
    · rintro deed hd ⟨bytes, fault, rfl⟩
      have hd' : .wrote s bytes (.error fault) ∈ reads ++ ending s isOpen := by simpa using hd
      exact hnone bytes _ hd'
    · rw [List.flatMap_cons, List.flatMap_cons, hadds]
      simp [Deed.adds]
  | broken frame' hsub hframe fault => simp at hd
  | unsaid cause hsub hframe => cases isOpen <;> simp [ending] at hd
  | silent hsub reads hreads =>
    obtain ⟨hnone, -⟩ := listening_writes_nothing hreads isOpen
    have hd' : .wrote s frame (.ok ()) ∈ reads ++ ending s isOpen := by simpa using hd
    exact absurd hd' (hnone frame (.ok ()))

/-- A feed that does not subscribe writes nothing. -/
theorem Handshake.silence (h : Handshake username false s isOpen deeds) :
    (∀ bytes r, .wrote s bytes r ∉ deeds) ∧ deeds.flatMap (·.adds s) = [] := by
  cases h with
  | greeted _ hsub | broken _ hsub | unsaid _ hsub => cases hsub
  | silent _ reads hreads =>
    obtain ⟨hnone, hadds⟩ := listening_writes_nothing hreads isOpen
    constructor
    · intro bytes r hd
      have hd' : .wrote s bytes r ∈ reads ++ ending s isOpen := by simpa using hd
      exact hnone bytes r hd'
    · rw [List.flatMap_cons, hadds]
      rfl

/-- A socket that was greeted has been told this and nothing else. -/
theorem Handled.written_greeting (h : Handled f₀ net₀ f net deeds) {frame : ByteArray}
    (hd : .wrote s frame (.ok ()) ∈ deeds) :
    Greets f₀.username frame ∧ net.written s = frame.data.toList := by
  have hmem : .wrote s frame (.ok ()) ∈ on s deeds := by
    apply List.mem_filter.mpr
    exact ⟨hd, by simp [Deed.socket]⟩
  obtain ⟨hfirst, hshake⟩ := h.sockets s (List.ne_nil_of_mem hmem)
  obtain ⟨hframe, hok, hadds⟩ := hshake.greeting hmem
  refine ⟨greets_of_encode hframe, ?_⟩
  rw [h.course.written_on hok, hadds, Network.written_of_le hfirst, List.nil_append]

/-- A feed that does not subscribe leaves what is written as it is. -/
theorem Handled.written_silence (h : Handled f₀ net₀ f net deeds) (hsub : f₀.subscribe = false)
    (s : Socket) : net.written s = net₀.written s := by
  have hsilence : (∀ bytes r, .wrote s bytes r ∉ on s deeds) ∧
      (on s deeds).flatMap (·.adds s) = [] := by
    by_cases hnil : on s deeds = []
    · simp [hnil]
    · have hshake := (h.sockets s hnil).2
      rw [hsub] at hshake
      exact hshake.silence
  have hok : ∀ deed ∈ on s deeds, ¬ deed.FailsOn s := by
    rintro deed hd ⟨bytes, fault, rfl⟩
    exact hsilence.1 bytes _ hd
  rw [h.course.written_on hok, hsilence.2, List.append_nil]

theorem handled_fresh (endpoint : Endpoint) (username : String) (subscribe : Bool)
    (connectTimeout readTimeout pollInterval : Nat) (net : Network) :
    Handled (fresh endpoint username subscribe connectTimeout readTimeout pollInterval) net
      (fresh endpoint username subscribe connectTimeout readTimeout pollInterval) net [] where
  course := .start
  username := rfl
  subscribe := rfl
  bound := List.forall_mem_nil _
  sockets := fun _ h => absurd rfl h
  current := by simp [fresh]
  counted := ⟨Nat.le_refl 0, by simp [fresh], by simp [fresh]⟩

/-- However a feed is used, it greets every socket that it opens exactly once: it writes one frame,
which asks for the events of its player, before it reads, and nothing else ever. A socket on which
this write fails is closed and not read from. When the username is so long that no frame holds the
request, nothing is written or read, and the socket is open until it is asked to be closed. A feed
that does not subscribe never writes. -/
theorem performAll_greets (endpoint : Endpoint) (username : String) (subscribe : Bool)
    (connectTimeout readTimeout pollInterval : Nat) (turns : List Turn) (net : Network) :
    ∃ deeds f net', performAll turns
        (fresh endpoint username subscribe connectTimeout readTimeout pollInterval) net =
          (f, net') ∧
      Course net deeds net' ∧
      (∀ s, on s deeds ≠ [] → net.connections.length ≤ s ∧
        Handshake username subscribe s (f.channel.socket = some s) (on s deeds)) ∧
      (∀ s frame, .wrote s frame (.ok ()) ∈ deeds →
        Greets username frame ∧ net'.written s = frame.data.toList) ∧
      (subscribe = false → ∀ s, net'.written s = net.written s) ∧
      (username.length ≤ 2 ^ 21 → ∃ frame, Frame.encode (subscription username) = .ok frame) := by
  have hfresh :=
    handled_fresh endpoint username subscribe connectTimeout readTimeout pollInterval net
  obtain ⟨deeds, h⟩ := hfresh.performAll turns
  exact ⟨deeds, _, _, rfl, h.course, h.sockets, fun _ _ hd => h.written_greeting hd,
    h.written_silence, encode_subscription⟩

/-- Nothing is done to a socket on which the subscription fits no frame. -/
theorem Handshake.unsaid_eq (h : Handshake username true s isOpen deeds) {cause : Frame.Error}
    (hframe : Frame.encode (subscription username) = .error cause) :
    deeds = .opened s :: ending s isOpen := by
  cases h with
  | greeted frame _ hok | broken frame _ hok =>
    rw [hframe] at hok
    cases hok
  | unsaid => rfl
  | silent hsub => cases hsub

/-- However a feed is used whose subscription fits no frame, nothing is done to the sockets that it
opens until it closes them. On a socket that is open it tries and fails to subscribe every time. -/
theorem performAll_unsaid (endpoint : Endpoint) {username : String} {cause : Frame.Error}
    (hframe : Frame.encode (subscription username) = .error cause)
    (connectTimeout readTimeout pollInterval : Nat) (turns : List Turn) (net : Network) :
    ∃ deeds f net', performAll turns
        (fresh endpoint username true connectTimeout readTimeout pollInterval) net = (f, net') ∧
      Course net deeds net' ∧
      (∀ s, on s deeds ≠ [] → on s deeds = .opened s :: ending s (f.channel.socket = some s)) ∧
      ∀ s, f.channel.socket = some s → on s deeds = [.opened s] ∧ ∀ deadline,
        f.connect deadline net' = (some (.error (.protocol (.frame cause))), f, net') := by
  have hfresh := handled_fresh endpoint username true connectTimeout readTimeout pollInterval net
  obtain ⟨deeds, h⟩ := hfresh.performAll turns
  generalize performAll turns _ net = reached at h
  obtain ⟨f, net'⟩ := reached
  have hnone : ∀ s, on s deeds ≠ [] →
      on s deeds = .opened s :: ending s (f.channel.socket = some s) :=
    fun s hs => (h.sockets s hs).2.unsaid_eq hframe
  refine ⟨deeds, f, net', rfl, h.course, hnone, fun s hs => ⟨?_, fun deadline => ?_⟩⟩
  · rw [hnone s (h.current s hs), decide_eq_true hs, ending_true]
  · have hopen : f.channel.socket ≠ none := by simp [hs]
    have hlt := h.counted.ungreeted hopen cause hframe
    have hframe' : Frame.encode (subscription f.username) = .error cause := by
      rwa [h.username]
    exact connect_unsaid hframe' h.subscribe (Channel.ensure_of_open hs deadline net')
      (Nat.ne_of_gt hlt)

/-- A network whose only server takes 2 milliseconds to accept. -/
def acceptingNetwork : Network :=
  { servers := [{ endpoint := ⟨"127.0.0.1", 9000⟩, receptions := [.accept 2 [] []] }] }

/-- When it connects there, a feed whose subscription fits no frame is left with an open socket. -/
theorem socket_unsaid {cause : Frame.Error}
    (hframe : Frame.encode (subscription username) = .error cause) :
    (performAll [{ use := .connect, deadline := 1000 }]
      (fresh ⟨"127.0.0.1", 9000⟩ username true 5000 1000 100)
      acceptingNetwork).1.channel.socket = some 0 := by
  rcases hensure : Channel.ensure { endpoint := ⟨"127.0.0.1", 9000⟩ } 1000
    (acceptingNetwork.waitUntil 0) with ⟨r, c, net⟩
  obtain rfl : some (.ok 0) = r := congrArg (·.1) hensure
  have hsocket : some 0 = c.socket := congrArg (·.2.1.socket) hensure
  have hgeneration : 1 = c.generation := congrArg (·.2.1.generation) hensure
  have hconnect : (fresh ⟨"127.0.0.1", 9000⟩ username true 5000 1000 100).connect 1000
      (acceptingNetwork.waitUntil 0) = _ :=
    connect_unsaid hframe rfl hensure (hgeneration ▸ Nat.one_ne_zero)
  rw [performAll, perform, hconnect]
  exact hsocket.symm

/-- The username of a player whose subscription fits no frame. -/
def endlessName : String := String.ofList (List.replicate Frame.sizeLimit 'a')

theorem length_endlessName : endlessName.length = Frame.sizeLimit := by
  rw [endlessName, String.length_ofList, List.length_replicate]

/-- A feed whose username is endless opens a socket and is left with it: nothing was written on it
or read, it was not closed, and whoever connects again gets the same error and the same socket. -/
theorem unsaid_stays_open :
    ∃ deeds f net size, performAll [{ use := .connect, deadline := 1000 }]
        (fresh ⟨"127.0.0.1", 9000⟩ endlessName true 5000 1000 100) acceptingNetwork = (f, net) ∧
      Course acceptingNetwork deeds net ∧ on 0 deeds = [.opened 0] ∧
      f.channel.socket = some 0 ∧ ∀ deadline, f.connect deadline net =
        (some (.error (.protocol (.frame (.tooLarge size Frame.sizeLimit)))), f, net) := by
  obtain ⟨size, hframe⟩ := encode_subscription_of_long (Nat.le_of_eq length_endlessName.symm)
  obtain ⟨deeds, f, net, hrun, course, -, hcurrent⟩ :=
    performAll_unsaid ⟨"127.0.0.1", 9000⟩ hframe 5000 1000 100
      [{ use := .connect, deadline := 1000 }] acceptingNetwork
  have hopen : f.channel.socket = some 0 := by
    have hsocket := socket_unsaid hframe
    rwa [hrun] at hsocket
  obtain ⟨hopened, hagain⟩ := hcurrent 0 hopen
  exact ⟨deeds, f, net, size, hrun, course, hopened, hopen, hagain⟩

end Gallows.Feed
