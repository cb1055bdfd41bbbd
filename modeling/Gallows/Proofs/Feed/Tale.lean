import Gallows.Proofs.Channel.Facing
import Gallows.Proofs.Feed.Delivery
import Gallows.Proofs.Feed.Patience

/-!
What a server tells a feed up to a failure. A tale goes through the frames of one connection after
another, to a frame or header that is malformed or an attempt to connect that fails; and a feed that
is at some stage of a tale, and waits for long enough, comes to the next event of the tale and the
stage behind it, or to the failure at its end.
-/
namespace Gallows.Feed

open Channel (Facing Meets)
open Gallows.Frame (Pending Oversized)

/-- Where a feed is in a tale. -/
inductive Stage
  /-- It is connected and these bytes are before it, with which the stream ends if it is to end. -/
  | before (bytes : List UInt8) (ends : Bool)
  /-- It has no connection. -/
  | between

/-- What comes of introducing a feed on a connection that is accepted. -/
inductive Introduced (f : Feed) (endpoint : Endpoint) (script : List Act)
    (writes : List Sink.Step) : Except Fault Unit → Prop
  | silent (hsub : f.subscribe = false) : Introduced f endpoint script writes (.ok ())
  | written (r : Except Fault Unit) (frame : ByteArray) (hsub : f.subscribe = true)
      (he : Frame.encode (subscription f.username) = .ok frame)
      (hw : ∀ now, ((Connection.accepted endpoint script writes now).write now frame).1 = r) :
      Introduced f endpoint script writes r

/-- Whether a server, which has met `n` attempts to connect, tells a feed these events and nothing
more before this failure. -/
inductive Tale (f : Feed) (server : Server) : Stage → Nat → List Event → Failure → Prop
  | event {body : ByteArray} {e : Event} {rest : List UInt8} {ends : Bool} {n : Nat}
      {events : List Event} {failure : Failure} (hl : body.size ≤ Frame.sizeLimit)
      (hn : newsOfBody body = some (.ok e))
      (tale : Tale f server (.before rest ends) n events failure) :
      Tale f server (.before (Frame.frame body.data.toList ++ rest) ends) n (e :: events) failure
  /-- A frame without a document. -/
  | nothing {body : ByteArray} {rest : List UInt8} {ends : Bool} {n : Nat} {events : List Event}
      {failure : Failure} (hl : body.size ≤ Frame.sizeLimit) (hn : newsOfBody body = none)
      (tale : Tale f server (.before rest ends) n events failure) :
      Tale f server (.before (Frame.frame body.data.toList ++ rest) ends) n events failure
  /-- A frame that holds no envelope, or an unknown event, or a document that does not fit it. -/
  | malformed {body : ByteArray} {rest : List UInt8} {ends : Bool} {n : Nat} {failure : Failure}
      (hl : body.size ≤ Frame.sizeLimit) (hn : newsOfBody body = some (.error failure)) :
      Tale f server (.before (Frame.frame body.data.toList ++ rest) ends) n [] failure
  | oversized {header rest : List UInt8} {ends : Bool} {n : Nat} (ho : Oversized header) :
      Tale f server (.before (header ++ rest) ends) n []
        (.protocol (.frame (.tooLarge (Frame.spelled header) Frame.sizeLimit)))
  /-- The stream ends, maybe within a frame. -/
  | ended {bytes : List UInt8} {n : Nat} {events : List Event} {failure : Failure}
      (hp : Pending bytes) (tale : Tale f server .between n events failure) :
      Tale f server (.before bytes true) n events failure
  | accepted {time n : Nat} {script : List Act} {writes : List Sink.Step} {events : List Event}
      {failure : Failure} (hr : server.reception n = .accept time script writes)
      (ht : time < f.channel.connectTimeout)
      (hi : Introduced f server.endpoint script writes (.ok ()))
      (hscript : Act.Timed f.subscribe.toNat script)
      (tale : Tale f server (.before (Act.bytes false script) (Act.ends script)) (n + 1)
        events failure) :
      Tale f server .between n events failure
  | declined {n : Nat} {fault : Fault} (h : f.channel.Declined (server.reception n) fault) :
      Tale f server .between n [] (.connect server.endpoint.text fault)
  /-- The connection comes about, but the subscription cannot be written. -/
  | broken {time n : Nat} {script : List Act} {writes : List Sink.Step} {fault : Fault}
      (hr : server.reception n = .accept time script writes) (ht : time < f.channel.connectTimeout)
      (hi : Introduced f server.endpoint script writes (.error fault)) :
      Tale f server .between n [] (.transport fault)

variable {server : Server} {f₀ f f' : Feed} {net net' : Network} {stage : Stage} {n : Nat}
  {bytes rest : List UInt8} {ends : Bool} {s : Socket} {due deadline : Nat} {c : Channel}
  {events : List Event} {failure : Failure}

/-- Whether a feed, which was `f₀` at first, is for this server and can reach it. -/
structure Serves (server : Server) (f₀ f : Feed) (net : Network) : Prop where
  endpoint : f.channel.endpoint = server.endpoint
  connectTimeout : f.channel.connectTimeout = f₀.channel.connectTimeout
  readTimeout : f.channel.readTimeout = f₀.channel.readTimeout
  username : f.username = f₀.username
  subscribe : f.subscribe = f₀.subscribe
  reaches : net.Reaches (server.after f.channel.generation)

/-- Whether a feed, which was `f₀` at first, is at a stage of a tale. -/
inductive At (server : Server) (f₀ f : Feed) (net : Network) : Stage → Nat → Prop
  | before {bytes : List UInt8} {ends : Bool} {s : Socket} {due : Nat}
      (serves : Serves server f₀ f net)
      (greeted : f.subscribe = true → f.subscribed = f.channel.generation)
      (facing : Facing f.channel net s bytes ends due) :
      At server f₀ f net (.before bytes ends) f.channel.generation
  | between (serves : Serves server f₀ f net) (closed : f.channel.socket = none)
      (idle : f.channel.assembler.Holds [])
      (counted : f.subscribe = true → f.subscribed ≤ f.channel.generation) :
      At server f₀ f net .between f.channel.generation

theorem Serves.atRest (h : Serves server f₀ f net) : Serves server f₀ f.atRest net :=
  ⟨h.endpoint, h.connectTimeout, h.readTimeout, h.username, h.subscribe, h.reaches⟩

theorem Serves.wait (h : Serves server f₀ f net) (time : Nat) :
    Serves server f₀ f (net.waitUntil time) :=
  ⟨h.endpoint, h.connectTimeout, h.readTimeout, h.username, h.subscribe, h.reaches.of_world rfl⟩

/-- A feed that is connected need not do anything to be. -/
theorem connect_of_greeted (hs : f.channel.socket = some s)
    (hg : f.subscribe = true → f.subscribed = f.channel.generation) (deadline : Nat)
    (net : Network) : f.connect deadline net = (some (.ok ()), f, net) := by
  have hneed : ¬ (f.subscribe && f.channel.generation ≠ f.subscribed) := by
    intro hneed
    simp only [Bool.and_eq_true, decide_eq_true_eq] at hneed
    exact hneed.2 (hg hneed.1).symm
  simp only [connect, Channel.ensure_of_open hs, if_neg hneed]

theorem At.connect_eq (h : At server f₀ f net (.before bytes ends) n) (deadline : Nat) :
    f.connect deadline net = (some (.ok ()), f, net) := by
  cases h with
  | before _ greeted facing => exact connect_of_greeted facing.socket greeted deadline net

/-- What an envelope brings is what it tells. -/
theorem ofEnvelope_eq (e : Envelope.Server) :
    Found.ofEnvelope e = (newsOf (.ok e)).elim (.ok .nothing) (·.map .event) := by
  simp only [Found.ofEnvelope, newsOf]
  split
  · cases Event.decode e.message e.payload <;> rfl
  · rfl

/-- The channel of a feed behind a poll that left it on the way. -/
theorem Serves.behind (h : Serves server f₀ f net) (hc : c.endpoint = f.channel.endpoint)
    (ht : c.connectTimeout = f.channel.connectTimeout) (hr : c.readTimeout = f.channel.readTimeout)
    (hg : c.generation = f.channel.generation) (hw : net'.world = net.world) :
    Serves server f₀ (f.behind c) net' where
  endpoint := hc.trans h.endpoint
  connectTimeout := ht.trans h.connectTimeout
  readTimeout := hr.trans h.readTimeout
  username := h.username
  subscribe := h.subscribe
  reaches := by
    have hreach := h.reaches.of_world hw
    rwa [← hg] at hreach

/-- Whether a round of a wait, begun by a feed that these bytes are before, meets something
there. -/
structure Met (server : Server) (f₀ f : Feed) (net : Network) (bytes : List UInt8) (ends : Bool)
    (s : Socket) (due : Nat) (r : Except Failure Envelope.Server) (c : Channel) (net' : Network) :
    Prop where
  serves : Serves server f₀ f net
  greeted : f.subscribe = true → f.subscribed = f.channel.generation
  polled : Polled .never (net.now + f.channel.readTimeout) f net f net (some r) c net'
  world : net'.world = net.world
  meets : Meets f.channel s bytes ends due r c net'

/-- A feed polls, again and again if it must, until it meets what is before it. -/
theorem At.meets (h : At server f₀ f net (.before bytes ends) n) (h0 : 0 < f₀.channel.readTimeout)
    (hmore : Pending bytes → ends = true) :
    ∃ f₁ net₁ s due r c net₂, ComesBy f net f₁ net₁ ∧ f₁.channel.generation = n ∧
      Met server f₀ f₁ net₁ bytes ends s due r c net₂ := by
  cases h with
  | @before _ _ s due serves greeted facing =>
    -- What is left until the server's script is due gets less with every poll that waits in vain.
    induction hk : due - net.now using Nat.strong_induction_on generalizing f net with
    | _ k ih =>
      obtain ⟨r, c, net', hpoll, hworld, hor⟩ := facing.poll
      have hpolled : Polled .never (net.now + f.channel.readTimeout) f net f net (some r) c net' :=
        ⟨by simp [Token.isFired], connect_of_greeted facing.socket greeted _ _,
          by simp [Token.isFired], hpoll⟩
      rcases hor with hmeets | ⟨rfl, hwaited⟩
      · exact ⟨f, net, s, due, r, c, net', .refl f net, rfl,
          ⟨serves, greeted, hpolled, hworld, hmeets⟩⟩
      · obtain ⟨time, hcomes⟩ := ComesBy.of_polled hpolled rfl
        obtain ⟨a, rfl⟩ := hwaited.channel
        have hlate : net.now < due := by
          by_contra hdue
          obtain ⟨hp, hends⟩ := hwaited.inVain (Nat.le_of_not_lt hdue)
          rw [hmore hp] at hends
          cases hends
        have hless : due - (net'.waitUntil time).now < k := by
          have hread := serves.readTimeout
          have hlater := hwaited.later
          simp only [Network.waitUntil]
          omega
        have hserves := serves.behind (c := { f.channel with assembler := a }) rfl rfl rfl rfl hworld
        obtain ⟨f₁, net₁, s₁, due₁, r₁, c₁, net₂, hcomes₁, hgen, hmet⟩ := ih _ hless
          (f := (f.behind { f.channel with assembler := a }).atRest)
          (hserves.atRest.wait time) greeted (hwaited.facing.wait time) rfl
        exact ⟨f₁, net₁, s₁, due₁, r₁, c₁, net₂, hcomes.trans hcomes₁, hgen, hmet⟩

/-- A frame that brings no failure holds an envelope. -/
theorem decodeBody_of_news {body : ByteArray}
    (h : ∀ failure, newsOfBody body ≠ some (.error failure)) :
    ∃ e : Envelope.Server, Frame.decodeBody body = .ok e := by
  cases hd : Frame.decodeBody (α := Envelope.Server) body with
  | ok e => exact ⟨e, rfl⟩
  | error cause =>
    refine absurd ?_ (h (.protocol cause))
    rw [newsOfBody, hd]
    rfl

/-- What a poll that has met a frame makes of the wait: the feed goes on, or the wait ends with the
news of the frame. -/
theorem news_of_polled {body : ByteArray} (hpolled : Polled .never deadline f net f net
      (some ((Frame.decodeBody body).mapError .protocol)) c net') :
    (newsOfBody body = none ∧ ∃ time, ComesBy f net (f.behind c).atRest (net'.waitUntil time)) ∨
      ∃ news f', newsOfBody body = some news ∧ ComesTo f net (news.map .event) f' net' ∧
        ((∀ failure, news ≠ .error failure) → f' = (f.behind c).atRest) := by
  cases hd : Frame.decodeBody (α := Envelope.Server) body with
  | error cause =>
    have hnews : newsOfBody body = some (.error (.protocol cause)) := by
      rw [newsOfBody, hd]
      rfl
    rw [hd] at hpolled
    exact Or.inr ⟨_, _, hnews, .last (.failed _ hpolled), fun hne => absurd rfl (hne _)⟩
  | ok e =>
    have hnews : newsOfBody body = newsOf (.ok e) := by
      rw [newsOfBody, hd]
      rfl
    have hfound := ofEnvelope_eq e
    rw [hd] at hpolled
    rw [hnews]
    cases hn : newsOf (.ok e) with
    | none =>
      rw [hn] at hfound
      exact Or.inl ⟨rfl, ComesBy.of_polled hpolled hfound⟩
    | some news =>
      rw [hn] at hfound
      have hround := Round.brought e hpolled (by rw [hfound]; cases news <;> simp [Except.map])
      rw [hfound] at hround
      exact Or.inr ⟨news, _, rfl, .last hround, fun _ => rfl⟩

/-- A frame that is before a feed tells what it tells. -/
theorem At.frame {body : ByteArray} (hl : body.size ≤ Frame.sizeLimit)
    (h : At server f₀ f net (.before (Frame.frame body.data.toList ++ rest) ends) n)
    (h0 : 0 < f₀.channel.readTimeout) :
    ∃ f' net', (newsOfBody body = none → ComesBy f net f' net') ∧
      (∀ news, newsOfBody body = some news → ComesTo f net (news.map .event) f' net') ∧
      ((∀ failure, newsOfBody body ≠ some (.error failure)) →
        At server f₀ f' net' (.before rest ends) n) := by
  obtain ⟨f₁, net₁, s, due, r, c, net₂, hcomes, rfl, hmet⟩ :=
    h.meets h0 fun hp => absurd hp (Frame.not_pending_frame hl rest)
  obtain ⟨serves, greeted, hpolled, hworld, hmeets⟩ := hmet
  cases hmeets with
  | ended hp => exact absurd hp (Frame.not_pending_frame hl rest)
  | oversized header rest' hb ho => exact absurd hb (Frame.frame_ne_oversized hl ho)
  | @frame a _ body' rest' hb hl' facing =>
    obtain ⟨rfl, rfl⟩ := Frame.frame_append_inj hl hl' hb
    have hserves := serves.behind (c := { f₁.channel with assembler := a }) rfl rfl rfl rfl hworld
    rcases news_of_polled hpolled with ⟨hnews, time, hon⟩ | ⟨news, f', hnews, hto, hrest⟩
    · refine ⟨_, _, fun _ => hcomes.trans hon, by simp [hnews], fun hne => ?_⟩
      obtain ⟨e, he⟩ := decodeBody_of_news hne
      exact .before (f := (f₁.behind { f₁.channel with assembler := a }).atRest)
        (hserves.atRest.wait time) greeted ((facing e he).wait time)
    · refine ⟨f', net₂, by simp [hnews], ?_, fun hne => ?_⟩
      · intro news' hn'
        obtain rfl := Option.some.inj (hnews.symm.trans hn')
        exact hcomes _ _ _ hto
      · obtain ⟨e, he⟩ := decodeBody_of_news hne
        rw [hrest fun failure hf => hne failure (by rw [hnews, hf])]
        exact .before (f := (f₁.behind { f₁.channel with assembler := a }).atRest)
          hserves.atRest greeted (facing e he)

/-- A header that announces too much ends the wait. -/
theorem At.oversized {header : List UInt8} (ho : Oversized header)
    (h : At server f₀ f net (.before (header ++ rest) ends) n) (h0 : 0 < f₀.channel.readTimeout) :
    ∃ f' net', ComesTo f net
      (.error (.protocol (.frame (.tooLarge (Frame.spelled header) Frame.sizeLimit)))) f' net' := by
  obtain ⟨f₁, net₁, s, due, r, c, net₂, hcomes, -, hmet⟩ :=
    h.meets h0 fun hp => absurd hp (Frame.not_pending_oversized ho rest)
  obtain ⟨-, -, hpolled, -, hmeets⟩ := hmet
  cases hmeets with
  | ended hp => exact absurd hp (Frame.not_pending_oversized ho rest)
  | frame body' rest' hb hl' => exact absurd hb.symm (Frame.frame_ne_oversized hl' ho)
  | oversized header' rest' hb ho' =>
    have hspelled : Frame.spelled header' = Frame.spelled header := by
      have hsplit := congrArg (fun s => (Frame.split s).1.head?) hb
      simpa [Frame.split_oversized_append ho, Frame.split_oversized_append ho'] using hsplit.symm
    rw [hspelled] at hpolled
    exact ⟨_, _, hcomes _ _ _ (.last (.failed _ hpolled))⟩

/-- A feed whose stream has ended goes on without a connection. -/
theorem At.ended (hp : Pending bytes) (h : At server f₀ f net (.before bytes true) n)
    (h0 : 0 < f₀.channel.readTimeout) :
    ∃ f' net', ComesBy f net f' net' ∧ At server f₀ f' net' .between n := by
  obtain ⟨f₁, net₁, s, due, r, c, net₂, hcomes, rfl, hmet⟩ := h.meets h0 fun _ => rfl
  obtain ⟨serves, greeted, hpolled, hworld, hmeets⟩ := hmet
  cases hmeets with
  | frame body rest hb hl => exact absurd (hb ▸ hp) (Frame.not_pending_frame hl rest)
  | oversized header rest hb ho => exact absurd (hb ▸ hp) (Frame.not_pending_oversized ho rest)
  | @ended a _ _ ha =>
    obtain ⟨time, hon⟩ := ComesBy.of_polled hpolled rfl
    have hserves := serves.behind (c := { f₁.channel with socket := none, assembler := a })
      rfl rfl rfl rfl hworld
    refine ⟨_, _, hcomes.trans hon, ?_⟩
    exact .between (f := (f₁.behind { f₁.channel with socket := none, assembler := a }).atRest)
      (hserves.atRest.wait time) rfl ha fun hsub => Nat.le_of_eq (greeted hsub)

/-- A feed that is declined fails. -/
theorem At.declined {fault : Fault} (hd : f₀.channel.Declined (server.reception n) fault)
    (h : At server f₀ f net .between n) (hdeadline : net.now + f.channel.connectTimeout ≤ deadline) :
    ∃ f' net', f.connect deadline net =
      (some (.error (.connect server.endpoint.text fault)), f', net') := by
  cases h with
  | between serves closed =>
    obtain ⟨net', hensure⟩ := Channel.ensure_of_declined closed serves.endpoint serves.reaches
      (hd.of_same serves.connectTimeout) hdeadline
    exact ⟨_, _, by simp only [connect, hensure]; rfl⟩

/-- A feed on a socket that it has just opened and introduced itself on. -/
theorem Serves.opened {g : Feed} {script : List Act} (h : Serves server f₀ f net)
    (hg : g.channel = f.channel.opened s) (hname : g.username = f.username)
    (hsub : g.subscribe = f.subscribe)
    (hreach : net'.Reaches (server.after (f.channel.generation + 1)))
    (hgreeted : g.subscribe = true → g.subscribed = g.channel.generation)
    (idle : f.channel.assembler.Holds []) (hcoming : net'.coming s = Act.bytes false script)
    (htidy : net'.Tidy s) (hscheduled : net'.Scheduled s (Act.ends script) due) :
    At server f₀ g net' (.before (Act.bytes false script) (Act.ends script))
      (f.channel.generation + 1) := by
  have hgen : g.channel.generation = f.channel.generation + 1 := by rw [hg]; rfl
  rw [← hgen] at hreach ⊢
  refine .before ⟨?_, ?_, ?_, hname.trans h.username, hsub.trans h.subscribe, hreach⟩ hgreeted
    ⟨?_, ?_, htidy, hscheduled⟩
  · rw [hg]
    exact h.endpoint
  · rw [hg]
    exact h.connectTimeout
  · rw [hg]
    exact h.readTimeout
  · rw [hg]
    rfl
  · rw [hg]
    exact ⟨[], idle.reset, hcoming⟩

/-- A feed that is accepted says what it has to say, or fails at that. -/
theorem At.accepted {time : Nat} {script : List Act} {writes : List Sink.Step}
    {r : Except Fault Unit} (hr : server.reception n = .accept time script writes)
    (ht : time < f₀.channel.connectTimeout) (hi : Introduced f₀ server.endpoint script writes r)
    (h : At server f₀ f net .between n) (hd : net.now + f.channel.connectTimeout ≤ deadline) :
    ∃ f' net', f.connect deadline net = (some (r.mapError .transport), f', net') ∧
      (r = .ok () → Act.Timed f₀.subscribe.toNat script →
        At server f₀ f' net' (.before (Act.bytes false script) (Act.ends script)) (n + 1)) := by
  cases h with
  | between serves closed idle counted =>
    obtain ⟨s, net₁, hensure, hreach, hnew⟩ := Channel.ensure_of_accepted closed serves.endpoint
      serves.reaches hr (serves.connectTimeout ▸ ht) hd
    obtain ⟨hcoming, htidy⟩ := Network.coming_of_accepted hnew
    cases hi with
    | silent hsub =>
      have hneed : ¬ (f.subscribe && (f.channel.opened s).generation ≠ f.subscribed) = true := by
        simp [serves.subscribe, hsub]
      refine ⟨_, _, by simp only [connect, hensure, if_neg hneed]; rfl, ?_⟩
      intro _ htimed
      rw [hsub] at htimed
      refine serves.opened (g := { f with channel := f.channel.opened s }) rfl rfl rfl hreach ?_ idle
        hcoming htidy (Network.scheduled_of_accepted hnew htimed)
      simp [serves.subscribe, hsub]
    | written _ frame hsub he hw =>
      have hneed : (f.subscribe && (f.channel.opened s).generation ≠ f.subscribed) = true := by
        have hsubscribe : f.subscribe = true := serves.subscribe.trans hsub
        have hne : f.channel.generation + 1 ≠ f.subscribed :=
          Nat.ne_of_gt (Nat.lt_succ_of_le (counted hsubscribe))
        simp [hsubscribe, Channel.opened, hne]
      have hwrite : (net₁.write s frame).1 = r := by rw [Network.fst_write hnew, hw]
      have hsocket : (f.channel.opened s).socket = some s := rfl
      obtain ⟨hl, hframe⟩ := Frame.ofBody_eq_ok he
      rw [← serves.username] at he
      cases r with
      | error fault =>
        refine ⟨{ f with channel := ((f.channel.opened s).close (net₁.write s frame).2).1 },
          ((f.channel.opened s).close (net₁.write s frame).2).2, ?_, by simp⟩
        simp only [connect, hensure, if_pos hneed]
        rw [Channel.send_of_unwritten hsocket he hwrite]
        rfl
      | ok _ =>
        refine ⟨{ f with
            channel := f.channel.opened s, subscribed := (f.channel.opened s).generation },
          (net₁.write s frame).2, ?_, ?_⟩
        · simp only [connect, hensure, if_pos hneed]
          rw [Channel.send_of_written hsocket he hwrite]
          rfl
        · intro _ htimed
          rw [hsub] at htimed
          have hscheduled := Network.scheduled_of_write hnew htimed hl hframe hwrite
          refine serves.opened (g := { f with
              channel := f.channel.opened s, subscribed := (f.channel.opened s).generation })
            rfl rfl rfl (hreach.of_world (Network.world_write _ _ _)) (fun _ => rfl) idle ?_
            (htidy.write frame) hscheduled
          rw [Network.coming_write, hcoming]

/-- What a wait comes to at a stage of a tale: the next event, and it is at a later stage then, or
the failure at the end. -/
inductive Told (server : Server) (f₀ : Feed) :
    List Event → Failure → Except Failure Found → Feed → Network → Prop
  | event {e : Event} {events : List Event} {failure : Failure} {f : Feed} {net : Network}
      {stage : Stage} {n : Nat} (h : At server f₀ f net stage n)
      (tale : Tale f₀ server stage n events failure) :
      Told server f₀ (e :: events) failure (.ok (.event e)) f net
  | failed {failure : Failure} {f : Feed} {net : Network} :
      Told server f₀ [] failure (.error failure) f net

/-- Whether a wait comes to what a tale tells next. -/
def Hears (server : Server) (f₀ f : Feed) (net : Network) (events : List Event)
    (failure : Failure) : Prop :=
  ∃ r f' net', ComesTo f net r f' net' ∧ Told server f₀ events failure r f' net'

theorem Hears.of_comesBy {f₁ : Feed} {net₁ : Network} (hcomes : ComesBy f net f₁ net₁)
    (h : Hears server f₀ f₁ net₁ events failure) : Hears server f₀ f net events failure := by
  obtain ⟨r, f', net', hto, htold⟩ := h
  exact ⟨r, f', net', hcomes _ _ _ hto, htold⟩

/-- A wait that cannot connect fails. -/
theorem Hears.of_unconnected (h : f.connect deadline net = (some (.error failure), f', net')) :
    Hears server f₀ f net [] failure :=
  ⟨_, f', net', .last (.unconnected failure (by simp [Token.isFired]) h), .failed⟩

/-- At every stage of a tale a wait comes to what the tale tells next. -/
theorem Tale.hears (h : Tale f₀ server stage n events failure) (h0 : 0 < f₀.channel.readTimeout)
    (hat : At server f₀ f net stage n) : Hears server f₀ f net events failure := by
  induction h generalizing f net with
  | event hl hn tale _ =>
    obtain ⟨f', net', -, hcomes, hat'⟩ := hat.frame hl h0
    exact ⟨_, f', net', hcomes _ hn, .event (hat' (by simp [hn])) tale⟩
  | nothing hl hn _ ih =>
    obtain ⟨f', net', hcomes, -, hat'⟩ := hat.frame hl h0
    exact (ih (hat' (by simp [hn]))).of_comesBy (hcomes hn)
  | malformed hl hn =>
    obtain ⟨f', net', -, hcomes, -⟩ := hat.frame hl h0
    exact ⟨_, f', net', hcomes _ hn, .failed⟩
  | oversized ho =>
    obtain ⟨f', net', hcomes⟩ := hat.oversized ho h0
    exact ⟨_, f', net', hcomes, .failed⟩
  | ended hp _ ih =>
    obtain ⟨f', net', hcomes, hat'⟩ := hat.ended hp h0
    exact (ih hat').of_comesBy hcomes
  | accepted hr ht hi hscript _ ih =>
    obtain ⟨f', net', hconnect, hat'⟩ := hat.accepted hr ht hi (Nat.le_refl _)
    have hbefore := hat' rfl hscript
    exact (ih hbefore).of_comesBy (.of_connect hconnect hbefore.connect_eq)
  | declined hd =>
    obtain ⟨f', net', hconnect⟩ := hat.declined hd (Nat.le_refl _)
    exact .of_unconnected hconnect
  | broken hr ht hi =>
    obtain ⟨f', net', hconnect, -⟩ := hat.accepted hr ht hi (Nat.le_refl _)
    exact .of_unconnected hconnect

end Gallows.Feed
