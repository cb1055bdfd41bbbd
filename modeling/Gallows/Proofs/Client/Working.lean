import Gallows.Proofs.Caller.Answered
import Gallows.Proofs.Client.Watching

/-!
Which settings work. With a server that accepts, and answers within a second, a client connects and
every call gets its reply, unless the settings give one of them no time at all.
-/
namespace Gallows

open Caller (Call Fails Replied Abandoned Unhurried)

/-- Whether a server accepts within a second, takes whatever is written to it, and does not break
the connection off. -/
inductive Reception.Welcomes : Reception → Prop
  | accept {time : Nat} {script : List Act} {writes : List Sink.Step} (ht : time < 1000)
      (hw : ∀ step ∈ writes, step.Advances fun _ => false) (hreset : Act.reset ∉ script) :
      Welcomes (.accept time script writes)

theorem Connection.write_welcomed {script : List Act} {writes : List Sink.Step}
    (hw : ∀ step ∈ writes, step.Advances fun _ => false) (h : Act.reset ∉ script)
    (endpoint : Endpoint) (now : Nat) (bytes : ByteArray) :
    ((accepted endpoint script writes now).write now bytes).1 = .ok () := by
  have hsevered := severed_accepted h endpoint writes now
  have houtbound : ((accepted endpoint script writes now).play now).outbound =
      { script := writes } := by
    simp [accepted]
  have hpatient : Sink.Patient (fun _ => false) { script := writes } := hw
  have hsink := (Sink.push_patient hpatient bytes).1
  simp only [write, hsevered, Bool.false_eq_true, if_false, houtbound, hsink]

namespace Network

variable {net net' net'' : Network} {endpoint : Endpoint} {s : Socket} {n : Nat}
  {bodies : List (List UInt8)} {server : Server}

/-- Whether nothing happens on the way from one network to the other but between the client and an
endpoint, on connections that are new. -/
structure Besides (endpoint : Endpoint) (net net' : Network) : Prop where
  later : net.now ≤ net'.now
  length : net.connections.length ≤ net'.connections.length
  older : ∀ s < net.connections.length, net'.connections[s]? = net.connections[s]?
  reaches : ∀ server : Server, server.endpoint ≠ endpoint → net.Reaches server → net'.Reaches server

theorem Besides.awaits (h : Besides endpoint net net') (ha : net.Awaits s n bodies) :
    net'.Awaits s n bodies := by
  obtain ⟨c, hc, hawaits⟩ := ha
  exact ⟨c, (h.older s (List.getElem?_eq_some_iff.mp hc).1).trans hc, hawaits.wait h.later⟩

theorem besides_connect (net : Network) (endpoint : Endpoint) (deadline : Nat) :
    Besides endpoint net (net.connect endpoint deadline).2 := by
  refine ⟨now_le_connect net endpoint deadline, length_connect endpoint deadline, ?_,
    fun server hne hreach => hreach.connect hne deadline⟩
  intro s hs
  have hconnections : (net.reception endpoint).2.connections = net.connections := by
    simp only [reception]
    split
    · rfl
    · split <;> rfl
  have hnew (c : Connection) : (net.connections ++ [c])[s]? = net.connections[s]? :=
    List.getElem?_append_left hs
  simp only [connect]
  split
  · rfl
  · generalize net.reception endpoint = result at hconnections ⊢
    obtain ⟨reception, net₁⟩ := result
    dsimp only at hconnections
    cases reception with
    | ignore => simp [waitUntil, hconnections]
    | refuse time =>
      dsimp only
      split <;> simp [waitUntil, hconnections]
    | accept time script writes =>
      dsimp only
      split
      · simp [accept, waitUntil, hconnections, hnew]
      · have hne : net.connections.length ≠ s := Nat.ne_of_gt hs
        simp [accept, waitUntil, close, modify, hconnections, hne, hnew]

theorem Besides.write (h : Besides endpoint net net') (hs : net.connections.length ≤ s)
    (bytes : ByteArray) : Besides endpoint net (net'.write s bytes).2 := by
  refine ⟨?_, ?_, ?_, ?_⟩
  · rw [now_write]
    exact h.later
  · rw [length_write]
    exact h.length
  · intro t ht
    have hne : s ≠ t := Nat.ne_of_gt (Nat.lt_of_lt_of_le ht hs)
    rw [← h.older t ht, Network.write]
    split
    · rfl
    · simp [modify, hne]
  · intro server hne hreach
    exact (h.reaches server hne hreach).of_world (world_write net' s bytes)

end Network

namespace Channel

variable {c : Channel} {net : Network} {server : Server} {deadline : Nat}

/-- What a channel without a socket does to the network when it opens one. -/
theorem besides_ensure (hs : c.socket = none) (deadline : Nat) (net : Network) :
    Network.Besides c.endpoint net (c.ensure deadline net).2.2 := by
  have hbesides := net.besides_connect c.endpoint (min (net.now + c.connectTimeout) deadline)
  rw [ensure]
  simp only [hs]
  generalize net.connect c.endpoint _ = result at hbesides ⊢
  obtain ⟨_ | ⟨_ | _⟩, net'⟩ := result
  · dsimp only
    split <;> exact hbesides
  · exact hbesides
  · exact hbesides

/-- A channel that is welcome opens a socket on which it may write. -/
theorem ensure_welcomed (hs : c.socket = none) (he : c.endpoint = server.endpoint)
    (hreach : net.Reaches (server.after 0)) (hwelcomes : (server.reception 0).Welcomes)
    (ht : 1000 ≤ c.connectTimeout) (hd : net.now + c.connectTimeout ≤ deadline) :
    ∃ s net', c.ensure deadline net = (some (.ok s), c.opened s, net') ∧
      Network.Besides c.endpoint net net' ∧ net'.now ≤ net.now + c.connectTimeout ∧
      net.connections.length ≤ s ∧ ∀ bytes, (net'.write s bytes).1 = .ok () := by
  generalize hr : server.reception 0 = reception at hwelcomes
  cases hwelcomes with
  | accept htime hw hreset =>
    obtain ⟨s, net', hensure, -, hnew⟩ := ensure_of_accepted hs he hreach hr
      (Nat.lt_of_lt_of_le htime ht) hd
    have hbesides := besides_ensure hs deadline net
    have hopens := opens_of_ensure hensure
    rw [hensure] at hbesides
    refine ⟨s, net', hensure, hbesides, (ensure_ends hd hensure).2, ?_, fun bytes => ?_⟩
    · generalize c.opened s = opened at hopens
      cases hopens with
      | kept _ hopen => simp [hs] at hopen
      | opened => exact Nat.le_refl _
      | unopened _ hr => exact absurd rfl (hr s)
    · rw [Network.fst_write hnew]
      exact Connection.write_welcomed hw hreset _ _ bytes

end Channel

/-- Whether the request for the events of a player fits into a frame. -/
def Feed.Fits (username : String) : Prop :=
  (Wire.Message.encode (Feed.subscription username)).size ≤ Frame.sizeLimit

/-- What subscribing fails with whose request does not fit. -/
def Feed.tooLarge (username : String) : Failure :=
  .protocol (.frame (.tooLarge
    (min (Wire.Message.encode (Feed.subscription username)).size 0xffffffff) Frame.sizeLimit))

namespace Feed

open Network (Besides)

variable {f : Feed} {server : Server} {net : Network} {deadline : Nat}

/-- A feed that is welcome connects, and subscribes if it is to. -/
theorem connect_welcomed (hs : f.channel.socket = none) (he : f.channel.endpoint = server.endpoint)
    (hreach : net.Reaches (server.after 0)) (hwelcomes : (server.reception 0).Welcomes)
    (ht : 1000 ≤ f.channel.connectTimeout) (hd : net.now + f.channel.connectTimeout ≤ deadline)
    (hfits : f.subscribe = true → Fits f.username) :
    ∃ f' net', f.connect deadline net = (some (.ok ()), f', net') ∧
      Besides f.channel.endpoint net net' ∧ net'.now ≤ net.now + f.channel.connectTimeout := by
  obtain ⟨s, net₁, hensure, hbesides, hnow, hlength, hwrite⟩ :=
    Channel.ensure_welcomed hs he hreach hwelcomes ht hd
  by_cases hneed : (f.subscribe && (f.channel.opened s).generation ≠ f.subscribed) = true
  · obtain ⟨hsub, -⟩ := Bool.and_eq_true_iff.mp hneed
    obtain ⟨frame, hencode, -⟩ := Frame.encode_eq_ok (hfits hsub)
    have hsocket : (f.channel.opened s).socket = some s := rfl
    have hsend := Channel.send_of_written hsocket hencode (hwrite frame) deadline
    refine ⟨{ f with
      channel := f.channel.opened s, subscribed := (f.channel.opened s).generation }, _, ?_,
      hbesides.write hlength frame, ?_⟩
    · simp only [connect, hensure, if_pos hneed, hsend]
    · rw [Network.now_write]
      exact hnow
  · refine ⟨{ f with channel := f.channel.opened s }, net₁, ?_, hbesides, hnow⟩
    simp only [connect, hensure, if_neg hneed]

/-- A feed that is welcome, but has too long a name to subscribe. -/
theorem connect_tooLarge (hs : f.channel.socket = none)
    (hf : f.subscribed ≤ f.channel.generation) (he : f.channel.endpoint = server.endpoint)
    (hreach : net.Reaches (server.after 0)) (hwelcomes : (server.reception 0).Welcomes)
    (ht : 1000 ≤ f.channel.connectTimeout) (hd : net.now + f.channel.connectTimeout ≤ deadline)
    (hsub : f.subscribe = true) (hlarge : ¬ Fits f.username) :
    ∃ f' net', f.connect deadline net = (some (.error (tooLarge f.username)), f', net') := by
  obtain ⟨s, net₁, hensure, -⟩ := Channel.ensure_welcomed hs he hreach hwelcomes ht hd
  have hneed : (f.channel.opened s).generation ≠ f.subscribed :=
    Nat.ne_of_gt (Nat.lt_succ_of_le hf)
  have hencode : Frame.encode (subscription f.username) = .error _ :=
    Frame.encode_of_large (Nat.lt_of_not_le hlarge)
  exact ⟨_, net₁, connect_unsaid hencode hsub hensure hneed⟩

end Feed

namespace Client

open Network (Besides)

variable {o : Options} {game notify : Server} {net : Network} {deadline : Nat}
  {body : List UInt8} {bodies : List (List UInt8)}

/-- Without any time to connect a client fails, unless the server accepts at once. -/
theorem connect_timesOut (username : String) (hgame : game.endpoint = ⟨o.address, o.gamePort⟩)
    (hreach : net.Reaches game) (hhesitates : (game.reception 0).Hesitates)
    (ht : o.connectTimeout = 0) (hd : net.now ≤ deadline) :
    Fails (connect o username deadline net).1
      (.connect game.endpoint.text ⟨.timedOut, "no answer after 0s"⟩) .connection := by
  have htime : (ofOptions o username).game.connectTimeout = 0 := ht
  have hnone : (ofOptions o username).game.noAnswer = ⟨.timedOut, "no answer after 0s"⟩ := by
    rw [Channel.noAnswer, htime]
    rfl
  have hdeclined : (ofOptions o username).game.Declined (game.reception 0)
      (ofOptions o username).game.noAnswer := by
    generalize game.reception 0 = reception at hhesitates ⊢
    cases reception with
    | accept time script writes =>
      exact .acceptedLate time script writes
        (Nat.le_trans (Nat.le_of_eq ht) (Nat.le_of_lt hhesitates))
    | refuse | ignore => cases hhesitates
  have hlimit : net.now + (ofOptions o username).game.connectTimeout ≤ deadline := by omega
  obtain ⟨net', hensure⟩ := Channel.ensure_of_declined rfl hgame.symm hreach hdeclined hlimit
  rw [hnone] at hensure
  refine ⟨?_, rfl⟩
  simp only [connect, hensure]

/-- Whether a client with these options is connected to a server that takes its requests, and is to
answer the first of them with these bodies. -/
structure Ready (o : Options) (game : Server) (bodies : List (List UInt8)) (c : Client)
    (net : Network) : Prop where
  requestTimeout : c.player.caller.requestTimeout = o.requestTimeout
  connectTimeout : c.game.connectTimeout = o.connectTimeout
  faces : c.game.Faces game net
  expects : ∃ s, c.game.Expects net s 0 bodies

variable {c : Client} {calls : List Call} {time : Nat}

/-- A client that waits for a second for replies gets all of them. -/
theorem Ready.replied (h : Ready o game bodies c net) (hmany : calls.length ≤ bodies.length)
    (ht : 1000 ≤ o.requestTimeout) (hnow : net.now ≤ time)
    (hcalls : Unhurried calls time (o.connectTimeout + o.requestTimeout)) :
    Replied (Caller.run calls c.player.caller net).1 bodies := by
  obtain ⟨s, hexpects⟩ := h.expects
  rw [← h.requestTimeout] at ht hcalls
  exact Caller.run_replied (fun _ => hexpects) hmany ht hnow (hcalls.mono (Nat.le_add_left _ _))

/-- A client that does not wait for replies gets none. -/
theorem Ready.abandoned (h : Ready o game bodies c net)
    (hserves : ∀ k, ∃ body bodies, (game.reception k).Serves (body :: bodies))
    (hconnect : 1000 ≤ o.connectTimeout) (ht : o.requestTimeout = 0) (hnow : net.now ≤ time)
    (hcalls : Unhurried calls time (o.connectTimeout + o.requestTimeout)) :
    ∀ x ∈ (Caller.run calls c.player.caller net).1, Abandoned x := by
  rw [← h.connectTimeout] at hconnect hcalls
  exact Caller.run_abandoned h.faces hserves hconnect (h.requestTimeout.trans ht) hnow
    (hcalls.mono (Nat.le_add_right _ _))

/-- A client that is welcome connects, unless it is to subscribe and has too long a name. -/
theorem connect_opens (username : String) (hne : o.gamePort ≠ o.notificationPort)
    (hgame : game.endpoint = ⟨o.address, o.gamePort⟩)
    (hnotify : notify.endpoint = ⟨o.address, o.notificationPort⟩) (hreach : net.Reaches game)
    (hreach' : net.Reaches notify) (hserves : (game.reception 0).Serves (body :: bodies))
    (hwelcomes : (notify.reception 0).Welcomes) (ht : 1000 ≤ o.connectTimeout)
    (hd : net.now + 2 * o.connectTimeout ≤ deadline) :
    (o.subscribe = true → ¬ Feed.Fits username →
      Fails (connect o username deadline net).1 (Feed.tooLarge username) .protocol) ∧
    ((o.subscribe = true → Feed.Fits username) →
      ∃ c net', connect o username deadline net = (some (.ok c), net') ∧
        Ready o game (body :: bodies) c net' ∧ net'.now ≤ net.now + 2 * o.connectTimeout) := by
  have htime : (ofOptions o username).game.connectTimeout = o.connectTimeout := rfl
  have htime' : (ofOptions o username).feed.channel.connectTimeout = o.connectTimeout := rfl
  have helsewhere : notify.endpoint ≠ (ofOptions o username).game.endpoint := by
    intro he
    rw [hnotify] at he
    exact hne (Endpoint.mk.inj he).2.symm
  have hback : game.endpoint ≠ (ofOptions o username).feed.channel.endpoint := by
    intro he
    rw [hgame] at he
    exact hne (Endpoint.mk.inj he).2
  have hnotified := Channel.reaches_ensure (c := (ofOptions o username).game) rfl helsewhere hreach'
    deadline
  have hlimit : net.now + (ofOptions o username).game.connectTimeout ≤ deadline := by omega
  obtain ⟨s, net₁, hensure, hexpects, hreach₁, hnow₁⟩ := Channel.ensure_serves rfl
    Frame.Assembler.holds_initial hgame.symm hreach hserves ht hlimit
  rw [hensure] at hnotified
  rw [htime] at hnow₁
  dsimp only at hnotified
  have hlimit₁ : net₁.now + (ofOptions o username).feed.channel.connectTimeout ≤ deadline := by
    omega
  refine ⟨?_, ?_⟩
  · intro hsub hlarge
    obtain ⟨f', net₂, hconnect⟩ := Feed.connect_tooLarge rfl (Nat.le_refl _) hnotify.symm hnotified
      hwelcomes ht hlimit₁ hsub hlarge
    refine ⟨?_, rfl⟩
    simp only [connect, hensure, withGame, hconnect]
    rfl
  · intro hfits
    -- The feed connects behind the channel for requests, so what the latter expects has to last.
    obtain ⟨f', net₂, hconnect, hbesides, hnow₂⟩ := Feed.connect_welcomed rfl hnotify.symm hnotified
      hwelcomes ht hlimit₁ hfits
    have hexpects₂ : ((ofOptions o username).game.opened s).Expects net₂ s 0 (body :: bodies) :=
      ⟨hexpects.socket, hexpects.holds, hbesides.awaits hexpects.awaits⟩
    refine ⟨{ (ofOptions o username).withGame ((ofOptions o username).game.opened s) with
      feed := f' }, net₂, ?_, ⟨rfl, rfl, ⟨hgame.symm, ⟨1, ?_⟩, ?_⟩, s, hexpects₂⟩, by omega⟩
    · simp only [connect, hensure, withGame, hconnect]
    · exact hbesides.reaches (game.after 1) hback hreach₁
    · exact Or.inr ⟨s, 0, body, bodies, hexpects₂⟩

end Client

/-- Settings that are not refused work with every server that accepts, and answers, within a second:
a client connects, and every call gets its reply. What is too large for a frame is refused. But
settings that give no time to connect let every attempt fail whose acceptance takes time, and
settings that give no time to reply let every call fail, and neither are refused. -/
theorem Settings.works {host : Host} {settings : Settings} (hcheck : settings.check host = .ok ())
    (username : String) {game notify : Gallows.Server} {net : Network}
    (hgame : game.endpoint = ⟨settings.server.address, settings.server.gamePort⟩)
    (hnotify : notify.endpoint = ⟨settings.server.address, settings.server.notificationPort⟩)
    (hreach : net.Reaches game) (hreach' : net.Reaches notify) {replies : Nat → List (List UInt8)}
    (hserves : ∀ k, replies k ≠ [] ∧ (game.reception k).Serves (replies k))
    (hwelcomes : (notify.reception 0).Welcomes) {calls : List Call}
    (hmany : calls.length ≤ (replies 0).length) :
    let o := settings.server.options
    let subscribes := o.subscribe = true → Feed.Fits username
    ∃ patience, ∀ deadline, patience ≤ deadline →
      let (result, net') := Client.connect o username deadline net
      let run (c : Client) :=
        (Caller.run (calls.map fun call => { call with deadline }) c.player.caller net').1
      (settings.server.connectTimeout = 0 → (game.reception 0).Hesitates →
        Fails result (.connect game.endpoint.text ⟨.timedOut, "no answer after 0s"⟩)
          .connection) ∧
      (settings.server.connectTimeout ≠ 0 → ¬ subscribes →
        Fails result (Feed.tooLarge username) .protocol) ∧
      (settings.server.connectTimeout ≠ 0 → subscribes → ∃ c, result = some (.ok c) ∧
        (settings.server.requestTimeout ≠ 0 → Replied (run c) (replies 0)) ∧
        (settings.server.requestTimeout = 0 → ∀ x ∈ run c, Abandoned x)) := by
  intro o subscribes
  have hports := (Settings.of_check hcheck).1
  obtain ⟨hsome, hserves₀⟩ := hserves 0
  obtain ⟨body, bodies, hreplies⟩ := List.exists_cons_of_ne_nil hsome
  have hanswers (k : Nat) : ∃ body bodies, (game.reception k).Serves (body :: bodies) := by
    obtain ⟨hsome, hserves⟩ := hserves k
    obtain ⟨body, bodies, hreplies⟩ := List.exists_cons_of_ne_nil hsome
    exact ⟨body, bodies, hreplies ▸ hserves⟩
  -- A call takes at most one time limit to connect and one to reply: without time to reply, each
  -- call has to connect again.
  obtain ⟨time, htime, hcalls⟩ :=
    Caller.exists_unhurried calls (net.now + 2 * o.connectTimeout)
      (o.connectTimeout + o.requestTimeout)
  refine ⟨time + calls.length * (o.connectTimeout + o.requestTimeout), fun deadline hd => ?_⟩
  have hunhurried := hcalls deadline hd
  have henough {t : UInt64} (ht : t ≠ 0) : 1000 ≤ t.toNat * 1000 := by
    have hne : t.toNat ≠ 0 := fun hzero => ht (UInt64.toNat_inj.mp hzero)
    omega
  have hlater : net.now ≤ deadline := by omega
  have hlimit : net.now + 2 * o.connectTimeout ≤ deadline := by omega
  have hnever (ht : settings.server.connectTimeout = 0)
      (hhesitates : (game.reception 0).Hesitates) :=
    Client.connect_timesOut (o := o) username hgame hreach hhesitates
      (by simp [o, Server.options, ht]) hlater
  have hopens (ht : settings.server.connectTimeout ≠ 0) :=
    Client.connect_opens (o := o) username hports hgame hnotify hreach hreach'
      (hreplies ▸ hserves₀) hwelcomes (henough ht) hlimit
  generalize Client.connect o username deadline net = connected at hnever hopens
  obtain ⟨result, net'⟩ := connected
  refine ⟨hnever, fun ht hlarge => ?_, fun ht hfits => ?_⟩
  · obtain ⟨hsub, hlarge⟩ := Classical.not_imp.mp hlarge
    exact (hopens ht).1 hsub hlarge
  · obtain ⟨c, net₁, hresult, ready, hnow⟩ := (hopens ht).2 hfits
    obtain ⟨rfl, rfl⟩ := Prod.mk.inj hresult
    have hbegin := Nat.le_trans hnow htime
    refine ⟨c, rfl, fun hwaits => ?_, fun hzero => ?_⟩
    · rw [hreplies] at hmany ⊢
      exact ready.replied (by rwa [List.length_map]) (henough hwaits) hbegin hunhurried
    · have hrequest : o.requestTimeout = 0 := by simp [o, Server.options, hzero]
      exact ready.abandoned hanswers (henough ht) hrequest hbegin hunhurried

namespace Client

/-- The body of a reply that lets a player join. -/
def joinReply : ByteArray :=
  Wire.Message.encode { status := 2000, message := "ok" : Envelope.Server }

/-- A server that takes a while to accept, and lets one player join, a while after the request. -/
def joinServer : Server where
  endpoint := ⟨"127.0.0.1", 8001⟩
  otherwise := .accept 2
    [.await 1, .pause 5, .send (Frame.header joinReply.size), .pause 10, .send joinReply] []

/-- A network with that server, and one that tells of nothing. -/
def joinNetwork : Network := { servers := [joinServer, { endpoint := ⟨"127.0.0.1", 8002⟩ }] }

/-- A player who wants to join. -/
def joinCall : Call := ⟨.joinRoom, Request.noDocument, Reply.joinRoom, 0, 60000⟩

theorem joinServer_serves (k : Nat) : (joinServer.reception k).Serves [joinReply.data.toList] := by
  have haccept : joinServer.reception k = joinServer.otherwise := by
    simp [Server.reception, joinServer]
  rw [haccept]
  have carries : Answer.Carries ⟨5, [.send (Frame.header joinReply.size), .pause 10], joinReply⟩
      joinReply.data.toList := by
    refine ⟨by decide, ?_, by decide +kernel, by decide, by decide +kernel, rfl⟩
    simp [Act.isPiece]
  exact .accept (by decide) (by simp) (.next carries (.done 1 []))

/-- With the settings of a client that is given none, alice joins. -/
theorem works_joinServer :
    ∃ patience, ∀ deadline, patience ≤ deadline →
      ∃ c net, connect (Settings.Server.options {}) "alice" deadline joinNetwork =
          (some (.ok c), net) ∧
        Replied (Caller.run [{ joinCall with deadline }] c.player.caller net).1
          [joinReply.data.toList] := by
  let replies (_ : Nat) : List (List UInt8) := [joinReply.data.toList]
  have hcheck : Settings.check {} {} = .ok () := rfl
  have hjoin : joinNetwork.Reaches joinServer := ⟨rfl, rfl⟩
  have hquiet : joinNetwork.Reaches { endpoint := ⟨"127.0.0.1", 8002⟩ } := ⟨rfl, rfl⟩
  have hserves (k : Nat) : replies k ≠ [] ∧ (joinServer.reception k).Serves (replies k) :=
    ⟨List.cons_ne_nil _ _, joinServer_serves k⟩
  have hwelcomes : Reception.Welcomes (.accept 0 [] []) := .accept (by decide) (by simp) (by simp)
  have hmany : [joinCall].length ≤ (replies 0).length := Nat.le_refl _
  obtain ⟨patience, hworks⟩ :=
    Settings.works hcheck "alice" rfl rfl hjoin hquiet hserves hwelcomes hmany
  refine ⟨patience, fun deadline hd => ?_⟩
  obtain ⟨-, -, hopens⟩ := hworks deadline hd
  have hfits : Feed.Fits "alice" := by
    rw [Feed.Fits]
    decide +kernel
  obtain ⟨c, hconnect, hreplied, -⟩ := hopens (by decide) fun _ => hfits
  exact ⟨c, _, Prod.ext hconnect rfl, hreplied (by decide)⟩

/-- Settings that are not refused, but give no time to connect, or no time to reply. The server
accepts within two milliseconds, and would let the player join. -/
theorem zero_timeout_passes_check :
    let settings (connectTimeout requestTimeout : UInt64) : Settings :=
      { server := { connectTimeout, requestTimeout } }
    (∀ k, (joinServer.reception k).Serves [joinReply.data.toList]) ∧
      (settings 0 10).check {} = .ok () ∧
      (connect (settings 0 10).server.options "alice" 60000 joinNetwork).1 =
        some (.error (.connect "127.0.0.1:8001" ⟨.timedOut, "no answer after 0s"⟩)) ∧
      (settings 5 0).check {} = .ok () ∧
      match connect (settings 5 0).server.options "alice" 60000 joinNetwork with
      | (some (.ok c), net) =>
        (c.player.caller.call joinCall.command joinCall.payload joinCall.reply 60000 net).1 =
          some (.error (.timeout "waiting 0s for JOIN_ROOM reply"))
      | _ => False := by
  refine ⟨joinServer_serves, rfl, rfl, rfl, ?_⟩
  cbv

end Client
end Gallows
