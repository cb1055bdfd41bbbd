import Gallows.Play
import Gallows.Proofs.Event.Line
import Gallows.Proofs.Frame.Streams
import Gallows.Proofs.Relay.Watching

/-!
What a watcher shows. Whatever tale the server tells it, through pieces and pauses and connections
that end, there is a line on the standard output for every event, and the failure at the end of the
tale is what the watcher ends with.
-/
namespace Gallows

namespace Client

open Feed (At Tale Stage)

variable {server : Server} {f₀ : Feed} {c : Client} {net : Network} {stage : Stage} {n : Nat}
  {events : List Event} {failure : Failure}

/-- A watcher whose feed is at a stage of a tale shows what the tale tells from there. -/
theorem watch_of_tale (hat : At server f₀ c.feed net stage n)
    (tale : Tale f₀ server stage n events failure) (h0 : 0 < f₀.channel.readTimeout) :
    ∃ patience, ∀ deadline, patience ≤ deadline → (c.watch .never deadline net).1 =
      { stdout := String.join (events.map Event.line), result := some (.error failure) } := by
  have hpromises : Relay.Promises server f₀ { feed := c.feed } net
      (Relay.itemsOf events (some failure)) :=
    ⟨⟨_, .running rfl hat tale, rfl⟩, Nat.zero_le _⟩
  obtain ⟨patience, r', net', hcollect⟩ := hpromises.collect h0
  refine ⟨patience, fun deadline hd => ?_⟩
  simp only [watch, hcollect deadline hd, Relay.show_itemsOf, Option.isSome_some, if_true]

/-- A client whose connection for requests comes about connects as a tale about its feed begins: it
is at the next stage of the tale then, or the tale is over. -/
theorem connect_of_tale {o : Options} {username : String} {deadline₀ : Nat} {s : Socket}
    (hne : o.gamePort ≠ o.notificationPort)
    (hend : server.endpoint = ⟨o.address, o.notificationPort⟩)
    (hreach : net.Reaches server)
    (hgame : ((ofOptions o username).game.ensure deadline₀ net).1 = some (.ok s))
    (tale : Tale (ofOptions o username).feed server .between 0 events failure) :
    ∃ patience,
      (∃ c net' stage n, At server (ofOptions o username).feed c.feed net' stage n ∧
        Tale (ofOptions o username).feed server stage n events failure ∧
        ∀ deadline, patience ≤ deadline →
          connect o username deadline net = (some (.ok c), net')) ∨
      events = [] ∧ ∀ deadline, patience ≤ deadline →
        (connect o username deadline net).1 = some (.error failure) := by
  have hnone : (ofOptions o username).game.socket = none := rfl
  have helsewhere : server.endpoint ≠ (ofOptions o username).game.endpoint := by
    intro he
    rw [hend] at he
    exact hne (Endpoint.mk.inj he).2.symm
  have hreach₁ := Channel.reaches_ensure hnone helsewhere hreach deadline₀
  rcases hensure : (ofOptions o username).game.ensure deadline₀ net with ⟨r, channel, net₁⟩
  rw [hensure] at hgame hreach₁
  obtain rfl : r = _ := hgame
  have hat : At server (ofOptions o username).feed (ofOptions o username).feed net₁ .between 0 :=
    .between (f := (ofOptions o username).feed) ⟨hend.symm, rfl, rfl, rfl, rfl, hreach₁⟩ rfl
      Frame.Assembler.holds_initial fun _ => Nat.le_refl _
  have hopened (deadline : Nat) (hd : deadline₀ ≤ deadline) :
      (ofOptions o username).game.ensure deadline net = (some (.ok s), channel, net₁) :=
    Channel.ensure_mono hd hensure
  let patience := net₁.now + (ofOptions o username).feed.channel.connectTimeout
  -- With the connection for requests open, the client fails as its feed does.
  have hfails {f' : Feed} {net' : Network} (hconnect : (ofOptions o username).feed.connect patience
      net₁ = (some (.error failure), f', net')) : ∀ deadline, max deadline₀ patience ≤ deadline →
      (connect o username deadline net).1 = some (.error failure) := by
    intro deadline hd
    have hconnect' := Feed.connect_mono (Nat.le_trans (Nat.le_max_right _ _) hd) hconnect
    simp only [connect, hopened deadline (Nat.le_trans (Nat.le_max_left _ _) hd), withGame,
      hconnect']
  refine ⟨max deadline₀ patience, ?_⟩
  cases tale with
  | accepted hr ht hi hscript tale =>
    obtain ⟨f', net', hconnect, hat'⟩ := hat.accepted hr ht hi (Nat.le_refl _)
    refine Or.inl ⟨{ (ofOptions o username).withGame channel with feed := f' }, net', _, _,
      hat' rfl hscript, tale, fun deadline hd => ?_⟩
    have hconnect' := Feed.connect_mono (Nat.le_trans (Nat.le_max_right _ _) hd) hconnect
    simp only [connect, hopened deadline (Nat.le_trans (Nat.le_max_left _ _) hd), withGame,
      hconnect']
    rfl
  | declined h =>
    obtain ⟨f', net', hconnect⟩ := hat.declined h (Nat.le_refl _)
    exact Or.inr ⟨rfl, hfails hconnect⟩
  | broken hr ht hi =>
    obtain ⟨f', net', hconnect, -⟩ := hat.accepted hr ht hi (Nat.le_refl _)
    exact Or.inr ⟨rfl, hfails hconnect⟩

end Client

/-- Settings that are not refused have different ports, let a look for an event last for some time,
and name a password that is there, if they name one. -/
theorem Settings.of_check {settings : Settings} {host : Host} (h : settings.check host = .ok ()) :
    settings.server.gamePort ≠ settings.server.notificationPort ∧
      0 < settings.server.readTimeout.toNat ∧
      ∃ password, settings.player.resolvePassword host = .ok password := by
  simp only [Settings.check, bind, Except.bind] at h
  split at h
  · cases h
  · rename_i hserver
    simp only [Server.check] at hserver
    simp only [Player.check] at h
    split_ifs at hserver h with h1 h2 h3 h4 h5
    refine ⟨h3, ?_, ?_⟩
    · apply Nat.pos_of_ne_zero
      intro hz
      exact h4 (UInt64.toNat_inj.mp hz)
    · cases hp : settings.player.resolvePassword host with
      | ok password => exact ⟨password, rfl⟩
      | error e => simp [hp] at h

namespace Task

open Feed (At Tale Stage)

variable {host : Host} {settings : Settings} {username : String} {server : Server} {net : Network}
  {events : List Event} {failure : Failure}

/-- Whatever tale a server tells a player who watches, a watch that may go on for long enough shows
a line for every event of the tale, in order, and nothing else, and ends with the failure at the end
of the tale. There is no line break within a line, and it reads back as the event that its frame
carried. -/
theorem play_watch_tells (hcheck : settings.check host = .ok ())
    (huser : settings.player.username = some username)
    (hend : server.endpoint = ⟨settings.server.address, settings.server.notificationPort⟩)
    (hreach : net.Reaches server) {deadline₀ : Nat} {s : Socket}
    (hgame : ((Client.ofOptions settings.server.options username).game.ensure deadline₀ net).1 =
      some (.ok s))
    (tale : Tale (Client.ofOptions settings.server.options username).feed server .between 0 events
      failure) :
    (∃ patience, ∀ deadline, patience ≤ deadline →
      (Task.watch.play host settings .never deadline net).1 =
        { stdout := String.join (events.map fun e => e.write ++ "\n")
          result := some (.error failure) }) ∧
      ∀ e ∈ events, '\n' ∉ e.write.toList ∧ Event.ofBytes e.write.toUTF8.data.toList = .ok e := by
  obtain ⟨hports, h0, password, hpassword⟩ := Settings.of_check hcheck
  refine ⟨?_, fun e _ => ⟨Event.newline_not_mem_write e, Event.ofBytes_write e⟩⟩
  obtain ⟨patience, ⟨c, net', stage, n, hat, hrest, hconnect⟩ | ⟨rfl, hconnect⟩⟩ :=
    Client.connect_of_tale hports hend hreach hgame tale
  · obtain ⟨patience', hwatch⟩ := Client.watch_of_tale hat hrest h0
    refine ⟨max patience patience', fun deadline hd => ?_⟩
    have hd' : patience ≤ deadline ∧ patience' ≤ deadline := by omega
    simp only [play, huser, hpassword, hconnect deadline hd'.1, move?]
    exact hwatch deadline hd'.2
  · refine ⟨patience, fun deadline hd => ?_⟩
    have hfails := hconnect deadline hd
    generalize hresult : Client.connect settings.server.options username deadline net = result
      at hfails
    obtain ⟨r, net'⟩ := result
    obtain rfl : r = _ := hfails
    simp only [play, huser, hpassword, hresult]
    rfl

/-- The body of the frame that tells of bob. -/
def joinedBody : ByteArray := Feed.announcement (.playerJoined "bob")

/-- A server that waits for a subscription, tells of a player in two pieces and hangs up, and then
accepts no connection any more. -/
def announcingServer : Server where
  endpoint := ⟨"127.0.0.1", 8002⟩
  receptions := [
    .accept 5 [.await 1, .send (Frame.header joinedBody.size), .pause 50, .send joinedBody, .finish]
      [],
    .refuse 10]

/-- A network with that server, and one that takes requests. -/
def announcingNetwork : Network :=
  { servers := [{ endpoint := ⟨"127.0.0.1", 8001⟩ }, announcingServer] }

theorem announcingServer_tells (f : Feed) (hs : f.subscribe = true) (hn : f.username = "alice")
    (ht : f.channel.connectTimeout = 5000) :
    Tale f announcingServer .between 0 [.playerJoined "bob"]
      (.connect "127.0.0.1:8002" (.ofSystem .connectionRefused)) := by
  obtain ⟨frame, hframe, -⟩ := Frame.encode_eq_ok (m := Feed.subscription "alice")
    (by decide +kernel)
  refine .accepted rfl ?_ ?_ ?_ ?_
  · omega
  · refine .written _ frame hs (hn ▸ hframe) fun now => ?_
    exact Connection.write_accepted (by simp) _ now frame
  · rw [hs]
    intro frames hmem
    simp only [List.mem_cons, List.not_mem_nil, or_false, Act.await.injEq, reduceCtorEq] at hmem
    exact Nat.le_of_eq hmem
  · have hbytes : Act.bytes false [.await 1, .send (Frame.header joinedBody.size), .pause 50,
        .send joinedBody, .finish] = Frame.frame joinedBody.data.toList ++ [] := rfl
    rw [hbytes]
    have hfits : joinedBody.size ≤ Frame.sizeLimit := by decide +kernel
    refine .event hfits (Feed.newsOfBody_announcement hfits) (.ended Frame.pending_nil ?_)
    exact .declined (.refused 10 (by omega))

/-- What alice is shown, whose watch is told of bob, connects again when the server hangs up, and is
refused. -/
theorem play_watch_tells_joined :
    ∃ patience, ∀ deadline, patience ≤ deadline →
      (Task.watch.play {} { player := { username := some "alice" } } .never deadline
          announcingNetwork).1 =
        { stdout := (Event.playerJoined "bob").write ++ "\n"
          result := some (.error
            (.connect "127.0.0.1:8002" (.ofSystem .connectionRefused))) } := by
  have hreach : announcingNetwork.Reaches announcingServer := ⟨rfl, rfl⟩
  have hgame : ((Client.ofOptions (Settings.Server.options {}) "alice").game.ensure 10
      announcingNetwork).1 = some (.ok 0) := rfl
  have hcheck : Settings.check {} { player := { username := some "alice" } } = .ok () := rfl
  have htells := play_watch_tells hcheck rfl rfl hreach hgame (announcingServer_tells _ rfl rfl rfl)
  exact htells.1

end Task
end Gallows
