import Gallows.Proofs.Network.Traffic

/-!
How a server meets the attempts to connect to it, one after another.
-/
namespace Gallows

/-- What a server that accepts does on the connection. -/
def Reception.script : Reception → List Act
  | .accept _ script _ => script
  | _ => []

namespace Server

/-- How a server meets the attempt with this number. -/
def reception (server : Server) (n : Nat) : Reception :=
  (server.receptions[n]?).getD server.otherwise

/-- What a server sends on the connection that comes of the attempt with this number. -/
def stream (server : Server) (n : Nat) : List UInt8 := Act.bytes false (server.reception n).script

/-- A server that has met so many attempts. -/
def after (server : Server) (n : Nat) : Server :=
  { server with receptions := server.receptions.drop n }

end Server

/-- A connection that is accepted at the time `now`. -/
def Connection.accepted (endpoint : Endpoint) (script : List Act) (writes : List Sink.Step)
    (now : Nat) : Connection :=
  { endpoint, script, clock := now, touched := now,
    outbound := { script := writes } : Connection }.play now

/-- A server that does not break off a connection leaves it whole. -/
theorem Connection.severed_accepted {script : List Act} (h : Act.reset ∉ script)
    (endpoint : Endpoint) (writes : List Sink.Step) (now : Nat) :
    ((accepted endpoint script writes now).play now).severed = false := by
  rw [accepted, play, play, severed_playScript (script_playScript h now _), severed_playScript h]

/-- A write succeeds where the server neither refuses writes nor breaks off. -/
theorem Connection.write_accepted {script : List Act} (h : Act.reset ∉ script) (endpoint : Endpoint)
    (now : Nat) (bytes : ByteArray) :
    ((accepted endpoint script [] now).write now bytes).1 = .ok () := by
  have hsevered := severed_accepted h endpoint [] now
  have houtbound : ((accepted endpoint script [] now).play now).outbound = { script := [] } := by
    simp [accepted]
  have hsink : (({ script := [] } : Sink).push bytes).1 = .ok () := by
    rw [Sink.push, Sink.writeRest]
    split <;> rfl
  simp only [write, hsevered, Bool.false_eq_true, if_false, houtbound, hsink]

namespace Network

variable {net net' : Network} {server : Server} {n time deadline : Nat} {script : List Act}
  {writes : List Sink.Step} {s : Socket}

/-- Whether a server is there, and nothing keeps the client from it. -/
structure Reaches (net : Network) (server : Server) : Prop where
  outage : net.outage = none
  listens : net.servers.find? (·.endpoint = server.endpoint) = some server

theorem Reaches.of_world (h : net.Reaches server) (hw : net'.world = net.world) :
    net'.Reaches server := by
  simp only [world, Prod.mk.injEq] at hw
  exact ⟨hw.1.trans h.outage, by rw [hw.2, h.listens]⟩

/-- The receptions that a server has left are no part of where it listens. -/
theorem find?_left (servers : List Server) (endpoint endpoint' : Endpoint)
    (receptions : List Reception) :
    (servers.map fun s => if s.endpoint = endpoint then { s with receptions } else s).find?
        (·.endpoint = endpoint') =
      (servers.find? (·.endpoint = endpoint')).map fun s =>
        if s.endpoint = endpoint then { s with receptions } else s := by
  have hsame : ((fun s : Server => decide (s.endpoint = endpoint')) ∘ fun s : Server =>
      if s.endpoint = endpoint then { s with receptions } else s) =
      fun s => decide (s.endpoint = endpoint') := by
    funext s
    simp only [Function.comp]
    split <;> rfl
  rw [List.find?_map, hsame]

/-- An attempt to connect takes the next reception. -/
theorem reception_eq (h : net.Reaches (server.after n)) :
    (net.reception server.endpoint).1 = server.reception n ∧
      (net.reception server.endpoint).2.Reaches (server.after (n + 1)) ∧
      (net.reception server.endpoint).2.connections = net.connections ∧
      (net.reception server.endpoint).2.now = net.now := by
  have hfind : net.servers.find? (·.endpoint = server.endpoint) = some (server.after n) := h.listens
  simp only [reception, hfind]
  cases hd : (server.after n).receptions with
  | nil =>
    have hn : server.receptions.length ≤ n := List.drop_eq_nil_iff.mp hd
    have hafter : server.after (n + 1) = server.after n := by
      simp [Server.after, List.drop_eq_nil_of_le hn, List.drop_eq_nil_of_le (Nat.le_succ_of_le hn)]
    rw [hafter]
    exact ⟨by simp [Server.reception, Server.after, List.getElem?_eq_none hn], h, rfl, rfl⟩
  | cons next rest =>
    have hd' : server.receptions.drop n = next :: rest := hd
    have hnext : server.receptions[n]? = some next := by
      rw [← Nat.add_zero n, ← List.getElem?_drop, hd']
      rfl
    have hrest : server.receptions.drop (n + 1) = rest := by
      rw [← List.drop_drop, hd']
      rfl
    refine ⟨by simp [Server.reception, hnext], ⟨h.outage, ?_⟩, rfl, rfl⟩
    have hend : (server.after (n + 1)).endpoint = server.endpoint := rfl
    simp only [hend, find?_left, hfind, Option.map_some]
    simp [Server.after, hrest]

/-- An attempt to connect elsewhere takes no reception of a server. -/
theorem Reaches.reception (h : net.Reaches server) {endpoint : Endpoint}
    (hne : server.endpoint ≠ endpoint) : (net.reception endpoint).2.Reaches server := by
  simp only [Network.reception]
  split
  · exact h
  · split
    · exact h
    · refine ⟨h.outage, ?_⟩
      rw [find?_left, h.listens, Option.map_some, if_neg hne]

theorem Reaches.connect (h : net.Reaches server) {endpoint : Endpoint}
    (hne : server.endpoint ≠ endpoint) (deadline : Nat) :
    (net.connect endpoint deadline).2.Reaches server := by
  have hreach := h.reception hne
  simp only [Network.connect, h.outage]
  generalize net.reception endpoint = result at hreach ⊢
  obtain ⟨_ | _ | _, net₁⟩ := result
  · dsimp only
    split <;> exact ⟨hreach.outage, hreach.listens⟩
  · dsimp only
    split <;> exact ⟨hreach.outage, hreach.listens⟩
  · exact ⟨hreach.outage, hreach.listens⟩

/-- A server that accepts in time opens a new connection. -/
theorem connect_of_lt (h : net.Reaches (server.after n))
    (hr : server.reception n = .accept time script writes) (ht : net.now + time < deadline) :
    (net.connect server.endpoint deadline).1 = some (.ok net.connections.length) ∧
      (net.connect server.endpoint deadline).2.Reaches (server.after (n + 1)) ∧
      (net.connect server.endpoint deadline).2.connections = net.connections ++
        [Connection.accepted server.endpoint script writes
          (net.connect server.endpoint deadline).2.now] := by
  obtain ⟨hr', hreach, hconns, hnow⟩ := reception_eq h
  rw [hr] at hr'
  simp only [connect, h.outage, hr', hnow, ht, if_true]
  refine ⟨?_, ⟨hreach.outage, hreach.listens⟩, ?_⟩
  · simp [accept, waitUntil, hconns]
  · simp [accept, waitUntil, hconns, Connection.accepted]

theorem connect_of_le (h : net.Reaches (server.after n))
    (hr : server.reception n = .accept time script writes) (ht : deadline ≤ net.now + time) :
    (net.connect server.endpoint deadline).1 = none := by
  obtain ⟨hr', -, -, hnow⟩ := reception_eq h
  rw [hr] at hr'
  simp [connect, h.outage, hr', hnow, Nat.not_lt.mpr ht]

/-- A connection that was just accepted has the whole stream to come. -/
theorem coming_of_accepted {endpoint : Endpoint} {now : Nat}
    (h : net.connections[s]? = some (Connection.accepted endpoint script writes now)) :
    net.coming s = Act.bytes false script ∧ net.Tidy s := by
  constructor
  · rw [coming_of_getElem? h, Connection.accepted, Connection.coming_play]
    simp [Connection.coming, Source.bytes, Source.isOpen]
  · intro c hc
    rw [h] at hc
    obtain rfl := Option.some.inj hc
    refine Connection.Tidy.play ?_ now
    intro item hi
    cases hi

/-- What is sent on the connection that comes of an attempt to connect, `n` attempts from now. -/
def offer (net : Network) (endpoint : Endpoint) (n : Nat) : List UInt8 :=
  (net.servers.find? (·.endpoint = endpoint)).elim [] (·.stream n)

theorem offer_of_world (h : net'.world = net.world) : net'.offer = net.offer := by
  simp only [world, Prod.mk.injEq] at h
  funext endpoint n
  simp only [offer, h.2]

theorem Reaches.offer_eq (h : net.Reaches (server.after n)) (k : Nat) :
    net.offer server.endpoint k = server.stream (n + k) := by
  have hfind : net.servers.find? (·.endpoint = server.endpoint) = some (server.after n) := h.listens
  simp [offer, hfind, Server.stream, Server.reception, Server.after, List.getElem?_drop]

/-- On the way from one network to the other a connection to an endpoint is opened, and nothing is
read or written. -/
structure Opened (endpoint : Endpoint) (net net' : Network) : Prop extends Quiet net net' where
  count : net'.connections.length = net.connections.length + 1
  tidy : net'.Tidy net.connections.length
  coming : net'.coming net.connections.length = net.offer endpoint 0
  offer : ∀ k, net'.offer endpoint k = net.offer endpoint (k + 1)

theorem Opened.length_lt {endpoint : Endpoint} (h : Opened endpoint net net') :
    net.connections.length < net'.connections.length :=
  Nat.lt_of_succ_le (Nat.le_of_eq h.count.symm)

theorem connect_opened {endpoint : Endpoint}
    (h : (net.connect endpoint deadline).1 = some (.ok s)) :
    Opened endpoint net (net.connect endpoint deadline).2 := by
  have hquiet := quiet_connect net endpoint deadline
  obtain ⟨-, hcount⟩ := connect_eq_some h
  cases ho : net.outage with
  | some fault => simp [connect, ho] at h
  | none =>
    cases hf : net.servers.find? (·.endpoint = endpoint) with
    | none =>
      simp only [connect, ho, reception, hf] at h
      split at h <;> simp at h
    | some server =>
      obtain rfl : server.endpoint = endpoint := by simpa using List.find?_some hf
      have hreach : net.Reaches (server.after 0) := ⟨ho, hf⟩
      obtain ⟨hr, -, -, hnow⟩ := reception_eq hreach
      cases hrec : server.reception 0 with
      | accept time script writes =>
        by_cases ht : net.now + time < deadline
        · obtain ⟨-, hreach', hconns⟩ := connect_of_lt hreach hrec ht
          have hnew : (net.connect server.endpoint deadline).2.connections[net.connections.length]? =
              some (Connection.accepted server.endpoint script writes
                (net.connect server.endpoint deadline).2.now) := by
            rw [hconns]
            simp
          obtain ⟨hcoming, htidy⟩ := coming_of_accepted hnew
          refine ⟨hquiet, hcount, htidy, ?_, ?_⟩
          · rw [hcoming, hreach.offer_eq, Server.stream, hrec]
            rfl
          · intro k
            rw [hreach'.offer_eq, hreach.offer_eq]
            congr 1
            omega
        · simp [connect_of_le hreach hrec (Nat.le_of_not_lt ht)] at h
      | refuse time =>
        simp only [connect, ho, hr, hrec] at h
        split at h <;> simp at h
      | ignore => simp [connect, ho, hr, hrec] at h

end Network
end Gallows
