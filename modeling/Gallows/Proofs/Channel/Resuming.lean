import Gallows.Proofs.Channel.Clock
import Gallows.Proofs.Channel.Stance
import Gallows.Proofs.Network.Schedule

/-!
Receiving that is given up and taken up again. A read that was given up leaves a channel that reads
on as if it had waited all the while and read nothing before; so a lenient or a stoppable receive
differs from a patient one in no more than when it gives up and what it makes of a lost connection.
-/
namespace Gallows

namespace Network

variable {net net' : Network} {s : Socket} {limit deadline time : Nat}

theorem exists_connection (h : s < net.connections.length) :
    ∃ c, net.connections[s]? = some c :=
  ⟨_, List.getElem?_eq_getElem h⟩

/-- A read that comes to nothing leaves a connection that is caught up on later as it would have
been without that read. -/
theorem read_nothing_later (h : s < net.connections.length)
    (hr : net.read s limit deadline = (none, net')) (hle : net'.now ≤ time) :
    net'.caughtUp s time = net.caughtUp s time ∧ net'.weightOf s ≤ net.weightOf s := by
  obtain ⟨c, hc⟩ := exists_connection h
  obtain ⟨-, rfl⟩ := read_eq_none hc hr
  have hle : max net.now deadline ≤ time := hle
  have hc' : (net.waitUntil deadline).connections[s]? = some c := hc
  refine ⟨?_, ?_⟩
  · have hnow : max ((net.modify s (·.play net.now)).waitUntil deadline).now time = time :=
      Nat.max_eq_right hle
    have hnow' : max net.now time = time := Nat.max_eq_right (by omega)
    have hwaited : ((net.modify s (·.play net.now)).waitUntil deadline).waitUntil time =
        (net.waitUntil time).modify s (·.play net.now) := by
      rw [waitUntil_waitUntil (by omega)]
      rfl
    have htwice (d : Connection) : (d.play net.now).play time = d.play time :=
      Connection.play_play (by omega) d
    rw [caughtUp, caughtUp, hwaited, hnow, hnow', modify_modify]
    simp only [htwice]
  · have hplayed : ((net.modify s (·.play net.now)).waitUntil deadline).connections[s]? =
        some (c.play net.now) := getElem?_modify_same hc _
    simp only [weightOf, hplayed, hc, Option.map_some, Option.getD_some]
    exact Connection.weight_play_le net.now c

end Network

namespace Channel

variable {c c' : Channel} {s : Socket} {net net' net₁ : Network} {held : List UInt8}
  {deadline time fuel : Nat}

/-- Reading goes on behind a read that has taken something. -/
theorem reading_on {found : Option (Except Fault ByteArray)} {a : Frame.Assembler}
    (ha : c.assembler.Holds held) (hs : s < net.connections.length) (ht : net.Tidy s)
    (hread : net.read s c.assembler.unfilled deadline = (found, net₁))
    (hd : digest c.assembler found = .inr a) :
    (∃ held', a.Holds held') ∧ s < net₁.connections.length ∧ net₁.Tidy s ∧
      net₁.weightOf s < net.weightOf s := by
  obtain ⟨connection, hc⟩ := Network.exists_connection hs
  have hlength := Network.length_read net s c.assembler.unfilled deadline
  have hdelivers := Network.delivers_read ht ha.unfilled deadline
  rw [hread] at hlength hdelivers
  dsimp only at hlength
  obtain ⟨piece, rfl⟩ := found_of_more hd
  have hless := Network.weightOf_read_lt hc (ht connection hc) ha.unfilled hread
  rcases piece with fault | piece
  · cases hdelivers with
    | failed _ hf => simp [digest, hf] at hd
  · have hfit := Network.size_of_read (congrArg Prod.fst hread)
    by_cases hz : piece.size = 0
    · obtain ⟨he, -⟩ := ha.feed_end hz
      generalize hfed : c.assembler.feed piece = fed at he
      obtain ⟨result, b⟩ := fed
      obtain rfl : result = _ := he
      simp [digest, hfed] at hd
    · have hfed := ha.feed (Nat.pos_of_ne_zero hz) hfit
      cases hdelivers with
      | ended => exact absurd rfl hz
      | piece _ _ ht' =>
        refine ⟨⟨held ++ piece.data.toList, ?_⟩, by rwa [hlength], ht', hless⟩
        simp only [digest] at hd
        generalize c.assembler.feed piece = fed at hfed hd
        obtain ⟨result, b⟩ := fed
        cases hfed with
        | more ha' =>
          cases hd
          exact ha'
        | complete => cases hd
        | tooLarge => cases hd

/-- More fuel than there can be reads makes no difference. -/
theorem readWithin_fuel {fuel' : Nat} (ha : c.assembler.Holds held)
    (hs : s < net.connections.length) (ht : net.Tidy s) (hf : net.weightOf s < fuel)
    (hf' : net.weightOf s < fuel') :
    readWithin s deadline fuel c net = readWithin s deadline fuel' c net := by
  induction fuel generalizing fuel' c net held with
  | zero => exact absurd hf (Nat.not_lt_zero _)
  | succ fuel ih =>
    obtain ⟨fuel', rfl⟩ := Nat.exists_eq_succ_of_ne_zero (Nat.ne_of_gt (Nat.zero_lt_of_lt hf'))
    rcases hread : net.read s c.assembler.unfilled deadline with ⟨found, net₁⟩
    rcases hd : digest c.assembler found with ⟨r, a⟩ | a
    · rw [readWithin_over hread hd, readWithin_over hread hd]
    · obtain ⟨⟨held', ha'⟩, hs', ht', hless⟩ := reading_on ha hs ht hread hd
      rw [readWithin_more hread hd, readWithin_more hread hd]
      exact ih (c := { c with assembler := a }) ha' hs' ht' (by omega) (by omega)

/-- Reading begins with catching up. -/
theorem readWithin_caughtUp (hf : 0 < fuel) (time : Nat) (c : Channel) (net : Network) :
    readWithin s deadline fuel c (net.caughtUp s time) =
      readWithin s deadline fuel c (net.waitUntil time) := by
  obtain ⟨fuel, rfl⟩ := Nat.exists_eq_succ_of_ne_zero (Nat.ne_of_gt hf)
  simp only [readWithin, Network.read_caughtUp]

/-- Reading that was given up is taken up again: it comes to what it would have come to without the
reads that were made before. -/
theorem readWithin_resumed {fuel₁ fuel₂ deadline' : Nat} (ha : c.assembler.Holds held)
    (hs : s < net.connections.length) (ht : net.Tidy s) (hf : net.weightOf s < fuel)
    (h : readWithin s deadline fuel c net = (none, c', net')) (hle : net'.now ≤ time)
    (hf₁ : net.weightOf s < fuel₁) (hf₂ : net'.weightOf s < fuel₂) :
    readWithin s deadline' fuel₁ c (net.waitUntil time) =
      readWithin s deadline' fuel₂ c' (net'.waitUntil time) := by
  induction fuel generalizing fuel₁ c net held with
  | zero => exact absurd hf (Nat.not_lt_zero _)
  | succ fuel ih =>
    rcases hread : net.read s c.assembler.unfilled deadline with ⟨found, net₁⟩
    rcases hd : digest c.assembler found with ⟨r, a⟩ | a
    · rw [readWithin_over hread hd] at h
      obtain rfl : r = none := congrArg Prod.fst h
      obtain ⟨rfl, rfl⟩ := found_of_none hd
      obtain ⟨rfl, rfl⟩ : c = c' ∧ net₁ = net' := Prod.mk.inj (Prod.mk.inj h).2
      obtain ⟨hsame, hweight⟩ := Network.read_nothing_later hs hread hle
      have hfirst (net : Network) : readWithin s deadline' fuel₁ c (net.caughtUp s time) =
          readWithin s deadline' fuel₁ c (net.waitUntil time) :=
        readWithin_caughtUp (Nat.zero_lt_of_lt hf₁) time c net
      have hlength := Network.length_read net s c.assembler.unfilled deadline
      have hdelivers := Network.delivers_read ht ha.unfilled deadline
      rw [hread] at hlength hdelivers
      cases hdelivers with
      | nothing ht' =>
        have hs' : s < (net₁.waitUntil time).connections.length := by
          rw [← hlength] at hs
          exact hs
        have hfuel : readWithin s deadline' fuel₂ c (net₁.waitUntil time) =
            readWithin s deadline' fuel₁ c (net₁.waitUntil time) :=
          readWithin_fuel ha hs' ht' hf₂ (Nat.lt_of_le_of_lt hweight hf₁)
        rw [hfuel, ← hfirst, ← hfirst, hsame]
    · obtain ⟨⟨held', ha'⟩, hs', ht', hless⟩ := reading_on ha hs ht hread hd
      obtain ⟨fuel₁, rfl⟩ := Nat.exists_eq_succ_of_ne_zero (Nat.ne_of_gt (Nat.zero_lt_of_lt hf₁))
      obtain ⟨connection, hc⟩ := Network.exists_connection hs
      obtain ⟨piece, rfl⟩ := found_of_more hd
      rw [readWithin_more hread hd] at h
      have hlater := now_le_readWithin s deadline fuel { c with assembler := a } net₁
      rw [h] at hlater
      have hagain := Network.read_later hc (ht connection hc) hread (Nat.le_trans hlater hle)
        deadline'
      rw [readWithin_more hagain hd, readWithin_caughtUp (by omega)]
      exact ih (c := { c with assembler := a }) ha' hs' ht' (by omega) h (by omega)

/-- Reading that gives up has waited until then. -/
theorem readWithin_waits (ha : c.assembler.Holds held) (hs : s < net.connections.length)
    (ht : net.Tidy s) (hf : net.weightOf s < fuel)
    (h : readWithin s deadline fuel c net = (none, c', net')) : deadline ≤ net'.now := by
  induction fuel generalizing c net held with
  | zero => exact absurd hf (Nat.not_lt_zero _)
  | succ fuel ih =>
    rcases hread : net.read s c.assembler.unfilled deadline with ⟨found, net₁⟩
    rcases hd : digest c.assembler found with ⟨r, a⟩ | a
    · rw [readWithin_over hread hd] at h
      obtain rfl : r = none := congrArg Prod.fst h
      obtain ⟨rfl, rfl⟩ := found_of_none hd
      obtain ⟨rfl, rfl⟩ : c = c' ∧ net₁ = net' := Prod.mk.inj (Prod.mk.inj h).2
      obtain ⟨connection, hc⟩ := Network.exists_connection hs
      obtain ⟨-, rfl⟩ := Network.read_eq_none hc hread
      exact Nat.le_max_right _ _
    · obtain ⟨⟨held', ha'⟩, hs', ht', hless⟩ := reading_on ha hs ht hread hd
      rw [readWithin_more hread hd] at h
      exact ih (c := { c with assembler := a }) ha' hs' ht' (by omega) h

/-! Giving up. -/

variable {c₁ : Channel}

/-- Whether a channel that has given up waiting may go on as if it had not waited: it has kept its
socket and every byte that it took from there, and at any later time it receives what it would have
received without that wait, with the same left of the channel and of the network. -/
structure Resumes (c : Channel) (net : Network) (c₁ : Channel) (net₁ : Network) : Prop where
  socket : c₁.socket = c.socket
  generation : c₁.generation = c.generation
  bytes : ∀ s, c.socket = some s → ∃ held new, c.assembler.Holds held ∧
    c₁.assembler.Holds (held ++ new) ∧ net.coming s = new ++ net₁.coming s
  receive : ∀ time, net₁.now ≤ time → ∀ deadline,
    c₁.receive deadline (net₁.waitUntil time) = c.receive deadline (net.waitUntil time)

theorem resumes_refl (ha : c.assembler.Holds held) (net : Network) : Resumes c net c net := by
  refine ⟨rfl, rfl, fun s _ => ⟨held, [], ha, ?_, rfl⟩, fun _ _ _ => rfl⟩
  rwa [List.append_nil]

/-- A channel that has only let time pass. -/
theorem resumes_wait (h : Stands c net) (time : Nat) : Resumes c net c (net.waitUntil time) := by
  obtain ⟨held, ha⟩ := h.holds
  refine ⟨rfl, rfl, fun s _ => ⟨held, [], ha, by rwa [List.append_nil], rfl⟩, ?_⟩
  intro later hle deadline
  rw [Network.waitUntil_waitUntil (Nat.le_trans (Nat.le_max_right net.now time) hle)]

theorem read_waits (h : Stands c net) (hs : c.socket = some s)
    (hr : c.read s deadline net = (none, c₁, net₁)) : deadline ≤ net₁.now :=
  readWithin_waits (h.held s hs) (Nat.lt_of_succ_le (Nat.le_of_eq (h.newest s hs))) (h.tidy s hs)
    (Nat.lt_succ_self _) hr

theorem resumes_of_read (h : Stands c net) (hs : c.socket = some s)
    (hr : c.read s deadline net = (none, c₁, net₁)) : Resumes c net c₁ net₁ := by
  obtain ⟨a, hc, hprogress⟩ := read_progress s deadline net (h.held s hs)
  rw [hr] at hc hprogress
  obtain rfl : c₁ = { c with assembler := a } := hc
  refine ⟨rfl, rfl, ?_, ?_⟩
  · intro t ht
    obtain rfl := Option.some.inj (hs.symm.trans ht)
    cases hprogress with
    | waiting new reads ha => exact ⟨_, new, h.held s hs, ha, (reads.coming (h.tidy s hs)).2⟩
  intro time hle deadline'
  have hnew : s < net.connections.length := Nat.lt_of_succ_le (Nat.le_of_eq (h.newest s hs))
  have hread : c.read s deadline' (net.waitUntil time) =
      ({ c with assembler := a } : Channel).read s deadline' (net₁.waitUntil time) :=
    readWithin_resumed (h.held s hs) hnew (h.tidy s hs) (Nat.lt_succ_self _) hr hle
      (Nat.lt_succ_self _) (Nat.lt_succ_self _)
  simp only [receive, ensure_of_open hs, ensure_of_open (c := { c with assembler := a }) hs, hread]

/-- A receive that is given up has waited in vain. -/
theorem read_of_receive_none (hs : c.socket = some s)
    (hr : (c.receive deadline net).1 = none) :
    ∃ c₁ net₁, c.read s deadline net = (none, c₁, net₁) := by
  simp only [receive, ensure_of_open hs] at hr
  rcases hread : c.read s deadline net with ⟨_ | ⟨f | e⟩, c₁, net₁⟩
  · exact ⟨c₁, net₁, rfl⟩
  · rw [hread] at hr
    cases hr
  · rw [hread] at hr
    cases hr

/-- A lenient receive whose time limit comes first. -/
theorem poll_resumes (h : Stands c net) (hs : c.socket = some s)
    (hd : net.now + c.readTimeout ≤ deadline)
    (hr : (c.receive (net.now + c.readTimeout) net).1 = none) :
    ∃ c₁ net₁, c.poll deadline net = (some (.ok {}), c₁, net₁) ∧ Resumes c net c₁ net₁ := by
  obtain ⟨c₁, net₁, hread⟩ := read_of_receive_none hs hr
  refine ⟨c₁, net₁, ?_, resumes_of_read h hs hread⟩
  simp only [poll, ensure_of_open hs, Nat.min_eq_left hd, hread, hd, if_true]

/-- What a lenient receive makes of a failure of an open socket. -/
def soften (f : Failure) : Except Failure Envelope.Server := if f.isLoss then .ok {} else .error f

theorem not_isAligned_of_isLoss {f : Failure} (h : f.isLoss) : ¬ f.isAligned := by
  cases f with
  | protocol cause =>
    cases cause <;> simp_all [Failure.isLoss, Failure.isAligned, ProtocolError.isPeerGone]
  | _ => simp [Failure.isAligned]

/-- A failure costs the socket alike, whether it is passed over or not. -/
theorem soften_eq (c : Channel) (f : Failure) (net : Network) :
    (if f.isLoss then (some (.ok {}), c.close net) else c.fail f net) =
      (some (soften f), (c.fail (α := Envelope.Server) f net).2) := by
  by_cases hl : f.isLoss
  · rw [if_pos hl, soften, if_pos hl, fail, if_neg (not_isAligned_of_isLoss hl)]
  · rw [if_neg hl, soften, if_neg hl, fail]

/-- A lenient receive that is given up before its time limit has read until then. -/
theorem read_of_poll_none (hs : c.socket = some s)
    (hr : c.poll deadline net = (none, c₁, net₁)) :
    c.read s deadline net = (none, c₁, net₁) := by
  simp only [poll, ensure_of_open hs] at hr
  rcases hread : c.read s (min (net.now + c.readTimeout) deadline) net with
    ⟨_ | ⟨f | e⟩, c₂, net₂⟩ <;> simp only [hread] at hr
  · split at hr
    · cases hr
    · rename_i hlt
      rw [Nat.min_eq_right (Nat.le_of_lt (Nat.lt_of_not_le hlt))] at hread
      rw [hread, hr]
  · rw [soften_eq] at hr
    cases hr
  · cases hr

/-- A receive whose token fires first. -/
theorem receiveUnless_resumes {token : Token} (h : Stands c net) (hs : c.socket = some s)
    (hr : c.receiveUnless token deadline net = (some (.ok .stopped), c₁, net₁)) :
    Resumes c net c₁ net₁ := by
  rw [receiveUnless] at hr
  split at hr
  · cases hr
    exact resumes_refl (h.held s hs) net
  · simp only [ensure_of_open hs] at hr
    rcases hread : c.read s (token.limit deadline) net with ⟨_ | ⟨f | e⟩, c₂, net₂⟩
    · simp only [hread] at hr
      obtain ⟨rfl, rfl⟩ := Prod.mk.inj (Prod.mk.inj hr).2
      exact resumes_of_read h hs hread
    · simp only [hread, fail] at hr
      cases hr
    · simp only [hread] at hr
      cases hr

/-- A receive is not stopped before its token fires. -/
theorem receiveUnless_stopped {token : Token} (h : Stands c net) (hs : c.socket = some s)
    (hr : c.receiveUnless token deadline net = (some (.ok .stopped), c₁, net₁)) :
    token.ends net₁.now := by
  rw [receiveUnless] at hr
  split at hr
  · rename_i hfired
    cases hr
    exact Token.ends_of_isFired hfired
  · simp only [ensure_of_open hs] at hr
    rcases hread : c.read s (token.limit deadline) net with ⟨_ | ⟨f | e⟩, c₂, net₂⟩
    · simp only [hread, Token.interrupt] at hr
      split at hr
      · rename_i he
        obtain ⟨rfl, rfl⟩ := Prod.mk.inj (Prod.mk.inj hr).2
        exact Token.ends_of_limit_le he (read_waits h hs hread)
      · cases hr
    · simp only [hread, fail] at hr
      cases hr
    · simp only [hread] at hr
      cases hr

/-- What becomes of the result of a strict receive when the receive is lenient instead, by what came
of asking for an open socket: the loss of an open socket is passed over. -/
inductive Softened (opened : Outcome Socket) :
    Except Failure Envelope.Server → Except Failure Envelope.Server → Prop
  | envelope (e : Envelope.Server) : Softened opened (.ok e) (.ok e)
  | unconnected (address : String) (fault : Fault)
      (ho : opened = some (.error (.connect address fault))) :
      Softened opened (.error (.connect address fault)) (.error (.connect address fault))
  | tooLarge (size limit : Nat) :
      Softened opened (.error (.protocol (.frame (.tooLarge size limit))))
        (.error (.protocol (.frame (.tooLarge size limit))))
  | malformed (cause : Wire.Error) :
      Softened opened (.error (.protocol (.envelope cause))) (.error (.protocol (.envelope cause)))
  | failed (socket : Socket) (ho : opened = some (.ok socket)) (fault : Fault) :
      Softened opened (.error (.transport fault)) (.ok {})
  | closed (socket : Socket) (ho : opened = some (.ok socket)) (expected received : Nat) :
      Softened opened (.error (.protocol (.frame (.closed expected received)))) (.ok {})

theorem softened_of_read {f : Failure} {opened : Outcome Socket} (ha : c.assembler.Holds held)
    (ho : opened = some (.ok s)) (hr : (c.read s deadline net).1 = some (.error f)) :
    Softened opened (.error f) (soften f) := by
  obtain ⟨a, -, hprogress⟩ := read_progress s deadline net ha
  rw [hr] at hprogress
  generalize hresult : (some (.error f) : Outcome Envelope.Server) = result at hprogress
  cases hprogress with
  | waiting => cases hresult
  | frame new reads body =>
    rw [← Manner.outcome_plain] at hresult
    obtain ⟨cause, rfl⟩ := envelope_of_outcome (Option.some.inj hresult).symm
    exact .malformed cause
  | lost new reads hf =>
    cases hresult
    cases hf with
    | transport fault => exact .failed s ho fault
    | closed expected received => exact .closed s ho expected received
    | tooLarge => exact .tooLarge _ _

/-- A read that is over within a time limit. -/
theorem read_in_time {r : Except Failure Envelope.Server} {limit : Nat}
    (hr : c.read s deadline net = (some r, c', net'))
    (ht : net'.now = net.now ∨ net'.now < limit) :
    c.read s (min limit deadline) net = (some r, c', net') := by
  rcases Nat.le_total deadline limit with hd | hd
  · rwa [Nat.min_eq_right hd]
  · rw [Nat.min_eq_left hd]
    exact readWithin_sooner hr (by omega)

/-- A lenient receive is as the strict one that is over within the time limit. -/
theorem poll_softens {r : Except Failure Envelope.Server} (h : Stands c net)
    (hr : c.receive deadline net = (some r, c', net'))
    (ht : net'.now = (c.ensure deadline net).2.2.now ∨
      net'.now < (c.ensure deadline net).2.2.now + c.readTimeout) :
    ∃ r', c.poll deadline net = (some r', c', net') ∧ Softened (c.ensure deadline net).1 r r' := by
  have hensured := h.ensure deadline
  have hopens := ensure_opens c deadline net
  have hensure := ensured c deadline net
  rw [receive] at hr
  rw [poll]
  rcases he : c.ensure deadline net with ⟨_ | ⟨f | s⟩, c₁, net₁⟩ <;>
    rw [he] at hensured hopens ht hensure <;> dsimp only at hensure hopens ht <;>
    simp only [he] at hr ⊢
  · cases hr
  · obtain ⟨rfl, rfl, rfl⟩ : Except.error f = r ∧ c₁ = c' ∧ net₁ = net' := by simpa using hr
    cases hensure with
    | failed _ fault => exact ⟨_, rfl, .unconnected _ fault rfl⟩
  · have hs := hopens.socket_eq
    obtain ⟨held, ha⟩ := hensured.holds
    have htimeout : c₁.readTimeout = c.readTimeout := by cases hopens <;> rfl
    rw [← htimeout] at ht
    rcases hread : c₁.read s deadline net₁ with ⟨_ | ⟨f | e⟩, c₂, net₂⟩ <;> simp only [hread] at hr
    · cases hr
    · have hnow : net'.now = net₂.now := by
        rw [← now_fail (α := Envelope.Server) c₂ f net₂, hr]
      obtain rfl : .error f = r := Option.some.inj (congrArg Prod.fst hr)
      rw [hnow] at ht
      refine ⟨soften f, ?_, softened_of_read ha rfl (congrArg Prod.fst hread)⟩
      simp only [read_in_time hread ht]
      exact (soften_eq c₂ f net₂).trans (by rw [hr])
    · obtain ⟨rfl, rfl, rfl⟩ : Except.ok e = r ∧ c₂ = c' ∧ net₂ = net' := by simpa using hr
      simp only [read_in_time hread ht]
      exact ⟨.ok e, rfl, .envelope e⟩

/-- Whether the three ways to receive an envelope, from where a channel is, differ only in when they
give up and in what a lost connection means to them. -/
structure ReceivesAlike (c : Channel) (net : Network) (deadline : Nat) : Prop where
  /-- A token that never fires makes no difference. -/
  unstopped : c.receiveUnless .never deadline net =
    (c.receive deadline net).map (·.map (·.map .envelope)) id
  /-- A strict receive that is over before the lenient one's time limit, which begins when the
  socket is open. -/
  softened : ∀ r c' net', c.receive deadline net = (some r, c', net') →
    (net'.now = (c.ensure deadline net).2.2.now ∨
      net'.now < (c.ensure deadline net).2.2.now + c.readTimeout) →
    ∃ r', c.poll deadline net = (some r', c', net') ∧ Softened (c.ensure deadline net).1 r r'
  /-- A strict receive that is not over by the lenient one's time limit. -/
  late : ∀ s, c.socket = some s → net.now + c.readTimeout ≤ deadline →
    (c.receive (net.now + c.readTimeout) net).1 = none →
    ∃ c₁ net₁, c.poll deadline net = (some (.ok {}), c₁, net₁) ∧ Resumes c net c₁ net₁
  stopped : ∀ s, c.socket = some s → ∀ token c₁ net₁,
    c.receiveUnless token deadline net = (some (.ok .stopped), c₁, net₁) → Resumes c net c₁ net₁

theorem receiveUnless_never (c : Channel) (deadline : Nat) (net : Network) :
    c.receiveUnless .never deadline net =
      (c.receive deadline net).map (·.map (·.map .envelope)) id := by
  simp only [receiveUnless, receive, Token.isFired, Token.limit, Bool.false_eq_true, if_false]
  rcases c.ensure deadline net with ⟨_ | ⟨f | s⟩, c₁, net₁⟩
  · rfl
  · rfl
  · dsimp only
    rcases c₁.read s deadline net₁ with ⟨_ | ⟨f | e⟩, c₂, net₂⟩
    · rfl
    · rfl
    · rfl

/-- Whatever has been done with a channel, whatever the servers do, and whenever it is asked
next. -/
theorem run_receivesAlike (endpoint : Endpoint) (connectTimeout readTimeout : Nat)
    (turns : List Turn) (start : Network) (time deadline : Nat) :
    ∃ records c net, run turns { endpoint, connectTimeout, readTimeout } start =
      (records, c, net) ∧ ReceivesAlike c (net.waitUntil time) deadline := by
  have hstands : Stands { endpoint, connectTimeout, readTimeout } start :=
    stands_of_closed rfl Frame.Assembler.holds_initial start
  have hrun := hstands.run turns
  generalize run turns _ start = reached at hrun ⊢
  obtain ⟨records, c, net⟩ := reached
  refine ⟨records, c, net, rfl, ?_⟩
  have hlater : Stands c (net.waitUntil time) := hrun.wait time
  exact {
    unstopped := receiveUnless_never c deadline _
    softened := fun r c' net' hr ht => poll_softens hlater hr ht
    late := fun s hs hd hr => poll_resumes hlater hs hd hr
    stopped := fun s hs token c₁ net₁ hr => receiveUnless_resumes hlater hs hr }

/-- A server that sends a frame in three parts, the first of them within the header. -/
def splitFrameNetwork : Network :=
  { servers := [{
      endpoint := ⟨"127.0.0.1", 9000⟩
      receptions := [.accept 0 [.send ⟨#[0, 0]⟩, .pause 50, .send ⟨#[0, 2, 8]⟩, .pause 50,
        .send ⟨#[5]⟩] []] }] }

/-- A lenient receive that gives up within the header, and a strict one behind it. -/
theorem run_receivesAlike_splitFrame :
    let (_, c, net) := run [{ operation := .ensure, deadline := 1000 }]
      { endpoint := ⟨"127.0.0.1", 9000⟩, readTimeout := 10 } splitFrameNetwork
    ∃ c₁ net₁, c.poll 1000 net = (some (.ok {}), c₁, net₁) ∧ c₁.buffered = 2 ∧
      c₁.socket = some 0 ∧ (c₁.receive 1000 (net₁.waitUntil 20)).1 = some (.ok { status := 5 }) := by
  obtain ⟨records, c, net, hrun, h⟩ := run_receivesAlike ⟨"127.0.0.1", 9000⟩ 5000 10
    [{ operation := .ensure, deadline := 1000 }] splitFrameNetwork 0 1000
  have hc : c = (run [{ operation := .ensure, deadline := 1000 }]
      { endpoint := ⟨"127.0.0.1", 9000⟩, readTimeout := 10 } splitFrameNetwork).2.1 := by rw [hrun]
  have hn : net = (run [{ operation := .ensure, deadline := 1000 }]
      { endpoint := ⟨"127.0.0.1", 9000⟩, readTimeout := 10 } splitFrameNetwork).2.2 := by rw [hrun]
  have hs : c.socket = some 0 := by
    rw [hc]
    cbv
  have hnow : net.waitUntil 0 = net := by
    rw [hn]
    cbv
  have hin : net.now + c.readTimeout ≤ 1000 := by
    rw [hc, hn]
    cbv
  have hlate : (c.receive (net.now + c.readTimeout) net).1 = none := by
    rw [hc, hn]
    cbv
  rw [hnow] at h
  obtain ⟨c₁, net₁, hpoll, hresumes⟩ := h.late 0 hs hin hlate
  have hbuffered : (c.poll 1000 net).2.1.buffered = 2 := by
    rw [hc, hn]
    cbv
  have hover : (c.poll 1000 net).2.2.now ≤ 20 := by
    rw [hc, hn]
    cbv
  have hreceived : (c.receive 1000 (net.waitUntil 20)).1 = some (.ok { status := 5 }) := by
    rw [hc, hn]
    cbv
  rw [hpoll] at hbuffered hover
  rw [← hresumes.receive 20 hover] at hreceived
  rw [hrun]
  exact ⟨c₁, net₁, hpoll, hbuffered, hresumes.socket.trans hs, hreceived⟩

end Channel
end Gallows
