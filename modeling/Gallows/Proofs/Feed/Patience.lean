import Gallows.Proofs.Channel.Deeds
import Gallows.Proofs.Feed.Rounds

/-!
Waiting longer changes nothing that has come about. What a wait comes to before a deadline it comes
to alike before every later one, so that there is one thing that it comes to if it is patient
enough. Neither does a token change anything that has not stopped a wait.
-/
namespace Gallows

namespace Network

variable {net net' : Network} {deadline deadline' : Nat}

theorem connect_mono {endpoint : Endpoint} {r : Except Fault Socket} (hd : deadline ≤ deadline')
    (h : net.connect endpoint deadline = (some r, net')) :
    net.connect endpoint deadline' = (some r, net') := by
  simp only [connect] at h ⊢
  split at h
  · exact h
  · generalize net.reception endpoint = reached at h ⊢
    obtain ⟨_ | _ | _, net₁⟩ := reached
    · dsimp only at h ⊢
      split at h
      · rename_i after _ _ hlt
        have hlt' : net₁.now + after < deadline' := Nat.lt_of_lt_of_le hlt hd
        simpa only [hlt, hlt', if_true] using h
      · cases h
    · dsimp only at h ⊢
      split at h
      · rename_i hlt
        rwa [if_pos (Nat.lt_of_lt_of_le hlt hd)]
      · cases h
    · cases h

theorem read_mono {s : Socket} {limit : Nat} {r : Except Fault ByteArray} (hd : deadline ≤ deadline')
    (h : net.read s limit deadline = (some r, net')) :
    net.read s limit deadline' = (some r, net') := by
  simp only [read] at h ⊢
  split at h
  · exact h
  · rename_i c hc
    split at h
    · cases h
    · rename_i time htime
      have htime' : (if (c.play net.now).inbound.isEmpty then
          (c.play net.now).nextArrival?.filter (· < deadline') else some net.now) = some time := by
        split at htime
        · rename_i hempty
          obtain ⟨harrival, hlt⟩ := Option.filter_eq_some_iff.mp htime
          rw [if_pos hempty]
          apply Option.filter_eq_some_iff.mpr
          simp only [decide_eq_true_eq] at hlt ⊢
          exact ⟨harrival, Nat.lt_of_lt_of_le hlt hd⟩
        · rename_i hempty
          rw [if_neg hempty]
          exact htime
      simp only [htime']
      exact h

end Network

namespace Channel

variable {c c' : Channel} {net net' : Network} {deadline deadline' : Nat}

theorem ensure_mono {r : Except Failure Socket} (hd : deadline ≤ deadline')
    (h : c.ensure deadline net = (some r, c', net')) :
    c.ensure deadline' net = (some r, c', net') := by
  simp only [ensure] at h ⊢
  split at h
  · exact h
  · rename_i hs
    have hlimit : min (net.now + c.connectTimeout) deadline ≤
        min (net.now + c.connectTimeout) deadline' := by omega
    rcases hc : net.connect c.endpoint (min (net.now + c.connectTimeout) deadline) with
      ⟨_ | ⟨fault | s⟩, net₁⟩
    · simp only [hc] at h
      split at h
      · rename_i hle
        have hsame : min (net.now + c.connectTimeout) deadline' =
            min (net.now + c.connectTimeout) deadline := by omega
        simp only [hsame, hc, if_pos (Nat.le_trans hle hd)]
        exact h
      · cases h
    · simp only [hc] at h
      simp only [Network.connect_mono hlimit hc]
      exact h
    · simp only [hc] at h
      simp only [Network.connect_mono hlimit hc]
      exact h

theorem send_of_open {s : Socket} (hs : c.socket = some s) (e : Envelope.Client)
    (deadline deadline' : Nat) (net : Network) : c.send e deadline net = c.send e deadline' net := by
  simp only [send, ensure_of_open hs]

theorem readWithin_mono {s : Socket} {fuel : Nat} {r : Except Failure Envelope.Server}
    (hd : deadline ≤ deadline') (h : readWithin s deadline fuel c net = (some r, c', net')) :
    readWithin s deadline' fuel c net = (some r, c', net') := by
  induction fuel generalizing c net with
  | zero => cases h
  | succ fuel ih =>
    rcases hread : net.read s c.assembler.unfilled deadline with ⟨found, net₁⟩
    rcases hdigest : digest c.assembler found with ⟨r', a⟩ | a
    · rw [readWithin_over hread hdigest] at h
      obtain rfl : r' = some r := congrArg Prod.fst h
      obtain ⟨piece, rfl⟩ := found_of_over hdigest
      rwa [readWithin_over (Network.read_mono hd hread) hdigest]
    · rw [readWithin_more hread hdigest] at h
      obtain ⟨piece, rfl⟩ := found_of_more hdigest
      rw [readWithin_more (Network.read_mono hd hread) hdigest]
      exact ih h

theorem poll_mono {r : Except Failure Envelope.Server} (hd : deadline ≤ deadline')
    (h : c.poll deadline net = (some r, c', net')) : c.poll deadline' net = (some r, c', net') := by
  simp only [poll] at h ⊢
  rcases he : c.ensure deadline net with ⟨_ | ⟨f | s⟩, c₁, net₁⟩
  · simp only [he] at h
    cases h
  · simp only [he] at h
    simp only [ensure_mono hd he]
    exact h
  · simp only [he] at h
    simp only [ensure_mono hd he]
    have hlimit : min (net₁.now + c₁.readTimeout) deadline ≤
        min (net₁.now + c₁.readTimeout) deadline' := by omega
    rcases hread : c₁.read s (min (net₁.now + c₁.readTimeout) deadline) net₁ with
      ⟨_ | result, c₂, net₂⟩
    · simp only [hread] at h
      split at h
      · rename_i hle
        have hsame : min (net₁.now + c₁.readTimeout) deadline' =
            min (net₁.now + c₁.readTimeout) deadline := by omega
        simp only [hsame, hread, if_pos (Nat.le_trans hle hd)]
        exact h
      · cases h
    · have hread' : c₁.read s (min (net₁.now + c₁.readTimeout) deadline') net₁ =
          (some result, c₂, net₂) := readWithin_mono hlimit hread
      simp only [hread] at h
      simp only [hread']
      cases result <;> exact h

/-- What is received unless a token fires is received when no token fires. -/
theorem receiveUnless_unstopped {token : Token} {r : Except Failure Received}
    (h : c.receiveUnless token deadline net = (some r, c', net')) (hr : r ≠ .ok .stopped) :
    c.receiveUnless .never deadline net = (some r, c', net') := by
  have hd := token.limit_le deadline
  have hinterrupt {c : Channel} {net : Network} :
      (token.interrupt deadline Received.stopped, c, net) ≠ (some r, c', net') := by
    intro he
    simp only [Token.interrupt] at he
    split at he
    · cases he
      exact hr rfl
    · cases he
  simp only [receiveUnless] at h ⊢
  split at h
  · cases h
    exact absurd rfl hr
  simp only [Token.isFired, Token.limit, Bool.false_eq_true, if_false]
  rcases he : c.ensure (token.limit deadline) net with ⟨_ | ⟨failure | s⟩, c₁, net₁⟩
  · simp only [he] at h
    exact absurd h hinterrupt
  · simp only [he] at h
    simp only [ensure_mono hd he]
    exact h
  simp only [he] at h
  simp only [ensure_mono hd he]
  rcases hread : c₁.read s (token.limit deadline) net₁ with ⟨_ | result, c₂, net₂⟩
  · simp only [hread] at h
    exact absurd h hinterrupt
  · have hread' : c₁.read s deadline net₁ = (some result, c₂, net₂) := readWithin_mono hd hread
    simp only [hread] at h
    simp only [hread']
    cases result <;> exact h

end Channel

namespace Feed

variable {f f' : Feed} {net net' : Network} {deadline deadline' : Nat}

theorem connect_mono {r : Except Failure Unit} (hd : deadline ≤ deadline')
    (h : f.connect deadline net = (some r, f', net')) :
    f.connect deadline' net = (some r, f', net') := by
  simp only [connect] at h ⊢
  rcases he : f.channel.ensure deadline net with ⟨_ | ⟨failure | s⟩, c, net₁⟩
  · simp only [he] at h
    cases h
  · simp only [he] at h
    simp only [Channel.ensure_mono hd he]
    exact h
  · have hs : c.socket = some s := (Channel.opens_of_ensure he).socket_eq
    simp only [he] at h
    simp only [Channel.ensure_mono hd he, Channel.send_of_open hs _ deadline' deadline]
    exact h

/-- A pause after which a feed may go on is as long without a token, and if it is more patient. -/
theorem pause_mono {token : Token} (hd : deadline ≤ deadline')
    (h : f.pause token deadline net = (some true, net')) :
    f.pause .never deadline' net = (some true, net') := by
  simp only [pause] at h ⊢
  split at h
  · cases h
  split at h
  · rename_i hle
    have hle' : net.now + f.pauseTime ≤ Token.limit deadline' .never :=
      Nat.le_trans (Nat.le_trans hle (token.limit_le deadline)) hd
    rwa [if_neg (by simp [Token.isFired]), if_pos hle']
  · split at h <;> cases h

variable {f₁ : Feed} {net₁ : Network} {token : Token} {r : Except Failure Found}

theorem Polled.mono {c : Channel} {net₂ : Network} {e : Except Failure Envelope.Server}
    (hd : deadline ≤ deadline') (h : Polled token deadline f net f₁ net₁ (some e) c net₂) :
    Polled .never deadline' f net f₁ net₁ (some e) c net₂ where
  unfired := Bool.false_ne_true
  connect_eq := connect_mono hd h.connect_eq
  stillUnfired := Bool.false_ne_true
  poll_eq := Channel.poll_mono (Nat.le_trans (token.limit_le deadline) hd) h.poll_eq

/-- A round that goes on goes on alike without its token, and if it is more patient. -/
theorem round_mono (hd : deadline ≤ deadline') (h : Round token deadline f net none f₁ net₁) :
    Round .never deadline' f net none f₁ net₁ := by
  cases h with
  | goesOn e hp hb hpause => exact .goesOn e (hp.mono hd) hb (pause_mono hd hpause)

/-- So does a round that ends a wait, unless its token stops it. -/
theorem last_mono (hd : deadline ≤ deadline')
    (h : Round token deadline f net (some (some r)) f' net') (hr : r ≠ .ok .stopped) :
    Round .never deadline' f net (some (some r)) f' net' := by
  cases h with
  | fired | firedMeanwhile | stopped | stoppedPausing => exact absurd rfl hr
  | unconnected failure _ hc => exact .unconnected failure Bool.false_ne_true (connect_mono hd hc)
  | failed failure hp => exact .failed failure (hp.mono hd)
  | brought e hp hb => exact .brought e (hp.mono hd) hb

theorem ofEnvelope_ne_stopped (e : Envelope.Server) : Found.ofEnvelope e ≠ .ok .stopped := by
  simp only [Found.ofEnvelope]
  split
  · split <;> simp
  · simp

/-- Nothing stops a round that has no token. -/
theorem last_ne_stopped (h : Round .never deadline f net (some (some r)) f' net') :
    r ≠ .ok .stopped := by
  cases h with
  | fired h => cases h
  | firedMeanwhile _ _ h => cases h
  | stopped _ he => cases he
  | stoppedPausing _ _ _ hpause =>
    rw [pause, if_neg (by simp [Token.isFired])] at hpause
    split at hpause
    · cases hpause
    · simp [Token.ends] at hpause
  | unconnected | failed => simp
  | brought e => exact ofEnvelope_ne_stopped e

theorem nextWithin_of_last (h : Round .never deadline f net (some (some r)) f' net') (fuel : Nat) :
    nextWithin .never deadline (fuel + 1) f net = (some r, f', net') := by
  have hunfired (now : Nat) : Token.isFired now .never = false := rfl
  have hr := last_ne_stopped h
  cases h with
  | fired | firedMeanwhile | stopped | stoppedPausing => exact absurd rfl hr
  | unconnected _ _ hc => simp [nextWithin, hunfired, hc]
  | failed _ hp =>
    have hpoll := hp.poll_eq
    simp only [nextWithin, hunfired, Bool.false_eq_true, if_false, hp.connect_eq]
    simp only [reading, hpoll]
    rfl
  | brought e hp hb =>
    have hpoll := hp.poll_eq
    simp only [nextWithin, hunfired, Bool.false_eq_true, if_false, hp.connect_eq]
    simp only [reading, hpoll]
    generalize Found.ofEnvelope e = found at hb ⊢
    rcases found with failure | _ | _ | _
    · rfl
    · rfl
    · exact absurd rfl hb
    · rfl

theorem nextWithin_of_round (h : Round .never deadline f net none f₁ net₁) (fuel : Nat) :
    nextWithin .never deadline (fuel + 1) f net = nextWithin .never deadline fuel f₁ net₁ := by
  have hunfired (now : Nat) : Token.isFired now .never = false := rfl
  cases h with
  | goesOn e hp hb hpause =>
    have hpoll := hp.poll_eq
    rw [nextWithin]
    simp only [hunfired, Bool.false_eq_true, if_false, hp.connect_eq]
    simp only [reading, hpoll, hb]
    simp only [behind, reading] at hpause ⊢
    simp only [hpause]

/-- A wait that has no token, or is not stopped by it, ends alike without it and if it is more
patient. -/
theorem nextWithin_mono {fuel fuel' : Nat} (hr : token = .never ∨ r ≠ .ok .stopped)
    (hd : deadline ≤ deadline') (hf : fuel ≤ fuel')
    (h : nextWithin token deadline fuel f net = (some r, f', net')) :
    nextWithin .never deadline' fuel' f net = (some r, f', net') := by
  induction fuel generalizing fuel' f net with
  | zero => cases h
  | succ fuel ih =>
    obtain ⟨fuel', rfl⟩ := Nat.exists_eq_succ_of_ne_zero (Nat.ne_of_gt (Nat.zero_lt_of_lt hf))
    rcases nextWithin_round token deadline fuel f net with
      ⟨r₁, f₁, net₁, hround, he⟩ | ⟨f₁, net₁, hround, he⟩
    · rw [he] at h
      cases h
      refine nextWithin_of_last (last_mono hd hround ?_) fuel'
      rcases hr with rfl | hr
      · exact last_ne_stopped hround
      · exact hr
    · rw [nextWithin_of_round (round_mono hd hround)]
      exact ih (Nat.le_of_succ_le_succ hf) (he.symm.trans h)

/-- A wait that ends before a deadline ends alike before every later one. -/
theorem next_mono (hd : deadline ≤ deadline') (h : f.next .never deadline net = (some r, f', net')) :
    f.next .never deadline' net = (some r, f', net') :=
  nextWithin_mono (.inl rfl) hd (by omega) h

/-- A wait that is not stopped ends as it does without a token. -/
theorem next_unstopped (h : f.next token deadline net = (some r, f', net'))
    (hr : r ≠ .ok .stopped) : f.next .never deadline net = (some r, f', net') :=
  nextWithin_mono (.inr hr) (Nat.le_refl _) (Nat.le_refl _) h

theorem tryNext_unstopped (h : f.tryNext token deadline net = (some r, f', net'))
    (hr : r ≠ .ok .stopped) : f.tryNext .never deadline net = (some r, f', net') := by
  rw [tryNext] at h ⊢
  simp only [Token.isFired, Bool.false_eq_true, if_false]
  split at h
  · cases h
    exact absurd rfl hr
  rcases hc : f.connect deadline net with ⟨_ | ⟨failure | _⟩, f₁, net₁⟩
  · simp only [hc] at h
    cases h
  · simp only [hc] at h
    exact h
  simp only [hc] at h ⊢
  rcases hreceive : f₁.reading.channel.receiveUnless token deadline net₁ with
    ⟨_ | ⟨failure | received⟩, c, net₂⟩
  · simp only [hreceive] at h
    cases h
  · simp only [hreceive] at h
    simp only [Channel.receiveUnless_unstopped hreceive (by simp)]
    exact h
  cases received with
  | stopped =>
    simp only [hreceive] at h
    cases h
    exact absurd rfl hr
  | envelope e =>
    simp only [hreceive] at h
    simp only [Channel.receiveUnless_unstopped hreceive (by simp)]
    exact h

/-- What a wait comes to that nobody stops, if it is patient enough. -/
def ComesTo (f : Feed) (net : Network) (r : Except Failure Found) (f' : Feed) (net' : Network) :
    Prop :=
  ∃ deadline fuel, nextWithin .never deadline fuel f net = (some r, f', net')

/-- The last round of a wait. -/
theorem ComesTo.last (h : Round .never deadline f net (some (some r)) f' net') :
    ComesTo f net r f' net' :=
  ⟨deadline, 1, nextWithin_of_last h 0⟩

/-- Whether a wait comes by a feed and network, and so to what it comes to from there. -/
def ComesBy (f : Feed) (net : Network) (f₁ : Feed) (net₁ : Network) : Prop :=
  ∀ r f' net', ComesTo f₁ net₁ r f' net' → ComesTo f net r f' net'

theorem ComesBy.refl (f : Feed) (net : Network) : ComesBy f net f net := fun _ _ _ h => h

theorem ComesBy.trans {f₂ : Feed} {net₂ : Network} (h : ComesBy f net f₁ net₁)
    (h' : ComesBy f₁ net₁ f₂ net₂) : ComesBy f net f₂ net₂ :=
  fun _ _ _ hc => h _ _ _ (h' _ _ _ hc)

theorem ComesBy.of_round (h : Round .never deadline f net none f₁ net₁) :
    ComesBy f net f₁ net₁ := by
  rintro r f' net' ⟨deadline', fuel, hc⟩
  have hround := round_mono (Nat.le_max_left deadline deadline') h
  refine ⟨max deadline deadline', fuel + 1, ?_⟩
  rw [nextWithin_of_round hround]
  exact nextWithin_mono (.inl rfl) (Nat.le_max_right _ _) (Nat.le_refl _) hc

/-- A round that brings nothing comes to an end if there is time for its pause. -/
theorem ComesBy.of_polled {e : Envelope.Server} {c : Channel} {net₂ : Network}
    (h : Polled .never deadline f net f₁ net₁ (some (.ok e)) c net₂)
    (hb : Found.ofEnvelope e = .ok .nothing) :
    ∃ time, ComesBy f net (f₁.behind c).atRest (net₂.waitUntil time) := by
  have htime : net₂.now + f₁.pauseTime ≤ max deadline (net₂.now + f₁.pauseTime) :=
    Nat.le_max_right _ _
  have hpause : (f₁.behind c).atRest.pause .never (max deadline (net₂.now + f₁.pauseTime)) net₂ =
      (some true, net₂.waitUntil (net₂.now + f₁.pauseTime)) := by
    simp only [pause, Token.isFired, Token.limit, Bool.false_eq_true, if_false]
    exact if_pos htime
  exact ⟨_, .of_round (.goesOn e (h.mono (Nat.le_max_left _ _)) hb hpause)⟩

/-- A feed that connects waits as it does when it is connected. -/
theorem ComesBy.of_connect (h : f.connect deadline net = (some (.ok ()), f₁, net₁))
    (hsame : ∀ deadline, f₁.connect deadline net₁ = (some (.ok ()), f₁, net₁)) :
    ComesBy f net f₁ net₁ := by
  rintro r f' net' ⟨deadline', fuel, hc⟩
  have hlater := nextWithin_mono (.inl rfl) (Nat.le_max_right deadline deadline') (Nat.le_refl _) hc
  refine ⟨max deadline deadline', fuel, ?_⟩
  cases fuel with
  | zero => cases hc
  | succ fuel =>
    rw [nextWithin] at hlater ⊢
    rw [connect_mono (Nat.le_max_left deadline deadline') h]
    rwa [hsame] at hlater

/-- Every wait that is patient enough comes to it, -/
theorem ComesTo.next (h : ComesTo f net r f' net') :
    ∃ patience, ∀ deadline, patience ≤ deadline →
      f.next .never deadline net = (some r, f', net') := by
  obtain ⟨deadline, fuel, h⟩ := h
  refine ⟨max deadline (net.now + fuel), ?_⟩
  intro deadline' hd
  exact nextWithin_mono (.inl rfl) (Nat.le_trans (Nat.le_max_left _ _) hd) (by omega) h

/-- and no wait that ends comes to anything else. -/
theorem ComesTo.unique {r' : Except Failure Found} {f₂ : Feed} {net₂ : Network}
    (h : ComesTo f net r f' net') (hn : f.next .never deadline net = (some r', f₂, net₂)) :
    r' = r ∧ f₂ = f' ∧ net₂ = net' := by
  obtain ⟨patience, h⟩ := h.next
  have heq := (next_mono (Nat.le_max_left deadline patience) hn).symm.trans
    (h _ (Nat.le_max_right deadline patience))
  simpa using heq

end Feed
end Gallows
