import Gallows.Proofs.Channel.Deeds
import Gallows.Proofs.Network.Arrival

/-!
How long the operations of a channel take. None of them waits beyond the time at which it is to give
up, and what one comes to before an earlier such time it comes to with that one as well.
-/
namespace Gallows

namespace Token

variable {token : Token} {deadline now now' : Nat}

/-- A wait that heeds a token is over by the time at which this fires. -/
theorem not_isFired_of_le (h : ¬ token.isFired now) (hle : now' ≤ max now (token.limit deadline)) :
    ¬ token.isFired now' := by
  cases token with
  | never => simp [isFired]
  | fired => simp [isFired] at h
  | firing time =>
    simp only [isFired, decide_eq_true_eq, limit] at h hle ⊢
    omega

/-- How long to wait is never beyond the deadline. -/
theorem limit_le (token : Token) (deadline : Nat) : token.limit deadline ≤ deadline := by
  cases token with
  | firing time => exact Nat.min_le_right time deadline
  | never | fired => exact Nat.le_refl _

/-- A token that has fired ends whatever begins then. -/
theorem ends_of_isFired (h : token.isFired now) : token.ends now := by
  cases token with
  | never => cases h
  | fired => rfl
  | firing time =>
    simp only [isFired, ends, decide_eq_true_eq] at h ⊢
    exact Nat.le_of_lt h

/-- A wait that its token ends is over when this fires. -/
theorem ends_of_limit_le (h : token.ends deadline) (hle : token.limit deadline ≤ now) :
    token.ends now := by
  cases token with
  | never => cases h
  | fired => rfl
  | firing time =>
    simp only [ends, limit, decide_eq_true_eq] at h hle ⊢
    omega

end Token

namespace Network

variable {net net' : Network} {endpoint : Endpoint} {deadline : Nat}

theorem now_reception (net : Network) (endpoint : Endpoint) :
    (net.reception endpoint).2.now = net.now := by
  simp only [reception]
  split
  · rfl
  · split <;> rfl

theorem now_le_connect (net : Network) (endpoint : Endpoint) (deadline : Nat) :
    net.now ≤ (net.connect endpoint deadline).2.now := by
  have hnow := net.now_reception endpoint
  simp only [connect]
  split
  · exact Nat.le_refl _
  · split
    · split <;> simp [accept, waitUntil, close, modify, hnow]
    · split <;> simp [waitUntil, hnow]
    · simp [waitUntil, hnow]

/-- An attempt to connect is given up at its deadline. -/
theorem now_connect_le (net : Network) (endpoint : Endpoint) (deadline : Nat) :
    (net.connect endpoint deadline).2.now ≤ max net.now deadline := by
  have hnow := net.now_reception endpoint
  simp only [connect]
  split
  · exact Nat.le_max_left _ _
  · split
    · split <;> simp only [accept, waitUntil, close, modify, hnow] <;> omega
    · split <;> simp only [waitUntil, hnow] <;> omega
    · simp [waitUntil, hnow]

theorem now_write (net : Network) (socket : Socket) (bytes : ByteArray) :
    (net.write socket bytes).2.now = net.now := by
  simp only [write]
  split <;> rfl

/-- Whatever is done, the time goes on. -/
theorem Course.now_le {deeds : List Deed} (h : Course net deeds net') : net.now ≤ net'.now := by
  induction h with
  | start => exact Nat.le_refl _
  | wait _ time ih => exact Nat.le_trans ih (Nat.le_max_left _ _)
  | connect _ endpoint deadline ih => exact Nat.le_trans ih (now_le_connect _ endpoint deadline)
  | write _ socket bytes ih => exact Nat.le_trans ih (Nat.le_of_eq (now_write _ socket bytes).symm)
  | read _ socket limit deadline ih => exact Nat.le_trans ih (now_le_read _ socket limit deadline)
  | close _ socket ih => exact ih

end Network

namespace Channel

variable {c c' : Channel} {s : Socket} {net net' : Network} {deadline : Nat}

theorem now_readWithin_le (s : Socket) (deadline fuel : Nat) (c : Channel) (net : Network) :
    (readWithin s deadline fuel c net).2.2.now ≤ max net.now deadline := by
  induction fuel generalizing c net with
  | zero => exact Nat.le_max_left _ _
  | succ fuel ih =>
    have hnow := net.now_read_le s c.assembler.unfilled deadline
    rcases hread : net.read s c.assembler.unfilled deadline with ⟨found, net₁⟩
    rw [hread] at hnow
    dsimp only at hnow
    rcases hd : digest c.assembler found with ⟨r, a⟩ | a
    · rw [readWithin_over hread hd]
      exact hnow
    · rw [readWithin_more hread hd]
      have hrest := ih { c with assembler := a } net₁
      omega

/-- The time goes on while a channel reads. -/
theorem now_le_readWithin (s : Socket) (deadline fuel : Nat) (c : Channel) (net : Network) :
    net.now ≤ (readWithin s deadline fuel c net).2.2.now := by
  obtain ⟨_, _, hcourse, -, -⟩ := readWithin_course s deadline fuel c net
  exact hcourse.now_le

/-- Reading that comes to something by a deadline comes to the same with that deadline. -/
theorem readWithin_sooner {r : Except Failure Envelope.Server} {sooner fuel : Nat}
    {c' : Channel} {net' : Network} (h : readWithin s deadline fuel c net = (some r, c', net'))
    (hd : net'.now ≤ net.now ∨ net'.now < sooner) :
    readWithin s sooner fuel c net = (some r, c', net') := by
  induction fuel generalizing c net with
  | zero => cases h
  | succ fuel ih =>
    have hnow := net.now_le_read s c.assembler.unfilled deadline
    rcases hread : net.read s c.assembler.unfilled deadline with ⟨found, net₁⟩
    rw [hread] at hnow
    dsimp only at hnow
    rcases hdigest : digest c.assembler found with ⟨r', a⟩ | a
    · rw [readWithin_over hread hdigest] at h
      obtain ⟨rfl, rfl, rfl⟩ : r' = some r ∧ { c with assembler := a } = c' ∧ net₁ = net' := by
        simpa using h
      obtain ⟨piece, rfl⟩ := found_of_over hdigest
      rw [readWithin_over (Network.read_sooner hread hd) hdigest]
    · rw [readWithin_more hread hdigest] at h
      have hlater := now_le_readWithin s deadline fuel { c with assembler := a } net₁
      rw [h] at hlater
      dsimp only at hlater
      obtain ⟨piece, rfl⟩ := found_of_more hdigest
      rw [readWithin_more (Network.read_sooner hread (by omega)) hdigest]
      exact ih h (by omega)

theorem Opens.now_le {r : Outcome Socket} (h : Opens c net r c' net') : net.now ≤ net'.now := by
  cases h with
  | kept => exact Nat.le_refl _
  | opened _ course | unopened _ _ course => exact course.now_le

/-- Opening a socket is given up at the channel's time limit for that, and fails then. -/
theorem ensure_ends {r : Outcome Socket} (hd : net.now + c.connectTimeout ≤ deadline)
    (h : c.ensure deadline net = (r, c', net')) :
    r ≠ none ∧ net'.now ≤ net.now + c.connectTimeout := by
  have hnow := net.now_connect_le c.endpoint (net.now + c.connectTimeout)
  simp only [ensure, Nat.min_eq_left hd] at h
  split at h
  · cases h
    exact ⟨by simp, Nat.le_add_right _ _⟩
  · generalize net.connect c.endpoint (net.now + c.connectTimeout) = result at hnow h
    obtain ⟨found, net₁⟩ := result
    have hle : net₁.now ≤ net.now + c.connectTimeout := by
      dsimp only at hnow
      omega
    rcases found with _ | ⟨fault | s⟩
    · simp only [if_pos hd] at h
      cases h
      exact ⟨by simp, hle⟩
    · cases h
      exact ⟨by simp, hle⟩
    · cases h
      exact ⟨by simp, hle⟩

theorem now_close (c : Channel) (net : Network) : (c.close net).2.now = net.now := by
  rw [close]
  cases c.socket <;> rfl

theorem now_fail {α : Type} (c : Channel) (f : Failure) (net : Network) :
    (fail (α := α) c f net).2.2.now = net.now := by
  simp only [fail]
  split
  · rfl
  · exact now_close c net

/-- Sending on an open socket takes no time. -/
theorem now_send (hs : c.socket = some s) (e : Envelope.Client) (deadline : Nat) (net : Network) :
    (c.send e deadline net).2.2.now = net.now := by
  simp only [send, ensure_of_open hs]
  split
  · rfl
  · rename_i frame _
    have hnow := net.now_write s frame
    generalize net.write s frame = result at hnow ⊢
    obtain ⟨fault | _, net'⟩ := result
    · dsimp only
      rw [now_close]
      exact hnow
    · exact hnow

theorem now_le_poll (hs : c.socket = some s) (deadline : Nat) (net : Network) :
    net.now ≤ (c.poll deadline net).2.2.now := by
  have hlistens := poll_listens hs deadline net
  generalize c.poll deadline net = result at hlistens ⊢
  obtain ⟨r, c', net'⟩ := result
  cases hlistens with
  | stays _ _ course | leaves _ _ course => exact course.now_le

theorem now_poll_le (hs : c.socket = some s) (deadline : Nat) (net : Network) :
    (c.poll deadline net).2.2.now ≤ max net.now deadline := by
  have hread := now_readWithin_le s (min (net.now + c.readTimeout) deadline)
    (net.weightOf s + 1) c net
  simp only [poll, ensure_of_open hs, read]
  generalize readWithin s _ _ c net = result at hread ⊢
  obtain ⟨r, c', net'⟩ := result
  have hle : net'.now ≤ max net.now deadline := by
    dsimp only at hread
    omega
  rcases r with _ | ⟨failure | e⟩
  · exact hle
  · dsimp only
    split
    · rw [now_close]
      exact hle
    · rw [now_fail]
      exact hle
  · exact hle

theorem now_receiveUnless_le (hs : c.socket = some s) (token : Token) (deadline : Nat)
    (net : Network) :
    (c.receiveUnless token deadline net).2.2.now ≤ max net.now (token.limit deadline) := by
  have hread := now_readWithin_le s (token.limit deadline) (net.weightOf s + 1) c net
  simp only [receiveUnless, ensure_of_open hs, read]
  split
  · exact Nat.le_max_left _ _
  · generalize readWithin s _ _ c net = result at hread ⊢
    obtain ⟨r, c', net'⟩ := result
    rcases r with _ | ⟨failure | e⟩
    · exact hread
    · dsimp only
      rw [now_fail]
      exact hread
    · exact hread

/-- Receiving is over when the token fires. -/
theorem receiveUnless_ends {token : Token} (hs : c.socket = some s) (h : token.ends deadline)
    (net : Network) : (c.receiveUnless token deadline net).1 ≠ none := by
  simp only [receiveUnless, ensure_of_open hs, read, Token.interrupt, h, if_true]
  split
  · simp
  · rcases readWithin s _ _ c net with ⟨_ | ⟨f | e⟩, c', net'⟩ <;> simp [fail]

end Channel

end Gallows
