import Gallows.Channel.Receive
import Gallows.Proofs.Network.Course
import Gallows.Proofs.Network.Reception

/-!
What the operations of a channel do on the network, one deed after another.
-/
namespace Gallows.Channel

open Network (Course Deed)

variable {net net' : Network} {c c' : Channel} {socket : Socket}

/-- Whether all that is done is to read from a socket. -/
def OnlyReads (socket : Socket) (deeds : List Deed) : Prop :=
  ∀ deed ∈ deeds, ∃ r, deed = .read socket r

/-- What is done when a channel is asked for an open socket. -/
inductive Opens (c : Channel) (net : Network) : Outcome Socket → Channel → Network → Prop
  | kept (socket : Socket) (hs : c.socket = some socket) : Opens c net (some (.ok socket)) c net
  | opened {net' : Network} (hs : c.socket = none)
      (course : Course net [.opened net.connections.length] net')
      (opened : Network.Opened c.endpoint net net') :
      Opens c net (some (.ok net.connections.length))
        { c with
          socket := some net.connections.length
          assembler := c.assembler.reset
          generation := c.generation + 1 } net'
  | unopened {r : Outcome Socket} {net' : Network} (hs : c.socket = none)
      (hr : ∀ socket, r ≠ some (.ok socket)) (course : Course net [] net')
      (quiet : Network.Quiet net net')
      (count : net'.connections.length ≤ net.connections.length + 1) : Opens c net r c net'

theorem ensure_opens (c : Channel) (deadline : Nat) (net : Network) :
    Opens c net (c.ensure deadline net).1 (c.ensure deadline net).2.1
      (c.ensure deadline net).2.2 := by
  cases hs : c.socket with
  | some socket =>
    simp only [ensure, hs]
    exact .kept socket hs
  | none =>
    simp only [ensure, hs]
    generalize hlimit : min (net.now + c.connectTimeout) deadline = limit
    have hcourse := (Course.start : Course net [] net).connect c.endpoint limit
    have hquiet := Network.quiet_connect net c.endpoint limit
    have hcount := net.length_connect_le c.endpoint limit
    split
    · rename_i socket net' he
      have hopened := Network.connect_opened (congrArg Prod.fst he)
      obtain ⟨hnew, -⟩ := Network.connect_eq_some (congrArg Prod.fst he)
      rw [he] at hcourse hopened
      obtain rfl := hnew
      exact .opened hs hcourse hopened
    · rename_i fault net' he
      rw [he] at hcourse hquiet hcount
      exact .unopened hs (by simp) hcourse hquiet hcount
    · rename_i net' he
      rw [he] at hcourse hquiet hcount
      split
      · exact .unopened hs (by simp) hcourse hquiet hcount
      · exact .unopened hs (by simp) hcourse hquiet hcount

theorem opens_of_ensure {r : Outcome Socket} {deadline : Nat}
    (h : c.ensure deadline net = (r, c', net')) : Opens c net r c' net' := by
  have hopens := ensure_opens c deadline net
  rwa [h] at hopens

theorem ensure_of_open (hs : c.socket = some socket) (deadline : Nat) (net : Network) :
    c.ensure deadline net = (some (.ok socket), c, net) := by
  simp only [ensure, hs]

theorem Opens.socket_eq (h : Opens c net (some (.ok socket)) c' net') :
    c'.socket = some socket := by
  cases h with
  | kept _ hs => exact hs
  | opened => rfl
  | unopened _ hr => exact absurd rfl (hr socket)

/-- A channel without a socket has one only after opening it. -/
theorem Opens.of_closed (h : Opens c net (some (.ok socket)) c' net') (hs : c.socket = none) :
    socket = net.connections.length ∧
      c' = { c with
        socket := some socket, assembler := c.assembler.reset, generation := c.generation + 1 } ∧
      Course net [.opened socket] net' ∧ Network.Opened c.endpoint net net' := by
  cases h with
  | kept _ hopen => simp [hs] at hopen
  | opened _ course opened => exact ⟨rfl, rfl, course, opened⟩
  | unopened _ hr => exact absurd rfl (hr socket)

theorem Opens.quiet {r : Outcome Socket} (h : Opens c net r c' net') : Network.Quiet net net' := by
  cases h with
  | kept => exact Network.quiet_refl net
  | opened _ _ opened => exact opened.toQuiet
  | unopened _ _ _ quiet => exact quiet

/-- What one read means to the frame that an assembler holds: reading is over, or it goes on. -/
def digest (a : Frame.Assembler) : Option (Except Fault ByteArray) →
    (Outcome Envelope.Server × Frame.Assembler) ⊕ Frame.Assembler
  | none => .inl (none, a)
  | some (.error fault) =>
    if fault.isTransient then .inr a else .inl (some (.error (.transport fault)), a)
  | some (.ok piece) =>
    match a.feed piece with
    | (.error e, a) => .inl (some (.error (.protocol (.frame e))), a)
    | (.ok none, a) => .inr a
    | (.ok (some body), a) => .inl (some ((Frame.decodeBody body).mapError .protocol), a)

section Reading

variable {net₁ : Network} {deadline : Nat} {found : Option (Except Fault ByteArray)}
  {r : Outcome Envelope.Server} {a : Frame.Assembler}

theorem readWithin_over (hread : net.read socket c.assembler.unfilled deadline = (found, net₁))
    (hd : digest c.assembler found = .inl (r, a)) (fuel : Nat) :
    readWithin socket deadline (fuel + 1) c net = (r, { c with assembler := a }, net₁) := by
  rw [readWithin, hread]
  rcases found with _ | ⟨fault | piece⟩
  · cases hd
    rfl
  · rw [digest] at hd
    dsimp only
    split at hd
    · cases hd
    · rename_i ht
      cases hd
      rw [if_neg ht]
  · simp only [digest] at hd ⊢
    generalize c.assembler.feed piece = fed at hd ⊢
    obtain ⟨_ | _ | _, b⟩ := fed <;> cases hd <;> rfl

theorem readWithin_more (hread : net.read socket c.assembler.unfilled deadline = (found, net₁))
    (hd : digest c.assembler found = .inr a) (fuel : Nat) :
    readWithin socket deadline (fuel + 1) c net =
      readWithin socket deadline fuel { c with assembler := a } net₁ := by
  rw [readWithin, hread]
  rcases found with _ | ⟨fault | piece⟩
  · cases hd
  · rw [digest] at hd
    dsimp only
    split at hd
    · rename_i ht
      cases hd
      rw [if_pos ht]
    · cases hd
  · simp only [digest] at hd ⊢
    generalize c.assembler.feed piece = fed at hd ⊢
    obtain ⟨_ | _ | _, b⟩ := fed <;> cases hd
    rfl

theorem found_of_over {result : Except Failure Envelope.Server} {b : Frame.Assembler}
    (h : digest a found = .inl (some result, b)) : ∃ piece, found = some piece := by
  cases found with
  | none => cases h
  | some piece => exact ⟨piece, rfl⟩

/-- Reading is over without a result only when a read comes to nothing. -/
theorem found_of_none {b : Frame.Assembler} (h : digest a found = .inl (none, b)) :
    found = none ∧ b = a := by
  rcases found with _ | ⟨fault | piece⟩
  · cases h
    exact ⟨rfl, rfl⟩
  · rw [digest] at h
    split at h <;> cases h
  · simp only [digest] at h
    generalize a.feed piece = fed at h
    obtain ⟨_ | _ | _, _⟩ := fed <;> cases h

theorem found_of_more {b : Frame.Assembler} (h : digest a found = .inr b) :
    ∃ piece, found = some piece := by
  cases found with
  | none => cases h
  | some piece => exact ⟨piece, rfl⟩

end Reading

/-- Reading only reads, and leaves the channel open. -/
theorem readWithin_course (socket : Socket) (deadline fuel : Nat) (c : Channel) (net : Network) :
    ∃ deeds a, Course net deeds (readWithin socket deadline fuel c net).2.2 ∧
      OnlyReads socket deeds ∧
      (readWithin socket deadline fuel c net).2.1 = { c with assembler := a } := by
  induction fuel generalizing c net with
  | zero => exact ⟨[], c.assembler, .start, List.forall_mem_nil _, rfl⟩
  | succ fuel ih =>
    have hcourse := (Course.start : Course net [] net).read socket c.assembler.unfilled deadline
    generalize hread : net.read socket c.assembler.unfilled deadline = result at hcourse
    obtain ⟨found, net₁⟩ := result
    have hone : OnlyReads socket ([] ++ [.read socket found]) := by
      intro deed hd
      rw [List.nil_append, List.mem_singleton] at hd
      exact ⟨found, hd⟩
    rcases hd : digest c.assembler found with ⟨r, a⟩ | a
    · rw [readWithin_over hread hd]
      exact ⟨_, a, hcourse, hone, rfl⟩
    · rw [readWithin_more hread hd]
      obtain ⟨deeds, b, hrest, hreads, hc⟩ := ih { c with assembler := a } net₁
      refine ⟨_, b, hcourse.trans hrest, ?_, hc⟩
      intro deed hd
      rcases List.mem_append.mp hd with hd | hd
      · exact hone deed hd
      · exact hreads deed hd

theorem close_course (hs : c.socket = some socket) (net : Network) :
    Course net [.closed socket] (c.close net).2 := by
  simp only [close, hs]
  exact Course.start.close socket

/-- What is done while an open socket is listened to: it is read from, and maybe closed then. -/
inductive Listens (socket : Socket) (c : Channel) (net : Network) : Channel → Network → Prop
  | stays {net' : Network} (deeds : List Deed) (hr : OnlyReads socket deeds)
      (course : Course net deeds net') (a : Frame.Assembler) :
      Listens socket c net { c with assembler := a } net'
  | leaves {net' : Network} (deeds : List Deed) (hr : OnlyReads socket deeds)
      (course : Course net (deeds ++ [.closed socket]) net') (a : Frame.Assembler) :
      Listens socket c net { c with socket := none, assembler := a } net'

theorem listens_close {deeds : List Deed} {a : Frame.Assembler} (hs : c.socket = some socket)
    (hr : OnlyReads socket deeds) (course : Course net deeds net') :
    Listens socket c net ({ c with assembler := a }.close net').1
      ({ c with assembler := a }.close net').2 := by
  have hclose : Course net' [.closed socket] ({ c with assembler := a }.close net').2 :=
    close_course (c := { c with assembler := a }) hs net'
  exact .leaves deeds hr (course.trans hclose) a.reset

theorem listens_fail {α : Type} {deeds : List Deed} {a : Frame.Assembler}
    (hs : c.socket = some socket) (hr : OnlyReads socket deeds) (course : Course net deeds net')
    (failure : Failure) :
    Listens socket c net (fail (α := α) { c with assembler := a } failure net').2.1
      (fail (α := α) { c with assembler := a } failure net').2.2 := by
  simp only [fail]
  split
  · exact .stays deeds hr course a
  · exact listens_close hs hr course

theorem poll_listens (hs : c.socket = some socket) (deadline : Nat) (net : Network) :
    Listens socket c net (c.poll deadline net).2.1 (c.poll deadline net).2.2 := by
  obtain ⟨deeds, a, hcourse, hr, hc⟩ := readWithin_course socket
    (min (net.now + c.readTimeout) deadline) (net.weightOf socket + 1) c net
  simp only [poll, ensure_of_open hs, read]
  generalize readWithin socket _ _ c net = result at hcourse hc ⊢
  obtain ⟨r, c', net'⟩ := result
  obtain rfl : c' = _ := hc
  rcases r with _ | ⟨failure | e⟩
  · exact .stays deeds hr hcourse a
  · dsimp only
    split
    · exact listens_close hs hr hcourse
    · exact listens_fail hs hr hcourse failure
  · exact .stays deeds hr hcourse a

theorem receiveUnless_listens (hs : c.socket = some socket) (token : Token) (deadline : Nat)
    (net : Network) :
    Listens socket c net (c.receiveUnless token deadline net).2.1
      (c.receiveUnless token deadline net).2.2 := by
  simp only [receiveUnless, ensure_of_open hs, read]
  split
  · exact .stays [] (List.forall_mem_nil _) .start c.assembler
  · obtain ⟨deeds, a, hcourse, hr, hc⟩ := readWithin_course socket (token.limit deadline)
      (net.weightOf socket + 1) c net
    generalize readWithin socket _ _ c net = result at hcourse hc ⊢
    obtain ⟨r, c', net'⟩ := result
    obtain rfl : c' = _ := hc
    rcases r with _ | ⟨failure | e⟩
    · exact .stays deeds hr hcourse a
    · exact listens_fail hs hr hcourse failure
    · exact .stays deeds hr hcourse a

/-- What is done when an envelope is sent on an open socket. -/
inductive Posts (e : Envelope.Client) (socket : Socket) (c : Channel) (net : Network) :
    Outcome Unit → Channel → Network → Prop
  /-- The envelope is too large for a frame. -/
  | refused (cause : Frame.Error) (h : Frame.encode e = .error cause) (failure : Failure) :
      Posts e socket c net (some (.error failure)) c net
  | sent {net' : Network} (frame : ByteArray) (h : Frame.encode e = .ok frame)
      (course : Course net [.wrote socket frame (.ok ())] net') :
      Posts e socket c net (some (.ok ())) c net'
  | broken {net' : Network} (frame : ByteArray) (h : Frame.encode e = .ok frame) (fault : Fault)
      (course : Course net [.wrote socket frame (.error fault), .closed socket] net')
      (failure : Failure) :
      Posts e socket c net (some (.error failure))
        { c with socket := none, assembler := c.assembler.reset } net'

theorem send_posts (e : Envelope.Client) (hs : c.socket = some socket) (deadline : Nat)
    (net : Network) :
    Posts e socket c net (c.send e deadline net).1 (c.send e deadline net).2.1
      (c.send e deadline net).2.2 := by
  cases hf : Frame.encode e with
  | error cause =>
    simp only [send, hf]
    exact .refused cause hf _
  | ok frame =>
    have hcourse := (Course.start : Course net [] net).write socket frame
    simp only [send, hf, ensure_of_open hs]
    generalize net.write socket frame = result at hcourse ⊢
    obtain ⟨fault | done, net'⟩ := result
    · exact .broken frame hf fault (hcourse.trans (close_course hs net')) _
    · exact .sent frame hf hcourse

theorem posts_of_send {e : Envelope.Client} {deadline : Nat} {r : Outcome Unit}
    (hs : c.socket = some socket) (h : c.send e deadline net = (r, c', net')) :
    Posts e socket c net r c' net' := by
  have hposts := send_posts e hs deadline net
  rwa [h] at hposts

end Gallows.Channel
