import Gallows.Proofs.Channel.Steps
import Gallows.Proofs.Channel.Run

/-!
A channel never loses, repeats or mixes what it reads. What has been read from a socket is the
frames that the receiving operations have reported from it, one behind the other, and the
unfinished part that the assembler holds while the socket is open.
-/
namespace Gallows.Channel
open Network (Quiet Reads Writes)

variable {start net net' : Network} {c c' : Channel} {socket s : Socket}
  {rest held new : List UInt8} {deadline : Nat}

/-- Frames, each with the socket that it came from. -/
abbrev Log : Type := List (Socket × List UInt8)

variable {log : Log}

/-- The bytes of the frames in a log that came from a socket. -/
def framesFrom (log : Log) (s : Socket) : List UInt8 :=
  (log.filter (·.1 = s)).flatMap fun entry => Frame.frame entry.2

/-- What has been read from a socket since `start`: the frames in the log, and `rest`. -/
structure Accounted (start net : Network) (log : Log) (s : Socket) (rest : List UInt8) : Prop where
  unfinished : Unfinished rest
  received : net.received s = start.received s ++ framesFrom log s ++ rest

/-- Every byte that has been read since `start` is accounted for, and the assembler holds the
unfinished frame of the open socket. -/
structure Aligned (start net : Network) (log : Log) (c : Channel) : Prop where
  accounts : ∀ s, ∃ rest, Accounted start net log s rest
  idle : c.socket = none → c.assembler.Holds []
  held : ∀ s, c.socket = some s →
    ∃ rest, Accounted start net log s rest ∧ c.assembler.Holds rest

theorem unfinished_nil : Unfinished [] := unfinished_of_pending Frame.pending_nil

theorem framesFrom_append_same (log : Log) (s : Socket) (body : List UInt8) :
    framesFrom (log ++ [(s, body)]) s = framesFrom log s ++ Frame.frame body := by
  simp [framesFrom]

theorem framesFrom_append_other {t : Socket} (h : t ≠ s) (log : Log) (body : List UInt8) :
    framesFrom (log ++ [(s, body)]) t = framesFrom log t := by
  simp [framesFrom, Ne.symm h]

theorem Accounted.same (h : Accounted start net log s rest) (hr : net'.received = net.received) :
    Accounted start net' log s rest :=
  ⟨h.unfinished, by rw [hr, h.received]⟩

theorem Accounted.reads_other (h : Accounted start net log s rest)
    (hr : Reads socket new net net') (hs : s ≠ socket) : Accounted start net' log s rest :=
  ⟨h.unfinished, by rw [hr.received, Function.update_of_ne hs, h.received]⟩

theorem Accounted.reads (h : Accounted start net log s rest) (hr : Reads s new net net')
    (hu : Unfinished (rest ++ new)) : Accounted start net' log s (rest ++ new) :=
  ⟨hu, by rw [hr.received, Function.update_self, h.received, List.append_assoc _ rest]⟩

theorem Accounted.frame {body : List UInt8} (h : Accounted start net log s rest)
    (hr : Reads s new net net') (hb : rest ++ new = Frame.frame body) :
    Accounted start net' (log ++ [(s, body)]) s [] where
  unfinished := unfinished_nil
  received := by
    rw [hr.received, Function.update_self, h.received, framesFrom_append_same, ← hb]
    simp

theorem aligned_start (endpoint : Endpoint) (connectTimeout readTimeout : Nat) (start : Network) :
    Aligned start start [] { endpoint, connectTimeout, readTimeout } where
  accounts s := ⟨[], unfinished_nil, by simp [framesFrom]⟩
  idle _ := Frame.Assembler.holds_initial
  held s h := by simp at h

theorem Aligned.same (h : Aligned start net log c) (hr : net'.received = net.received) :
    Aligned start net' log c where
  accounts s := (h.accounts s).imp fun _ ha => ha.same hr
  idle := h.idle
  held s hs := (h.held s hs).imp fun _ ha => ⟨ha.1.same hr, ha.2⟩

theorem Aligned.quiet (h : Aligned start net log c) (hq : Quiet net net') :
    Aligned start net' log c := h.same hq.received

/-- What the assembler holds. It is nothing where no socket is open. -/
theorem Aligned.holds (h : Aligned start net log c) :
    ∃ held, c.assembler.Holds held ∧ (c.socket = none → held = []) := by
  cases hs : c.socket with
  | none => exact ⟨[], h.idle hs, fun _ => rfl⟩
  | some s =>
    obtain ⟨held, -, ha⟩ := h.held s hs
    exact ⟨held, ha, by simp⟩

theorem aligned_close (hacc : ∀ s, ∃ rest, Accounted start net log s rest)
    (ha : c.assembler.Holds held) :
    Aligned start (c.close net).2 log (c.close net).1 where
  accounts s := (hacc s).imp fun _ h => h.same (still_close c net).received
  idle _ := ha.reset
  held s h := by simp [close] at h

theorem Aligned.close (h : Aligned start net log c) :
    Aligned start (c.close net).2 log (c.close net).1 := by
  obtain ⟨held, ha, -⟩ := h.holds
  exact aligned_close h.accounts ha

theorem Aligned.ensured {r : Outcome Socket} (h : Aligned start net log c)
    (he : Ensured c net r c' net') : Aligned start net' log c' := by
  cases he with
  | kept _ _ => exact h
  | failed _ _ _ quiet | waiting _ _ quiet => exact h.quiet quiet
  | opened _ hs quiet _ =>
    refine ⟨fun s => (h.accounts s).imp fun _ ha => ha.same quiet.received, by simp, ?_⟩
    -- Nothing has been read yet from a new socket, so that nothing of a frame is left of it either.
    intro s hnew
    obtain rfl : net.connections.length = s := by simpa using hnew
    obtain ⟨rest, hacc⟩ := h.accounts net.connections.length
    have hrest : rest = [] := by
      have hnone := hacc.received
      rw [Network.received_of_le (Nat.le_refl _)] at hnone
      exact (List.append_eq_nil_iff.mp hnone.symm).2
    rw [hrest] at hacc
    exact ⟨[], hacc.same quiet.received, (h.idle hs).reset⟩

theorem Aligned.sends {e : Envelope.Client} {r : Outcome Unit} (h : Aligned start net log c)
    (hs : Sends e c net r c' net') : Aligned start net' log c' := by
  cases hs with
  | refused _ _ => exact h
  | failed _ _ _ _ quiet | waiting _ _ _ quiet => exact h.quiet quiet
  | sent _ _ ensured writes => exact (h.ensured ensured).same writes.received
  | broken _ _ ensured _ _ writes _ _ => exact ((h.ensured ensured).same writes.received).close

variable {α β : Type} {m : Manner α} {r : Outcome α} {operation : Operation}

/-- What an outcome reports of a frame: the frame's own outcome, or no frame. -/
def Reports (m : Manner α) (r : Outcome α) (socket : Option Socket) :
    Option (Socket × List UInt8) → Prop
  | none => m.Spares r ∨ ∃ f, f.isAligned = false ∧ r = some (.error f)
  | some (s, body) => socket = some s ∧ body.length ≤ Frame.sizeLimit ∧
      r = some (m.outcome body.toByteArray)

theorem reports_loss {f : Failure} (h : f.isAligned = false) (m : Manner α)
    (socket : Option Socket) : Reports m (m.loss f) socket none := by
  simp only [Manner.loss]
  split
  · exact Or.inl (Or.inr rfl)
  · exact Or.inr ⟨f, h, rfl⟩

theorem reports_frame {body : ByteArray} (hl : body.size ≤ Frame.sizeLimit) (m : Manner α)
    (s : Socket) : Reports m (some (m.outcome body)) (some s) (some (s, body.data.toList)) :=
  ⟨rfl, by simpa using hl, by rw [Frame.toByteArray_toList]⟩

/-- A receiving operation keeps the account. -/
theorem Aligned.receives (h : Aligned start net log c) (ha : c.assembler.Holds held)
    (hidle : c.socket = none → held = []) (hr : Receives m held c net r c' net') :
    ∃ entry, Reports m r c'.socket entry ∧ Aligned start net' (log ++ entry.toList) c' := by
  have opened {socket : Socket} {c₁ : Channel} {net₁ : Network}
      (he : Ensured c net (some (.ok socket)) c₁ net₁) :
      c₁.socket = some socket ∧ Accounted start net₁ log socket held ∧
        ∀ t, ∃ rest, Accounted start net₁ log t rest := by
    have h₁ := h.ensured he
    obtain ⟨rest, hacc, hrest⟩ := h₁.held socket he.socket_eq
    rw [hrest.unique (he.holds ha hidle)] at hacc
    exact ⟨he.socket_eq, hacc, h₁.accounts⟩
  cases hr with
  | unopened hs quiet hr =>
    refine ⟨none, hr.imp_right ?_, by simpa using h.quiet quiet⟩
    rintro ⟨fault, rfl⟩
    exact ⟨_, rfl, rfl⟩
  | @kept socket _ _ _ _ _ he new reads hr ha' =>
    obtain ⟨hs, hacc, hall⟩ := opened he
    have hsock := hacc.reads reads (unfinished_of_pending ha'.pending)
    refine ⟨none, Or.inl hr, ?_, by simp [hs], ?_⟩
    · intro t
      by_cases ht : t = socket
      · exact ⟨held ++ new, by simpa [ht] using hsock⟩
      · exact (hall t).imp fun _ ho => by simpa using ho.reads_other reads ht
    · intro t ht
      obtain rfl : socket = t := by simpa [hs] using ht
      exact ⟨held ++ new, by simpa using hsock, ha'⟩
  | @dropped socket _ _ _ _ _ _ he new reads hf still _ ha' =>
    obtain ⟨hs, hacc, hall⟩ := opened he
    refine ⟨none, reports_loss hf.isAligned m _, ?_, fun _ => ha', by simp⟩
    intro t
    rw [Option.toList_none, List.append_nil]
    by_cases ht : t = socket
    · refine ⟨held ++ new, ?_⟩
      rw [ht]
      exact (hacc.reads reads hf.unfinished).same still.received
    · exact (hall t).imp fun _ ho => (ho.reads_other reads ht).same still.received
  | @frame socket _ _ _ _ he body new reads hb hl ha' =>
    obtain ⟨hs, hacc, hall⟩ := opened he
    have hsock := hacc.frame reads hb
    refine ⟨some (socket, body.data.toList), ?_, ?_, by simp [hs], ?_⟩
    · rw [hs]
      exact reports_frame hl m socket
    · intro t
      by_cases ht : t = socket
      · exact ⟨[], by simpa [ht] using hsock⟩
      · obtain ⟨rest, ho⟩ := hall t
        have ho' := ho.reads_other reads ht
        exact ⟨rest, ho'.unfinished, by
          rw [ho'.received]
          simp [framesFrom_append_other ht]⟩
    · intro t ht
      obtain rfl : socket = t := by simpa [hs] using ht
      exact ⟨[], by simpa using hsock, ha'⟩

/-- Receiving on an open socket goes on from what is held of a frame: this and what is read are the
frame that is reported, if any, and an unfinished part. -/
theorem Receives.resumes (hr : Receives m held c net r c' net') (hs : c.socket = some s) :
    ∃ new entry rest, net'.received = Function.update net.received s (net.received s ++ new) ∧
      Reports m r c'.socket entry ∧ (∀ told ∈ entry, told.1 = s) ∧
      Unfinished rest ∧ held ++ new = framesFrom entry.toList s ++ rest := by
  cases hr with
  | unopened h _ _ => simp [hs] at h
  | kept he new reads hr ha =>
    obtain ⟨rfl, -, rfl⟩ := he.of_open hs
    exact ⟨new, none, held ++ new, reads.received, Or.inl hr, by simp,
      unfinished_of_pending ha.pending, by simp [framesFrom]⟩
  | dropped he new reads hf still _ _ =>
    obtain ⟨rfl, -, rfl⟩ := he.of_open hs
    exact ⟨new, none, held ++ new, by rw [still.received, reads.received],
      reports_loss hf.isAligned m _, by simp, hf.unfinished, by simp [framesFrom]⟩
  | frame he body new reads hb hl _ =>
    obtain ⟨rfl, rfl, rfl⟩ := he.of_open hs
    refine ⟨new, some (s, body.data.toList), [], reads.received, ?_, by simp, unfinished_nil,
      by simpa [framesFrom] using hb⟩
    rw [hs]
    exact reports_frame hl m s

/-! What is given as the answer of an operation. -/

theorem Receives.map (hr : Receives m held c net r c' net') (g : α → β) :
    Receives (m.map g) held c net (r.map (·.map g)) c' net' := by
  cases hr with
  | unopened hs quiet hr =>
    refine .unopened hs quiet (hr.imp (·.map g) ?_)
    rintro ⟨fault, rfl⟩
    exact ⟨fault, rfl⟩
  | kept he new reads hr ha => exact .kept he new reads (hr.map g) ha
  | dropped he new reads hf still ends ha =>
    rw [← Manner.loss_map]
    exact .dropped he new reads hf still ends ha
  | frame he body new reads hb hl ha =>
    rw [Option.map_some, ← Manner.outcome_map]
    exact .frame he body new reads hb hl ha

/-- How an operation of a run gives its answer. -/
def Operation.manner : Operation → Manner (Option Received)
  | receive => Manner.plain.map given
  | poll => Manner.polling.map given
  | receiveUnless _ => Manner.stoppable.map some
  | _ => { put := given, spare := some none }

/-- An operation that asks for an envelope receives. -/
theorem perform_receives (deadline : Nat) (net : Network) (hop : operation.isReceive)
    (ha : c.assembler.Holds held) (hidle : c.socket = none → held = []) :
    Receives operation.manner held c net (perform operation deadline c net).1
      (perform operation deadline c net).2.1 (perform operation deadline c net).2.2 := by
  cases operation with
  | receive => exact (receive_receives deadline net ha hidle).map given
  | poll => exact (poll_receives deadline net ha hidle).map given
  | receiveUnless token => exact (receiveUnless_receives token deadline net ha hidle).map some
  | _ => simp [Operation.isReceive] at hop

/-- What the answer of an operation tells of a frame. -/
def Record.Tells (r : Record) (entry : Option (Socket × List UInt8)) : Prop :=
  Reports r.operation.manner r.answer r.socket entry ∧ (entry.isSome → r.operation.isReceive)

theorem tells_failed {f : Failure} (h : f.isAligned = false) (operation : Operation)
    (socket : Option Socket) : Record.Tells ⟨operation, some (.error f), socket⟩ none :=
  ⟨Or.inr ⟨f, h, rfl⟩, by simp⟩

theorem tells_waiting (operation : Operation) (socket : Option Socket) :
    Record.Tells ⟨operation, none, socket⟩ none := ⟨Or.inl (Or.inl rfl), by simp⟩

theorem tells_done (hop : operation.isReceive = false) (socket : Option Socket) :
    Record.Tells ⟨operation, some (.ok none), socket⟩ none := by
  refine ⟨Or.inl (Or.inr ?_), by simp⟩
  cases operation <;> first | rfl | simp [Operation.isReceive] at hop

theorem Ensured.tells {r : Outcome Socket} (he : Ensured c net r c' net')
    (hop : operation.isReceive = false) :
    Record.Tells ⟨operation, .ofUnit r, c'.socket⟩ none := by
  cases he with
  | kept _ _ | opened _ _ _ _ => exact tells_done hop _
  | failed _ _ _ _ => exact tells_failed rfl operation _
  | waiting _ _ _ => exact tells_waiting operation _

theorem Sends.tells {e : Envelope.Client} {r : Outcome Unit} (hs : Sends e c net r c' net')
    (hop : operation.isReceive = false) :
    Record.Tells ⟨operation, .ofUnit r, c'.socket⟩ none := by
  cases hs with
  | refused _ _ | failed _ _ _ _ _ | broken _ _ _ _ _ _ _ _ => exact tells_failed rfl operation _
  | waiting _ _ _ _ => exact tells_waiting operation _
  | sent _ _ _ _ => exact tells_done hop _

/-- Every operation keeps the account, and tells of the frame that it adds to it. -/
theorem Aligned.perform (h : Aligned start net log c) (operation : Operation) (deadline : Nat) :
    let (answer, c', net') := perform operation deadline c net
    ∃ entry, Record.Tells ⟨operation, answer, c'.socket⟩ entry ∧
      Aligned start net' (log ++ entry.toList) c' := by
  by_cases hop : operation.isReceive
  · obtain ⟨held, ha, hidle⟩ := h.holds
    obtain ⟨entry, hr, h'⟩ := h.receives ha hidle
      (perform_receives deadline net hop ha hidle)
    exact ⟨entry, ⟨hr, fun _ => hop⟩, h'⟩
  · refine ⟨none, ?_⟩
    rw [Option.toList_none, List.append_nil]
    cases operation with
    | ensure =>
      have he := Channel.ensured c deadline net
      exact ⟨he.tells rfl, h.ensured he⟩
    | reconnect =>
      have he := Channel.ensured (c.close net).1 deadline (c.close net).2
      exact ⟨he.tells rfl, h.close.ensured he⟩
    | connect endpoint =>
      have h' : Aligned start net log { c with endpoint } := ⟨h.accounts, h.idle, h.held⟩
      have he := Channel.ensured ({ c with endpoint }.close net).1 deadline
        ({ c with endpoint }.close net).2
      exact ⟨he.tells rfl, h'.close.ensured he⟩
    | close => exact ⟨tells_done rfl _, h.close⟩
    | send e =>
      have hs := send_sends e c deadline net
      exact ⟨hs.tells rfl, h.sends hs⟩
    | _ => simp [Operation.isReceive] at hop

theorem Aligned.run (h : Aligned start net log c) (turns : List Turn) :
    let (records, c', net') := run turns c net
    ∃ entries, List.Forall₂ Record.Tells records entries ∧
      Aligned start net' (log ++ entries.reduceOption) c' := by
  induction turns generalizing log c net with
  | nil => exact ⟨[], .nil, by simpa using h⟩
  | cons turn turns ih =>
    obtain ⟨entry, ht, h'⟩ := (h.quiet (Network.still_waitUntil net turn.start).toQuiet).perform
      turn.operation turn.deadline
    obtain ⟨entries, hts, h''⟩ := ih h'
    refine ⟨entry :: entries, .cons ht hts, ?_⟩
    cases entry with
    | none => simpa [List.reduceOption_cons_of_none] using h''
    | some entry => simpa [List.reduceOption_cons_of_some] using h''

/-- However a channel is used and its servers behave, what has been read from a socket is the
frames that the receiving operations told of, in order and each once, and an unfinished part.
While the socket is open, that part is what is buffered and what the next receiving operation goes
on from. -/
theorem run_accounted (turns : List Turn) (endpoint : Endpoint) (connectTimeout readTimeout : Nat)
    (net : Network) :
    let (records, c, net') := run turns { endpoint, connectTimeout, readTimeout } net
    ∃ entries, List.Forall₂ Record.Tells records entries ∧
      (c.socket = none → c.buffered = 0) ∧
      ∀ s, ∃ rest, Accounted net net' entries.reduceOption s rest ∧
        (c.socket = some s → c.buffered = rest.length ∧
          ∀ turn : Turn, turn.operation.isReceive →
            let (answer, c'', net'') :=
              perform turn.operation turn.deadline c (net'.waitUntil turn.start)
            ∃ new entry rest',
              net''.received = Function.update net'.received s (net'.received s ++ new) ∧
              Record.Tells ⟨turn.operation, answer, c''.socket⟩ entry ∧
              (∀ told ∈ entry, told.1 = s) ∧ Unfinished rest' ∧
              rest ++ new = framesFrom entry.toList s ++ rest') := by
  obtain ⟨entries, ht, h⟩ := (aligned_start endpoint connectTimeout readTimeout net).run turns
  rw [List.nil_append] at h
  refine ⟨entries, ht, ?_, ?_⟩
  · intro hs
    exact (h.idle hs).buffered
  · intro s
    by_cases hs : (run turns { endpoint, connectTimeout, readTimeout } net).2.1.socket = some s
    · obtain ⟨rest, hacc, ha⟩ := h.held s hs
      refine ⟨rest, hacc, fun _ => ⟨ha.buffered, ?_⟩⟩
      intro turn hop
      obtain ⟨new, entry, rest', hread, hr, hsame, hu, heq⟩ :=
        (perform_receives turn.deadline _ hop ha (by simp [hs])).resumes hs
      exact ⟨new, entry, rest', hread, ⟨hr, fun _ => hop⟩, hsame, hu, heq⟩
    · obtain ⟨rest, hacc⟩ := h.accounts s
      exact ⟨rest, hacc, fun h => absurd h hs⟩

end Gallows.Channel
