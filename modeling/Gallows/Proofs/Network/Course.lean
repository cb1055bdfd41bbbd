import Gallows.Proofs.Network.Traffic

/-!
What a client does on a network, in the order in which it does it. A course is a sequence of the
network's own operations; what it leaves out is only the passing of time.
-/
namespace Gallows.Network

/-- What a client does to a connection. -/
inductive Deed
  | opened (socket : Socket)
  | wrote (socket : Socket) (bytes : ByteArray) (result : Except Fault Unit)
  | read (socket : Socket) (result : Option (Except Fault ByteArray))
  | closed (socket : Socket)

/-- The connection that it is done to. -/
def Deed.socket : Deed → Socket
  | opened socket | wrote socket _ _ | read socket _ | closed socket => socket

/-- What an attempt to connect comes to. -/
def openings : Option (Except Fault Socket) → List Deed
  | some (.ok socket) => [.opened socket]
  | _ => []

/-- Whether these deeds, one after another, take one network to another. -/
inductive Course (net : Network) : List Deed → Network → Prop
  | start : Course net [] net
  | wait {deeds : List Deed} {net' : Network} (course : Course net deeds net') (time : Nat) :
      Course net deeds (net'.waitUntil time)
  | connect {deeds : List Deed} {net' : Network} (course : Course net deeds net')
      (endpoint : Endpoint) (deadline : Nat) :
      Course net (deeds ++ openings (net'.connect endpoint deadline).1)
        (net'.connect endpoint deadline).2
  | write {deeds : List Deed} {net' : Network} (course : Course net deeds net') (socket : Socket)
      (bytes : ByteArray) :
      Course net (deeds ++ [.wrote socket bytes (net'.write socket bytes).1])
        (net'.write socket bytes).2
  | read {deeds : List Deed} {net' : Network} (course : Course net deeds net') (socket : Socket)
      (limit deadline : Nat) :
      Course net (deeds ++ [.read socket (net'.read socket limit deadline).1])
        (net'.read socket limit deadline).2
  | close {deeds : List Deed} {net' : Network} (course : Course net deeds net')
      (socket : Socket) : Course net (deeds ++ [.closed socket]) (net'.close socket)

variable {net net' net'' : Network} {deeds deeds' : List Deed} {socket : Socket}

theorem Course.trans (h : Course net deeds net') (h' : Course net' deeds' net'') :
    Course net (deeds ++ deeds') net'' := by
  induction h' with
  | start => simpa using h
  | wait _ time ih => exact ih.wait time
  | connect _ endpoint deadline ih =>
    rw [← List.append_assoc]
    exact ih.connect endpoint deadline
  | write _ socket bytes ih =>
    rw [← List.append_assoc]
    exact ih.write socket bytes
  | read _ socket limit deadline ih =>
    rw [← List.append_assoc]
    exact ih.read socket limit deadline
  | close _ socket ih =>
    rw [← List.append_assoc]
    exact ih.close socket

/-- No connection goes away. -/
theorem Course.length_le (h : Course net deeds net') :
    net.connections.length ≤ net'.connections.length := by
  induction h with
  | start => exact Nat.le_refl _
  | wait _ time ih => exact ih
  | connect _ endpoint deadline ih => exact Nat.le_trans ih (length_connect endpoint deadline)
  | write _ socket bytes ih =>
    exact Nat.le_trans ih (Nat.le_of_eq (length_write _ socket bytes).symm)
  | read _ socket limit deadline ih =>
    exact Nat.le_trans ih (Nat.le_of_eq (length_read _ socket limit deadline).symm)
  | close _ socket ih => exact Nat.le_trans ih (Nat.le_of_eq length_close.symm)

/-- What a deed that succeeds adds to what was written to a connection. -/
def Deed.adds (socket : Socket) : Deed → List UInt8
  | .wrote other bytes (.ok ()) => if other = socket then bytes.data.toList else []
  | _ => []

/-- Whether a deed is a write to a connection that fails. -/
def Deed.FailsOn (socket : Socket) (deed : Deed) : Prop :=
  ∃ bytes fault, deed = .wrote socket bytes (.error fault)

/-- Where no write has failed, what was written is what the writes wrote. -/
theorem Course.written (h : Course net deeds net') (hok : ∀ deed ∈ deeds, ¬ deed.FailsOn socket) :
    net'.written socket = net.written socket ++ deeds.flatMap (·.adds socket) := by
  induction h with
  | start => simp
  | wait _ time ih => exact ih hok
  | @connect _ net' _ endpoint deadline ih =>
    have hnone : (openings (net'.connect endpoint deadline).1).flatMap (·.adds socket) = [] := by
      rcases (net'.connect endpoint deadline).1 with _ | _ | _ <;> rfl
    have hok' := fun deed hd => hok deed (List.mem_append_left _ hd)
    rw [written_connect, ih hok', List.flatMap_append, hnone, List.append_nil]
  | @write _ net' _ other bytes ih =>
    have hok' := fun deed hd => hok deed (List.mem_append_left _ hd)
    obtain ⟨sent, -, hw, hall⟩ := written_write net' other bytes
    rw [hw, List.flatMap_append, ← List.append_assoc, ← ih hok', List.flatMap_singleton]
    by_cases hs : socket = other
    · obtain rfl := hs
      cases hr : (net'.write socket bytes).1 with
      | error fault =>
        rw [hr] at hok
        exact absurd ⟨bytes, fault, rfl⟩ (hok _ (List.mem_append_right _ List.mem_cons_self))
      | ok done =>
        rw [Function.update_self, hall hr]
        simp [Deed.adds]
    · have hne : ¬ other = socket := fun he => hs he.symm
      have hadds : Deed.adds socket (.wrote other bytes (net'.write other bytes).1) = [] := by
        cases (net'.write other bytes).1 <;> simp [Deed.adds, hne]
      rw [Function.update_of_ne hs, hadds, List.append_nil]
  | @read _ net' _ other limit deadline ih =>
    have hok' := fun deed hd => hok deed (List.mem_append_left _ hd)
    rw [written_read, ih hok', List.flatMap_append]
    simp [Deed.adds]
  | @close _ net' _ other ih =>
    have hok' := fun deed hd => hok deed (List.mem_append_left _ hd)
    rw [written_close, ih hok', List.flatMap_append]
    simp [Deed.adds]

/-- What is done to one connection. -/
def on (socket : Socket) (deeds : List Deed) : List Deed := deeds.filter (·.socket = socket)

theorem on_append (socket : Socket) (deeds deeds' : List Deed) :
    on socket (deeds ++ deeds') = on socket deeds ++ on socket deeds' := List.filter_append ..

theorem on_of_forall (h : ∀ deed ∈ deeds, deed.socket = socket) : on socket deeds = deeds := by
  apply List.filter_eq_self.mpr
  intro deed hd
  simpa using h deed hd

theorem on_of_forall_ne {other : Socket} (h : ∀ deed ∈ deeds, deed.socket = other)
    (hne : socket ≠ other) : on socket deeds = [] := by
  apply List.filter_eq_nil_iff.mpr
  intro deed hd
  rw [h deed hd]
  simpa using hne.symm

theorem adds_of_ne {deed : Deed} (h : deed.socket ≠ socket) : deed.adds socket = [] := by
  cases deed with
  | wrote other bytes r =>
    cases r with
    | error fault => rfl
    | ok done => exact if_neg h
  | opened | read | closed => rfl

theorem flatMap_adds_on (socket : Socket) (deeds : List Deed) :
    (on socket deeds).flatMap (·.adds socket) = deeds.flatMap (·.adds socket) := by
  induction deeds with
  | nil => rfl
  | cons deed deeds ih =>
    by_cases h : deed.socket = socket
    · simpa [on, h] using ih
    · simpa [on, h, adds_of_ne h] using ih

/-- What was written to a connection depends on what was done to that one only. -/
theorem Course.written_on (h : Course net deeds net')
    (hok : ∀ deed ∈ on socket deeds, ¬ deed.FailsOn socket) :
    net'.written socket =
      net.written socket ++ (on socket deeds).flatMap (·.adds socket) := by
  rw [flatMap_adds_on]
  apply h.written
  rintro deed hd ⟨bytes, fault, rfl⟩
  refine hok _ (List.mem_filter.mpr ⟨hd, ?_⟩) ⟨bytes, fault, rfl⟩
  simp [Deed.socket]

end Gallows.Network
