import Gallows.Channel.Receive

/-!
Runs of operations on one channel, with what each of them gives.
-/
namespace Gallows.Channel

/-- What a channel can be asked for. -/
inductive Operation
  | ensure
  | reconnect
  | connect (endpoint : Endpoint)
  | close
  | send (e : Envelope.Client)
  | receive
  | poll
  | receiveUnless (token : Token)

/-- Whether an operation asks for an envelope. -/
def Operation.isReceive : Operation → Bool
  | receive | poll | receiveUnless _ => true
  | _ => false

/-- An operation of a run, which begins at `start` or later and is given up at the deadline. -/
structure Turn where
  operation : Operation
  start : Nat := 0
  deadline : Nat

/-- How an operation ends. Only those that ask for an envelope give anything. -/
abbrev Answer : Type := Outcome (Option Received)

/-- What an operation gives that has an envelope to give. -/
def given (e : Envelope.Server) : Option Received := some (.envelope e)

/-- The answer of an operation that gives nothing. -/
def Answer.ofUnit {α : Type} (r : Outcome α) : Answer := r.map (·.map fun _ => none)

/-- Does one operation. -/
def perform (operation : Operation) (deadline : Nat) (c : Channel) (net : Network) :
    Answer × Channel × Network :=
  match operation with
  | .ensure => (c.ensure deadline net).map .ofUnit id
  | .reconnect => (c.reconnect deadline net).map .ofUnit id
  | .connect endpoint => (c.connect endpoint deadline net).map .ofUnit id
  | .close => (some (.ok none), c.close net)
  | .send e => (c.send e deadline net).map .ofUnit id
  | .receive => (c.receive deadline net).map (·.map (·.map given)) id
  | .poll => (c.poll deadline net).map (·.map (·.map given)) id
  | .receiveUnless token => (c.receiveUnless token deadline net).map (·.map (·.map some)) id

/-- What is known of an operation when it is over. -/
structure Record where
  operation : Operation
  answer : Answer
  /-- The socket that is open then. -/
  socket : Option Socket

/-- Does one operation after another. -/
def run : List Turn → Channel → Network → List Record × Channel × Network
  | [], c, net => ([], c, net)
  | turn :: turns, c, net =>
    let (answer, c, net) := perform turn.operation turn.deadline c (net.waitUntil turn.start)
    let (records, last) := run turns c net
    (⟨turn.operation, answer, c.socket⟩ :: records, last)

end Gallows.Channel
