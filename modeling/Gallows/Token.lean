import Gallows.Failure

/-!
Stopping what waits. A token fires at most once, and what it was given to stops waiting then.
-/
namespace Gallows

/-- When a stop is asked for. -/
inductive Token
  | never
  /-- It was asked for before anything else happens. -/
  | fired
  /-- It is asked for at `time`, behind all that can happen at once by then. -/
  | firing (time : Nat)
deriving DecidableEq, Repr

namespace Token

/-- Whether a token has fired when something begins at `now`. -/
def isFired (now : Nat) : Token → Bool
  | never => false
  | fired => true
  | firing time => time < now

/-- How long to wait, with a token at hand. -/
def limit (deadline : Nat) : Token → Nat
  | firing time => min time deadline
  | _ => deadline

/-- Whether it is the token that ends a wait with this deadline. -/
def ends (deadline : Nat) : Token → Bool
  | never => false
  | fired => true
  | firing time => time ≤ deadline

/-- How a wait ends that nothing else has ended: with `stopped`, if it is the token that ends it. -/
def interrupt {α : Type} (token : Token) (deadline : Nat) (stopped : α) : Outcome α :=
  if token.ends deadline then some (.ok stopped) else none

/-- A token that fires at `time` as well. -/
def fireAt (time : Nat) : Token → Token
  | never => firing time
  | fired => fired
  | firing earlier => firing (min earlier time)

end Token
end Gallows
