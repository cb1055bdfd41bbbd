import Gallows.Play
import Gallows.Settings.Action

/-!
A run of the program, from the words of its command line to what it shows.
-/
namespace Gallows

/-- How a run of the program ends. -/
inductive Ending
  /-- The words of the command line were not understood, or asked for help. -/
  | usage (u : CommandLine.Usage)
  /-- No command was given; the help is shown. -/
  | help
  | done (report : Report)

namespace Program

/-- Runs the program. The token fires when the user asks it to end. -/
def run (host : Host) (words : List String) (token : Token) (deadline : Nat) (net : Network) :
    Ending × Network :=
  match Invocation.read host words with
  | .error u => (.usage u, net)
  | .ok i =>
    match Settings.load host i.config with
    | .error e => (.done (.failure e.toFailure), net)
    | .ok loaded =>
      let settings := i.apply loaded
      match i.task with
      | none => (.help, net)
      | some (.settings action) => (.done (action.run host i.config settings), net)
      | some task =>
        match settings.check host with
        | .error e => (.done (.failure e.toFailure), net)
        | .ok () =>
          let (report, net) := task.play host settings token deadline net
          (.done report, net)

end Program
end Gallows
