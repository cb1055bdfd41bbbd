import Gallows.Failure

/-!
What a command shows, and how it ends.
-/
namespace Gallows

/-- What a command shows on its standard output, and how it ends. -/
structure Report where
  stdout : String := ""
  result : Outcome Unit := some (.ok ())

/-- A command that fails at once. -/
def Report.failure (f : Failure) : Report := { result := some (.error f) }

end Gallows
