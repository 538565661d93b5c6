/-!
# Stop flags

A stop flag is raised once and stays raised. Copies of a flag are the same flag: raising one raises
all. A registry holds the flags; a handle names one, and copying a handle copies nothing else.
-/

namespace BulkSync

/-- The flags that have been made, each raised or not. -/
structure StopFlags where
  raised : Array Bool

namespace StopFlags

/-- A registry without flags. -/
def empty : StopFlags := ⟨#[]⟩

/-- A new flag, not raised. -/
def fresh (flags : StopFlags) : Nat × StopFlags := (flags.raised.size, ⟨flags.raised.push false⟩)

/-- Raises a flag. -/
def raise (flags : StopFlags) (handle : Nat) : StopFlags := ⟨flags.raised.setIfInBounds handle true⟩

/-- Whether a flag is raised. -/
def isRaised (flags : StopFlags) (handle : Nat) : Bool := flags.raised.getD handle false

/-- The outline of a flag. -/
def describe (raised : Bool) : String := s!"TerminationFlag \x7b terminated: {raised} \x7d"

end StopFlags
end BulkSync
