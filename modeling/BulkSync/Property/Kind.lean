/-!
# Kinds of node properties

A property holds one number per node, either a 64-bit integer or a double.
-/

namespace BulkSync

/-- The two kinds of number that a node property can hold. -/
inductive PropertyKind where
  | long
  | double
  deriving DecidableEq, Repr, Inhabited

namespace PropertyKind

/-- The word for a kind in messages and in texts. -/
def name : PropertyKind → String
  | .long => "Long"
  | .double => "Double"

end PropertyKind
end BulkSync
