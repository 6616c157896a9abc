/-!
# Image records

What is known of an image of a catalog.
-/

namespace PodMachines.Image

/-- An image of a catalog. -/
structure Record where
  /-- The name under which a backend boots it. -/
  id : String
  tags : List String
  digests : List String
  /-- The size in bytes. -/
  size : UInt64
  deriving DecidableEq, Repr

end PodMachines.Image
