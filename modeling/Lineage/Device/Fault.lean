/-
  What can go wrong on the outside: a file system, a sink that takes bytes, a stream that gives
  them.  Only the KIND of a fault is kept; its wording belongs to the machine it happened on.
-/

namespace Lineage.Device

/-- The kind of a fault. -/
inductive Fault where
  | notFound
  | isADirectory
  | notADirectory
  | alreadyExists
  | invalidInput
  | invalidData
  | invalidFilename
  | writeZero
  | storageFull
  | brokenPipe
  | connectionReset
  deriving DecidableEq, Repr

end Lineage.Device
