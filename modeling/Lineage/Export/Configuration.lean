/-
  How a project's contracts are kept.
-/
import Lineage.Device.Path
import Lineage.Project
import Lineage.Wire.Layout

namespace Lineage

/-- What can be configured, with the values that hold if nothing is. -/
structure Configuration where
  /-- Where contract stores are, as seen from the project's root. -/
  contractsDir : String := ".type-tracker/contracts"
  /-- The number of steps that progress is shown in. -/
  progressFractions : UInt32 := 5
  storeLayout : Wire.Layout := default
  deriving DecidableEq, Repr

namespace Configuration

instance : Inhabited Configuration := ⟨{}⟩

/-- The path of a project's contract store. -/
def storePath (config : Configuration) (project : Project) : String :=
  Device.join (Device.join project.root config.contractsDir) project.name

end Configuration

end Lineage
