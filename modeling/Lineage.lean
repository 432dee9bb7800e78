import Lineage.Contract.Registry
import Lineage.Export.Ancestors
import Lineage.Export.Contracts
import Lineage.Export.Kind
import Lineage.Flight.Scenario
import Lineage.Hierarchy.Registry
import Lineage.Proofs.Ancestry.CoreChains
import Lineage.Proofs.Ancestry.Inheritance
import Lineage.Proofs.Ancestry.Language
import Lineage.Proofs.Ancestry.LoadOrder
import Lineage.Proofs.Ancestry.PrintedChains
import Lineage.Proofs.Ancestry.SourceRoots
import Lineage.Proofs.Ancestry.Superclasses
import Lineage.Proofs.Contract.Answers
import Lineage.Proofs.Contract.NewerVersion
import Lineage.Proofs.Contract.ReadBack
import Lineage.Proofs.Contract.RecordingOrder
import Lineage.Proofs.Device.Files
import Lineage.Proofs.Export.AncestorsOutcome
import Lineage.Proofs.Export.ReportText
import Lineage.Proofs.Export.SavedStore
import Lineage.Proofs.Export.StoreCopy
import Lineage.Proofs.Flight.MemoTable
import Lineage.Proofs.Flight.SingleFlight
import Lineage.Proofs.Hierarchy.Disposal
import Lineage.Proofs.Hierarchy.Failure
import Lineage.Proofs.Hierarchy.Grouping
import Lineage.Proofs.Hierarchy.Lifecycle
import Lineage.Proofs.Hierarchy.Processing
import Lineage.Proofs.Hierarchy.ProviderRun
import Lineage.Proofs.Hierarchy.RegistryRun
import Lineage.Proofs.Hierarchy.Resolution
import Lineage.Proofs.Hierarchy.Transparency
import Lineage.Proofs.Hierarchy.Work
import Lineage.Proofs.Wire.InterruptedWrite
import Lineage.Proofs.Wire.MethodCount
import Lineage.Proofs.Wire.Migration
import Lineage.Proofs.Wire.ReaderBounds
import Lineage.Proofs.Wire.Refusal
import Lineage.Proofs.Wire.StoreFormat
import Lineage.Proofs.Wire.StreamRoundTrip
import Lineage.Proofs.Wire.Truncation
import Lineage.Wire.Stream
