import FabricPaths.CommandLine.Viewer
import FabricPaths.Main
import FabricPaths.Proofs.Builder.Exports
import FabricPaths.Proofs.Builder.Growth
import FabricPaths.Proofs.Builder.Naming
import FabricPaths.Proofs.Builder.Pairing
import FabricPaths.Proofs.Builder.Repetition
import FabricPaths.Proofs.Extract.Figures
import FabricPaths.Proofs.Extract.Independence
import FabricPaths.Proofs.Extract.ListingOrder
import FabricPaths.Proofs.Extract.Observing
import FabricPaths.Proofs.Partition.Grouping
import FabricPaths.Proofs.Path.Merging
import FabricPaths.Proofs.Path.Replay
import FabricPaths.Proofs.Record.LineClasses
import FabricPaths.Proofs.Record.LinkLine
import FabricPaths.Proofs.Report.Accounting
import FabricPaths.Proofs.Routing.Attribution
import FabricPaths.Proofs.Viewer.Display
import FabricPaths.Proofs.Viewer.Pane
import FabricPaths.Proofs.Viewer.Verdict
import FabricPaths.Storage.Tree.Inventory
import FabricPaths.Workbench
