import Casefile.Cancellation
import Casefile.Cli.Invocation
import Casefile.FileTree.Growth
import Casefile.Json.Coding
import Casefile.Machine
import Casefile.Main
import Casefile.Registry
import Casefile.Scan.Catalogue
import Casefile.Store.Memory
import Casefile.Store.Relational
import Casefile.Store.Session
import Casefile.Tables.Edit
import Casefile.Text.Columns
import Casefile.Workbench
import Casefile.Proofs.Tables.Rows
import Casefile.Proofs.Tables.WellFormed
import Casefile.Proofs.Store.Draft
import Casefile.Proofs.Store.History
import Casefile.Proofs.Store.Serial
import Casefile.Proofs.Ingest.Mirror
import Casefile.Proofs.Ingest.AllOrNothing
import Casefile.Proofs.Store.Shared
import Casefile.Proofs.NameMap
import Casefile.Proofs.Store.Names
import Casefile.Proofs.Tables.Listing
import Casefile.Proofs.Scan.Walk
import Casefile.Proofs.Ingest.Tree
import Casefile.Proofs.Ingest.Announcements
import Casefile.Proofs.Ingest.Cancellation
import Casefile.Proofs.Panel
import Casefile.Proofs.Cli.AddLocalFiles
import Casefile.Proofs.Double
import Casefile.Proofs.Path
import Casefile.Proofs.FileTree.WellFormed
import Casefile.Proofs.FileTree.Outline
import Casefile.Proofs.FileTree.Alike
import Casefile.Proofs.FileTree.Walker
import Casefile.Proofs.Scan.Collection
import Casefile.Proofs.Scan.Placed
import Casefile.Proofs.Scan.Complete
import Casefile.Proofs.Scan.Links
import Casefile.Proofs.Processor
import Casefile.Proofs.Workbench
import Casefile.Proofs.Store.Busy
import Casefile.Proofs.Tables.Opening
import Casefile.Proofs.Store.Transactions
import Casefile.Proofs.Store.Simulation
import Casefile.Proofs.Store.Gains
import Casefile.Proofs.Machine
import Casefile.Proofs.Cli.Execute
import Casefile.Proofs.Cli.Invocations
import Casefile.Proofs.Loading
import Casefile.Proofs.Tables.Migration
import Casefile.Proofs.Store.DefaultNames
import Casefile.Proofs.Tables.Damage
import Casefile.Proofs.ShortName
import Casefile.Proofs.Panel.Paths
import Casefile.Proofs.Store.Watched
import Casefile.Proofs.Ingest.Phases
import Casefile.Proofs.Lossy
import Casefile.Proofs.Ingest.StoredPaths
import Casefile.Proofs.Registry
import Casefile.Proofs.Path.Spelling
import Casefile.Proofs.Scan.Catalogue
import Casefile.Proofs.Store.Isolation
import Casefile.Proofs.Json
