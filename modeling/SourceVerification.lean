import SourceVerification.Compile.ReadOnly
import SourceVerification.Compile.Verifier
import SourceVerification.Compile.Verification
import SourceVerification.Registry.CleanupPlayground
import SourceVerification.Registry.Recording
import SourceVerification.Registry.Integrity
import SourceVerification.Registry.WithoutExpired
import SourceVerification.Registry.Ledger
import SourceVerification.Registry.VerifyRoutes
import SourceVerification.Concurrent.Calls
import SourceVerification.Shared.Runs
import SourceVerification.Shared.CodeUnits
import SourceVerification.Shared.Strings
import SourceVerification.Shared.Numbers
import SourceVerification.Shared.Bits
import SourceVerification.FetchWhileBusy
import SourceVerification.Registry.MaspStore
import SourceVerification.Compile.ResourceFile
import SourceVerification.Shared.Paths
import SourceVerification.Shared.FileTree
import SourceVerification.Concurrent.Machine
import SourceVerification.Concurrent.Artifacts
import SourceVerification.Concurrent.Records
import SourceVerification.Concurrent.Indexes
import SourceVerification.Concurrent.Components
import SourceVerification.Concurrent.Cascade
import SourceVerification.Concurrent.Endings
import SourceVerification.Concurrent.Downloads
import SourceVerification.Concurrent.SequentialVerify
import SourceVerification.Concurrent.WholeVerify
import SourceVerification.Concurrent.SequentialCleanup
import SourceVerification.Compile.Limiter
import SourceVerification.Registry.Migration
import SourceVerification.StatusPage.Notify
import SourceVerification.OpenProject
import SourceVerification.InferEntrypoint
import SourceVerification.Compile.ProjectCopy
import SourceVerification.Compile.BuildProject
import SourceVerification.Registry.Reopening
import SourceVerification.Compile.AccountComponents
import SourceVerification.Compile.PackageMetadata
import SourceVerification.Compile.BuildDebug
import SourceVerification.Compile.CargoLock
import SourceVerification.Compile.Requests
import SourceVerification.Compile.QueueCompile
import SourceVerification.Viewer.VerificationStatus
import SourceVerification.Compile.ImportRoute
import SourceVerification.Registry.LookupById
import SourceVerification.Viewer.EntryFile
import SourceVerification.Viewer.ResourcePage
import SourceVerification.Concurrent.DebugBuilds
import SourceVerification.Concurrent.SequentialDebugBuild
import SourceVerification.Shared.Bech32m
import SourceVerification.ResourceId
import SourceVerification.ResourceForms
import SourceVerification.Registry.ImportUrl
import SourceVerification.Compile.TypeLayers
import SourceVerification.Compile.TypeWriter
import SourceVerification.Compile.TypeReader
import SourceVerification.Compile.ProtocolAccess
import SourceVerification.StatusPage.Reminders
import SourceVerification.Viewer.SourceTree
import SourceVerification.Shared.Scanning
import SourceVerification.Viewer.MaskSource
import SourceVerification.Viewer.RustSource
import SourceVerification.Viewer.Declaration
import SourceVerification.ImportSources
import SourceVerification.Shared.Regexes
import SourceVerification.Viewer.FindFunction
import SourceVerification.Compile.ReadOnlyProcedures
import SourceVerification.Shared.StableSort
import SourceVerification.Viewer.PackageProcedures
import SourceVerification.Backfill
import SourceVerification.Shared.UrlComponents
import SourceVerification.Viewer.ResourceUrls
import SourceVerification.Registry.Imported
import SourceVerification.StatusPage.History
import SourceVerification.VerifyForm
import SourceVerification.Compile.CargoMidenVersion
import SourceVerification.StatusPage.Probe
import SourceVerification.Compile.Draining
