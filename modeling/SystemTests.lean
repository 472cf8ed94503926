import SystemTests.EasyWins.RoundTrip
import SystemTests.Manifest.NodeId
import SystemTests.Selection.ProcessManifests
import SystemTests.Foundation.Wait
import SystemTests.RemoteConfig.SendState
import SystemTests.EasyWins.ActivationStatus
import SystemTests.Foundation.Trie
import SystemTests.EasyWins.TestArtifact
import SystemTests.Foundation.Permutation
import SystemTests.EasyWins.OrderIndependence
import SystemTests.Orchestration.SplitJobs
import SystemTests.DockerFixtures.TestAgentPool
import SystemTests.Foundation.Run
import SystemTests.Interfaces.WaitFor
import SystemTests.Foundation.Json
import SystemTests.Interfaces.Ingestion
import SystemTests.RemoteConfig.SequentialCommands
import SystemTests.Foundation.Redaction
import SystemTests.Proxy.Scrubber
import SystemTests.Foundation.Base64
import SystemTests.Foundation.JsonDocument
import SystemTests.RemoteConfig.Tuf
import SystemTests.RemoteConfig.ConfigState
import SystemTests.Containers.Dependencies
import SystemTests.Containers.Startup
import SystemTests.Containers.StartupOutcome
import SystemTests.Gitlab.BuildPipeline
import SystemTests.Gitlab.JobNames
import SystemTests.Gitlab.Completeness
import SystemTests.Foundation.Md5
import SystemTests.Foundation.Naming
import SystemTests.SsiPipeline.UniquePrefix
import SystemTests.SsiPipeline.Exporter
import SystemTests.SsiPipeline.Tasks
import SystemTests.SsiPipeline.NoJobLost
import SystemTests.MockedBackend.FfeState
import SystemTests.Orchestration.TimeStatistics
import SystemTests.Orchestration.TimeFallbacks
import SystemTests.Manifest.WeblogPartition
import SystemTests.Manifest.DeclarationGrammar
import SystemTests.RemoteConfig.ApplyAtomic
import SystemTests.Proxy.TraceDecoders
import SystemTests.EasyWins.DeactivationFrontier
import SystemTests.EasyWins.CompressRules
import SystemTests.Foundation.NpmSyntax
import SystemTests.Foundation.RegexFind
import SystemTests.Manifest.AheadOfCurrent
import SystemTests.Foundation.Numeral
import SystemTests.Orchestration.FirstFit
import SystemTests.DdTypes.SpanLink
import SystemTests.Foundation.Descendants
import SystemTests.Interfaces.OpenTelemetry
import SystemTests.Interfaces.TelemetryReaders
import SystemTests.DockerFixtures.TelemetryEvents
import SystemTests.DockerFixtures.TelemetryMetrics
import SystemTests.Interfaces.ArrivalOrder
import SystemTests.Foundation.Memo
import SystemTests.RemoteConfig.Capabilities
import SystemTests.RemoteConfig.SdkConfiguration
import SystemTests.Debugger.ProbeDiagnostics
import SystemTests.Foundation.ByteStream
import SystemTests.MockedBackend.ReadBody
import SystemTests.VirtualMachine.CacheName
import SystemTests.VirtualMachine.Provisioning
import SystemTests.Gitlab.ExternalPipeline
import SystemTests.Foundation.Calendar
import SystemTests.Foundation.IsoFormat
import SystemTests.VirtualMachine.AmiCleanup
import SystemTests.BaseImages.ContentHash
import SystemTests.SetupProperties.Serialization
import SystemTests.SetupProperties.Replay
import SystemTests.BaseImages.CopyDependencies
import SystemTests.Manifest.YmlSort
import SystemTests.Foundation.FileTree
import SystemTests.VirtualMachine.RemoteCopy
import SystemTests.Fuzzer.Corpus
import SystemTests.Foundation.Draw
import SystemTests.Fuzzer.Payload
import SystemTests.Fuzzer.RequestMutator
import SystemTests.Fuzzer.MutatorRuns
import SystemTests.Foundation.RegexSub
import SystemTests.Foundation.SemverParts
import SystemTests.Manifest.PrintedVersion
import SystemTests.Foundation.Columns
import SystemTests.Proxy.MetricsV3
import SystemTests.Proxy.MetricsV3Blocks
import SystemTests.Proxy.MetricsV3RoundTrip
import SystemTests.Foundation.Simulation
import SystemTests.Foundation.StringTable
import SystemTests.Proxy.TraceV1
import SystemTests.Proxy.TraceV1Agreement
import SystemTests.Foundation.Accumulation
import SystemTests.Selection.GitlabPipeline
import SystemTests.Collection.Markers
import SystemTests.Collection.ModifyItems
import SystemTests.Foundation.Interleaving
import SystemTests.MockedBackend.Serving
import SystemTests.Correlation.LibraryInterface
import SystemTests.DockerFixtures.TraceContext
import SystemTests.Foundation.Interaction
import SystemTests.Github.Nightly
import SystemTests.Github.NightlyRuns
