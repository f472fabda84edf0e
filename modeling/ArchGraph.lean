import ArchGraph.Adjacency
import ArchGraph.Analysis
import ArchGraph.Binding
import ArchGraph.CallGraph
import ArchGraph.CallGraph.Registry
import ArchGraph.Cycle
import ArchGraph.Diff
import ArchGraph.Diff.Compare
import ArchGraph.Diff.Document
import ArchGraph.Fact
import ArchGraph.Fact.Document
import ArchGraph.Failure
import ArchGraph.Graph
import ArchGraph.Graph.Document
import ArchGraph.Graph.Export
import ArchGraph.Graph.Stats
import ArchGraph.Graph.Topics
import ArchGraph.Health
import ArchGraph.Http
import ArchGraph.Http.Address
import ArchGraph.Http.Request
import ArchGraph.Identifier
import ArchGraph.Identifier.Parameter
import ArchGraph.Identifier.Path
import ArchGraph.Index
import ArchGraph.Json.Display
import ArchGraph.Json.Reader
import ArchGraph.Json.Value
import ArchGraph.Json.Writer
import ArchGraph.Log
import ArchGraph.Log.Format
import ArchGraph.Log.Place
import ArchGraph.Matching
import ArchGraph.Node
import ArchGraph.Node.Document
import ArchGraph.Number.Binary64
import ArchGraph.Number.Rounded
import ArchGraph.Number.Shortest
import ArchGraph.Proofs.Conservation
import ArchGraph.Proofs.Determinism
import ArchGraph.Proofs.Registration
import ArchGraph.Proofs.Rotation
import ArchGraph.Proofs.Sorting
import ArchGraph.Proofs.Table
import ArchGraph.Resolution
import ArchGraph.Route.Pattern
import ArchGraph.Route.Score
import ArchGraph.Run
import ArchGraph.Run.Document
import ArchGraph.Schema.Decoder
import ArchGraph.Schema.Fault
import ArchGraph.Sequence
import ArchGraph.Service
import ArchGraph.Settings
import ArchGraph.Store
import ArchGraph.Sweep
import ArchGraph.Table
import ArchGraph.Text
import ArchGraph.Text.Blank
import ArchGraph.Text.Case
import ArchGraph.Text.CaseTable
import ArchGraph.Text.Digit
import ArchGraph.Text.Hidden
import ArchGraph.Text.Scan
import ArchGraph.Timestamp
import ArchGraph.Topic
import ArchGraph.Url
import ArchGraph.Proofs.Search
import ArchGraph.Proofs.Acyclicity
import ArchGraph.Proofs.Detection
import ArchGraph.Proofs.NewCycles
import ArchGraph.Proofs.Fallible
import ArchGraph.Proofs.Multigraph
import ArchGraph.Proofs.DiffExactness
import ArchGraph.Proofs.Differences
import ArchGraph.Proofs.Detour
import ArchGraph.Proofs.MissedCycles
import ArchGraph.Proofs.NameOffers
import ArchGraph.Proofs.FirstWriter
import ArchGraph.Proofs.SelfCalls
import ArchGraph.Proofs.InjectedFields
import ArchGraph.Proofs.Integrity
import ArchGraph.Proofs.ExportFidelity
import ArchGraph.Proofs.Placement
import ArchGraph.Proofs.Regularity
import ArchGraph.Proofs.MovedCode
import ArchGraph.Proofs.CandidateRuns
import ArchGraph.Proofs.Lifecycles
import ArchGraph.Proofs.StoredGraphs
import ArchGraph.Proofs.MethodKeys
import ArchGraph.Proofs.ReportedCycles
import ArchGraph.Proofs.CrossingCycles
import ArchGraph.Proofs.Isolation
import ArchGraph.Proofs.TopicLinks
import ArchGraph.Proofs.TopicReport
import ArchGraph.Proofs.OutboundCalls
import ArchGraph.Proofs.TopicSources
import ArchGraph.Proofs.CallTargets
import ArchGraph.Proofs.BestMatch
import ArchGraph.Proofs.ExactMatch
import ArchGraph.Proofs.AddressQueries
import ArchGraph.Proofs.Instants
import ArchGraph.Proofs.EndedRuns
import ArchGraph.Proofs.Sweeps
import ArchGraph.Proofs.TypeNames
import ArchGraph.Proofs.Overloads
import ArchGraph.Proofs.InterfaceMap
import ArchGraph.Proofs.SettledBinding
import ArchGraph.Proofs.MaximalBinding
import ArchGraph.Proofs.ListedImplementations
import ArchGraph.Proofs.Scanning
import ArchGraph.Proofs.RoutePatterns
import ArchGraph.Proofs.ComparablePaths
import ArchGraph.Proofs.SegmentScores
import ArchGraph.Proofs.MatchingRounds
import ArchGraph.Proofs.WalkLimit
import ArchGraph.Proofs.EndpointPaths
import ArchGraph.Proofs.DeclaredParameters
