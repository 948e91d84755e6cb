import FleetCache.Agents.Agent
import FleetCache.Agents.Builder
import FleetCache.Agents.Clusters
import FleetCache.Agents.Images
import FleetCache.Agents.InstanceTypes
import FleetCache.Agents.Instances
import FleetCache.Agents.LoadBalancers
import FleetCache.Api.Reference
import FleetCache.Api.Refusal
import FleetCache.Api.Route
import FleetCache.Api.Service
import FleetCache.Api.Target
import FleetCache.Cache.AnyStore
import FleetCache.Cache.Dump
import FleetCache.Cache.Graph
import FleetCache.Cache.Memory
import FleetCache.Cache.Report
import FleetCache.Cache.Store
import FleetCache.Change
import FleetCache.CommandLine.Arguments
import FleetCache.CommandLine.Run
import FleetCache.Entity
import FleetCache.Fault
import FleetCache.Glob
import FleetCache.Json.Layout
import FleetCache.Json.Parse
import FleetCache.Json.Render
import FleetCache.Key
import FleetCache.Key.Escape
import FleetCache.Key.Namespace
import FleetCache.Main
import FleetCache.Metrics
import FleetCache.Naming
import FleetCache.Number.Binary64
import FleetCache.Number.Decimal
import FleetCache.Provider.Cloud
import FleetCache.Provider.Fetcher
import FleetCache.Provider.Identity
import FleetCache.Provider.Listing
import FleetCache.Provider.Recorded
import FleetCache.Provider.Records
import FleetCache.Provider.Replies
import FleetCache.Refresh.Cycle
import FleetCache.Refresh.Wait
import FleetCache.Schema.Check
import FleetCache.Schema.Resources
import FleetCache.Settings
import FleetCache.Settings.DotEnv
import FleetCache.Settings.Whole
import FleetCache.Text.Blank
import FleetCache.Text.Capital
import FleetCache.Text.Digit
import FleetCache.Text.Integer
import FleetCache.Text.Printable
import FleetCache.Text.Quoted
import FleetCache.Text.Split
import FleetCache.Text.Utf8
import FleetCache.Time.Calendar
import FleetCache.Time.Iso
import FleetCache.Time.Moment
import FleetCache.Time.Stamp
import FleetCache.Traced
import FleetCache.Value
import FleetCache.Value.Access
import FleetCache.Value.Display
import FleetCache.Value.Scalar
import FleetCache.Value.Table
import FleetCache.Views.Assemble
import FleetCache.Views.Clusters
import FleetCache.Views.Images
import FleetCache.Views.LoadBalancers
import FleetCache.Views.Model
import FleetCache.Text.Replace
import FleetCache.Proofs.KeyRoundTrip
import FleetCache.Proofs.PartitionWrites
import FleetCache.Proofs.EdgeSets
import FleetCache.Proofs.Histories
import FleetCache.Proofs.CurrentReports
import FleetCache.Proofs.AttributeMerges
import FleetCache.Proofs.JsonNumbers
import FleetCache.Proofs.JsonStrings
import FleetCache.Proofs.RefreshConvergence
import FleetCache.Proofs.Sorting
import FleetCache.Proofs.NumberForms
import FleetCache.Proofs.JsonRoundTrip
import FleetCache.Proofs.JsonOrder
import FleetCache.Proofs.TextNames
import FleetCache.Proofs.ContributionTexts
import FleetCache.Proofs.GraphNodes
import FleetCache.Proofs.GraphWrites
import FleetCache.Proofs.GraphReads
import FleetCache.Proofs.StoreEquivalence
import FleetCache.Proofs.AttributeHistories
import FleetCache.Proofs.ReportWrites
import FleetCache.Proofs.CycleOutcomes
import FleetCache.Proofs.CycleStatuses
import FleetCache.Proofs.RunWaits
import FleetCache.Proofs.GroupReports
import FleetCache.Proofs.GroupStandings
import FleetCache.Proofs.CycleTimes
import FleetCache.Proofs.DroppedGroups
import FleetCache.Proofs.OwnerValues
import FleetCache.Proofs.CollectedEntities
import FleetCache.Proofs.ReportGraphs
import FleetCache.Proofs.ClusterReports
import FleetCache.Proofs.AgentGraphs
import FleetCache.Proofs.GroupDescriptions
import FleetCache.Proofs.SchemaChecks
import FleetCache.Proofs.FetchedGroups
import FleetCache.Proofs.ListedGroups
import FleetCache.Proofs.GroupViews
import FleetCache.Proofs.ServedGroups
import FleetCache.Proofs.SearchPatterns
import FleetCache.Proofs.WrittenEntities
import FleetCache.Proofs.ClusterHistories
import FleetCache.Proofs.KeyListings
import FleetCache.Proofs.ViewReads
import FleetCache.Proofs.ClusterListings
import FleetCache.Proofs.DanglingEdges
import FleetCache.Proofs.BalancedGroups
import FleetCache.Proofs.RecordLines
import FleetCache.Proofs.DumpRoundTrip
import FleetCache.Proofs.AccountKeys
import FleetCache.Proofs.AccountReports
import FleetCache.Proofs.AccountStores
import FleetCache.Proofs.AccountViews
import FleetCache.Proofs.GraphReports
import FleetCache.Proofs.AccountIsolation
import FleetCache.Proofs.GroupOutcomes
import FleetCache.Proofs.ListingOrders
import FleetCache.Proofs.ReportFrames
import FleetCache.Proofs.PushNames
import FleetCache.Proofs.GroupParents
import FleetCache.Proofs.LaunchConfigs
import FleetCache.Proofs.SourceIndexes
import FleetCache.Proofs.SourceReplacements
import FleetCache.Proofs.Interleavings
import FleetCache.Proofs.ConcurrentWriters
import FleetCache.Proofs.MissingFields
import FleetCache.Proofs.KeylessRecords
import FleetCache.Proofs.KeylessGroups
import FleetCache.Proofs.GlobMatches
import FleetCache.Proofs.JoinedPatterns
import FleetCache.Proofs.FieldSearches
import FleetCache.Proofs.UnkeyedBalancers
import FleetCache.Proofs.KeySpellings
import FleetCache.Proofs.KeyedSearches
import FleetCache.Proofs.ApplicationBalancers
import FleetCache.Proofs.NamingConvention
import FleetCache.Proofs.GatheredReports
import FleetCache.Proofs.InstanceLookups
import FleetCache.Proofs.PagedListings
import FleetCache.Proofs.BrokenListings
import FleetCache.Proofs.CalendarDays
import FleetCache.Proofs.StampReadings
import FleetCache.Proofs.StampOrders
import FleetCache.Proofs.StampedMinutes
import FleetCache.Proofs.SpacedRecords
