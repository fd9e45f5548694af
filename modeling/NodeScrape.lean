import NodeScrape.Batch.Basic
import NodeScrape.Batch.OfSummary
import NodeScrape.Binary64.Basic
import NodeScrape.Binary64.Boundary
import NodeScrape.Binary64.Decimal
import NodeScrape.CommandLine
import NodeScrape.Config.Basic
import NodeScrape.Config.Error
import NodeScrape.Config.Validate
import NodeScrape.Config.Yaml
import NodeScrape.Cycle.Attempt
import NodeScrape.Cycle.Basic
import NodeScrape.Cycle.Board
import NodeScrape.Cycle.Ledger
import NodeScrape.Cycle.Plan
import NodeScrape.Cycle.Scraper
import NodeScrape.Failure.Aggregate
import NodeScrape.Failure.Basic
import NodeScrape.Failure.Fetch
import NodeScrape.Files.IoError
import NodeScrape.Files.Path
import NodeScrape.Files.Tree
import NodeScrape.Instruments.Basic
import NodeScrape.Instruments.Exposition
import NodeScrape.Instruments.Histogram
import NodeScrape.Instruments.Series
import NodeScrape.Json.Data
import NodeScrape.Json.Number
import NodeScrape.Json.Parse
import NodeScrape.Json.Read
import NodeScrape.Json.Spelling
import NodeScrape.Json.Value
import NodeScrape.Kubelet.Client
import NodeScrape.Kubelet.Exchange
import NodeScrape.Kubelet.Reply
import NodeScrape.Kubelet.Url
import NodeScrape.Launch
import NodeScrape.Main
import NodeScrape.Net.Ip
import NodeScrape.Net.SocketAddress
import NodeScrape.Node.AddressChoice
import NodeScrape.Node.Basic
import NodeScrape.Node.Draft
import NodeScrape.Node.Json
import NodeScrape.Proofs.Batch.Points
import NodeScrape.Proofs.Binary64.Boundary
import NodeScrape.Proofs.Binary64.Integers
import NodeScrape.Proofs.Binary64.Order
import NodeScrape.Proofs.Binary64.Rounding
import NodeScrape.Proofs.Config.Validation
import NodeScrape.Proofs.Cycle.Account
import NodeScrape.Proofs.Cycle.Calls
import NodeScrape.Proofs.Cycle.Cause
import NodeScrape.Proofs.Cycle.Clock
import NodeScrape.Proofs.Cycle.Closing
import NodeScrape.Proofs.Cycle.Conservation
import NodeScrape.Proofs.Cycle.Grace
import NodeScrape.Proofs.Cycle.Reach
import NodeScrape.Proofs.Cycle.Reference
import NodeScrape.Proofs.Cycle.Register
import NodeScrape.Proofs.Cycle.Replay
import NodeScrape.Proofs.Cycle.Return
import NodeScrape.Proofs.Cycle.Scrape
import NodeScrape.Proofs.Cycle.Seal
import NodeScrape.Proofs.Cycle.Step
import NodeScrape.Proofs.Cycle.Tally
import NodeScrape.Proofs.Cycle.Totals
import NodeScrape.Proofs.Cycle.Writes
import NodeScrape.Proofs.Failure.Collector
import NodeScrape.Proofs.Instruments.Buckets
import NodeScrape.Proofs.Instruments.Faithful
import NodeScrape.Proofs.Instruments.History
import NodeScrape.Proofs.Instruments.Reader
import NodeScrape.Proofs.Instruments.Rendering
import NodeScrape.Proofs.Json.Grammar
import NodeScrape.Proofs.Json.Layout
import NodeScrape.Proofs.Json.Members
import NodeScrape.Proofs.Json.Number
import NodeScrape.Proofs.Json.Phrase
import NodeScrape.Proofs.Json.Recognition
import NodeScrape.Proofs.Json.Spelling
import NodeScrape.Proofs.Json.Tokens
import NodeScrape.Proofs.Json.Written
import NodeScrape.Proofs.Kubelet.Address
import NodeScrape.Proofs.Kubelet.Classification
import NodeScrape.Proofs.Kubelet.Exchange
import NodeScrape.Proofs.List.Places
import NodeScrape.Proofs.Net.Ipv6
import NodeScrape.Proofs.Node.Preference
import NodeScrape.Proofs.Schema.Items
import NodeScrape.Proofs.Scope.Agreement
import NodeScrape.Proofs.Scope.Ancestry
import NodeScrape.Proofs.Scope.Outcome
import NodeScrape.Proofs.Scope.Race
import NodeScrape.Proofs.Service.Grid
import NodeScrape.Proofs.Service.Published
import NodeScrape.Proofs.Service.Shutdown
import NodeScrape.Proofs.Service.Start
import NodeScrape.Proofs.Summary.Isolation
import NodeScrape.Proofs.Summary.RoundTrip
import NodeScrape.Proofs.Summary.Tolerance
import NodeScrape.Proofs.Text.Digits
import NodeScrape.Proofs.Text.Numerals
import NodeScrape.Proofs.Time.Rfc3339
import NodeScrape.Proofs.Time.UnixSeconds
import NodeScrape.Proofs.Yaml.Number
import NodeScrape.Schema.Mismatch
import NodeScrape.Scope.Forest
import NodeScrape.Scope.Race
import NodeScrape.Scope.Reason
import NodeScrape.Scope.Timeline
import NodeScrape.Service.Background
import NodeScrape.Service.Basic
import NodeScrape.Service.Loop
import NodeScrape.Service.Response
import NodeScrape.Service.Wire
import NodeScrape.Status
import NodeScrape.Summary.Basic
import NodeScrape.Summary.Json
import NodeScrape.Text.Blank
import NodeScrape.Text.Case
import NodeScrape.Text.Quoted
import NodeScrape.Text.Scan
import NodeScrape.Text.SnakeCase
import NodeScrape.Text.Visible
import NodeScrape.Time.Duration
import NodeScrape.Time.Rfc3339
import NodeScrape.Time.Timer
import NodeScrape.Time.Timestamp
import NodeScrape.Time.WallClock
import NodeScrape.Yaml.Cursor
import NodeScrape.Yaml.Node
import NodeScrape.Yaml.Plain
import NodeScrape.Yaml.Read
import NodeScrape.Yaml.ScalarText
import NodeScrape.Yaml.Token
