import OrderFlow.Binary64.Basic
import OrderFlow.Binary64.Text
import OrderFlow.Check.Basic
import OrderFlow.Check.Scalar
import OrderFlow.Check.Time
import OrderFlow.Chunk
import OrderFlow.Collector.Calls
import OrderFlow.Collector.Crew
import OrderFlow.Collector.Lock
import OrderFlow.Collector.Pass
import OrderFlow.Collector.Report
import OrderFlow.Collector.Tracker
import OrderFlow.CommandLine.Arguments
import OrderFlow.CommandLine.Run
import OrderFlow.Credential.Access
import OrderFlow.Credential.Basic
import OrderFlow.Credential.Provider
import OrderFlow.Decimal.Basic
import OrderFlow.Decimal.Text
import OrderFlow.Failure
import OrderFlow.Identifier
import OrderFlow.Keyed
import OrderFlow.Log
import OrderFlow.Log.Template
import OrderFlow.Order.Basic
import OrderFlow.Order.Book
import OrderFlow.Order.Document
import OrderFlow.Price.Basic
import OrderFlow.Price.Reading
import OrderFlow.Settings.Basic
import OrderFlow.Settings.EnvFile
import OrderFlow.Settings.Environment
import OrderFlow.Store.Address
import OrderFlow.Store.Cell
import OrderFlow.Store.Commit
import OrderFlow.Store.Daily
import OrderFlow.Store.Disk
import OrderFlow.Store.Snapshot
import OrderFlow.Store.Tables
import OrderFlow.Text.Blank
import OrderFlow.Text.Digit
import OrderFlow.Text.Integer
import OrderFlow.Text.Printable
import OrderFlow.Text.Quoted
import OrderFlow.Time.Calendar
import OrderFlow.Time.Instant
import OrderFlow.Time.Stamp
import OrderFlow.Trade.Basic
import OrderFlow.Trade.Estimate
import OrderFlow.Trade.Tally
import OrderFlow.Url
import OrderFlow.Value.Basic
import OrderFlow.Value.Obstacle
import OrderFlow.Value.Printer
import OrderFlow.Value.Reader
import OrderFlow.Venue.Connection
import OrderFlow.Venue.Pages
import OrderFlow.Venue.Pool
import OrderFlow.Venue.RateLimit
import OrderFlow.Venue.Traffic
import OrderFlow.Venue.Transport
import OrderFlow.Main
import OrderFlow.Proofs.Binary64.Bounds
import OrderFlow.Proofs.Check.Ends
import OrderFlow.Proofs.Collector.Bounds
import OrderFlow.Proofs.Collector.Conservation
import OrderFlow.Proofs.Collector.Crew
import OrderFlow.Proofs.Collector.FastPath
import OrderFlow.Proofs.Collector.Isolation
import OrderFlow.Proofs.Collector.Notification
import OrderFlow.Proofs.Collector.Recording
import OrderFlow.Proofs.Collector.Repeat
import OrderFlow.Proofs.Collector.Rows
import OrderFlow.Proofs.Collector.Run
import OrderFlow.Proofs.Collector.Serial
import OrderFlow.Proofs.Collector.Step
import OrderFlow.Proofs.Credential.Access
import OrderFlow.Proofs.Credential.Usable
import OrderFlow.Proofs.Decimal.Quotient
import OrderFlow.Proofs.Keyed
import OrderFlow.Proofs.Order.Alike
import OrderFlow.Proofs.Order.Book
import OrderFlow.Proofs.Order.Check
import OrderFlow.Proofs.Order.Document
import OrderFlow.Proofs.Order.Range
import OrderFlow.Proofs.Order.Volume
import OrderFlow.Proofs.Outcome
import OrderFlow.Proofs.Price.Basic
import OrderFlow.Proofs.Price.Limit
import OrderFlow.Proofs.Price.Text
import OrderFlow.Proofs.Store.Batches
import OrderFlow.Proofs.Store.Cell
import OrderFlow.Proofs.Store.Daily
import OrderFlow.Proofs.Store.Portion
import OrderFlow.Proofs.Store.Readback
import OrderFlow.Proofs.Store.Rejection
import OrderFlow.Proofs.Store.Skipping
import OrderFlow.Proofs.Store.Sums
import OrderFlow.Proofs.Store.Volume
import OrderFlow.Proofs.Text.Digits
import OrderFlow.Proofs.Time.Calendar
import OrderFlow.Proofs.Time.Stamp
import OrderFlow.Proofs.Trade.Agreement
import OrderFlow.Proofs.Trade.Balance
import OrderFlow.Proofs.Trade.ByIdentifier
import OrderFlow.Proofs.Trade.Estimate
import OrderFlow.Proofs.Trade.Judgement
import OrderFlow.Proofs.Trade.Rearranged
import OrderFlow.Proofs.Trade.Removal
import OrderFlow.Proofs.Trade.Rows
import OrderFlow.Proofs.Trade.Tally
import OrderFlow.Proofs.Trade.Totals
import OrderFlow.Proofs.Value.Document
import OrderFlow.Proofs.Value.Text
import OrderFlow.Proofs.Venue.Embedding
import OrderFlow.Proofs.Venue.Pages
import OrderFlow.Proofs.Venue.Pool
import OrderFlow.Proofs.Venue.Reply
import OrderFlow.Proofs.Venue.Requests
import OrderFlow.Proofs.Venue.Serial
import OrderFlow.Proofs.Venue.Shown
import OrderFlow.Proofs.Venue.Status
import OrderFlow.Proofs.Venue.Taxonomy
import OrderFlow.Proofs.Venue.Traffic
import OrderFlow.Proofs.Venue.Whole
import OrderFlow.Proofs.Trade.Window
import OrderFlow.Proofs.Settings.Usable
import OrderFlow.Proofs.Store.Summary
import OrderFlow.Proofs.Store.Accessors
import OrderFlow.Proofs.Store.Written
import OrderFlow.Proofs.Url
import OrderFlow.Proofs.Price.Rounding
import OrderFlow.Proofs.Price.Cents
import OrderFlow.Proofs.Store.Recorded
import OrderFlow.Proofs.Store.Ranking
import OrderFlow.Proofs.Collector.Ranked
import OrderFlow.Proofs.Venue.Target
