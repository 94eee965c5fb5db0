import Latch.CommandLine.Grammar
import Latch.CommandLine.Invocation
import Latch.CommandLine.Run
import Latch.CommandLine.Words
import Latch.Config.Basic
import Latch.Config.Editor
import Latch.Config.File
import Latch.Config.Written
import Latch.Double
import Latch.Error
import Latch.Json.Lexeme
import Latch.Json.Record
import Latch.Json.Skip
import Latch.Json.Typed
import Latch.Json.Value
import Latch.Key
import Latch.Lock
import Latch.Machine.Basic
import Latch.Machine.Environment
import Latch.Machine.Files
import Latch.Machine.Libraries
import Latch.Machine.Path
import Latch.Machine.VariableFile
import Latch.Main
import Latch.Manager
import Latch.Program
import Latch.Proofs.Lock.Expiry
import Latch.Proofs.Lock.LazyExpiry
import Latch.Proofs.Lock.LockCall
import Latch.Proofs.Lock.LockInForce
import Latch.Proofs.Lock.LongestLock
import Latch.Proofs.Lock.LostLock
import Latch.Proofs.Lock.RacingLocks
import Latch.Proofs.Lock.StatusView
import Latch.Proofs.Manager.Actions
import Latch.Proofs.Manager.Answers
import Latch.Proofs.Manager.Serial
import Latch.Proofs.Manager.Statements
import Latch.Proofs.Properties.ConcurrentMerges
import Latch.Proofs.Properties.FailedMerge
import Latch.Proofs.Properties.MergeStatements
import Latch.Proofs.Properties.Overlay
import Latch.Proofs.Run.Interleaving
import Latch.Proofs.Run.Trace
import Latch.Proofs.Store.LockRows
import Latch.Proofs.Store.PropertyRows
import Latch.Proofs.Store.Ready
import Latch.Properties
import Latch.Records
import Latch.Session.Basic
import Latch.Session.Dump
import Latch.Session.Interference
import Latch.Session.Step
import Latch.Store.Basic
import Latch.Store.FileName
import Latch.Store.Migration
import Latch.Store.Opening
import Latch.Store.Snapshot
import Latch.Store.Table
import Latch.Text.Alphanumeric
import Latch.Text.Blank
import Latch.Text.ByteOrder
import Latch.Text.Decimal
import Latch.Text.Hex
import Latch.Text.Word
import Latch.Time.Calendar
import Latch.Time.Millis
import Latch.Toml.Document
import Latch.Toml.Line
import Latch.Toml.Moment
import Latch.Toml.Number
import Latch.Toml.Quoted
import Latch.Toml.Text
import Latch.Toml.Value
import Latch.Proofs.Store.Maps
import Latch.Proofs.Session.Independence
import Latch.Proofs.Store.Layout
import Latch.Proofs.Store.Migrations
import Latch.Proofs.Toml.Line
import Latch.Proofs.Config.Written
import Latch.Proofs.Machine.Files
import Latch.Proofs.Config.SavedSettings
import Latch.Proofs.Properties.MergeLaw
import Latch.Proofs.Session.Switch
import Latch.Proofs.Manager.Failures
import Latch.Proofs.Machine.VariableFile
import Latch.Proofs.Config.Overrides
import Latch.Proofs.Lock.LockThenStatus
import Latch.Proofs.Properties.CollidingAdd
import Latch.Proofs.Text.Decimal
import Latch.Proofs.Config.Validity
import Latch.Proofs.Store.Current
import Latch.Proofs.CommandLine.Meaning
import Latch.Proofs.Machine.Databases
import Latch.Proofs.CommandLine.OneSession
import Latch.Proofs.Properties.EntryOrder
import Latch.Proofs.Text.Blank
import Latch.Proofs.Config.SettingText
import Latch.Proofs.Config.SetTexts
import Latch.Proofs.Json.Spaces
import Latch.Proofs.Json.Strings
import Latch.Proofs.Json.Numbers
import Latch.Proofs.Json.Values
import Latch.Proofs.Json.Typed
import Latch.Proofs.Json.Members
import Latch.Proofs.Json.Records
import Latch.Proofs.Json.RoundTrip
import Latch.Proofs.Time.Calendar
import Latch.Proofs.Time.DateText
import Latch.Proofs.Lock.UnlockText
