import SaveLint.CommandLine.Run
import SaveLint.Machine.Programs
import SaveLint.Main
import SaveLint.Proofs.Linter.Calls
import SaveLint.Proofs.Linter.Steps
import SaveLint.Proofs.Linter.Deliveries
import SaveLint.Proofs.Linter.InFlight
import SaveLint.Proofs.Linter.Applied
import SaveLint.Proofs.Linter.Consumption
import SaveLint.Proofs.Report.Grammar
import SaveLint.Proofs.Report.RoundTrip
import SaveLint.Proofs.Terminal.Listing
import SaveLint.Proofs.Report.WellFormed
import SaveLint.Proofs.Machine.Writing
import SaveLint.Proofs.Text.Encodings
import SaveLint.Proofs.Text.Lossy
import SaveLint.Proofs.Analyzer.Forwarding
import SaveLint.Proofs.Number.Rounding
import SaveLint.Proofs.Llm.Backoff
import SaveLint.Proofs.Llm.Delays
import SaveLint.Proofs.Llm.Chat
import SaveLint.Proofs.Path.Order
import SaveLint.Proofs.Store.Snapshot
import SaveLint.Proofs.Linter.Draining
import SaveLint.Proofs.Session.Shown
import SaveLint.Proofs.Session.Fixing
import SaveLint.Proofs.Linter.Runs
import SaveLint.Proofs.Store.Completions
import SaveLint.Proofs.Terminal.Calls
import SaveLint.Proofs.Commands.Check
import SaveLint.Proofs.Commands.Scheduling
import SaveLint.Proofs.Commands.Fix
import SaveLint.Proofs.Linter.WellFormed
import SaveLint.Proofs.Settings.Expansion
import SaveLint.Proofs.Toml.Names
import SaveLint.Proofs.Settings.Sections
import SaveLint.Proofs.Store.Replacements
import SaveLint.Proofs.Commands.Watching
import SaveLint.Proofs.Report.Trimming
import SaveLint.Proofs.Report.Messages
import SaveLint.Proofs.Llm.NamedDelays
import SaveLint.Proofs.Llm.Refusal
import SaveLint.Proofs.Llm.Reply
import SaveLint.Proofs.Settings.Connection
import SaveLint.Proofs.Text.Cut
import SaveLint.Proofs.Commands.Claimed
import SaveLint.Proofs.Commands.Changes
