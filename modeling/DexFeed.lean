import DexFeed.Log.Trace
import DexFeed.Session.History
import DexFeed.Text.Utf8.Lemmas
import DexFeed.Wire.Reader
import DexFeed.Wire.Cursor
import DexFeed.Proofs.Wire.Spelling
import DexFeed.Proofs.Merge.Offers
import DexFeed.Proofs.Merge.Reconcile
import DexFeed.Proofs.Log.Line
import DexFeed.Proofs.Log.Scan
import DexFeed.Proofs.Log.Printed
import DexFeed.Proofs.Log.TraceLines
import DexFeed.Proofs.Log.Forest
import DexFeed.Proofs.Merge.Restriction
import DexFeed.Proofs.Merge.Precedence
import DexFeed.Proofs.Merge.Repetition
import DexFeed.Proofs.Merge.Recognition
import DexFeed.Proofs.Payload.Owner
import DexFeed.Proofs.Pass.Restriction
import DexFeed.Proofs.Text.Positional
import DexFeed.Proofs.Text.Base58
import DexFeed.Queue.Backlog
import DexFeed.Proofs.Queue.Capacity
import DexFeed.Proofs.Queue.Ring
import DexFeed.Proofs.Queue.Fifo
import DexFeed.Proofs.Pass.EarlyStop
import DexFeed.Session.Ledger
import DexFeed.Proofs.Session.Delivery
import DexFeed.Proofs.Payload.Launch
import DexFeed.Proofs.Payload.Logged
import DexFeed.Proofs.Payload.Requested
import DexFeed.Proofs.Payload.Sides
import DexFeed.Proofs.Merge.Outcome
import DexFeed.Proofs.Pass.Provenance
import DexFeed.Proofs.Pass.Counting
import DexFeed.Proofs.Session.Handover
import DexFeed.Proofs.Session.Counters
import DexFeed.Proofs.Program
import DexFeed.Proofs.Text.Leniency
import DexFeed.Proofs.Log.Framing
import DexFeed.Proofs.Pass.Silence
import DexFeed.Proofs.Payload.Additions
import DexFeed.Proofs.Payload.Tagged
import DexFeed.Proofs.Payload.Snapshots
import DexFeed.Proofs.Payload.Arrival
import DexFeed.Proofs.Payload.Growth
import DexFeed.Proofs.Session.AccountUpdates
import DexFeed.Proofs.Payload.LongerAccounts
import DexFeed.Proofs.Text.Utf8
import DexFeed.Proofs.Wire.Reader
import DexFeed.Proofs.Wire.Cursor
import DexFeed.Proofs.Wire.Sequence
import DexFeed.Proofs.Payload.Texts
import DexFeed.Proofs.Pass.Texts
import DexFeed.Proofs.Latency.Summary
import DexFeed.Proofs.Text.Carry
import DexFeed.Proofs.Text.Padding
import DexFeed.Proofs.Queue.Doubling
