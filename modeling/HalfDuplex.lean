import HalfDuplex.Bus.Check
import HalfDuplex.Bus.Journal
import HalfDuplex.Config.Document
import HalfDuplex.Config.Environment
import HalfDuplex.Gate.Scene
import HalfDuplex.Handle
import HalfDuplex.Main
import HalfDuplex.Simulation
import HalfDuplex.Proofs.Move
import HalfDuplex.Proofs.Field
import HalfDuplex.Proofs.Legal
import HalfDuplex.Proofs.Tickets
import HalfDuplex.Proofs.Slots
import HalfDuplex.Proofs.Rest
import HalfDuplex.Proofs.Consistent
import HalfDuplex.Proofs.Overtaking
import HalfDuplex.Proofs.Cycle
import HalfDuplex.Proofs.Exclusion
import HalfDuplex.Proofs.Life
import HalfDuplex.Proofs.FreeSlot
import HalfDuplex.Proofs.Grants
import HalfDuplex.Proofs.OldestFirst
import HalfDuplex.Proofs.Balance
import HalfDuplex.Proofs.Delivery
import HalfDuplex.Proofs.Drain
import HalfDuplex.Proofs.Parking
import HalfDuplex.Proofs.Crowd
import HalfDuplex.Proofs.Clients
import HalfDuplex.Proofs.Mirror
import HalfDuplex.Proofs.Yielding
import HalfDuplex.Proofs.Abandonment
import HalfDuplex.Proofs.Tally
import HalfDuplex.Proofs.Tasks
import HalfDuplex.Proofs.Members
import HalfDuplex.Proofs.BatchRun
import HalfDuplex.Proofs.Indifference
import HalfDuplex.Proofs.Accounting
import HalfDuplex.Proofs.Guarded
import HalfDuplex.Proofs.Streak
import HalfDuplex.Proofs.Alternation
import HalfDuplex.Proofs.WordRange
import HalfDuplex.Proofs.Framing
import HalfDuplex.Proofs.Header
import HalfDuplex.Proofs.Succession
import HalfDuplex.Proofs.Acceptance
import HalfDuplex.Proofs.Session
import HalfDuplex.Proofs.Scanning
import HalfDuplex.Proofs.Parsing
import HalfDuplex.Proofs.Documents
import HalfDuplex.Proofs.Withdrawal
import HalfDuplex.Proofs.Expiry
import HalfDuplex.Proofs.Refusal
import HalfDuplex.Proofs.SingleFile
import HalfDuplex.Proofs.Verdict
import HalfDuplex.Proofs.Flaws
import HalfDuplex.Proofs.Reading
import HalfDuplex.Proofs.Overrides
import HalfDuplex.Proofs.Grammar
import HalfDuplex.Proofs.Drafts
import HalfDuplex.Proofs.Layers
