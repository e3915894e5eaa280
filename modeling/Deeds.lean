import Deeds.Binary32.Arithmetic
import Deeds.Binary32.Decimal
import Deeds.Bus
import Deeds.Cast
import Deeds.Catalog
import Deeds.Chance.Dice
import Deeds.Clock
import Deeds.Failure
import Deeds.Identity
import Deeds.Line.Read
import Deeds.Main
import Deeds.Session.Request
import Deeds.Simulator.Run
import Deeds.TagSet
import Deeds.Treasury
import Deeds.Verification
import Deeds.Proofs.Chain
import Deeds.Proofs.Engine.Change
import Deeds.Proofs.Engine.Sound
import Deeds.Proofs.Engine.Transition
import Deeds.Proofs.Engine.Origin
import Deeds.Proofs.Engine.Step
import Deeds.Proofs.Engine.Pending
import Deeds.Proofs.Engine.Hours
import Deeds.Proofs.System.History
import Deeds.Proofs.System.Inputs
import Deeds.Proofs.Account
import Deeds.Proofs.Accuracy
import Deeds.Proofs.Applications
import Deeds.Proofs.Rejections
import Deeds.Proofs.Slots
import Deeds.Proofs.Stop
import Deeds.Proofs.Suspensions
import Deeds.Proofs.Course
import Deeds.Proofs.System.Checks
import Deeds.Proofs.Payments
import Deeds.Proofs.Locality
import Deeds.Proofs.Answers
import Deeds.Proofs.Tracking
import Deeds.Proofs.Ledger
import Deeds.Proofs.System.Marks
import Deeds.Proofs.Vetting
import Deeds.Proofs.Line.Lexicon
import Deeds.Proofs.Line.Grammar
import Deeds.Proofs.Line.Errors
import Deeds.Proofs.Line.Spacing
import Deeds.Proofs.Deltas
import Deeds.Proofs.Validation
import Deeds.Proofs.System.Reader
import Deeds.Proofs.Ticks
import Deeds.Proofs.Engine.Edit
import Deeds.Proofs.Chances
import Deeds.Proofs.Commutation
import Deeds.Proofs.Registration
import Deeds.Proofs.Folders
import Deeds.Proofs.Ron.Spelling
import Deeds.Proofs.Ron.Numerals
import Deeds.Proofs.Ron.Writing
import Deeds.Proofs.Records
import Deeds.Proofs.TagSets
import Deeds.Proofs.Rounding
import Deeds.Proofs.Progression
import Deeds.Proofs.Completion
import Deeds.Proofs.Duration
import Deeds.Proofs.Session.Open
import Deeds.Proofs.Verification
import Deeds.Proofs.Pass
import Deeds.Proofs.System.Consultation
import Deeds.Proofs.Cancellation
import Deeds.Proofs.Session.Calm
import Deeds.Proofs.Session.Calls
import Deeds.Proofs.Session.Hours
import Deeds.Proofs.Lifetime
import Deeds.Proofs.Simulation
import Deeds.Proofs.Scripts
import Deeds.Proofs.Topics
