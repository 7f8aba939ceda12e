import Funge93.Main
import Funge93.Viewer.Window
import Funge93.Proofs.Arithmetic
import Funge93.Proofs.Calls
import Funge93.Proofs.Ideal
import Funge93.Proofs.Onlooker
import Funge93.Proofs.Refinement
import Funge93.Proofs.Attempt
import Funge93.Proofs.Lines
import Funge93.Proofs.Reference
import Funge93.Proofs.Limit
import Funge93.Proofs.FullSink
import Funge93.Proofs.Reachable
import Funge93.Proofs.Interruption
import Funge93.Proofs.Feeding
import Funge93.Proofs.Exchanges
import Funge93.Proofs.Following
import Funge93.Proofs.Pacing
import Funge93.Proofs.SessionCalls
import Funge93.Proofs.Flags
import Funge93.Proofs.Stillness
import Funge93.Proofs.Chronicle
import Funge93.Proofs.Listing
import Funge93.Proofs.RandomTurns
import Funge93.Proofs.Strings
import Funge93.Proofs.Handling
import Funge93.Proofs.Stopping
import Funge93.Proofs.Typing
import Funge93.Proofs.Cutting
import Funge93.Proofs.Pressing
import Funge93.Proofs.Restarting
import Funge93.Proofs.Spending
import Funge93.Proofs.Numerals
import Funge93.Proofs.Division
import Funge93.Proofs.StatusLine
import Funge93.Proofs.Picture
import Funge93.Proofs.Depth
import Funge93.Proofs.Buried
import Funge93.Proofs.Shifting
import Funge93.Proofs.Unreadable
import Funge93.Proofs.Storage
import Funge93.Proofs.Rereading
import Funge93.Proofs.Arguments
import Funge93.Proofs.Parsing
import Funge93.Proofs.Faults
import Funge93.Proofs.Process
import Funge93.Proofs.Sliding
import Funge93.Proofs.Wording
import Funge93.Proofs.Weights
