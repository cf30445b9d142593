import Parlance.Main
import Parlance.Proofs.BlankLines
import Parlance.Proofs.Sandbox
import Parlance.Proofs.Signals
import Parlance.Proofs.Debugging
import Parlance.Proofs.Grants
import Parlance.Proofs.Clocks
import Parlance.Proofs.Accounts
import Parlance.Proofs.Misfits
import Parlance.Proofs.Unwritten
import Parlance.Proofs.Provision
import Parlance.Proofs.Conversations
import Parlance.Proofs.Capitals
import Parlance.Proofs.Dispatch
import Parlance.Proofs.UntilLoops
import Parlance.Proofs.Sifting
import Parlance.Proofs.Entering
import Parlance.Proofs.Tables
import Parlance.Proofs.Literals
import Parlance.Proofs.Schedules
import Parlance.Proofs.Versions
import Parlance.Proofs.Servers
import Parlance.Proofs.Effects
