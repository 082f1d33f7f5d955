import GotoBasic.Main
import GotoBasic.Parse.Cursor
import GotoBasic.Service
import GotoBasic.Session.Interactive
import GotoBasic.Settings.Launcher
import GotoBasic.Proofs.Machine.Numbers
import GotoBasic.Proofs.Parse.Blocks
import GotoBasic.Proofs.Parse.Image
import GotoBasic.Proofs.Script.Agreement
import GotoBasic.Proofs.Session.Breakdown
import GotoBasic.Proofs.Machine.Evaluation
import GotoBasic.Proofs.Parse.Labels
import GotoBasic.Proofs.Token.Places
import GotoBasic.Proofs.Token.Runs
import GotoBasic.Proofs.Parse.Errors
import GotoBasic.Proofs.Machine.Frame
import GotoBasic.Proofs.Parse.LineBreaks
import GotoBasic.Proofs.Program.Decoding
import GotoBasic.Proofs.Machine.Forward
import GotoBasic.Proofs.Parse.Sessions
import GotoBasic.Proofs.Decimal.RoundTrip
