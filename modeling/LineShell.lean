import LineShell.Completion
import LineShell.Main
import LineShell.Proofs.Child.Status
import LineShell.Proofs.Child.Vector
import LineShell.Proofs.Completion.Candidates
import LineShell.Proofs.Config
import LineShell.Proofs.Escape.Append
import LineShell.Proofs.Escape.Raw
import LineShell.Proofs.Line.Growth
import LineShell.Proofs.Line.Split
import LineShell.Proofs.Log
import LineShell.Proofs.Proc.Resolve
import LineShell.Proofs.Session.Child
import LineShell.Proofs.Session.Command
import LineShell.Proofs.Session.Crash
import LineShell.Proofs.Session.Diagnostics
import LineShell.Proofs.Session.Echo
import LineShell.Proofs.Session.Ending
import LineShell.Proofs.Session.Entries
import LineShell.Proofs.Session.Exit
import LineShell.Proofs.Session.Frame
import LineShell.Proofs.Session.History
import LineShell.Proofs.Session.Input
import LineShell.Proofs.Session.Loop
import LineShell.Proofs.Session.Passable
import LineShell.Proofs.Session.Print
import LineShell.Proofs.Session.Repeat
import LineShell.Proofs.Session.Settings
