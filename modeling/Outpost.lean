import Outpost.Number.Decimal
import Outpost.Text
import Outpost.Json.Parser
import Outpost.Json.Printer
import Outpost.Json.Access
import Outpost.Fault.Report
import Outpost.Console
import Outpost.Shell
import Outpost.Path
import Outpost.Session.Start
import Outpost.Script
import Outpost.Options
import Outpost.Event
import Outpost.Program
import Outpost.Process.Channel
import Outpost.Session.Close
import Outpost.Scoped
import Outpost.EventLog.Queue
import Outpost.Loopback
import Outpost.Listener
import Outpost.Machine.Local
import Outpost.Machine.OpenSsh
import Outpost.Machine.SshClient
import Outpost.Rehearsal.Deployment
import Outpost.Rehearsal.Description
import Outpost.Rehearsal.Trial
import Outpost.Proofs.Run
import Outpost.Proofs.Session.Teardown
import Outpost.Proofs.Process.Conservation
import Outpost.Proofs.Process.Readers
import Outpost.Proofs.Session.Acquisition
import Outpost.Proofs.Session.History
import Outpost.Proofs.Session.Use
import Outpost.Proofs.Session.Trail
import Outpost.Proofs.Group.Members
import Outpost.Proofs.Group.Connecting
import Outpost.Proofs.Group.Starting
import Outpost.Proofs.Group.Closing
import Outpost.Proofs.Group.Extent
import Outpost.Proofs.Scoped.Precedence
import Outpost.Proofs.Company
import Outpost.Proofs.Process.Conduct
import Outpost.Proofs.Process.Discarding
import Outpost.Proofs.Process.Expiry
import Outpost.Proofs.Session.Handshake
import Outpost.Proofs.Shell
import Outpost.Proofs.Session.Itinerary
import Outpost.Proofs.Session.Failure
import Outpost.Proofs.EventLog.Journal
import Outpost.Proofs.EventLog.Survival
import Outpost.Proofs.Event
import Outpost.Proofs.EventLog.Recall
import Outpost.Proofs.Machine.Commands
import Outpost.Proofs.Machine.Mirror
import Outpost.Proofs.Script.Seams
import Outpost.Proofs.Session.References
import Outpost.Proofs.Process.Stopping
import Outpost.Proofs.Machine.Forwarding
import Outpost.Proofs.Machine.Master
import Outpost.Proofs.PortLine
import Outpost.Proofs.EventLog.Trimming
import Outpost.Proofs.EventLog.Unended
import Outpost.Proofs.EventLog.Limits
import Outpost.Proofs.Machine.Interpreters
import Outpost.Proofs.Options.Resolution
import Outpost.Proofs.Connection
import Outpost.Proofs.Listener
import Outpost.Proofs.Session.Audit
