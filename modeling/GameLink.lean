import GameLink.Settings.Load
import GameLink.Capture
import GameLink.Text.Hex
import GameLink.Link.Bench
import GameLink.Registry.Desk
import GameLink.Client.Rehearsal
import GameLink.Proofs.Client.Courses
import GameLink.Proofs.Client.Invariant
import GameLink.Proofs.Client.View
import GameLink.Proofs.Client.Life
import GameLink.Proofs.Client.Lifecycle
import GameLink.Proofs.Client.Errand
import GameLink.Proofs.Client.Lodging
import GameLink.Proofs.Client.Order
import GameLink.Proofs.Client.Era
import GameLink.Proofs.Client.Closing
import GameLink.Proofs.Client.Recount
import GameLink.Proofs.Client.Settlement
import GameLink.Proofs.Client.Ledger
import GameLink.Proofs.Registry.Table
import GameLink.Proofs.Client.Accounts
import GameLink.Proofs.Client.Answers
import GameLink.Proofs.Client.Reasons
import GameLink.Proofs.Client.Conclusions
import GameLink.Proofs.Client.Accounted
import GameLink.Proofs.Client.Mail
import GameLink.Proofs.Client.Severed
import GameLink.Proofs.Event.Delivery
import GameLink.Proofs.Registry.Journal
import GameLink.Proofs.Registry.Acts
import GameLink.Proofs.Registry.Unaided
import GameLink.Proofs.Registry.Recorded
import GameLink.Proofs.Registry.Waiting
import GameLink.Proofs.Heartbeat.Pacing
import GameLink.Proofs.Link.Queues
import GameLink.Proofs.Client.Wire
import GameLink.Proofs.Client.Stream
import GameLink.Proofs.Client.Listening
import GameLink.Proofs.Client.Prompting
import GameLink.Proofs.Client.Relayed
import GameLink.Proofs.Client.Line
import GameLink.Proofs.Client.Turns
import GameLink.Proofs.Client.Speech
import GameLink.Proofs.Client.Sending
import GameLink.Proofs.Client.Posted
import GameLink.Proofs.Client.Watch
import GameLink.Proofs.Client.Onward
import GameLink.Proofs.Client.Overdue
import GameLink.Proofs.Client.Custody
import GameLink.Proofs.Client.Apart
import GameLink.Proofs.Client.Dialed
import GameLink.Proofs.Client.Overtaken
import GameLink.Proofs.Client.Final
import GameLink.Proofs.Client.Writable
import GameLink.Proofs.Client.Scribe
import GameLink.Proofs.Client.Beats
import GameLink.Proofs.Client.Pulse
import GameLink.Proofs.Client.Vigil
import GameLink.Proofs.Client.Onset
import GameLink.Proofs.Client.Silence
import GameLink.Proofs.Session.Renewal
import GameLink.Proofs.Json.Scanned
import GameLink.Proofs.Json.Written
import GameLink.Proofs.Session.Restoring
import GameLink.Proofs.Json.Records
import GameLink.Proofs.Json.Steady
import GameLink.Proofs.Json.Layers
import GameLink.Proofs.Settings.Agreement
import GameLink.Proofs.Text.Percent
import GameLink.Proofs.Secrecy.Token
import GameLink.Proofs.Secrecy.Address
import GameLink.Proofs.Secrecy.Machine
import GameLink.Proofs.Secrecy.Step
import GameLink.Proofs.Secrecy.Run
import GameLink.Proofs.Secrecy.Resigned
import GameLink.Proofs.Secrecy.Undisclosed
import GameLink.Proofs.Settings.Overriding
import GameLink.Proofs.Client.Routing
import GameLink.Proofs.Message.Outgoing
import GameLink.Proofs.Settings.Loading
import GameLink.Proofs.Client.Attempt
import GameLink.Proofs.Session.Expiry
import GameLink.Proofs.Json.Merging
import GameLink.Proofs.Json.Spelling
import GameLink.Proofs.Json.Grammar
import GameLink.Proofs.Session.Verdict
import GameLink.Proofs.Session.Issued
import GameLink.Proofs.Message.Rearranged
import GameLink.Proofs.Client.Rearranged
import GameLink.Proofs.Text.Words
import GameLink.Proofs.Link.Query
import GameLink.Proofs.Settings.Saved
import GameLink.Proofs.Client.Signature
import GameLink.Proofs.Client.Unawaited
import GameLink.Proofs.Client.Performed
