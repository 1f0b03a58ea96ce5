import GChat.Foundation.Backwards
import GChat.Foundation.BigEndian
import GChat.Foundation.Bytes
import GChat.Foundation.Cell
import GChat.Foundation.CharBytes
import GChat.Foundation.Codec
import GChat.Foundation.Effect
import GChat.Foundation.FirstMatch
import GChat.Foundation.Gathering
import GChat.Foundation.Growth
import GChat.Foundation.Json
import GChat.Foundation.JsonText
import GChat.Foundation.LastWriter
import GChat.Foundation.Machine
import GChat.Foundation.Numbering
import GChat.Foundation.Outcome
import GChat.Foundation.Pages
import GChat.Foundation.Radix
import GChat.Foundation.Replay
import GChat.Foundation.SideBySide
import GChat.Foundation.StableSort
import GChat.Foundation.StringMap
import GChat.Foundation.Superseding
import GChat.Foundation.Text
import GChat.Foundation.TextBytes
import GChat.Foundation.Upsert
import GChat.Foundation.Utf16
import GChat.Foundation.Utf8
import GChat.Foundation.Window
import GChat.Foundation.Words
import GChat.Api.Message
import GChat.Api.Response
import GChat.Archive.Accepted
import GChat.Archive.Dirty
import GChat.Archive.Event
import GChat.Archive.Inbox
import GChat.Archive.Landing
import GChat.Archive.Model
import GChat.Archive.Own
import GChat.Archive.Receipts
import GChat.Archive.Replay
import GChat.Archive.Roster
import GChat.Archive.Rounds
import GChat.Archive.Run
import GChat.Archive.Send
import GChat.Archive.Stays
import GChat.Archive.Unique
import GChat.Contacts.Aliases
import GChat.Contacts.Arrivals
import GChat.Contacts.Deadlock
import GChat.Contacts.Delivery
import GChat.Contacts.Distinct
import GChat.Contacts.ExactlyOnce
import GChat.Contacts.Exchange
import GChat.Contacts.Faithful
import GChat.Contacts.Growth
import GChat.Contacts.Model
import GChat.Contacts.Operations
import GChat.Contacts.Presence
import GChat.Contacts.Progress
import GChat.Contacts.Quiet
import GChat.Contacts.Retry
import GChat.Contacts.Steps
import GChat.Contacts.Validate
import GChat.Contacts.Waiting
import GChat.Hosted.Apply
import GChat.Hosted.Batch
import GChat.Hosted.Growth
import GChat.Hosted.Model
import GChat.Hosted.Names
import GChat.Hosted.Projection
import GChat.Hosted.Race
import GChat.Hosted.Unnamed
import GChat.Hosted.Worker
import GChat.Journal.AtMostOnce
import GChat.Journal.Cases
import GChat.Journal.Model
import GChat.Journal.Once
import GChat.Journal.OnceSteps
import GChat.Journal.Present
import GChat.Journal.Records
import GChat.Journal.Refusal
import GChat.Journal.Retained
import GChat.Journal.Rpc
import GChat.Journal.Secrets
import GChat.Journal.Service
import GChat.Journal.Submit
import GChat.Store.Encrypted
import GChat.Store.Saves
import GChat.Transcript.Appends
import GChat.Transcript.Framing
import GChat.Transcript.Model
import GChat.Transcript.Rotations
import GChat.Commands.Agreement
import GChat.Commands.Catalogue
import GChat.Commands.Completions
import GChat.Commands.Model
import GChat.Commands.Readers
import GChat.Commands.Redaction
import GChat.Host.Exit
import GChat.Host.Gate
import GChat.Host.Invariant
import GChat.Host.Lease
import GChat.Host.Liveness
import GChat.Host.Model
import GChat.Host.Paused
import GChat.Host.Quiesced
import GChat.Host.Steps
import GChat.Service.Aliases
import GChat.Service.Arrivals
import GChat.Service.Crash
import GChat.Service.Delivery
import GChat.Service.History
import GChat.Service.Leaving
import GChat.Service.Markers
import GChat.Service.Metadata
import GChat.Service.Model
import GChat.Service.Observed
import GChat.Service.Persistence
import GChat.Service.Preferences
import GChat.Service.Reading
import GChat.Service.Redaction
import GChat.Service.Saved
import GChat.Service.Submission
import GChat.Service.Synced
import GChat.Dialect.Compat
import GChat.Dialect.Encoding
import GChat.Dialect.Released
import GChat.Dialect.Requests
import GChat.Dialect.Responses
import GChat.Dialect.Types
import GChat.Workspace.Model
import GChat.Workspace.Qualify
import GChat.Workspace.Refresh
import GChat.Mobile.Admission
import GChat.Mobile.Suspension
import GChat.Presentation.Fresh
import GChat.Presentation.Model
import GChat.Presentation.Runs
import GChat.Migration.Legacy
import GChat.Migration.Split
import GChat.Catalog.Limits
import GChat.Catalog.Refresh
import GChat.Unlock.Files
import GChat.Unlock.Model
import GChat.Unlock.Retry
import GChat.Unlock.Rooms
import GChat.Unlock.Steps
import GChat.Notifications.Model
import GChat.Notifications.Policy
import GChat.Notifications.Revisions
import GChat.Notifications.Revoking
import GChat.Notifications.Runs
import GChat.Notifications.Sync
import GChat.Irc.Agreement
import GChat.Irc.Model
import GChat.Invitation.Card
import GChat.Invitation.Embedding
import GChat.Invitation.Pictures
import GChat.Invitation.Texts
import GChat.Results.Delivery
import GChat.Results.Model
import GChat.Results.Records
import GChat.Files.Announced
import GChat.Files.Codec
import GChat.Files.Frames
import GChat.Files.Kept
import GChat.Files.Model
import GChat.Files.Observed
import GChat.Files.Permitted
import GChat.Files.Pieces
import GChat.Files.Publications
import GChat.Files.Routes
import GChat.Files.Runs
import GChat.Files.Transfers
import GChat.FileView.Actions
import GChat.FileView.Lists
import GChat.FileView.Model
import GChat.Terminal.Invitations
import GChat.Terminal.LineEdit
import GChat.Terminal.Protection
import GChat.Terminal.Recognition
import GChat.Terminal.Wrapping
import GChat.Recovery.Preview
import GChat.Recovery.RoundTrip
import GChat.Badges.Attention
import GChat.Badges.Exact
import GChat.Badges.Jobs
import GChat.Badges.Model
import GChat.Badges.Tracking
