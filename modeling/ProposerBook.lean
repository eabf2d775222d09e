import ProposerBook.Table
import ProposerBook.Bytes.Hex
import ProposerBook.Bytes.Word
import ProposerBook.Hash.Sha256
import ProposerBook.Hash.Keccak256
import ProposerBook.Text.Blank
import ProposerBook.Text.Quoted
import ProposerBook.Text.Lowercase
import ProposerBook.Text.Decimal
import ProposerBook.Text.MediaType
import ProposerBook.Address
import ProposerBook.Screening.Setup
import ProposerBook.Proposer.SlotMap
import ProposerBook.Proposer.Clock
import ProposerBook.Json.Decode
import ProposerBook.Json.Value
import ProposerBook.Relay.Settings
import ProposerBook.Relay.Submission
import ProposerBook.Telemetry.Setup
import ProposerBook.Relay.Client
import ProposerBook.Screening.Settings
import ProposerBook.Shutdown
import ProposerBook.Proofs.Text.ByteOrder
import ProposerBook.Proofs.Address
import ProposerBook.Proofs.Json.Grammar
import ProposerBook.Proofs.Json.Scan
import ProposerBook.Proofs.Json.Write
import ProposerBook.Proofs.Json.Sound
import ProposerBook.Proofs.Json.Decode
import ProposerBook.Proofs.Json.Record
import ProposerBook.Proofs.AddressSet
import ProposerBook.Proofs.Table
import ProposerBook.Proofs.Snapshot.Layout
import ProposerBook.Proofs.Snapshot.Meaning
import ProposerBook.Proofs.Snapshot.RoundTrip
import ProposerBook.Proofs.Snapshot.Faults
import ProposerBook.Proofs.Snapshot.Extension
import ProposerBook.Proofs.Snapshot.Economy
import ProposerBook.Proofs.Snapshot.Cursor
import ProposerBook.Proofs.Relay.Move
import ProposerBook.Proofs.Relay.Run
import ProposerBook.Proofs.Relay.Schedule
import ProposerBook.Proofs.Relay.SingleFlight
import ProposerBook.Proofs.Proposer.SlotMap
import ProposerBook.Proofs.Proposer.Registration
import ProposerBook.Proofs.Proposer.LastRegistration
import ProposerBook.Proofs.Relay.Cache
import ProposerBook.Proofs.Screening.Registry
import ProposerBook.Proofs.Screening.Decision
import ProposerBook.Proofs.Relay.Lists
import ProposerBook.Proofs.Relay.Overtaking
import ProposerBook.Proofs.Relay.Epochs
import ProposerBook.Proofs.Screening.Records
import ProposerBook.Proofs.Screening.History
import ProposerBook.Proofs.Screening.Reload
import ProposerBook.Proofs.Screening.JsonForm
import ProposerBook.Proofs.Screening.SetForm
import ProposerBook.Proofs.Screening.Blacklist
import ProposerBook.Proofs.Screening.Reasons
import ProposerBook.Proofs.Screening.Configured
import ProposerBook.Proofs.Relay.Attempts
import ProposerBook.Proofs.Relay.Hostile
import ProposerBook.Proofs.Relay.Answers
import ProposerBook.Proofs.Relay.Unseen
import ProposerBook.Proofs.Relay.Submission
import ProposerBook.Proofs.Relay.Course
import ProposerBook.Proofs.Relay.Punctual
import ProposerBook.Proofs.Relay.Pursuit
import ProposerBook.Proofs.Relay.Budget
import ProposerBook.Proofs.Relay.Refresh
import ProposerBook.Proofs.Relay.ListPhase
import ProposerBook.Proofs.Text.Split
import ProposerBook.Proofs.Url.PercentEncoding
import ProposerBook.Proofs.Url.Punycode
import ProposerBook.Proofs.Url.Domain
import ProposerBook.Proofs.Url.Ipv4
import ProposerBook.Proofs.Url.Ipv6
import ProposerBook.Proofs.Url.Host
import ProposerBook.Proofs.Url.Path
import ProposerBook.Proofs.Url.Authority
import ProposerBook.Proofs.Url.Reparse
import ProposerBook.Proofs.Url.Marks
import ProposerBook.Proofs.Url.FormEncoding
import ProposerBook.Proofs.Relay.Registry
import ProposerBook.Proofs.Relay.Listing
import ProposerBook.Proofs.Relay.Screening
import ProposerBook.Proofs.Relay.Location
import ProposerBook.Proofs.Relay.Query
import ProposerBook.Proofs.Screening.Checksum
import ProposerBook.Proofs.Proposer.Numbers
import ProposerBook.Proofs.Proposer.Clock
import ProposerBook.Proofs.Shutdown
