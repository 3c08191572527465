import ExpiringCache.Main
import ExpiringCache.Settings.Read
import ExpiringCache.Proofs.Agreement
import ExpiringCache.Proofs.Embedded.Loan
import ExpiringCache.Proofs.Remote.Run
import ExpiringCache.Proofs.Memory.Moves
import ExpiringCache.Proofs.Embedded.Moves
import ExpiringCache.Proofs.Erasure
import ExpiringCache.Proofs.Memory.Isolation
import ExpiringCache.Proofs.Embedded.Isolation
import ExpiringCache.Proofs.Isolation
import ExpiringCache.Proofs.Inventory
import ExpiringCache.Proofs.Memory.Inventory
import ExpiringCache.Proofs.Embedded.Inventory
import ExpiringCache.Proofs.Accounting
import ExpiringCache.Proofs.Remote.Dealing
import ExpiringCache.Proofs.Remote.Transcript
import ExpiringCache.Proofs.Deadlines
import ExpiringCache.Proofs.Memory.Deadlines
import ExpiringCache.Proofs.Embedded.Deadlines
import ExpiringCache.Proofs.Staleness
import ExpiringCache.Proofs.Session.Run
import ExpiringCache.Proofs.Session.Lending
import ExpiringCache.Proofs.Session.Closing
import ExpiringCache.Proofs.Text.Quoted
import ExpiringCache.Proofs.Settings.Disclosure
import ExpiringCache.Proofs.Json.Quote
import ExpiringCache.Proofs.Json.Numeral
import ExpiringCache.Proofs.Json.Token
import ExpiringCache.Proofs.Json.Document
import ExpiringCache.Proofs.Json.Structure
import ExpiringCache.Proofs.Settings.Decoding
import ExpiringCache.Proofs.CommandLine.Reading
import ExpiringCache.Proofs.Settings.Construction
import ExpiringCache.Proofs.Embedded.Damage
import ExpiringCache.Proofs.Watching
import ExpiringCache.Proofs.CommandLine.Listing
import ExpiringCache.Proofs.Embedded.Lookup
import ExpiringCache.Proofs.Remote.Traversal
import ExpiringCache.Proofs.Memory.Snapshot
import ExpiringCache.Proofs.Embedded.Traversal
import ExpiringCache.Proofs.Embedded.Walk
import ExpiringCache.Proofs.Embedded.Reentry
import ExpiringCache.Proofs.Embedded.Callbacks
import ExpiringCache.Proofs.Collisions
import ExpiringCache.Proofs.Embedded.Lifetime
import ExpiringCache.Proofs.Lifetimes
import ExpiringCache.Proofs.Remote.Address
import ExpiringCache.Proofs.Remote.Greeting
import ExpiringCache.Proofs.Embedded.Codec
import ExpiringCache.Proofs.Text.Trim
import ExpiringCache.Proofs.Settings.Nodes
import ExpiringCache.Proofs.Embedded.Round
import ExpiringCache.Proofs.Cleanup
import ExpiringCache.Proofs.Recovery
