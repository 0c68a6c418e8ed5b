import Conceal.Main
import Conceal.Editor.Pointer
import Conceal.Proofs.Decoration.Lifetime
import Conceal.Proofs.Decoration.Losses
import Conceal.Proofs.Grammar.Tiling
import Conceal.Proofs.Masking.Rendering
import Conceal.Proofs.Masking.Reuse
import Conceal.Proofs.Scopes.Queries
import Conceal.Proofs.Session.Exact
import Conceal.Proofs.Session.Looks
import Conceal.Proofs.Session.Requests
import Conceal.Proofs.Masking.Frame
import Conceal.Proofs.Masking.Contact
import Conceal.Proofs.Session.Departed
import Conceal.Proofs.Session.Passes
import Conceal.Proofs.Session.Freshness
import Conceal.Proofs.Session.Languages
import Conceal.Proofs.Masking.Granting
import Conceal.Proofs.Masking.Notices
import Conceal.Proofs.Session.Rules
import Conceal.Proofs.Session.Isolation
import Conceal.Proofs.Session.Pauses
import Conceal.Proofs.Grammar.Progress
import Conceal.Proofs.Grammar.Nesting
import Conceal.Proofs.Json.Equality
import Conceal.Proofs.Settings.Delivery
import Conceal.Proofs.Settings.Loading
import Conceal.Proofs.Settings.Normalizing
import Conceal.Proofs.Settings.Unbounded
import Conceal.Proofs.Grammar.Flattening
import Conceal.Proofs.Grammar.Earliest
import Conceal.Proofs.Grammar.Closing
import Conceal.Proofs.Scopes.Complaints
import Conceal.Proofs.Grammar.Circular
import Conceal.Proofs.Grammar.Escapes
import Conceal.Proofs.Masking.Nested
import Conceal.Proofs.Masking.Reveal
import Conceal.Proofs.Masking.Scanning
import Conceal.Proofs.Session.Wiring
import Conceal.Proofs.Document.Positions
import Conceal.Proofs.Editor.Offsets
import Conceal.Proofs.Editor.Highlights
import Conceal.Proofs.Editor.Files
import Conceal.Proofs.Scopes.Filters
import Conceal.Proofs.Json.Spelling
import Conceal.Proofs.Json.Reading
import Conceal.Proofs.Registry.Loading
import Conceal.Proofs.Registry.Interleaving
import Conceal.Proofs.Grammar.Strangers
import Conceal.Proofs.Masking.Entries
import Conceal.Proofs.Style.Layers
import Conceal.Proofs.Grammar.Splitting
import Conceal.Proofs.Grammar.Candidates
