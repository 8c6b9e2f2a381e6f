import EdnTokens.Json.RoundTrip
import EdnTokens.Main
import EdnTokens.Proofs.Calls
import EdnTokens.Proofs.Checking
import EdnTokens.Proofs.Concatenation
import EdnTokens.Proofs.Grammar
import EdnTokens.Proofs.Inputs
import EdnTokens.Proofs.Listings
import EdnTokens.Proofs.Lookahead
import EdnTokens.Proofs.Pulling
import EdnTokens.Proofs.Reports
import EdnTokens.Proofs.Respacing
import EdnTokens.Proofs.Restart
import EdnTokens.Proofs.Snippets
import EdnTokens.Proofs.Strictness
import EdnTokens.Proofs.Tiling
import EdnTokens.Text.Unescape
import EdnTokens.Proofs.Loading
import EdnTokens.Proofs.TilingFaults
import EdnTokens.Proofs.Documents
import EdnTokens.Proofs.Files
import EdnTokens.Proofs.Configuration
import EdnTokens.Proofs.Setup
import EdnTokens.Proofs.Offsets
import EdnTokens.Proofs.Splitting
import EdnTokens.Proofs.Strings
import EdnTokens.Proofs.Initialization
import EdnTokens.Proofs.Events
import EdnTokens.Proofs.Histories
import EdnTokens.Proofs.Spans
import EdnTokens.Proofs.Movement
import EdnTokens.Proofs.Collecting
