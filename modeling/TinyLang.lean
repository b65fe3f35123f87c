import TinyLang.Main
import TinyLang.Syntax.Walk
import TinyLang.Token.Recognize
import TinyLang.Proofs.Grammar.Derivation
import TinyLang.Proofs.Grammar.Steps
import TinyLang.Proofs.Grammar.Completeness
import TinyLang.Proofs.Grammar.Soundness
import TinyLang.Proofs.Grammar.FirstError
import TinyLang.Proofs.Grammar.Height
import TinyLang.Proofs.Grammar.Expectation
import TinyLang.Proofs.Token.Lexical
import TinyLang.Proofs.Token.Scanning
import TinyLang.Proofs.Token.Tiling
import TinyLang.Proofs.Token.Composition
import TinyLang.Proofs.Token.Segmentation
import TinyLang.Proofs.Grammar.Twins
import TinyLang.Proofs.Grammar.Relocation
import TinyLang.Proofs.Listing.RoundTrip
import TinyLang.Proofs.Syntax.Bare
import TinyLang.Proofs.Listing.Reparsing
import TinyLang.Proofs.Grammar.Trailing
import TinyLang.Proofs.Text.Encoding
import TinyLang.Proofs.Listing.Places
import TinyLang.Proofs.Listing.Rewriting
import TinyLang.Proofs.Grammar.Cutoff
import TinyLang.Proofs.Grammar.Ending
import TinyLang.Proofs.Grammar.Foresight
import TinyLang.Proofs.Grammar.Paths
import TinyLang.Proofs.Syntax.Printing
import TinyLang.Proofs.Syntax.SourceOrder
import TinyLang.Proofs.Text.Rows
import TinyLang.Proofs.Text.Quoting
import TinyLang.Proofs.Syntax.Building
import TinyLang.Proofs.Syntax.Labels
import TinyLang.Proofs.Syntax.Numbering
import TinyLang.Proofs.Syntax.Recovery
import TinyLang.Proofs.Syntax.Digraph
import TinyLang.Proofs.Source.Excerpts
import TinyLang.Proofs.Source.Surroundings
import TinyLang.Proofs.Grammar.Location
import TinyLang.Proofs.Grammar.Rendering
import TinyLang.Proofs.Grammar.Anchoring
import TinyLang.Proofs.Token.Joining
import TinyLang.Proofs.Listing.Acceptance
import TinyLang.Proofs.CommandLine.Delivery
import TinyLang.Proofs.CommandLine.Diagnosis
import TinyLang.Proofs.Syntax.Touring
import TinyLang.Proofs.Syntax.Mentions
import TinyLang.Proofs.Token.Casing
import TinyLang.Proofs.Grammar.Casing
import TinyLang.Proofs.Grammar.Balance
import TinyLang.Proofs.Grammar.Nesting
