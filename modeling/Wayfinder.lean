import Wayfinder.Http
import Wayfinder.Main
import Wayfinder.Tool
import Wayfinder.Proofs.Interface.Invariant
import Wayfinder.Proofs.Heading
import Wayfinder.Proofs.Interface.Segmentation
import Wayfinder.Proofs.Interface.Completion
import Wayfinder.Proofs.Interface.Renumbering
import Wayfinder.Proofs.Receiver
import Wayfinder.Proofs.Renumbering
import Wayfinder.Proofs.CommentLine
import Wayfinder.Proofs.Concatenation
import Wayfinder.Proofs.Navigation.Order
import Wayfinder.Proofs.Navigation.Resolve
import Wayfinder.Proofs.Anchors
import Wayfinder.Proofs.Navigation.ByName
import Wayfinder.Proofs.Listing
import Wayfinder.Proofs.Navigation.Activation
import Wayfinder.Proofs.Navigation.Symmetry
import Wayfinder.Proofs.Span
import Wayfinder.Proofs.Navigation.Gopls
import Wayfinder.Proofs.Navigation.OwnPlace
import Wayfinder.Proofs.Declarations
import Wayfinder.Proofs.Lexer
import Wayfinder.Proofs.Alike
import Wayfinder.Proofs.LongerLine
import Wayfinder.Proofs.TrailingComment
import Wayfinder.Proofs.CommentMark
import Wayfinder.Proofs.ReceiverGrammar
import Wayfinder.Proofs.Interface.Tail
import Wayfinder.Proofs.BlockComment
import Wayfinder.Proofs.Cancellation
import Wayfinder.Proofs.GoFiles
import Wayfinder.Proofs.Spelling
import Wayfinder.Proofs.CommandLine.Grammar
import Wayfinder.Proofs.CommandLine.Sentence
import Wayfinder.Proofs.CommandLine.Precedence
import Wayfinder.Proofs.Boundaries
import Wayfinder.Proofs.LineEndings
import Wayfinder.Proofs.Probe
import Wayfinder.Proofs.WordDepth
import Wayfinder.Proofs.Interface.Guards
