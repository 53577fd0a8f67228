import SwiftScribe.Main
import SwiftScribe.Proofs.Follows
import SwiftScribe.Proofs.Trace
import SwiftScribe.Proofs.Tree
import SwiftScribe.Proofs.Growth
import SwiftScribe.Proofs.Rerun
import SwiftScribe.Proofs.Truth
import SwiftScribe.Proofs.Culprit
import SwiftScribe.Proofs.Batches
import SwiftScribe.Proofs.Nesting
import SwiftScribe.Proofs.Reach
import SwiftScribe.Proofs.JsonText
import SwiftScribe.Proofs.HintFile
import SwiftScribe.Proofs.Lexer
import SwiftScribe.Proofs.DebugText
import SwiftScribe.Proofs.Balance
import SwiftScribe.Proofs.Alike
import SwiftScribe.Proofs.Sameness
import SwiftScribe.Proofs.Parts
import SwiftScribe.Proofs.Reading
import SwiftScribe.Proofs.Codec
import SwiftScribe.Proofs.Stable
import SwiftScribe.Proofs.Failures
import SwiftScribe.Proofs.Places
import SwiftScribe.Proofs.Outcome
import SwiftScribe.Proofs.Edits
import SwiftScribe.Proofs.Flow
import SwiftScribe.Proofs.Statements
import SwiftScribe.Proofs.Stepping
import SwiftScribe.Proofs.Switches
import SwiftScribe.Proofs.Defaults
import SwiftScribe.Proofs.Quotes
import SwiftScribe.Proofs.Formulas
import SwiftScribe.Proofs.Grouping
import SwiftScribe.Proofs.Chains
import SwiftScribe.Proofs.Outline
import SwiftScribe.Proofs.Pieces
import SwiftScribe.Proofs.Jumps
import SwiftScribe.Proofs.Labels
import SwiftScribe.Proofs.Placeholders
import SwiftScribe.Proofs.Interpolations
import SwiftScribe.Proofs.Searches
import SwiftScribe.Proofs.Finalizers
import SwiftScribe.Proofs.Merging
import SwiftScribe.Proofs.Acceptance
import SwiftScribe.Proofs.Bodies
import SwiftScribe.Proofs.Members
import SwiftScribe.Proofs.Directives
import SwiftScribe.Proofs.PathText
import SwiftScribe.Proofs.Rounding
import SwiftScribe.Proofs.Regular
import SwiftScribe.Proofs.Payloads
