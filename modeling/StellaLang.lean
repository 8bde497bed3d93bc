import StellaLang.Diagnostic
import StellaLang.Syntax.Duplicates
import StellaLang.Syntax.Printer
import StellaLang.Ty.Equality
import StellaLang.Typing.Checker
import StellaLang.Proofs.Ty.Conformance
import StellaLang.Proofs.Ty.Fresh
import StellaLang.Proofs.Ty.Parts
import StellaLang.Proofs.Typing.Run
import StellaLang.Proofs.Typing.Following
import StellaLang.Proofs.Typing.FollowingExpr
import StellaLang.Proofs.Typing.Limits
import StellaLang.Proofs.Typing.Subtyping
import StellaLang.Proofs.Coverage.Matching
import StellaLang.Proofs.Typing.Join
import StellaLang.Proofs.Typing.Meaning
import StellaLang.Proofs.Typing.Quiet
import StellaLang.Proofs.Coverage.Accepted
import StellaLang.Proofs.Coverage.Fitting
import StellaLang.Proofs.Coverage.Exhaustive
import StellaLang.Proofs.Coverage.Rows
import StellaLang.Proofs.Syntax.Walk
import StellaLang.Proofs.Typing.Judged
import StellaLang.Proofs.Typing.ErrorFree
import StellaLang.Proofs.Typing.Masking
import StellaLang.Proofs.Typing.Core
import StellaLang.Proofs.Typing.CoreSoundness
import StellaLang.Proofs.Typing.CoreCompleteness
import StellaLang.Proofs.Ty.Form
import StellaLang.Proofs.Ty.Nameless
import StellaLang.Proofs.Ty.FormConformance
import StellaLang.Proofs.Ty.Unfolding
import StellaLang.Proofs.Ty.Instantiation
import StellaLang.Proofs.Ty.Renaming
import StellaLang.Proofs.Coverage.Renaming
import StellaLang.Proofs.Typing.Pairing
import StellaLang.Proofs.Typing.Renaming
import StellaLang.Proofs.Typing.TypeParameter
import StellaLang.Proofs.Coverage.Denotation
import StellaLang.Proofs.Ty.Preorder
import StellaLang.Proofs.Typing.InPlace
import StellaLang.Proofs.Typing.Restoring
import StellaLang.Proofs.Typing.Declaring
import StellaLang.Proofs.Ty.Blurring
import StellaLang.Proofs.Ty.Spoiling
import StellaLang.Proofs.Coverage.Blocking
import StellaLang.Proofs.Typing.Spoiling
import StellaLang.Proofs.Typing.SpoilingPatterns
import StellaLang.Proofs.Typing.Cascade
import StellaLang.Proofs.Typing.Cache
import StellaLang.Proofs.Syntax.Places
import StellaLang.Proofs.Syntax.SameTrees
import StellaLang.Proofs.Coverage.Plain
import StellaLang.Proofs.Typing.Findings
import StellaLang.Proofs.Typing.Relocation
import StellaLang.Proofs.Typing.Places
import StellaLang.Proofs.Typing.Order
import StellaLang.Proofs.Ty.FreeNames
import StellaLang.Proofs.Typing.Scoping
import StellaLang.Proofs.Typing.WellScoped
import StellaLang.Proofs.Syntax.Children
import StellaLang.Proofs.Syntax.Occurrences
import StellaLang.Proofs.Syntax.Equality
import StellaLang.Proofs.Syntax.EqualParts
import StellaLang.Proofs.Syntax.Repetition
import StellaLang.Proofs.Syntax.Retyping
import StellaLang.Proofs.Typing.Retyping
import StellaLang.Proofs.Typing.RetypingBlocks
import StellaLang.Proofs.Typing.Transparency
import StellaLang.Proofs.Text.Words
import StellaLang.Proofs.Syntax.Tokens
import StellaLang.Proofs.Syntax.Spelling
import StellaLang.Proofs.Syntax.Readers
import StellaLang.Proofs.Syntax.TypeReader
import StellaLang.Proofs.Syntax.ExprReader
import StellaLang.Proofs.Syntax.ExprReadBack
import StellaLang.Proofs.Syntax.Unambiguity
import StellaLang.Proofs.Syntax.Layout
import StellaLang.Proofs.Ty.Unambiguity
import StellaLang.Proofs.Ty.Reordering
import StellaLang.Proofs.Ty.Components
import StellaLang.Proofs.Ty.Freshening
import StellaLang.Proofs.Ty.Capture
import StellaLang.Proofs.Ty.Orderly
import StellaLang.Proofs.Syntax.Tables
import StellaLang.Proofs.Coverage.Gaps
import StellaLang.Proofs.Coverage.Splitting
import StellaLang.Proofs.Coverage.Variables
import StellaLang.Proofs.Syntax.Sites
import StellaLang.Proofs.Typing.Reverting
import StellaLang.Proofs.Typing.Rebinding
import StellaLang.Proofs.Syntax.Signatures
import StellaLang.Proofs.Typing.Reports
import StellaLang.Proofs.Typing.ReportsExpr
import StellaLang.Proofs.Typing.Repeats
import StellaLang.Proofs.Coverage.Resemblance
import StellaLang.Proofs.Coverage.Rewriting
import StellaLang.Proofs.Coverage.FieldOrder
import StellaLang.Proofs.Text.Excerpt
import StellaLang.Proofs.Syntax.Blocks
import StellaLang.Proofs.Typing.Duplicates
import StellaLang.Proofs.Typing.FirstDeclarations
import StellaLang.Proofs.Ty.CallDepth
import StellaLang.Proofs.Typing.ErrorPlaces
import StellaLang.Proofs.Ty.FreshSearch
import StellaLang.Proofs.Typing.ScopeHistory
