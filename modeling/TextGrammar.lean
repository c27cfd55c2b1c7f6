import TextGrammar.Main
import TextGrammar.Proofs.Attempts
import TextGrammar.Proofs.BackReferences
import TextGrammar.Proofs.Barriers
import TextGrammar.Proofs.Carry
import TextGrammar.Proofs.CheckedReading
import TextGrammar.Proofs.Concluding
import TextGrammar.Proofs.ElementaryCheckers
import TextGrammar.Proofs.EntryFusion
import TextGrammar.Proofs.FollowingSearch
import TextGrammar.Proofs.FurthestFailure
import TextGrammar.Proofs.GrammarTrace
import TextGrammar.Proofs.Greediness
import TextGrammar.Proofs.Halting
import TextGrammar.Proofs.Histories
import TextGrammar.Proofs.KeptCheckers
import TextGrammar.Proofs.LongestChoice
import TextGrammar.Proofs.Negation
import TextGrammar.Proofs.Outcomes
import TextGrammar.Proofs.PatternComposition
import TextGrammar.Proofs.PatternErrors
import TextGrammar.Proofs.PrintedSearch
import TextGrammar.Proofs.RecordLayout
import TextGrammar.Proofs.Refinement
import TextGrammar.Proofs.Registrations
import TextGrammar.Proofs.Rejection
import TextGrammar.Proofs.Repeats
import TextGrammar.Proofs.Shortcut
import TextGrammar.Proofs.SimplestSets
import TextGrammar.Proofs.SimplifiedSearch
import TextGrammar.Proofs.StringLiterals
import TextGrammar.Proofs.SuffixSearch
import TextGrammar.Proofs.TiledAttempts
import TextGrammar.Proofs.TiledSearch
import TextGrammar.Proofs.Tiling
import TextGrammar.Proofs.Unnamed
import TextGrammar.Proofs.Walk
import TextGrammar.Proofs.WholeMatch
import TextGrammar.Types.Rules
