import ClauseTemplates.Document.Tree
import ClauseTemplates.Main
import ClauseTemplates.Proofs.Calendar.Instants
import ClauseTemplates.Proofs.Calendar.Shifts
import ClauseTemplates.Proofs.Conforming.Basic
import ClauseTemplates.Proofs.Conforming.Drafted
import ClauseTemplates.Proofs.Conforming.Sound
import ClauseTemplates.Proofs.Document.Lines
import ClauseTemplates.Proofs.Document.Margins
import ClauseTemplates.Proofs.Document.Rows
import ClauseTemplates.Proofs.Document.Stored
import ClauseTemplates.Proofs.Document.Texts
import ClauseTemplates.Proofs.Drafting.Calculations
import ClauseTemplates.Proofs.Drafting.Faultless
import ClauseTemplates.Proofs.Drafting.Texts
import ClauseTemplates.Proofs.Effects
import ClauseTemplates.Proofs.Expression.Arithmetic
import ClauseTemplates.Proofs.Expression.Comparison
import ClauseTemplates.Proofs.Expression.Dates
import ClauseTemplates.Proofs.Expression.Dependencies
import ClauseTemplates.Proofs.Expression.Derivation
import ClauseTemplates.Proofs.Expression.Exact
import ClauseTemplates.Proofs.Expression.Reading
import ClauseTemplates.Proofs.Expression.Sound
import ClauseTemplates.Proofs.Format.Advances
import ClauseTemplates.Proofs.Format.Amounts
import ClauseTemplates.Proofs.Format.Bracketed
import ClauseTemplates.Proofs.Format.Doubles
import ClauseTemplates.Proofs.Format.Draftable
import ClauseTemplates.Proofs.Format.Fields
import ClauseTemplates.Proofs.Format.Finite
import ClauseTemplates.Proofs.Format.Grouped
import ClauseTemplates.Proofs.Format.Integers
import ClauseTemplates.Proofs.Format.Partial
import ClauseTemplates.Proofs.Format.Quoted
import ClauseTemplates.Proofs.Format.Times
import ClauseTemplates.Proofs.Grammar.Agreement
import ClauseTemplates.Proofs.Grammar.Bounded
import ClauseTemplates.Proofs.Grammar.Compiles
import ClauseTemplates.Proofs.Grammar.Fails
import ClauseTemplates.Proofs.Grammar.Folding
import ClauseTemplates.Proofs.Grammar.Logic
import ClauseTemplates.Proofs.Grammar.Longest
import ClauseTemplates.Proofs.Grammar.Reading
import ClauseTemplates.Proofs.Grammar.Reads
import ClauseTemplates.Proofs.Grammar.Settled
import ClauseTemplates.Proofs.Grammar.Spelling
import ClauseTemplates.Proofs.Grammar.Steady
import ClauseTemplates.Proofs.Grammar.Terminates
import ClauseTemplates.Proofs.Json.Exact
import ClauseTemplates.Proofs.Json.Fields
import ClauseTemplates.Proofs.Markup.Content
import ClauseTemplates.Proofs.Markup.Ending
import ClauseTemplates.Proofs.Markup.Escaped
import ClauseTemplates.Proofs.Markup.Fenced
import ClauseTemplates.Proofs.Markup.Inlines
import ClauseTemplates.Proofs.Markup.Inverse
import ClauseTemplates.Proofs.Markup.Level
import ClauseTemplates.Proofs.Markup.Naming
import ClauseTemplates.Proofs.Markup.Normal
import ClauseTemplates.Proofs.Markup.Placed
import ClauseTemplates.Proofs.Markup.Position
import ClauseTemplates.Proofs.Markup.Regions
import ClauseTemplates.Proofs.Markup.Splitting
import ClauseTemplates.Proofs.Markup.Stable
import ClauseTemplates.Proofs.Markup.Stripped
import ClauseTemplates.Proofs.Markup.Unbound
import ClauseTemplates.Proofs.Number.Whole
import ClauseTemplates.Proofs.Parsing.Accepted
import ClauseTemplates.Proofs.Parsing.Captured
import ClauseTemplates.Proofs.Parsing.Complete
import ClauseTemplates.Proofs.Parsing.Contexts
import ClauseTemplates.Proofs.Parsing.Joined
import ClauseTemplates.Proofs.Parsing.Kept
import ClauseTemplates.Proofs.Parsing.Nested
import ClauseTemplates.Proofs.Parsing.Progress
import ClauseTemplates.Proofs.Parsing.Static
import ClauseTemplates.Proofs.Passage.Accepted
import ClauseTemplates.Proofs.Reading.Coherent
import ClauseTemplates.Proofs.Reading.Consistent
import ClauseTemplates.Proofs.Reading.Recovered
import ClauseTemplates.Proofs.Reading.Results
import ClauseTemplates.Proofs.Record.Recovered
import ClauseTemplates.Proofs.Record.Separate
import ClauseTemplates.Proofs.Redraft.Recovery
import ClauseTemplates.Proofs.Redraft.Repeated
import ClauseTemplates.Proofs.Redraft.Reversible
import ClauseTemplates.Proofs.Redraft.Scopes
import ClauseTemplates.Proofs.Redraft.Slots
import ClauseTemplates.Proofs.Scan.Placed
import ClauseTemplates.Proofs.Scan.Reading
import ClauseTemplates.Proofs.Scan.Repeated
import ClauseTemplates.Proofs.Scan.Separated
import ClauseTemplates.Proofs.Schema.Placeholder
import ClauseTemplates.Proofs.Sharing.Inquires
import ClauseTemplates.Proofs.Sharing.Memo
import ClauseTemplates.Proofs.Sharing.Operations
import ClauseTemplates.Proofs.Template.Branches
import ClauseTemplates.Proofs.Template.Calculations
import ClauseTemplates.Proofs.Template.Every
import ClauseTemplates.Proofs.Template.Faultless
import ClauseTemplates.Proofs.Template.Level
import ClauseTemplates.Proofs.Template.Names
import ClauseTemplates.Proofs.Template.Numbered
import ClauseTemplates.Proofs.Template.Places
import ClauseTemplates.Proofs.Template.Typed
import ClauseTemplates.Proofs.Template.Typing
import ClauseTemplates.Proofs.Text.Front
import ClauseTemplates.Template
