import Shorthand.Main
import Shorthand.Window
import Shorthand.Proofs.Markup.Outline
import Shorthand.Proofs.Markup.Outline.Tokens
import Shorthand.Proofs.Markup.Outline.Statements
import Shorthand.Proofs.Markup.Outline.RoundTrip
import Shorthand.Proofs.Markup.Verbatim
import Shorthand.Proofs.Markup.BracedText
import Shorthand.Proofs.Markup.Html.Layout
import Shorthand.Proofs.Output.Stream
import Shorthand.Proofs.Output.Counters
import Shorthand.Proofs.Output.Numbering
import Shorthand.Proofs.Stylesheet.Search
import Shorthand.Proofs.Stylesheet.Tally
import Shorthand.Proofs.Stylesheet.Score
import Shorthand.Proofs.Stylesheet.FullNames
import Shorthand.Proofs.Stylesheet.Leftover
import Shorthand.Proofs.Stylesheet.Unmatched
import Shorthand.Proofs.Stylesheet.RawText
import Shorthand.Proofs.Markup.Html.Tags
import Shorthand.Proofs.Markup.Html.TagRoundTrip
import Shorthand.Proofs.Text.Pairing
import Shorthand.Proofs.Text.Run
import Shorthand.Proofs.Span
import Shorthand.Proofs.FieldMark
import Shorthand.Proofs.Markup.TokenCover
import Shorthand.Proofs.Stylesheet.TokenCover
import Shorthand.Proofs.Markup.Budget.Meter
import Shorthand.Proofs.Markup.Budget.Overdraft
import Shorthand.Proofs.Markup.Budget
import Shorthand.Proofs.Markup.RepeatStack
import Shorthand.Proofs.Stylesheet.Plain
import Shorthand.Proofs.Stylesheet.Plain.Atoms
import Shorthand.Proofs.Stylesheet.Plain.Tokens
import Shorthand.Proofs.Stylesheet.Plain.Fragments
import Shorthand.Proofs.Stylesheet.Plain.RoundTrip
import Shorthand.Proofs.Markup.Preorder
import Shorthand.Proofs.Markup.Likeness
import Shorthand.Proofs.Markup.Wrapping.Wrapper
import Shorthand.Proofs.Markup.Wrapping
import Shorthand.Proofs.Markup.RepeatNumbers.Items
import Shorthand.Proofs.Markup.RepeatNumbers
import Shorthand.Proofs.Markup.Merging
import Shorthand.Proofs.Markup.Merging.Occurrences
import Shorthand.Proofs.Markup.Gluing
import Shorthand.Proofs.Markup.Gluing.Reading
import Shorthand.Proofs.Markup.Resolution.Step
import Shorthand.Proofs.Markup.Resolution.OwnElements
import Shorthand.Proofs.Markup.Gluing.Stages
import Shorthand.Proofs.Markup.Resolution.Machine
import Shorthand.Proofs.Markup.Resolution.Callers
import Shorthand.Proofs.Markup.Numbering
import Shorthand.Proofs.Markup.Filler.Names
import Shorthand.Proofs.Markup.Filler.Sentences
import Shorthand.Proofs.Markup.Filler.Words
import Shorthand.Proofs.Markup.Filler
import Shorthand.Proofs.Output.Tabstop
import Shorthand.Proofs.Stylesheet.Tabstops
import Shorthand.Proofs.Markup.AttributeNames
import Shorthand.Proofs.Markup.BlockNames.Notation
import Shorthand.Proofs.Markup.BlockNames.Unique
import Shorthand.Proofs.Markup.BlockNames.Writing
import Shorthand.Proofs.Markup.BlockNames.Splitting
import Shorthand.Proofs.Markup.BlockNames.Settling
import Shorthand.Proofs.Text.Edges
import Shorthand.Proofs.Markup.BlockNames.ClassList
import Shorthand.Proofs.Markup.BlockNames
import Shorthand.Proofs.Stylesheet.Dependents
import Shorthand.Proofs.Stylesheet.Contents
import Shorthand.Proofs.Text.Lines
import Shorthand.Proofs.Output.BegunLines
import Shorthand.Proofs.Markup.Indented.Lines
import Shorthand.Proofs.Markup.Indented.Entries
import Shorthand.Proofs.Markup.Indented.Leads
import Shorthand.Proofs.Markup.Indented.Headers
import Shorthand.Proofs.Markup.Statement.Findings
import Shorthand.Proofs.Markup.Statement.Contents
import Shorthand.Proofs.Markup.Statement.Grammar
import Shorthand.Proofs.Markup.Statement.Acceptance
import Shorthand.Proofs.Markup.Chain
import Shorthand.Proofs.Markup.Chain.Depths
import Shorthand.Proofs.Faults
