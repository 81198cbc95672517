import Blockscribe.About
import Blockscribe.Assoc
import Blockscribe.Block
import Blockscribe.Comment
import Blockscribe.Definitions
import Blockscribe.Dialect.Basic
import Blockscribe.Dialect.Reserved
import Blockscribe.Fault
import Blockscribe.Generate
import Blockscribe.Handler.Index
import Blockscribe.Handler.Lists
import Blockscribe.Handler.Logic
import Blockscribe.Handler.Procedures
import Blockscribe.Handler.Recipe
import Blockscribe.Handler.Standard
import Blockscribe.Handler.Texts
import Blockscribe.Handler.Variables
import Blockscribe.HandlerSet
import Blockscribe.Json.Reader
import Blockscribe.Json.Writer
import Blockscribe.Log
import Blockscribe.Main
import Blockscribe.Name.Safe
import Blockscribe.Name.Table
import Blockscribe.Number.Decimal
import Blockscribe.Number.Double
import Blockscribe.Number.Extent
import Blockscribe.Number.Reading
import Blockscribe.Plan
import Blockscribe.Program.Assembly
import Blockscribe.Program.Layout
import Blockscribe.Rank
import Blockscribe.Render
import Blockscribe.Run
import Blockscribe.Session
import Blockscribe.Settings.Basic
import Blockscribe.Settings.Logging
import Blockscribe.Settings.Store
import Blockscribe.Style
import Blockscribe.Text.Blank
import Blockscribe.Text.Digit
import Blockscribe.Text.Lines
import Blockscribe.Text.Lowercase
import Blockscribe.Text.Printable
import Blockscribe.Text.Quoted
import Blockscribe.Text.Ranges
import Blockscribe.Text.Replace
import Blockscribe.Text.Shown
import Blockscribe.Text.WordChar
import Blockscribe.Text.Wrap
import Blockscribe.Value
import Blockscribe.Workbench
import Blockscribe.Workspace
import Blockscribe.Yaml.Plain
import Blockscribe.Yaml.Reader
import Blockscribe.Yaml.Writer
import Blockscribe.Proofs.Name.Choice
import Blockscribe.Proofs.Name.History
import Blockscribe.Proofs.Workspace.Edits
import Blockscribe.Proofs.Workspace.Forest
import Blockscribe.Proofs.Plan.Faults
import Blockscribe.Proofs.Plan.Meets
import Blockscribe.Proofs.Handler.Slips
import Blockscribe.Proofs.Handler.Faults
import Blockscribe.Proofs.Handler.Registry
import Blockscribe.Proofs.Render.Depth
import Blockscribe.Proofs.Render.Outcome
import Blockscribe.Proofs.Grammar.Lex
import Blockscribe.Proofs.Grammar.Regroup
import Blockscribe.Proofs.Number.Bounded
import Blockscribe.Proofs.Number.Digits
import Blockscribe.Proofs.Number.Foreign
import Blockscribe.Proofs.Number.Numeral
import Blockscribe.Proofs.Render.Tree
import Blockscribe.Proofs.Render.Operand
import Blockscribe.Proofs.Render.Comments
import Blockscribe.Proofs.Render.Grouping
import Blockscribe.Proofs.Grammar.Sound
import Blockscribe.Proofs.Grammar.Bare
import Blockscribe.Proofs.Render.Bare
import Blockscribe.Proofs.Render.Comparisons
import Blockscribe.Proofs.Render.Choices
import Blockscribe.Proofs.Run.Refine
import Blockscribe.Proofs.Workspace.Mirror
import Blockscribe.Proofs.Render.Mirror
import Blockscribe.Proofs.Workspace.Bypass
import Blockscribe.Proofs.Workspace.Apart
import Blockscribe.Proofs.Render.Disabled
import Blockscribe.Proofs.Text.CodeLines
import Blockscribe.Proofs.Program.Tidy
import Blockscribe.Proofs.Plan.Yields
import Blockscribe.Proofs.Handler.Alike
import Blockscribe.Proofs.Number.Width
import Blockscribe.Proofs.Render.Remarks
import Blockscribe.Proofs.Workspace.Silent
import Blockscribe.Proofs.Settings.Style
import Blockscribe.Proofs.Render.Silent
import Blockscribe.Proofs.Program.SolidLines
import Blockscribe.Proofs.Render.Chain
import Blockscribe.Proofs.Workspace.Unplug
import Blockscribe.Proofs.Render.Plugged
import Blockscribe.Proofs.Plan.Ensures
import Blockscribe.Proofs.Render.Whole
import Blockscribe.Proofs.Render.Bodies
import Blockscribe.Proofs.Plan.Exchanges
import Blockscribe.Proofs.Plan.Tells
import Blockscribe.Proofs.Handler.Tells
import Blockscribe.Proofs.Run.Later
import Blockscribe.Proofs.Render.Advances
import Blockscribe.Proofs.Render.Reaches
import Blockscribe.Proofs.Name.Hints
import Blockscribe.Proofs.Run.Definitions
import Blockscribe.Proofs.Program.Course
import Blockscribe.Proofs.Program.Names
import Blockscribe.Proofs.Program.Variables
import Blockscribe.Proofs.Handler.Imports
import Blockscribe.Proofs.Program.Routines
import Blockscribe.Proofs.Text.Literal
import Blockscribe.Proofs.Program.Sturdy
import Blockscribe.Proofs.Render.Bears
import Blockscribe.Proofs.Program.Literals
import Blockscribe.Proofs.Session.Built
import Blockscribe.Proofs.Session.Isolated
import Blockscribe.Proofs.Number.Whole
import Blockscribe.Proofs.Access.Reader
import Blockscribe.Proofs.Access.Sequence
import Blockscribe.Proofs.Access.Position
import Blockscribe.Proofs.Access.Part
import Blockscribe.Proofs.Access.Element
import Blockscribe.Proofs.Render.Ends
import Blockscribe.Proofs.Program.Endings
import Blockscribe.Proofs.Program.Procedures
import Blockscribe.Proofs.Program.Kinds
import Blockscribe.Proofs.Program.Indents
import Blockscribe.Proofs.Program.Canonical
import Blockscribe.Proofs.Assoc
import Blockscribe.Proofs.Workspace.Roots
import Blockscribe.Proofs.Workbench.Holding
import Blockscribe.Proofs.Workbench.Index
import Blockscribe.Proofs.Workbench.Edits
import Blockscribe.Proofs.Definitions.Journal
import Blockscribe.Proofs.Text.Words
import Blockscribe.Proofs.Text.Docstring
import Blockscribe.Proofs.Render.Docstrings
import Blockscribe.Proofs.Text.Quoted
import Blockscribe.Proofs.Number.Exact
import Blockscribe.Proofs.Number.RoundTrip
import Blockscribe.Proofs.Access.Folding
import Blockscribe.Proofs.Grammar.Amount
import Blockscribe.Proofs.Render.Repetition
import Blockscribe.Proofs.Joined.Reader
import Blockscribe.Proofs.Joined.Part
import Blockscribe.Proofs.Joined.Value
import Blockscribe.Proofs.Joined.Concatenation
import Blockscribe.Proofs.Name.Search
import Blockscribe.Proofs.Handler.Additions
import Blockscribe.Proofs.Text.Wrapped
import Blockscribe.Proofs.Definitions.Template
import Blockscribe.Proofs.Program.Collapsed
import Blockscribe.Proofs.Program.Tidied
import Blockscribe.Proofs.Json.Text
import Blockscribe.Proofs.Json.RoundTrip
import Blockscribe.Proofs.Settings.Saved
import Blockscribe.Proofs.Text.Led
import Blockscribe.Proofs.Name.Encoded
