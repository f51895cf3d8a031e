import HtmlTemplate.Builtin.Basic
import HtmlTemplate.Builtin.Date
import HtmlTemplate.Builtin.Group
import HtmlTemplate.Builtin.Math
import HtmlTemplate.Builtin.Number
import HtmlTemplate.Builtin.Text
import HtmlTemplate.Calendar.Basic
import HtmlTemplate.Calendar.Reader
import HtmlTemplate.CommandLine
import HtmlTemplate.Component.Resolver
import HtmlTemplate.Data.Basic
import HtmlTemplate.Data.Coercion
import HtmlTemplate.Data.Json
import HtmlTemplate.Data.Json.Form
import HtmlTemplate.Data.Path
import HtmlTemplate.File.Fault
import HtmlTemplate.File.Path
import HtmlTemplate.File.Tree
import HtmlTemplate.Main
import HtmlTemplate.Markup.Asset
import HtmlTemplate.Markup.Call
import HtmlTemplate.Markup.Escape
import HtmlTemplate.Markup.Reference
import HtmlTemplate.Markup.Tag
import HtmlTemplate.Number.Decimal
import HtmlTemplate.Number.Double
import HtmlTemplate.Proofs.Assets.Account
import HtmlTemplate.Proofs.Assets.Events
import HtmlTemplate.Proofs.Assets.Faults
import HtmlTemplate.Proofs.Assets.Frames
import HtmlTemplate.Proofs.Assets.Page
import HtmlTemplate.Proofs.Assets.Place
import HtmlTemplate.Proofs.Assets.Served
import HtmlTemplate.Proofs.Assets.Updates
import HtmlTemplate.Proofs.Calendar.Civil
import HtmlTemplate.Proofs.Calendar.Dates
import HtmlTemplate.Proofs.Calendar.Getters
import HtmlTemplate.Proofs.Data.Comparison
import HtmlTemplate.Proofs.Data.Integers
import HtmlTemplate.Proofs.Data.Numerals
import HtmlTemplate.Proofs.Data.Paths
import HtmlTemplate.Proofs.Data.Places
import HtmlTemplate.Proofs.Loop.Heads
import HtmlTemplate.Proofs.Loop.Unrolling
import HtmlTemplate.Proofs.Markup.Agreement
import HtmlTemplate.Proofs.Markup.Amid
import HtmlTemplate.Proofs.Markup.Arguments
import HtmlTemplate.Proofs.Markup.Entities
import HtmlTemplate.Proofs.Markup.Escaping
import HtmlTemplate.Proofs.Markup.Fragments
import HtmlTemplate.Proofs.Markup.Integers
import HtmlTemplate.Proofs.Markup.Marks
import HtmlTemplate.Proofs.Markup.Originals
import HtmlTemplate.Proofs.Markup.Phrases
import HtmlTemplate.Proofs.Markup.References
import HtmlTemplate.Proofs.Number.Conversion
import HtmlTemplate.Proofs.Number.Nearest
import HtmlTemplate.Proofs.Number.Unpacking
import HtmlTemplate.Proofs.Raw.Bags
import HtmlTemplate.Proofs.Raw.Builtins
import HtmlTemplate.Proofs.Raw.Evaluation
import HtmlTemplate.Proofs.Raw.Forgery
import HtmlTemplate.Proofs.Raw.Markup
import HtmlTemplate.Proofs.Raw.Plain
import HtmlTemplate.Proofs.Raw.Reach
import HtmlTemplate.Proofs.Raw.Rendering
import HtmlTemplate.Proofs.Raw.Scripts
import HtmlTemplate.Proofs.Raw.Source
import HtmlTemplate.Proofs.Raw.Values
import HtmlTemplate.Proofs.Render.Activities
import HtmlTemplate.Proofs.Render.Balance
import HtmlTemplate.Proofs.Render.Branching
import HtmlTemplate.Proofs.Render.Conditions
import HtmlTemplate.Proofs.Render.Contents
import HtmlTemplate.Proofs.Render.Copying
import HtmlTemplate.Proofs.Render.Coupling
import HtmlTemplate.Proofs.Render.Depth
import HtmlTemplate.Proofs.Render.DepthLimit
import HtmlTemplate.Proofs.Render.Fidelity
import HtmlTemplate.Proofs.Render.Importing
import HtmlTemplate.Proofs.Render.Levels
import HtmlTemplate.Proofs.Render.Lockstep
import HtmlTemplate.Proofs.Render.Origin
import HtmlTemplate.Proofs.Render.Parentheses
import HtmlTemplate.Proofs.Render.RawPlacement
import HtmlTemplate.Proofs.Render.Reading
import HtmlTemplate.Proofs.Render.ServedBody
import HtmlTemplate.Proofs.Render.Setup
import HtmlTemplate.Proofs.Render.Slots
import HtmlTemplate.Proofs.Render.Substitution
import HtmlTemplate.Proofs.Render.Templates
import HtmlTemplate.Proofs.Render.Termination
import HtmlTemplate.Proofs.Render.Verbatim
import HtmlTemplate.Proofs.Render.Walk
import HtmlTemplate.Proofs.Render.Writing
import HtmlTemplate.Proofs.Result
import HtmlTemplate.Proofs.Script.Alignment
import HtmlTemplate.Proofs.Script.Appending
import HtmlTemplate.Proofs.Script.Assigning
import HtmlTemplate.Proofs.Script.Binding
import HtmlTemplate.Proofs.Script.Bodies
import HtmlTemplate.Proofs.Script.CallDepth
import HtmlTemplate.Proofs.Script.Clinging
import HtmlTemplate.Proofs.Script.Containment
import HtmlTemplate.Proofs.Script.Course
import HtmlTemplate.Proofs.Script.Evaluations
import HtmlTemplate.Proofs.Script.Extents
import HtmlTemplate.Proofs.Script.FailedAssignment
import HtmlTemplate.Proofs.Script.Failures
import HtmlTemplate.Proofs.Script.Grammar
import HtmlTemplate.Proofs.Script.Lexemes
import HtmlTemplate.Proofs.Script.Locating
import HtmlTemplate.Proofs.Script.Mirroring
import HtmlTemplate.Proofs.Script.Neighbours
import HtmlTemplate.Proofs.Script.Nesting
import HtmlTemplate.Proofs.Script.Packing
import HtmlTemplate.Proofs.Script.Parentheses
import HtmlTemplate.Proofs.Script.Passages
import HtmlTemplate.Proofs.Script.Pieces
import HtmlTemplate.Proofs.Script.Printing
import HtmlTemplate.Proofs.Script.Reading
import HtmlTemplate.Proofs.Script.Relexing
import HtmlTemplate.Proofs.Script.RoundTrip
import HtmlTemplate.Proofs.Script.Spelling
import HtmlTemplate.Proofs.Script.StatementGrammar
import HtmlTemplate.Proofs.Script.Statements
import HtmlTemplate.Proofs.Script.Targets
import HtmlTemplate.Proofs.Script.Traversal
import HtmlTemplate.Proofs.Script.Updating
import HtmlTemplate.Proofs.Session.Arena
import HtmlTemplate.Proofs.Session.Atomicity
import HtmlTemplate.Proofs.Session.Chains
import HtmlTemplate.Proofs.Session.Completion
import HtmlTemplate.Proofs.Session.Cycles
import HtmlTemplate.Proofs.Session.Evolution
import HtmlTemplate.Proofs.Session.Growth
import HtmlTemplate.Proofs.Session.History
import HtmlTemplate.Proofs.Session.Hoisting
import HtmlTemplate.Proofs.Session.Independence
import HtmlTemplate.Proofs.Session.Preamble
import HtmlTemplate.Proofs.Session.Rendering
import HtmlTemplate.Proofs.Session.Soundness
import HtmlTemplate.Proofs.Source.Brackets
import HtmlTemplate.Proofs.Source.Conditional
import HtmlTemplate.Proofs.Source.Declaration
import HtmlTemplate.Proofs.Source.Enclosing
import HtmlTemplate.Proofs.Source.Iteration
import HtmlTemplate.Proofs.Source.Modes
import HtmlTemplate.Proofs.Source.Pieces
import HtmlTemplate.Proofs.Source.Positions
import HtmlTemplate.Proofs.Source.Reporting
import HtmlTemplate.Proofs.Source.Spaces
import HtmlTemplate.Proofs.Source.Steps
import HtmlTemplate.Proofs.Source.Tags
import HtmlTemplate.Proofs.Source.Tiling
import HtmlTemplate.Proofs.Text.Bytes
import HtmlTemplate.Proofs.Text.Slices
import HtmlTemplate.Render.Body
import HtmlTemplate.Render.Context
import HtmlTemplate.Render.Error
import HtmlTemplate.Render.Options
import HtmlTemplate.Render.Page
import HtmlTemplate.Render.Reading
import HtmlTemplate.Render.Scope
import HtmlTemplate.Render.Session
import HtmlTemplate.Render.Setup
import HtmlTemplate.Render.Step
import HtmlTemplate.Render.Work
import HtmlTemplate.Script.EvalError
import HtmlTemplate.Script.Evaluation
import HtmlTemplate.Script.Function
import HtmlTemplate.Script.Lexer
import HtmlTemplate.Script.Locals
import HtmlTemplate.Script.Operators
import HtmlTemplate.Script.Parser
import HtmlTemplate.Script.Token
import HtmlTemplate.Script.Tree
import HtmlTemplate.Source.Cursor
import HtmlTemplate.Source.Lexeme
import HtmlTemplate.Source.Location
import HtmlTemplate.Source.Scanner
import HtmlTemplate.Source.Stream
import HtmlTemplate.Source.Token
import HtmlTemplate.Text.Blank
import HtmlTemplate.Text.Letter
import HtmlTemplate.Text.LetterCase
import HtmlTemplate.Text.Quoted
import HtmlTemplate.Text.Search
