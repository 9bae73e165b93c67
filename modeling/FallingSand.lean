import FallingSand.Board.Basic
import FallingSand.Board.Grid
import FallingSand.Board.Snapshot
import FallingSand.CommandLine.Arguments
import FallingSand.CommandLine.Session
import FallingSand.CommandLine.Stroke
import FallingSand.CommandLine.Trouble
import FallingSand.Config.Basic
import FallingSand.Config.Environment
import FallingSand.Config.File
import FallingSand.Data.Table
import FallingSand.Engine.Action
import FallingSand.Engine.Effect
import FallingSand.Engine.Matching
import FallingSand.Engine.Movement
import FallingSand.Engine.Orientation
import FallingSand.Engine.Tick
import FallingSand.Expr.Arithmetic
import FallingSand.Expr.Basic
import FallingSand.Expr.Code
import FallingSand.Expr.Evaluation
import FallingSand.Expr.Formula
import FallingSand.Expr.Formula.Reader
import FallingSand.Expr.Range
import FallingSand.Expr.Token
import FallingSand.Files.Path
import FallingSand.Files.Reading
import FallingSand.Files.Tree
import FallingSand.Geometry.Vec
import FallingSand.Number.Decimal
import FallingSand.Number.Fused
import FallingSand.Number.Logarithm
import FallingSand.Number.Remainder
import FallingSand.Number.Rounding
import FallingSand.Number.Shortest
import FallingSand.Random.ChaCha
import FallingSand.Random.Draw
import FallingSand.Random.Source
import FallingSand.Report.Image
import FallingSand.Report.ImageFile
import FallingSand.Report.Png
import FallingSand.Report.Text
import FallingSand.Script.Atoms
import FallingSand.Script.Builder
import FallingSand.Script.Compile
import FallingSand.Script.Error
import FallingSand.Script.Line
import FallingSand.Script.Rules
import FallingSand.Script.Statement
import FallingSand.Simulation.Basic
import FallingSand.Simulation.Placement
import FallingSand.Simulation.Render
import FallingSand.Simulation.Worker
import FallingSand.Text.Blank
import FallingSand.Text.Quoted
import FallingSand.Text.Scanner
import FallingSand.Text.Split
import FallingSand.Text.Visible
import FallingSand.Toml.Document
import FallingSand.Toml.Node
import FallingSand.Toml.Value
import FallingSand.World.Atom
import FallingSand.World.Basic
import FallingSand.World.Color
import FallingSand.World.Rule
import FallingSand.World.Symbol
import FallingSand.Main
import FallingSand.Proofs.Board.Snapshot
import FallingSand.Proofs.Board.Tiles
import FallingSand.Proofs.Board.LockedTiles
import FallingSand.Proofs.Board.Locks
import FallingSand.Proofs.Board.FlatArray
import FallingSand.Proofs.Board.Covering
import FallingSand.Proofs.Engine.Coupling
import FallingSand.Proofs.Engine.Link
import FallingSand.Proofs.Engine.LinkedRules
import FallingSand.Proofs.Engine.LinkedTicks
import FallingSand.Proofs.Script.Drafts
import FallingSand.Proofs.Script.Lines
import FallingSand.Proofs.World.Reach
import FallingSand.Proofs.Script.Closure
import FallingSand.Proofs.Script.Shape
import FallingSand.Proofs.Script.WellFormed
import FallingSand.Proofs.Script.Numbering
import FallingSand.Proofs.Engine.Locality
import FallingSand.Proofs.Simulation.Flat
import FallingSand.Proofs.Simulation.Reachable
import FallingSand.Proofs.Simulation.Refinement
import FallingSand.Proofs.Simulation.Apart
import FallingSand.Proofs.World.Typing
import FallingSand.Proofs.Simulation.Closed
import FallingSand.Proofs.Engine.Boxes
import FallingSand.Proofs.Engine.Mirror
import FallingSand.Proofs.Engine.Conservation
import FallingSand.Proofs.Script.Layout
import FallingSand.Proofs.Script.Registers
import FallingSand.Proofs.Script.Following
import FallingSand.Proofs.Script.Coherence
import FallingSand.Proofs.Engine.Completing
import FallingSand.Proofs.Simulation.Typed
import FallingSand.Proofs.Simulation.Brushing
import FallingSand.Proofs.Script.References
import FallingSand.Proofs.Engine.Overwriting
import FallingSand.Proofs.Script.Retuning
import FallingSand.Proofs.Script.Heirs
import FallingSand.Proofs.Script.Lockstep
import FallingSand.Proofs.Script.Recompiling
import FallingSand.Proofs.Script.Blocks
import FallingSand.Proofs.Script.BlockRules
import FallingSand.Proofs.Script.Inheriting
import FallingSand.Proofs.Script.Repeating
import FallingSand.Proofs.Script.Gathering
import FallingSand.Proofs.Script.Unresolved
import FallingSand.Proofs.Script.Renumbering
import FallingSand.Proofs.Script.LineNumbers
import FallingSand.Proofs.Simulation.Clearing
import FallingSand.Proofs.Script.PlainLines
import FallingSand.Proofs.Script.Declaring
import FallingSand.Proofs.Script.AtomTable
import FallingSand.Proofs.Engine.Neighborhood
import FallingSand.Proofs.Engine.Fitting
import FallingSand.Proofs.Engine.Assigning
import FallingSand.Proofs.Engine.Course
import FallingSand.Proofs.Engine.Swapping
import FallingSand.Proofs.Text.Trimming
import FallingSand.Proofs.Text.Scanning
import FallingSand.Proofs.Text.Splitting
import FallingSand.Proofs.Number.Numerals
import FallingSand.Proofs.Expr.Tokens
import FallingSand.Proofs.Expr.Brackets
import FallingSand.Proofs.Script.Words
import FallingSand.Proofs.Script.Targets
import FallingSand.Proofs.Script.Coordinates
import FallingSand.Proofs.Expr.Renaming
import FallingSand.Proofs.Expr.Templates
import FallingSand.Proofs.Expr.Reading
import FallingSand.Proofs.Expr.Parsing
import FallingSand.Proofs.Expr.OwnNames
import FallingSand.Proofs.Expr.Binding
import FallingSand.Proofs.Expr.BareNames
import FallingSand.Proofs.Script.Comments
import FallingSand.Proofs.Script.Sets
import FallingSand.Proofs.Engine.PropertySteps
import FallingSand.Proofs.Script.PatternRows
import FallingSand.Proofs.Script.Patterns
import FallingSand.Proofs.CommandLine.Strokes
import FallingSand.Proofs.CommandLine.Overriding
import FallingSand.Proofs.Board.Listing
import FallingSand.Proofs.Simulation.Observing
import FallingSand.Proofs.Script.AtomSteps
import FallingSand.Proofs.Script.ColorLines
import FallingSand.Proofs.Simulation.Pixels
import FallingSand.Proofs.Script.Preloading
import FallingSand.Proofs.Script.TopLevel
