import ProtoFront.Token.Lexer
import ProtoFront.Tree.Printer
import ProtoFront.Tree.Verify
import ProtoFront.Tree.Walk
import ProtoFront.Diagnostic.Basic
import ProtoFront.Parse.State
import ProtoFront.Parse.Recovery
import ProtoFront.Parse.Declarations
import ProtoFront.Parse.Fields
import ProtoFront.Parse.Files
import ProtoFront.Parse.Names
import ProtoFront.Parse.Options
import ProtoFront.Parse.Values
import ProtoFront.Parse.Run
import ProtoFront.Diagnostic.Json
import ProtoFront.Tree.Json
import ProtoFront.Diagnostic.Report
import ProtoFront.FileStore.Basic
import ProtoFront.FileStore.Memory
import ProtoFront.Import.Graph
import ProtoFront.Import.Literal
import ProtoFront.Import.Search
import ProtoFront.Import.Statement
import ProtoFront.Bundle.Problem
import ProtoFront.Symbol.Collect
import ProtoFront.Symbol.Lookup
import ProtoFront.Bundle.File
import ProtoFront.Bundle.Load
import ProtoFront.Bundle.Resolve
import ProtoFront.Json.Number
import ProtoFront.Json.Token
import ProtoFront.Config
import ProtoFront.FileStore.Disk
import ProtoFront.FileStore.Walk
import ProtoFront.Command.Arguments
import ProtoFront.Command.Check
import ProtoFront.Command.Resolve
import ProtoFront.Command.Run
import ProtoFront.Command.Wanted
import ProtoFront.Main
import ProtoFront.Proofs.Parse.Coverage
import ProtoFront.Proofs.Parse.Scopes
import ProtoFront.Proofs.Parse.Tiling
import ProtoFront.Proofs.Parse.Reports
import ProtoFront.Proofs.Recovery.Message
import ProtoFront.Proofs.Grammar.Rules
import ProtoFront.Proofs.Grammar.Words
import ProtoFront.Proofs.Grammar.Owed
import ProtoFront.Proofs.Grammar.First
import ProtoFront.Proofs.Grammar.Names
import ProtoFront.Proofs.Grammar.Options
import ProtoFront.Proofs.Grammar.Values
import ProtoFront.Proofs.Grammar.Fields
import ProtoFront.Proofs.Grammar.Statements
import ProtoFront.Proofs.Grammar.Declarations
import ProtoFront.Proofs.Grammar.Bodies
import ProtoFront.Proofs.Grammar.Acceptance
import ProtoFront.Proofs.Likeness.Basic
import ProtoFront.Proofs.Likeness.Moves
import ProtoFront.Proofs.Likeness.Recovery
import ProtoFront.Proofs.Likeness.Names
import ProtoFront.Proofs.Likeness.Statements
import ProtoFront.Proofs.Likeness.Options
import ProtoFront.Proofs.Likeness.Values
import ProtoFront.Proofs.Likeness.Fields
import ProtoFront.Proofs.Likeness.Declarations
import ProtoFront.Proofs.Likeness.Steps
import ProtoFront.Proofs.Likeness.Buffers
import ProtoFront.Proofs.Parse.Frames
import ProtoFront.Proofs.Parse.Leads
import ProtoFront.Proofs.Parse.Anchors
import ProtoFront.Proofs.Likeness.Endings
import ProtoFront.Proofs.Likeness.Passages
import ProtoFront.Proofs.Likeness.Blocks
import ProtoFront.Proofs.Likeness.Bodies
import ProtoFront.Proofs.Likeness.Excerpts
import ProtoFront.Proofs.Grammar.Refusals
import ProtoFront.Proofs.Path.Folding
import ProtoFront.Proofs.Token.Breaks
import ProtoFront.Proofs.Token.Places
import ProtoFront.Proofs.Token.Lexemes
import ProtoFront.Proofs.Token.Joining
import ProtoFront.Proofs.Token.Spacing
import ProtoFront.Proofs.Token.Rules
import ProtoFront.Proofs.Likeness.Sequences
import ProtoFront.Proofs.Likeness.Embedding
import ProtoFront.Proofs.Likeness.Layouts
import ProtoFront.Proofs.Composition.Pieces
import ProtoFront.Proofs.Composition.Rules
import ProtoFront.Proofs.Composition.Moves
import ProtoFront.Proofs.Composition.Recovery
import ProtoFront.Proofs.Composition.Names
import ProtoFront.Proofs.Composition.Options
import ProtoFront.Proofs.Composition.Values
import ProtoFront.Proofs.Composition.Fields
import ProtoFront.Proofs.Composition.Declarations
import ProtoFront.Proofs.Composition.Statements
import ProtoFront.Proofs.Composition.Trees
import ProtoFront.Proofs.Tree.Separators
import ProtoFront.Proofs.Parse.Texts
import ProtoFront.Proofs.Composition.Separators
import ProtoFront.Proofs.Composition.Messages
import ProtoFront.Proofs.Token.Lossless
import ProtoFront.Proofs.Parse.Order
import ProtoFront.Proofs.Parse.Positions
import ProtoFront.Proofs.Likeness.Comments
import ProtoFront.Proofs.Parse.Telling
import ProtoFront.Proofs.Parse.Once
import ProtoFront.Proofs.Import.Named
import ProtoFront.Proofs.Bundle.Closure
import ProtoFront.Proofs.Parse.Building
import ProtoFront.Proofs.Parse.CommonGoals
import ProtoFront.Proofs.Parse.Packages
import ProtoFront.Proofs.Symbol.Names
import ProtoFront.Proofs.Tree.Walks
import ProtoFront.Proofs.Symbol.Scopes
import ProtoFront.Proofs.Symbol.Collect
import ProtoFront.Proofs.Symbol.Package
import ProtoFront.Proofs.Bundle.Visibility
import ProtoFront.Proofs.Symbol.Table
import ProtoFront.Proofs.Symbol.Order
import ProtoFront.Proofs.Symbol.Clashes
import ProtoFront.Proofs.Bundle.Files
import ProtoFront.Proofs.Bundle.Resolution
import ProtoFront.Proofs.Bundle.Isolation
import ProtoFront.Proofs.Tree.Decoding
import ProtoFront.Proofs.Symbol.Lookup
import ProtoFront.Proofs.Import.Walk
import ProtoFront.Proofs.Import.RoundTrips
import ProtoFront.Proofs.Import.Following
import ProtoFront.Proofs.Import.Cycles
import ProtoFront.Proofs.Bundle.Exports
import ProtoFront.Proofs.Import.Importers
import ProtoFront.Proofs.Tree.Preorder
import ProtoFront.Proofs.Import.Written
import ProtoFront.Proofs.Token.Words
import ProtoFront.Proofs.Symbol.Spellings
import ProtoFront.Proofs.Bundle.Containers
import ProtoFront.Proofs.FileStore.Memory
import ProtoFront.Proofs.Recovery.Skips
import ProtoFront.Proofs.Parse.Guard
