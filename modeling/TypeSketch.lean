import TypeSketch.Binary64.Basic
import TypeSketch.Binary64.Text
import TypeSketch.Command.Arguments
import TypeSketch.Command.Error
import TypeSketch.Command.Inputs
import TypeSketch.Command.Request
import TypeSketch.Command.Run
import TypeSketch.Declaration
import TypeSketch.Digest
import TypeSketch.Error
import TypeSketch.Files.Disk
import TypeSketch.Files.Local
import TypeSketch.Files.Path
import TypeSketch.Files.Script
import TypeSketch.Glob.Pattern
import TypeSketch.Glob.Search
import TypeSketch.Imports
import TypeSketch.Json.Document
import TypeSketch.Json.Fault
import TypeSketch.Json.Lexical
import TypeSketch.Json.Number
import TypeSketch.Json.Quoted
import TypeSketch.Json.Typed
import TypeSketch.Json.Value
import TypeSketch.Main
import TypeSketch.NameSet
import TypeSketch.Naming
import TypeSketch.Proofs.Acceptance.Basic
import TypeSketch.Proofs.Acceptance.Exchange
import TypeSketch.Proofs.Acceptance.Inferred
import TypeSketch.Proofs.Command.ClassNames
import TypeSketch.Proofs.Command.StoreRuns
import TypeSketch.Proofs.Expansion.Basic
import TypeSketch.Proofs.Expansion.OfShape
import TypeSketch.Proofs.Expansion.ToShape
import TypeSketch.Proofs.Files.Disks
import TypeSketch.Proofs.Files.Faults
import TypeSketch.Proofs.Files.Paths
import TypeSketch.Proofs.Files.Reached
import TypeSketch.Proofs.Files.Scripts
import TypeSketch.Proofs.Json.Records
import TypeSketch.Proofs.Json.Written
import TypeSketch.Proofs.Lists.Delimited
import TypeSketch.Proofs.Lists.FirstOccurrences
import TypeSketch.Proofs.Lists.Related
import TypeSketch.Proofs.Lists.Tables
import TypeSketch.Proofs.Names.CamelCase
import TypeSketch.Proofs.Names.ChildNames
import TypeSketch.Proofs.Names.Commuting
import TypeSketch.Proofs.Names.Identifiers
import TypeSketch.Proofs.Names.NodeNames
import TypeSketch.Proofs.Names.Ordinals
import TypeSketch.Proofs.Names.Positions
import TypeSketch.Proofs.Names.Renaming
import TypeSketch.Proofs.Names.Suffixes
import TypeSketch.Proofs.Names.Tokens
import TypeSketch.Proofs.Names.WellNamed
import TypeSketch.Proofs.Render.Captures
import TypeSketch.Proofs.Render.Conflicts
import TypeSketch.Proofs.Render.Constructors
import TypeSketch.Proofs.Render.DeclarationText
import TypeSketch.Proofs.Render.Determined
import TypeSketch.Proofs.Render.Distinguished
import TypeSketch.Proofs.Render.FirstConflict
import TypeSketch.Proofs.Render.Forgetting
import TypeSketch.Proofs.Render.ImportStatements
import TypeSketch.Proofs.Render.Importable
import TypeSketch.Proofs.Render.Inlined
import TypeSketch.Proofs.Render.Literals
import TypeSketch.Proofs.Render.Mentioned
import TypeSketch.Proofs.Render.Payloads
import TypeSketch.Proofs.Render.Permuted
import TypeSketch.Proofs.Render.Reading
import TypeSketch.Proofs.Render.References
import TypeSketch.Proofs.Render.Repeated
import TypeSketch.Proofs.Render.Sequential
import TypeSketch.Proofs.Render.Sessions
import TypeSketch.Proofs.Render.Spelled
import TypeSketch.Proofs.Render.Symbols
import TypeSketch.Proofs.Render.Tabular
import TypeSketch.Proofs.Render.TypeText
import TypeSketch.Proofs.Render.Unions
import TypeSketch.Proofs.Render.Wrappers
import TypeSketch.Proofs.Shape.Canonical
import TypeSketch.Proofs.Shape.Height
import TypeSketch.Proofs.Shape.Stream
import TypeSketch.Proofs.Store.Commits
import TypeSketch.Proofs.Store.DeclarationLines
import TypeSketch.Proofs.Store.Directory
import TypeSketch.Proofs.Store.Equivalence
import TypeSketch.Proofs.Store.Faithful
import TypeSketch.Proofs.Store.Interleaved
import TypeSketch.Proofs.Store.Manifests
import TypeSketch.Proofs.Store.Ownership
import TypeSketch.Proofs.Store.Recorded
import TypeSketch.Proofs.Store.Runs
import TypeSketch.Proofs.Store.SignificantLines
import TypeSketch.Proofs.Strategies.Serialized
import TypeSketch.Proofs.Text.Lines
import TypeSketch.Proofs.Text.Literal
import TypeSketch.Proofs.Text.Paragraphs
import TypeSketch.Proofs.Tree.Agreement
import TypeSketch.Proofs.Tree.Aliases
import TypeSketch.Proofs.Tree.Builtin
import TypeSketch.Proofs.Tree.Coherence
import TypeSketch.Proofs.Tree.Collisions
import TypeSketch.Proofs.Tree.Corresponding
import TypeSketch.Proofs.Tree.Current
import TypeSketch.Proofs.Tree.Groups
import TypeSketch.Proofs.Tree.Inferred
import TypeSketch.Proofs.Tree.Layered
import TypeSketch.Proofs.Tree.Mapped
import TypeSketch.Proofs.Tree.MergedShapes
import TypeSketch.Proofs.Tree.Merging
import TypeSketch.Proofs.Tree.Nodes
import TypeSketch.Proofs.Tree.NormalForm
import TypeSketch.Proofs.Tree.Numbering
import TypeSketch.Proofs.Tree.Parts
import TypeSketch.Proofs.Tree.Refused
import TypeSketch.Proofs.Tree.Registered
import TypeSketch.Proofs.Tree.Registrations
import TypeSketch.Proofs.Tree.Reordered
import TypeSketch.Proofs.Tree.Siblings
import TypeSketch.Proofs.Tree.Tabular
import TypeSketch.Proofs.Tree.TokenNames
import TypeSketch.Proofs.Tree.Unmerged
import TypeSketch.Proofs.Value.Keys
import TypeSketch.Render.Module
import TypeSketch.Render.Session
import TypeSketch.Render.Spelling
import TypeSketch.Shape.Basic
import TypeSketch.Shape.Canonical
import TypeSketch.Shape.Digest
import TypeSketch.Store.Basic
import TypeSketch.Store.Equivalence
import TypeSketch.Store.Manifest
import TypeSketch.Store.Stub
import TypeSketch.Strategies.Basic
import TypeSketch.Strategies.Format
import TypeSketch.Text.Diagnostic
import TypeSketch.Text.Lines
import TypeSketch.Text.Literal
import TypeSketch.Text.Utf8
import TypeSketch.Time.Instant
import TypeSketch.Time.Reader
import TypeSketch.Tree.Basic
import TypeSketch.Tree.Inference
import TypeSketch.Tree.Merge
import TypeSketch.Tree.Registry
import TypeSketch.Tree.Siblings
import TypeSketch.TypeExpr
import TypeSketch.Unicode.Classes
import TypeSketch.Unicode.IdentifierContinue
import TypeSketch.Unicode.IdentifierStart
import TypeSketch.Unicode.Unprintable
import TypeSketch.Unicode.Uppercase
import TypeSketch.Value.Basic
