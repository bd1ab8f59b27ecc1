import DocHarvest.Command.Arguments
import DocHarvest.Command.Generate
import DocHarvest.Command.Options
import DocHarvest.Command.Program
import DocHarvest.Command.Reach
import DocHarvest.Comment.Index
import DocHarvest.Comment.Search
import DocHarvest.Comment.Text
import DocHarvest.Doc.Link
import DocHarvest.Doc.Sentence
import DocHarvest.Doc.Synopsis
import DocHarvest.Doc.View
import DocHarvest.Harvest.Basic
import DocHarvest.Harvest.CommentMap
import DocHarvest.Harvest.Walk
import DocHarvest.Host.Access
import DocHarvest.Host.Disk
import DocHarvest.Host.Path
import DocHarvest.Host.Tool
import DocHarvest.Load.Directory
import DocHarvest.Load.Error
import DocHarvest.Load.Json
import DocHarvest.Load.Listing
import DocHarvest.Load.Memory
import DocHarvest.Load.ModuleFile
import DocHarvest.Main
import DocHarvest.Output.Format
import DocHarvest.Output.Literal
import DocHarvest.Output.Render
import DocHarvest.Package.Basic
import DocHarvest.Package.Diagnostic
import DocHarvest.Package.Exported
import DocHarvest.Proofs.Attribution
import DocHarvest.Proofs.Declared
import DocHarvest.Proofs.Exclusive
import DocHarvest.Proofs.Filing
import DocHarvest.Proofs.Grammar
import DocHarvest.Proofs.Lexing
import DocHarvest.Proofs.Loading
import DocHarvest.Proofs.Overlay
import DocHarvest.Proofs.Parsed
import DocHarvest.Proofs.Reading
import DocHarvest.Proofs.Sites
import DocHarvest.Proofs.Stream
import DocHarvest.Syntax.Grammar.Declarations
import DocHarvest.Syntax.Grammar.Expressions
import DocHarvest.Syntax.Grammar.Goal
import DocHarvest.Syntax.Grammar.Statements
import DocHarvest.Syntax.Grammar.Types
import DocHarvest.Syntax.Lexeme
import DocHarvest.Syntax.Literal
import DocHarvest.Syntax.Node
import DocHarvest.Syntax.Parser
import DocHarvest.Syntax.Span
import DocHarvest.Syntax.Tree
import DocHarvest.Text.Basic
import DocHarvest.Text.Lowercase
import DocHarvest.Text.Quoted
import DocHarvest.Text.Utf8
import DocHarvest.Unicode.Alphabetic
import DocHarvest.Unicode.Blank
import DocHarvest.Unicode.Hidden
import DocHarvest.Unicode.Identifier
import DocHarvest.Unicode.Numeric
import DocHarvest.Unicode.Ranges
import DocHarvest.Unicode.Uppercase
import DocHarvest.Proofs.Batches
import DocHarvest.Proofs.Literals
import DocHarvest.Proofs.Rendering
import DocHarvest.Proofs.Scanning
import DocHarvest.Proofs.Acceptance
import DocHarvest.Proofs.Generated
import DocHarvest.Proofs.Modes
import DocHarvest.Proofs.TypeComments
import DocHarvest.Proofs.Writing
import DocHarvest.Proofs.MapFile
import DocHarvest.Proofs.Views
import DocHarvest.Proofs.Pieces
import DocHarvest.Proofs.Directories
import DocHarvest.Proofs.Rereading
import DocHarvest.Proofs.Rerun
import DocHarvest.Proofs.Symbols
import DocHarvest.Proofs.Layers
import DocHarvest.Proofs.Visible
import DocHarvest.Proofs.Sessions
import DocHarvest.Proofs.Resolution
import DocHarvest.Proofs.Spellings
import DocHarvest.Proofs.PackageNames
import DocHarvest.Proofs.Listings
import DocHarvest.Proofs.ImportPaths
import DocHarvest.Proofs.Returns
import DocHarvest.Proofs.Alignment
import DocHarvest.Proofs.Counterparts
import DocHarvest.Proofs.LineEndings
import DocHarvest.Proofs.Recoding
import DocHarvest.Proofs.Links
import DocHarvest.Proofs.Paragraphs
import DocHarvest.Proofs.Sentences
import DocHarvest.Proofs.Remarks
import DocHarvest.Proofs.GroupText
import DocHarvest.Proofs.Synopses
import DocHarvest.Proofs.Brackets
import DocHarvest.Proofs.FileOrder
import DocHarvest.Proofs.LinkTargets
import DocHarvest.Proofs.Openings
import DocHarvest.Proofs.Notices
import DocHarvest.Proofs.Ascents
import DocHarvest.Proofs.Delimited
import DocHarvest.Proofs.Enumeration
import DocHarvest.Proofs.SymbolTable
import DocHarvest.Proofs.Directives
import DocHarvest.Proofs.ModuleLayouts
