import ProtoSchema.Main
import ProtoSchema.Proofs.Mixin.Expansion
import ProtoSchema.Proofs.Token.Scan
import ProtoSchema.Proofs.Token.Word
import ProtoSchema.Proofs.Number.Numeral
import ProtoSchema.Proofs.Token.Layout
import ProtoSchema.Proofs.Parser.Reads
import ProtoSchema.Proofs.Schema.Lexemes
import ProtoSchema.Proofs.Parser.Message
import ProtoSchema.Proofs.Parser.Body
import ProtoSchema.Proofs.Parser.File
import ProtoSchema.Proofs.Schema.Rendered
import ProtoSchema.Proofs.Parser.Consumes
import ProtoSchema.Proofs.Parser.Sourced
import ProtoSchema.Proofs.Parser.Yields
import ProtoSchema.Proofs.Text.Case
import ProtoSchema.Proofs.Token.Marks
import ProtoSchema.Proofs.Schema.Standalone
import ProtoSchema.Proofs.Mixin.Standalone
import ProtoSchema.Proofs.Files.Path
import ProtoSchema.Proofs.Files.Tree
import ProtoSchema.Proofs.Mixin.Duplicates
import ProtoSchema.Proofs.Mixin.Index
import ProtoSchema.Proofs.Mixin.Output
import ProtoSchema.Proofs.Load.SchemaFile
import ProtoSchema.Proofs.Mixin.Sources
import ProtoSchema.Proofs.CommandLine.Console
import ProtoSchema.Proofs.CommandLine.Expand
import ProtoSchema.Proofs.CommandLine.Failure
import ProtoSchema.Proofs.Token.Segment
import ProtoSchema.Proofs.Token.Separator
import ProtoSchema.Proofs.Parser.LeftToRight
import ProtoSchema.Proofs.Parser.Fuel
import ProtoSchema.Proofs.Parser.Lookahead
import ProtoSchema.Proofs.Parser.Places
import ProtoSchema.Proofs.Token.Escape
import ProtoSchema.Proofs.Load.Literal
import ProtoSchema.Proofs.Files.Directory
import ProtoSchema.Proofs.Mixin.Reordered
import ProtoSchema.Proofs.CommandLine.Reordered
import ProtoSchema.Proofs.Descriptor.Visit
import ProtoSchema.Proofs.Descriptor.Names
import ProtoSchema.Proofs.Descriptor.CamelCase
import ProtoSchema.Proofs.Schema.Paths
import ProtoSchema.Proofs.Schema.Package
import ProtoSchema.Proofs.Descriptor.Outline
import ProtoSchema.Proofs.Parser.Refusal
import ProtoSchema.Proofs.Parser.Loops
import ProtoSchema.Proofs.Parser.Depth
import ProtoSchema.Proofs.Parser.Total
import ProtoSchema.Proofs.Parser.Concatenation
import ProtoSchema.Proofs.Schema.Concatenation
import ProtoSchema.Proofs.Mixin.Faults
import ProtoSchema.Proofs.Mixin.Extended
import ProtoSchema.Proofs.Number.Digits
import ProtoSchema.Proofs.Token.Literal
import ProtoSchema.Proofs.Parser.Literals
import ProtoSchema.Proofs.Parser.Continue
import ProtoSchema.Proofs.Parser.Group
import ProtoSchema.Proofs.Descriptor.Enclosing
import ProtoSchema.Proofs.Descriptor.Slice
import ProtoSchema.Proofs.Descriptor.Run
import ProtoSchema.Proofs.Text.Lines
import ProtoSchema.Proofs.Outline.Lines
import ProtoSchema.Proofs.Load.Selection
import ProtoSchema.Proofs.Mixin.Entries
import ProtoSchema.Proofs.Token.Sign
import ProtoSchema.Proofs.Token.Concatenation
import ProtoSchema.Proofs.Number.Literal
import ProtoSchema.Proofs.Parser.Numbers
import ProtoSchema.Proofs.Parser.Ending
import ProtoSchema.Proofs.Token.Verbatim
import ProtoSchema.Proofs.Parser.Aggregate
import ProtoSchema.Proofs.Descriptor.Cursor
import ProtoSchema.Proofs.Parser.Traces
import ProtoSchema.Proofs.Parser.Shape
