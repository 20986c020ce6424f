import Stylebook.Calendar
import Stylebook.Command.Output
import Stylebook.Command.Request
import Stylebook.Command.Run
import Stylebook.Config.Basic
import Stylebook.Config.File
import Stylebook.Data.Basic
import Stylebook.Data.Value
import Stylebook.Doc.Comment
import Stylebook.Doc.Tag
import Stylebook.Identifier
import Stylebook.Json.Reader
import Stylebook.Json.Writer
import Stylebook.Loading.Basic
import Stylebook.Loading.Files
import Stylebook.Main
import Stylebook.Markup.CharacterNameData
import Stylebook.Markup.CharacterReference
import Stylebook.Markup.Node
import Stylebook.Markup.Token
import Stylebook.Markup.Tree
import Stylebook.Markup.Writer
import Stylebook.Number.Binary64
import Stylebook.Number.DigitData
import Stylebook.Number.Numeral
import Stylebook.Path
import Stylebook.Proofs.Sheet.Resolve
import Stylebook.Proofs.Sheet.Route
import Stylebook.Selector.Basic
import Stylebook.Selector.Matching
import Stylebook.Selector.Reader
import Stylebook.Sheet.Block
import Stylebook.Sheet.Graph
import Stylebook.Sheet.Import
import Stylebook.Showcase.Build
import Stylebook.Showcase.Export
import Stylebook.Showcase.Item
import Stylebook.Text.Base64
import Stylebook.Text.Basic
import Stylebook.Text.Case
import Stylebook.Text.CaseData
import Stylebook.Text.PrintableData
import Stylebook.Text.Quoted
import Stylebook.Text.Surrogate
import Stylebook.Text.Utf8
import Stylebook.Text.Word
import Stylebook.Text.WordData
import Stylebook.Url.Basic
import Stylebook.Url.Host
import Stylebook.Url.Percent
import Stylebook.Variant
import Stylebook.Yaml.Document
import Stylebook.Yaml.Error
import Stylebook.Yaml.Node
import Stylebook.Yaml.Object
import Stylebook.Yaml.Scalar
import Stylebook.Yaml.Schema
import Stylebook.Yaml.Token
import Stylebook.Proofs.Selector.Address
import Stylebook.Proofs.Selector.Embedding
import Stylebook.Proofs.Basic
import Stylebook.Proofs.Identifier.Registry
import Stylebook.Proofs.Showcase.Facts
import Stylebook.Proofs.Showcase.Build
import Stylebook.Proofs.Showcase.Unique
import Stylebook.Proofs.Doc.Writing
import Stylebook.Proofs.Doc.Reading
import Stylebook.Proofs.Sheet.Block
import Stylebook.Proofs.Doc.Sections
import Stylebook.Proofs.Selector.Reading
import Stylebook.Proofs.Sheet.Branches
import Stylebook.Proofs.Sheet.Turns
import Stylebook.Proofs.Sheet.Run
import Stylebook.Proofs.Sheet.Order
import Stylebook.Proofs.Sheet.Verdict
import Stylebook.Proofs.Sheet.Fault
import Stylebook.Proofs.Markup.Reading
import Stylebook.Proofs.Variant.Edit
import Stylebook.Proofs.Showcase.Kinds
import Stylebook.Proofs.Variant.Reference
import Stylebook.Proofs.Variant.Blocks
import Stylebook.Proofs.Markup.Front
import Stylebook.Proofs.Markup.Through
import Stylebook.Proofs.Markup.Within
import Stylebook.Proofs.Markup.Spelling
import Stylebook.Proofs.Selector.Texts
import Stylebook.Proofs.Variant.Wrapper
import Stylebook.Proofs.Showcase.Arrangement
import Stylebook.Proofs.Json.Reading
import Stylebook.Proofs.Json.Spacing
import Stylebook.Proofs.Showcase.Export
import Stylebook.Proofs.Data.Display
import Stylebook.Proofs.Config.Limits
import Stylebook.Proofs.Loading.Files
import Stylebook.Proofs.Command.Output
import Stylebook.Proofs.Command.Arguments
import Stylebook.Proofs.Command.Build
import Stylebook.Proofs.Sheet.Extent
import Stylebook.Proofs.Sheet.LineEnds
import Stylebook.Proofs.Variant.Again
import Stylebook.Proofs.Variant.Attributes
import Stylebook.Proofs.Variant.Selection
import Stylebook.Proofs.Path.Normal
import Stylebook.Proofs.Sheet.Relative
import Stylebook.Proofs.Sheet.Directives
import Stylebook.Proofs.Text.Decimal
import Stylebook.Proofs.Identifier.Selector
import Stylebook.Proofs.Showcase.Content
import Stylebook.Proofs.Showcase.Resume
import Stylebook.Proofs.Showcase.Usable
import Stylebook.Proofs.Showcase.Numbering
import Stylebook.Proofs.Identifier.History
import Stylebook.Proofs.Sheet.Bounds
import Stylebook.Proofs.Sheet.FirstTurns
import Stylebook.Proofs.Variant.States
import Stylebook.Proofs.Variant.Unreadable
import Stylebook.Proofs.Text.Utf8
import Stylebook.Proofs.Url.Percent
import Stylebook.Proofs.Loading.Address
import Stylebook.Proofs.Doc.Shape
import Stylebook.Proofs.Doc.Margins
import Stylebook.Proofs.Identifier.Collapse
import Stylebook.Proofs.Selector.Spacing
import Stylebook.Proofs.Selector.Offset
