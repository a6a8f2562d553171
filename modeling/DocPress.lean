import DocPress.Asset
import DocPress.Block.Basic
import DocPress.Block.Grid
import DocPress.Block.Lists
import DocPress.Block.Media
import DocPress.Block.Prose
import DocPress.Block.Title
import DocPress.Block.Verbatim
import DocPress.Config.Basic
import DocPress.Config.Expand
import DocPress.Config.Load
import DocPress.Converter
import DocPress.Decimal.Reading
import DocPress.Decimal.Shortest
import DocPress.Document.Basic
import DocPress.Document.Decode
import DocPress.Document.Encode
import DocPress.Document.Footnotes
import DocPress.Document.Numbering
import DocPress.Document.Prepare
import DocPress.Equation
import DocPress.Files
import DocPress.Highlighter.Basic
import DocPress.Highlighter.CodeTags
import DocPress.Highlighter.HighlightJs
import DocPress.Inline
import DocPress.Json.Basic
import DocPress.Json.Decoder
import DocPress.Json.Parser
import DocPress.Json.Printer
import DocPress.Markup.Anchors
import DocPress.Markup.Basic
import DocPress.Markup.ClassList
import DocPress.Markup.NodeAttrs
import DocPress.Node.Basic
import DocPress.Node.Build
import DocPress.Node.Kind
import DocPress.Node.Walk
import DocPress.Options
import DocPress.Page.Basic
import DocPress.Page.Frame
import DocPress.Page.Head
import DocPress.Path
import DocPress.Proofs.Addresses
import DocPress.Proofs.Agreement
import DocPress.Proofs.AgreementBlocks
import DocPress.Proofs.AnchorErasure
import DocPress.Proofs.AnchorNesting
import DocPress.Proofs.BackLinks
import DocPress.Proofs.Breaks
import DocPress.Proofs.Children
import DocPress.Proofs.Claims
import DocPress.Proofs.Containment
import DocPress.Proofs.Defaults
import DocPress.Proofs.Definitions
import DocPress.Proofs.Drawn
import DocPress.Proofs.DrawnBlocks
import DocPress.Proofs.DrawnInline
import DocPress.Proofs.DrawnLists
import DocPress.Proofs.DrawnPages
import DocPress.Proofs.DrawnTree
import DocPress.Proofs.DrawnWords
import DocPress.Proofs.Entities
import DocPress.Proofs.Equations
import DocPress.Proofs.FootnoteIndex
import DocPress.Proofs.FootnoteLinks
import DocPress.Proofs.Footnotes
import DocPress.Proofs.Forms
import DocPress.Proofs.Fragments
import DocPress.Proofs.Framed
import DocPress.Proofs.GridReading
import DocPress.Proofs.Grids
import DocPress.Proofs.HeadSlot
import DocPress.Proofs.Ids
import DocPress.Proofs.IdsBlocks
import DocPress.Proofs.ImagePaths
import DocPress.Proofs.Indexing
import DocPress.Proofs.Inert
import DocPress.Proofs.InnerAnchors
import DocPress.Proofs.Landings
import DocPress.Proofs.Loading
import DocPress.Proofs.Marks
import DocPress.Proofs.Nesting
import DocPress.Proofs.Numbering
import DocPress.Proofs.Numerals
import DocPress.Proofs.Origins
import DocPress.Proofs.Outline
import DocPress.Proofs.PageLines
import DocPress.Proofs.Palette
import DocPress.Proofs.PlainText
import DocPress.Proofs.Preparation
import DocPress.Proofs.Problems
import DocPress.Proofs.ReadText
import DocPress.Proofs.ReferenceDepth
import DocPress.Proofs.Refilling
import DocPress.Proofs.Registry
import DocPress.Proofs.Renumbering
import DocPress.Proofs.RootElement
import DocPress.Proofs.RootReference
import DocPress.Proofs.RoundTrip
import DocPress.Proofs.Sealed
import DocPress.Proofs.Settings
import DocPress.Proofs.Shown
import DocPress.Proofs.ShownBlocks
import DocPress.Proofs.Sights
import DocPress.Proofs.StartTag
import DocPress.Proofs.TagSettings
import DocPress.Proofs.Tags
import DocPress.Proofs.Tally
import DocPress.Proofs.TallyTree
import DocPress.Proofs.TitleAnchors
import DocPress.Proofs.Tokens
import DocPress.Proofs.UniqueIds
import DocPress.Proofs.Variables
import DocPress.Proofs.VerbatimBlocks
import DocPress.Proofs.VisibleReferences
import DocPress.Proofs.VisibleWords
import DocPress.Proofs.Walk
import DocPress.Reference
import DocPress.Rendered
import DocPress.Scene
import DocPress.SortedMap
import DocPress.Svg
import DocPress.Text.Blank
import DocPress.Text.Case
import DocPress.Text.Escape
import DocPress.Text.Letter
import DocPress.Toml.Basic
import DocPress.Toml.Moment
import DocPress.Toml.Number
import DocPress.Toml.Parser
import DocPress.Toml.Scalar
import DocPress.Toml.Tables
import DocPress.Warning
