import Pagelet.CommandLine
import Pagelet.Document
import Pagelet.Document.Element
import Pagelet.Document.Handles
import Pagelet.Encoding
import Pagelet.Encoding.Catalog
import Pagelet.Encoding.CodePage
import Pagelet.Encoding.Declaration
import Pagelet.Encoding.Utf16
import Pagelet.Encoding.Utf8
import Pagelet.Failure
import Pagelet.Main
import Pagelet.Markup.Attributes
import Pagelet.Markup.Cursor
import Pagelet.Markup.Cursor.Reader
import Pagelet.Markup.Reference
import Pagelet.Markup.Token
import Pagelet.Markup.Token.Raw
import Pagelet.Markup.Token.Scan
import Pagelet.Markup.Token.Tag
import Pagelet.Page
import Pagelet.Page.Assembly
import Pagelet.Script.Brackets
import Pagelet.Script.Expr
import Pagelet.Script.Expr.Reader
import Pagelet.Script.Lexeme
import Pagelet.Script.Report
import Pagelet.Script.Run
import Pagelet.Script.Statement
import Pagelet.Script.Statement.Reader
import Pagelet.Script.Statement.Splitting
import Pagelet.Script.Value
import Pagelet.Style.Cascade
import Pagelet.Style.Declaration
import Pagelet.Style.Exposure
import Pagelet.Style.Properties
import Pagelet.Style.Sheet
import Pagelet.Text.Blank
import Pagelet.Text.CodeRange
import Pagelet.Text.Front
import Pagelet.Text.LetterCase
import Pagelet.Text.LetterCase.Tables
import Pagelet.Text.Numeral
import Pagelet.Text.Offset
import Pagelet.Text.Quotation
import Pagelet.Text.Quoted
import Pagelet.Text.Quoted.Hidden
import Pagelet.Proofs.Expression.Grammar
import Pagelet.Proofs.Expression.Soundness
import Pagelet.Proofs.Expression.Completeness
import Pagelet.Proofs.Expression.Spelling
import Pagelet.Proofs.Expression.Height
import Pagelet.Proofs.Expression.Faultless
import Pagelet.Proofs.Expression.Printing
import Pagelet.Proofs.Expression.RoundTrip
import Pagelet.Proofs.Expression.Exact
import Pagelet.Proofs.Expression.FirstFault
import Pagelet.Proofs.Statement.Nesting
import Pagelet.Proofs.Statement.Pieces
import Pagelet.Proofs.Statement.Comments
import Pagelet.Proofs.Statement.Readable
import Pagelet.Proofs.Statement.Unbroken
import Pagelet.Proofs.Statement.Printing
import Pagelet.Proofs.Statement.Forms
import Pagelet.Proofs.Statement.Reading
import Pagelet.Proofs.Statement.RoundTrip
import Pagelet.Proofs.Statement.Bodies
import Pagelet.Proofs.Statement.Joining
import Pagelet.Proofs.Statement.Canonical
import Pagelet.Proofs.Statement.Partners
import Pagelet.Proofs.Markup.Escaping
import Pagelet.Proofs.Markup.Writing
import Pagelet.Proofs.Markup.Reading
import Pagelet.Proofs.Markup.RoundTrip
import Pagelet.Proofs.Markup.Segments
import Pagelet.Proofs.Text.Numerals
import Pagelet.Proofs.Markup.References
import Pagelet.Proofs.Markup.Decoding
import Pagelet.Proofs.Text.Offsets
import Pagelet.Proofs.Markup.Bytes
import Pagelet.Proofs.Markup.EndTags
import Pagelet.Proofs.Markup.InPlace
import Pagelet.Proofs.Markup.Progress
import Pagelet.Proofs.Encoding.Declarations
import Pagelet.Proofs.Encoding.Window
import Pagelet.Proofs.Document.Adding
import Pagelet.Proofs.Document.Changes
import Pagelet.Proofs.Document.Identities
import Pagelet.Proofs.Document.Listeners
import Pagelet.Proofs.Document.Frame
import Pagelet.Proofs.Document.Unscripted
import Pagelet.Proofs.Document.Captions
import Pagelet.Proofs.Run.Frame
import Pagelet.Proofs.Run.Changes
import Pagelet.Proofs.Run.Calls
import Pagelet.Proofs.Run.Parallel
import Pagelet.Proofs.Run.Capping
import Pagelet.Proofs.Run.Joining
import Pagelet.Proofs.Run.Unmentioned
import Pagelet.Proofs.Run.Unknown
import Pagelet.Proofs.Run.Names
import Pagelet.Proofs.Run.Depth
import Pagelet.Proofs.Session.Operations
import Pagelet.Proofs.Session.Identities
import Pagelet.Proofs.Session.Listeners
import Pagelet.Proofs.Style.Precedence
import Pagelet.Proofs.Style.Spacing
import Pagelet.Proofs.Style.Printing
import Pagelet.Proofs.Style.Accumulation
import Pagelet.Proofs.Style.AtRules
import Pagelet.Proofs.Style.Directives
import Pagelet.Proofs.Style.QuotedBraces
import Pagelet.Proofs.Style.Contributions
import Pagelet.Proofs.Style.Comments
import Pagelet.Proofs.Style.Cutting
import Pagelet.Proofs.Style.Settings
import Pagelet.Proofs.Style.Composition
import Pagelet.Proofs.Style.Consulted
import Pagelet.Proofs.Page.Forest
import Pagelet.Proofs.Page.Preorder
import Pagelet.Proofs.Page.Undisturbed
import Pagelet.Proofs.Page.RawBodies
import Pagelet.Proofs.Page.Inheritance
import Pagelet.Proofs.Page.Nesting
import Pagelet.Proofs.Page.Chains
import Pagelet.Proofs.Page.Ends
import Pagelet.Proofs.Page.Content
import Pagelet.Proofs.Page.Changes
import Pagelet.Proofs.Page.Ids
import Pagelet.Proofs.CommandLine.Labels
