import StaticSite.CommandLine
import StaticSite.Config.Basic
import StaticSite.Content.Arena
import StaticSite.Content.Tree
import StaticSite.Decimal.Double
import StaticSite.Decimal.Reading
import StaticSite.Decimal.Shortest
import StaticSite.Decimal.Text
import StaticSite.Disk.Basic
import StaticSite.Disk.Calls
import StaticSite.Disk.Copy
import StaticSite.Disk.Path
import StaticSite.Disk.Resolve
import StaticSite.Fields
import StaticSite.Json.Basic
import StaticSite.Json.Cursor
import StaticSite.Json.Printer
import StaticSite.Json.Reader
import StaticSite.Main
import StaticSite.Markdown.Block
import StaticSite.Markdown.Code
import StaticSite.Markdown.Entity
import StaticSite.Markdown.EntityTable
import StaticSite.Markdown.Html
import StaticSite.Markdown.Inline
import StaticSite.Markdown.Line
import StaticSite.Markdown.Link
import StaticSite.Markdown.Tree
import StaticSite.Markdown.Writer
import StaticSite.Minify.Comment
import StaticSite.Minify.Script
import StaticSite.Minify.Style
import StaticSite.Page.Edit
import StaticSite.Page.Grammar
import StaticSite.Page.Pieces
import StaticSite.Page.RawText
import StaticSite.Page.Tag
import StaticSite.Site.Alias
import StaticSite.Site.Build
import StaticSite.Site.Callers
import StaticSite.Site.Crawlers
import StaticSite.Site.Problem
import StaticSite.Site.Pages
import StaticSite.Site.Render
import StaticSite.Site.Resources
import StaticSite.Site.Session
import StaticSite.Spec.Category
import StaticSite.Spec.Item
import StaticSite.Spec.Shape
import StaticSite.Spec.Theme
import StaticSite.Spec.Website
import StaticSite.Template.Basic
import StaticSite.Template.Code
import StaticSite.Template.Date
import StaticSite.Template.Directive
import StaticSite.Template.Document
import StaticSite.Template.Eval
import StaticSite.Template.Fault
import StaticSite.Template.Library
import StaticSite.Template.Method
import StaticSite.Template.Parser
import StaticSite.Template.Property
import StaticSite.Template.Run
import StaticSite.Template.Sort
import StaticSite.Template.Token
import StaticSite.Template.Tokenizer
import StaticSite.Template.Value
import StaticSite.Text.Blank
import StaticSite.Text.Case
import StaticSite.Text.CaseTables
import StaticSite.Text.Escape
import StaticSite.Text.Letters
import StaticSite.Text.Printable
import StaticSite.Text.Punctuation
import StaticSite.Text.Quoted
import StaticSite.Text.Ranges
import StaticSite.Text.Search
import StaticSite.Toml.Reader
import StaticSite.Toml.Scalar
import StaticSite.Toml.Table
import StaticSite.Toml.Text
import StaticSite.Url.Basic
import StaticSite.Proofs.Except
import StaticSite.Proofs.Fields
import StaticSite.Proofs.Config.Ordered
import StaticSite.Proofs.Spec.Written
import StaticSite.Proofs.Spec.Themes
import StaticSite.Proofs.Template.Leaves
import StaticSite.Proofs.Template.Logic
import StaticSite.Proofs.Template.Escaping
import StaticSite.Proofs.Template.Reaching
import StaticSite.Proofs.Template.Scopes
import StaticSite.Proofs.Template.Headers
import StaticSite.Proofs.Template.Loops
import StaticSite.Proofs.Template.Progress
import StaticSite.Proofs.Template.Layout
import StaticSite.Proofs.Template.Program
import StaticSite.Proofs.Template.Spelling
import StaticSite.Proofs.Template.Printer
import StaticSite.Proofs.Template.Denotes
import StaticSite.Proofs.Template.Constructs
import StaticSite.Proofs.Template.RoundTrip
import StaticSite.Proofs.Site.Claims
import StaticSite.Proofs.Disk.Landing
import StaticSite.Proofs.Disk.Reach
import StaticSite.Proofs.Disk.Logic
import StaticSite.Proofs.Disk.Simulation
import StaticSite.Proofs.Site.Logic
import StaticSite.Proofs.Disk.Settled
import StaticSite.Proofs.Disk.Source
import StaticSite.Proofs.Content.Pages
import StaticSite.Proofs.Content.View
import StaticSite.Proofs.Content.Places
import StaticSite.Proofs.Content.Arena
import StaticSite.Proofs.Disk.Ensure
import StaticSite.Proofs.Disk.Zone
import StaticSite.Proofs.Site.Changes
import StaticSite.Proofs.Site.Sources
import StaticSite.Proofs.Site.Containment
import StaticSite.Proofs.Disk.Content
import StaticSite.Proofs.Disk.Chain
import StaticSite.Proofs.Site.Alike
import StaticSite.Proofs.Site.Writing
import StaticSite.Proofs.Site.Orders
import StaticSite.Proofs.Site.Reading
import StaticSite.Proofs.Site.Walk
import StaticSite.Proofs.Site.Accounts
import StaticSite.Proofs.Site.Callers
import StaticSite.Proofs.Disk.Lasting
import StaticSite.Proofs.Disk.Repeats
import StaticSite.Proofs.Disk.Placing
import StaticSite.Proofs.Disk.Merging
import StaticSite.Proofs.Disk.Linkless
import StaticSite.Proofs.Site.Planning
import StaticSite.Proofs.Content.Children
import StaticSite.Proofs.Content.Items
import StaticSite.Proofs.Content.Gathered
import StaticSite.Proofs.Site.Resources
import StaticSite.Proofs.Site.Repeats
import StaticSite.Proofs.Minify.Gaps
import StaticSite.Proofs.Minify.Steps
import StaticSite.Proofs.Minify.Nesting
import StaticSite.Proofs.Minify.Operands
import StaticSite.Proofs.Minify.Sheet
import StaticSite.Proofs.Site.Registering
import StaticSite.Proofs.Site.Stylesheets
import StaticSite.Proofs.Site.Unmade
import StaticSite.Proofs.Decimal.Whole
import StaticSite.Proofs.Template.Enumeration
import StaticSite.Proofs.Template.Brackets
import StaticSite.Proofs.Template.Scanning
import StaticSite.Proofs.Template.Substitutions
import StaticSite.Page.Stream
import StaticSite.Proofs.Page.Cutting
import StaticSite.Proofs.Text.Entities
import StaticSite.Proofs.Page.Links
import StaticSite.Proofs.Page.Places
import StaticSite.Proofs.Page.Plain
import StaticSite.Proofs.Json.Reading
import StaticSite.Proofs.Json.Scalars
import StaticSite.Proofs.Json.ReadBack
import StaticSite.Proofs.Template.Strings
import StaticSite.Proofs.Template.Documents
import StaticSite.Proofs.Template.Assignments
import StaticSite.Proofs.Template.Dates
import StaticSite.Proofs.Url.Normal
import StaticSite.Proofs.Disk.Open
import StaticSite.Proofs.Disk.Fitting
import StaticSite.Proofs.Disk.Copying
import StaticSite.Proofs.Site.Linked
import StaticSite.Proofs.Minify.Noise
import StaticSite.Proofs.Minify.SheetAgain
import StaticSite.Proofs.Minify.ScriptAgain
import StaticSite.Proofs.Decimal.Integral
import StaticSite.Proofs.Template.Positions
import StaticSite.Proofs.Template.Splitting
import StaticSite.Proofs.Decimal.Order
import StaticSite.Proofs.Template.DateOrder
import StaticSite.Proofs.Template.Sorting
import StaticSite.Proofs.Template.SortMethod
import StaticSite.Proofs.Template.OptionalChains
import StaticSite.Proofs.Template.StatementBrackets
import StaticSite.Proofs.Text.Replacing
import StaticSite.Proofs.Site.Redirects
import StaticSite.Proofs.Disk.Traces
import StaticSite.Proofs.Site.Dispositions
import StaticSite.Proofs.Decimal.Literals
import StaticSite.Proofs.Decimal.NotANumber
import StaticSite.Proofs.Decimal.Numerals
import StaticSite.Proofs.Template.NumericTexts
