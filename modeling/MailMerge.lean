import MailMerge.CommandLine.Arguments
import MailMerge.CommandLine.FileTree
import MailMerge.CommandLine.Run
import MailMerge.Error
import MailMerge.Fill.Dialogue
import MailMerge.Fill.Parts
import MailMerge.Fill.Pass
import MailMerge.Fill.Processor
import MailMerge.Fill.Report
import MailMerge.Fill.Walk
import MailMerge.Json.Reader
import MailMerge.Json.Value
import MailMerge.Main
import MailMerge.Markup.Document
import MailMerge.Markup.Element
import MailMerge.Markup.Escape
import MailMerge.Markup.Name
import MailMerge.Markup.Reader
import MailMerge.Markup.Scanner
import MailMerge.Markup.Tag
import MailMerge.Markup.TokenStream
import MailMerge.Markup.Written
import MailMerge.Model.Memo
import MailMerge.Model.Path
import MailMerge.Model.Resolver
import MailMerge.Numeral.Shortest
import MailMerge.Options
import MailMerge.Proofs.Fill.Again
import MailMerge.Proofs.Fill.Alike
import MailMerge.Proofs.Fill.FilledGroups
import MailMerge.Proofs.Fill.KeptFrame
import MailMerge.Proofs.Fill.KeptMarkup
import MailMerge.Proofs.Fill.LeftAlone
import MailMerge.Proofs.Fill.Noninterference
import MailMerge.Proofs.Fill.Policies
import MailMerge.Proofs.Fill.RunContent
import MailMerge.Proofs.Fill.ValuePlace
import MailMerge.Proofs.Markup.Compact
import MailMerge.Proofs.Markup.ContentRead
import MailMerge.Proofs.Markup.Grammar
import MailMerge.Proofs.Markup.Layout
import MailMerge.Proofs.Markup.Parsed
import MailMerge.Proofs.Markup.RoundTrip
import MailMerge.Proofs.Markup.Window
import MailMerge.Proofs.Markup.Writable
import MailMerge.Proofs.Run.Erased
import MailMerge.Proofs.Run.LinkedRow
import MailMerge.Proofs.Run.Writable
import MailMerge.Proofs.Text.Utf8
import MailMerge.Run.Cell
import MailMerge.Run.Cursor
import MailMerge.Run.Linked
import MailMerge.Run.Rebuild
import MailMerge.Settings.Basic
import MailMerge.Settings.KeyPath
import MailMerge.Settings.Layers
import MailMerge.Settings.Toml.Document
import MailMerge.Settings.Toml.Moment
import MailMerge.Settings.Toml.Scalar
import MailMerge.Settings.Toml.Table
import MailMerge.Settings.Toml.Value
import MailMerge.Settings.Value
import MailMerge.Text.Basic
import MailMerge.Text.Blank
import MailMerge.Text.Numeral
import MailMerge.Text.Printable
import MailMerge.Text.Quoted
import MailMerge.Text.Taken
import MailMerge.Text.Utf8
import MailMerge.Proofs.Run.Unedited
import MailMerge.Proofs.Fill.NothingReplaced
import MailMerge.Proofs.Run.ContentOrder
import MailMerge.Proofs.Fill.ContentOrder
import MailMerge.Proofs.Model.Memo
import MailMerge.Proofs.Fill.SharedResolver
import MailMerge.Proofs.Fill.SharedParts
import MailMerge.Proofs.Run.Described
import MailMerge.Proofs.Run.Points
import MailMerge.Proofs.Fill.Record
import MailMerge.Proofs.Fill.EveryPoint
import MailMerge.Proofs.Fill.Rounds
import MailMerge.Proofs.Markup.Mismatch
import MailMerge.Proofs.Markup.WrongEndTag
import MailMerge.Proofs.Markup.OneLayout
import MailMerge.Proofs.Markup.Lookahead
import MailMerge.Proofs.Markup.CharacterData
import MailMerge.Proofs.Markup.OpenStack
import MailMerge.Proofs.Markup.Boundary
import MailMerge.Proofs.Markup.ByteScanner
import MailMerge.Proofs.Markup.ByteTokens
import MailMerge.Proofs.Markup.Progress
import MailMerge.Proofs.Markup.References
import MailMerge.Proofs.Markup.Descendants
import MailMerge.Proofs.Text.Split
import MailMerge.Proofs.Model.Padding
import MailMerge.Proofs.CommandLine.Places
import MailMerge.Proofs.CommandLine.Prepared
import MailMerge.Proofs.CommandLine.Delivered
