import TableRebuild.Json.Encode
import TableRebuild.Migration
import TableRebuild.Table.Edit
import TableRebuild.Digest
import TableRebuild.Token.Cursor
import TableRebuild.Proofs.Token.Gap
import TableRebuild.Proofs.Token.Front
import TableRebuild.Proofs.Token.Lexing
import TableRebuild.Proofs.Token.QuotedName
import TableRebuild.Proofs.Token.Enclosed
import TableRebuild.Proofs.Token.Unplaced
import TableRebuild.Proofs.Token.Legible
import TableRebuild.Proofs.Token.Excerpt
import TableRebuild.Proofs.Token.Marked
import TableRebuild.Proofs.Token.Wording
import TableRebuild.Proofs.Token.Operator
import TableRebuild.Proofs.Token.Seam
import TableRebuild.Proofs.Token.Comment
import TableRebuild.Proofs.Token.Joined
import TableRebuild.Proofs.Token.Sign
import TableRebuild.Proofs.Token.Unclosed
import TableRebuild.Proofs.Token.Tiling
import TableRebuild.Proofs.Token.Cursor
import TableRebuild.Proofs.Token.Unquoted
import TableRebuild.Proofs.Token.Similar
import TableRebuild.Proofs.Definition.Nesting
import TableRebuild.Proofs.Definition.Clause
import TableRebuild.Proofs.Definition.Depth
import TableRebuild.Proofs.Definition.ClauseForm
import TableRebuild.Proofs.Definition.Outline
import TableRebuild.Proofs.Definition.Partner
import TableRebuild.Proofs.Definition.Refusal
import TableRebuild.Proofs.Definition.Agree
import TableRebuild.Proofs.Definition.ColumnList
import TableRebuild.Proofs.Table.History
import TableRebuild.Proofs.Table.Entry
import TableRebuild.Proofs.Table.Printable
import TableRebuild.Proofs.Table.Grammar
import TableRebuild.Proofs.Table.Content
import TableRebuild.Proofs.Table.Agree
import TableRebuild.Proofs.Table.Written
import TableRebuild.Proofs.Statement.CreateTable
import TableRebuild.Proofs.Statement.Wording
import TableRebuild.Proofs.Statement.Separator
import TableRebuild.Proofs.Comparison.SameSchema
import TableRebuild.Proofs.Comparison.Delta
import TableRebuild.Proofs.Comparison.Mirror
import TableRebuild.Proofs.Comparison.Apply
import TableRebuild.Proofs.Name
import TableRebuild.Proofs.Plan.RoundTrip
import TableRebuild.Proofs.Statement.ItemOrder
import TableRebuild.Proofs.Database
import TableRebuild.Proofs.Plan.Run
import TableRebuild.Proofs.Plan.TemporaryName
import TableRebuild.Proofs.Plan.Congruence
import TableRebuild.Proofs.Comparison.SameParts
import TableRebuild.Proofs.Digest
import TableRebuild.Proofs.Table.Comments
import TableRebuild.Proofs.Table.Signs
import TableRebuild.Proofs.Plan.Readback
import TableRebuild.Proofs.Table.Refusal
import TableRebuild.Proofs.Table.OpenQuote
import TableRebuild.Proofs.Indexed.Run
import TableRebuild.Proofs.Indexed.Lexer
import TableRebuild.Proofs.Indexed.Outline
import TableRebuild.Proofs.Indexed.Column
import TableRebuild.Proofs.Indexed.Migration
