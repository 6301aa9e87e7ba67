import SchemaAudit.Audit
import SchemaAudit.Audit.Finding
import SchemaAudit.Audit.Json
import SchemaAudit.Audit.Normalization
import SchemaAudit.Audit.Reserved
import SchemaAudit.Audit.Robustness
import SchemaAudit.Audit.Score
import SchemaAudit.Audit.Security
import SchemaAudit.Audit.Subject
import SchemaAudit.Audit.Template
import SchemaAudit.CommandLine.Options
import SchemaAudit.CommandLine.Run
import SchemaAudit.Ddl.Column
import SchemaAudit.Ddl.Input
import SchemaAudit.Ddl.Schema
import SchemaAudit.Ddl.Script
import SchemaAudit.Ddl.Table
import SchemaAudit.Decimal.Binary
import SchemaAudit.Decimal.Shortest
import SchemaAudit.Dialect
import SchemaAudit.Dialect.Portable
import SchemaAudit.Dump
import SchemaAudit.Exchange
import SchemaAudit.FirstMatch
import SchemaAudit.Graph.Basic
import SchemaAudit.Graph.Cycle
import SchemaAudit.Graph.Inference
import SchemaAudit.Graph.Json
import SchemaAudit.Graph.Outline
import SchemaAudit.Json.Print
import SchemaAudit.Json.Read
import SchemaAudit.Json.Shape
import SchemaAudit.Json.Value
import SchemaAudit.Main
import SchemaAudit.Outline
import SchemaAudit.Outline.Line
import SchemaAudit.Pattern
import SchemaAudit.Report
import SchemaAudit.Settings
import SchemaAudit.Text.Classes
import SchemaAudit.Text.Search
import SchemaAudit.Text.Glyph
import SchemaAudit.Text.LetterCase
import SchemaAudit.Text.Quoted
import SchemaAudit.Text.Width
import SchemaAudit.Token
import SchemaAudit.Token.Scan
import SchemaAudit.Toml.Number
import SchemaAudit.Toml.Read
import SchemaAudit.Toml.Reader
import SchemaAudit.Toml.Text
import SchemaAudit.Toml.Value
import SchemaAudit.TypeName
import SchemaAudit.Proofs.Outline.Line
import SchemaAudit.Proofs.Outline.RoundTrip
import SchemaAudit.Proofs.Text.Classes
import SchemaAudit.Proofs.Token.Spelling
import SchemaAudit.Proofs.Ddl.Input
import SchemaAudit.Proofs.Text.LetterCase
import SchemaAudit.Proofs.TypeName
import SchemaAudit.Proofs.Ddl.Written
import SchemaAudit.Proofs.Ddl.Column
import SchemaAudit.Proofs.Ddl.Script
import SchemaAudit.Proofs.Graph.Cycle
import SchemaAudit.Proofs.Graph.CycleTree
import SchemaAudit.Proofs.Text.Lines
import SchemaAudit.Proofs.Text.Search
import SchemaAudit.Proofs.Text.Collapse
import SchemaAudit.Proofs.Pattern.Ways
import SchemaAudit.Proofs.Pattern.Weight
import SchemaAudit.Proofs.Pattern.Loss
import SchemaAudit.Proofs.Pattern.Rewrite
import SchemaAudit.Proofs.Pattern.Form
import SchemaAudit.Proofs.Dialect.FixedPoint
import SchemaAudit.Proofs.Dialect.Comment
import SchemaAudit.Proofs.Dialect.DelimitedName
import SchemaAudit.Proofs.Dialect.QuotedName
import SchemaAudit.Proofs.Dialect.QuotedColumn
import SchemaAudit.Proofs.Dialect.Batch
import SchemaAudit.Proofs.Token.Piece
import SchemaAudit.Proofs.Dump.Batch
import SchemaAudit.Proofs.Ddl.Alike
import SchemaAudit.Proofs.Ddl.AlikeColumn
import SchemaAudit.Proofs.Ddl.AlikeScript
import SchemaAudit.Proofs.Ddl.Redeclare
import SchemaAudit.Proofs.Ddl.Sound
import SchemaAudit.Proofs.Outline.Names
import SchemaAudit.Proofs.Dump.QuotedColumn
import SchemaAudit.Proofs.Ddl.Declared
import SchemaAudit.Proofs.Ddl.PlainTable
import SchemaAudit.Proofs.Ddl.PrimaryKey
import SchemaAudit.Proofs.Token.Readable
import SchemaAudit.Proofs.Graph.Json
import SchemaAudit.Proofs.Outline.Sign
import SchemaAudit.Proofs.Graph.Block
import SchemaAudit.Proofs.Audit.Arrangement
import SchemaAudit.Proofs.Audit.Growth
import SchemaAudit.Proofs.Outline.KeyTarget
import SchemaAudit.Proofs.Token.Closing
import SchemaAudit.Proofs.Dialect.CommentStep
import SchemaAudit.Proofs.Token.View
import SchemaAudit.Proofs.Dialect.CommentPiece
import SchemaAudit.Proofs.Dialect.CommentToken
import SchemaAudit.Proofs.Token.Literal
import SchemaAudit.Proofs.Ddl.DefaultText
import SchemaAudit.Proofs.Graph.Inference
import SchemaAudit.Proofs.Ddl.Expression
import SchemaAudit.Proofs.Ddl.Located
import SchemaAudit.Proofs.Ddl.LocatedColumn
import SchemaAudit.Proofs.Ddl.LocatedScript
import SchemaAudit.Proofs.Text.Replace
import SchemaAudit.Proofs.Text.LowerCase
import SchemaAudit.Proofs.TypeName.Words
import SchemaAudit.Proofs.Audit.Template
import SchemaAudit.Proofs.Audit.Partner
import SchemaAudit.Proofs.Audit.VarcharLength
import SchemaAudit.Proofs.TypeName.Element
import SchemaAudit.Proofs.TypeName.Brackets
import SchemaAudit.Proofs.Audit.Performance
import SchemaAudit.Proofs.Dialect.Requested
import SchemaAudit.Proofs.Audit.Agreement
import SchemaAudit.Proofs.Token.Restart
import SchemaAudit.Proofs.Dialect.Collapse
import SchemaAudit.Proofs.Text.Width
import SchemaAudit.Proofs.Report
import SchemaAudit.Proofs.TypeName.Stable
import SchemaAudit.Proofs.Dialect.Hash
import SchemaAudit.Proofs.Dump.Comment
import SchemaAudit.Proofs.Outline.Broken
