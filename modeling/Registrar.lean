import Registrar.Batch
import Registrar.CommandLine.Arguments
import Registrar.CommandLine.Command
import Registrar.CommandLine.Run
import Registrar.CommandLine.Source
import Registrar.CommandLine.Surroundings
import Registrar.Csv
import Registrar.Decimal.Binary64
import Registrar.Decimal.Shortest
import Registrar.Diagnostic
import Registrar.Digest.Sha512
import Registrar.Error
import Registrar.Freeform.Decoding
import Registrar.Freeform.Encoding
import Registrar.Freeform.Group
import Registrar.Freeform.Occurrence
import Registrar.Gathered
import Registrar.Hasher
import Registrar.Json.Error
import Registrar.Json.Printer
import Registrar.Json.Reader
import Registrar.Json.Value
import Registrar.Language.Lexeme
import Registrar.Language.Normalizing
import Registrar.Language.Projection
import Registrar.Language.ProjectionLexer
import Registrar.Language.Query
import Registrar.Language.QueryLexer
import Registrar.Language.Token
import Registrar.Main
import Registrar.NameMap
import Registrar.ObjectType
import Registrar.Payload
import Registrar.Proofs.Batches.Delimited
import Registrar.Proofs.Batches.Layouts
import Registrar.Proofs.Batches.Numbering
import Registrar.Proofs.Batches.Restated
import Registrar.Proofs.Blame
import Registrar.Proofs.Bytes
import Registrar.Proofs.Checked
import Registrar.Proofs.Columns
import Registrar.Proofs.EmptyCells
import Registrar.Proofs.FlatRows
import Registrar.Proofs.Freeform.Added
import Registrar.Proofs.Freeform.Bodies
import Registrar.Proofs.Freeform.Commuting
import Registrar.Proofs.Freeform.Decoded
import Registrar.Proofs.Freeform.Edits
import Registrar.Proofs.Freeform.Forced
import Registrar.Proofs.Freeform.Frames
import Registrar.Proofs.Freeform.Grammar
import Registrar.Proofs.Freeform.InPlace
import Registrar.Proofs.Freeform.Joining
import Registrar.Proofs.Freeform.Occurrences
import Registrar.Proofs.Freeform.Phrases
import Registrar.Proofs.Freeform.UserFields
import Registrar.Proofs.Freeform.Reachable
import Registrar.Proofs.Freeform.Repeated
import Registrar.Proofs.Freeform.Reread
import Registrar.Proofs.Freeform.RoundTrip
import Registrar.Proofs.Freeform.Secrecy
import Registrar.Proofs.Freeform.Written
import Registrar.Proofs.Gathered
import Registrar.Proofs.Json.Nested
import Registrar.Proofs.Json.Rereading
import Registrar.Proofs.Language.Clauses
import Registrar.Proofs.Language.Cutting
import Registrar.Proofs.Language.Meanings
import Registrar.Proofs.Language.Names
import Registrar.Proofs.Language.Offenders
import Registrar.Proofs.Language.Pieces
import Registrar.Proofs.Language.Queries
import Registrar.Proofs.Language.Renormalizing
import Registrar.Proofs.Language.Resuming
import Registrar.Proofs.Language.Scanning
import Registrar.Proofs.Language.Scopes
import Registrar.Proofs.Language.Vocabularies
import Registrar.Proofs.Payloads
import Registrar.Proofs.Reconverting
import Registrar.Proofs.Records
import Registrar.Proofs.Rows
import Registrar.Proofs.Tables
import Registrar.Proofs.Traversal
import Registrar.Proofs.Users
import Registrar.Proofs.Values
import Registrar.Proofs.Walks
import Registrar.Record
import Registrar.Row
import Registrar.Schema.ColumnNames
import Registrar.Schema.Composite
import Registrar.Schema.Domain
import Registrar.Schema.Domains
import Registrar.Schema.FieldKind
import Registrar.Schema.FlatShapes
import Registrar.Schema.ObjectTables
import Registrar.Schema.PayloadTypes
import Registrar.Schema.ProjectionNames
import Registrar.Schema.QueryNames
import Registrar.Schema.Shape
import Registrar.Schema.Slot
import Registrar.Schema.Vocabulary
import Registrar.Text.Blank
import Registrar.Text.Cursor
import Registrar.Text.Integer
import Registrar.Text.Letter
import Registrar.Text.Lowercase
import Registrar.Text.Printable
import Registrar.Text.Quoted
import Registrar.Text.Ranges
import Registrar.Text.Span
import Registrar.Text.Utf8
import Registrar.Text.Width
import Registrar.User
