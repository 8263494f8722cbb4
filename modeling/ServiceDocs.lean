import ServiceDocs.DocComment
import ServiceDocs.Main
import ServiceDocs.Proofs.Expansion.Unfolding
import ServiceDocs.Proofs.Generation.Outcome
import ServiceDocs.Proofs.Field.Order
import ServiceDocs.Proofs.Page.Table
import ServiceDocs.Proofs.Field.Payload
import ServiceDocs.Proofs.Expansion.Payload
import ServiceDocs.Proofs.Catalog.Superclasses
import ServiceDocs.Proofs.Catalog.Index
import ServiceDocs.Proofs.Json.Scalar
import ServiceDocs.Proofs.Json.Written
import ServiceDocs.Proofs.Json.Parts
import ServiceDocs.Proofs.TypeExpr.Codec
import ServiceDocs.Proofs.Field.Codec
import ServiceDocs.Proofs.Expansion.Model
import ServiceDocs.Proofs.Json.PrettyLines
import ServiceDocs.Proofs.Page.Headings
import ServiceDocs.Proofs.Page.Sections
import ServiceDocs.Proofs.Json.Members
import ServiceDocs.Proofs.Settings.Environment
import ServiceDocs.Proofs.Settings.Merged
import ServiceDocs.Proofs.Settings.Layers
import ServiceDocs.Proofs.Settings.Loading
import ServiceDocs.Proofs.Expansion.Truncation
import ServiceDocs.Proofs.Expansion.Saturation
import ServiceDocs.Proofs.Expansion.Unresolved
import ServiceDocs.Proofs.Java.Layout
import ServiceDocs.Proofs.Java.Comments
import ServiceDocs.Proofs.Catalog.Sources
import ServiceDocs.Proofs.Generation.Repetition
import ServiceDocs.Proofs.Catalog.Instantiation
import ServiceDocs.Proofs.Page.Columns
import ServiceDocs.Proofs.DocComment.Written
import ServiceDocs.Proofs.Catalog.Printed
import ServiceDocs.Proofs.Stem.Least
import ServiceDocs.Proofs.Expansion.Classification
import ServiceDocs.Proofs.Expansion.Response
import ServiceDocs.Proofs.Settings.Saved
import ServiceDocs.Proofs.Constraint
import ServiceDocs.Proofs.Settings.Directory
import ServiceDocs.Proofs.DocComment.Wordless
import ServiceDocs.Proofs.DocComment.InlineTags
import ServiceDocs.Proofs.Catalog.Redeclared
import ServiceDocs.Proofs.Java.Attribution
import ServiceDocs.Proofs.Identifier
import ServiceDocs.Proofs.DocComment.Delimiters
import ServiceDocs.Proofs.Signature
