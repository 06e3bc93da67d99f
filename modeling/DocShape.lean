import DocShape.Inference
import DocShape.Registry
import DocShape.Proofs.SystemFields
import DocShape.Proofs.Description.Containment
import DocShape.Proofs.Description.Limits
import DocShape.Proofs.Description.FieldNames
import DocShape.Proofs.Description.NullPart
import DocShape.Proofs.Description.RoundTrip
import DocShape.Proofs.Inference.Samples
import DocShape.Proofs.Number.Agreement
import DocShape.Proofs.Registry.Database
import DocShape.Proofs.Registry.WellFormed
import DocShape.Proofs.Shape.Unambiguous
import DocShape.Proofs.Table.DefaultDocument
import DocShape.Proofs.Table.Unambiguous
import DocShape.Proofs.Table.Repair
import DocShape.Proofs.Description.Markers
import DocShape.Proofs.Shape.UnionMessage
import DocShape.Proofs.Shape.Places
import DocShape.Proofs.Shape.OneMember
import DocShape.Proofs.Shape.UnionLayout
import DocShape.Proofs.Table.Failure
import DocShape.Proofs.Table.IndexLists
import DocShape.Proofs.Description.Account
import DocShape.Proofs.Shape.OneLine
import DocShape.Proofs.Registry.Order
import DocShape.Proofs.Text.Quotation
import DocShape.Proofs.Shape.Glyphs
import DocShape.Proofs.Text.Spacing
import DocShape.Proofs.Shape.Spacing
import DocShape.Proofs.Table.Spacing
import DocShape.Proofs.Text.Indentation
import DocShape.Proofs.Shape.Indentation
import DocShape.Proofs.Shape.Levels
import DocShape.Proofs.Table.Levels
import DocShape.Proofs.Description.Nesting
import DocShape.Proofs.Inference.Merge
import DocShape.Proofs.Index.Spelling
import DocShape.Proofs.Table.IndexLines
