import ResourceQuery.Ascending
import ResourceQuery.CommandLine.Arguments
import ResourceQuery.CommandLine.Help
import ResourceQuery.CommandLine.Listing
import ResourceQuery.CommandLine.Paint
import ResourceQuery.CommandLine.Run
import ResourceQuery.Config
import ResourceQuery.Decimal.Layout
import ResourceQuery.Decimal.Reading
import ResourceQuery.Decimal.Shortest
import ResourceQuery.ErrorTree
import ResourceQuery.ErrorTree.Expansion
import ResourceQuery.ErrorTree.Payload
import ResourceQuery.Failure
import ResourceQuery.Files
import ResourceQuery.Filter
import ResourceQuery.Filter.Builder
import ResourceQuery.Filter.Wire
import ResourceQuery.Json
import ResourceQuery.Json.Decoding
import ResourceQuery.Json.Encoding
import ResourceQuery.Json.Printer
import ResourceQuery.Json.Reader
import ResourceQuery.Log
import ResourceQuery.Main
import ResourceQuery.Names
import ResourceQuery.Params
import ResourceQuery.Path
import ResourceQuery.Query
import ResourceQuery.Query.Builder
import ResourceQuery.Query.Rendering
import ResourceQuery.Query.Wire
import ResourceQuery.QueryString
import ResourceQuery.Reading
import ResourceQuery.Relationship.Compact
import ResourceQuery.Repository
import ResourceQuery.Text.CodePoints
import ResourceQuery.Text.Quoted
import ResourceQuery.Toml
import ResourceQuery.Toml.Atom
import ResourceQuery.Toml.Reader
import ResourceQuery.Toml.Text
import ResourceQuery.Proofs.CommandLine.AllOrNothing
import ResourceQuery.Proofs.CommandLine.Explain
import ResourceQuery.Proofs.Config.Obtained
import ResourceQuery.Proofs.ErrorTree.Conservation
import ResourceQuery.Proofs.ErrorTree.Descent
import ResourceQuery.Proofs.ErrorTree.Encoding
import ResourceQuery.Proofs.ErrorTree.Fate
import ResourceQuery.Proofs.ErrorTree.Flatten
import ResourceQuery.Proofs.ErrorTree.Idempotent
import ResourceQuery.Proofs.ErrorTree.Independence
import ResourceQuery.Proofs.ErrorTree.LevelKind
import ResourceQuery.Proofs.ErrorTree.Log
import ResourceQuery.Proofs.ErrorTree.NormalForm
import ResourceQuery.Proofs.ErrorTree.Payload
import ResourceQuery.Proofs.ErrorTree.ReadBack
import ResourceQuery.Proofs.Filter.Program
import ResourceQuery.Proofs.Filter.ReadBack
import ResourceQuery.Proofs.Filter.Unambiguous
import ResourceQuery.Proofs.Params.ReadBack
import ResourceQuery.Proofs.Params.Stable
import ResourceQuery.Proofs.Path.Index
import ResourceQuery.Proofs.Query.Built
import ResourceQuery.Proofs.Query.Canonical
import ResourceQuery.Proofs.Query.Composition
import ResourceQuery.Proofs.Query.ReadBack
import ResourceQuery.Proofs.Query.Rendering
import ResourceQuery.Proofs.Query.Warnings
import ResourceQuery.Proofs.QueryString.Faithful
import ResourceQuery.Proofs.QueryString.FormEncoding
import ResourceQuery.Proofs.QueryString.Leaves
import ResourceQuery.Proofs.QueryString.Traceable
import ResourceQuery.Proofs.Relationship.Grammar
import ResourceQuery.Proofs.Relationship.Position
import ResourceQuery.Proofs.Relationship.Productions
import ResourceQuery.Proofs.Repository.Run
