import SchemaShapes.Text.Blank
import SchemaShapes.Text.Quoted
import SchemaShapes.Number.Layout
import SchemaShapes.Number.Numeral
import SchemaShapes.Json.Writer
import SchemaShapes.Json.Draft
import SchemaShapes.Rdf.Term
import SchemaShapes.Rdf.Graph
import SchemaShapes.Rdf.Fragment
import SchemaShapes.Rdf.SubjectIndex
import SchemaShapes.Schema.Edit
import SchemaShapes.Encoding
import SchemaShapes.Compile
import SchemaShapes.Output.NTriples
import SchemaShapes.Output.Turtle
import SchemaShapes.Output.JsonLd
import SchemaShapes.Schema.Reader
import SchemaShapes.Schema.Writer
import SchemaShapes.Main
import SchemaShapes.Proofs.Compile.Meaning
import SchemaShapes.Proofs.Compile.Lists
import SchemaShapes.Proofs.Compile.Ownership
import SchemaShapes.Proofs.Compile.Faults
import SchemaShapes.Proofs.Output.NTriples
import SchemaShapes.Proofs.Output.Turtle.Document
import SchemaShapes.Proofs.Output.JsonLd
import SchemaShapes.Proofs.Compile.Reordering
import SchemaShapes.Proofs.Compile.Extension
import SchemaShapes.Proofs.Compile.Options
import SchemaShapes.Proofs.Compile.Naming
import SchemaShapes.Proofs.Compile.Size
import SchemaShapes.Proofs.Compile.Log
import SchemaShapes.Proofs.Compile.Classes
import SchemaShapes.Proofs.Compile.Literals
import SchemaShapes.Proofs.Rdf.Surroundings
import SchemaShapes.Proofs.Compile.Strings
import SchemaShapes.Proofs.Compile.Lines
import SchemaShapes.Proofs.Compile.Ids
import SchemaShapes.Proofs.Schema.Documents
import SchemaShapes.Proofs.Json.InRange
import SchemaShapes.Proofs.Number.Range
import SchemaShapes.Proofs.Schema.Finite
import SchemaShapes.Proofs.Shape.Surroundings
import SchemaShapes.Proofs.Rdf.Walk
import SchemaShapes.Proofs.Encoding.Integers
import SchemaShapes.Proofs.Schema.TypeChain
import SchemaShapes.Proofs.Number.ReadBack
import SchemaShapes.Proofs.Encoding.Idempotence
import SchemaShapes.Proofs.Compile.Bounds
import SchemaShapes.Proofs.Rdf.Lookup
import SchemaShapes.Proofs.Rdf.Filling
import SchemaShapes.Proofs.Compile.Relocation
