import Breadboard.Text.Blank
import Breadboard.Text.WordChar
import Breadboard.Text.Scan
import Breadboard.Text.Printable
import Breadboard.ValueType.Basic
import Breadboard.ValueType.Widening
import Breadboard.Header.Comments
import Breadboard.Header.Blocks
import Breadboard.Header.TypeName
import Breadboard.Header.Warning
import Breadboard.Header.Parameter
import Breadboard.Header.Macro
import Breadboard.Header.Prototype
import Breadboard.Header.Class
import Breadboard.Header.Read
import Breadboard.Header.Parse
import Breadboard.Library.Basic
import Breadboard.Library.Core
import Breadboard.Library.Json
import Breadboard.Library.Catalog
import Breadboard.Library.Summary
import Breadboard.Decimal.Shortest
import Breadboard.Json.Value
import Breadboard.Json.Shape
import Breadboard.Json.Print
import Breadboard.Json.Error
import Breadboard.Json.Read
import Breadboard.Json.Decode
import Breadboard.Sketch.Basic
import Breadboard.Sketch.Palette
import Breadboard.Sketch.Connection
import Breadboard.Sketch.Export
import Breadboard.Compiler.Options
import Breadboard.Compiler.Index
import Breadboard.Compiler.Procedure
import Breadboard.Compiler.Expression
import Breadboard.Compiler.Compile
import Breadboard.Main
import Breadboard.Proofs.Comments
import Breadboard.Proofs.Compiler.Fuel
import Breadboard.Proofs.Compiler.Unfolding
import Breadboard.Proofs.Compiler.NodeOrder
import Breadboard.Proofs.Header.Names
import Breadboard.Proofs.Header.Parameters
import Breadboard.Proofs.Header.Keywords
import Breadboard.Proofs.Header.Lines
import Breadboard.Proofs.Header.Prototypes
import Breadboard.Proofs.Header.Classes
import Breadboard.Proofs.Header.RoundTrip
import Breadboard.Proofs.Compiler.DanglingEdges
import Breadboard.Proofs.Compiler.DependencyOrder
import Breadboard.Proofs.Compiler.Declarations
import Breadboard.Proofs.Json.Reading
import Breadboard.Proofs.Json.Decoding
import Breadboard.Proofs.Library.JsonRoundTrip
import Breadboard.Proofs.Header.Cuts
import Breadboard.Proofs.Compiler.Procedures
import Breadboard.Proofs.Library.CatalogLifecycle
import Breadboard.Proofs.Compiler.Palette
import Breadboard.Proofs.Compiler.Trees
import Breadboard.Proofs.Compiler.Construction
import Breadboard.Proofs.Header.ParameterPieces
import Breadboard.Proofs.Header.Braces
import Breadboard.Proofs.Sketch.EdgeChecks
import Breadboard.Proofs.Sketch.ExportConversion
import Breadboard.Proofs.Library.Grouping
import Breadboard.Proofs.Compiler.DepthFirst
import Breadboard.Proofs.Header.Initializers
import Breadboard.Proofs.Header.Faults
