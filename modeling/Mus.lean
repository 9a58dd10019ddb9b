import Mus.Line.Conversion
import Mus.Line.Execute
import Mus.Line.Fault
import Mus.Line.Notice
import Mus.Line.Scanner
import Mus.Line.Shape
import Mus.Line.Signature
import Mus.Line.State
import Mus.Line.Token
import Mus.Machine.Basic
import Mus.Machine.Eval
import Mus.Machine.Fault
import Mus.Machine.Interpret
import Mus.Main
import Mus.Number.Basic
import Mus.Number.Integer
import Mus.Number.Real
import Mus.Number.Shortest
import Mus.Session
import Mus.Source.Directory
import Mus.Source.Utf8
import Mus.Store.Basic
import Mus.Store.Equality
import Mus.Store.Load
import Mus.Store.Object
import Mus.Store.Scope
import Mus.Store.Table
import Mus.Store.Text
import Mus.Syntax.Basic
import Mus.Syntax.Cursor
import Mus.Syntax.Description
import Mus.Syntax.Fault
import Mus.Syntax.Names
import Mus.Syntax.Parser.Expression
import Mus.Syntax.Parser.Statement
import Mus.Syntax.Size
import Mus.Syntax.StmtDescription
import Mus.Text.Blank
import Mus.Text.Digit
import Mus.Text.Letter
import Mus.Text.Lowercase
import Mus.Text.Printable
import Mus.Text.Quoted
import Mus.Text.Ranges
import Mus.Token.Fault
import Mus.Token.Kind
import Mus.Token.Scanner
import Mus.Proofs.Store.Ancestry
import Mus.Proofs.Store.Objects
import Mus.Proofs.Store.References
import Mus.Proofs.Machine.Looking
import Mus.Proofs.Machine.Standpoint
import Mus.Proofs.Machine.Data
import Mus.Proofs.Machine.Sourced
import Mus.Proofs.Machine.Loading
import Mus.Proofs.Machine.Steady
import Mus.Proofs.Machine.Frame
import Mus.Proofs.Machine.Moment
import Mus.Proofs.Machine.Printing
import Mus.Proofs.Machine.Rules
import Mus.Proofs.Machine.Echo
import Mus.Proofs.Machine.Ancestry
import Mus.Proofs.Machine.Returning
import Mus.Proofs.Machine.Fields
import Mus.Proofs.Machine.Superclass
import Mus.Proofs.Machine.Variables
import Mus.Proofs.Machine.Repeating
import Mus.Proofs.Store.Pairing
import Mus.Proofs.Store.PairedChanges
import Mus.Proofs.Store.PairedLookup
import Mus.Proofs.Store.PairedEquality
import Mus.Proofs.Store.PairedText
import Mus.Proofs.Machine.Correspondence
import Mus.Proofs.Machine.Simulation
import Mus.Proofs.Machine.Closed
import Mus.Proofs.Machine.CountingLoop
import Mus.Proofs.Syntax.Steps
import Mus.Proofs.Syntax.Described
import Mus.Proofs.Syntax.Written
import Mus.Proofs.Syntax.Grammar
import Mus.Proofs.Syntax.Rules
import Mus.Proofs.Syntax.Bound
import Mus.Proofs.Syntax.Deriving
import Mus.Proofs.Syntax.Progress
import Mus.Proofs.Syntax.Totality
import Mus.Proofs.Syntax.Soundness
import Mus.Proofs.Syntax.Reading
import Mus.Proofs.Syntax.RoundTrip
import Mus.Proofs.Syntax.Carrying
import Mus.Proofs.Syntax.Joining
import Mus.Proofs.Syntax.Braces
import Mus.Proofs.Syntax.Recovery
import Mus.Proofs.Token.Layout
import Mus.Proofs.Token.Scanned
import Mus.Proofs.Token.Cut
import Mus.Proofs.Token.Sourced
import Mus.Proofs.Line.Agreement
import Mus.Proofs.Line.Typed
import Mus.Proofs.Line.Shapes
import Mus.Proofs.Line.Converting
import Mus.Proofs.Line.Bodies
import Mus.Proofs.Line.Comparing
import Mus.Proofs.Line.Spaced
import Mus.Proofs.Line.Fragments
import Mus.Proofs.Line.Numbering
import Mus.Proofs.Line.Requoting
import Mus.Proofs.Token.Reading
import Mus.Proofs.Token.Respacing
import Mus.Proofs.Token.Places
import Mus.Proofs.Syntax.Emitted
import Mus.Proofs.Session.Running
import Mus.Proofs.Session.Unscanned
import Mus.Proofs.Session.Lines
import Mus.Proofs.Session.DataOnly
import Mus.Proofs.Session.Lookup
import Mus.Proofs.Session.Nested
import Mus.Proofs.Syntax.Placeholders
import Mus.Proofs.Session.Assignment
import Mus.Proofs.Session.Indexing
import Mus.Proofs.Session.Scoping
import Mus.Proofs.Arithmetic.Formula
import Mus.Proofs.Arithmetic.Placed
import Mus.Proofs.Arithmetic.Evaluation
import Mus.Proofs.Arithmetic.Running
