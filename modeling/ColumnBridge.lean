import ColumnBridge.Call.Export
import ColumnBridge.Handle.Custody
import ColumnBridge.Handle.Interleaving
import ColumnBridge.Learning
import ColumnBridge.VectorLayout
import ColumnBridge.Proofs.Call.Refinement
import ColumnBridge.Proofs.Matrix.RoundTrip
import ColumnBridge.Proofs.Boundary.Message
import ColumnBridge.Proofs.Boundary.Outcome
import ColumnBridge.Proofs.Call.Atomicity
import ColumnBridge.Proofs.OneHot.Encoding
import ColumnBridge.Proofs.Handle.History
import ColumnBridge.Proofs.Handle.Interleaving
import ColumnBridge.Proofs.Handle.Separation
import ColumnBridge.Proofs.Call.Accesses
import ColumnBridge.Proofs.Call.Interleaving
import ColumnBridge.Proofs.Handle.Ownership
import ColumnBridge.Proofs.Handle.Custody
import ColumnBridge.Proofs.Column.Delivery
import ColumnBridge.Proofs.Matrix.Refusal
import ColumnBridge.Proofs.Call.Reading
import ColumnBridge.Proofs.Learning.Dialogue
import ColumnBridge.Proofs.Learning.Supervision
import ColumnBridge.Proofs.Boundary.Reporting
import ColumnBridge.Proofs.Matrix.NonNumeric
import ColumnBridge.Proofs.Matrix.Bounds
import ColumnBridge.Proofs.Matrix.FirstMisfit
import ColumnBridge.Proofs.Matrix.Layout
import ColumnBridge.Proofs.OneHot.Recovery
import ColumnBridge.Proofs.Learning.Vectors
import ColumnBridge.Proofs.Boundary.Attribution
import ColumnBridge.Proofs.Matrix.Room
import ColumnBridge.Proofs.Matrix.Stacking
import ColumnBridge.Proofs.Column.Widening
import ColumnBridge.Proofs.OneHot.Appending
import ColumnBridge.Proofs.Call.Assembly
import ColumnBridge.Proofs.Learning.Prediction
import ColumnBridge.Proofs.Learning.Comparison
import ColumnBridge.Proofs.Call.Passage
import ColumnBridge.Proofs.Call.Texts
import ColumnBridge.Proofs.Call.Rounding
import ColumnBridge.Proofs.Boundary.Limits
import ColumnBridge.Proofs.Boundary.Verbosity
import ColumnBridge.Proofs.Text.Cutting
import ColumnBridge.Proofs.VectorLayout.Density
import ColumnBridge.Proofs.Boundary.Numerals
