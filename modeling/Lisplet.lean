import Lisplet.Callable
import Lisplet.Error
import Lisplet.Eval.Action
import Lisplet.Eval.Evaluate
import Lisplet.Host.Stock
import Lisplet.Literal
import Lisplet.Number
import Lisplet.Outlet
import Lisplet.Primitive
import Lisplet.Proofs.Machine.Agreement
import Lisplet.Proofs.Machine.Basic
import Lisplet.Proofs.Machine.Confinement
import Lisplet.Proofs.Machine.Discipline
import Lisplet.Proofs.Machine.Prints
import Lisplet.Proofs.Reader.Atoms
import Lisplet.Proofs.Reader.Blame
import Lisplet.Proofs.Reader.Conservation
import Lisplet.Proofs.Reader.Faults
import Lisplet.Proofs.Reader.Flattening
import Lisplet.Proofs.Reader.Grammar
import Lisplet.Proofs.Reader.Literals
import Lisplet.Proofs.Reader.Reading
import Lisplet.Proofs.Reader.RoundTrip
import Lisplet.Proofs.Reader.Scanning
import Lisplet.Proofs.Reader.Shapes
import Lisplet.Proofs.Reader.Spacing
import Lisplet.Proofs.Reader.Taps
import Lisplet.Proofs.Reader.Tiling
import Lisplet.Proofs.Renaming.Basic
import Lisplet.Proofs.Renaming.LetForms
import Lisplet.Proofs.Renaming.Lockstep
import Lisplet.Proofs.Renaming.Names
import Lisplet.Proofs.Renaming.Results
import Lisplet.Proofs.Runs.Failures
import Lisplet.Proofs.Runs.FrameOrder
import Lisplet.Proofs.Runs.Outlets
import Lisplet.Proofs.Runs.ShownCode
import Lisplet.Proofs.Runs.Unmentioned
import Lisplet.Proofs.Semantics.Adequacy
import Lisplet.Proofs.Semantics.Cases
import Lisplet.Proofs.Semantics.Growth
import Lisplet.Proofs.Semantics.Reentry
import Lisplet.Proofs.Semantics.Rules
import Lisplet.Proofs.Semantics.Runs
import Lisplet.Proofs.Semantics.Soundness
import Lisplet.Proofs.Session.Independence
import Lisplet.Proofs.Session.Mounting
import Lisplet.Proofs.Store.Defining
import Lisplet.Proofs.Store.Histories
import Lisplet.Proofs.Values.Arithmetic
import Lisplet.Proofs.Values.Criterion
import Lisplet.Proofs.Values.Legibility
import Lisplet.Proofs.Values.Sameness
import Lisplet.Reader.Stream
import Lisplet.Reader.Tree
import Lisplet.Real.Double
import Lisplet.Real.Shortest
import Lisplet.Session
import Lisplet.SpecialForm
import Lisplet.Store
import Lisplet.Text
import Lisplet.Token
import Lisplet.Value
import Lisplet.Value.Equality
import Lisplet.Value.Render
