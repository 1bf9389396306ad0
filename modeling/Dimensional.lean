import Dimensional.Formula.Names
import Dimensional.Session
import Dimensional.Proofs.Fallible
import Dimensional.Proofs.FirstSeen
import Dimensional.Proofs.Decimal.Finite
import Dimensional.Proofs.Decimal.Order
import Dimensional.Proofs.Dimension.Text
import Dimensional.Proofs.Character.Class
import Dimensional.Proofs.Formula.Break
import Dimensional.Proofs.Formula.Tree
import Dimensional.Proofs.Formula.Written
import Dimensional.Proofs.Failure
import Dimensional.Proofs.Environment
import Dimensional.Proofs.Snapshot
import Dimensional.Proofs.Formula.Rule
import Dimensional.Proofs.Formula.Value
import Dimensional.Proofs.Formula.Arranged
import Dimensional.Proofs.Formula.Composed
import Dimensional.Proofs.MeasureUnit.Tree
import Dimensional.Proofs.MeasureUnit.Spelled
import Dimensional.Proofs.Formula.Inline
import Dimensional.Proofs.Formula.Lockstep
import Dimensional.Proofs.Formula.Height
import Dimensional.Proofs.Formula.Trace
import Dimensional.Proofs.Formula.Supplied
import Dimensional.Proofs.Formula.Spaced
import Dimensional.Proofs.Formula.Steady
import Dimensional.Proofs.MeasureUnit.ComplexPower
import Dimensional.Proofs.MeasureUnit.Arranged
import Dimensional.Proofs.MeasureUnit.InParens
import Dimensional.Proofs.MeasureUnit.Composed
import Dimensional.Proofs.Formula.InPlace
import Dimensional.Proofs.Formula.Reordered
import Dimensional.Proofs.Formula.Depth
import Dimensional.Proofs.Formula.Reach
import Dimensional.Proofs.Formula.Unwritable
import Dimensional.Proofs.Formula.Names
import Dimensional.Proofs.MeasureUnit.Overflow
import Dimensional.Proofs.MeasureUnit.Blanks
import Dimensional.Proofs.MeasureUnit.Passes
import Dimensional.Proofs.Formula.Bare
import Dimensional.Proofs.Formula.Tolerance
import Dimensional.Proofs.Item
import Dimensional.Proofs.Formula.Assembled
import Dimensional.Proofs.Measured
import Dimensional.Proofs.Decimal.Exact
import Dimensional.Proofs.Decimal.Whole
import Dimensional.Proofs.Dimension.Whole
import Dimensional.Proofs.MeasureUnit.Factors
import Dimensional.Proofs.MeasureUnit.Printed
import Dimensional.Proofs.Formula.Stuck
import Dimensional.Proofs.Raw.Exponents
import Dimensional.Proofs.Raw.MeasureUnit
import Dimensional.Proofs.Raw.Evaluate
