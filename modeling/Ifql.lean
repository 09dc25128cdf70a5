import Ifql.Ast
import Ifql.GoSlice
import Ifql.Values
import Ifql.Arguments
import Ifql.Evaluator
import Ifql.PushDown
import Ifql.Block
import Ifql.Storage
import Ifql.Filter
import Ifql.OperationIds
import Ifql.MaxSelector
import Ifql.Select
import Ifql.WellTagged
import Ifql.Constructed
import Ifql.Growth
import Ifql.CreationOrder
import Ifql.ForwardEdges
import Ifql.Refinement
