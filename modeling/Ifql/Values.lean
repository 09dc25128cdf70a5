import Ifql.Ast
import Ifql.GoSlice

/-!
# Values, expression trees and the operation graph

The data the evaluator of `ifql/eval.go` computes with. Three packages meet here.

* `expression` (namespace `Expr`; not part of the sources, modelled from §4.1 of the
  specification): the tree a binary or logical expression evaluates to — `BinaryNode{op, left,
  right}` over references, member references and literal nodes — and `Expression{Root, Params}`.
* `query` (not part of the sources, modelled from §3): operation ids, operations, edges and the
  `QuerySpec` the evaluator returns.
* `ifql` itself: the `Type` tags, `Array`, `Map`, `Value` and `CallChain` of `eval.go`.

A Go `Value` is a pair of a `Type` tag and an `interface{}`; the tag is what the evaluator tests and
the dynamic type of the interface is what its type assertions test, and nothing in Go forces the two
to agree. `Dynamic` is that interface: the dynamic Go type and its value, so that a type assertion
that fails is a case of the model and not an impossibility of it. Pointers (`*CallChain`,
`*query.Operation`) are addresses into the evaluator's heaps.
-/

namespace Ifql

namespace Expr

/-- Modelled from the spec: `expression.Operator`, the operators `expressionOperator` and
`logicalOperator` produce. -/
inductive Operator where
  | equalOperator
  | notEqualOperator
  | regexpMatchOperator
  | regexpNotMatchOperator
  | startsWithOperator
  | multiplicationOperator
  | divisionOperator
  | additionOperator
  | subtractionOperator
  | lessThanEqualOperator
  | lessThanOperator
  | greaterThanEqualOperator
  | greaterThanOperator
  | inOperator
  | notEmptyOperator
  | andOperator
  | orOperator
  deriving DecidableEq, Repr

/-- Modelled from the spec: `expression.Node`, the nodes `primaryNode`, `binaryExpression` and
`logicalExpression` build. -/
inductive Node where
  | binaryNode (operator : Operator) (left right : Node)
  | stringLiteralNode (value : String)
  | booleanLiteralNode (value : Bool)
  | floatLiteralNode (value : UInt64)
  | integerLiteralNode (value : Int)
  | durationLiteralNode (value : Int)
  | timeLiteralNode (value : Int)
  | regexpLiteralNode (value : String)
  | referenceNode (name : String)
  | memberReferenceNode (object : Node) (property : String)
  deriving DecidableEq, Repr

/-- `node.Type() == expression.RegexpLiteral`. -/
def Node.isRegexpLiteral : Node → Bool
  | .regexpLiteralNode _ => true
  | _ => false

/-- Modelled from the spec: `expression.Expression`, a tree with the parameter names of the arrow
function it came from; `root` is `none` in the zero value `Expression{}`. -/
structure Expression where
  root : Option Node
  params : List String
  deriving DecidableEq, Repr

end Expr

namespace Query

/-- Modelled from the spec: `query.OperationID`. -/
abbrev OperationID := String

/-- Modelled from the spec: `query.Operation`; `spec` is `none` until `createOp` sets it. -/
structure Operation (Spec : Type) where
  id : OperationID
  spec : Option Spec
  deriving DecidableEq, Repr

/-- Modelled from the spec: `query.Edge`. -/
structure Edge where
  parent : OperationID
  child : OperationID
  deriving DecidableEq, Repr

/-- Modelled from the spec: `query.QuerySpec`. The operations are the ones its `[]*Operation`
points to, `none` standing for a `nil` pointer. -/
structure QuerySpec (Spec : Type) where
  operations : List (Option (Operation Spec))
  edges : List Edge

/-- Modelled from the spec: `query.Time`, an absolute instant or one relative to now (nanoseconds). -/
structure Time where
  absolute : Int
  relative : Int
  isRelative : Bool
  deriving DecidableEq, Repr

end Query

/-- `Type`, the tags of the values of the language. -/
inductive ValueType where
  | tInvalid
  | tString
  | tInt
  | tFloat
  | tBool
  | tTime
  | tDuration
  | tArray
  | tMap
  | tChain
  | tExpression
  deriving DecidableEq, Repr

/-- `Type.String()`. -/
def ValueType.toString : ValueType → String
  | .tString => "string"
  | .tInt => "int"
  | .tFloat => "float"
  | .tBool => "bool"
  | .tTime => "time"
  | .tDuration => "duration"
  | .tArray => "list"
  | .tMap => "map"
  | .tChain => "chain"
  | .tExpression => "expression"
  | .tInvalid => "unknown type 0"

/-- `Map`. No expression of the language evaluates to a map, so its `Elements` are never built
or read and are left out. -/
structure Map where
  type : ValueType
  deriving DecidableEq, Repr

mutual

/-- `Array`: the element tag and the typed Go slice `Elements` holds. -/
inductive Array where
  | mk (type : ValueType) (elements : Elements)

/-- The dynamic value of `Array.Elements`: `nil`, or a slice of one of the Go element types. -/
inductive Elements where
  | nil
  | strings (values : List String)
  | int64s (values : List Int)
  | float64s (values : List UInt64)
  | bools (values : List Bool)
  | times (values : List Int)
  | durations (values : List Int)
  | arrays (values : List Array)
  | maps (values : List Map)
  | chains (values : List Nat)
  | expressions (values : List Expr.Expression)

end

/-- The tag of an array. -/
def Array.type : Array → ValueType
  | .mk t _ => t

/-- The dynamic type and value held by an `interface{}`: `nil`, or one of the Go types a `Value`
may hold. A `*CallChain` is the address of a chain in the evaluator's heap. -/
inductive Dynamic where
  | nil
  | string (value : String)
  | int64 (value : Int)
  | float64 (value : UInt64)
  | bool (value : Bool)
  | time (value : Int)
  | duration (value : Int)
  | array (value : Array)
  | map (value : Map)
  | chain (value : Nat)
  | expression (value : Expr.Expression)

/-- `Value`: a tag and the dynamic value it is meant to describe. -/
structure Value where
  type : ValueType
  value : Dynamic

/-- The zero `Value{}`. -/
def Value.zero : Value := ⟨.tInvalid, .nil⟩

/-- `CallChain`: the tail operation and the operations and edges accumulated since the chain
was last drained. -/
structure CallChain where
  parent : Query.OperationID
  operations : Slice
  edges : Slice
  deriving DecidableEq, Repr

/-- The zero `CallChain`, as `new(CallChain)` allocates it. -/
def CallChain.zero : CallChain := ⟨"", .nil, .nil⟩

end Ifql
