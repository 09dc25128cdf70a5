import Mathlib.Data.List.Basic

/-!
# The program syntax the evaluator consumes

The `ast` package is not part of the sources; its node kinds are those §6 of the specification
lists, and their fields are the ones `eval.go` reads. It is restricted to the node kinds the
evaluator of `ifql/eval.go` switches on: identifiers, call, member, arrow-function, binary,
logical, array and object expressions, and the seven literals. The Go types that `eval.go` takes
by pointer (`*ast.CallExpression`, `*ast.MemberExpression`, `*ast.BinaryExpression`,
`*ast.LogicalExpression`, `*ast.ArrayExpression`, `*ast.ObjectExpression`, `*ast.Property`) are
their own inductive types here, so that the evaluator's functions recurse on exactly the node
they receive in the source and every recursion is structural.

Values of the literals are kept as the source carries them: `time.Time` and `time.Duration` as
nanosecond integers, `int64` as an integer (the evaluator only copies it), and a `float64` as its
IEEE-754 bit pattern, which the evaluator also only copies. A regular-expression literal is kept
as its source text, the only thing `primaryNode` reads of it (`Value.String()`).
-/

namespace Ifql.Ast

/-- Modelled from the spec: `ast.OperatorKind`, the operators a binary expression may carry. -/
inductive OperatorKind where
  | equalOperator
  | notEqualOperator
  | startsWithOperator
  | multiplicationOperator
  | divisionOperator
  | additionOperator
  | subtractionOperator
  | lessThanEqualOperator
  | lessThanOperator
  | greaterThanEqualOperator
  | greaterThanOperator
  | inOperator
  | notEmptyOperator
  deriving DecidableEq, Repr

/-- Modelled from the spec: `ast.LogicalOperatorKind`. -/
inductive LogicalOperatorKind where
  | andOperator
  | orOperator
  deriving DecidableEq, Repr

/-- Modelled from the spec: the nodes implementing the `ast.Literal` interface. -/
inductive Literal where
  | dateTimeLiteral (value : Int)
  | durationLiteral (value : Int)
  | numberLiteral (value : UInt64)
  | integerLiteral (value : Int)
  | stringLiteral (value : String)
  | booleanLiteral (value : Bool)
  | regexpLiteral (value : String)
  deriving DecidableEq, Repr

mutual

/-- Modelled from the spec: `ast.Expression`, over the node kinds of §6. -/
inductive Expression where
  | identifier (name : String)
  | callExpression (call : CallExpression)
  | memberExpression (member : MemberExpression)
  | arrowFunctionExpression (params : List String) (body : Expression)
  | binaryExpression (binary : BinaryExpression)
  | logicalExpression (logical : LogicalExpression)
  | arrayExpression (array : ArrayExpression)
  | objectExpression (object : ObjectExpression)
  | literal (lit : Literal)

/-- Modelled from the spec: `ast.CallExpression`, a callee and the argument list as written. -/
inductive CallExpression where
  | mk (callee : Expression) (arguments : List Expression)

/-- Modelled from the spec: `ast.MemberExpression`, `object.property`, or `object["property"]`. -/
inductive MemberExpression where
  | mk (object : Expression) (property : Expression)

/-- Modelled from the spec: `ast.BinaryExpression`. -/
inductive BinaryExpression where
  | mk (operator : OperatorKind) (left right : Expression)

/-- Modelled from the spec: `ast.LogicalExpression`. -/
inductive LogicalExpression where
  | mk (operator : LogicalOperatorKind) (left right : Expression)

/-- Modelled from the spec: `ast.ArrayExpression`. -/
inductive ArrayExpression where
  | mk (elements : List Expression)

/-- Modelled from the spec: `ast.ObjectExpression`, the keyword-argument literal of a call. -/
inductive ObjectExpression where
  | mk (properties : List Property)

/-- Modelled from the spec: `ast.Property`, one `key: value` entry of an object expression. -/
inductive Property where
  | mk (key : String) (value : Expression)

end

/-- The key of a property. -/
def Property.key : Property → String
  | .mk key _ => key

/-- Modelled from the spec: `ast.VariableDeclarator`, `id = init`. -/
structure VariableDeclarator where
  id : String
  init : Expression

/-- Modelled from the spec: the statements of §6 that `Evaluate` accepts. -/
inductive Statement where
  | variableDeclaration (declarations : List VariableDeclarator)
  | expressionStatement (expression : Expression)

/-- Modelled from the spec: `ast.Program`. -/
structure Program where
  body : List Statement

end Ifql.Ast
