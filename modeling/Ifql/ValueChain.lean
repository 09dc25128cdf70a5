import Ifql.Evaluator

/-!
# Call chains with value semantics

The design notes of the specification ask for a call chain to be "an immutable-by-default record of
operations+edges+tail", copied on branching "rather than sharing mutable slices", so that
`a = f(); b = a.g(); c = a.h()` branches rather than aliases. The Go evaluator does not keep chains
so: it keeps a chain's operations and edges in slices, and `memberFunction` copies a chain by
copying its slice headers (`Ifql.copyChain`).

This module is the evaluator the notes describe, and the abstract model of `ifql/eval.go`: the same
walk of the statements, the same `createOp`, ids, constructors and error texts, with a chain a
record of two lists. Copying a chain copies its lists, extending it appends to them, and `addChain`
moves them into the spec. `Ifql.Refinement` shows that `Evaluate` computes exactly this evaluator's
result on every program none of whose arguments calls a function, and `argumentCallProgram` that
it may not on one that does.

A chain passed as an argument is seen by a constructor only through its tail (`ChainParent`,
`LookupIDFromIdentifier`): `State.tails` is that view. The chain argument the Go functions take,
`nil` at every call, is left out.
-/

namespace Ifql.ValueChain

open Ast Query

/-- A call chain as a value: its tail, and the operations and edges accumulated since it was last
drained. -/
structure Chain where
  parent : OperationID
  operations : List (Option Nat)
  edges : List Edge

/-- The chain `new(CallChain)` stands for. -/
def Chain.zero : Chain := ⟨"", [], []⟩

/-- The evaluator's state, with chains as values. -/
structure State (Spec : Type) where
  id : Nat
  scope : Scope
  operations : List (Option Nat)
  edges : List Edge
  ops : Heap (Operation Spec)
  chains : Heap Chain

variable {Spec : Type}

/-- The state evaluation starts from. -/
def State.init : State Spec := ⟨0, newScope, [], [], .empty ⟨"", none⟩, .empty .zero⟩

/-- The chains as a constructor sees them: their tails. -/
def State.tails (s : State Spec) : Heap CallChain :=
  ⟨fun c => ⟨(s.chains.cells c).parent, .nil, .nil⟩, s.chains.size⟩

/-- The spec of a state. -/
def State.spec (s : State Spec) : QuerySpec Spec := ⟨s.operations.map (·.map s.ops.cells), s.edges⟩

/-- Evaluation: state, and an error or a panic. -/
abbrev M (Spec : Type) := StateT (State Spec) (Except Failure)

/-! ### Steps -/

/-- Draw the next id. -/
def nextID : M Spec Nat := modifyGet fun s => (s.id, { s with id := s.id + 1 })

/-- Allocate an operation. -/
def allocOp (op : Operation Spec) : M Spec Nat :=
  modifyGet fun s => ((s.ops.alloc op).2, { s with ops := (s.ops.alloc op).1 })

/-- Allocate a chain. -/
def allocChain (c : Chain) : M Spec Nat :=
  modifyGet fun s => ((s.chains.alloc c).2, { s with chains := (s.chains.alloc c).1 })

/-- Store a chain. -/
def setChain (p : Nat) (c : Chain) : M Spec Unit :=
  modify fun s => { s with chains := s.chains.set p c }

/-- Prefix an error; a panic passes through. -/
def wrapError {α : Type} (msg : String) (x : M Spec α) : M Spec α := fun s =>
  match x s with
  | .error (.error e) => .error (.error (msg ++ ": " ++ e))
  | r => r

/-- Call `createOp` on the function of that name. -/
def function {α : Type} (reg : Registry Spec) (name : String) (createOp : Ctor Spec → M Spec α) :
    M Spec α :=
  match reg.functions.lookup name with
  | none => throw (.error ("unknown function " ++ quote name))
  | some c => wrapError ("error calling function " ++ quote name) (createOp c)

/-- Call `createOp` on the method of that name. -/
def method {α : Type} (reg : Registry Spec) (name : String) (createOp : Ctor Spec → M Spec α) :
    M Spec α :=
  match reg.methods.lookup name with
  | none => throw (.error ("unknown method " ++ quote name))
  | some c => wrapError ("error calling method " ++ quote name) (createOp c)

/-- The operation `name ++ id`, with the next id. -/
def newOp (name : String) : M Spec Nat := do allocOp ⟨name ++ toString (← nextID), none⟩

/-- Run the constructor, reject unused arguments, set the spec. -/
def construct (op : Nat) (ctor : Ctor Spec) (params : List (String × Value)) :
    M Spec (List OperationID) := do
  let s ← get
  match runCtor s.scope s.tails ctor ⟨newArguments params, []⟩ with
  | .error p => throw (.panic p)
  | .ok (.error e, _) => throw (.error e)
  | .ok (.ok spec, st) =>
    if st.args.listUnused ≠ [] then
      throw (.error ("extra arguments provided: [" ++ ",".intercalate st.args.listUnused ++ "]"))
    else
      modify fun s => { s with ops := s.ops.set op { s.ops.cells op with spec := some spec } }
      pure st.parents

/-- A copy of the chain a variable holds, in a new chain. -/
def copyChain (n : String) : M Spec Nat := do
  match (← get).scope n with
  | none => throw (.error ("undefined identifier " ++ quote n))
  | some v =>
    if v.type ≠ .tChain then throw (.error ("variable " ++ quote n ++ " is not a function chain"))
    else match v.value with
      | .chain src => do
        let target ← allocChain .zero
        setChain target ((← get).chains.cells src)
        pure target
      | _ => throw (.panic "interface conversion: interface \x7b\x7d is not *ifql.CallChain")

/-- The value of a literal. -/
def doLiteral : Literal → M Spec Value
  | .dateTimeLiteral v => pure ⟨.tTime, .time v⟩
  | .durationLiteral v => pure ⟨.tDuration, .duration v⟩
  | .numberLiteral v => pure ⟨.tFloat, .float64 v⟩
  | .integerLiteral v => pure ⟨.tInt, .int64 v⟩
  | .stringLiteral v => pure ⟨.tString, .string v⟩
  | .booleanLiteral v => pure ⟨.tBool, .bool v⟩
  | .regexpLiteral _ => throw (.error "unknown literal type *ast.RegexpLiteral")

/-! ### Expressions and call chains -/

section Eval

variable (reg : Registry Spec)

mutual

/-- The value of an expression. -/
def doExpression : Ast.Expression → State Spec → Except Failure (Value × State Spec)
  | .literal l, s => doLiteral l s
  | .identifier name, s =>
    match s.scope name with
    | some v => .ok (v, s)
    | none => .error (.error ("undefined identifier " ++ quote name))
  | .callExpression c, s => (do
    let chain ← callFunction c
    pure ⟨.tChain, .chain chain⟩ : M Spec Value) s
  | .binaryExpression b, s =>
    match binaryExpression b with
    | .ok root => .ok (⟨.tExpression, .expression ⟨some root, []⟩⟩, s)
    | .error e => .error (.error e)
  | .logicalExpression l, s =>
    match logicalExpression l with
    | .ok root => .ok (⟨.tExpression, .expression ⟨some root, []⟩⟩, s)
    | .error e => .error (.error e)
  | .arrowFunctionExpression params body, s => (do
    let v ← doExpression body
    match v.value with
    | .expression e => pure { v with value := .expression { e with params := params } }
    | _ => throw (.panic "interface conversion: interface \x7b\x7d is not expression.Expression")
    : M Spec Value) s
  | .arrayExpression a, s => doArray a s
  | e@(.memberExpression _), _ => .error (.error ("unsupported expression " ++ typeName e))
  | e@(.objectExpression _), _ => .error (.error ("unsupported expression " ++ typeName e))

/-- The value of an array expression. -/
def doArray : ArrayExpression → State Spec → Except Failure (Value × State Spec)
  | .mk els, s => (do
    let (t, vs) ← doElements els .tInvalid
    match toElements t vs with
    | .ok elements => pure ⟨.tArray, .array (.mk t elements)⟩
    | .error f => throw f : M Spec Value) s

/-- The elements of an array, carrying the array's type. -/
def doElements : List Ast.Expression → ValueType → State Spec →
    Except Failure ((ValueType × List Value) × State Spec)
  | [], t, s => .ok ((t, []), s)
  | el :: els, t, s => (do
    let v ← doExpression el
    let t := if t = .tInvalid then v.type else t
    if t ≠ v.type then
      throw (.error ("cannot mix types in an array, found both " ++ t.toString ++ " and " ++
        v.type.toString))
    let (t, vs) ← doElements els t
    pure (t, v :: vs) : M Spec (ValueType × List Value)) s

/-- A call: a function call starts a new chain with its operation and the edges from its parents; a
method call extends the chain of its object by the operation, the edge from the chain's tail and
those from the other parents. -/
def callFunction : CallExpression → State Spec → Except Failure (Nat × State Spec)
  | .mk (.identifier name) args, s => (do
    let (op, parents) ← function reg name (createOp name · args)
    let opID := ((← get).ops.cells op).id
    allocChain ⟨opID, [some op], parents.map fun p => ⟨p, opID⟩⟩ : M Spec Nat) s
  | .mk (.memberExpression m) args, s => (do
    let (chain, name) ← memberFunction m
    let (op, parents) ← method reg name (createOp name · args)
    let opID := ((← get).ops.cells op).id
    let c := (← get).chains.cells chain
    setChain chain ⟨opID, c.operations ++ [some op],
      c.edges ++ ⟨c.parent, opID⟩ :: (parents.filter (· ≠ c.parent)).map fun p => ⟨p, opID⟩⟩
    pure chain : M Spec Nat) s
  | .mk callee _, _ => .error (.error ("Unsupported callee expression type " ++ badVerb callee))

/-- The chain a method call extends, a copy of a variable's, and the method's name. -/
def memberFunction : MemberExpression → State Spec → Except Failure ((Nat × String) × State Spec)
  | .mk obj prop, s => (do
    let chain ← match obj with
      | .callExpression c => callFunction c
      | .identifier n => copyChain n
      | o => throw (.error ("unsupported member expression object type " ++ badVerb o))
    match prop with
    | .identifier name => pure (chain, name)
    | _ => throw (.panic "interface conversion: ast.Expression is not *ast.Identifier")
    : M Spec (Nat × String)) s

/-- Draw the id, resolve the keyword arguments, construct. -/
def createOp (name : String) (ctor : Ctor Spec) :
    List Ast.Expression → State Spec → Except Failure ((Nat × List OperationID) × State Spec)
  | [.objectExpression o], s => (do
    let op ← newOp name
    let parents ← construct op ctor (← resolveParameters o)
    pure (op, parents) : M Spec (Nat × List OperationID)) s
  | [_], s => (do
    let _ ← newOp name
    throw (.error "arguments not a valid object expression") : M Spec (Nat × List OperationID)) s
  | _, s => (do
    let op ← newOp name
    let parents ← construct op ctor []
    pure (op, parents) : M Spec (Nat × List OperationID)) s

/-- The keyword arguments of an argument object. -/
def resolveParameters : ObjectExpression → State Spec →
    Except Failure (List (String × Value) × State Spec)
  | .mk props, s => resolveProperties props [] s

/-- The properties of an argument object, after those resolved so far. -/
def resolveProperties : List Property → List (String × Value) → State Spec →
    Except Failure (List (String × Value) × State Spec)
  | [], acc, s => .ok (acc, s)
  | .mk key value :: props, acc, s => (do
    let v ← doExpression value
    if (acc.lookup key).isSome then
      throw (.error ("duplicate keyword parameter specified: " ++ quote key))
    resolveProperties props (acc ++ [(key, v)]) : M Spec (List (String × Value))) s

end

/-! ### Statements -/

/-- Move the chain's operations and edges into the spec, and empty it. -/
def addChain (p : Nat) : M Spec Unit :=
  modify fun s =>
    let c := s.chains.cells p
    { s with
      operations := s.operations ++ c.operations
      edges := s.edges ++ c.edges
      chains := s.chains.set p { c with operations := [], edges := [] } }

/-- A statement whose value is a chain drains it. -/
def drain (v : Value) : M Spec Unit :=
  if v.type = .tChain then
    match v.value with
    | .chain p => addChain p
    | _ => throw (.panic "interface conversion: interface \x7b\x7d is not *ifql.CallChain")
  else pure ()

/-- A variable declaration: bind each variable, and drain its value. -/
def doVariableDeclaration : List VariableDeclarator → State Spec → Except Failure (Unit × State Spec)
  | [], s => .ok ((), s)
  | vd :: vds, s => (do
    let v ← doExpression reg vd.init
    modify fun s => { s with scope := s.scope.set vd.id v }
    drain v
    doVariableDeclaration vds : M Spec Unit) s

/-- One statement. -/
def doStatement : Statement → M Spec Unit
  | .variableDeclaration ds => doVariableDeclaration reg ds
  | .expressionStatement e => do drain (← doExpression reg e)

/-- The statements of a program, in turn. -/
def doStatements : List Statement → State Spec → Except Failure (Unit × State Spec)
  | [], s => .ok ((), s)
  | st :: sts, s => (do doStatement reg st; doStatements sts : M Spec Unit) s

/-- The spec of a program. -/
def evaluate (p : Program) : Except Failure (QuerySpec Spec) :=
  (fun r => r.2.spec) <$> doStatements reg p.body .init

end Eval

end Ifql.ValueChain
