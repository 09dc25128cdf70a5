import Ifql.Arguments

/-!
# The evaluator of `ifql/eval.go`

`Evaluate` walks the statements of a program, lowering call chains into the operations and edges
of a `QuerySpec`. The model follows the source function by function, under its names, in the
state-and-failure monad `EvalM`: a Go `error` and a runtime panic are the two ways out.

The state holds what the Go evaluator reaches through pointers: the operations it allocates
(`ops`), the `CallChain` objects (`chains`), and the backing arrays of the chains' `Operations`
and `Edges` slices. That last part is not a detail: `memberFunction` copies a chain held by a
variable by copying its slice headers, so an `append` through the copy may write into an array the
variable's chain, or another copy of it, also views (`Slice.append`).

Two things of the source are fixed here rather than left open. The chain argument of
`callFunction` and `memberFunction` is `nil` at every call in the source; it is kept, and passed
`none`. The capacity Go gives a grown slice is the parameter `grow`. Error texts follow the source's
format strings; a `%t` or `%T` of a node prints the node's Go type.

What a run of an evaluator function promises is stated once, as `Post`: a property of the result and
final state when it returns, and of the failure when it fails. Its rules for `bind`, the checks,
`wrapError`, `function` and `method` serve every later invariant.
-/

namespace Ifql

open Ast Query

/-- `evaluator`, with the heaps its pointers reach. -/
structure Evaluator (Spec : Type) where
  id : Nat
  scope : Scope
  operations : List (Option Nat)
  edges : List Edge
  ops : Heap (Operation Spec)
  chains : Heap CallChain
  opArrays : Store (Option Nat)
  edgeArrays : Store Edge

/-- The evaluator `Evaluate` starts from. -/
def Evaluator.init {Spec : Type} : Evaluator Spec :=
  ⟨0, newScope, [], [], .empty ⟨"", none⟩, .empty .zero, .empty, .empty⟩

/-- Evaluation: state, and a Go error or panic. -/
abbrev EvalM (Spec : Type) := StateT (Evaluator Spec) (Except Failure)

section Bind

variable {Spec α β : Type} {x : EvalM Spec α} {f : α → EvalM Spec β} {s s' : Evaluator Spec}

/-- A step that succeeds hands its result and state to the rest of the computation. -/
theorem EvalM.bind_ok {a : α} (h : x s = .ok (a, s')) : (x >>= f) s = f a s' := by
  simp only [bind, StateT.bind, h]; rfl

/-- A step that fails ends the computation with its failure. -/
theorem EvalM.bind_error {e : Failure} (h : x s = .error e) : (x >>= f) s = .error e := by
  simp only [bind, StateT.bind, h]; rfl

/-- A computation that succeeds succeeded at its first step, and then at the rest. -/
theorem EvalM.bind_eq_ok {b : β} (h : (x >>= f) s = .ok (b, s')) :
    ∃ a s1, x s = .ok (a, s1) ∧ f a s1 = .ok (b, s') := by
  simp only [bind, StateT.bind] at h
  rcases hx : x s with e | ⟨a, s1⟩ <;> rw [hx] at h
  · cases h
  · exact ⟨a, s1, rfl, h⟩

/-- A check `if c { return ..., err }` that passes: its condition fails, and the rest of the block
goes on. -/
theorem EvalM.check_ok {c : Prop} [Decidable c] {e : Failure} {k : PUnit → EvalM Spec α}
    {r : α × Evaluator Spec} (h : (if c then throw e >>= k else pure PUnit.unit >>= k) s = .ok r) :
    ¬c ∧ k () s = .ok r := by
  by_cases hc : c
  · rw [if_pos hc] at h; cases h
  · rw [if_neg hc] at h; exact ⟨hc, h⟩

end Bind

/-! ### Expression trees -/

/-- The Go type of a node, as `%T` prints it. -/
def typeName : Ast.Expression → String
  | .identifier _ => "*ast.Identifier"
  | .callExpression _ => "*ast.CallExpression"
  | .memberExpression _ => "*ast.MemberExpression"
  | .arrowFunctionExpression _ _ => "*ast.ArrowFunctionExpression"
  | .binaryExpression _ => "*ast.BinaryExpression"
  | .logicalExpression _ => "*ast.LogicalExpression"
  | .arrayExpression _ => "*ast.ArrayExpression"
  | .objectExpression _ => "*ast.ObjectExpression"
  | .literal (.dateTimeLiteral _) => "*ast.DateTimeLiteral"
  | .literal (.durationLiteral _) => "*ast.DurationLiteral"
  | .literal (.numberLiteral _) => "*ast.NumberLiteral"
  | .literal (.integerLiteral _) => "*ast.IntegerLiteral"
  | .literal (.stringLiteral _) => "*ast.StringLiteral"
  | .literal (.booleanLiteral _) => "*ast.BooleanLiteral"
  | .literal (.regexpLiteral _) => "*ast.RegexpLiteral"

/-- `%t` of a node: Go's bad-verb form. -/
def badVerb (e : Ast.Expression) : String := "%!t(" ++ typeName e ++ ")"

/-- `expressionOperator`. Its `unknown operator` error is unreachable over the operator kinds. -/
def expressionOperator : OperatorKind → Bool → Expr.Operator
  | .equalOperator, isRegexp => if isRegexp then .regexpMatchOperator else .equalOperator
  | .notEqualOperator, isRegexp => if isRegexp then .regexpNotMatchOperator else .notEqualOperator
  | .startsWithOperator, _ => .startsWithOperator
  | .multiplicationOperator, _ => .multiplicationOperator
  | .divisionOperator, _ => .divisionOperator
  | .additionOperator, _ => .additionOperator
  | .subtractionOperator, _ => .subtractionOperator
  | .lessThanEqualOperator, _ => .lessThanEqualOperator
  | .lessThanOperator, _ => .lessThanOperator
  | .greaterThanEqualOperator, _ => .greaterThanEqualOperator
  | .greaterThanOperator, _ => .greaterThanOperator
  | .inOperator, _ => .inOperator
  | .notEmptyOperator, _ => .notEmptyOperator

/-- `logicalOperator`. -/
def logicalOperator : LogicalOperatorKind → Expr.Operator
  | .andOperator => .andOperator
  | .orOperator => .orOperator

/-- `propertyName`. -/
def propertyName : Ast.Expression → Except String String
  | .identifier n => .ok n
  | .literal (.stringLiteral v) => .ok v
  | p => .error ("unsupported property expression of type " ++ typeName p)

mutual

/-- `binaryOperation`. -/
def binaryOperation : Ast.Expression → Except String Expr.Node
  | .binaryExpression b => binaryExpression b
  | .logicalExpression l => logicalExpression l
  | e => .error ("Expression type expected to be arithmatic, relational or logical, but is " ++
      badVerb e)

/-- `binaryExpression`. -/
def binaryExpression : BinaryExpression → Except String Expr.Node
  | .mk op l r => do
    let lhs ← primaryNode l
    let rhs ← primaryNode r
    pure (.binaryNode (expressionOperator op (lhs.isRegexpLiteral || rhs.isRegexpLiteral)) lhs rhs)

/-- `logicalExpression`. -/
def logicalExpression : LogicalExpression → Except String Expr.Node
  | .mk op l r => do
    let lhs ← binaryOperation l
    let rhs ← binaryOperation r
    pure (.binaryNode (logicalOperator op) lhs rhs)

/-- `primaryNode`. -/
def primaryNode : Ast.Expression → Except String Expr.Node
  | .binaryExpression b => binaryExpression b
  | .literal (.stringLiteral v) => .ok (.stringLiteralNode v)
  | .literal (.booleanLiteral v) => .ok (.booleanLiteralNode v)
  | .literal (.numberLiteral v) => .ok (.floatLiteralNode v)
  | .literal (.integerLiteral v) => .ok (.integerLiteralNode v)
  | .literal (.durationLiteral v) => .ok (.durationLiteralNode v)
  | .literal (.dateTimeLiteral v) => .ok (.timeLiteralNode v)
  | .literal (.regexpLiteral v) => .ok (.regexpLiteralNode v)
  | .identifier n => .ok (.referenceNode n)
  | .memberExpression (.mk o p) => do
    let o' ← primaryNode o
    let p' ← propertyName p
    pure (.memberReferenceNode o' p')
  | e => .error ("unknown primary type: " ++ typeName e)

end

/-! ### Values -/

variable {Spec : Type}

/-- `doLiteral`. -/
def doLiteral : Literal → EvalM Spec Value
  | .dateTimeLiteral v => pure ⟨.tTime, .time v⟩
  | .durationLiteral v => pure ⟨.tDuration, .duration v⟩
  | .numberLiteral v => pure ⟨.tFloat, .float64 v⟩
  | .integerLiteral v => pure ⟨.tInt, .int64 v⟩
  | .stringLiteral v => pure ⟨.tString, .string v⟩
  | .booleanLiteral v => pure ⟨.tBool, .bool v⟩
  | .regexpLiteral _ => throw (.error "unknown literal type *ast.RegexpLiteral")

/-- The type assertions of one case of `doArray`'s final switch, over every element. -/
def assertAll {β : Type} (f : Dynamic → Option β) (vs : List Value) : Except Failure (List β) :=
  match vs.mapM (f ·.value) with
  | some xs => .ok xs
  | none => .error (.panic "interface conversion: element of an array is not of the array's type")

/-- The final switch of `doArray`: the typed Go slice for the elements' common tag. -/
def toElements (t : ValueType) (vs : List Value) : Except Failure Elements :=
  match t with
  | .tString => .strings <$> assertAll (fun | .string x => some x | _ => none) vs
  | .tInt => .int64s <$> assertAll (fun | .int64 x => some x | _ => none) vs
  | .tFloat => .float64s <$> assertAll (fun | .float64 x => some x | _ => none) vs
  | .tBool => .bools <$> assertAll (fun | .bool x => some x | _ => none) vs
  | .tTime => .times <$> assertAll (fun | .time x => some x | _ => none) vs
  | .tDuration => .durations <$> assertAll (fun | .duration x => some x | _ => none) vs
  | .tArray => .arrays <$> assertAll (fun | .array x => some x | _ => none) vs
  | .tMap => .maps <$> assertAll (fun | .map x => some x | _ => none) vs
  | .tChain => .chains <$> assertAll (fun | .chain x => some x | _ => none) vs
  | .tExpression => .expressions <$> assertAll (fun | .expression x => some x | _ => none) vs
  | .tInvalid => .error (.error ("cannot define an array with elements of type " ++ t.toString))

/-! ### Heap operations -/

/-- `ev.nextID()`. -/
def nextID : EvalM Spec Nat := modifyGet fun ev => (ev.id, { ev with id := ev.id + 1 })

/-- Allocate an operation. -/
def allocOp (op : Operation Spec) : EvalM Spec Nat :=
  modifyGet fun ev => ((ev.ops.alloc op).2, { ev with ops := (ev.ops.alloc op).1 })

/-- Allocate a chain. -/
def allocChain (c : CallChain) : EvalM Spec Nat :=
  modifyGet fun ev => ((ev.chains.alloc c).2, { ev with chains := (ev.chains.alloc c).1 })

/-- Store a chain. -/
def setChain (p : Nat) (c : CallChain) : EvalM Spec Unit :=
  modify fun ev => { ev with chains := ev.chains.set p c }

/-- The slice literal `[]*query.Operation{op}`. -/
def literalOps (op : Nat) : EvalM Spec Slice :=
  modifyGet fun ev =>
    ((Slice.literal ev.opArrays [some op]).2, { ev with opArrays := (Slice.literal ev.opArrays [some op]).1 })

section Append

variable (grow : Nat → Nat)

/-- `append` to a chain's `Operations`. -/
def appendOp (s : Slice) (op : Nat) : EvalM Spec Slice :=
  modifyGet fun ev =>
    ((Slice.append none grow ev.opArrays s (some op)).2,
      { ev with opArrays := (Slice.append none grow ev.opArrays s (some op)).1 })

/-- `append` to a chain's `Edges`. -/
def appendEdge (s : Slice) (e : Edge) : EvalM Spec Slice :=
  modifyGet fun ev =>
    ((Slice.append ⟨"", ""⟩ grow ev.edgeArrays s e).2,
      { ev with edgeArrays := (Slice.append ⟨"", ""⟩ grow ev.edgeArrays s e).1 })

/-- The loop appending one edge `p → child` for each additional parent `p`. -/
def appendParents (child : OperationID) :
    Slice → List OperationID → Evaluator Spec → Except Failure (Slice × Evaluator Spec)
  | sl, [], s => .ok (sl, s)
  | sl, p :: ps, s => (do appendParents child (← appendEdge grow sl ⟨p, child⟩) ps : EvalM Spec Slice) s

end Append

/-- `errors.Wrapf(err, msg)`: prefix an error; a panic passes through. -/
def wrapError {α : Type} (msg : String) (x : EvalM Spec α) : EvalM Spec α := fun ev =>
  match x ev with
  | .error (.error e) => .error (.error (msg ++ ": " ++ e))
  | r => r

/-- `evaluator.function`: look the name up among the functions, and call `createOp` on it. -/
def function {α : Type} (reg : Registry Spec) (name : String) (createOp : Ctor Spec → EvalM Spec α) :
    EvalM Spec α :=
  match reg.functions.lookup name with
  | none => throw (.error ("unknown function " ++ quote name))
  | some c => wrapError ("error calling function " ++ quote name) (createOp c)

/-- `evaluator.method`. -/
def method {α : Type} (reg : Registry Spec) (name : String) (createOp : Ctor Spec → EvalM Spec α) :
    EvalM Spec α :=
  match reg.methods.lookup name with
  | none => throw (.error ("unknown method " ++ quote name))
  | some c => wrapError ("error calling method " ++ quote name) (createOp c)

/-! ### Postconditions -/

section Post

variable {α β : Type} {E : Failure → Prop} {Q : α → Evaluator Spec → Prop} {s : Evaluator Spec}

/-- What a run promises: `Q` of the result and the final state when it returns, `E` of the failure
when it fails. -/
def Post (E : Failure → Prop) (Q : α → Evaluator Spec → Prop) :
    Except Failure (α × Evaluator Spec) → Prop
  | .ok (a, s') => Q a s'
  | .error f => E f

theorem Post.ok {a : α} {s' : Evaluator Spec} (h : Q a s') : Post E Q (.ok (a, s')) := h

theorem Post.error {f : Failure} (h : E f) : Post E Q (.error f) := h

theorem Post.of_ok {r : Except Failure (α × Evaluator Spec)} {a : α} {s' : Evaluator Spec}
    (h : Post E Q r) (hr : r = .ok (a, s')) : Q a s' := by
  subst hr; exact h

theorem Post.of_error {r : Except Failure (α × Evaluator Spec)} {f : Failure} (h : Post E Q r)
    (hr : r = .error f) : E f := by
  subst hr; exact h

theorem Post.mono {P : α → Evaluator Spec → Prop} {r : Except Failure (α × Evaluator Spec)}
    (h : Post E P r) (hpq : ∀ a s', P a s' → Q a s') : Post E Q r := by
  rcases r with _ | ⟨a, s'⟩
  · exact h
  · exact hpq a s' h

/-- The bind rule: a first step, and a rest that promises `Q` from whatever the first step
promises. -/
theorem Post.bind {x : EvalM Spec α} {f : α → EvalM Spec β} {P : α → Evaluator Spec → Prop}
    {Q : β → Evaluator Spec → Prop} (hx : Post E P (x s)) (hf : ∀ a s1, P a s1 → Post E Q (f a s1)) :
    Post E Q ((x >>= f) s) := by
  rcases h : x s with e | ⟨a, s1⟩ <;> rw [h] at hx
  · rwa [EvalM.bind_error h]
  · rw [EvalM.bind_ok h]; exact hf a s1 hx

/-- A first step that returns, and a rest that promises `Q`. -/
theorem Post.bind_ok {x : EvalM Spec α} {f : α → EvalM Spec β} {Q : β → Evaluator Spec → Prop}
    {a : α} {s1 : Evaluator Spec} (hx : x s = .ok (a, s1)) (hf : Post E Q (f a s1)) :
    Post E Q ((x >>= f) s) := by
  rwa [EvalM.bind_ok hx]

/-- A check `if c { return ..., err }`, whose failure `E` admits. -/
theorem Post.check {c : Prop} [Decidable c] {e : Failure} {k : PUnit → EvalM Spec α} (he : E e)
    (hk : ¬c → Post E Q (k () s)) :
    Post E Q ((if c then throw e >>= k else pure PUnit.unit >>= k) s) := by
  by_cases hc : c
  · rw [if_pos hc]; exact he
  · rw [if_neg hc]; exact hk hc

/-- `errors.Wrapf` changes only the text of an error, so it keeps `E` when `E` admits every
error. -/
theorem Post.wrapError {msg : String} {x : EvalM Spec α} (hE : ∀ m, E (.error m))
    (h : Post E Q (x s)) : Post E Q (Ifql.wrapError msg x s) := by
  unfold Ifql.wrapError
  split
  · exact hE _
  · assumption

/-- The constructors a registry holds, of its functions and of its methods. -/
def Registry.ctors (reg : Registry Spec) : List (Ctor Spec) :=
  (reg.functions ++ reg.methods).map Prod.snd

theorem Registry.mem_ctors_of_lookup {reg : Registry Spec} {l : List (String × Ctor Spec)}
    (hl : l = reg.functions ∨ l = reg.methods) {name : String} {c : Ctor Spec}
    (h : l.lookup name = some c) : c ∈ reg.ctors := by
  obtain ⟨l1, l2, rfl, -⟩ := List.lookup_eq_some_iff.1 h
  have hmem : (name, c) ∈ l1 ++ (name, c) :: l2 := List.mem_append_right _ (List.mem_cons_self _ _)
  refine List.mem_map.2 ⟨(name, c), ?_, rfl⟩
  rcases hl with hl | hl <;> rw [← hl]
  · exact List.mem_append_left _ hmem
  · exact List.mem_append_right _ hmem

theorem Post.function {reg : Registry Spec} {name : String} {k : Ctor Spec → EvalM Spec α}
    (hE : ∀ m, E (.error m)) (h : ∀ c ∈ reg.ctors, Post E Q (k c s)) :
    Post E Q (Ifql.function reg name k s) := by
  unfold Ifql.function
  rcases hl : reg.functions.lookup name with _ | c
  · exact hE _
  · exact Post.wrapError hE (h c (Registry.mem_ctors_of_lookup (.inl rfl) hl))

theorem Post.method {reg : Registry Spec} {name : String} {k : Ctor Spec → EvalM Spec α}
    (hE : ∀ m, E (.error m)) (h : ∀ c ∈ reg.ctors, Post E Q (k c s)) :
    Post E Q (Ifql.method reg name k s) := by
  unfold Ifql.method
  rcases hl : reg.methods.lookup name with _ | c
  · exact hE _
  · exact Post.wrapError hE (h c (Registry.mem_ctors_of_lookup (.inr rfl) hl))

end Post

/-- `createOp`'s head: the operation `name ++ id`, with the next id. -/
def newOp (name : String) : EvalM Spec Nat := do allocOp ⟨name ++ toString (← nextID), none⟩

/-- `createOp`'s tail: run the constructor, reject unused arguments, set the spec. -/
def construct (op : Nat) (ctor : Ctor Spec) (params : List (String × Value)) :
    EvalM Spec (List OperationID) := do
  let ev ← get
  match runCtor ev.scope ev.chains ctor ⟨newArguments params, []⟩ with
  | .error p => throw (.panic p)
  | .ok (.error e, _) => throw (.error e)
  | .ok (.ok spec, st) =>
    if st.args.listUnused ≠ [] then
      throw (.error ("extra arguments provided: [" ++ ",".intercalate st.args.listUnused ++ "]"))
    else
      modify fun ev => { ev with ops := ev.ops.set op { ev.ops.cells op with spec := some spec } }
      pure st.parents

/-- `memberFunction`'s copy of the chain a variable holds: `*chain = *(value.Value.(*CallChain))`
into the given chain, or into a new one when it is `nil`. -/
def copyChain (n : String) (chain : Option Nat) : EvalM Spec Nat := do
  match (← get).scope n with
  | none => throw (.error ("undefined identifier " ++ quote n))
  | some v =>
    if v.type ≠ .tChain then throw (.error ("variable " ++ quote n ++ " is not a function chain"))
    else match v.value with
      | .chain src => do
        let target ← match chain with
          | some p => pure p
          | none => allocChain .zero
        setChain target ((← get).chains.cells src)
        pure target
      | _ => throw (.panic "interface conversion: interface \x7b\x7d is not *ifql.CallChain")

section Eval

variable (reg : Registry Spec) (grow : Nat → Nat)

mutual

/-- `doExpression`. -/
def doExpression : Ast.Expression → Evaluator Spec → Except Failure (Value × Evaluator Spec)
  | .literal l, s => doLiteral l s
  | .identifier name, s =>
    match s.scope name with
    | some v => .ok (v, s)
    | none => .error (.error ("undefined identifier " ++ quote name))
  | .callExpression c, s => (do
    let chain ← callFunction c none
    pure ⟨.tChain, .chain chain⟩ : EvalM Spec Value) s
  | .binaryExpression b, s =>
    match binaryExpression b with
    | .ok root => .ok (⟨.tExpression, .expression ⟨some root, []⟩⟩, s)
    | .error e => .error (.error e)
  | .logicalExpression l, s =>
    match logicalExpression l with
    | .ok root => .ok (⟨.tExpression, .expression ⟨some root, []⟩⟩, s)
    | .error e => .error (.error e)
  | .arrowFunctionExpression params body, s => (do
    let v ← doExpression body
    match v.value with
    | .expression e => pure { v with value := .expression { e with params := params } }
    | _ => throw (.panic "interface conversion: interface \x7b\x7d is not expression.Expression")
    : EvalM Spec Value) s
  | .arrayExpression a, s => doArray a s
  | e@(.memberExpression _), _ => .error (.error ("unsupported expression " ++ typeName e))
  | e@(.objectExpression _), _ => .error (.error ("unsupported expression " ++ typeName e))

/-- `doArray`. -/
def doArray : ArrayExpression → Evaluator Spec → Except Failure (Value × Evaluator Spec)
  | .mk els, s => (do
    let (t, vs) ← doElements els .tInvalid
    match toElements t vs with
    | .ok elements => pure ⟨.tArray, .array (.mk t elements)⟩
    | .error f => throw f : EvalM Spec Value) s

/-- The element loop of `doArray`, carrying the array's type. -/
def doElements : List Ast.Expression → ValueType → Evaluator Spec →
    Except Failure ((ValueType × List Value) × Evaluator Spec)
  | [], t, s => .ok ((t, []), s)
  | el :: els, t, s => (do
    let v ← doExpression el
    let t := if t = .tInvalid then v.type else t
    if t ≠ v.type then
      throw (.error ("cannot mix types in an array, found both " ++ t.toString ++ " and " ++
        v.type.toString))
    let (t, vs) ← doElements els t
    pure (t, v :: vs) : EvalM Spec (ValueType × List Value)) s

/-- `callFunction`, returning the address of the chain. -/
def callFunction : CallExpression → Option Nat → Evaluator Spec → Except Failure (Nat × Evaluator Spec)
  | .mk (.identifier name) args, _, s => (do
    let (op, parents) ← function reg name (createOp name · args)
    let opID := ((← get).ops.cells op).id
    let operations ← literalOps op
    let edges ← appendParents grow opID .nil parents
    allocChain ⟨opID, operations, edges⟩ : EvalM Spec Nat) s
  | .mk (.memberExpression m) args, chain, s => (do
    let (chain, name) ← memberFunction m chain
    let (op, parents) ← method reg name (createOp name · args)
    let opID := ((← get).ops.cells op).id
    let c := (← get).chains.cells chain
    let operations ← appendOp grow c.operations op
    let edges ← appendEdge grow c.edges ⟨c.parent, opID⟩
    let edges ← appendParents grow opID edges (parents.filter (· ≠ c.parent))
    setChain chain ⟨opID, operations, edges⟩
    pure chain : EvalM Spec Nat) s
  | .mk callee _, _, _ => .error (.error ("Unsupported callee expression type " ++ badVerb callee))

/-- `memberFunction`: the chain to extend, and the method's name. -/
def memberFunction : MemberExpression → Option Nat → Evaluator Spec →
    Except Failure ((Nat × String) × Evaluator Spec)
  | .mk obj prop, chain, s => (do
    let chain ← match obj with
      | .callExpression c => callFunction c chain
      | .identifier n => copyChain n chain
      | o => throw (.error ("unsupported member expression object type " ++ badVerb o))
    match prop with
    | .identifier name => pure (chain, name)
    | _ => throw (.panic "interface conversion: ast.Expression is not *ast.Identifier")
    : EvalM Spec (Nat × String)) s

/-- `createOp`: draw the id, resolve the keyword arguments, construct. -/
def createOp (name : String) (ctor : Ctor Spec) :
    List Ast.Expression → Evaluator Spec → Except Failure ((Nat × List OperationID) × Evaluator Spec)
  | [.objectExpression o], s => (do
    let op ← newOp name
    let parents ← construct op ctor (← resolveParameters o)
    pure (op, parents) : EvalM Spec (Nat × List OperationID)) s
  | [_], s => (do
    let _ ← newOp name
    throw (.error "arguments not a valid object expression") : EvalM Spec (Nat × List OperationID)) s
  | _, s => (do
    let op ← newOp name
    let parents ← construct op ctor []
    pure (op, parents) : EvalM Spec (Nat × List OperationID)) s

/-- `resolveParameters`. -/
def resolveParameters : ObjectExpression → Evaluator Spec →
    Except Failure (List (String × Value) × Evaluator Spec)
  | .mk props, s => resolveProperties props [] s

/-- The property loop of `resolveParameters`, carrying the map built so far. -/
def resolveProperties : List Property → List (String × Value) → Evaluator Spec →
    Except Failure (List (String × Value) × Evaluator Spec)
  | [], acc, s => .ok (acc, s)
  | .mk key value :: props, acc, s => (do
    let v ← doExpression value
    if (acc.lookup key).isSome then
      throw (.error ("duplicate keyword parameter specified: " ++ quote key))
    resolveProperties props (acc ++ [(key, v)]) : EvalM Spec (List (String × Value))) s

end

/-! ### Type assertions that can fail -/

/-! ### Keyword arguments

Only a call of exactly one argument hands its keyword arguments to the constructor
(`evaluate_two_arguments_ignored` is the other case). With one argument object, `createOp` succeeds
only if the object's keys are pairwise distinct and the constructor asked for every one of them:
`resolveProperties` rejects a key given twice, no request changes the parameters, and `construct`
rejects a parameter left unused. -/

section Keywords

variable {reg : Registry Spec} {grow : Nat → Nat}

/-- The property loop resolves exactly the object's keys, after those already resolved, and none
twice. -/
theorem resolveProperties_keys : ∀ {ps : List Property} {acc r : List (String × Value)}
    {s s' : Evaluator Spec}, resolveProperties reg grow ps acc s = .ok (r, s') →
      (acc.map Prod.fst).Nodup →
      r.map Prod.fst = acc.map Prod.fst ++ ps.map Property.key ∧ (r.map Prod.fst).Nodup
  | [], _, _, _, _, h, hnd => by cases h; simpa using hnd
  | .mk key value :: ps, acc, r, s, s', h, hnd => by
    obtain ⟨v, s1, -, h⟩ := EvalM.bind_eq_ok h
    obtain ⟨hc, h⟩ := EvalM.check_ok h
    have hkey : key ∉ acc.map Prod.fst := by simpa using hc
    obtain ⟨hr, hrnd⟩ := resolveProperties_keys h (by
      rw [List.map_append, List.map_singleton, List.nodup_append]
      exact ⟨hnd, List.nodup_singleton _, List.disjoint_singleton.2 hkey⟩)
    exact ⟨by simpa [Property.key] using hr, hrnd⟩

/-- `construct` succeeds only if the constructor returned a spec having asked for every parameter. -/
theorem construct_uses_all {op : Nat} {ctor : Ctor Spec} {params : List (String × Value)}
    {s s' : Evaluator Spec} {ps : List OperationID} (h : construct op ctor params s = .ok (ps, s')) :
    ∃ spec st, runCtor s.scope s.chains ctor ⟨newArguments params, []⟩ = .ok (.ok spec, st) ∧
      ∀ key ∈ params.map Prod.fst, key ∈ st.args.used := by
  unfold construct at h
  obtain ⟨_, _, hget, h⟩ := EvalM.bind_eq_ok h
  cases hget
  rcases hr : runCtor s.scope s.chains ctor ⟨newArguments params, []⟩ with _ | ⟨_ | spec, st⟩ <;>
    rw [hr] at h
  · cases h
  · cases h
  · dsimp only at h
    by_cases hu : st.args.listUnused ≠ []
    · rw [if_pos hu] at h; cases h
    · refine ⟨spec, st, rfl, fun key hk => ?_⟩
      rw [ne_eq, not_not, Arguments.listUnused, runCtor_params hr, List.filter_eq_nil_iff] at hu
      simpa using hu key hk

/-- A call with one argument object succeeds only if the object's keys are pairwise distinct and
the constructor, run on the resolved arguments, asked for every key. -/
theorem createOp_object_ok {name : String} {ctor : Ctor Spec} {ps : List Property}
    {s s' : Evaluator Spec} {r : Nat × List OperationID}
    (h : createOp reg grow name ctor [.objectExpression (.mk ps)] s = .ok (r, s')) :
    (ps.map Property.key).Nodup ∧
      ∃ (sc : Scope) (chains : Heap CallChain) (params : List (String × Value)) (spec : Spec)
        (st : CtorState), params.map Prod.fst = ps.map Property.key ∧
        runCtor sc chains ctor ⟨newArguments params, []⟩ = .ok (.ok spec, st) ∧
        ∀ key ∈ ps.map Property.key, key ∈ st.args.used := by
  obtain ⟨_, _, -, h⟩ := EvalM.bind_eq_ok h
  obtain ⟨params, _, h2, h⟩ := EvalM.bind_eq_ok h
  obtain ⟨hkeys, hnd⟩ := resolveProperties_keys h2 List.nodup_nil
  rw [List.map_nil, List.nil_append] at hkeys
  obtain ⟨_, _, h3, -⟩ := EvalM.bind_eq_ok h
  obtain ⟨spec, st, hrun, hused⟩ := construct_uses_all h3
  exact ⟨hkeys ▸ hnd, _, _, params, spec, st, hkeys, hrun, hkeys ▸ hused⟩

/-- `select(db: "telegraf")`'s argument object, for a constructor that reads the string `db`. -/
theorem createOp_object_ok_db :
    ∃ r s', createOp (⟨[], []⟩ : Registry Unit) id "select"
        (.request (.getString "db") fun _ _ _ => .done (.ok ()))
        [.objectExpression (.mk [.mk "db" (.literal (.stringLiteral "telegraf"))])] .init =
        .ok (r, s') ∧
      ([Property.mk "db" (.literal (.stringLiteral "telegraf"))].map Property.key).Nodup ∧
      ∃ (sc : Scope) (chains : Heap CallChain) (params : List (String × Value)) (spec : Unit)
        (st : CtorState), params.map Prod.fst =
          [Property.mk "db" (.literal (.stringLiteral "telegraf"))].map Property.key ∧
        runCtor sc chains (.request (.getString "db") fun _ _ _ => .done (.ok ()))
          ⟨newArguments params, []⟩ = .ok (.ok spec, st) ∧
        ∀ key ∈ [Property.mk "db" (.literal (.stringLiteral "telegraf"))].map Property.key,
          key ∈ st.args.used :=
  let ⟨r, s', h⟩ : ∃ r s', createOp (⟨[], []⟩ : Registry Unit) id "select"
      (.request (.getString "db") fun _ _ _ => .done (.ok ()))
      [.objectExpression (.mk [.mk "db" (.literal (.stringLiteral "telegraf"))])] .init =
      .ok (r, s') := ⟨_, _, rfl⟩
  ⟨r, s', h, createOp_object_ok h⟩

end Keywords

/-! ### Statements -/

/-- `addChain`: move the chain's operations and edges into the spec, and empty its windows. -/
def addChain (p : Nat) : EvalM Spec Unit :=
  modify fun ev =>
    let c := ev.chains.cells p
    { ev with
      operations := ev.operations ++ c.operations.read ev.opArrays
      edges := ev.edges ++ c.edges.read ev.edgeArrays
      chains := ev.chains.set p { c with operations := { c.operations with len := 0 },
                                         edges := { c.edges with len := 0 } } }

/-- The `value.Type == TChain` test that ends both kinds of statement. -/
def drain (v : Value) : EvalM Spec Unit :=
  if v.type = .tChain then
    match v.value with
    | .chain p => addChain p
    | _ => throw (.panic "interface conversion: interface \x7b\x7d is not *ifql.CallChain")
  else pure ()

/-- `doVariableDeclaration`. -/
def doVariableDeclaration : List VariableDeclarator → Evaluator Spec → Except Failure (Unit × Evaluator Spec)
  | [], s => .ok ((), s)
  | vd :: vds, s => (do
    let v ← doExpression reg grow vd.init
    modify fun ev => { ev with scope := ev.scope.set vd.id v }
    drain v
    doVariableDeclaration vds : EvalM Spec Unit) s

/-- One statement of `eval`. -/
def doStatement : Statement → EvalM Spec Unit
  | .variableDeclaration ds => doVariableDeclaration reg grow ds
  | .expressionStatement e => do drain (← doExpression reg grow e)

/-- The statement loop of `evaluator.eval`. -/
def doStatements : List Statement → Evaluator Spec → Except Failure (Unit × Evaluator Spec)
  | [], s => .ok ((), s)
  | st :: sts, s => (do doStatement reg grow st; doStatements sts : EvalM Spec Unit) s

/-- `evaluator.eval`. -/
def eval (p : Program) : EvalM Spec Unit := doStatements reg grow p.body

/-- `evaluator.spec`. -/
def Evaluator.spec (ev : Evaluator Spec) : QuerySpec Spec :=
  ⟨ev.operations.map (·.map ev.ops.cells), ev.edges⟩

/-- `Evaluate`. -/
def evaluate (p : Program) : Except Failure (QuerySpec Spec) :=
  (fun r => r.2.spec) <$> (eval reg grow p).run .init

/-- The operation ids and the edges of a spec: what the graph properties are about. -/
def Query.QuerySpec.graph (q : QuerySpec Spec) : List (Option OperationID) × List Edge :=
  (q.operations.map (·.map (·.id)), q.edges)

end Eval

/-! ### Runs

Whole programs, evaluated by `rfl`. Where the result does not depend on how `append` grows a slice
the run is stated for every `grow`; where an append outgrows a capacity of an earlier append's
making, for the capacity Go gives (`doubling`). The constructors are of the two shapes the functions
of the language have: one that takes no argument, and a join that reads an array of chains and
declares each chain's tail as an additional parent. Smart unfolding is off for the runs: it would
walk the whole evaluator state at each call of the evaluator. -/

section Runs

set_option smartUnfolding false

/-- The capacity Go's `growslice` gives a short slice of pointers or of `query.Edge` values that
outgrows capacity `c`: twice `c`, these element sizes having power-of-two size classes. -/
def doubling (c : Nat) : Nat := 2 * c

/-- A call `callee(args)`. -/
def call (callee : Ast.Expression) (args : List Ast.Expression) : Ast.Expression :=
  .callExpression (.mk callee args)

/-- A member `o.name`. -/
def member (o : Ast.Expression) (name : String) : Ast.Expression :=
  .memberExpression (.mk o (.identifier name))

/-- A keyword-argument object with one property. -/
def kwarg (key : String) (v : Ast.Expression) : Ast.Expression :=
  .objectExpression (.mk [.mk key v])

/-- A constructor that reads nothing. -/
def noArguments : Ctor Unit := .done (.ok ())

/-- Declare the `Parent` of each of the chains as an additional parent, then continue with `k`. -/
def declareParents (k : Ctor Unit) : List Nat → Ctor Unit
  | [] => k
  | c :: cs => .request (.chainParent c) fun g _ _ =>
    match g with
    | .operationID p => .request (.additionalParent p) fun _ _ _ => declareParents k cs
    | _ => declareParents k cs

/-- A join: read the chains under `key` with `GetArray(key, TChain)` and declare their tails. -/
def joinOn (key : String) : Ctor Unit := .request (.getArray key .tChain) fun g _ err =>
  match err, g with
  | some e, _ => .done (.error e)
  | none, .array (.mk _ (.chains cs)) => declareParents (.done (.ok ())) cs
  | none, _ => .done (.ok ())

/-- `filter(fn: (r) => true)`. -/
def arrowLiteralProgram : Program :=
  ⟨[.expressionStatement (call (.identifier "filter")
      [kwarg "fn" (.arrowFunctionExpression ["r"] (.literal (.booleanLiteral true)))])]⟩

theorem evaluate_arrow_literal_panics (c : Ctor Unit) (grow : Nat → Nat) :
    evaluate ⟨[("filter", c)], []⟩ grow arrowLiteralProgram =
      .error (.panic "interface conversion: interface \x7b\x7d is not expression.Expression") :=
  rfl

/-- `j(tables: [f()])`: a chain written inside an argument. -/
def inlineChainProgram : Program :=
  ⟨[.expressionStatement (call (.identifier "j")
      [kwarg "tables" (.arrayExpression (.mk [call (.identifier "f") []]))])]⟩

theorem evaluate_inline_chain_dangling_edge (grow : Nat → Nat) :
    QuerySpec.graph <$> evaluate ⟨[("j", joinOn "tables"), ("f", noArguments)], []⟩ grow
      inlineChainProgram = .ok ([some "j0"], [⟨"f1", "j0"⟩]) :=
  rfl

/-- `a = f()`, then `a.g().m(x: [a.h()])`: the branch `a.h()` is appended into the backing array the
branch `a.g()` extends. -/
def sharedBranchProgram : Program :=
  ⟨[.variableDeclaration [⟨"a", call (.identifier "f") []⟩],
    .expressionStatement (call (member (call (member (.identifier "a") "g") []) "m")
      [kwarg "x" (.arrayExpression (.mk [call (member (.identifier "a") "h") []]))])]⟩

theorem evaluate_shared_branch_overwrites :
    QuerySpec.graph <$> evaluate ⟨[("f", noArguments)],
        [("g", noArguments), ("h", noArguments), ("m", joinOn "x")]⟩ doubling sharedBranchProgram =
      .ok ([some "f0", some "h3", some "m2"], [⟨"f0", "g1"⟩, ⟨"g1", "m2"⟩, ⟨"h3", "m2"⟩]) :=
  rfl

/-- `x = j(tables: [f1()])`, nine calls `p()`, then `x.f()`: the inline `f1()` is operation
`"f1" ++ "1"`, the method call eleven ids later is `"f" ++ "11"`. -/
def cycleProgram : Program :=
  ⟨[.variableDeclaration [⟨"x", call (.identifier "j")
      [kwarg "tables" (.arrayExpression (.mk [call (.identifier "f1") []]))]⟩]] ++
    List.replicate 9 (.expressionStatement (call (.identifier "p") [])) ++
    [.expressionStatement (call (member (.identifier "x") "f") [])]⟩

theorem evaluate_edge_cycle :
    QuerySpec.graph <$> evaluate ⟨[("j", joinOn "tables"), ("f1", noArguments), ("p", noArguments)],
        [("f", noArguments)]⟩ doubling cycleProgram =
      .ok ([some "j0", some "p2", some "p3", some "p4", some "p5", some "p6", some "p7", some "p8",
        some "p9", some "p10", some "f11"], [⟨"f11", "j0"⟩, ⟨"j0", "f11"⟩]) :=
  rfl

/-- `f1()`, then ten calls `f()`: the first is operation `"f1" ++ "0"`, the last `"f" ++ "10"`. -/
def collidingIdsProgram : Program :=
  ⟨.expressionStatement (call (.identifier "f1") []) ::
    List.replicate 10 (.expressionStatement (call (.identifier "f") []))⟩

theorem evaluate_colliding_ids :
    QuerySpec.graph <$> evaluate ⟨[("f1", noArguments), ("f", noArguments)], []⟩ doubling
      collidingIdsProgram =
      .ok ([some "f10", some "f1", some "f2", some "f3", some "f4", some "f5", some "f6", some "f7",
        some "f8", some "f9", some "f10"], []) :=
  rfl

/-- `f(a: 1, b: 2)` written as two argument objects `f({a: 1}, {b: 2})`. -/
def twoArgumentsProgram : Program :=
  ⟨[.expressionStatement (call (.identifier "f")
      [kwarg "a" (.literal (.integerLiteral 1)), kwarg "b" (.literal (.integerLiteral 2))])]⟩

/-- `f(a: 1)`. -/
def oneArgumentProgram : Program :=
  ⟨[.expressionStatement (call (.identifier "f") [kwarg "a" (.literal (.integerLiteral 1))])]⟩

/-- `createOp` binds parameters only for a call of exactly one argument: given two argument
objects, a constructor that reads nothing succeeds and both are dropped, where the one object
`{a: 1}` alone is rejected as an extra argument. -/
theorem evaluate_two_arguments_ignored (grow : Nat → Nat) :
    QuerySpec.graph <$> evaluate ⟨[("f", noArguments)], []⟩ grow twoArgumentsProgram =
      .ok ([some "f0"], []) ∧
    QuerySpec.graph <$> evaluate ⟨[("f", noArguments)], []⟩ grow oneArgumentProgram =
      .error (.error "error calling function \"f\": extra arguments provided: [a]") :=
  ⟨rfl, rfl⟩

end Runs

end Ifql
