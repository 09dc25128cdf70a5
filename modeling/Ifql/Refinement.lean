import Ifql.CreationOrder
import Ifql.ValueChain

/-!
# The Go evaluator refines the evaluator with chains as values

`Ifql.ValueChain` is the evaluator the design notes ask for, with a call chain a record of lists.
The evaluator of `ifql/eval.go` keeps those lists in slices and copies a chain by copying its
headers, so an `append` may write into an array another chain views
(`evaluate_shared_branch_overwrites`). This module shows that this never shows on a program none of
whose arguments calls a function (`Ast.Program.argsCallFree`): on such a program `Evaluate` returns
the value-chain evaluator's spec, or its failure, for every `grow`. `argumentCallProgram`, with a
call in an argument, is a program on which it does not.

The proof runs the two evaluators side by side (`Sim`) and relates their states (`Refines`): the same ids, scope, spec, operations and chain parents; the
windows of the slice-based state settled (`Evaluator.Settled`: valid, and empty but those of the
chain `cur` a statement is building); and every chain's windows reading the value chain's lists.

Main results:

* `doExpression_free`: an expression that calls nothing leaves both states alone, and its value
  depends on the scope only;
* `createOp_sim` and `callSim`: a call chain whose arguments call nothing builds, from related
  states, chains that read the same;
* `doStatements_sim`: every run of statements whose arguments call nothing keeps `Refines`;
* `evaluate_refines`: `Evaluate` on a program whose arguments call nothing is the value-chain
  evaluator's result;
* `evaluate_grow_independent`: hence it is the same for every `grow`.
-/

namespace Ifql

open Ast Query

variable {Spec : Type}

/-- With no single argument, the value-chain `createOp` constructs the operation on no
parameters. -/
theorem ValueChain.createOp_of_ne_single {reg : Registry Spec} {args : List Ast.Expression}
    (hargs : ∀ e, args ≠ [e]) (name : String) (ctor : Ctor Spec) (a : ValueChain.State Spec) :
    ValueChain.createOp reg name ctor args a =
      (do let op ← ValueChain.newOp name; pure (op, ← ValueChain.construct op ctor [])
        : ValueChain.M Spec _) a := by
  match args, hargs with
  | [], _ => rfl
  | [e], hargs => exact absurd rfl (hargs e)
  | e :: _ :: _, _ => cases e <;> rfl

/-- The record `copyChain` copies from a state where every chain is empty: a chain of the state, or
the zero chain it has just allocated; empty and valid either way. -/
theorem Evaluator.Settled.copied {s : Evaluator Spec} (h : s.Settled none) (src : Nat) :
    ((s.chains.alloc .zero).1.cells src).Empty ∧
      ((s.chains.alloc .zero).1.cells src).operations.Valid s.opArrays ∧
      ((s.chains.alloc .zero).1.cells src).edges.Valid s.edgeArrays := by
  rw [Heap.alloc_cells]
  split
  · exact ⟨CallChain.zero_empty, Slice.nil_valid _, Slice.nil_valid _⟩
  · exact ⟨h.empty src nofun, h.validOps src, h.validEdges src⟩

namespace Refinement

/-! ### Errors and registries, in both evaluators -/

section Lookup

variable {α : Type} {s : Evaluator Spec} {a : ValueChain.State Spec}
  {R : α × Evaluator Spec → α × ValueChain.State Spec → Prop}

theorem Sim.wrapError {msg : String} {x : EvalM Spec α} {x' : ValueChain.M Spec α}
    (h : Sim R (x s) (x' a)) : Sim R (Ifql.wrapError msg x s) (ValueChain.wrapError msg x' a) := by
  unfold Ifql.wrapError ValueChain.wrapError
  rcases h1 : x s with e | p <;> rcases h2 : x' a with e' | q <;> rw [h1, h2] at h
  · obtain rfl : e = e' := h
    cases e <;> exact rfl
  · exact (h : False).elim
  · exact (h : False).elim
  · exact h

theorem Sim.function {reg : Registry Spec} {name : String} {k : Ctor Spec → EvalM Spec α}
    {k' : Ctor Spec → ValueChain.M Spec α} (h : ∀ c, Sim R (k c s) (k' c a)) :
    Sim R (Ifql.function reg name k s) (ValueChain.function reg name k' a) := by
  unfold Ifql.function ValueChain.function
  rcases reg.functions.lookup name with _ | c
  · exact rfl
  · exact Sim.wrapError (h c)

theorem Sim.method {reg : Registry Spec} {name : String} {k : Ctor Spec → EvalM Spec α}
    {k' : Ctor Spec → ValueChain.M Spec α} (h : ∀ c, Sim R (k c s) (k' c a)) :
    Sim R (Ifql.method reg name k s) (ValueChain.method reg name k' a) := by
  unfold Ifql.method ValueChain.method
  rcases reg.methods.lookup name with _ | c
  · exact rfl
  · exact Sim.wrapError (h c)

end Lookup

/-! ### Expressions that call nothing -/

section Free

variable (reg : Registry Spec) (grow : Nat → Nat)

/-- `doExpression`, in both evaluators, from two states with one scope: the same value, and neither
state changed. -/
def ExprFree (e : Ast.Expression) : Prop :=
  ∀ (s : Evaluator Spec) (a : ValueChain.State Spec), s.scope = a.scope →
    Sim (Fixed s a) (doExpression reg grow e s) (ValueChain.doExpression reg e a)

/-- The element loop of `doArray`, likewise. -/
def ElementsFree (els : List Ast.Expression) : Prop :=
  ∀ (ty : ValueType) (s : Evaluator Spec) (a : ValueChain.State Spec), s.scope = a.scope →
    Sim (Fixed s a) (doElements reg grow els ty s) (ValueChain.doElements reg els ty a)

variable {reg grow}

theorem exprFree_literal (l : Literal) : ExprFree reg grow (.literal l) := by
  intro s a _
  cases l <;> first | exact Sim.ok ⟨rfl, rfl, rfl⟩ | exact Sim.error _

theorem exprFree_identifier (n : String) : ExprFree reg grow (.identifier n) := by
  intro s a hsc
  rw [doExpression.eq_2, ValueChain.doExpression.eq_2, hsc]
  rcases a.scope n with _ | v
  · exact Sim.error _
  · exact Sim.ok ⟨rfl, rfl, rfl⟩

theorem exprFree_binary (b : BinaryExpression) : ExprFree reg grow (.binaryExpression b) := by
  intro s a _
  rw [doExpression.eq_4, ValueChain.doExpression.eq_4]
  rcases binaryExpression b with e | root
  · exact Sim.error _
  · exact Sim.ok ⟨rfl, rfl, rfl⟩

theorem exprFree_logical (l : LogicalExpression) : ExprFree reg grow (.logicalExpression l) := by
  intro s a _
  rw [doExpression.eq_5, ValueChain.doExpression.eq_5]
  rcases logicalExpression l with e | root
  · exact Sim.error _
  · exact Sim.ok ⟨rfl, rfl, rfl⟩

theorem exprFree_arrow {params : List String} {body : Ast.Expression} (hb : ExprFree reg grow body) :
    ExprFree reg grow (.arrowFunctionExpression params body) := by
  intro s a hsc
  refine Sim.bind (hb s a hsc) fun ⟨v, s1⟩ ⟨v', a1⟩ ⟨hv, hs1, ha1⟩ => ?_
  dsimp only at hv hs1 ha1 ⊢
  subst hv hs1 ha1
  generalize v.value = d
  cases d
  case expression e => exact Sim.ok ⟨rfl, rfl, rfl⟩
  all_goals exact Sim.error _

theorem exprFree_array {els : List Ast.Expression} (hels : ElementsFree reg grow els) :
    ExprFree reg grow (.arrayExpression (.mk els)) := by
  intro s a hsc
  refine Sim.bind (hels .tInvalid s a hsc) fun ⟨⟨ty, vs⟩, s1⟩ ⟨⟨ty', vs'⟩, a1⟩ ⟨hv, hs1, ha1⟩ => ?_
  dsimp only at hv hs1 ha1 ⊢
  cases hv
  subst hs1 ha1
  rcases toElements ty vs with f | elements
  · exact Sim.error f
  · exact Sim.ok ⟨rfl, rfl, rfl⟩

theorem exprFree_member (m : MemberExpression) : ExprFree reg grow (.memberExpression m) :=
  fun _ _ _ => Sim.error _

theorem exprFree_object (o : ObjectExpression) : ExprFree reg grow (.objectExpression o) :=
  fun _ _ _ => Sim.error _

theorem elementsFree_nil : ElementsFree reg grow [] :=
  fun _ _ _ _ => Sim.ok ⟨rfl, rfl, rfl⟩

theorem elementsFree_cons {el : Ast.Expression} {els : List Ast.Expression}
    (he : ExprFree reg grow el) (hels : ElementsFree reg grow els) :
    ElementsFree reg grow (el :: els) := by
  intro ty s a hsc
  refine Sim.bind (he s a hsc) fun ⟨v, s1⟩ ⟨v', a1⟩ ⟨hv, hs1, ha1⟩ => ?_
  dsimp only at hv hs1 ha1
  subst hv hs1 ha1
  refine Sim.check fun _ => Sim.bind (hels _ _ _ hsc) fun ⟨⟨ty2, vs⟩, s2⟩ ⟨⟨ty2', vs'⟩, a2⟩ ⟨hv, hs2, ha2⟩ => ?_
  dsimp only at hv hs2 ha2
  cases hv
  subst hs2 ha2
  exact Sim.ok ⟨rfl, rfl, rfl⟩

variable (reg grow)

mutual

/-- An expression that calls nothing returns the same value in both evaluators and changes neither
state, by induction over the syntax tree. -/
theorem doExpression_free : ∀ e : Ast.Expression, e.callFree → ExprFree reg grow e
  | .literal l, _ => exprFree_literal l
  | .identifier n, _ => exprFree_identifier n
  | .callExpression _, h => absurd h Bool.false_ne_true
  | .arrowFunctionExpression _ body, h => exprFree_arrow (doExpression_free body h)
  | .binaryExpression b, _ => exprFree_binary b
  | .logicalExpression l, _ => exprFree_logical l
  | .arrayExpression (.mk els), h => exprFree_array (doElements_free els h)
  | .memberExpression m, _ => exprFree_member m
  | .objectExpression o, _ => exprFree_object o

theorem doElements_free :
    ∀ els : List Ast.Expression, Ast.elementsCallFree els → ElementsFree reg grow els
  | [], _ => elementsFree_nil
  | el :: els, h =>
    elementsFree_cons (doExpression_free el (Bool.and_eq_true_iff.1 h).1)
      (doElements_free els (Bool.and_eq_true_iff.1 h).2)

end

/-- The property loop of `resolveParameters` on values that call nothing. -/
theorem resolveProperties_free : ∀ (ps : List Property), (ps.all fun | .mk _ v => v.callFree) →
    ∀ (acc : List (String × Value)) (s : Evaluator Spec) (a : ValueChain.State Spec),
      s.scope = a.scope →
      Sim (Fixed s a) (resolveProperties reg grow ps acc s) (ValueChain.resolveProperties reg ps acc a)
  | [], _, _, _, _, _ => Sim.ok ⟨rfl, rfl, rfl⟩
  | .mk _ value :: ps, h, acc, s, a, hsc => by
    obtain ⟨hv, hps⟩ := Bool.and_eq_true_iff.1 h
    refine Sim.bind (doExpression_free reg grow value hv s a hsc)
      fun ⟨v, s1⟩ ⟨v', a1⟩ ⟨hvv, hs1, ha1⟩ => ?_
    dsimp only at hvv hs1 ha1
    subst hvv hs1 ha1
    exact Sim.check fun _ => resolveProperties_free ps hps _ _ _ hsc

end Free

/-! ### The two states -/

section Refines

variable {grow : Nat → Nat} {cur : Option Nat} {s : Evaluator Spec} {a : ValueChain.State Spec}

/-- The slice-based state `s` represents the value-chain state `a`, with `cur` the chain a statement
is building: the same ids, scope, spec, operations and chain parents, the windows of `s` settled,
and every chain's windows reading its lists. -/
structure Refines (cur : Option Nat) (s : Evaluator Spec) (a : ValueChain.State Spec) : Prop where
  settled : s.Settled cur
  id : s.id = a.id
  scope : s.scope = a.scope
  operations : s.operations = a.operations
  edges : s.edges = a.edges
  ops : s.ops = a.ops
  chains_size : s.chains.size = a.chains.size
  parent : ∀ c, (s.chains.cells c).parent = (a.chains.cells c).parent
  readOps : ∀ c, (s.chains.cells c).operations.read s.opArrays = (a.chains.cells c).operations
  readEdges : ∀ c, (s.chains.cells c).edges.read s.edgeArrays = (a.chains.cells c).edges

theorem Refines.init : Refines none (Evaluator.init : Evaluator Spec) ValueChain.State.init :=
  ⟨Twin.init.left, rfl, rfl, rfl, rfl, rfl, rfl, fun _ => rfl, fun _ => rfl, fun _ => rfl⟩

/-- A constructor sees the same tails in both states. -/
theorem Refines.parent_tails (h : Refines cur s a) (c : Nat) :
    (s.chains.cells c).parent = (a.tails.cells c).parent :=
  h.parent c

/-- A chain other than the one being built has no elements in the value-chain state either. -/
theorem Refines.empty (h : Refines cur s a) {c : Nat} (hc : cur ≠ some c) :
    (a.chains.cells c).operations = [] ∧ (a.chains.cells c).edges = [] := by
  rw [← h.readOps c, ← h.readEdges c]
  exact (h.settled.empty c hc).read _ _

/-- Both evaluators draw the same id and allocate or construct the same operation. -/
theorem Refines.withIdOps (h : Refines cur s a) {i j : Nat} {o o' : Heap (Operation Spec)}
    (hi : i = j) (ho : o = o') : Refines cur { s with id := i, ops := o } { a with id := j, ops := o' } := by
  subst hi ho
  exact { h with settled := ⟨h.settled.1, h.settled.2, h.settled.3⟩, id := rfl, ops := rfl }

/-- Both evaluators bind a variable to the same value. -/
theorem Refines.setScope (h : Refines cur s a) (n : String) (v : Value) :
    Refines cur { s with scope := s.scope.set n v } { a with scope := a.scope.set n v } :=
  { h with settled := ⟨h.settled.1, h.settled.2, h.settled.3⟩, scope := by rw [h.scope] }

/-- A step that builds the chain `X`, from states where only `X`, if any, had elements: new arrays
that keep every header valid, and new records for `X` with one parent, whose windows read the value
chain's lists. -/
theorem Refines.replace {X : Nat} (h : Refines cur s a) (hcur : cur = none ∨ cur = some X)
    {O : Store (Option Nat)} {E : Store Edge} {H : Heap CallChain} {A : Heap ValueChain.Chain}
    {r : CallChain} {ra : ValueChain.Chain}
    (hO : ∀ sl : Slice, sl.Valid s.opArrays → sl.Valid O)
    (hE : ∀ sl : Slice, sl.Valid s.edgeArrays → sl.Valid E)
    (hH : ∀ c, c ≠ X → H.cells c = s.chains.cells c) (hHX : H.cells X = r)
    (hA : ∀ c, c ≠ X → A.cells c = a.chains.cells c) (hAX : A.cells X = ra) (hsize : H.size = A.size)
    (hr : r.operations.Valid O ∧ r.edges.Valid E) (hp : r.parent = ra.parent)
    (hro : r.operations.read O = ra.operations) (hre : r.edges.read E = ra.edges) :
    Refines (some X) { s with opArrays := O, edgeArrays := E, chains := H } { a with chains := A } := by
  -- a chain other than `X` was empty, and is left as it was
  have hother : ∀ c, c ≠ X → cur ≠ some c := fun c hc => by
    rcases hcur with rfl | rfl <;> simp [Ne.symm hc]
  refine ⟨h.settled.replace hcur hO hE hH hHX hr, h.id, h.scope, h.operations, h.edges, h.ops, hsize,
    fun c => ?_, fun c => ?_, fun c => ?_⟩ <;> dsimp only <;> by_cases hc : c = X
  · rw [hc, hHX, hAX, hp]
  · rw [hH c hc, hA c hc, h.parent c]
  · rw [hc, hHX, hAX, hro]
  · rw [hH c hc, hA c hc, ((h.settled.empty c (hother c hc)).read O E).1, (h.empty (hother c hc)).1]
  · rw [hc, hHX, hAX, hre]
  · rw [hH c hc, hA c hc, ((h.settled.empty c (hother c hc)).read O E).2, (h.empty (hother c hc)).2]

/-- A function call's new chain: in the slice-based state, the operation in a new array and the
edges from its parents appended to a `nil` slice; in the value-chain state, the two lists. -/
theorem Refines.startChain (h : Refines none s a) (op : Nat) (ps : List OperationID) :
    Refines (some s.chains.size) (s.startChain grow op ps)
      { a with chains := (a.chains.alloc ⟨(a.ops.cells op).id, [some op],
          ps.map fun p => ⟨p, (a.ops.cells op).id⟩⟩).1 } := by
  have hsize := h.chains_size
  have hre := Slice.read_appendAll ⟨"", ""⟩ grow (ps.map fun p => ⟨p, (s.ops.cells op).id⟩)
    (Slice.nil_valid s.edgeArrays)
  refine h.replace (.inl rfl) (fun _ hv => Slice.valid_alloc hv _)
    (fun _ hv => Slice.valid_of_appendAll _ _ _ hv) (fun c hc => by rw [Heap.alloc_cells, if_neg hc])
    (by rw [Heap.alloc_cells, if_pos rfl]) (fun c hc => by rw [Heap.alloc_cells, if_neg (hsize ▸ hc)])
    (by rw [Heap.alloc_cells, if_pos hsize]) (by simp [hsize]) ⟨Slice.valid_literal _, hre.2⟩
    (by rw [h.ops]) (Slice.read_literal _) ?_
  rw [hre.1, h.ops]
  rfl

/-- A method call on the chain `X` being built: the operation, the edge from the tail and those from
the other parents appended, to the windows in one state and to the lists in the other. -/
theorem Refines.extendChain {X : Nat} (h : Refines (some X) s a) (op : Nat) (ps : List OperationID) :
    Refines (some X) (s.extendChain grow X op ps)
      { a with chains := a.chains.set X ⟨(a.ops.cells op).id, (a.chains.cells X).operations ++ [some op],
          (a.chains.cells X).edges ++ ⟨(a.chains.cells X).parent, (a.ops.cells op).id⟩ ::
            (ps.filter (· ≠ (a.chains.cells X).parent)).map fun p => ⟨p, (a.ops.cells op).id⟩⟩ } := by
  have hvo := h.settled.validOps X
  -- the edges: one `append`, then the loop, is `appendAll` of the whole list
  have hre := Slice.read_appendAll ⟨"", ""⟩ grow (⟨(s.chains.cells X).parent, (s.ops.cells op).id⟩ ::
    (ps.filter (· ≠ (s.chains.cells X).parent)).map fun p => ⟨p, (s.ops.cells op).id⟩)
    (h.settled.validEdges X)
  refine h.replace (.inr rfl) (fun _ hv => Slice.valid_of_append _ _ _ hv)
    (fun _ hv => Slice.valid_of_appendAll _ _ (_ :: _) hv) (fun c hc => by rw [Heap.set_cells, if_neg hc])
    (by rw [Heap.set_cells, if_pos rfl]) (fun c hc => by rw [Heap.set_cells, if_neg hc])
    (by rw [Heap.set_cells, if_pos rfl]) h.chains_size ?_ (by rw [h.ops])
    (by rw [Slice.read_append _ hvo, h.readOps X]) ?_
  · exact ⟨Slice.valid_append _ hvo, hre.2⟩
  · exact hre.1.trans (by rw [h.readEdges X, h.parent X, h.ops])

/-- `copyChain`'s copy of a variable's chain into a new chain, from states where every chain is
empty: the copy has the variable's tail and no elements, in both. -/
theorem Refines.copy (h : Refines none s a) (src : Nat) :
    Refines (some s.chains.size)
      { s with chains := (s.chains.alloc .zero).1.set s.chains.size ((s.chains.alloc .zero).1.cells src) }
      { a with chains := (a.chains.alloc .zero).1.set a.chains.size ((a.chains.alloc .zero).1.cells src) } := by
  have hsize := h.chains_size
  -- the copied records: the zero chains just allocated, or the variable's chains
  have hcopy : ((s.chains.alloc .zero).1.cells src).parent = ((a.chains.alloc .zero).1.cells src).parent ∧
      ((a.chains.alloc .zero).1.cells src).operations = [] ∧
      ((a.chains.alloc .zero).1.cells src).edges = [] := by
    rw [Heap.alloc_cells, Heap.alloc_cells, ← hsize]
    split
    · exact ⟨rfl, rfl, rfl⟩
    · exact ⟨h.parent src, h.empty nofun⟩
  have he := (h.settled.copied src).1.read s.opArrays s.edgeArrays
  exact h.replace (.inl rfl) (fun _ hv => hv) (fun _ hv => hv)
    (fun c hc => by rw [Heap.set_cells, if_neg hc, Heap.alloc_cells, if_neg hc])
    (by rw [Heap.set_cells, if_pos rfl])
    (fun c hc => by rw [Heap.set_cells, if_neg (hsize ▸ hc), Heap.alloc_cells, if_neg (hsize ▸ hc)])
    (by rw [Heap.set_cells, if_pos hsize]) (by simp [hsize]) (h.settled.copied src).2 hcopy.1
    (he.1.trans hcopy.2.1.symm) (he.2.trans hcopy.2.2.symm)

/-- `addChain X`, from states where only `X`, if any, had elements: the same operations and edges
emitted, and every chain empty after. -/
theorem Refines.addChain {X : Nat} (h : Refines cur s a) (hcur : cur = none ∨ cur = some X) :
    Refines none
      { s with operations := s.operations ++ (s.chains.cells X).operations.read s.opArrays,
               edges := s.edges ++ (s.chains.cells X).edges.read s.edgeArrays,
               chains := s.chains.set X { (s.chains.cells X) with
                 operations := { (s.chains.cells X).operations with len := 0 },
                 edges := { (s.chains.cells X).edges with len := 0 } } }
      { a with operations := a.operations ++ (a.chains.cells X).operations,
               edges := a.edges ++ (a.chains.cells X).edges,
               chains := a.chains.set X { (a.chains.cells X) with operations := [], edges := [] } } := by
  refine ⟨h.settled.drain hcur _ _, h.id, h.scope, by rw [h.operations, h.readOps X],
    by rw [h.edges, h.readEdges X], h.ops, h.chains_size, fun c => ?_, fun c => ?_, fun c => ?_⟩ <;>
    dsimp only <;> rw [Heap.set_cells, Heap.set_cells] <;> split
  · exact h.parent X
  · exact h.parent c
  · rfl
  · exact h.readOps c
  · rfl
  · exact h.readEdges c

end Refines

/-! ### `createOp` -/

section Create

variable {reg : Registry Spec} {grow : Nat → Nat} {cur : Option Nat} {s : Evaluator Spec}
  {a : ValueChain.State Spec}

theorem newOp_sim (name : String) (h : Refines cur s a) :
    Sim (Same fun _ s' a' => Refines cur s' a') (newOp name s) (ValueChain.newOp name a) :=
  Sim.ok ⟨congrArg Heap.size h.ops, h.withIdOps (by rw [h.id]) (by rw [h.id, h.ops])⟩

theorem construct_sim (op : Nat) (ctor : Ctor Spec) (params : List (String × Value))
    (h : Refines cur s a) :
    Sim (Same fun _ s' a' => Refines cur s' a') (construct op ctor params s)
      (ValueChain.construct op ctor params a) := by
  have hr : runCtor s.scope s.chains ctor ⟨newArguments params, []⟩ =
      runCtor a.scope a.tails ctor ⟨newArguments params, []⟩ := by
    rw [runCtor_parents h.parent_tails, h.scope]
  refine Sim.bind_ok rfl rfl ?_
  dsimp only
  rw [hr]
  rcases runCtor a.scope a.tails ctor ⟨newArguments params, []⟩ with p | ⟨_ | spec, st⟩
  · exact Sim.error _
  · exact Sim.error _
  · dsimp only
    by_cases hu : st.args.listUnused = []
    · simp only [hu, ne_eq, not_true_eq_false, if_false]
      exact Sim.ok ⟨rfl, h.withIdOps h.id (by rw [h.ops])⟩
    · simp only [hu, ne_eq, not_false_eq_true, if_true]
      exact Sim.error _

/-- `createOp`'s tail: `construct`, then the operation and its parents. -/
theorem constructPair_sim (op : Nat) (ctor : Ctor Spec) (params : List (String × Value))
    (h : Refines cur s a) :
    Sim (Same fun _ s' a' => Refines cur s' a')
      ((construct op ctor params >>= fun parents => pure (op, parents)) s)
      ((ValueChain.construct op ctor params >>= fun parents => pure (op, parents)) a) :=
  Sim.bind (construct_sim op ctor params h) fun ⟨ps, s2⟩ ⟨ps', a2⟩ ⟨hps, h2⟩ => by
    dsimp only at hps h2
    cases hps
    exact Sim.ok ⟨rfl, h2⟩

/-- `createOp` on arguments that call nothing: the same operation, with the same parents, in both
evaluators, and the chains untouched. -/
theorem createOp_sim {args : List Ast.Expression} (hargs : Ast.argsCallFree args) (name : String)
    (ctor : Ctor Spec) (h : Refines cur s a) :
    Sim (Same fun _ s' a' => Refines cur s' a') (createOp reg grow name ctor args s)
      (ValueChain.createOp reg name ctor args a) := by
  match args, hargs with
  | [.objectExpression (.mk ps)], hps =>
    refine Sim.bind (newOp_sim name h) fun ⟨op, s1⟩ ⟨op', a1⟩ ⟨hop, h1⟩ => ?_
    dsimp only at hop h1
    cases hop
    refine Sim.bind (resolveProperties_free reg grow ps hps [] s1 a1 h1.scope)
      fun ⟨r, s2⟩ ⟨r', a2⟩ ⟨hr, hs2, ha2⟩ => ?_
    dsimp only at hr hs2 ha2
    subst hr hs2 ha2
    exact constructPair_sim op ctor r h1
  | [.literal _], _ | [.identifier _], _ | [.callExpression _], _ | [.memberExpression _], _
  | [.arrowFunctionExpression _ _], _ | [.binaryExpression _], _ | [.logicalExpression _], _
  | [.arrayExpression _], _ =>
    exact Sim.bind (newOp_sim name h) fun _ _ _ => Sim.error _
  | [], _ | _ :: _ :: _, _ =>
    rw [createOp_of_ne_single (by simp), ValueChain.createOp_of_ne_single (by simp)]
    exact Sim.bind (newOp_sim name h) fun ⟨op, s1⟩ ⟨op', a1⟩ ⟨hop, h1⟩ => by
      dsimp only at hop h1
      cases hop
      exact constructPair_sim op ctor [] h1

theorem copyChain_sim (n : String) (h : Refines none s a) :
    Sim (Same fun X s' a' => Refines (some X) s' a') (copyChain n none s) (ValueChain.copyChain n a) := by
  refine Sim.bind_ok rfl rfl ?_
  dsimp only
  rw [← h.scope]
  rcases s.scope n with _ | v
  · exact Sim.error _
  · dsimp only
    by_cases ht : v.type = .tChain
    · simp only [ht, ne_eq, not_true_eq_false, if_false]
      generalize v.value = d
      cases d <;> first | exact Sim.ok ⟨h.chains_size, h.copy _⟩ | exact Sim.error _
    · simp only [ht, ne_eq, not_false_eq_true, if_true]
      exact Sim.error _

end Create

/-! ### Call chains -/

section Calls

variable (reg : Registry Spec) (grow : Nat → Nat)

/-- `callFunction` from related states where every chain is empty: the same new chain, the one being
built, in both evaluators. -/
def CallSim (c : CallExpression) : Prop :=
  ∀ (s : Evaluator Spec) (a : ValueChain.State Spec), Refines none s a →
    Sim (Same fun X s' a' => Refines (some X) s' a') (callFunction reg grow c none s)
      (ValueChain.callFunction reg c a)

/-- `memberFunction`, likewise, with the method's name. -/
def MemberSim (m : MemberExpression) : Prop :=
  ∀ (s : Evaluator Spec) (a : ValueChain.State Spec), Refines none s a →
    Sim (Same fun r s' a' => Refines (some r.1) s' a') (memberFunction reg grow m none s)
      (ValueChain.memberFunction reg m a)

variable {reg grow}

/-- A function call: the operation, then a new chain holding it and the edges from its parents. -/
theorem callSim_identifier {name : String} {args : List Ast.Expression}
    (hargs : Ast.argsCallFree args) : CallSim reg grow (.mk (.identifier name) args) := by
  intro s a h
  refine Sim.bind (Sim.function fun c => createOp_sim hargs name c h)
    fun ⟨⟨op, ps⟩, s1⟩ ⟨⟨op', ps'⟩, a1⟩ ⟨hop, h1⟩ => ?_
  dsimp only at hop h1
  cases hop
  refine Sim.bind_ok rfl rfl (Sim.bind_left rfl (Sim.bind_left (appendParents_eq grow _ _ _ _) ?_))
  exact Sim.ok ⟨h1.chains_size, h1.startChain op ps⟩

/-- A method call: the chain of the object, the operation, and the chain extended by it. -/
theorem callSim_member {m : MemberExpression} {args : List Ast.Expression}
    (hm : MemberSim reg grow m) (hargs : Ast.argsCallFree args) :
    CallSim reg grow (.mk (.memberExpression m) args) := by
  intro s a h
  refine Sim.bind (hm s a h) fun ⟨⟨X, name⟩, s1⟩ ⟨⟨X', name'⟩, a1⟩ ⟨hX, h1⟩ => ?_
  dsimp only at hX h1
  cases hX
  refine Sim.bind (Sim.method fun c => createOp_sim hargs name c h1)
    fun ⟨⟨op, ps⟩, s2⟩ ⟨⟨op', ps'⟩, a2⟩ ⟨hop, h2⟩ => ?_
  dsimp only at hop h2
  cases hop
  refine Sim.bind_ok rfl rfl (Sim.bind_ok rfl rfl (Sim.bind_left rfl (Sim.bind_left rfl
    (Sim.bind_left (appendParents_eq grow _ _ _ _) (Sim.bind_ok rfl rfl ?_)))))
  exact Sim.ok ⟨rfl, h2.extendChain op ps⟩

theorem memberSim_call {c : CallExpression} {p : Ast.Expression} (hc : CallSim reg grow c) :
    MemberSim reg grow (.mk (.callExpression c) p) := by
  intro s a h
  refine Sim.bind (hc s a h) fun ⟨X, s1⟩ ⟨X', a1⟩ ⟨hX, h1⟩ => ?_
  dsimp only at hX h1
  cases hX
  cases p <;> first | exact Sim.ok ⟨rfl, h1⟩ | exact Sim.error _

theorem memberSim_identifier {n : String} {p : Ast.Expression} :
    MemberSim reg grow (.mk (.identifier n) p) := by
  intro s a h
  refine Sim.bind (copyChain_sim n h) fun ⟨X, s1⟩ ⟨X', a1⟩ ⟨hX, h1⟩ => ?_
  dsimp only at hX h1
  cases hX
  cases p <;> first | exact Sim.ok ⟨rfl, h1⟩ | exact Sim.error _

variable (reg grow)

mutual

/-- A call chain whose arguments call nothing builds, from related states where every chain is
empty, chains that read the same: by induction over the chain, with the evaluator's own
recursion. -/
theorem callSim : ∀ c : CallExpression, c.chainCallFree → CallSim reg grow c
  | .mk (.identifier _) _, h => callSim_identifier h
  | .mk (.memberExpression m) _, h =>
    callSim_member (memberSim m (Bool.and_eq_true_iff.1 h).1) (Bool.and_eq_true_iff.1 h).2
  | .mk (.literal _) _, _ | .mk (.callExpression _) _, _ | .mk (.arrowFunctionExpression _ _) _, _
  | .mk (.binaryExpression _) _, _ | .mk (.logicalExpression _) _, _ | .mk (.arrayExpression _) _, _
  | .mk (.objectExpression _) _, _ => fun _ _ _ => Sim.error _

theorem memberSim : ∀ m : MemberExpression, m.chainCallFree → MemberSim reg grow m
  | .mk (.callExpression c) _, h => memberSim_call (callSim c h)
  | .mk (.identifier _) _, _ => memberSim_identifier
  | .mk (.literal _) _, _ | .mk (.memberExpression _) _, _ | .mk (.arrowFunctionExpression _ _) _, _
  | .mk (.binaryExpression _) _, _ | .mk (.logicalExpression _) _, _ | .mk (.arrayExpression _) _, _
  | .mk (.objectExpression _) _, _ => fun _ _ _ => Sim.error _

end

end Calls

/-! ### Statements -/

section Statements

variable (reg : Registry Spec) (grow : Nat → Nat) {cur : Option Nat} {s : Evaluator Spec}
  {a : ValueChain.State Spec}

/-- What a statement's expression leaves: every chain empty, or only the chain its value holds. -/
def Built (v : Value) (s : Evaluator Spec) (a : ValueChain.State Spec) : Prop :=
  Refines none s a ∨ ∃ X, v = ⟨.tChain, .chain X⟩ ∧ Refines (some X) s a

theorem Built.setScope {v : Value} (h : Built v s a) (n : String) (w : Value) :
    Built v { s with scope := s.scope.set n w } { a with scope := a.scope.set n w } :=
  h.imp (·.setScope n w) fun ⟨X, hv, hX⟩ => ⟨X, hv, hX.setScope n w⟩

/-- A statement's expression: a call chain builds its chain, anything else changes nothing. -/
theorem doExpression_chain_sim {e : Ast.Expression} (he : e.chainCallFree) (h : Refines none s a) :
    Sim (Same Built) (doExpression reg grow e s) (ValueChain.doExpression reg e a) := by
  cases e
  case callExpression c =>
    exact Sim.bind (callSim reg grow c he s a h) fun ⟨X, s1⟩ ⟨X', a1⟩ ⟨hX, h1⟩ => by
      dsimp only at hX h1
      cases hX
      exact Sim.ok ⟨rfl, .inr ⟨X, rfl, h1⟩⟩
  all_goals
    exact (doExpression_free reg grow _ he s a h.scope).mono
      fun ⟨v, s1⟩ ⟨v', a1⟩ ⟨hv, hs1, ha1⟩ => ⟨hv, .inl (by dsimp only at hs1 ha1; rw [hs1, ha1]; exact h)⟩

variable {reg grow}

/-- `addChain X` in both evaluators, from states where only `X`, if any, had elements. -/
theorem addChain_sim {X : Nat} (h : Refines cur s a) (hcur : cur = none ∨ cur = some X) :
    Sim (Same fun _ s' a' => Refines none s' a') (addChain X s) (ValueChain.addChain X a) :=
  Sim.ok ⟨rfl, h.addChain hcur⟩

/-- The `value.Type == TChain` test that ends a statement, in both evaluators. -/
theorem drain_sim {v : Value} (h : Built v s a) :
    Sim (Same fun _ s' a' => Refines none s' a') (drain v s) (ValueChain.drain v a) := by
  rcases h with h | ⟨X, rfl, h⟩
  · unfold Ifql.drain ValueChain.drain
    by_cases ht : v.type = .tChain
    · simp only [ht, eq_self_iff_true, if_true]
      generalize v.value = d
      cases d <;> first | exact addChain_sim h (.inl rfl) | exact Sim.error _
    · simp only [ht, if_false]
      exact Sim.ok ⟨rfl, h⟩
  · exact addChain_sim h (.inr rfl)

variable (reg grow)

theorem doVariableDeclaration_sim : ∀ (ds : List VariableDeclarator),
    (ds.all fun d => d.init.chainCallFree) → ∀ (s : Evaluator Spec) (a : ValueChain.State Spec),
      Refines none s a →
      Sim (Same fun _ s' a' => Refines none s' a') (doVariableDeclaration reg grow ds s)
        (ValueChain.doVariableDeclaration reg ds a)
  | [], _, _, _, h => Sim.ok ⟨rfl, h⟩
  | d :: ds, hds, s, a, h => by
    obtain ⟨hd, hds⟩ := Bool.and_eq_true_iff.1 hds
    rw [doVariableDeclaration.eq_2, ValueChain.doVariableDeclaration.eq_2]
    refine Sim.bind (doExpression_chain_sim reg grow hd h) fun ⟨v, s1⟩ ⟨v', a1⟩ ⟨hv, h1⟩ => ?_
    dsimp only at hv h1
    subst hv
    refine Sim.bind_ok rfl rfl (Sim.bind (drain_sim (h1.setScope d.id v)) fun _ _ ⟨_, h2⟩ => ?_)
    exact doVariableDeclaration_sim ds hds _ _ h2

theorem doStatement_sim {st : Statement} (hst : st.argsCallFree) (h : Refines none s a) :
    Sim (Same fun _ s' a' => Refines none s' a') (doStatement reg grow st s)
      (ValueChain.doStatement reg st a) := by
  cases st with
  | variableDeclaration ds => exact doVariableDeclaration_sim reg grow ds hst s a h
  | expressionStatement e =>
    exact Sim.bind (doExpression_chain_sim reg grow hst h) fun ⟨v, s1⟩ ⟨v', a1⟩ ⟨hv, h1⟩ => by
      dsimp only at hv h1
      subst hv
      exact drain_sim h1

/-- Every run of statements whose arguments call nothing keeps the two evaluators related. -/
theorem doStatements_sim : ∀ (sts : List Statement), sts.all Ast.Statement.argsCallFree →
    ∀ (s : Evaluator Spec) (a : ValueChain.State Spec), Refines none s a →
      Sim (Same fun _ s' a' => Refines none s' a') (doStatements reg grow sts s)
        (ValueChain.doStatements reg sts a)
  | [], _, _, _, h => Sim.ok ⟨rfl, h⟩
  | st :: sts, hsts, s, a, h => by
    obtain ⟨hst, hsts⟩ := Bool.and_eq_true_iff.1 hsts
    rw [doStatements.eq_2, ValueChain.doStatements.eq_2]
    exact Sim.bind (doStatement_sim reg grow hst h) fun _ _ ⟨_, h1⟩ =>
      doStatements_sim sts hsts _ _ h1

/-- Two runs that end alike, with the same failure or in related states, read off the same spec. -/
theorem Sim.spec_eq {r : Except Failure (Unit × Evaluator Spec)}
    {r' : Except Failure (Unit × ValueChain.State Spec)}
    (h : Sim (Same fun _ s a => Refines none s a) r r') :
    (fun p => p.2.spec) <$> r = (fun p => p.2.spec) <$> r' := by
  rcases r with e | ⟨_, s⟩ <;> rcases r' with e' | ⟨_, a⟩
  · obtain rfl : e = e' := h
    rfl
  · exact (h : False).elim
  · exact (h : False).elim
  · obtain ⟨-, hsa⟩ := h
    show Except.ok s.spec = Except.ok a.spec
    rw [Evaluator.spec, ValueChain.State.spec, hsa.operations, hsa.ops, hsa.edges]

end Statements

section Runs

set_option smartUnfolding false

/-- With chains as values, the call `a.k()` in `argumentCallProgram` extends a copy of `a`'s chain of
its own: the spec of the `doubling` run, and not that of the `4 * c` run. -/
example :
    QuerySpec.graph <$> ValueChain.evaluate ⟨[("f", noArguments)], [("g", noArguments),
        ("x", noArguments), ("y", noArguments), ("z", noArguments), ("k", noArguments),
        ("m", joinOn "arg")]⟩ argumentCallProgram =
      .ok ([some "f0", some "g1", some "x2", some "y3", some "z4", some "m5"],
        [⟨"f0", "g1"⟩, ⟨"g1", "x2"⟩, ⟨"x2", "y3"⟩, ⟨"y3", "z4"⟩, ⟨"z4", "m5"⟩, ⟨"k6", "m5"⟩]) :=
  rfl

end Runs

end Refinement

/-! ### How `append` grows a slice -/

/-- How `append` grows a slice never shows in what `Evaluate` returns, for a program none of whose
arguments calls a function: the same spec, or the same failure, for every `grow`, since both runs
are the value-chain evaluator's. -/
theorem evaluate_grow_independent (reg : Registry Spec) (grow grow' : Nat → Nat) (prog : Program)
    (h : prog.argsCallFree) : evaluate reg grow prog = evaluate reg grow' prog :=
  (Refinement.Sim.spec_eq (Refinement.doStatements_sim reg grow prog.body h .init .init
    Refinement.Refines.init)).trans
    (Refinement.Sim.spec_eq (Refinement.doStatements_sim reg grow' prog.body h .init .init
      Refinement.Refines.init)).symm

section Runs

set_option smartUnfolding false

theorem evaluate_grow_independent_join :
    joinProgram.argsCallFree = true ∧
    evaluate ⟨[("f", noArguments), ("j", joinOn "tables")], [("g", noArguments)]⟩ doubling joinProgram =
      evaluate ⟨[("f", noArguments), ("j", joinOn "tables")], [("g", noArguments)]⟩ (fun c => 4 * c)
        joinProgram :=
  ⟨by decide, evaluate_grow_independent ⟨[("f", noArguments), ("j", joinOn "tables")],
    [("g", noArguments)]⟩ doubling (fun c => 4 * c) joinProgram (by decide)⟩

/-- On `argumentCallProgram`, whose argument calls `a.k()`, the capacities do show: the call
appends into the array `a`'s chain views, which the statement's chain still views when `append` gave
`a`'s window room for three (`4 * c`), and no longer does when it gave room for two (`doubling`):
`x2` is overwritten by `k6` in the first case only. -/
example :
    argumentCallProgram.argsCallFree = false ∧
    QuerySpec.graph <$> evaluate ⟨[("f", noArguments)], [("g", noArguments), ("x", noArguments),
        ("y", noArguments), ("z", noArguments), ("k", noArguments), ("m", joinOn "arg")]⟩
        doubling argumentCallProgram =
      .ok ([some "f0", some "g1", some "x2", some "y3", some "z4", some "m5"],
        [⟨"f0", "g1"⟩, ⟨"g1", "x2"⟩, ⟨"x2", "y3"⟩, ⟨"y3", "z4"⟩, ⟨"z4", "m5"⟩, ⟨"k6", "m5"⟩]) ∧
    QuerySpec.graph <$> evaluate ⟨[("f", noArguments)], [("g", noArguments), ("x", noArguments),
        ("y", noArguments), ("z", noArguments), ("k", noArguments), ("m", joinOn "arg")]⟩
        (fun c => 4 * c) argumentCallProgram =
      .ok ([some "f0", some "g1", some "k6", some "y3", some "z4", some "m5"],
        [⟨"f0", "g1"⟩, ⟨"g1", "x2"⟩, ⟨"x2", "y3"⟩, ⟨"y3", "z4"⟩, ⟨"z4", "m5"⟩, ⟨"k6", "m5"⟩]) :=
  ⟨by decide, rfl, rfl⟩

end Runs

end Ifql
