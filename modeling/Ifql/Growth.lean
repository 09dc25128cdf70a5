import Ifql.OperationIds

/-!
# Programs whose arguments call nothing, and two runs of the evaluator

Go leaves the capacity `append` gives a grown slice to the runtime, and the model takes it as the
parameter `grow`. The evaluator keeps a call chain's operations and edges in slices and copies a
chain by copying its headers, so an `append` may write into an array that another chain views
(`evaluate_shared_branch_overwrites`). Whether it does depends on the capacities only through a call
evaluated inside an argument; a program with none is `Ast.Program.argsCallFree`. This module holds
what the proofs about such programs share:

* `Sim`: two runs, over states of two types, that end with the same failure or in related states,
  with its rules for `bind` and for the evaluator's checks;
* `Evaluator.Settled`: every window of a state valid, and empty but those of the chain `cur` a
  statement is building; `Twin`: two states of the Go evaluator that agree, both settled;
* `doExpression_free`: an expression that calls nothing leaves the state alone, and its value
  depends on the scope only;
* `Twin.newChain`, `Twin.extend`, `Twin.copy`: a statement's chain steps keep the states settled.

That the capacities never show on such a program, `evaluate_grow_independent`, follows in
`Refinement` from the refinement of the evaluator with chains as values.
-/

namespace Ifql

open Ast Query

/-! ### Programs whose arguments call nothing -/

mutual

/-- Evaluating the expression calls no function: `doExpression` meets no call expression in it. The
operands of a binary or logical expression are lowered, not evaluated, and a member or object
expression is rejected before its parts are looked at. -/
def Ast.Expression.callFree : Ast.Expression → Bool
  | .callExpression _ => false
  | .arrowFunctionExpression _ body => Ast.Expression.callFree body
  | .arrayExpression (.mk els) => Ast.elementsCallFree els
  | _ => true

/-- No element calls a function. -/
def Ast.elementsCallFree : List Ast.Expression → Bool
  | [] => true
  | e :: els => Ast.Expression.callFree e && Ast.elementsCallFree els

end

/-- The arguments of a call call nothing: `createOp` evaluates the property values of a lone
argument object, and no other argument list. -/
def Ast.argsCallFree : List Ast.Expression → Bool
  | [.objectExpression (.mk ps)] => ps.all fun | .mk _ v => v.callFree
  | _ => true

mutual

/-- A call chain none of whose calls has an argument that calls a function. -/
def Ast.CallExpression.chainCallFree : Ast.CallExpression → Bool
  | .mk (.memberExpression m) args => Ast.MemberExpression.chainCallFree m && Ast.argsCallFree args
  | .mk _ args => Ast.argsCallFree args

/-- The object of a member call, when a call, is such a chain. -/
def Ast.MemberExpression.chainCallFree : Ast.MemberExpression → Bool
  | .mk (.callExpression c) _ => Ast.CallExpression.chainCallFree c
  | .mk _ _ => true

end

/-- What a statement may evaluate: an expression that calls nothing, or a call chain none of whose
arguments calls anything. -/
def Ast.Expression.chainCallFree : Ast.Expression → Bool
  | .callExpression c => c.chainCallFree
  | e => e.callFree

/-- No argument of a call of the statement calls a function. -/
def Ast.Statement.argsCallFree : Ast.Statement → Bool
  | .variableDeclaration ds => ds.all fun d => d.init.chainCallFree
  | .expressionStatement e => e.chainCallFree

/-- No argument of a call of the program calls a function: its only calls are the chains its
statements are made of. -/
def Ast.Program.argsCallFree (p : Program) : Bool := p.body.all Ast.Statement.argsCallFree

/-! ### Two runs, over two kinds of state -/

section Sim

variable {α β γ δ σ τ : Type} {s : σ} {t : τ}

/-- A step of a state-and-failure computation that returns hands its result and state to the
rest. -/
theorem stateT_bind_ok {x : StateT σ (Except Failure) α} {f : α → StateT σ (Except Failure) β}
    {a : α} {s' : σ} (h : x s = .ok (a, s')) : (x >>= f) s = f a s' := by
  simp only [bind, StateT.bind, h]; rfl

/-- A step that fails ends the computation with its failure. -/
theorem stateT_bind_error {x : StateT σ (Except Failure) α} {f : α → StateT σ (Except Failure) β}
    {e : Failure} (h : x s = .error e) : (x >>= f) s = .error e := by
  simp only [bind, StateT.bind, h]; rfl

/-- The results of two runs, over states of types `σ` and `τ`: the same failure, or two returns
related by `R`. -/
def Sim (R : α × σ → α × τ → Prop) : Except Failure (α × σ) → Except Failure (α × τ) → Prop
  | .ok p, .ok q => R p q
  | .error e, .error f => e = f
  | _, _ => False

/-- Returns of the same value, with the states related by `Q`. -/
abbrev Same (Q : α → σ → τ → Prop) (p : α × σ) (q : α × τ) : Prop := p.1 = q.1 ∧ Q p.1 p.2 q.2

/-- Two returns of the same value, from states `s` and `t` that neither run changed. -/
abbrev Fixed (s : σ) (t : τ) (p : α × σ) (q : α × τ) : Prop := p.1 = q.1 ∧ p.2 = s ∧ q.2 = t

variable {R : α × σ → α × τ → Prop}

theorem Sim.ok {p : α × σ} {q : α × τ} (h : R p q) : Sim R (.ok p) (.ok q) := h

theorem Sim.error (e : Failure) : Sim R (.error e) (.error e) := rfl

theorem Sim.mono {P : α × σ → α × τ → Prop} {r : Except Failure (α × σ)} {r' : Except Failure (α × τ)}
    (h : Sim P r r') (hpr : ∀ p q, P p q → R p q) : Sim R r r' := by
  rcases r with e | p <;> rcases r' with e' | q
  · exact h
  · exact (h : False).elim
  · exact (h : False).elim
  · exact hpr p q h

/-- The bind rule: related first steps, and rests related from related returns. -/
theorem Sim.bind {x : StateT σ (Except Failure) α} {x' : StateT τ (Except Failure) α}
    {f : α → StateT σ (Except Failure) β} {f' : α → StateT τ (Except Failure) β}
    {Q : β × σ → β × τ → Prop} (hx : Sim R (x s) (x' t))
    (hf : ∀ p q, R p q → Sim Q (f p.1 p.2) (f' q.1 q.2)) : Sim Q ((x >>= f) s) ((x' >>= f') t) := by
  rcases h1 : x s with e | ⟨a, s1⟩ <;> rcases h2 : x' t with e' | ⟨b, t1⟩ <;> rw [h1, h2] at hx
  · obtain rfl : e = e' := hx
    rw [stateT_bind_error h1, stateT_bind_error h2]
    exact rfl
  · exact (hx : False).elim
  · exact (hx : False).elim
  · rw [stateT_bind_ok h1, stateT_bind_ok h2]
    exact hf _ _ hx

/-- First steps that return, whatever they return (the state, for `get`), and related rests. -/
theorem Sim.bind_ok {x : StateT σ (Except Failure) γ} {x' : StateT τ (Except Failure) δ}
    {f : γ → StateT σ (Except Failure) β} {f' : δ → StateT τ (Except Failure) β}
    {Q : β × σ → β × τ → Prop} {a : γ} {b : δ} {s1 : σ} {t1 : τ}
    (h1 : x s = .ok (a, s1)) (h2 : x' t = .ok (b, t1)) (hf : Sim Q (f a s1) (f' b t1)) :
    Sim Q ((x >>= f) s) ((x' >>= f') t) := by
  rwa [stateT_bind_ok h1, stateT_bind_ok h2]

/-- A step of the first run only, which returns. -/
theorem Sim.bind_left {x : StateT σ (Except Failure) γ} {f : γ → StateT σ (Except Failure) β}
    {r' : Except Failure (β × τ)} {Q : β × σ → β × τ → Prop} {a : γ} {s1 : σ}
    (h1 : x s = .ok (a, s1)) (hf : Sim Q (f a s1) r') : Sim Q ((x >>= f) s) r' := by
  rwa [stateT_bind_ok h1]

/-- A check `if c { return ..., err }` both runs make. -/
theorem Sim.check {c : Prop} [Decidable c] {e : Failure} {k : PUnit → StateT σ (Except Failure) α}
    {k' : PUnit → StateT τ (Except Failure) α} (hk : ¬c → Sim R (k () s) (k' () t)) :
    Sim R ((if c then throw e >>= k else pure PUnit.unit >>= k) s)
      ((if c then throw e >>= k' else pure PUnit.unit >>= k') t) := by
  by_cases hc : c
  · rw [if_pos hc, if_pos hc]
    exact rfl
  · rw [if_neg hc, if_neg hc]
    exact hk hc

end Sim

/-! ### The states of the two runs -/

/-- A chain whose two windows are empty, as a drained chain's are. -/
def CallChain.Empty (c : CallChain) : Prop := c.operations.len = 0 ∧ c.edges.len = 0

theorem CallChain.Empty.read {c : CallChain} (h : c.Empty) (O : Store (Option Nat)) (E : Store Edge) :
    c.operations.read O = [] ∧ c.edges.read E = [] := by
  simp [Slice.read, h.1, h.2]

theorem CallChain.zero_empty : CallChain.zero.Empty := ⟨rfl, rfl⟩

theorem Slice.nil_valid {α : Type} (st : Store α) : Slice.nil.Valid st :=
  ⟨le_rfl, fun h => absurd h (Nat.lt_irrefl 0)⟩

section States

variable {Spec : Type}

/-- The chains of one run: every window a header the runtime could have built, and all of them
empty but those of the chain `cur` a statement is building. -/
structure Evaluator.Settled (cur : Option Nat) (s : Evaluator Spec) : Prop where
  validOps : ∀ c, (s.chains.cells c).operations.Valid s.opArrays
  validEdges : ∀ c, (s.chains.cells c).edges.Valid s.edgeArrays
  empty : ∀ c, cur ≠ some c → (s.chains.cells c).Empty

/-- Two states of the two runs: the same ids, scope, spec, operations and chain parents, and the
chain `cur` reading the same elements, over arrays that may differ. -/
structure Evaluator.Agree (cur : Option Nat) (s t : Evaluator Spec) : Prop where
  id : s.id = t.id
  scope : s.scope = t.scope
  operations : s.operations = t.operations
  edges : s.edges = t.edges
  ops : s.ops = t.ops
  chains_size : s.chains.size = t.chains.size
  parent : ∀ c, (s.chains.cells c).parent = (t.chains.cells c).parent
  readOps : ∀ X, cur = some X →
    (s.chains.cells X).operations.read s.opArrays = (t.chains.cells X).operations.read t.opArrays
  readEdges : ∀ X, cur = some X →
    (s.chains.cells X).edges.read s.edgeArrays = (t.chains.cells X).edges.read t.edgeArrays

/-- Related states of the two runs, with `cur` the chain being built. -/
structure Twin (cur : Option Nat) (s t : Evaluator Spec) : Prop where
  agree : s.Agree cur t
  left : s.Settled cur
  right : t.Settled cur

variable {cur : Option Nat} {s t : Evaluator Spec}

theorem Twin.init : Twin none (Evaluator.init : Evaluator Spec) .init where
  agree := ⟨rfl, rfl, rfl, rfl, rfl, rfl, fun _ => rfl, nofun, nofun⟩
  left := ⟨fun _ => Slice.nil_valid _, fun _ => Slice.nil_valid _, fun _ _ => CallChain.zero_empty⟩
  right := ⟨fun _ => Slice.nil_valid _, fun _ => Slice.nil_valid _, fun _ _ => CallChain.zero_empty⟩

/-- One run's step that builds the chain `X`, from a state where only `X`, if any, had elements:
new arrays that keep every header they made valid, and a new record `r` for `X` over them. -/
theorem Evaluator.Settled.replace {X : Nat} (h : s.Settled cur) (hcur : cur = none ∨ cur = some X)
    {O : Store (Option Nat)} {E : Store Edge} {H : Heap CallChain} {r : CallChain}
    (hO : ∀ sl : Slice, sl.Valid s.opArrays → sl.Valid O)
    (hE : ∀ sl : Slice, sl.Valid s.edgeArrays → sl.Valid E)
    (hH : ∀ c, c ≠ X → H.cells c = s.chains.cells c) (hHX : H.cells X = r)
    (hr : r.operations.Valid O ∧ r.edges.Valid E) :
    Evaluator.Settled (some X) { s with opArrays := O, edgeArrays := E, chains := H } := by
  refine ⟨fun c => ?_, fun c => ?_, fun c hc => ?_⟩ <;> dsimp only
  · by_cases hc : c = X
    · exact hc ▸ hHX ▸ hr.1
    · exact hH c hc ▸ hO _ (h.validOps c)
  · by_cases hc : c = X
    · exact hc ▸ hHX ▸ hr.2
    · exact hH c hc ▸ hE _ (h.validEdges c)
  · have hcX : c ≠ X := fun e => hc (e ▸ rfl)
    rw [hH c hcX]
    exact h.empty c (by rcases hcur with rfl | rfl <;> simp [Ne.symm hcX])

/-- Both runs' steps that build the chain `X`: records with the same parent, whose windows read the
same. -/
theorem Evaluator.Agree.replace {X : Nat} (h : s.Agree cur t) {O1 O2 : Store (Option Nat)}
    {E1 E2 : Store Edge} {H1 H2 : Heap CallChain} {r1 r2 : CallChain}
    (hH1 : ∀ c, c ≠ X → H1.cells c = s.chains.cells c) (hH2 : ∀ c, c ≠ X → H2.cells c = t.chains.cells c)
    (hHX1 : H1.cells X = r1) (hHX2 : H2.cells X = r2) (hsize : H1.size = H2.size)
    (hp : r1.parent = r2.parent) (hro : r1.operations.read O1 = r2.operations.read O2)
    (hre : r1.edges.read E1 = r2.edges.read E2) :
    Evaluator.Agree (some X) { s with opArrays := O1, edgeArrays := E1, chains := H1 }
      { t with opArrays := O2, edgeArrays := E2, chains := H2 } where
  id := h.id
  scope := h.scope
  operations := h.operations
  edges := h.edges
  ops := h.ops
  chains_size := hsize
  parent c := by
    by_cases hc : c = X
    · subst hc
      exact hHX1 ▸ hHX2 ▸ hp
    · exact (hH1 c hc).symm ▸ (hH2 c hc).symm ▸ h.parent c
  readOps _ hX := by cases hX; exact hHX1 ▸ hHX2 ▸ hro
  readEdges _ hX := by cases hX; exact hHX1 ▸ hHX2 ▸ hre

/-- `addChain X` in one run, from a state where only `X`, if any, had elements: every chain is
empty after. -/
theorem Evaluator.Settled.drain {X : Nat} (h : s.Settled cur) (hcur : cur = none ∨ cur = some X)
    (o : List (Option Nat)) (e : List Edge) :
    Evaluator.Settled none { s with operations := o, edges := e, chains := (s.chains.set X
      { (s.chains.cells X) with operations := { (s.chains.cells X).operations with len := 0 },
                                edges := { (s.chains.cells X).edges with len := 0 } }) } := by
  refine ⟨fun c => ?_, fun c => ?_, fun c _ => ?_⟩ <;> dsimp only <;> rw [Heap.set_cells] <;> split
  · exact ⟨Nat.zero_le _, (h.validOps X).2⟩
  · exact h.validOps c
  · exact ⟨Nat.zero_le _, (h.validEdges X).2⟩
  · exact h.validEdges c
  · exact ⟨rfl, rfl⟩
  · rename_i hc
    exact h.empty c (by rcases hcur with rfl | rfl <;> simp [Ne.symm hc])

end States

/-! ### Appends -/

namespace Slice

variable {α : Type} (zero : α) (grow : Nat → Nat)

/-- `append` of each element in turn. -/
def appendAll : Store α → Slice → List α → Store α × Slice
  | st, sl, [] => (st, sl)
  | st, sl, x :: xs => appendAll (append zero grow st sl x).1 (append zero grow st sl x).2 xs

/-- Appending a list adds exactly its elements to the window appended through. -/
theorem read_appendAll : ∀ {st : Store α} {sl : Slice} (xs : List α), sl.Valid st →
    (appendAll zero grow st sl xs).2.read (appendAll zero grow st sl xs).1 = sl.read st ++ xs ∧
      (appendAll zero grow st sl xs).2.Valid (appendAll zero grow st sl xs).1
  | _, _, [], hv => ⟨(List.append_nil _).symm, hv⟩
  | _, _, x :: xs, hv => by
    obtain ⟨hr, hv'⟩ := read_appendAll xs (valid_append x hv)
    refine ⟨?_, hv'⟩
    rw [appendAll, hr, read_append x hv, List.append_assoc, List.singleton_append]

theorem valid_of_appendAll {t : Slice} : ∀ {st : Store α} {sl : Slice} (xs : List α),
    t.Valid st → t.Valid (appendAll zero grow st sl xs).1
  | _, _, [], ht => ht
  | st, sl, x :: xs, ht => valid_of_appendAll xs (valid_of_append st sl x ht)

end Slice

/-- The loop of additional parents appends the edges from the parents in turn. -/
theorem appendParents_eq {Spec : Type} (grow : Nat → Nat) (child : OperationID) :
    ∀ (ps : List OperationID) (sl : Slice) (s : Evaluator Spec),
      appendParents grow child sl ps s =
        .ok ((Slice.appendAll ⟨"", ""⟩ grow s.edgeArrays sl (ps.map fun p => ⟨p, child⟩)).2,
          { s with edgeArrays :=
              (Slice.appendAll ⟨"", ""⟩ grow s.edgeArrays sl (ps.map fun p => ⟨p, child⟩)).1 })
  | [], _, _ => rfl
  | _ :: ps, _, _ => by
    rw [appendParents.eq_2, EvalM.bind_ok rfl, appendParents_eq grow child ps]
    rfl

/-! ### Constructors see chains through their parents -/

section Parents

variable {scope : Scope} {h1 h2 : Heap CallChain}
  (hp : ∀ c, (h1.cells c).parent = (h2.cells c).parent)
include hp

theorem lookupIDFromIdentifier_parents (ident : String) :
    lookupIDFromIdentifier scope h1 ident = lookupIDFromIdentifier scope h2 ident := by
  simp only [lookupIDFromIdentifier, hp]

theorem perform_parents (st : CtorState) (r : Request) :
    perform scope h1 st r = perform scope h2 st r := by
  cases r <;> simp only [perform, lookupIDFromIdentifier_parents hp, hp]

/-- A constructor sees the chains only through their parents. -/
theorem runCtor_parents {Spec : Type} :
    ∀ (ctor : Ctor Spec) (st : CtorState), runCtor scope h1 ctor st = runCtor scope h2 ctor st
  | .done _, _ => rfl
  | .request r k, st => by
    simp only [runCtor, perform_parents hp]
    rcases perform scope h2 st r with e | ⟨⟨g, ok, err⟩, st'⟩
    · rfl
    · exact runCtor_parents (k g ok err) st'

end Parents

/-! ### Expressions that call nothing -/

section Free

variable {Spec : Type} (reg : Registry Spec) (grow grow' : Nat → Nat)

/-- `doExpression` from two states with one scope returns the same value and changes neither. -/
def ExprFree (e : Ast.Expression) : Prop :=
  ∀ s t : Evaluator Spec, s.scope = t.scope →
    Sim (Fixed s t) (doExpression reg grow e s) (doExpression reg grow' e t)

/-- The element loop of `doArray`, likewise. -/
def ElementsFree (els : List Ast.Expression) : Prop :=
  ∀ (ty : ValueType) (s t : Evaluator Spec), s.scope = t.scope →
    Sim (Fixed s t) (doElements reg grow els ty s) (doElements reg grow' els ty t)

variable {reg grow grow'}

theorem exprFree_literal (l : Literal) : ExprFree reg grow grow' (.literal l) := by
  intro s t _
  cases l <;> first | exact Sim.ok ⟨rfl, rfl, rfl⟩ | exact Sim.error _

theorem exprFree_identifier (n : String) : ExprFree reg grow grow' (.identifier n) := by
  intro s t hsc
  rw [doExpression.eq_2, doExpression.eq_2, hsc]
  rcases t.scope n with _ | v
  · exact Sim.error _
  · exact Sim.ok ⟨rfl, rfl, rfl⟩

theorem exprFree_binary (b : BinaryExpression) : ExprFree reg grow grow' (.binaryExpression b) := by
  intro s t _
  rw [doExpression.eq_4, doExpression.eq_4]
  rcases binaryExpression b with e | root
  · exact Sim.error _
  · exact Sim.ok ⟨rfl, rfl, rfl⟩

theorem exprFree_logical (l : LogicalExpression) :
    ExprFree reg grow grow' (.logicalExpression l) := by
  intro s t _
  rw [doExpression.eq_5, doExpression.eq_5]
  rcases logicalExpression l with e | root
  · exact Sim.error _
  · exact Sim.ok ⟨rfl, rfl, rfl⟩

theorem exprFree_arrow {params : List String} {body : Ast.Expression}
    (hb : ExprFree reg grow grow' body) :
    ExprFree reg grow grow' (.arrowFunctionExpression params body) := by
  intro s t hsc
  refine Sim.bind (hb s t hsc) fun ⟨v, s1⟩ ⟨v', t1⟩ ⟨hv, hs1, ht1⟩ => ?_
  dsimp only at hv hs1 ht1 ⊢
  subst hv hs1 ht1
  generalize v.value = d
  cases d
  case expression e => exact Sim.ok ⟨rfl, rfl, rfl⟩
  all_goals exact Sim.error _

theorem exprFree_array {els : List Ast.Expression} (hels : ElementsFree reg grow grow' els) :
    ExprFree reg grow grow' (.arrayExpression (.mk els)) := by
  intro s t hsc
  refine Sim.bind (hels .tInvalid s t hsc) fun ⟨⟨ty, vs⟩, s1⟩ ⟨⟨ty', vs'⟩, t1⟩ ⟨hv, hs1, ht1⟩ => ?_
  dsimp only at hv hs1 ht1 ⊢
  cases hv
  subst hs1 ht1
  rcases toElements ty vs with f | elements
  · exact Sim.error f
  · exact Sim.ok ⟨rfl, rfl, rfl⟩

theorem exprFree_member (m : MemberExpression) : ExprFree reg grow grow' (.memberExpression m) :=
  fun _ _ _ => Sim.error _

theorem exprFree_object (o : ObjectExpression) : ExprFree reg grow grow' (.objectExpression o) :=
  fun _ _ _ => Sim.error _

theorem elementsFree_nil : ElementsFree reg grow grow' [] :=
  fun _ _ _ _ => Sim.ok ⟨rfl, rfl, rfl⟩

theorem elementsFree_cons {el : Ast.Expression} {els : List Ast.Expression}
    (he : ExprFree reg grow grow' el) (hels : ElementsFree reg grow grow' els) :
    ElementsFree reg grow grow' (el :: els) := by
  intro ty s t hsc
  refine Sim.bind (he s t hsc) fun ⟨v, s1⟩ ⟨v', t1⟩ ⟨hv, hs1, ht1⟩ => ?_
  dsimp only at hv hs1 ht1
  subst hv hs1 ht1
  refine Sim.check fun _ => Sim.bind (hels _ _ _ hsc) fun ⟨⟨ty2, vs⟩, s2⟩ ⟨⟨ty2', vs'⟩, t2⟩ ⟨hv, hs2, ht2⟩ => ?_
  dsimp only at hv hs2 ht2
  cases hv
  subst hs2 ht2
  exact Sim.ok ⟨rfl, rfl, rfl⟩

variable (reg grow grow')

mutual

/-- An expression that calls nothing returns the same value in both runs and changes neither state,
by induction over the syntax tree. -/
theorem doExpression_free : ∀ e : Ast.Expression, e.callFree → ExprFree reg grow grow' e
  | .literal l, _ => exprFree_literal l
  | .identifier n, _ => exprFree_identifier n
  | .callExpression _, h => absurd h Bool.false_ne_true
  | .arrowFunctionExpression _ body, h => exprFree_arrow (doExpression_free body h)
  | .binaryExpression b, _ => exprFree_binary b
  | .logicalExpression l, _ => exprFree_logical l
  | .arrayExpression (.mk els), h => exprFree_array (doElements_free els h)
  | .memberExpression m, _ => exprFree_member m
  | .objectExpression o, _ => exprFree_object o

theorem doElements_free :
    ∀ els : List Ast.Expression, Ast.elementsCallFree els → ElementsFree reg grow grow' els
  | [], _ => elementsFree_nil
  | el :: els, h =>
    elementsFree_cons (doExpression_free el (Bool.and_eq_true_iff.1 h).1)
      (doElements_free els (Bool.and_eq_true_iff.1 h).2)

end

end Free

/-! ### `createOp` -/

section Create

variable {Spec : Type} {reg : Registry Spec} {grow grow' : Nat → Nat} {cur : Option Nat}
  {s t : Evaluator Spec}

/-- With no single argument, `createOp` constructs the operation on no parameters. -/
theorem createOp_of_ne_single {args : List Ast.Expression} (hargs : ∀ e, args ≠ [e]) (name : String)
    (ctor : Ctor Spec) (s : Evaluator Spec) :
    createOp reg grow name ctor args s =
      (do let op ← newOp name; pure (op, ← construct op ctor []) : EvalM Spec _) s := by
  match args, hargs with
  | [], _ => rfl
  | [e], hargs => exact absurd rfl (hargs e)
  | e :: _ :: _, _ => cases e <;> rfl

end Create

/-! ### The chain a statement builds -/

section Chain

variable {Spec : Type} {grow grow' : Nat → Nat} {s t : Evaluator Spec}

/-- The chain `callFunction` allocates for a function call: in both runs, the operation in a new
array, the edges from its parents appended to a `nil` slice, and the chain over them. -/
theorem Twin.newChain (h : Twin none s t) (op : Nat) {i1 i2 : OperationID} (hi : i1 = i2)
    {es es' : List Edge} (hes : es = es') :
    Twin (some s.chains.size)
      { s with opArrays := (Slice.literal s.opArrays [some op]).1,
               edgeArrays := (Slice.appendAll ⟨"", ""⟩ grow s.edgeArrays .nil es).1,
               chains := (s.chains.alloc ⟨i1, (Slice.literal s.opArrays [some op]).2,
                 (Slice.appendAll ⟨"", ""⟩ grow s.edgeArrays .nil es).2⟩).1 }
      { t with opArrays := (Slice.literal t.opArrays [some op]).1,
               edgeArrays := (Slice.appendAll ⟨"", ""⟩ grow' t.edgeArrays .nil es').1,
               chains := (t.chains.alloc ⟨i2, (Slice.literal t.opArrays [some op]).2,
                 (Slice.appendAll ⟨"", ""⟩ grow' t.edgeArrays .nil es').2⟩).1 } := by
  subst hes
  have hsize := h.agree.chains_size
  have hne : ∀ {H : Heap CallChain} {r : CallChain} c, c ≠ H.size → (H.alloc r).1.cells c = H.cells c :=
    fun c hc => by rw [Heap.alloc_cells, if_neg hc]
  have hat : ∀ {H : Heap CallChain} {r : CallChain}, (H.alloc r).1.cells H.size = r :=
    by intro H r; rw [Heap.alloc_cells, if_pos rfl]
  have hat' : ∀ {r : CallChain}, (t.chains.alloc r).1.cells s.chains.size = r := by
    intro r; rw [hsize]; exact hat
  refine ⟨h.agree.replace (fun c hc => hne c hc) (fun c hc => hne c (hsize ▸ hc)) hat hat'
    (by simp [hsize]) hi (by rw [Slice.read_literal, Slice.read_literal]) ?_,
    h.left.replace (.inl rfl) (fun _ hv => Slice.valid_alloc hv _)
      (fun _ hv => Slice.valid_of_appendAll _ _ _ hv) (fun c hc => hne c hc) hat
      ⟨Slice.valid_literal _, (Slice.read_appendAll _ _ es (Slice.nil_valid _)).2⟩,
    h.right.replace (.inl rfl) (fun _ hv => Slice.valid_alloc hv _)
      (fun _ hv => Slice.valid_of_appendAll _ _ _ hv) (fun c hc => hne c (hsize ▸ hc)) hat'
      ⟨Slice.valid_literal _, (Slice.read_appendAll _ _ es (Slice.nil_valid _)).2⟩⟩
  rw [(Slice.read_appendAll _ _ es (Slice.nil_valid _)).1, (Slice.read_appendAll _ _ es (Slice.nil_valid _)).1]
  rfl

/-- A method call on the chain `X` being built: in both runs, the operation appended to its
operations, the edge from its parent and those from the additional parents to its edges, and the
new headers stored in `X`. -/
theorem Twin.extend {X : Nat} (h : Twin (some X) s t) (op : Nat) {i1 i2 : OperationID} (hi : i1 = i2)
    {x1 x2 : Edge} {xs1 xs2 : List Edge} (hxs : x1 :: xs1 = x2 :: xs2) :
    Twin (some X)
      { s with opArrays := (Slice.append none grow s.opArrays (s.chains.cells X).operations (some op)).1,
               edgeArrays := (Slice.appendAll ⟨"", ""⟩ grow
                 (Slice.append ⟨"", ""⟩ grow s.edgeArrays (s.chains.cells X).edges x1).1
                 (Slice.append ⟨"", ""⟩ grow s.edgeArrays (s.chains.cells X).edges x1).2 xs1).1,
               chains := s.chains.set X ⟨i1,
                 (Slice.append none grow s.opArrays (s.chains.cells X).operations (some op)).2,
                 (Slice.appendAll ⟨"", ""⟩ grow
                   (Slice.append ⟨"", ""⟩ grow s.edgeArrays (s.chains.cells X).edges x1).1
                   (Slice.append ⟨"", ""⟩ grow s.edgeArrays (s.chains.cells X).edges x1).2 xs1).2⟩ }
      { t with opArrays := (Slice.append none grow' t.opArrays (t.chains.cells X).operations (some op)).1,
               edgeArrays := (Slice.appendAll ⟨"", ""⟩ grow'
                 (Slice.append ⟨"", ""⟩ grow' t.edgeArrays (t.chains.cells X).edges x2).1
                 (Slice.append ⟨"", ""⟩ grow' t.edgeArrays (t.chains.cells X).edges x2).2 xs2).1,
               chains := t.chains.set X ⟨i2,
                 (Slice.append none grow' t.opArrays (t.chains.cells X).operations (some op)).2,
                 (Slice.appendAll ⟨"", ""⟩ grow'
                   (Slice.append ⟨"", ""⟩ grow' t.edgeArrays (t.chains.cells X).edges x2).1
                   (Slice.append ⟨"", ""⟩ grow' t.edgeArrays (t.chains.cells X).edges x2).2 xs2).2⟩ } := by
  cases hxs
  have hne : ∀ {H : Heap CallChain} {r : CallChain} c, c ≠ X → (H.set X r).cells c = H.cells c :=
    fun c hc => by rw [Heap.set_cells, if_neg hc]
  have hat : ∀ {H : Heap CallChain} {r : CallChain}, (H.set X r).cells X = r :=
    by intro H r; rw [Heap.set_cells, if_pos rfl]
  have hvo := h.left.validOps X
  have hvo' := h.right.validOps X
  -- the edges: one `append`, then the loop, is `appendAll` of the whole list
  have hre := Slice.read_appendAll ⟨"", ""⟩ grow (x1 :: xs1) (h.left.validEdges X)
  have hre' := Slice.read_appendAll ⟨"", ""⟩ grow' (x1 :: xs1) (h.right.validEdges X)
  refine ⟨h.agree.replace (fun c hc => hne c hc) (fun c hc => hne c hc) hat hat
    h.agree.chains_size hi ?_ ?_,
    h.left.replace (.inr rfl) (fun _ hv => Slice.valid_of_append _ _ _ hv)
      (fun _ hv => Slice.valid_of_appendAll _ _ (x1 :: xs1) hv) (fun c hc => hne c hc) hat
      ⟨Slice.valid_append _ hvo, hre.2⟩,
    h.right.replace (.inr rfl) (fun _ hv => Slice.valid_of_append _ _ _ hv)
      (fun _ hv => Slice.valid_of_appendAll _ _ (x1 :: xs1) hv) (fun c hc => hne c hc) hat
      ⟨Slice.valid_append _ hvo', hre'.2⟩⟩
  · rw [Slice.read_append _ hvo, Slice.read_append _ hvo', h.agree.readOps X rfl]
  · exact hre.1.trans ((congrArg (· ++ x1 :: xs1) (h.agree.readEdges X rfl)).trans hre'.1.symm)

/-- `copyChain`'s copy of a variable's chain into a new chain, from states where every chain is
empty: the copy is empty too. -/
theorem Twin.copy (h : Twin none s t) (src : Nat) :
    Twin (some s.chains.size)
      { s with chains := (s.chains.alloc .zero).1.set s.chains.size ((s.chains.alloc .zero).1.cells src) }
      { t with chains := (t.chains.alloc .zero).1.set t.chains.size ((t.chains.alloc .zero).1.cells src) } := by
  have hsize := h.agree.chains_size
  -- the copied record: the new zero chain, or a chain of the state, empty and valid either way
  have hcell : ∀ {u : Evaluator Spec}, u.Settled none →
      ((u.chains.alloc .zero).1.cells src).Empty ∧
      ((u.chains.alloc .zero).1.cells src).operations.Valid u.opArrays ∧
      ((u.chains.alloc .zero).1.cells src).edges.Valid u.edgeArrays := by
    intro u hu
    rw [Heap.alloc_cells]
    split
    · exact ⟨CallChain.zero_empty, Slice.nil_valid _, Slice.nil_valid _⟩
    · exact ⟨hu.empty src nofun, hu.validOps src, hu.validEdges src⟩
  have hne : ∀ {H : Heap CallChain} {r : CallChain} c, c ≠ H.size →
      ((H.alloc .zero).1.set H.size r).cells c = H.cells c :=
    fun c hc => by rw [Heap.set_cells, if_neg hc, Heap.alloc_cells, if_neg hc]
  have hat : ∀ {H : Heap CallChain} {r : CallChain}, ((H.alloc .zero).1.set H.size r).cells H.size = r :=
    by intro H r; rw [Heap.set_cells, if_pos rfl]
  have hat' : ∀ {r : CallChain},
      ((t.chains.alloc .zero).1.set t.chains.size r).cells s.chains.size = r := by
    intro r; rw [hsize]; exact hat
  obtain ⟨he1, hv1, hv1'⟩ := hcell h.left
  obtain ⟨he2, hv2, hv2'⟩ := hcell h.right
  refine ⟨h.agree.replace (fun c hc => hne c hc) (fun c hc => hne c (hsize ▸ hc)) hat hat'
    (by simp [hsize]) ?_ ((he1.read s.opArrays s.edgeArrays).1.trans (he2.read t.opArrays t.edgeArrays).1.symm)
    ((he1.read s.opArrays s.edgeArrays).2.trans (he2.read t.opArrays t.edgeArrays).2.symm),
    h.left.replace (.inl rfl) (fun _ hv => hv) (fun _ hv => hv) (fun c hc => hne c hc) hat ⟨hv1, hv1'⟩,
    h.right.replace (.inl rfl) (fun _ hv => hv) (fun _ hv => hv) (fun c hc => hne c (hsize ▸ hc))
      hat' ⟨hv2, hv2'⟩⟩
  rw [Heap.alloc_cells, Heap.alloc_cells, ← hsize]
  split
  · rfl
  · exact h.agree.parent src

end Chain


section Runs

set_option smartUnfolding false

/-- `a = f()`, `b = a.g()`, then `j(tables: [a, b]).g()`: a join of two variables' chains. -/
def joinProgram : Program :=
  ⟨[.variableDeclaration [⟨"a", call (.identifier "f") []⟩, ⟨"b", call (member (.identifier "a") "g") []⟩],
    .expressionStatement (call (member (call (.identifier "j")
      [kwarg "tables" (.arrayExpression (.mk [.identifier "a", .identifier "b"]))]) "g") [])]⟩

/-- `a = f().g()`, then `a.x().y().z().m(arg: [a.k()])`: a chain whose last call's argument calls
a method of `a`'s chain. -/
def argumentCallProgram : Program :=
  ⟨[.variableDeclaration [⟨"a", call (member (call (.identifier "f") []) "g") []⟩],
    .expressionStatement (call (member (call (member (call (member (call (member (.identifier "a")
      "x") []) "y") []) "z") []) "m") [kwarg "arg" (.arrayExpression (.mk [call (member
        (.identifier "a") "k") []]))])]⟩

end Runs

end Ifql
