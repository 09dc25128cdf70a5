import Ifql.OperationIds

/-!
# Every operation is constructed, and the spec only grows

`createOp` allocates its operation with no spec (`newOp`) and sets the spec only at its end, in
`construct`, after the keyword arguments were evaluated; and an argument may call functions, whose
operations are allocated and constructed in between. An evaluation that returns has constructed
every operation it allocated, has left every constructed operation as it was, and has only appended
to the operations and edges emitted so far. The statement is a relation between the states before
and after (`Evaluator.Extends`, over `Constructs` for the operation heaps), kept by every evaluator
function through the evaluator's own recursion. From the empty heap `Evaluate` starts from, no
operation is left without its spec, and what a statement emitted stays in the spec as it was.

Main results:

* **`Evaluator.Extends.construct`**: `createOp` as a whole, the allocation, the arguments'
  evaluation and `construct`'s update, extends the state.
* **`exprBuilds`** and the statements beside it: every evaluator function that returns, from any
  state, extends it; **`doStatements_builds`**: so does a run of statements.
* **`evaluate_operations_constructed`**: every operation of the `QuerySpec` that `Evaluate`
  returns is non-nil, has its spec set, and is named after a registered function or method and its
  address.
* **`evaluate_append_extends`**: the spec of a program extends the spec of each of its prefixes.
-/

namespace Ifql

open Ast Query

variable {Spec : Type}

/-! ### The relation between heaps -/

/-- Every operation of `h` without a spec is an operation of `h0` without a spec, and every
operation of `h0` with its spec is unchanged in `h`. -/
structure Constructs (h0 h : Heap (Operation Spec)) : Prop where
  size_le : h0.size ≤ h.size
  unbuilt : ∀ p < h.size, (h.cells p).spec = none → p < h0.size ∧ (h0.cells p).spec = none
  built : ∀ p < h0.size, (h0.cells p).spec.isSome → h.cells p = h0.cells p

namespace Constructs

variable {h0 h1 h2 : Heap (Operation Spec)}

theorem refl (h : Heap (Operation Spec)) : Constructs h h :=
  ⟨le_rfl, fun _ hp hs => ⟨hp, hs⟩, fun _ _ _ => rfl⟩

theorem trans (c1 : Constructs h0 h1) (c2 : Constructs h1 h2) : Constructs h0 h2 where
  size_le := c1.size_le.trans c2.size_le
  unbuilt p hp hs := let ⟨hp1, hs1⟩ := c2.unbuilt p hp hs; c1.unbuilt p hp1 hs1
  built p hp hs := by
    have h1 := c1.built p hp hs
    rw [c2.built p (hp.trans_le c1.size_le) (h1 ▸ hs), h1]

/-- `createOp` as a whole: an operation allocated at the next address, an evaluation from there,
then the spec set at that address. -/
theorem alloc_set {x : Operation Spec} (c : Constructs (h0.alloc x).1 h1) (spec : Spec) :
    Constructs h0 (h1.set h0.size { h1.cells h0.size with spec := some spec }) := by
  have hsize := c.size_le
  simp only [Heap.alloc_size] at hsize
  refine ⟨by simp only [Heap.set_size]; omega, fun p hp hs => ?_, fun p hp hs => ?_⟩
  · rw [Heap.set_cells] at hs
    split at hs
    · cases hs
    · obtain ⟨hp1, hs1⟩ := c.unbuilt p hp hs
      rw [Heap.alloc_cells, if_neg ‹_›] at hs1
      exact ⟨by simp only [Heap.alloc_size] at hp1; omega, hs1⟩
  · -- the new address is past every old one, and the evaluation between kept the old cells
    have hold : (h0.alloc x).1.cells p = h0.cells p := by rw [Heap.alloc_cells, if_neg hp.ne]
    rw [Heap.set_cells, if_neg hp.ne, c.built p (by simp only [Heap.alloc_size]; omega) (hold ▸ hs),
      hold]

/-- From a heap where every operation has its spec, every operation keeps one. -/
theorem specced (c : Constructs h0 h1) (h : ∀ p < h0.size, (h0.cells p).spec.isSome) :
    ∀ p < h1.size, (h1.cells p).spec.isSome := by
  intro p hp
  by_contra hs
  obtain ⟨hp0, hs0⟩ := c.unbuilt p hp (Option.not_isSome_iff_eq_none.1 hs)
  simpa [hs0] using h p hp0

end Constructs

/-- What an evaluation from `s0` to `s` does to what was built: it constructs what it allocates,
leaves constructed operations as they were, and only appends to the emitted operations and edges. -/
def Evaluator.Extends (s0 s : Evaluator Spec) : Prop :=
  Constructs s0.ops s.ops ∧ s0.operations <+: s.operations ∧ s0.edges <+: s.edges

namespace Evaluator.Extends

variable {s0 s1 s2 : Evaluator Spec}

theorem refl (s : Evaluator Spec) : s.Extends s :=
  ⟨.refl _, List.prefix_refl _, List.prefix_refl _⟩

theorem trans (e1 : s0.Extends s1) (e2 : s1.Extends s2) : s0.Extends s2 :=
  ⟨e1.1.trans e2.1, e1.2.1.trans e2.2.1, e1.2.2.trans e2.2.2⟩

/-- `createOp` as a whole: `newOp`'s allocation, an evaluation from there, then `construct`'s update
at the allocated address. -/
theorem construct {i : Nat} {x : Operation Spec}
    (e : Extends { s0 with id := i, ops := (s0.ops.alloc x).1 } s1) (spec : Spec) :
    s0.Extends { s1 with ops := s1.ops.set s0.ops.size { s1.ops.cells s0.ops.size with spec := some spec } } :=
  ⟨e.1.alloc_set spec, e.2.1, e.2.2⟩

end Evaluator.Extends

/-! ### Computations that return -/

section Ensures

variable {α : Type}

/-- `Q` of the result and the final state, when the computation returns; any failure. -/
abbrev Ensures (Q : α → Evaluator Spec → Prop) : Except Failure (α × Evaluator Spec) → Prop :=
  Post (fun _ => True) Q

end Ensures

/-! ### What each step does to the operations -/

section Steps

variable {s : Evaluator Spec} {reg : Registry Spec}

/-- A computation that, when it returns, extends the state `s0`. -/
abbrev Builds {α : Type} (s0 : Evaluator Spec) : Except Failure (α × Evaluator Spec) → Prop :=
  Ensures fun _ s' => s0.Extends s'

/-- The loop of additional parents leaves the operations alone. -/
theorem appendParents_builds (grow : Nat → Nat) (child : OperationID) :
    ∀ (ps : List OperationID) (sl : Slice) (s : Evaluator Spec),
      Builds s (appendParents grow child sl ps s)
  | [], _, _ => Post.ok (.refl _)
  | _ :: ps, _, _ => Post.bind_ok rfl (appendParents_builds grow child ps _ _)

/-- `construct` returns only after setting the operation's spec. -/
theorem construct_builds {s0 : Evaluator Spec} {op : Nat} {ctor : Ctor Spec}
    {params : List (String × Value)}
    (h : ∀ spec, s0.Extends { s with ops := s.ops.set op { s.ops.cells op with spec := some spec } }) :
    Builds s0 (construct op ctor params s) := by
  refine Post.bind_ok rfl ?_
  dsimp only
  rcases runCtor s.scope s.chains ctor ⟨newArguments params, []⟩ with _ | ⟨_ | spec, st⟩
  · exact Post.error trivial
  · exact Post.error trivial
  · dsimp only
    split
    · exact Post.error trivial
    · exact Post.ok (h spec)

/-- `memberFunction`'s copy of a chain leaves the operations alone. -/
theorem copyChain_builds (n : String) (chain : Option Nat) : Builds s (copyChain n chain s) := by
  refine Post.bind_ok rfl ?_
  dsimp only
  rcases s.scope n with _ | v
  · exact Post.error trivial
  · dsimp only
    split
    · exact Post.error trivial
    · generalize v.value = d
      cases d
      case chain => cases chain <;> exact Post.ok (.refl _)
      all_goals exact Post.error trivial

/-- The `value.Type == TChain` test that ends a statement leaves the operations alone and appends the
chain's operations and edges to the spec. -/
theorem drain_builds (v : Value) (s : Evaluator Spec) : Builds s (drain v s) := by
  unfold drain
  split
  · generalize v.value = d
    cases d
    case chain => exact Post.ok ⟨.refl _, List.prefix_append _ _, List.prefix_append _ _⟩
    all_goals exact Post.error trivial
  · exact Post.ok (.refl _)

end Steps

/-! ### One expression -/

section Specs

variable (reg : Registry Spec) (grow : Nat → Nat)

/-- `doExpression` constructs what it allocates. -/
def ExprBuilds (e : Ast.Expression) : Prop :=
  ∀ s : Evaluator Spec, Builds s (doExpression reg grow e s)

/-- The element loop of `doArray` constructs what it allocates. -/
def ElementsBuilds (els : List Ast.Expression) : Prop :=
  ∀ (t : ValueType) (s : Evaluator Spec), Builds s (doElements reg grow els t s)

/-- `callFunction` constructs what it allocates. -/
def CallBuilds (c : CallExpression) : Prop :=
  ∀ (chain : Option Nat) (s : Evaluator Spec), Builds s (callFunction reg grow c chain s)

/-- `memberFunction` constructs what it allocates. -/
def MemberBuilds (m : MemberExpression) : Prop :=
  ∀ (chain : Option Nat) (s : Evaluator Spec), Builds s (memberFunction reg grow m chain s)

/-- `createOp` constructs what it allocates, its own operation included. -/
def ArgsBuilds (args : List Ast.Expression) : Prop :=
  ∀ (name : String) (ctor : Ctor Spec) (s : Evaluator Spec),
    Builds s (createOp reg grow name ctor args s)

/-- The property loop of `resolveParameters` constructs what it allocates. -/
def PropsBuilds (ps : List Property) : Prop :=
  ∀ (acc : List (String × Value)) (s : Evaluator Spec),
    Builds s (resolveProperties reg grow ps acc s)

variable {reg grow}

theorem exprBuilds_literal (l : Literal) : ExprBuilds reg grow (.literal l) := by
  intro s
  cases l <;> first | exact Post.ok (.refl _) | exact Post.error trivial

theorem exprBuilds_identifier (n : String) : ExprBuilds reg grow (.identifier n) := by
  intro s
  rw [doExpression.eq_2]
  rcases s.scope n with _ | v
  · exact Post.error trivial
  · exact Post.ok (.refl _)

theorem exprBuilds_call {c : CallExpression} (hc : CallBuilds reg grow c) :
    ExprBuilds reg grow (.callExpression c) :=
  fun s => Post.bind (hc none s) fun _ _ h1 => Post.ok h1

theorem exprBuilds_binary (b : BinaryExpression) : ExprBuilds reg grow (.binaryExpression b) := by
  intro s
  rw [doExpression.eq_4]
  split
  · exact Post.ok (.refl _)
  · exact Post.error trivial

theorem exprBuilds_logical (l : LogicalExpression) : ExprBuilds reg grow (.logicalExpression l) := by
  intro s
  rw [doExpression.eq_5]
  split
  · exact Post.ok (.refl _)
  · exact Post.error trivial

theorem exprBuilds_arrow {params : List String} {body : Ast.Expression}
    (hb : ExprBuilds reg grow body) : ExprBuilds reg grow (.arrowFunctionExpression params body) := by
  intro s
  refine Post.bind (hb s) fun ⟨t, d⟩ s1 h1 => ?_
  cases d
  case expression e => exact Post.ok h1
  all_goals exact Post.error trivial

theorem exprBuilds_array {els : List Ast.Expression} (hels : ElementsBuilds reg grow els) :
    ExprBuilds reg grow (.arrayExpression (.mk els)) := by
  intro s
  refine Post.bind (hels .tInvalid s) fun ⟨t, vs⟩ s1 h1 => ?_
  dsimp only
  rcases toElements t vs with f | elements
  · exact Post.error trivial
  · exact Post.ok h1

theorem exprBuilds_member (m : MemberExpression) : ExprBuilds reg grow (.memberExpression m) :=
  fun _ => Post.error trivial

theorem exprBuilds_object (o : ObjectExpression) : ExprBuilds reg grow (.objectExpression o) :=
  fun _ => Post.error trivial

theorem elementsBuilds_nil : ElementsBuilds reg grow [] :=
  fun _ _ => Post.ok (.refl _)

theorem elementsBuilds_cons {el : Ast.Expression} {els : List Ast.Expression}
    (he : ExprBuilds reg grow el) (hels : ElementsBuilds reg grow els) :
    ElementsBuilds reg grow (el :: els) := by
  intro t s
  refine Post.bind (he s) fun v s1 h1 => Post.check trivial fun _ => ?_
  exact Post.bind (hels _ s1) fun _ s2 h2 => Post.ok (h1.trans h2)

theorem callBuilds_identifier {name : String} {args : List Ast.Expression}
    (hargs : ArgsBuilds reg grow args) : CallBuilds reg grow (.mk (.identifier name) args) := by
  intro chain s
  refine Post.bind (Post.function (fun _ => trivial) fun c _ => hargs name c s) fun _ s1 h1 => ?_
  refine Post.bind_ok rfl (Post.bind_ok rfl ?_)
  exact Post.bind (appendParents_builds grow _ _ _ _) fun _ _ h3 => Post.ok (h1.trans h3)

theorem callBuilds_member {m : MemberExpression} {args : List Ast.Expression}
    (hm : MemberBuilds reg grow m) (hargs : ArgsBuilds reg grow args) :
    CallBuilds reg grow (.mk (.memberExpression m) args) := by
  intro chain s
  refine Post.bind (hm chain s) fun ⟨X, name⟩ s1 h1 => ?_
  refine Post.bind (Post.method (fun _ => trivial) fun c _ => hargs name c s1) fun _ s2 h2 => ?_
  refine Post.bind_ok rfl (Post.bind_ok rfl (Post.bind_ok rfl (Post.bind_ok rfl ?_)))
  exact Post.bind (appendParents_builds grow _ _ _ _) fun _ _ h3 =>
    Post.bind_ok rfl (Post.ok (h1.trans (h2.trans h3)))

theorem callBuilds_of_error {c : CallExpression}
    (h : ∀ chain (s : Evaluator Spec), ∃ f, callFunction reg grow c chain s = .error f) :
    CallBuilds reg grow c := by
  intro chain s
  obtain ⟨f, hf⟩ := h chain s
  rw [hf]
  exact Post.error trivial

theorem memberBuilds_call {c : CallExpression} {p : Ast.Expression} (hc : CallBuilds reg grow c) :
    MemberBuilds reg grow (.mk (.callExpression c) p) := by
  intro chain s
  refine Post.bind (hc chain s) fun _ s1 h1 => ?_
  cases p
  case identifier => exact Post.ok h1
  all_goals exact Post.error trivial

theorem memberBuilds_identifier {n : String} {p : Ast.Expression} :
    MemberBuilds reg grow (.mk (.identifier n) p) := by
  intro chain s
  refine Post.bind (copyChain_builds n chain) fun _ s1 h1 => ?_
  cases p
  case identifier => exact Post.ok h1
  all_goals exact Post.error trivial

theorem memberBuilds_of_error {m : MemberExpression}
    (h : ∀ chain (s : Evaluator Spec), ∃ f, memberFunction reg grow m chain s = .error f) :
    MemberBuilds reg grow m := by
  intro chain s
  obtain ⟨f, hf⟩ := h chain s
  rw [hf]
  exact Post.error trivial

/-- `createOp` with an argument object: the operation is allocated, the arguments evaluated, and
`construct` sets its spec. -/
theorem argsBuilds_object {ps : List Property} (hps : PropsBuilds reg grow ps) :
    ArgsBuilds reg grow [.objectExpression (.mk ps)] := by
  intro name ctor s
  refine Post.bind_ok rfl (Post.bind (hps [] _) fun _ s2 h2 => ?_)
  exact Post.bind (construct_builds fun spec => h2.construct spec) fun _ _ h3 =>
    Post.ok h3

theorem argsBuilds_none {args : List Ast.Expression} (hargs : ∀ e, args ≠ [e]) :
    ArgsBuilds reg grow args := by
  intro name ctor s
  -- with no argument object, `createOp` runs the constructor on no parameters
  have h : createOp reg grow name ctor args s =
      (do let op ← newOp name; pure (op, ← construct op ctor []) : EvalM Spec _) s := by
    match args, hargs with
    | [], _ => rfl
    | [e], hargs => exact absurd rfl (hargs e)
    | e :: _ :: _, _ => cases e <;> rfl
  rw [h]
  exact Post.bind_ok rfl (Post.bind (construct_builds fun spec =>
    (Evaluator.Extends.refl _).construct spec) fun _ _ h => Post.ok h)

theorem argsBuilds_of_error {args : List Ast.Expression}
    (h : ∀ (name : String) (ctor : Ctor Spec) (s : Evaluator Spec),
      ∃ f, createOp reg grow name ctor args s = .error f) : ArgsBuilds reg grow args := by
  intro name ctor s
  obtain ⟨f, hf⟩ := h name ctor s
  rw [hf]
  exact Post.error trivial

theorem propsBuilds_nil : PropsBuilds reg grow [] :=
  fun _ _ => Post.ok (.refl _)

theorem propsBuilds_cons {key : String} {value : Ast.Expression} {ps : List Property}
    (hv : ExprBuilds reg grow value) (hps : PropsBuilds reg grow ps) :
    PropsBuilds reg grow (.mk key value :: ps) := by
  intro acc s
  refine Post.bind (hv s) fun v s1 h1 => Post.check trivial fun _ => ?_
  exact (hps _ s1).mono fun _ _ h2 => h1.trans h2

end Specs

section Specs

variable (reg : Registry Spec) (grow : Nat → Nat)

mutual

/-- Every expression constructs the operations it allocates, by induction over the syntax tree with
the evaluator's own recursion. -/
theorem exprBuilds : ∀ e, ExprBuilds reg grow e
  | .literal l => exprBuilds_literal l
  | .identifier n => exprBuilds_identifier n
  | .callExpression c => exprBuilds_call (callBuilds c)
  | .memberExpression m => exprBuilds_member m
  | .arrowFunctionExpression _ body => exprBuilds_arrow (exprBuilds body)
  | .binaryExpression b => exprBuilds_binary b
  | .logicalExpression l => exprBuilds_logical l
  | .arrayExpression (.mk els) => exprBuilds_array (elementsBuilds els)
  | .objectExpression o => exprBuilds_object o

theorem elementsBuilds : ∀ els, ElementsBuilds reg grow els
  | [] => elementsBuilds_nil
  | el :: els => elementsBuilds_cons (exprBuilds el) (elementsBuilds els)

theorem callBuilds : ∀ c, CallBuilds reg grow c
  | .mk (.identifier _) args => callBuilds_identifier (argsBuilds args)
  | .mk (.memberExpression m) args => callBuilds_member (memberBuilds m) (argsBuilds args)
  | .mk (.literal _) _ | .mk (.callExpression _) _ | .mk (.arrowFunctionExpression _ _) _
  | .mk (.binaryExpression _) _ | .mk (.logicalExpression _) _ | .mk (.arrayExpression _) _
  | .mk (.objectExpression _) _ => callBuilds_of_error fun _ _ => ⟨_, rfl⟩

theorem memberBuilds : ∀ m, MemberBuilds reg grow m
  | .mk (.callExpression c) _ => memberBuilds_call (callBuilds c)
  | .mk (.identifier _) _ => memberBuilds_identifier
  | .mk (.literal _) _ | .mk (.memberExpression _) _ | .mk (.arrowFunctionExpression _ _) _
  | .mk (.binaryExpression _) _ | .mk (.logicalExpression _) _ | .mk (.arrayExpression _) _
  | .mk (.objectExpression _) _ => memberBuilds_of_error fun _ _ => ⟨_, rfl⟩

theorem argsBuilds : ∀ args, ArgsBuilds reg grow args
  | [.objectExpression (.mk ps)] => argsBuilds_object (propsBuilds ps)
  | [.literal _] | [.identifier _] | [.callExpression _] | [.memberExpression _]
  | [.arrowFunctionExpression _ _] | [.binaryExpression _] | [.logicalExpression _]
  | [.arrayExpression _] => argsBuilds_of_error fun _ _ _ => ⟨_, rfl⟩
  | [] => argsBuilds_none (by simp)
  | _ :: _ :: _ => argsBuilds_none (by simp)

theorem propsBuilds : ∀ ps, PropsBuilds reg grow ps
  | [] => propsBuilds_nil
  | .mk _ v :: ps => propsBuilds_cons (exprBuilds v) (propsBuilds ps)

end

/-! ### Statements -/

theorem doVariableDeclaration_builds :
    ∀ (vds : List VariableDeclarator) (s : Evaluator Spec),
      Builds s (doVariableDeclaration reg grow vds s)
  | [], _ => Post.ok (.refl _)
  | vd :: vds, s => by
    rw [doVariableDeclaration.eq_2]
    refine Post.bind (exprBuilds reg grow vd.init s) fun v s1 h1 => Post.bind_ok rfl ?_
    refine Post.bind (drain_builds v _) fun _ s2 h2 => ?_
    exact (doVariableDeclaration_builds vds s2).mono fun _ _ h3 => h1.trans (h2.trans h3)

theorem doStatement_builds (st : Statement) (s : Evaluator Spec) :
    Builds s (doStatement reg grow st s) := by
  cases st with
  | variableDeclaration ds => exact doVariableDeclaration_builds reg grow ds s
  | expressionStatement e =>
    exact Post.bind (exprBuilds reg grow e s) fun v s1 h1 =>
      (drain_builds v s1).mono fun _ _ h2 => h1.trans h2

theorem doStatements_builds :
    ∀ (sts : List Statement) (s : Evaluator Spec), Builds s (doStatements reg grow sts s)
  | [], _ => Post.ok (.refl _)
  | st :: sts, s => by
    rw [doStatements.eq_2]
    exact Post.bind (doStatement_builds reg grow st s) fun _ s1 h1 =>
      (doStatements_builds sts s1).mono fun _ _ h2 => h1.trans h2

end Specs

/-- Every operation of the `QuerySpec` that `Evaluate` returns is non-nil, has its spec set, and is
named after a registered function or method followed by its address. -/
theorem evaluate_operations_constructed (reg : Registry Spec) (grow : Nat → Nat) (prog : Program)
    {q : QuerySpec Spec} (h : evaluate reg grow prog = .ok q) :
    ∀ o ∈ q.operations, ∃ op : Operation Spec, o = some op ∧ op.spec.isSome ∧
      ∃ name ∈ reg.names, ∃ p : Nat, op.id = name ++ toString p := by
  unfold evaluate eval at h
  rcases hr : doStatements reg grow prog.body .init with e | ⟨_, s⟩ <;>
    rw [StateT.run, hr] at h <;> cases h
  have hd := doStatements_drained reg grow prog.body (drained_init reg) hr
  have hspec := ((doStatements_builds reg grow prog.body .init).of_ok hr).1.specced
    fun p hp => absurd hp (Nat.not_lt_zero p)
  intro o ho
  obtain ⟨x, hx, rfl⟩ := List.mem_map.1 ho
  obtain ⟨p, rfl, hp⟩ := hd.emitted x hx
  obtain ⟨name, hn, hid⟩ := hd.named p hp
  exact ⟨_, rfl, hspec p hp, name, hn, p, hid⟩

/-! ### Programs that share a prefix -/

section Prefix

variable (reg : Registry Spec) (grow : Nat → Nat)

/-- A run of `xs ++ ys` that returns is a run of `xs` that returns, then a run of `ys`. -/
theorem doStatements_append {r : Unit × Evaluator Spec} :
    ∀ (xs ys : List Statement) (s : Evaluator Spec), doStatements reg grow (xs ++ ys) s = .ok r →
      ∃ s1, doStatements reg grow xs s = .ok ((), s1) ∧ doStatements reg grow ys s1 = .ok r
  | [], _, _, h => ⟨_, rfl, h⟩
  | st :: xs, ys, s, h => by
    rw [List.cons_append, doStatements.eq_2] at h
    obtain ⟨⟨⟩, s1, h1, h2⟩ := EvalM.bind_eq_ok h
    obtain ⟨s2, h3, h4⟩ := doStatements_append xs ys s1 h2
    exact ⟨s2, by rw [doStatements.eq_2, EvalM.bind_ok h1]; exact h3, h4⟩

variable {reg grow}

/-- From a state whose emitted operations are allocated and constructed, an extension's spec
extends its spec: the emitted operations read the same, and what follows is appended. -/
theorem Evaluator.Extends.spec_grows {s1 s : Evaluator Spec} (e : s1.Extends s)
    (hd : ∀ o ∈ s1.operations, ∃ p, o = some p ∧ p < s1.ops.size)
    (hb : ∀ p < s1.ops.size, (s1.ops.cells p).spec.isSome) :
    s1.spec.operations <+: s.spec.operations ∧ s1.spec.edges <+: s.spec.edges := by
  obtain ⟨t, ht⟩ := e.2.1
  refine ⟨⟨t.map (·.map s.ops.cells), ?_⟩, e.2.2⟩
  simp only [Evaluator.spec, ← ht, List.map_append]
  congr 1
  refine List.map_congr_left fun o ho => ?_
  obtain ⟨p, rfl, hp⟩ := hd o ho
  simp [e.1.built p hp (hb p hp)]

variable (reg grow)

/-- The spec of a program extends the spec of each of its prefixes: when `Evaluate` returns on
`xs ++ ys` it returns on `xs`, and no later statement takes back or rewrites an operation or an
edge that `xs` emitted. -/
theorem evaluate_append_extends (xs ys : List Statement) {q : QuerySpec Spec}
    (h : evaluate reg grow ⟨xs ++ ys⟩ = .ok q) :
    ∃ q1, evaluate reg grow ⟨xs⟩ = .ok q1 ∧ q1.operations <+: q.operations ∧
      q1.edges <+: q.edges := by
  unfold evaluate eval at h ⊢
  rcases hr : doStatements reg grow (xs ++ ys) .init with e | ⟨_, s⟩ <;>
    rw [StateT.run, hr] at h <;> cases h
  obtain ⟨s1, h1, h2⟩ := doStatements_append reg grow xs ys _ hr
  -- after `xs` every operation is constructed, and the emitted ones are allocated
  have hb := ((doStatements_builds reg grow xs .init).of_ok h1).1.specced
    fun p hp => absurd hp (Nat.not_lt_zero p)
  have hd := doStatements_drained reg grow xs (drained_init reg) h1
  refine ⟨s1.spec, by rw [StateT.run, h1]; rfl, ?_⟩
  exact ((doStatements_builds reg grow ys s1).of_ok h2).spec_grows hd.emitted hb

end Prefix

section Runs

set_option smartUnfolding false

theorem evaluate_operations_constructed_branch :
    evaluate ⟨[("f", noArguments)], [("g", noArguments)]⟩ doubling branchProgram =
      .ok ⟨[some ⟨"f0", some ()⟩, some ⟨"g1", some ()⟩], [⟨"f0", "g1"⟩]⟩ ∧
    ∀ o ∈ (⟨[some ⟨"f0", some ()⟩, some ⟨"g1", some ()⟩], [⟨"f0", "g1"⟩]⟩ :
      QuerySpec Unit).operations, ∃ op : Operation Unit, o = some op ∧ op.spec.isSome ∧
        ∃ name ∈ (⟨[("f", noArguments)], [("g", noArguments)]⟩ : Registry Unit).names,
          ∃ p : Nat, op.id = name ++ toString p :=
  ⟨rfl, evaluate_operations_constructed ⟨[("f", noArguments)], [("g", noArguments)]⟩ doubling
    branchProgram rfl⟩

/-- `branchProgram` cut after its first statement: `a = f()` alone emits `f0`, which the whole
program keeps in first place. -/
theorem evaluate_append_extends_branch :
    evaluate ⟨[("f", noArguments)], [("g", noArguments)]⟩ doubling
        ⟨[.variableDeclaration [⟨"a", call (.identifier "f") []⟩]] ++
          [.expressionStatement (call (member (.identifier "a") "g") [])]⟩ =
      .ok ⟨[some ⟨"f0", some ()⟩, some ⟨"g1", some ()⟩], [⟨"f0", "g1"⟩]⟩ ∧
    ∃ q1, evaluate ⟨[("f", noArguments)], [("g", noArguments)]⟩ doubling
        ⟨[.variableDeclaration [⟨"a", call (.identifier "f") []⟩]]⟩ = .ok q1 ∧
      q1.operations <+: (⟨[some ⟨"f0", some ()⟩, some ⟨"g1", some ()⟩], [⟨"f0", "g1"⟩]⟩ :
        QuerySpec Unit).operations ∧
      q1.edges <+: (⟨[some ⟨"f0", some ()⟩, some ⟨"g1", some ()⟩], [⟨"f0", "g1"⟩]⟩ :
        QuerySpec Unit).edges :=
  ⟨rfl, evaluate_append_extends ⟨[("f", noArguments)], [("g", noArguments)]⟩ doubling _
    [.expressionStatement (call (member (.identifier "a") "g") [])] rfl⟩

example : evaluate ⟨[("f", noArguments)], [("g", noArguments)]⟩ doubling
    ⟨[.variableDeclaration [⟨"a", call (.identifier "f") []⟩]]⟩ =
      .ok ⟨[some ⟨"f0", some ()⟩], []⟩ := rfl

end Runs

end Ifql
