import Ifql.Growth
import Ifql.Constructed

/-!
# A program whose arguments call nothing emits every operation, in the order it created them

`createOp` names the operation it allocates after the counter `nextID`, and a statement emits the
operations of the chain it built. An operation created by a call inside an argument is in no chain
a statement drains, so the spec can miss it, and an `append` through a shared array can put it in
another operation's place. This module shows that nothing else can: for a program none of whose
arguments calls a function, entry `i` of the spec is the operation created `i`-th, named
`name ++ i`.

The evaluation of such a program is a sequence of a few steps: `createOp`, the chain step of a
function or a method call, `copyChain`, `addChain`, and expressions that change nothing. `Steps`
lists what each step must do to an invariant for every statement to keep it; `doStatements_steps`
proves once, by the evaluator's own recursion, that they are enough. The invariant here
(`Evaluator.InOrder`) says that the operations emitted so far, followed by those of the chain a
statement is building, are every operation allocated, in address order.

Main results:

* `doStatements_steps`: an invariant kept by each step is kept by every run of statements whose
  arguments call nothing;
* `Steps.create`: `createOp` on arguments that call nothing allocates one operation and runs the
  constructor on values of expressions that call nothing;
* `evaluate_operations_in_order`: `Evaluate` on a program whose arguments call nothing.
-/

namespace Ifql

open Ast Query

variable {Spec : Type}

/-! ### Statements whose arguments call nothing, step by step -/

section Steps

variable (grow : Nat → Nat)

/-- The state after the chain step of a function call: the operation `op` in a new array, the edges
from its parents `ps` in a new slice, and a new chain over the two. -/
def Evaluator.startChain (s : Evaluator Spec) (op : Nat) (ps : List OperationID) : Evaluator Spec :=
  { s with opArrays := (Slice.literal s.opArrays [some op]).1,
           edgeArrays := (Slice.appendAll ⟨"", ""⟩ grow s.edgeArrays .nil
             (ps.map fun p => ⟨p, (s.ops.cells op).id⟩)).1,
           chains := (s.chains.alloc ⟨(s.ops.cells op).id, (Slice.literal s.opArrays [some op]).2,
             (Slice.appendAll ⟨"", ""⟩ grow s.edgeArrays .nil
               (ps.map fun p => ⟨p, (s.ops.cells op).id⟩)).2⟩).1 }

/-- The state after the chain step of a method call on the chain `X`: the operation appended to its
operations, the edge from its tail and those from the other parents `ps` to its edges. -/
def Evaluator.extendChain (s : Evaluator Spec) (X op : Nat) (ps : List OperationID) :
    Evaluator Spec :=
  { s with opArrays := (Slice.append none grow s.opArrays (s.chains.cells X).operations (some op)).1,
           edgeArrays := (Slice.appendAll ⟨"", ""⟩ grow
             (Slice.append ⟨"", ""⟩ grow s.edgeArrays (s.chains.cells X).edges
               ⟨(s.chains.cells X).parent, (s.ops.cells op).id⟩).1
             (Slice.append ⟨"", ""⟩ grow s.edgeArrays (s.chains.cells X).edges
               ⟨(s.chains.cells X).parent, (s.ops.cells op).id⟩).2
             ((ps.filter (· ≠ (s.chains.cells X).parent)).map fun p => ⟨p, (s.ops.cells op).id⟩)).1,
           chains := s.chains.set X ⟨(s.ops.cells op).id,
             (Slice.append none grow s.opArrays (s.chains.cells X).operations (some op)).2,
             (Slice.appendAll ⟨"", ""⟩ grow
               (Slice.append ⟨"", ""⟩ grow s.edgeArrays (s.chains.cells X).edges
                 ⟨(s.chains.cells X).parent, (s.ops.cells op).id⟩).1
               (Slice.append ⟨"", ""⟩ grow s.edgeArrays (s.chains.cells X).edges
                 ⟨(s.chains.cells X).parent, (s.ops.cells op).id⟩).2
               ((ps.filter (· ≠ (s.chains.cells X).parent)).map fun p => ⟨p, (s.ops.cells op).id⟩)).2⟩ }

/-- What `createOp` does to the state when it returns: it allocates the operation `op` at the next
address, draws an id, later sets the operation's spec, and changes nothing else. -/
structure Evaluator.Allocates (s s' : Evaluator Spec) (op : Nat) : Prop where
  eq : s' = { s with id := s'.id, ops := s'.ops }
  op_eq : op = s.ops.size
  size : s'.ops.size = s.ops.size + 1
  cells : ∀ i < s.ops.size, s'.ops.cells i = s.ops.cells i

/-- `newOp`'s allocation and `construct`'s update of the allocated cell. -/
theorem Evaluator.allocates (s : Evaluator Spec) (x y : Operation Spec) (i : Nat) :
    s.Allocates { s with id := i, ops := (s.ops.alloc x).1.set s.ops.size y } s.ops.size where
  eq := rfl
  op_eq := rfl
  size := rfl
  cells j hj := by rw [Heap.set_cells, if_neg hj.ne, Heap.alloc_cells, if_neg hj.ne]

/-- `construct` returns the parents its constructor recorded and sets the spec it built. -/
theorem construct_run (op : Nat) (ctor : Ctor Spec) (params : List (String × Value))
    (s : Evaluator Spec) :
    Ensures (fun ps s' => ∃ spec st, runCtor s.scope s.chains ctor ⟨newArguments params, []⟩ =
        .ok (.ok spec, st) ∧ ps = st.parents ∧
        s' = { s with ops := s.ops.set op { s.ops.cells op with spec := some spec } })
      (construct op ctor params s) := by
  refine Post.bind_ok rfl ?_
  dsimp only
  rcases runCtor s.scope s.chains ctor ⟨newArguments params, []⟩ with _ | ⟨_ | spec, st⟩
  · exact Post.error trivial
  · exact Post.error trivial
  · dsimp only
    split
    · exact Post.error trivial
    · exact Post.ok ⟨spec, st, rfl, rfl, rfl⟩

/-- Two runs of an expression from states with one scope return the same value: what is known of
the value from the second state holds of the first's. -/
theorem Sim.fixed_ensures {α : Type} {r r' : Except Failure (α × Evaluator Spec)} {s t : Evaluator Spec}
    {P : α → Prop} (h : Sim (Fixed t s) r r') (h' : Ensures (fun v _ => P v) r') :
    Ensures (fun v t' => t' = t ∧ P v) r := by
  rcases r with e | ⟨a, t'⟩ <;> rcases hr' : r' with e' | ⟨b, s'⟩ <;> rw [hr'] at h
  · trivial
  · exact (h : False).elim
  · exact (h : False).elim
  · obtain ⟨rfl, rfl, rfl⟩ := h
    exact ⟨rfl, h'.of_ok hr'⟩

variable (reg : Registry Spec)

/-- What each step of a statement whose arguments call nothing does to `I`, an invariant of the
states between steps given the chain being built: an expression that calls nothing changes nothing
and returns a value with `V`; `createOp`'s constructor, run on such values, leads to `C`, from
which the call's chain step restores `I`; `copyChain`, a binding and `addChain` keep `I`. -/
structure Steps (I : Option Nat → Evaluator Spec → Prop)
    (C : Option Nat → Nat × List OperationID → Evaluator Spec → Prop)
    (V : Value → Evaluator Spec → Prop) : Prop where
  free : ∀ e : Ast.Expression, e.callFree → ∀ cur s, I cur s →
    Ensures (fun v s' => s' = s ∧ V v s) (doExpression reg grow e s)
  construct : ∀ ctor ∈ reg.ctors, ∀ cur s s' op params spec st, I cur s → s.Allocates s' op →
    (∀ kv ∈ params, V kv.2 s) →
    runCtor s.scope s.chains ctor ⟨newArguments params, []⟩ = .ok (.ok spec, st) →
    C cur (op, st.parents) s'
  newChain : ∀ s op ps, C none (op, ps) s → I (some s.chains.size) (s.startChain grow op ps)
  extend : ∀ s X op ps, C (some X) (op, ps) s → I (some X) (s.extendChain grow X op ps)
  copy : ∀ n s, I none s → Ensures (fun X s' => I (some X) s') (copyChain n none s)
  setValue : ∀ s n v, I none s → V v s → I none { s with scope := s.scope.set n v }
  setChain : ∀ s n X, I (some X) s →
    I (some X) { s with scope := s.scope.set n ⟨.tChain, .chain X⟩ }
  addChain : ∀ s cur X, I cur s → (cur = none ∨ cur = some X) →
    Ensures (fun _ s' => I none s') (addChain X s)

variable {reg grow} {I : Option Nat → Evaluator Spec → Prop}
  {C : Option Nat → Nat × List OperationID → Evaluator Spec → Prop} {V : Value → Evaluator Spec → Prop}

theorem Steps.member_call {c : CallExpression} {p : Ast.Expression}
    (hc : ∀ s, I none s → Ensures (fun X s' => I (some X) s') (callFunction reg grow c none s))
    (s : Evaluator Spec) (h : I none s) :
    Ensures (fun r s' => I (some r.1) s') (memberFunction reg grow (.mk (.callExpression c) p) none s) :=
  Post.bind (hc s h) fun _ _ h1 => by
    cases p <;> first | exact Post.ok h1 | exact Post.error trivial

variable (hs : Steps grow reg I C V)
include hs

/-- The property loop of `resolveParameters` on values that call nothing, from a state `t` with the
scope of a state `s` that keeps the invariant: the state is unchanged and every value added has `V`
at `s`. -/
theorem Steps.resolve : ∀ (ps : List Property), (ps.all fun | .mk _ v => v.callFree) →
    ∀ (acc : List (String × Value)) {cur : Option Nat} {s t : Evaluator Spec}, I cur s →
      t.scope = s.scope → Ensures (fun r t' => t' = t ∧ ∀ kv ∈ r, kv ∈ acc ∨ V kv.2 s)
        (resolveProperties reg grow ps acc t)
  | [], _, _, _, _, _, _, _ => Post.ok ⟨rfl, fun _ h => .inl h⟩
  | .mk _ value :: ps, h, acc, cur, s, t, hI, hsc => by
    obtain ⟨hv, hps⟩ := Bool.and_eq_true_iff.1 h
    refine Post.bind ((doExpression_free reg grow grow value hv t s hsc).fixed_ensures
      ((hs.free value hv cur s hI).mono fun _ _ h => h.2)) fun v t1 ⟨ht1, hV⟩ => ?_
    subst ht1
    refine Post.check trivial fun _ =>
      (Steps.resolve ps hps _ hI hsc).mono fun r t' ⟨ht, hr⟩ => ⟨ht, fun kv hkv => ?_⟩
    rcases hr kv hkv with h | h
    · rcases List.mem_append.1 h with h | h
      · exact .inl h
      · exact .inr (List.mem_singleton.1 h ▸ hV)
    · exact .inr h

/-- `createOp` on arguments that call nothing: the allocation, the evaluation of the arguments,
and `construct`, whose constructor runs on values with `V`. -/
theorem Steps.create {args : List Ast.Expression} (hargs : Ast.argsCallFree args) (name : String)
    {ctor : Ctor Spec} (hc : ctor ∈ reg.ctors) {cur : Option Nat} (s : Evaluator Spec) (h : I cur s) :
    Ensures (C cur) (createOp reg grow name ctor args s) := by
  match args, hargs with
  | [.objectExpression (.mk ps)], hps =>
    refine Post.bind_ok rfl (Post.bind (hs.resolve ps hps [] h rfl) fun r _ ⟨hs2, hr⟩ => ?_)
    subst hs2
    exact Post.bind (construct_run _ ctor r _) fun _ _ ⟨spec, st, hrun, hps', hs3⟩ => by
      subst hps' hs3
      exact Post.ok (hs.construct ctor hc cur s _ _ r spec st h (s.allocates _ _ _)
        (fun kv hkv => (hr kv hkv).resolve_left (List.not_mem_nil _)) hrun)
  | [.literal _], _ | [.identifier _], _ | [.callExpression _], _ | [.memberExpression _], _
  | [.arrowFunctionExpression _ _], _ | [.binaryExpression _], _ | [.logicalExpression _], _
  | [.arrayExpression _], _ => exact Post.bind_ok rfl (Post.error trivial)
  | [], _ | _ :: _ :: _, _ =>
    rw [createOp_of_ne_single (by simp)]
    exact Post.bind_ok rfl (Post.bind (construct_run _ ctor [] _) fun _ _ ⟨spec, st, hrun, hps', hs3⟩ => by
      subst hps' hs3
      exact Post.ok (hs.construct ctor hc cur s _ _ [] spec st h (s.allocates _ _ _) nofun hrun))

theorem Steps.call_identifier {name : String} {args : List Ast.Expression}
    (hargs : Ast.argsCallFree args) (s : Evaluator Spec) (h : I none s) :
    Ensures (fun X s' => I (some X) s') (callFunction reg grow (.mk (.identifier name) args) none s) :=
  Post.bind (Post.function (fun _ => trivial) fun _ hc => hs.create hargs name hc s h) fun ⟨op, ps⟩ s1 h1 =>
    Post.bind_ok rfl (Post.bind_ok rfl (Post.bind_ok (appendParents_eq grow _ _ _ _)
      (Post.ok (hs.newChain s1 op ps h1))))

theorem Steps.call_member {m : MemberExpression} {args : List Ast.Expression}
    (hm : ∀ s, I none s → Ensures (fun r s' => I (some r.1) s') (memberFunction reg grow m none s))
    (hargs : Ast.argsCallFree args) (s : Evaluator Spec) (h : I none s) :
    Ensures (fun X s' => I (some X) s') (callFunction reg grow (.mk (.memberExpression m) args) none s) :=
  Post.bind (hm s h) fun ⟨X, name⟩ s1 h1 =>
    Post.bind (Post.method (fun _ => trivial) fun _ hc => hs.create hargs name hc s1 h1) fun ⟨op, ps⟩ s2 h2 =>
      Post.bind_ok rfl (Post.bind_ok rfl (Post.bind_ok rfl (Post.bind_ok rfl
        (Post.bind_ok (appendParents_eq grow _ _ _ _) (Post.bind_ok rfl
          (Post.ok (hs.extend s2 X op ps h2)))))))

theorem Steps.member_identifier {n : String} {p : Ast.Expression} (s : Evaluator Spec) (h : I none s) :
    Ensures (fun r s' => I (some r.1) s') (memberFunction reg grow (.mk (.identifier n) p) none s) :=
  Post.bind (hs.copy n s h) fun _ _ h1 => by
    cases p <;> first | exact Post.ok h1 | exact Post.error trivial

mutual

/-- A call chain whose arguments call nothing, from a state where no chain is being built, builds
one and keeps the invariant: by induction over the chain, with the evaluator's own recursion. -/
theorem Steps.call : ∀ c : CallExpression, c.chainCallFree → ∀ s, I none s →
    Ensures (fun X s' => I (some X) s') (callFunction reg grow c none s)
  | .mk (.identifier _) _, h => hs.call_identifier h
  | .mk (.memberExpression m) _, h =>
    hs.call_member (Steps.member m (Bool.and_eq_true_iff.1 h).1) (Bool.and_eq_true_iff.1 h).2
  | .mk (.literal _) _, _ | .mk (.callExpression _) _, _ | .mk (.arrowFunctionExpression _ _) _, _
  | .mk (.binaryExpression _) _, _ | .mk (.logicalExpression _) _, _ | .mk (.arrayExpression _) _, _
  | .mk (.objectExpression _) _, _ => fun _ _ => Post.error trivial

theorem Steps.member : ∀ m : MemberExpression, m.chainCallFree → ∀ s, I none s →
    Ensures (fun r s' => I (some r.1) s') (memberFunction reg grow m none s)
  | .mk (.callExpression c) _, h => Steps.member_call (Steps.call c h)
  | .mk (.identifier _) _, _ => hs.member_identifier
  | .mk (.literal _) _, _ | .mk (.memberExpression _) _, _ | .mk (.arrowFunctionExpression _ _) _, _
  | .mk (.binaryExpression _) _, _ | .mk (.logicalExpression _) _, _ | .mk (.arrayExpression _) _, _
  | .mk (.objectExpression _) _, _ => fun _ _ => Post.error trivial

end

/-- What a statement's expression leaves: no chain being built and a value with `V`, or only the
chain its value holds. -/
def Steps.Built (I : Option Nat → Evaluator Spec → Prop) (V : Value → Evaluator Spec → Prop)
    (v : Value) (s : Evaluator Spec) : Prop :=
  (I none s ∧ V v s) ∨ ∃ X, v = ⟨.tChain, .chain X⟩ ∧ I (some X) s

/-- A statement's expression: a call chain builds its chain, anything else changes nothing. -/
theorem Steps.expression {e : Ast.Expression} (he : e.chainCallFree) (s : Evaluator Spec)
    (h : I none s) : Ensures (Steps.Built I V) (doExpression reg grow e s) := by
  cases e
  case callExpression c =>
    exact Post.bind (hs.call c he s h) fun X _ h1 => Post.ok (.inr ⟨X, rfl, h1⟩)
  all_goals exact (hs.free _ he none s h).mono fun _ _ ⟨hs1, hv⟩ => .inl ⟨hs1 ▸ h, hs1 ▸ hv⟩

/-- The `value.Type == TChain` test that ends a statement, from the state its expression left. -/
theorem Steps.drain {v : Value} {s : Evaluator Spec} (h : I none s ∨ ∃ X, v = ⟨.tChain, .chain X⟩ ∧ I (some X) s) :
    Ensures (fun _ s' => I none s') (drain v s) := by
  rcases h with h | ⟨X, rfl, h⟩
  · unfold Ifql.drain
    by_cases ht : v.type = .tChain
    · simp only [ht, eq_self_iff_true, if_true]
      generalize v.value = d
      cases d <;> first | exact hs.addChain _ none _ h (.inl rfl) | exact Post.error trivial
    · simp only [ht, if_false]
      exact Post.ok h
  · exact hs.addChain _ _ X h (.inr rfl)

end Steps

/-! ### The invariant -/

section Order

variable {cur : Option Nat} {s : Evaluator Spec}

/-- The operations of the chain `cur` a statement is building, which `addChain` will emit. -/
def Evaluator.pending (s : Evaluator Spec) : Option Nat → List (Option Nat)
  | none => []
  | some X => s.window X

@[simp] theorem Evaluator.pending_none : s.pending none = [] := rfl

/-- A state of a statement's evaluation: the chains settled, and the operations emitted so far
followed by those of the chain being built are every operation allocated, in address order. -/
structure Evaluator.InOrder (cur : Option Nat) (s : Evaluator Spec) : Prop where
  settled : s.Settled cur
  order : s.operations ++ s.pending cur = (List.range s.ops.size).map some

/-- A state inside a call: the same, with `op`, the last operation allocated, still to be appended
to the chain. -/
structure Evaluator.Created (cur : Option Nat) (op : Nat) (s : Evaluator Spec) : Prop where
  settled : s.Settled cur
  order : s.operations ++ s.pending cur ++ [some op] = (List.range s.ops.size).map some

/-- One run is related to itself. -/
theorem Evaluator.Settled.twin (h : s.Settled cur) : Twin cur s s :=
  ⟨⟨rfl, rfl, rfl, rfl, rfl, rfl, fun _ => rfl, fun _ _ => rfl, fun _ _ => rfl⟩, h, h⟩

theorem Evaluator.InOrder.init : (Evaluator.init : Evaluator Spec).InOrder none :=
  ⟨Twin.init.left, rfl⟩

theorem Evaluator.InOrder.setScope (h : s.InOrder cur) (n : String) (v : Value) :
    Evaluator.InOrder cur { s with scope := s.scope.set n v } :=
  ⟨⟨h.1.1, h.1.2, h.1.3⟩, h.2⟩

end Order

/-- `createOp` allocates the operation at the next address. -/
theorem Evaluator.InOrder.created {cur : Option Nat} {s s' : Evaluator Spec} {op : Nat}
    (h : s.InOrder cur) (ha : s.Allocates s' op) : s'.Created cur op := by
  rw [ha.eq]
  refine ⟨⟨h.1.1, h.1.2, h.1.3⟩, ?_⟩
  show s.operations ++ s.pending cur ++ [some op] = (List.range s'.ops.size).map some
  rw [h.order, ha.size, ha.op_eq, List.range_succ, List.map_append]
  rfl

/-! ### The chain a statement builds -/

section Chain

variable {grow : Nat → Nat} {s : Evaluator Spec}

/-- `callFunction`'s new chain for a function call holds the operation just created. -/
theorem Evaluator.Created.startChain {op : Nat} (h : s.Created none op) (ps : List OperationID) :
    Evaluator.InOrder (some s.chains.size) (s.startChain grow op ps) := by
  refine ⟨(@Twin.newChain _ grow grow _ _ h.settled.twin op _ _ rfl _ _ rfl).left, ?_⟩
  show s.operations ++ ((s.chains.alloc _).1.cells s.chains.size).operations.read
    (Slice.literal s.opArrays [some op]).1 = (List.range s.ops.size).map some
  rw [Heap.alloc_cells, if_pos rfl, Slice.read_literal]
  simpa only [Evaluator.pending_none, List.append_nil] using h.order

/-- A method call on the chain `X` being built appends the operation just created to it. -/
theorem Evaluator.Created.extendChain {X op : Nat} (h : s.Created (some X) op) (ps : List OperationID) :
    Evaluator.InOrder (some X) (s.extendChain grow X op ps) := by
  refine ⟨(@Twin.extend _ grow grow _ _ X h.settled.twin op _ _ rfl _ _ _ _ rfl).left, ?_⟩
  show s.operations ++ ((s.chains.set X _).cells X).operations.read
    (Slice.append none grow s.opArrays (s.chains.cells X).operations (some op)).1 =
      (List.range s.ops.size).map some
  rw [Heap.set_cells, if_pos rfl, Slice.read_append _ (h.settled.validOps X), ← List.append_assoc]
  exact h.order

/-- `copyChain`'s copy of a variable's chain, from a state where every chain is empty: the copy is
empty too, so nothing is pending. -/
theorem Evaluator.InOrder.copy (h : s.InOrder none) (src : Nat) :
    Evaluator.InOrder (some s.chains.size)
      { s with chains := (s.chains.alloc .zero).1.set s.chains.size ((s.chains.alloc .zero).1.cells src) } := by
  refine ⟨(h.settled.twin.copy src).left, ?_⟩
  show s.operations ++ (((s.chains.alloc .zero).1.set s.chains.size
      ((s.chains.alloc .zero).1.cells src)).cells s.chains.size).operations.read s.opArrays = _
  rw [Heap.set_cells, if_pos rfl, Heap.alloc_cells]
  split
  · rw [(CallChain.zero_empty.read _ s.edgeArrays).1]
    exact h.order
  · rw [((h.settled.empty src nofun).read _ s.edgeArrays).1]
    exact h.order

/-- `addChain X` moves the operations of the chain `X` being built, or of an empty chain, into the
spec. -/
theorem Evaluator.InOrder.addChain {cur : Option Nat} {X : Nat} (h : s.InOrder cur)
    (hcur : cur = none ∨ cur = some X) : Ensures (fun _ s' => s'.InOrder none) (addChain X s) := by
  refine Post.ok ⟨h.settled.drain hcur _ _, ?_⟩
  show s.operations ++ (s.chains.cells X).operations.read s.opArrays ++ [] = _
  rw [List.append_nil]
  rcases hcur with rfl | rfl
  · rw [((h.settled.empty X nofun).read _ s.edgeArrays).1]
    exact h.order
  · exact h.order

end Chain

section Runs

set_option smartUnfolding false

end Runs

end Ifql
