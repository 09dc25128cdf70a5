import Ifql.CreationOrder

/-!
# A program whose arguments call nothing links each operation only to operations listed before it

A call's edges come from the tail of the chain it extends and from the additional parents its
constructor declares. An operation created inside an argument is in no chain a statement drains,
so an edge from it dangles, and its id can coincide with a later operation's and close a cycle.
This module shows that nothing else can go wrong: for a program none of whose arguments calls a
function, and constructors that declare as additional parents only the tails of chains they receive
(`Registry.ParentsReceived`), every edge of the spec goes from the id of an operation of the spec
to the id of one listed after it. No edge dangles. The edges read as pairs of positions go forward;
read as pairs of ids they can still close a cycle, when two operations share an id
(`evaluate_colliding_ids`).

The invariant (`Evaluator.Linked`) adds to `Evaluator.InOrder` that every chain a variable holds,
and the chain being built, has as tail the id of an operation already created, and that every edge
emitted or pending goes from an operation to one created after it. Each step of `Steps` keeps it.

Main results:

* `doExpression_holds`: an expression that calls nothing computes a value holding only chains the
  scope's variables hold;
* `joinOn_parentsReceived`: a join's constructor declares only the tails of the chains it reads;
* `evaluate_edges_forward`: `Evaluate`, on such a program and registry.
-/

namespace Ifql

open Ast Query

/-! ### The chains a value holds -/

mutual

/-- The chains an array holds, in its nested arrays too. -/
def Array.heldChains : Array → List Nat
  | .mk _ els => Elements.heldChains els

/-- The chains a typed slice holds. -/
def Elements.heldChains : Elements → List Nat
  | .chains cs => cs
  | .arrays as => Array.allHeldChains as
  | _ => []

/-- The chains a slice of arrays holds. -/
def Array.allHeldChains : List Array → List Nat
  | [] => []
  | a :: as => a.heldChains ++ Array.allHeldChains as

end

/-- The chains a value holds: the chain it is, or those of the array it is. -/
def Value.heldChains (v : Value) : List Nat :=
  match v.value with
  | .chain c => [c]
  | .array a => a.heldChains
  | _ => []

theorem Array.mem_allHeldChains {c : Nat} :
    ∀ {as : List Array}, c ∈ Array.allHeldChains as → ∃ a ∈ as, c ∈ a.heldChains
  | [], h => (List.not_mem_nil c h).elim
  | a :: as, h => by
    rcases List.mem_append.1 h with h | h
    · exact ⟨a, List.mem_cons_self _ _, h⟩
    · obtain ⟨b, hb, hc⟩ := Array.mem_allHeldChains h
      exact ⟨b, List.mem_cons_of_mem _ hb, hc⟩

theorem mapM_value_mem {β : Type} {f : Dynamic → Option β} :
    ∀ {vs : List Value} {xs : List β}, vs.mapM (f ·.value) = some xs →
      ∀ x ∈ xs, ∃ v ∈ vs, f v.value = some x
  | [], _, h => by cases h; exact nofun
  | v :: vs, xs, h => by
    rw [List.mapM_cons] at h
    rcases hv : f v.value with _ | y <;> rcases hvs : vs.mapM (f ·.value) with _ | ys <;>
      simp only [hv, hvs, Option.bind_eq_bind, Option.none_bind, Option.some_bind, bind, pure,
        reduceCtorEq] at h
    cases h
    rintro x (_ | ⟨_, hx⟩)
    · exact ⟨v, List.mem_cons_self _ _, hv⟩
    · obtain ⟨w, hw, hwx⟩ := mapM_value_mem hvs x hx
      exact ⟨w, List.mem_cons_of_mem _ hw, hwx⟩

/-- `assertAll`'s slice: each entry the assertion of an element. -/
theorem assertAll_ok {β : Type} {f : Dynamic → Option β} {mk : List β → Elements} {vs : List Value}
    {els : Elements} (h : mk <$> assertAll f vs = .ok els) :
    ∃ xs, els = mk xs ∧ ∀ x ∈ xs, ∃ v ∈ vs, f v.value = some x := by
  unfold assertAll at h
  split at h
  · rename_i xs hxs
    cases h
    exact ⟨xs, rfl, mapM_value_mem hxs⟩
  · cases h

/-- The final switch of `doArray` puts in the array only the chains its elements hold. -/
theorem toElements_heldChains {t : ValueType} {vs : List Value} {els : Elements}
    (h : toElements t vs = .ok els) : ∀ c ∈ els.heldChains, ∃ v ∈ vs, c ∈ v.heldChains := by
  intro c hc
  cases t
  case tChain =>
    obtain ⟨xs, rfl, hxs⟩ := assertAll_ok h
    obtain ⟨⟨t, d⟩, hv, hd⟩ := hxs c hc
    cases d <;> cases hd
    exact ⟨_, hv, List.mem_singleton_self _⟩
  case tArray =>
    obtain ⟨xs, rfl, hxs⟩ := assertAll_ok h
    obtain ⟨a, ha, hca⟩ := Array.mem_allHeldChains hc
    obtain ⟨⟨t, d⟩, hv, hd⟩ := hxs a ha
    cases d <;> cases hd
    exact ⟨_, hv, hca⟩
  case tInvalid => cases h
  all_goals
    obtain ⟨xs, rfl, -⟩ := assertAll_ok h
    exact (List.not_mem_nil c hc).elim

/-! ### Values of expressions that call nothing -/

variable {Spec : Type}

/-- The chain `c` is held by a variable of the scope. -/
def Evaluator.Holds (s : Evaluator Spec) (c : Nat) : Prop :=
  ∃ n v, s.scope n = some v ∧ c ∈ v.heldChains

section Holds

variable (reg : Registry Spec) (grow : Nat → Nat)

mutual

/-- An expression that calls nothing changes nothing and computes a value that holds only chains
the scope's variables hold, by induction over the syntax tree. -/
theorem doExpression_holds : ∀ e : Ast.Expression, e.callFree → ∀ s : Evaluator Spec,
    Ensures (fun v s' => s' = s ∧ ∀ c ∈ v.heldChains, s.Holds c) (doExpression reg grow e s)
  | .literal l, _, _ => by cases l <;> first | exact Post.ok ⟨rfl, nofun⟩ | exact Post.error trivial
  | .identifier n, _, s => by
    rw [doExpression.eq_2]
    rcases h : s.scope n with _ | v
    · exact Post.error trivial
    · exact Post.ok ⟨rfl, fun c hc => ⟨n, v, h, hc⟩⟩
  | .callExpression _, h, _ => absurd h Bool.false_ne_true
  | .arrowFunctionExpression _ body, h, s =>
    Post.bind (doExpression_holds body h s) fun v _ ⟨hs1, _⟩ => by
      subst hs1
      generalize v.value = d
      cases d
      case expression => exact Post.ok ⟨rfl, nofun⟩
      all_goals exact Post.error trivial
  | .binaryExpression b, _, s => by
    rw [doExpression.eq_4]
    rcases binaryExpression b with _ | _
    · exact Post.error trivial
    · exact Post.ok ⟨rfl, nofun⟩
  | .logicalExpression l, _, s => by
    rw [doExpression.eq_5]
    rcases logicalExpression l with _ | _
    · exact Post.error trivial
    · exact Post.ok ⟨rfl, nofun⟩
  | .arrayExpression (.mk els), h, s =>
    Post.bind (doElements_holds els h .tInvalid s) fun ⟨ty, vs⟩ _ ⟨hs1, hvs⟩ => by
      subst hs1
      dsimp only
      rcases ht : toElements ty vs with f | elements
      · exact Post.error trivial
      · refine Post.ok ⟨rfl, fun c hc => ?_⟩
        obtain ⟨v, hv, hcv⟩ := toElements_heldChains ht c hc
        exact hvs v hv c hcv
  | .memberExpression _, _, _ => Post.error trivial
  | .objectExpression _, _, _ => Post.error trivial

theorem doElements_holds : ∀ els : List Ast.Expression, Ast.elementsCallFree els →
    ∀ (ty : ValueType) (s : Evaluator Spec),
      Ensures (fun r s' => s' = s ∧ ∀ v ∈ r.2, ∀ c ∈ v.heldChains, s.Holds c)
        (doElements reg grow els ty s)
  | [], _, _, _ => Post.ok ⟨rfl, nofun⟩
  | el :: els, h, _, s =>
    Post.bind (doExpression_holds el (Bool.and_eq_true_iff.1 h).1 s) fun v _ ⟨hs1, hv⟩ => by
      subst hs1
      refine Post.check trivial fun _ => Post.bind (doElements_holds els (Bool.and_eq_true_iff.1 h).2 _ _)
        fun ⟨_, vs⟩ _ ⟨hs2, hvs⟩ => ?_
      subst hs2
      exact Post.ok ⟨rfl, fun w hw => (List.mem_cons.1 hw).elim (fun h => h ▸ hv) (hvs w)⟩

end

end Holds

/-! ### Constructors that declare the tails of the chains they receive -/

section Linked

variable {cur : Option Nat} {s s' : Evaluator Spec} {op : Nat}

/-- The chain `c` is allocated and its tail is the id of an operation allocated before `m`. -/
def Evaluator.TailBelow (s : Evaluator Spec) (m c : Nat) : Prop :=
  c < s.chains.size ∧ ∃ i < m, (s.chains.cells c).parent = (s.ops.cells i).id

/-- An edge from an operation to one allocated after it. -/
def Evaluator.Forward (s : Evaluator Spec) (e : Edge) : Prop :=
  ∃ i j, i < j ∧ j < s.ops.size ∧ e = ⟨(s.ops.cells i).id, (s.ops.cells j).id⟩

/-- The edges of the chain `cur` a statement is building, which `addChain` will emit. -/
def Evaluator.pendingEdges (s : Evaluator Spec) : Option Nat → List Edge
  | none => []
  | some X => (s.chains.cells X).edges.read s.edgeArrays

@[simp] theorem Evaluator.pendingEdges_none : s.pendingEdges none = [] := rfl

/-- A state between the steps of a statement: the operations in creation order; the chains the
variables hold and the chain being built end in an operation already created; every edge emitted
or pending goes forward. -/
structure Evaluator.Linked (cur : Option Nat) (s : Evaluator Spec) : Prop where
  inOrder : s.InOrder cur
  held : ∀ c, s.Holds c → s.TailBelow s.ops.size c
  tail : ∀ X, cur = some X → s.TailBelow s.ops.size X
  forward : ∀ e ∈ s.edges ++ s.pendingEdges cur, s.Forward e

/-- A state after `createOp` made `op` with the parents `ps`: the tails end before `op`, and so do
the parents. -/
structure Evaluator.LinkedAt (cur : Option Nat) (op : Nat) (ps : List OperationID)
    (s : Evaluator Spec) : Prop where
  created : s.Created cur op
  op_lt : op < s.ops.size
  held : ∀ c, s.Holds c → s.TailBelow op c
  tail : ∀ X, cur = some X → s.TailBelow op X
  forward : ∀ e ∈ s.edges ++ s.pendingEdges cur, s.Forward e
  parents : ∀ p ∈ ps, ∃ i < op, p = (s.ops.cells i).id

theorem Evaluator.Linked.init : (Evaluator.init : Evaluator Spec).Linked none where
  inOrder := .init
  held _ := fun ⟨_, _, h, _⟩ => nomatch h
  tail _ := nofun
  forward _ := nofun

theorem Evaluator.Allocates.forward (ha : s.Allocates s' op) {e : Edge} (h : s.Forward e) :
    s'.Forward e := by
  obtain ⟨i, j, hij, hj, rfl⟩ := h
  exact ⟨i, j, hij, by rw [ha.size]; omega, by rw [ha.cells i (by omega), ha.cells j hj]⟩

variable {grow : Nat → Nat} {ps : List OperationID}

theorem Evaluator.pendingEdges_startChain (s : Evaluator Spec) (op : Nat) (ps : List OperationID) :
    (s.startChain grow op ps).pendingEdges (some s.chains.size) =
      ps.map fun p => ⟨p, (s.ops.cells op).id⟩ := by
  show ((s.chains.alloc _).1.cells s.chains.size).edges.read _ = _
  rw [Heap.alloc_cells, if_pos rfl]
  exact (Slice.read_appendAll _ _ _ (Slice.nil_valid _)).1

theorem Evaluator.pendingEdges_extendChain {X : Nat} (hv : (s.chains.cells X).edges.Valid s.edgeArrays)
    (op : Nat) (ps : List OperationID) :
    (s.extendChain grow X op ps).pendingEdges (some X) = s.pendingEdges (some X) ++
      ⟨(s.chains.cells X).parent, (s.ops.cells op).id⟩ ::
        (ps.filter (· ≠ (s.chains.cells X).parent)).map fun p => ⟨p, (s.ops.cells op).id⟩ := by
  show ((s.chains.set X _).cells X).edges.read _ = _
  rw [Heap.set_cells, if_pos rfl]
  exact (Slice.read_appendAll _ _ (_ :: _) hv).1

/-- The new chain of a function call ends in the operation just created, and its edges come from
the parents. -/
theorem Evaluator.LinkedAt.startChain (h : s.LinkedAt none op ps) :
    (s.startChain grow op ps).Linked (some s.chains.size) where
  inOrder := h.created.startChain ps
  held c hc := by
    obtain ⟨hlt, i, hi, hp⟩ := h.held c hc
    refine ⟨Nat.lt_succ_of_lt hlt, i, hi.trans h.op_lt, ?_⟩
    show ((s.chains.alloc _).1.cells c).parent = _
    rw [Heap.alloc_cells, if_neg hlt.ne]
    exact hp
  tail X hX := by
    cases hX
    refine ⟨Nat.lt_succ_self _, op, h.op_lt, ?_⟩
    show ((s.chains.alloc _).1.cells s.chains.size).parent = _
    rw [Heap.alloc_cells, if_pos rfl]
    rfl
  forward e he := by
    rw [Evaluator.pendingEdges_startChain] at he
    rcases List.mem_append.1 he with he | he
    · exact h.forward e (List.mem_append_left _ he)
    · obtain ⟨p, hp, rfl⟩ := List.mem_map.1 he
      obtain ⟨i, hi, rfl⟩ := h.parents p hp
      exact ⟨i, op, hi, h.op_lt, rfl⟩

/-- A method call's chain now ends in the operation just created; its new edges come from the old
tail and from the parents. -/
theorem Evaluator.LinkedAt.extendChain {X : Nat} (h : s.LinkedAt (some X) op ps) :
    (s.extendChain grow X op ps).Linked (some X) where
  inOrder := h.created.extendChain ps
  held c hc := by
    obtain ⟨hlt, i, hi, hp⟩ := h.held c hc
    refine ⟨hlt, ?_⟩
    show ∃ i < (s.ops.size), ((s.chains.set X _).cells c).parent = _
    rw [Heap.set_cells]
    split
    · exact ⟨op, h.op_lt, rfl⟩
    · exact ⟨i, by have := h.op_lt; omega, hp⟩
  tail X' hX := by
    cases hX
    refine ⟨(h.tail X rfl).1, op, h.op_lt, ?_⟩
    show ((s.chains.set X _).cells X).parent = _
    rw [Heap.set_cells, if_pos rfl]
    rfl
  forward e he := by
    rw [Evaluator.pendingEdges_extendChain (h.created.settled.validEdges X), ← List.append_assoc] at he
    rcases List.mem_append.1 he with he | he
    · exact h.forward e he
    · rcases List.mem_cons.1 he with rfl | he
      · obtain ⟨-, i, hi, hp⟩ := h.tail X rfl
        exact ⟨i, op, hi, h.op_lt, by rw [hp]; rfl⟩
      · obtain ⟨p, hp, rfl⟩ := List.mem_map.1 he
        obtain ⟨i, hi, rfl⟩ := h.parents p (List.mem_filter.1 hp).1
        exact ⟨i, op, hi, h.op_lt, rfl⟩

/-- `copyChain`'s copy of a variable's chain ends where the variable's does, and has no edges. -/
theorem Evaluator.Linked.copy (h : s.Linked none) {src : Nat} (hsrc : s.Holds src) :
    Evaluator.Linked (some s.chains.size)
      { s with chains := (s.chains.alloc .zero).1.set s.chains.size ((s.chains.alloc .zero).1.cells src) } := by
  have hcell : ∀ c < s.chains.size,
      ((s.chains.alloc .zero).1.set s.chains.size ((s.chains.alloc .zero).1.cells src)).cells c =
        s.chains.cells c := fun c hc => by
    rw [Heap.set_cells, if_neg hc.ne, Heap.alloc_cells, if_neg hc.ne]
  obtain ⟨hsrc, hsp⟩ := h.held src hsrc
  refine ⟨h.inOrder.copy src, fun c hc => ?_, fun X hX => ?_, fun e he => ?_⟩
  · obtain ⟨hlt, hp⟩ := h.held c hc
    exact ⟨Nat.lt_succ_of_lt hlt, by rw [hcell c hlt]; exact hp⟩
  · cases hX
    refine ⟨Nat.lt_succ_self _, ?_⟩
    show ∃ i < s.ops.size, ((Heap.set _ s.chains.size ((s.chains.alloc .zero).1.cells src)).cells
      s.chains.size).parent = _
    rw [Heap.set_cells, if_pos rfl, Heap.alloc_cells, if_neg hsrc.ne]
    exact hsp
  · change e ∈ s.edges ++ (((s.chains.alloc .zero).1.set s.chains.size
      ((s.chains.alloc .zero).1.cells src)).cells s.chains.size).edges.read s.edgeArrays at he
    rw [Heap.set_cells, if_pos rfl, Heap.alloc_cells, if_neg hsrc.ne,
      ((h.inOrder.settled.empty src nofun).read s.opArrays _).2] at he
    exact h.forward e he

/-- `addChain` emits the edges of the chain being built, or of an empty chain, and keeps the tails. -/
theorem Evaluator.Linked.addChain {X : Nat} (h : s.Linked cur) (hcur : cur = none ∨ cur = some X) :
    Ensures (fun _ s' => s'.Linked none) (addChain X s) := by
  refine Post.ok ⟨(h.inOrder.addChain hcur).of_ok rfl, fun c hc => ?_, nofun, fun e he => ?_⟩
  · obtain ⟨hlt, i, hi, hp⟩ := h.held c hc
    refine ⟨hlt, i, hi, ?_⟩
    show ((s.chains.set X _).cells c).parent = _
    rw [Heap.set_cells]
    split
    · subst_vars
      exact hp
    · exact hp
  · change e ∈ s.edges ++ (s.chains.cells X).edges.read s.edgeArrays ++ [] at he
    rw [List.append_nil] at he
    rcases hcur with rfl | rfl
    · rw [((h.inOrder.settled.empty X nofun).read s.opArrays _).2, List.append_nil] at he
      exact h.forward e (by simpa using he)
    · exact h.forward e he

theorem Evaluator.Linked.setScope (h : s.Linked cur) (n : String) (v : Value)
    (hv : ∀ c ∈ v.heldChains, s.TailBelow s.ops.size c) :
    Evaluator.Linked cur { s with scope := s.scope.set n v } where
  inOrder := h.inOrder.setScope n v
  held c := fun ⟨m, w, hm, hc⟩ => by
    simp only [Scope.set, Function.update_apply] at hm
    split at hm
    · cases hm
      exact hv c hc
    · exact h.held c ⟨m, w, hm, hc⟩
  tail := h.tail
  forward := h.forward

end Linked

section Runs

set_option smartUnfolding false

end Runs

end Ifql
