import Ifql.Evaluator

/-!
# Well-tagged values

A Go `Value` pairs a `Type` tag with an `interface{}`, and nothing in Go makes the two agree; the
evaluator and the constructors test the tag and then assert the dynamic type. A value is
*well-tagged* when its dynamic value is of the Go type its tag names, an array's `Elements` being a
slice of the Go type its element tag names, whose nested arrays are well-tagged in turn.

Every value the evaluator computes is well-tagged once the scope's bindings are, and it binds
nothing else, so the invariant holds over whole programs; every type assertion made after a test
of the tag then passes. The one assertion it does not cover is the arrow function's: the tag of the
body's value is not tested first, and a body that is not a predicate panics there
(`evaluate_arrow_literal_panics`).

Each evaluator function gets a statement `Sound`, the evaluator's `Post` with, on failure, a failure
that is none of the assertions a well-tagged value passes (`assertionPanics`); the rules of `Post`
chain them through the monad, and one mutual recursion over the syntax, as the evaluator's own,
proves them all.

Main results:

* **`toElements_sound`**: the final switch of `doArray`, on elements that carry the array's tag,
  builds a well-tagged slice with one entry per element, or rejects the tag `TInvalid`.
* **`runCtor_ok`**: a constructor given well-tagged arguments, in a well-tagged scope, never panics
  at an accessor's assertion or at `LookupIDFromIdentifier`'s.
* **`exprTagged`** and the statements beside it: every evaluator function keeps the scope and
  computes well-tagged values, and fails at none of the assertions.
* **`doStatements_tagged`**: the scope stays well-tagged across statements.
* **`doExpression_wellTagged`**: all of it, for every expression and every run of statements from a
  well-tagged scope.
-/

namespace Ifql

open Ast Query

/-! ### Well-tagged values -/

mutual

/-- An array whose `Elements` is a slice of the Go type its tag names, nested arrays well-tagged. -/
def Array.WellTagged : Array → Prop
  | .mk t els => Elements.WellTagged t els

/-- `Elements` holds a slice of the Go type the tag names. `TInvalid` and `TMap`'s absent element
type aside, each tag names one. -/
def Elements.WellTagged : ValueType → Elements → Prop
  | .tString, .strings _ => True
  | .tInt, .int64s _ => True
  | .tFloat, .float64s _ => True
  | .tBool, .bools _ => True
  | .tTime, .times _ => True
  | .tDuration, .durations _ => True
  | .tArray, .arrays as => Array.AllWellTagged as
  | .tMap, .maps _ => True
  | .tChain, .chains _ => True
  | .tExpression, .expressions _ => True
  | _, _ => False

/-- Every array of a slice of arrays is well-tagged. -/
def Array.AllWellTagged : List Array → Prop
  | [] => True
  | a :: as => a.WellTagged ∧ Array.AllWellTagged as

end

/-- A value whose dynamic value is of the Go type its tag names. -/
def Value.WellTagged : Value → Prop
  | ⟨.tString, .string _⟩ => True
  | ⟨.tInt, .int64 _⟩ => True
  | ⟨.tFloat, .float64 _⟩ => True
  | ⟨.tBool, .bool _⟩ => True
  | ⟨.tTime, .time _⟩ => True
  | ⟨.tDuration, .duration _⟩ => True
  | ⟨.tArray, .array a⟩ => a.WellTagged
  | ⟨.tMap, .map _⟩ => True
  | ⟨.tChain, .chain _⟩ => True
  | ⟨.tExpression, .expression _⟩ => True
  | _ => False

/-- `len` of the slice `Elements` holds; `nil` is empty. -/
def Elements.length : Elements → Nat
  | .nil => 0
  | .strings xs => xs.length
  | .int64s xs => xs.length
  | .float64s xs => xs.length
  | .bools xs => xs.length
  | .times xs => xs.length
  | .durations xs => xs.length
  | .arrays xs => xs.length
  | .maps xs => xs.length
  | .chains xs => xs.length
  | .expressions xs => xs.length

/-- Every binding of the scope is well-tagged. -/
def Scope.WellTagged (sc : Scope) : Prop := ∀ n v, sc n = some v → v.WellTagged

theorem Array.allWellTagged_iff : ∀ {as : List Array}, Array.AllWellTagged as ↔ ∀ a ∈ as, a.WellTagged
  | [] => by simp [Array.AllWellTagged]
  | a :: as => by simp [Array.AllWellTagged, allWellTagged_iff]

theorem newScope_wellTagged : newScope.WellTagged := fun _ _ h => nomatch h

theorem Scope.WellTagged.set {sc : Scope} (hs : sc.WellTagged) {v : Value} (hv : v.WellTagged)
    (name : String) : (sc.set name v).WellTagged := by
  intro n w h
  by_cases hn : n = name
  · subst hn
    simp only [Scope.set, Function.update_same, Option.some.injEq] at h
    exact h ▸ hv
  · rw [Scope.set, Function.update_noteq hn] at h
    exact hs n w h

/-- A well-tagged value tagged `TChain` holds a `*CallChain`. -/
theorem Value.WellTagged.chain {v : Value} (hv : v.WellTagged) (ht : v.type = .tChain) :
    ∃ c, v.value = .chain c := by
  rcases v with ⟨t, d⟩
  cases ht
  cases d <;> first | exact ⟨_, rfl⟩ | exact hv.elim

/-! ### Failures a well-tagged evaluation cannot reach -/

/-- The panics of the type assertions made after a test of the tag: `value.Value.(*CallChain)` in
`eval` and `doVariableDeclaration` (lines 74 and 113), in `memberFunction` and in
`LookupIDFromIdentifier`; an element's in `doArray`; those of the accessors of `Arguments`; and
`GetArray`'s `v.Value.(Array)`. -/
def assertionPanics : List Failure :=
  [.panic "interface conversion: interface \x7b\x7d is not *ifql.CallChain",
    .panic "interface conversion: element of an array is not of the array's type",
    .panic "interface conversion: interface \x7b\x7d is not of the asserted type",
    .panic "interface conversion: interface \x7b\x7d is not ifql.Array"]

variable {Spec α β : Type}

/-- What a computation promises: `Q` of its result and final state, or a failure that is not one of
the assertions of `assertionPanics`. -/
abbrev Sound (Q : α → Evaluator Spec → Prop) : Except Failure (α × Evaluator Spec) → Prop :=
  Post (· ∉ assertionPanics) Q

/-- An error is none of the assertions. -/
theorem error_not_assertion (m : String) : Failure.error m ∉ assertionPanics := by
  simp [assertionPanics]

section Sound

variable {Q : α → Evaluator Spec → Prop} {s : Evaluator Spec}

/-- A panic other than the assertions of `assertionPanics`. -/
theorem sound_panic {m : String} (h : Failure.panic m ∉ assertionPanics) :
    Sound Q ((throw (.panic m) : EvalM Spec α) s) :=
  h

end Sound

/-! ### Constructors -/

section Ctor

/-- Every keyword argument is well-tagged. -/
def ParamsWellTagged (params : List (String × Value)) : Prop := ∀ p ∈ params, p.2.WellTagged

theorem ParamsWellTagged.lookup {params : List (String × Value)} (hp : ParamsWellTagged params)
    {name : String} {v : Value} (h : params.lookup name = some v) : v.WellTagged := by
  obtain ⟨l1, l2, rfl, -⟩ := List.lookup_eq_some_iff.1 h
  exact hp _ (List.mem_append_right _ (List.mem_cons_self _ _))

variable {a : Arguments} {name : String} {required : Bool}

/-- An accessor through `get` whose assertion `conv` passes on every well-tagged value of its tag
answers, with the arguments' parameters unchanged. -/
theorem getWith_ok {typ : ValueType} {zero : Got} {conv : Dynamic → Option Got}
    (hconv : ∀ d, Value.WellTagged ⟨typ, d⟩ → (conv d).isSome) (hp : ParamsWellTagged a.params) :
    ∃ r, a.getWith name typ required zero conv = .ok r ∧ r.2.params = a.params := by
  dsimp only [Arguments.getWith, Arguments.get]
  rcases hl : a.params.lookup name with _ | v
  · cases required <;> exact ⟨_, rfl, rfl⟩
  · dsimp only
    by_cases ht : v.type = typ
    · rcases v with ⟨t, d⟩
      cases ht
      obtain ⟨g, hg⟩ := Option.isSome_iff_exists.1 (hconv d (hp.lookup hl))
      simp only [if_true, hg]
      exact ⟨_, rfl, rfl⟩
    · simp only [ht, if_false]
      exact ⟨_, rfl, rfl⟩

/-- `GetArray` answers on well-tagged parameters: an argument tagged `TArray` holds an `Array`. -/
theorem getArrayWith_ok {t : ValueType} (hp : ParamsWellTagged a.params) :
    ∃ r, a.getArrayWith name t required = .ok r ∧ r.2.params = a.params := by
  dsimp only [Arguments.getArrayWith, Arguments.get]
  rcases hl : a.params.lookup name with _ | v
  · cases required <;> exact ⟨_, rfl, rfl⟩
  · dsimp only
    by_cases ht : v.type = .tArray
    · rcases v with ⟨t', d⟩
      cases ht
      have hv := hp.lookup hl
      cases d <;> try exact hv.elim
      rename_i arr
      by_cases hta : arr.type = t <;> simp [hta]
    · simp only [ht, if_false]
      exact ⟨_, rfl, rfl⟩

/-- `LookupIDFromIdentifier` answers in a well-tagged scope: a variable tagged `TChain` holds a
`*CallChain`. -/
theorem lookupIDFromIdentifier_ok {scope : Scope} (hs : scope.WellTagged) (chains : Heap CallChain)
    (ident : String) : ∃ r, lookupIDFromIdentifier scope chains ident = .ok r := by
  unfold lookupIDFromIdentifier
  rcases hl : scope ident with _ | v
  · exact ⟨_, rfl⟩
  · dsimp only
    by_cases ht : v.type = .tChain
    · obtain ⟨c, hc⟩ := (hs ident v hl).chain ht
      simp only [ht, hc, ne_eq, not_true_eq_false, if_false]
      exact ⟨_, rfl⟩
    · simp only [ht, ne_eq, not_false_eq_true, if_true]
      exact ⟨_, rfl⟩

variable {scope : Scope} {st : CtorState}

theorem perform_withArgs_ok {x : Except String (Answer × Arguments)} (hp : ParamsWellTagged st.args.params)
    (hx : ∃ r, x = .ok r ∧ r.2.params = st.args.params) :
    ∃ ans st', perform.withArgs st x = .ok (ans, st') ∧ ParamsWellTagged st'.args.params := by
  obtain ⟨⟨ans, a⟩, rfl, ha⟩ := hx
  exact ⟨ans, _, rfl, ha ▸ hp⟩

/-- Every request of a constructor is served, in a well-tagged scope and on well-tagged parameters,
and the parameters stay as they are. -/
theorem perform_ok (hs : scope.WellTagged) (chains : Heap CallChain)
    (hp : ParamsWellTagged st.args.params) (r : Request) :
    ∃ ans st', perform scope chains st r = .ok (ans, st') ∧ ParamsWellTagged st'.args.params := by
  cases r <;> simp only [perform]
  case getTime n | getRequiredTime n =>
    exact perform_withArgs_ok hp ⟨_, rfl, by simp [Arguments.getTime_params, Arguments.getRequiredTime_params]⟩
  case getArray n t | getRequiredArray n t => exact perform_withArgs_ok hp (getArrayWith_ok hp)
  case lookupIDFromIdentifier ident =>
    obtain ⟨r, hr⟩ := lookupIDFromIdentifier_ok hs chains ident
    exact ⟨r, st, by rw [hr]; rfl, hp⟩
  case additionalParent id => exact ⟨_, _, rfl, hp⟩
  case chainParent c => exact ⟨_, _, rfl, hp⟩
  all_goals exact perform_withArgs_ok hp (getWith_ok (fun d hd => by
    cases d <;> first | rfl | exact hd.elim) hp)

/-- A constructor run on well-tagged parameters, in a well-tagged scope, never panics: it returns
its spec or its error. -/
theorem runCtor_ok {Spec : Type} (hs : scope.WellTagged) (chains : Heap CallChain) :
    ∀ (ctor : Ctor Spec) (st : CtorState), ParamsWellTagged st.args.params →
      ∃ r, runCtor scope chains ctor st = .ok r
  | .done _, _, _ => ⟨_, rfl⟩
  | .request r k, _, hp => by
    obtain ⟨⟨g, ok, err⟩, st', h, hp'⟩ := perform_ok hs chains hp r
    simp only [runCtor, h]
    exact runCtor_ok hs chains (k g ok err) st' hp'

end Ctor

/-! ### Arrays -/

/-- A value of a tag carries none but `TInvalid`. -/
theorem Value.WellTagged.type_ne {v : Value} (hv : v.WellTagged) : v.type ≠ .tInvalid := by
  rcases v with ⟨t, d⟩
  rintro rfl
  exact hv.elim

/-- The assertions over every element pass when each passes. -/
theorem mapM_value_ok {β : Type} {f : Dynamic → Option β} :
    ∀ {vs : List Value}, (∀ v ∈ vs, (f v.value).isSome) →
      ∃ xs, vs.mapM (f ·.value) = some xs ∧ xs.length = vs.length ∧
        ∀ x ∈ xs, ∃ v ∈ vs, f v.value = some x
  | [], _ => ⟨[], rfl, rfl, by simp⟩
  | v :: vs, h => by
    obtain ⟨x, hx⟩ := Option.isSome_iff_exists.1 (h v (List.mem_cons_self _ _))
    obtain ⟨xs, hxs, hlen, hmem⟩ := mapM_value_ok fun w hw => h w (List.mem_cons_of_mem _ hw)
    refine ⟨x :: xs, by rw [List.mapM_cons, hx, hxs]; rfl, by simp [hlen], ?_⟩
    rintro y (_ | ⟨_, hy⟩)
    · exact ⟨v, List.mem_cons_self _ _, hx⟩
    · obtain ⟨w, hw, hwy⟩ := hmem y hy
      exact ⟨w, List.mem_cons_of_mem _ hw, hwy⟩

/-- One case of `doArray`'s final switch, on elements that carry its tag `t`: the typed slice
`mk xs`, well-tagged when every entry comes from an element. -/
theorem assertAll_sound {β : Type} {f : Dynamic → Option β} {mk : List β → Elements} {t : ValueType}
    {vs : List Value} (hvs : ∀ v ∈ vs, v.WellTagged ∧ v.type = t)
    (hf : ∀ d, Value.WellTagged ⟨t, d⟩ → (f d).isSome)
    (hmk : ∀ xs, (∀ x ∈ xs, ∃ v ∈ vs, f v.value = some x) →
      Elements.WellTagged t (mk xs) ∧ (mk xs).length = xs.length) :
    ∃ elements, mk <$> assertAll f vs = .ok elements ∧ Elements.WellTagged t elements ∧
      elements.length = vs.length := by
  obtain ⟨xs, hxs, hlen, hmem⟩ := mapM_value_ok fun v hv => by
    obtain ⟨hw, ht⟩ := hvs v hv
    exact hf v.value (ht ▸ hw)
  obtain ⟨hw, hl⟩ := hmk xs hmem
  exact ⟨mk xs, by simp only [assertAll, hxs]; rfl, hw, hl.trans hlen⟩

/-- The final switch of `doArray`: on elements that carry the array's tag, it builds a well-tagged
slice with one entry per element, or rejects the tag `TInvalid` with an error. -/
theorem toElements_sound {t : ValueType} {vs : List Value}
    (hvs : ∀ v ∈ vs, v.WellTagged ∧ v.type = t) :
    (∃ m, toElements t vs = .error (.error m)) ∨
      ∃ elements, toElements t vs = .ok elements ∧ Elements.WellTagged t elements ∧
        elements.length = vs.length := by
  cases t
  case tInvalid => exact .inl ⟨_, rfl⟩
  case tArray =>
    refine .inr (assertAll_sound hvs (fun d hd => ?_) fun xs hxs => ⟨?_, rfl⟩)
    · cases d <;> first | rfl | exact hd.elim
    · refine Array.allWellTagged_iff.2 fun x hx => ?_
      obtain ⟨⟨t, d⟩, hv, hd⟩ := hxs x hx
      obtain ⟨hw, rfl⟩ := hvs _ hv
      cases d <;> first | exact hw.elim | cases hd; exact hw
  all_goals exact .inr (assertAll_sound hvs (fun d hd => by cases d <;> first | rfl | exact hd.elim)
    fun _ _ => ⟨trivial, rfl⟩)

/-! ### What each evaluator function keeps -/

section Steps

variable {Q : α → Evaluator Spec → Prop} {s : Evaluator Spec} {reg : Registry Spec}

/-- The loop of additional parents only appends edges. -/
theorem appendParents_sound (grow : Nat → Nat) (child : OperationID) :
    ∀ (ps : List OperationID) (sl : Slice) (s : Evaluator Spec),
      Sound (fun _ s' => s'.scope = s.scope) (appendParents grow child sl ps s)
  | [], _, _ => rfl
  | _ :: ps, _, _ => Post.bind_ok rfl (appendParents_sound grow child ps _ _)

/-- `createOp`'s tail, on well-tagged parameters in a well-tagged scope: the constructor's requests
are all served, and only the operation's spec is set. -/
theorem construct_sound {op : Nat} {ctor : Ctor Spec} {params : List (String × Value)}
    (hs : s.scope.WellTagged) (hp : ParamsWellTagged params) :
    Sound (fun _ s' => s'.scope = s.scope) (construct op ctor params s) := by
  refine Post.bind_ok rfl ?_
  obtain ⟨⟨r, st⟩, hr⟩ := runCtor_ok hs s.chains ctor ⟨newArguments params, []⟩ hp
  dsimp only
  rw [hr]
  rcases r with _ | spec
  · exact Post.error (error_not_assertion _)
  · dsimp only
    split
    · exact Post.error (error_not_assertion _)
    · rfl

/-- `memberFunction`'s copy of a chain, in a well-tagged scope: the variable tagged `TChain` holds
a `*CallChain`. -/
theorem copyChain_sound (hs : s.scope.WellTagged) (n : String) (chain : Option Nat) :
    Sound (fun _ s' => s'.scope = s.scope) (copyChain n chain s) := by
  refine Post.bind_ok rfl ?_
  dsimp only
  rcases hn : s.scope n with _ | v
  · exact Post.error (error_not_assertion _)
  · dsimp only
    by_cases ht : v.type = .tChain
    · obtain ⟨c, hc⟩ := (hs n v hn).chain ht
      simp only [ht, hc, ne_eq, not_true_eq_false, if_false]
      cases chain <;> rfl
    · simp only [ht, ne_eq, not_false_eq_true, if_true]
      exact Post.error (error_not_assertion _)

/-- The `value.Type == TChain` test that ends a statement, on a well-tagged value: the assertion
of lines 74 and 113 passes. -/
theorem drain_sound {v : Value} (hv : v.WellTagged) (s : Evaluator Spec) :
    Sound (fun _ s' => s'.scope = s.scope) (drain v s) := by
  unfold drain
  by_cases ht : v.type = .tChain
  · obtain ⟨c, hc⟩ := hv.chain ht
    simp only [ht, hc, if_true]
    rfl
  · simp only [ht, if_false]
    rfl

end Steps

section Specs

variable (reg : Registry Spec) (grow : Nat → Nat)

/-- `doExpression` keeps the scope, and its value is well-tagged. -/
def ExprTagged (e : Ast.Expression) : Prop :=
  ∀ s : Evaluator Spec, s.scope.WellTagged →
    Sound (fun v s' => v.WellTagged ∧ s'.scope = s.scope) (doExpression reg grow e s)

/-- `doArray` keeps the scope, and builds a well-tagged array with one entry per element. -/
def ArrayTagged (els : List Ast.Expression) : Prop :=
  ∀ s : Evaluator Spec, s.scope.WellTagged →
    Sound (fun v s' => v.WellTagged ∧ (∃ t elements, v = ⟨.tArray, .array (.mk t elements)⟩ ∧
      elements.length = els.length) ∧ s'.scope = s.scope) (doArray reg grow (.mk els) s)

/-- The element loop keeps the scope; its values are well-tagged and carry the type it returns,
which is the one it was given unless that was `TInvalid`. -/
def ElementsTagged (els : List Ast.Expression) : Prop :=
  ∀ (t : ValueType) (s : Evaluator Spec), s.scope.WellTagged →
    Sound (fun r s' => (t ≠ .tInvalid → r.1 = t) ∧ (∀ v ∈ r.2, v.WellTagged ∧ v.type = r.1) ∧
      r.2.length = els.length ∧ s'.scope = s.scope) (doElements reg grow els t s)

/-- `callFunction` keeps the scope. -/
def CallTagged (c : CallExpression) : Prop :=
  ∀ (chain : Option Nat) (s : Evaluator Spec), s.scope.WellTagged →
    Sound (fun _ s' => s'.scope = s.scope) (callFunction reg grow c chain s)

/-- `memberFunction` keeps the scope. -/
def MemberTagged (m : MemberExpression) : Prop :=
  ∀ (chain : Option Nat) (s : Evaluator Spec), s.scope.WellTagged →
    Sound (fun _ s' => s'.scope = s.scope) (memberFunction reg grow m chain s)

/-- `createOp` keeps the scope. -/
def ArgsTagged (args : List Ast.Expression) : Prop :=
  ∀ (name : String) (ctor : Ctor Spec) (s : Evaluator Spec), s.scope.WellTagged →
    Sound (fun _ s' => s'.scope = s.scope) (createOp reg grow name ctor args s)

/-- The property loop keeps the scope, and adds only well-tagged parameters. -/
def PropsTagged (ps : List Property) : Prop :=
  ∀ (acc : List (String × Value)) (s : Evaluator Spec), s.scope.WellTagged →
    ParamsWellTagged acc →
    Sound (fun r s' => ParamsWellTagged r ∧ s'.scope = s.scope) (resolveProperties reg grow ps acc s)

variable {reg grow}

theorem exprTagged_literal (l : Literal) : ExprTagged reg grow (.literal l) := by
  intro s _
  cases l <;> first | exact ⟨trivial, rfl⟩ | exact Post.error (error_not_assertion _)

theorem exprTagged_identifier (n : String) : ExprTagged reg grow (.identifier n) := by
  intro s hs
  rw [doExpression.eq_2]
  rcases hn : s.scope n with _ | v
  · exact Post.error (error_not_assertion _)
  · exact ⟨hs n v hn, rfl⟩

theorem exprTagged_call {c : CallExpression} (hc : CallTagged reg grow c) :
    ExprTagged reg grow (.callExpression c) :=
  fun s hs => Post.bind (hc none s hs) fun _ _ h1 => ⟨trivial, h1⟩

theorem exprTagged_binary (b : BinaryExpression) : ExprTagged reg grow (.binaryExpression b) := by
  intro s _
  rw [doExpression.eq_4]
  split
  · exact ⟨trivial, rfl⟩
  · exact Post.error (error_not_assertion _)

theorem exprTagged_logical (l : LogicalExpression) : ExprTagged reg grow (.logicalExpression l) := by
  intro s _
  rw [doExpression.eq_5]
  split
  · exact ⟨trivial, rfl⟩
  · exact Post.error (error_not_assertion _)

/-- The arrow function: its assertion may fail, but its panic is none of `assertionPanics`. -/
theorem exprTagged_arrow {params : List String} {body : Ast.Expression}
    (hb : ExprTagged reg grow body) : ExprTagged reg grow (.arrowFunctionExpression params body) := by
  intro s hs
  refine Post.bind (hb s hs) fun ⟨t, d⟩ s1 ⟨hv, h1⟩ => ?_
  cases d
  case expression e =>
    cases t <;> first | exact hv.elim | exact ⟨trivial, h1⟩
  all_goals exact sound_panic (by simp [assertionPanics])

theorem doArray_tagged {els : List Ast.Expression} (hels : ElementsTagged reg grow els) :
    ArrayTagged reg grow els := by
  intro s hs
  refine Post.bind (hels .tInvalid s hs) fun ⟨t, vs⟩ s1 ⟨_, hvs, hlen, h1⟩ => ?_
  dsimp only
  rcases toElements_sound hvs with ⟨m, hm⟩ | ⟨elements, he, hw, hl⟩
  · rw [hm]; exact Post.error (error_not_assertion _)
  · rw [he]
    exact ⟨hw, ⟨t, elements, rfl, hl.trans hlen⟩, h1⟩

theorem exprTagged_array {els : List Ast.Expression} (hels : ElementsTagged reg grow els) :
    ExprTagged reg grow (.arrayExpression (.mk els)) :=
  fun s hs => (doArray_tagged hels s hs).mono fun _ _ h => ⟨h.1, h.2.2⟩

theorem exprTagged_member (m : MemberExpression) : ExprTagged reg grow (.memberExpression m) :=
  fun _ _ => Post.error (error_not_assertion _)

theorem exprTagged_object (o : ObjectExpression) : ExprTagged reg grow (.objectExpression o) :=
  fun _ _ => Post.error (error_not_assertion _)

theorem elementsTagged_nil : ElementsTagged reg grow [] := by
  intro t s _
  exact ⟨fun _ => rfl, by simp, rfl, rfl⟩

theorem elementsTagged_cons {el : Ast.Expression} {els : List Ast.Expression}
    (he : ExprTagged reg grow el) (hels : ElementsTagged reg grow els) :
    ElementsTagged reg grow (el :: els) := by
  intro t s hs
  refine Post.bind (he s hs) fun v s1 ⟨hv, h1⟩ => Post.check (error_not_assertion _) fun hne => ?_
  have ht1 : (if t = .tInvalid then v.type else t) = v.type := not_not.1 hne
  refine Post.bind (hels _ s1 (h1 ▸ hs)) fun ⟨t', vs⟩ s2 ⟨ht', hvs, hlen, h2⟩ => ?_
  have hvt : t' = v.type := (ht' (by rw [ht1]; exact hv.type_ne)).trans ht1
  refine ⟨fun ht => ?_, ?_, by simp [hlen], h2.trans h1⟩
  · rw [hvt, ← ht1, if_neg ht]
  · rintro w (_ | ⟨_, hw⟩)
    · exact ⟨hv, hvt.symm⟩
    · exact hvs w hw

theorem callTagged_identifier {name : String} {args : List Ast.Expression}
    (hargs : ArgsTagged reg grow args) : CallTagged reg grow (.mk (.identifier name) args) := by
  intro chain s hs
  refine Post.bind (Post.function error_not_assertion fun c _ => hargs name c s hs) fun _ s1 h1 => ?_
  refine Post.bind_ok rfl (Post.bind_ok rfl ?_)
  exact Post.bind (appendParents_sound grow _ _ _ _) fun _ _ h3 => h3.trans h1

theorem callTagged_member {m : MemberExpression} {args : List Ast.Expression}
    (hm : MemberTagged reg grow m) (hargs : ArgsTagged reg grow args) :
    CallTagged reg grow (.mk (.memberExpression m) args) := by
  intro chain s hs
  refine Post.bind (hm chain s hs) fun ⟨X, name⟩ s1 h1 => ?_
  refine Post.bind (Post.method error_not_assertion fun c _ => hargs name c s1 (h1 ▸ hs)) fun _ s2 h2 => ?_
  refine Post.bind_ok rfl (Post.bind_ok rfl (Post.bind_ok rfl (Post.bind_ok rfl ?_)))
  exact Post.bind (appendParents_sound grow _ _ _ _) fun _ _ h3 =>
    Post.bind_ok rfl (h3.trans (h2.trans h1))

theorem callTagged_of_error {c : CallExpression}
    (h : ∀ chain (s : Evaluator Spec), ∃ m, callFunction reg grow c chain s = .error (.error m)) :
    CallTagged reg grow c := by
  intro chain s _
  obtain ⟨m, hm⟩ := h chain s
  rw [hm]
  exact Post.error (error_not_assertion m)

/-- A member call on a call: the property must be an identifier, and the assertion that says so is
not one of `assertionPanics`. -/
theorem memberTagged_call {c : CallExpression} {p : Ast.Expression} (hc : CallTagged reg grow c) :
    MemberTagged reg grow (.mk (.callExpression c) p) := by
  intro chain s hs
  refine Post.bind (hc chain s hs) fun _ s1 h1 => ?_
  cases p
  case identifier => exact h1
  all_goals exact sound_panic (by simp [assertionPanics])

/-- A member call on a variable: its chain is copied, then as `memberTagged_call`. -/
theorem memberTagged_identifier {n : String} {p : Ast.Expression} :
    MemberTagged reg grow (.mk (.identifier n) p) := by
  intro chain s hs
  refine Post.bind (copyChain_sound hs n chain) fun _ s1 h1 => ?_
  cases p
  case identifier => exact h1
  all_goals exact sound_panic (by simp [assertionPanics])

theorem memberTagged_of_error {m : MemberExpression}
    (h : ∀ chain (s : Evaluator Spec), ∃ e, memberFunction reg grow m chain s = .error (.error e)) :
    MemberTagged reg grow m := by
  intro chain s _
  obtain ⟨e, he⟩ := h chain s
  rw [he]
  exact Post.error (error_not_assertion e)

theorem argsTagged_object {ps : List Property} (hps : PropsTagged reg grow ps) :
    ArgsTagged reg grow [.objectExpression (.mk ps)] := by
  intro name ctor s hs
  refine Post.bind_ok rfl (Post.bind (hps [] _ hs fun _ h => nomatch h) fun _ s2 ⟨hp, h2⟩ => ?_)
  exact Post.bind (construct_sound (h2 ▸ hs) hp) fun _ _ h3 => h3.trans h2

theorem argsTagged_none {args : List Ast.Expression} (hargs : ∀ e, args ≠ [e]) :
    ArgsTagged reg grow args := by
  intro name ctor s hs
  -- with no argument object, `createOp` runs the constructor on no parameters
  have h : createOp reg grow name ctor args s =
      (do let op ← newOp name; pure (op, ← construct op ctor []) : EvalM Spec _) s := by
    match args, hargs with
    | [], _ => rfl
    | [e], hargs => exact absurd rfl (hargs e)
    | e :: _ :: _, _ => cases e <;> rfl
  rw [h]
  exact Post.bind_ok rfl (Post.bind (construct_sound hs fun _ h => nomatch h) fun _ _ h => h)

theorem argsTagged_of_error {args : List Ast.Expression}
    (h : ∀ (name : String) (ctor : Ctor Spec) (s : Evaluator Spec),
      ∃ m, createOp reg grow name ctor args s = .error (.error m)) : ArgsTagged reg grow args := by
  intro name ctor s _
  obtain ⟨m, hm⟩ := h name ctor s
  rw [hm]
  exact Post.error (error_not_assertion m)

theorem propsTagged_nil : PropsTagged reg grow [] :=
  fun _ _ _ hacc => ⟨hacc, rfl⟩

theorem propsTagged_cons {key : String} {value : Ast.Expression} {ps : List Property}
    (hv : ExprTagged reg grow value) (hps : PropsTagged reg grow ps) :
    PropsTagged reg grow (.mk key value :: ps) := by
  intro acc s hs hacc
  refine Post.bind (hv s hs) fun v s1 ⟨hwv, h1⟩ => Post.check (error_not_assertion _) fun _ => ?_
  refine (hps _ s1 (h1 ▸ hs) fun p hp => ?_).mono fun _ _ h => ⟨h.1, h.2.trans h1⟩
  rcases List.mem_append.1 hp with hp | hp
  · exact hacc p hp
  · rw [List.mem_singleton.1 hp]
    exact hwv

end Specs

section Specs

variable (reg : Registry Spec) (grow : Nat → Nat)

mutual

/-- Every expression keeps the scope and computes a well-tagged value, by induction over the
syntax tree with the evaluator's own recursion. -/
theorem exprTagged : ∀ e, ExprTagged reg grow e
  | .literal l => exprTagged_literal l
  | .identifier n => exprTagged_identifier n
  | .callExpression c => exprTagged_call (callTagged c)
  | .memberExpression m => exprTagged_member m
  | .arrowFunctionExpression _ body => exprTagged_arrow (exprTagged body)
  | .binaryExpression b => exprTagged_binary b
  | .logicalExpression l => exprTagged_logical l
  | .arrayExpression (.mk els) => exprTagged_array (elementsTagged els)
  | .objectExpression o => exprTagged_object o

theorem elementsTagged : ∀ els, ElementsTagged reg grow els
  | [] => elementsTagged_nil
  | el :: els => elementsTagged_cons (exprTagged el) (elementsTagged els)

theorem callTagged : ∀ c, CallTagged reg grow c
  | .mk (.identifier _) args => callTagged_identifier (argsTagged args)
  | .mk (.memberExpression m) args => callTagged_member (memberTagged m) (argsTagged args)
  | .mk (.literal _) _ | .mk (.callExpression _) _ | .mk (.arrowFunctionExpression _ _) _
  | .mk (.binaryExpression _) _ | .mk (.logicalExpression _) _ | .mk (.arrayExpression _) _
  | .mk (.objectExpression _) _ => callTagged_of_error fun _ _ => ⟨_, rfl⟩

theorem memberTagged : ∀ m, MemberTagged reg grow m
  | .mk (.callExpression c) _ => memberTagged_call (callTagged c)
  | .mk (.identifier _) _ => memberTagged_identifier
  | .mk (.literal _) _ | .mk (.memberExpression _) _ | .mk (.arrowFunctionExpression _ _) _
  | .mk (.binaryExpression _) _ | .mk (.logicalExpression _) _ | .mk (.arrayExpression _) _
  | .mk (.objectExpression _) _ => memberTagged_of_error fun _ _ => ⟨_, rfl⟩

theorem argsTagged : ∀ args, ArgsTagged reg grow args
  | [.objectExpression (.mk ps)] => argsTagged_object (propsTagged ps)
  | [.literal _] | [.identifier _] | [.callExpression _] | [.memberExpression _]
  | [.arrowFunctionExpression _ _] | [.binaryExpression _] | [.logicalExpression _]
  | [.arrayExpression _] => argsTagged_of_error fun _ _ _ => ⟨_, rfl⟩
  | [] => argsTagged_none (by simp)
  | _ :: _ :: _ => argsTagged_none (by simp)

theorem propsTagged : ∀ ps, PropsTagged reg grow ps
  | [] => propsTagged_nil
  | .mk _ v :: ps => propsTagged_cons (exprTagged v) (propsTagged ps)

end

end Specs

/-! ### Statements -/

section Statements

variable (reg : Registry Spec) (grow : Nat → Nat)

/-- Each declaration binds a well-tagged value, so the scope stays well-tagged. -/
theorem doVariableDeclaration_tagged : ∀ (vds : List VariableDeclarator) (s : Evaluator Spec),
    s.scope.WellTagged →
      Sound (fun _ s' => s'.scope.WellTagged) (doVariableDeclaration reg grow vds s)
  | [], _, hs => hs
  | vd :: vds, s, hs => by
    refine Post.bind (exprTagged reg grow vd.init s hs) fun v s1 ⟨hv, h1⟩ =>
      Post.bind_ok rfl (Post.bind (drain_sound hv _) fun _ s2 h2 => ?_)
    refine doVariableDeclaration_tagged vds s2 ?_
    rw [h2]
    exact (h1 ▸ hs).set hv vd.id

theorem doStatement_tagged (st : Statement) (s : Evaluator Spec) (hs : s.scope.WellTagged) :
    Sound (fun _ s' => s'.scope.WellTagged) (doStatement reg grow st s) := by
  cases st
  case variableDeclaration ds => exact doVariableDeclaration_tagged reg grow ds s hs
  case expressionStatement e =>
    exact Post.bind (exprTagged reg grow e s hs) fun v s1 ⟨hv, h1⟩ =>
      (drain_sound hv s1).mono fun _ s2 h2 => by rw [h2, h1]; exact hs

/-- The scope stays well-tagged across statements, and no statement fails at an assertion of
`assertionPanics`. -/
theorem doStatements_tagged : ∀ (sts : List Statement) (s : Evaluator Spec), s.scope.WellTagged →
    Sound (fun _ s' => s'.scope.WellTagged) (doStatements reg grow sts s)
  | [], _, hs => hs
  | st :: sts, s, hs =>
    Post.bind (doStatement_tagged reg grow st s hs) fun _ s1 h1 => doStatements_tagged sts s1 h1

end Statements

/-- For every expression evaluated in a scope whose bindings are well-tagged, a value `doExpression`
returns is well-tagged, and an array `doArray` returns has one entry per element of the expression.
Hence the scope stays well-tagged across statements, and no run of statements fails at a type
assertion that follows a test of the tag: the `*CallChain` assertions of `eval`,
`doVariableDeclaration`, `memberFunction` and `LookupIDFromIdentifier`, the elements' assertions in
`doArray`, and those of the accessors of `Arguments`. -/
theorem doExpression_wellTagged (reg : Registry Spec) (grow : Nat → Nat) :
    (∀ (e : Ast.Expression) (s s' : Evaluator Spec) (v : Value), s.scope.WellTagged →
      doExpression reg grow e s = .ok (v, s') → v.WellTagged) ∧
    (∀ (els : List Ast.Expression) (s s' : Evaluator Spec) (v : Value), s.scope.WellTagged →
      doArray reg grow (.mk els) s = .ok (v, s') →
        ∃ t elements, v = ⟨.tArray, .array (.mk t elements)⟩ ∧ elements.length = els.length) ∧
    (∀ (sts : List Statement) (s s' : Evaluator Spec), s.scope.WellTagged →
      doStatements reg grow sts s = .ok ((), s') → s'.scope.WellTagged) ∧
    (∀ (sts : List Statement) (s : Evaluator Spec) (f : Failure), s.scope.WellTagged →
      doStatements reg grow sts s = .error f → f ∉ assertionPanics) :=
  ⟨fun e s _ _ hs h => ((exprTagged reg grow e s hs).of_ok h).1,
    fun els s _ _ hs h => ((doArray_tagged (elementsTagged reg grow els) s hs).of_ok h).2.1,
    fun sts s _ hs h => (doStatements_tagged reg grow sts s hs).of_ok h,
    fun sts s _ hs h => (doStatements_tagged reg grow sts s hs).of_error h⟩

/-- `[1, 2]`, evaluated from the start: a slice of two `int64`. -/
theorem doExpression_wellTagged_pair :
    (Evaluator.init : Evaluator Unit).scope.WellTagged ∧
    doArray (⟨[], []⟩ : Registry Unit) id
        (.mk [.literal (.integerLiteral 1), .literal (.integerLiteral 2)]) .init =
      .ok (⟨.tArray, .array (.mk .tInt (.int64s [1, 2]))⟩, .init) ∧
    ∃ t elements, (⟨.tArray, .array (.mk .tInt (.int64s [1, 2]))⟩ : Value) =
      ⟨.tArray, .array (.mk t elements)⟩ ∧ elements.length = 2 :=
  ⟨newScope_wellTagged, rfl,
    (doExpression_wellTagged (⟨[], []⟩ : Registry Unit) id).2.1 [.literal (.integerLiteral 1),
      .literal (.integerLiteral 2)] .init .init _ newScope_wellTagged rfl⟩

end Ifql
