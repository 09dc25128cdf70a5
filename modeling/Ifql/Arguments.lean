import Ifql.Values

/-!
# Keyword arguments, the constructor context, and constructors

A function or method of the language is implemented by a `CreateOperationSpec`: a Go function that
receives the call's keyword arguments through the `Arguments` interface and the evaluator's
`context`, and returns an operation spec or an error. The interface is all a constructor sees of
the evaluator, so a constructor is modelled as a tree of requests over exactly that interface
(`Ctor`): each node asks one accessor, one context method, or the `Parent` of a chain it was
handed, and continues with the answer. Every deterministic Go constructor that uses only this
interface is such a tree.

The accessors of `arguments` are one body with parameters (`getWith`), the Go type assertion of
each member being its `conv`; `getArray` and `getTime` keep their own bodies, since the first checks
the element type a second time and the second converts instead of asserting.

A Go map has no order; `listUnused` reports the unused names in the order the arguments were
written, one of the orders Go may produce.
-/

namespace Ifql

/-- The failures of an evaluation: a Go `error` returned up the call stack, or a runtime panic. -/
inductive Failure where
  | error (msg : String)
  | panic (msg : String)
  deriving DecidableEq, Repr

/-- Go's `%q` on a string with nothing to escape. -/
def quote (s : String) : String := "\"" ++ s ++ "\""

/-- `scope`: the variables in scope (`map[string]Value`). -/
abbrev Scope := String → Option Value

/-- `newScope`. -/
def newScope : Scope := fun _ => none

/-- `scope.Set`. -/
def Scope.set (s : Scope) (name : String) (v : Value) : Scope := Function.update s name (some v)

/-- What an accessor hands back as its first result. -/
inductive Got where
  | string (value : String)
  | int (value : Int)
  | float (value : UInt64)
  | bool (value : Bool)
  | time (value : Query.Time)
  | duration (value : Int)
  | array (value : Array)
  | expression (value : Expr.Expression)
  | operationID (value : Query.OperationID)
  | none

/-- `arguments`: the keyword arguments of one call and the names asked for so far. -/
structure Arguments where
  params : List (String × Value)
  used : List String

/-- `newArguments`. -/
def newArguments (params : List (String × Value)) : Arguments := ⟨params, []⟩

/-- An accessor's answer: its typed result, whether the argument was given, and its error. -/
abbrev Answer := Got × Bool × Option String

namespace Arguments

/-- `arguments.get`. -/
def get (a : Arguments) (name : String) (typ : ValueType) (required : Bool) :
    (Value × Bool × Option String) × Arguments :=
  let a := { a with used := name :: a.used }
  match a.params.lookup name with
  | none =>
    ((Value.zero, false,
      if required then some ("missing required keyword argument " ++ quote name) else none), a)
  | some v =>
    if v.type = typ then ((v, true, none), a)
    else ((Value.zero, true, some ("keyword argument " ++ quote name ++ " should be of type " ++
      typ.toString ++ ", but got " ++ v.type.toString)), a)

/-- The body shared by the accessors that go through `get`: the zero value `zero` on an error or an
absent argument, otherwise the argument through the type assertion `conv`, whose failure panics.
(The `Required` members test only the error, which `get` sets whenever a required argument is
absent.) -/
def getWith (a : Arguments) (name : String) (typ : ValueType) (required : Bool) (zero : Got)
    (conv : Dynamic → Option Got) : Except String (Answer × Arguments) :=
  match a.get name typ required with
  | ((v, ok, err), a) =>
    if err.isSome || !ok then .ok ((zero, ok, err), a)
    else match conv v.value with
      | some g => .ok ((g, ok, none), a)
      | none => .error "interface conversion: interface \x7b\x7d is not of the asserted type"

/-- `v.Value.(string)`. -/
def asString : Dynamic → Option Got
  | .string s => some (.string s)
  | _ => none

/-- `v.Value.(int64)`. -/
def asInt : Dynamic → Option Got
  | .int64 i => some (.int i)
  | _ => none

/-- `v.Value.(float64)`. -/
def asFloat : Dynamic → Option Got
  | .float64 f => some (.float f)
  | _ => none

/-- `v.Value.(bool)`. -/
def asBool : Dynamic → Option Got
  | .bool b => some (.bool b)
  | _ => none

/-- `query.Duration(v.Value.(time.Duration))`. -/
def asDuration : Dynamic → Option Got
  | .duration d => some (.duration d)
  | _ => none

/-- `v.Value.(expression.Expression)`. -/
def asExpression : Dynamic → Option Got
  | .expression e => some (.expression e)
  | _ => none

/-- `GetString`. -/
def getString (a : Arguments) (name : String) := a.getWith name .tString false (.string "") asString
/-- `GetRequiredString`. -/
def getRequiredString (a : Arguments) (name : String) :=
  a.getWith name .tString true (.string "") asString
/-- `GetInt`. -/
def getInt (a : Arguments) (name : String) := a.getWith name .tInt false (.int 0) asInt
/-- `GetRequiredInt`. -/
def getRequiredInt (a : Arguments) (name : String) := a.getWith name .tInt true (.int 0) asInt
/-- `GetFloat`. -/
def getFloat (a : Arguments) (name : String) := a.getWith name .tFloat false (.float 0) asFloat
/-- `GetRequiredFloat`. -/
def getRequiredFloat (a : Arguments) (name : String) :=
  a.getWith name .tFloat true (.float 0) asFloat
/-- `GetBool`. -/
def getBool (a : Arguments) (name : String) := a.getWith name .tBool false (.bool false) asBool
/-- `GetRequiredBool`. -/
def getRequiredBool (a : Arguments) (name : String) :=
  a.getWith name .tBool true (.bool false) asBool
/-- `GetDuration`. -/
def getDuration (a : Arguments) (name : String) :=
  a.getWith name .tDuration false (.duration 0) asDuration
/-- `GetRequiredDuration`. -/
def getRequiredDuration (a : Arguments) (name : String) :=
  a.getWith name .tDuration true (.duration 0) asDuration
/-- `GetExpression`. -/
def getExpression (a : Arguments) (name : String) :=
  a.getWith name .tExpression false (.expression ⟨none, []⟩) asExpression
/-- `GetRequiredExpression`. -/
def getRequiredExpression (a : Arguments) (name : String) :=
  a.getWith name .tExpression true (.expression ⟨none, []⟩) asExpression

/-- The zero `Array{}`. -/
def zeroArray : Array := .mk .tInvalid .nil

/-- `GetArray` (`required = false`) and `GetRequiredArray` (`required = true`): after `get`, the
array's own element tag must be `t`. -/
def getArrayWith (a : Arguments) (name : String) (t : ValueType) (required : Bool) :
    Except String (Answer × Arguments) :=
  match a.get name .tArray required with
  | ((v, ok, err), a) =>
    if err.isSome || !ok then .ok ((.array zeroArray, ok, err), a)
    else match v.value with
      | .array arr =>
        if arr.type = t then .ok ((.array arr, ok, none), a)
        else .ok ((.array zeroArray, true, some ("keyword argument " ++ quote name ++
          " should be of an array of type " ++ t.toString ++ ", but got an array of type " ++
          arr.type.toString)), a)
      | _ => .error "interface conversion: interface \x7b\x7d is not ifql.Array"

/-- `GetArray`. -/
def getArray (a : Arguments) (name : String) (t : ValueType) := a.getArrayWith name t false
/-- `GetRequiredArray`. -/
def getRequiredArray (a : Arguments) (name : String) (t : ValueType) := a.getArrayWith name t true

/-- `ToQueryTime`. -/
def toQueryTime (v : Value) : Except String Query.Time :=
  match v.value with
  | .time t => .ok ⟨t, 0, false⟩
  | .duration d => .ok ⟨0, d, true⟩
  | .int64 i => .ok ⟨i * 1000000000, 0, false⟩
  | _ => .error ("value is not a time, got " ++ v.type.toString)

/-- `GetTime`: marks the name used and converts whatever was given. -/
def getTime (a : Arguments) (name : String) : Answer × Arguments :=
  let a := { a with used := name :: a.used }
  match a.params.lookup name with
  | none => ((.time ⟨0, 0, false⟩, false, none), a)
  | some v =>
    match toQueryTime v with
    | .ok qt => ((.time qt, true, none), a)
    | .error e => ((.time ⟨0, 0, false⟩, true, some e), a)

/-- `GetRequiredTime`. -/
def getRequiredTime (a : Arguments) (name : String) : Answer × Arguments :=
  match a.getTime name with
  | ((g, ok, err), a) =>
    if err.isSome then ((.time ⟨0, 0, false⟩, ok, err), a)
    else if !ok then ((.time ⟨0, 0, false⟩, ok,
      some ("missing required keyword argument " ++ quote name)), a)
    else ((g, ok, none), a)

/-- `listUnused`. -/
def listUnused (a : Arguments) : List String :=
  (a.params.map Prod.fst).filter (· ∉ a.used)

end Arguments

/-- `context.AdditionalParent`: record `id` unless it is recorded already. -/
def additionalParent (parents : List Query.OperationID) (id : Query.OperationID) :
    List Query.OperationID :=
  if id ∈ parents then parents else parents ++ [id]

/-- `context.LookupIDFromIdentifier`: the tail of the chain a variable holds. -/
def lookupIDFromIdentifier (scope : Scope) (chains : Heap CallChain) (ident : String) :
    Except String Answer :=
  match scope ident with
  | none => .ok (.operationID "", false, some ("unknown identifier " ++ quote ident))
  | some v =>
    if v.type ≠ .tChain then
      .ok (.operationID "", false, some ("identifier not a function chain " ++ quote ident ++
        ", got " ++ v.type.toString))
    else match v.value with
      | .chain c => .ok (.operationID (chains.cells c).parent, true, none)
      | _ => .error "interface conversion: interface \x7b\x7d is not *ifql.CallChain"

/-- What a constructor can ask: an accessor of `Arguments`, a method of the context, or the
`Parent` of a chain it holds. -/
inductive Request where
  | getString (name : String)
  | getRequiredString (name : String)
  | getInt (name : String)
  | getRequiredInt (name : String)
  | getFloat (name : String)
  | getRequiredFloat (name : String)
  | getBool (name : String)
  | getRequiredBool (name : String)
  | getTime (name : String)
  | getRequiredTime (name : String)
  | getDuration (name : String)
  | getRequiredDuration (name : String)
  | getArray (name : String) (t : ValueType)
  | getRequiredArray (name : String) (t : ValueType)
  | getExpression (name : String)
  | getRequiredExpression (name : String)
  | lookupIDFromIdentifier (ident : String)
  | additionalParent (id : Query.OperationID)
  | chainParent (chain : Nat)

/-- `CreateOperationSpec`: a constructor as the tree of its requests, ending in a spec or an
error. -/
inductive Ctor (Spec : Type) where
  | request (r : Request) (k : Got → Bool → Option String → Ctor Spec)
  | done (result : Except String Spec)

/-- The state a constructor's requests change: its arguments' `used` set and the context's
`parents`. -/
structure CtorState where
  args : Arguments
  parents : List Query.OperationID

/-- Serve one request; the error of the outer `Except` is a panic. -/
def perform (scope : Scope) (chains : Heap CallChain) (st : CtorState) :
    Request → Except String (Answer × CtorState)
  | .getString n => withArgs (st.args.getString n)
  | .getRequiredString n => withArgs (st.args.getRequiredString n)
  | .getInt n => withArgs (st.args.getInt n)
  | .getRequiredInt n => withArgs (st.args.getRequiredInt n)
  | .getFloat n => withArgs (st.args.getFloat n)
  | .getRequiredFloat n => withArgs (st.args.getRequiredFloat n)
  | .getBool n => withArgs (st.args.getBool n)
  | .getRequiredBool n => withArgs (st.args.getRequiredBool n)
  | .getTime n => withArgs (.ok (st.args.getTime n))
  | .getRequiredTime n => withArgs (.ok (st.args.getRequiredTime n))
  | .getDuration n => withArgs (st.args.getDuration n)
  | .getRequiredDuration n => withArgs (st.args.getRequiredDuration n)
  | .getArray n t => withArgs (st.args.getArray n t)
  | .getRequiredArray n t => withArgs (st.args.getRequiredArray n t)
  | .getExpression n => withArgs (st.args.getExpression n)
  | .getRequiredExpression n => withArgs (st.args.getRequiredExpression n)
  | .lookupIDFromIdentifier ident => (lookupIDFromIdentifier scope chains ident).map (·, st)
  | .additionalParent id => .ok ((.none, true, none), { st with parents := additionalParent st.parents id })
  | .chainParent c => .ok ((.operationID (chains.cells c).parent, true, none), st)
where
  withArgs : Except String (Answer × Arguments) → Except String (Answer × CtorState)
    | .ok (ans, a) => .ok (ans, { st with args := a })
    | .error p => .error p

/-- Run a constructor to its result; the error of the outer `Except` is a panic. -/
def runCtor {Spec : Type} (scope : Scope) (chains : Heap CallChain) :
    Ctor Spec → CtorState → Except String (Except String Spec × CtorState)
  | .done r, st => .ok (r, st)
  | .request r k, st =>
    match perform scope chains st r with
    | .ok ((g, ok, err), st') => runCtor scope chains (k g ok err) st'
    | .error p => .error p

/-- The two registries `functionsMap` and `methodMap`. -/
structure Registry (Spec : Type) where
  functions : List (String × Ctor Spec)
  methods : List (String × Ctor Spec)

/-- `RegisterFunction`: a second registration of one name panics. -/
def Registry.registerFunction {Spec : Type} (reg : Registry Spec) (name : String) (c : Ctor Spec) :
    Except String (Registry Spec) :=
  if (reg.functions.lookup name).isSome then
    .error ("duplicate registration for function " ++ quote name)
  else .ok { reg with functions := (name, c) :: reg.functions }

/-- `RegisterMethod`. -/
def Registry.registerMethod {Spec : Type} (reg : Registry Spec) (name : String) (c : Ctor Spec) :
    Except String (Registry Spec) :=
  if (reg.methods.lookup name).isSome then
    .error ("duplicate registration for method " ++ quote name)
  else .ok { reg with methods := (name, c) :: reg.methods }

/-! ### What a constructor's requests change

An accessor marks the name it asks for as used, and the context methods change the parents; no
request changes the parameters, so `listUnused` at the end compares the names of the call's
arguments with every name asked for. -/

namespace Arguments

variable {a : Arguments} {name : String}

theorem get_params (a : Arguments) (name : String) (typ : ValueType) (required : Bool) :
    (a.get name typ required).2.params = a.params := by
  dsimp only [get]
  rcases a.params.lookup name with _ | v
  · rfl
  · dsimp only
    split <;> rfl

theorem getWith_params {typ : ValueType} {required : Bool} {zero : Got}
    {conv : Dynamic → Option Got} {r : Answer × Arguments}
    (h : a.getWith name typ required zero conv = .ok r) : r.2.params = a.params := by
  have hp := get_params a name typ required
  unfold getWith at h
  rcases hg : a.get name typ required with ⟨⟨v, ok, err⟩, a'⟩
  rw [hg] at h hp
  dsimp only at h
  split at h
  · cases h; exact hp
  · split at h <;> cases h; exact hp

theorem getArrayWith_params {t : ValueType} {required : Bool} {r : Answer × Arguments}
    (h : a.getArrayWith name t required = .ok r) : r.2.params = a.params := by
  have hp := get_params a name .tArray required
  unfold getArrayWith at h
  rcases hg : a.get name .tArray required with ⟨⟨v, ok, err⟩, a'⟩
  rw [hg] at h hp
  dsimp only at h
  split at h
  · cases h; exact hp
  · split at h
    · split at h <;> cases h <;> exact hp
    · cases h

/-- `GetTime` keeps the parameters. -/
theorem getTime_params (a : Arguments) (name : String) : (a.getTime name).2.params = a.params := by
  dsimp only [getTime]
  split <;> (try split) <;> rfl

/-- `GetRequiredTime` keeps the parameters. -/
theorem getRequiredTime_params (a : Arguments) (name : String) :
    (a.getRequiredTime name).2.params = a.params := by
  unfold getRequiredTime
  rw [← getTime_params a name]
  split
  rename_i h
  rw [h]
  split <;> (try split) <;> rfl

end Arguments

section Requests

variable {scope : Scope} {chains : Heap CallChain} {st st' : CtorState}

theorem perform_withArgs_eq {x : Except String (Answer × Arguments)} {ans : Answer}
    (h : perform.withArgs st x = .ok (ans, st')) : ∃ a, x = .ok (ans, a) ∧ st' = { st with args := a } := by
  rcases x with _ | ⟨ans', a⟩
  · cases h
  · cases h; exact ⟨a, rfl, rfl⟩

/-- No request changes the parameters. -/
theorem perform_params {r : Request} {ans : Answer} (h : perform scope chains st r = .ok (ans, st')) :
    st'.args.params = st.args.params := by
  cases r <;> simp only [perform] at h
  case lookupIDFromIdentifier ident =>
    rcases hl : lookupIDFromIdentifier scope chains ident with _ | _ <;> rw [hl] at h <;> cases h
    rfl
  case additionalParent id => cases h; rfl
  case chainParent c => cases h; rfl
  case getTime n =>
    obtain ⟨a, hx, rfl⟩ := perform_withArgs_eq h
    have hp := Arguments.getTime_params st.args n
    rwa [Except.ok.inj hx] at hp
  case getRequiredTime n =>
    obtain ⟨a, hx, rfl⟩ := perform_withArgs_eq h
    have hp := Arguments.getRequiredTime_params st.args n
    rwa [Except.ok.inj hx] at hp
  all_goals
    obtain ⟨a, hx, rfl⟩ := perform_withArgs_eq h
    first
      | exact Arguments.getWith_params hx
      | exact Arguments.getArrayWith_params hx

/-- A constructor's run leaves the parameters as they were. -/
theorem runCtor_params {Spec : Type} :
    ∀ {ctor : Ctor Spec} {st st' : CtorState} {res : Except String Spec},
      runCtor scope chains ctor st = .ok (res, st') → st'.args.params = st.args.params
  | .done _, _, _, _, h => by cases h; rfl
  | .request r k, st, _, _, h => by
    simp only [runCtor] at h
    rcases hp : perform scope chains st r with _ | ⟨⟨g, ok, err⟩, st1⟩ <;> rw [hp] at h
    · cases h
    · exact (runCtor_params h).trans (perform_params hp)

end Requests

end Ifql
