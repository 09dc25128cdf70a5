import Ifql.PushDown
import Ifql.Block
import Ifql.Arguments

/-!
# The select source

`functions/select.go`: the `select` function's operation spec, its procedure spec, and
`createSelectSource`, which turns the procedure spec into the storage source: the read spec, the
bounds, the window and the time at which the first window closes. With `Read` of the storage
reader (`unnamed/part_000`), which builds the request the storage service receives, this is the
path from a query's `select(db: ...)` to the request.

`createSelectOpSpec` takes its arguments as a map, not through `Arguments`, so it is modelled on
the map it reads and not as a constructor of the evaluator's registry. The context's
`ResolveTime` is not part of the sources: it is a parameter, the instant it gives a `query.Time`.
Go's int64 arithmetic wraps; `int64` is that wrap.

Main result:

* **`createSelectSource_min_start_wraps`**: without a window, the window's length is the int64
  difference of the resolved stop and start; with bounds `[MinInt64, 0)` that difference does not
  fit in an int64, and the length wraps to a negative one.
-/

namespace Ifql.Select

open Execute Plan

/-- `math.MinInt64`. -/
def minInt64 : Int := -9223372036854775808

/-- `math.MaxInt64`. -/
def maxInt64 : Int := 9223372036854775807

/-- Go's int64 arithmetic: the two's-complement wrap of an integer, modulo `2^64` into
`[minInt64, maxInt64]`. -/
def int64 (x : Int) : Int := x.bmod 18446744073709551616

/-! ### The operation and procedure specs -/

/-- `SelectOpSpec`. -/
structure SelectOpSpec where
  database : String
  deriving DecidableEq, Repr

/-- `createSelectOpSpec`: the `db` argument, which must be a string. A `db` tagged a string whose
value is not one panics at the type assertion. -/
def createSelectOpSpec (args : List (String × Value)) : Except Failure SelectOpSpec :=
  match args.lookup "db" with
  | none => .error (.error "select function requires the \"db\" argument")
  | some dbValue =>
    if dbValue.type ≠ .tString then
      .error (.error ("select function \"db\" argument must be a string, got " ++
        dbValue.type.toString))
    else match dbValue.value with
      | .string db => .ok ⟨db⟩
      | _ => .error (.panic "interface conversion: interface \x7b\x7d is not string")

/-- Modelled from the spec: `plan.WindowSpec`. -/
structure WindowSpec where
  every : Int
  period : Int
  round : Int
  start : Query.Time
  deriving DecidableEq, Repr

/-- `SelectProcedureSpec`. The `Where` predicate, which `createSelectSource` only passes on, is of
the type parameter `Pred`. -/
structure SelectProcedureSpec (Pred : Type) where
  database : String
  boundsSet : Bool
  bounds : BoundsSpec
  whereSet : Bool
  predicate : Option Pred
  descendingSet : Bool
  descending : Bool
  limitSet : Bool
  limit : Int
  offset : Int
  windowSet : Bool
  window : WindowSpec
  deriving DecidableEq, Repr

/-- Modelled from the spec: the zero `query.Time`. -/
def zeroTime : Query.Time := ⟨0, 0, false⟩

/-- `new(SelectProcedureSpec)`. -/
def SelectProcedureSpec.zero (Pred : Type) : SelectProcedureSpec Pred :=
  ⟨"", false, ⟨zeroTime, zeroTime⟩, false, none, false, false, false, 0, 0, false,
    ⟨0, 0, 0, zeroTime⟩⟩

/-- Modelled from the spec: `query.OperationSpec`, as far as `newSelectProcedure` tells its dynamic
types apart. -/
inductive OperationSpec where
  | select (s : SelectOpSpec)
  | other (goType : String)
  deriving DecidableEq, Repr

/-- `newSelectProcedure`: a fresh procedure spec with the operation's database. -/
def newSelectProcedure (Pred : Type) : OperationSpec → Except String (SelectProcedureSpec Pred)
  | .select spec => .ok { SelectProcedureSpec.zero Pred with database := spec.database }
  | .other t => .error ("invalid spec type " ++ t)

/-! ### The source -/

/-- Modelled from the spec: `execute.Window`. -/
structure Window where
  every : Int
  period : Int
  round : Int
  start : Int
  deriving DecidableEq, Repr

/-- `ReadSpec` (`unnamed/part_000`). -/
structure ReadSpec (Pred : Type) where
  database : String
  predicate : Option Pred
  limit : Int
  descending : Bool
  deriving DecidableEq, Repr

/-- Modelled from the spec: the arguments `createSelectSource` gives `execute.NewStorageSource`
besides the id and the reader. -/
structure StorageSource (Pred : Type) where
  readSpec : ReadSpec Pred
  bounds : Bounds
  window : Window
  currentTime : Int
  deriving DecidableEq, Repr

/-- Modelled from the spec: `execute.Context`, of which `createSelectSource` uses `ResolveTime`,
the instant of a `query.Time` in nanoseconds. -/
structure Context where
  resolveTime : Query.Time → Int

/-- Modelled from the spec: `plan.ProcedureSpec`, as far as `createSelectSource` tells its dynamic
types apart. -/
inductive ProcedureSpec (Pred : Type) where
  | select (s : SelectProcedureSpec Pred)
  | other (goType : String)

/-- The panic of the type assertion `prSpec.(*SelectProcedureSpec)` on a spec of Go type `t`. -/
def notSelectSpec (t : String) : String :=
  "interface conversion: plan.ProcedureSpec is " ++ t ++ ", not *functions.SelectProcedureSpec"

variable {Pred : Type}

/-- `createSelectSource`; the error is a panic. -/
def createSelectSource (prSpec : ProcedureSpec Pred) (ctx : Context) :
    Except String (StorageSource Pred) :=
  match prSpec with
  | .other t => .error (notSelectSpec t)
  | .select spec =>
    let w : Window :=
      if spec.windowSet then
        ⟨spec.window.every, spec.window.period, spec.window.round,
          ctx.resolveTime spec.window.start⟩
      else
        let duration :=
          int64 (ctx.resolveTime spec.bounds.stop - ctx.resolveTime spec.bounds.start)
        ⟨duration, duration, 0, ctx.resolveTime spec.bounds.start⟩
    let currentTime := int64 (w.start + w.period)
    .ok ⟨⟨spec.database, spec.predicate, spec.limit, spec.descending⟩,
      ⟨ctx.resolveTime spec.bounds.start, ctx.resolveTime spec.bounds.stop⟩, w, currentTime⟩

/-- Bounds `[MinInt64, 0)`, resolved as given: the true length of the window, `0 - MinInt64`, is
one past the largest int64, and the window's every and period wrap to `MinInt64`, a negative
duration; the first close is still the stop. -/
theorem createSelectSource_min_start_wraps :
    createSelectSource (.select { SelectProcedureSpec.zero Unit with
        bounds := ⟨⟨minInt64, 0, false⟩, zeroTime⟩ }) ⟨Query.Time.absolute⟩ =
      .ok ⟨⟨"", none, 0, false⟩, ⟨minInt64, 0⟩, ⟨minInt64, minInt64, 0, minInt64⟩, 0⟩ ∧
    0 - minInt64 = maxInt64 + 1 :=
  ⟨rfl, rfl⟩

/-! ### The request -/

/-- Modelled from the spec: the fields of `storage.ReadRequest` that `Read` sets. -/
structure ReadRequest (Pred : Type) where
  database : String
  predicate : Option Pred
  descending : Bool
  start : Int
  stop : Int
  deriving DecidableEq, Repr

/-- The request `storageReader.Read` sends for `readSpec` over `[start, stop)`: its line setting the
limit is commented out. -/
def readRequest (readSpec : ReadSpec Pred) (start stop : Int) : ReadRequest Pred :=
  ⟨readSpec.database, readSpec.predicate, readSpec.descending, start, stop⟩

end Ifql.Select
