import Ifql.Values

/-!
# Pushing a filter into its source

`FilterProcedureSpec.PushDown` (`functions/filter.go`) is how the planner absorbs a `filter`
procedure into the `from` procedure at the root of its branch, so that the source reads only the
rows the filter's function accepts. When the root has absorbed a filter already, the planner's `dup`
gives a copy of the root, with a fresh id, for this branch: the copy is made after the earlier
push-down, so it carries the other branch's filter.

The planner and `FromProcedureSpec` are not part of the sources. The fields of `FromProcedureSpec`
are the ones the push-down tests build, and `dup` is given by the spec of the procedure it returns.
`PushDown` copies the filter's function pointer and never looks inside it, so its type `Fn` is a
parameter; what a source and a filter let through is given by `holds`, an evaluation of functions
on rows.

Main results:

* **`pushDown_from`**: on a root with no filter, `PushDown` installs the function, and the root then
  reads exactly the rows the function passes; on a root with a filter, the root is left as it is and
  the copy gets its filter cleared and the function is never installed, so the copy reads every row.
-/

namespace Ifql.Plan

/-- Modelled from the spec: `plan.BoundsSpec`. -/
structure BoundsSpec where
  start : Query.Time
  stop : Query.Time
  deriving DecidableEq, Repr

/-- Modelled from the spec: `FromProcedureSpec`, with the fields the push-down tests set; the
`Filter` pointer is `none` when `nil`. -/
structure FromProcedureSpec (Fn : Type) where
  database : String
  boundsSet : Bool
  bounds : BoundsSpec
  filterSet : Bool
  filter : Option Fn
  deriving DecidableEq, Repr

/-- `FilterProcedureSpec`: the filter's arrow function, `none` when `nil`. -/
structure FilterProcedureSpec (Fn : Type) where
  f : Option Fn
  deriving DecidableEq, Repr

/-- Modelled from the spec: `plan.ProcedureSpec`, as far as `PushDown` tells its dynamic types
apart: a `*FromProcedureSpec`, or a spec of another Go type. -/
inductive ProcedureSpec (Fn : Type) where
  | fromSpec (s : FromProcedureSpec Fn)
  | other (goType : String)
  deriving DecidableEq, Repr

/-- Modelled from the spec: `plan.PushDownRule`, by the kind names of the procedures. -/
structure PushDownRule where
  root : String
  through : List String
  deriving DecidableEq, Repr

/-- `FilterProcedureSpec.PushDownRule`: a filter moves into a `from` through `group`, `limit` and
`range`. -/
def pushDownRule : PushDownRule := ⟨"from", ["group", "limit", "range"]⟩

variable {Fn : Type}

/-- The panic of the type assertion `root.Spec.(*FromProcedureSpec)` on a spec of Go type `t`. -/
def notFromSpec (t : String) : String :=
  "interface conversion: plan.ProcedureSpec is " ++ t ++ ", not *functions.FromProcedureSpec"

/-- `PushDown`: the spec of the root afterwards and, when `dup` was called, the spec of the
procedure it returned, where `dup` is that spec as `dup` made it. The error is a panic. -/
def FilterProcedureSpec.pushDown (s : FilterProcedureSpec Fn) (root dup : ProcedureSpec Fn) :
    Except String (ProcedureSpec Fn × Option (ProcedureSpec Fn)) :=
  match root with
  | .other t => .error (notFromSpec t)
  | .fromSpec selectSpec =>
    if selectSpec.filterSet then
      match dup with
      | .other t => .error (notFromSpec t)
      | .fromSpec d => .ok (root, some (.fromSpec { d with filterSet := false, filter := none }))
    else .ok (.fromSpec { selectSpec with filterSet := true, filter := s.f }, none)

/-! ### What a source reads -/

section Semantics

variable {Row : Type} (holds : Fn → Row → Bool)

/-- Modelled from the spec: a filter's function passes a row when it holds of it; a `nil` function
passes every row. -/
def passes (f : Option Fn) (r : Row) : Bool := f.all (holds · r)

/-- Modelled from the spec: a `from` source reads a row of its bounds when it has no filter, or its
filter passes the row. -/
def FromProcedureSpec.admits (spec : FromProcedureSpec Fn) (r : Row) : Bool :=
  !spec.filterSet || passes holds spec.filter r

/-- Both cases of `PushDown` on a `from` root, with `dup` copying the root. A root with no filter
absorbs `s.F` and `dup` is not called; the root then reads exactly the rows `s.F` passes. A root with
a filter is left as it is, and the copy gets `FilterSet` false and `Filter` nil, with `s.F` nowhere:
the copy reads every row. -/
theorem pushDown_from (s : FilterProcedureSpec Fn) (s0 : FromProcedureSpec Fn) :
    (s0.filterSet = false →
      s.pushDown (.fromSpec s0) (.fromSpec s0) =
          .ok (.fromSpec { s0 with filterSet := true, filter := s.f }, none) ∧
        ∀ r : Row, FromProcedureSpec.admits holds { s0 with filterSet := true, filter := s.f } r =
          passes holds s.f r) ∧
    (s0.filterSet = true →
      s.pushDown (.fromSpec s0) (.fromSpec s0) =
          .ok (.fromSpec s0, some (.fromSpec { s0 with filterSet := false, filter := none })) ∧
        ∀ r : Row,
          FromProcedureSpec.admits holds { s0 with filterSet := false, filter := none } r) := by
  constructor <;> intro h <;> simp [FilterProcedureSpec.pushDown, FromProcedureSpec.admits, h]

end Semantics

/-- The branch of the push-down test: the root has absorbed filter `A`, and filter `B` arrives. -/
def filteredRoot : FromProcedureSpec String :=
  ⟨"mydb", true, ⟨⟨0, 0, false⟩, ⟨0, 0, true⟩⟩, true, some "A"⟩

/-- The root of the push-down test before any filter arrives. -/
def unfilteredRoot : FromProcedureSpec String :=
  { filteredRoot with filterSet := false, filter := none }

/-- The push-down test's two steps, with a filter passing the rows equal to its function: `A` moves
into the root, then `B` leaves a copy with no filter. -/
theorem pushDown_from_branch :
    ((⟨some "A"⟩ : FilterProcedureSpec String).pushDown (.fromSpec unfilteredRoot)
          (.fromSpec unfilteredRoot) = .ok (.fromSpec filteredRoot, none) ∧
        ∀ r, filteredRoot.admits (· == ·) r = ("A" == r)) ∧
      ((⟨some "B"⟩ : FilterProcedureSpec String).pushDown (.fromSpec filteredRoot)
          (.fromSpec filteredRoot) = .ok (.fromSpec filteredRoot, some (.fromSpec unfilteredRoot)) ∧
        ∀ r, unfilteredRoot.admits (· == ·) r) :=
  ⟨(pushDown_from (· == ·) ⟨some "A"⟩ unfilteredRoot).1 rfl,
    (pushDown_from (· == ·) ⟨some "B"⟩ filteredRoot).2 rfl⟩

/-- The second push-down of the test: the copy for `B`'s branch ends with no filter, not with `B`. -/
theorem pushDown_second_filter_dropped :
    (⟨some "B"⟩ : FilterProcedureSpec String).pushDown (.fromSpec filteredRoot)
        (.fromSpec filteredRoot) =
      .ok (.fromSpec filteredRoot, some (.fromSpec ⟨"mydb", true, ⟨⟨0, 0, false⟩, ⟨0, 0, true⟩⟩,
        false, none⟩)) :=
  rfl

end Ifql.Plan
