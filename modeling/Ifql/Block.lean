import Mathlib.Data.List.Basic

/-!
# Blocks, columns and builders

The part of the `execute` package that the storage reader and the filter transformation work
through: column metadata, bounds and tags, the row reader a value iterator hands its callbacks, and
the block builder a transformation appends rows to. The package is not part of the sources; these
follow §3 of the specification and the way the sources use them.

A block's rows reach a transformation in chunks, one per callback of a value iterator. A chunk is
modelled by its rows, each row a list of cells, one per column; a `RowReader` accessor checks the
column's kind and the cell's Go type, as `checkColType` and the type assertion on the column buffer
do, and panics on either mismatch.

Main results:

* **`RowReader.at_ok`**: on a well-typed chunk every accessor of the right kind returns the cell.
* **`BlockBuilder.append_ok`**: an append of the column's kind adds the value to that column and
  leaves the others.
-/

namespace Ifql.Execute

/-- Modelled from the spec: `execute.DataType`, the kinds of columns. -/
inductive DataType where
  | tInvalid
  | tBool
  | tInt
  | tUInt
  | tFloat
  | tString
  | tTime
  deriving DecidableEq, Repr

/-- Modelled from the spec: `DataType.String()`. -/
def DataType.toString : DataType → String
  | .tInvalid => "invalid"
  | .tBool => "bool"
  | .tInt => "int"
  | .tUInt => "uint"
  | .tFloat => "float"
  | .tString => "string"
  | .tTime => "time"

/-- Modelled from the spec: `execute.ColMeta`. -/
structure ColMeta where
  label : String
  type : DataType
  isTag : Bool
  isCommon : Bool
  deriving DecidableEq, Repr

/-- Modelled from the spec: `execute.Bounds`, in nanoseconds. -/
structure Bounds where
  start : Int
  stop : Int
  deriving DecidableEq, Repr

/-- Modelled from the spec: `execute.Tags`, the tag map of a block. -/
abbrev Tags := String → Option String

/-- Go's panic on a slice index out of range. -/
def indexOutOfRange : String := "runtime error: index out of range"

/-- Modelled from the spec: `checkColType`, the panic of an accessor on a column of another kind. -/
def checkColType (col : ColMeta) (typ : DataType) : Except String Unit :=
  if col.type = typ then .ok ()
  else .error ("column " ++ col.label ++ " is not of type " ++ typ.toString)

/-- Go's `xs[i]`. -/
def index {α : Type} (xs : List α) (i : Nat) : Except String α :=
  match xs[i]? with
  | some x => .ok x
  | none => .error indexOutOfRange

@[simp] theorem index_eq_ok {α : Type} {xs : List α} {i : Nat} {x : α} :
    index xs i = .ok x ↔ xs[i]? = some x := by
  unfold index; cases xs[i]? <;> simp

/-! ### Cells and row readers -/

/-- Modelled from the spec: a value of a block's cell, of one of the kinds a column can hold;
floats are their IEEE-754 bits. -/
inductive Cell where
  | bool (v : Bool)
  | int (v : Int)
  | uint (v : Nat)
  | float (v : UInt64)
  | string (v : String)
  | time (v : Int)
  deriving DecidableEq, Repr

/-- The kind of a cell. -/
def Cell.type : Cell → DataType
  | .bool _ => .tBool
  | .int _ => .tInt
  | .uint _ => .tUInt
  | .float _ => .tFloat
  | .string _ => .tString
  | .time _ => .tTime

/-- Modelled from the spec: `execute.RowReader` on one chunk of a block: the block's columns and
the chunk's rows. -/
structure RowReader where
  cols : List ColMeta
  rows : List (List Cell)
  deriving DecidableEq, Repr

/-- Modelled from the spec: the accessors `AtBool`, `AtInt`, `AtUInt`, `AtFloat`, `AtString` and
`AtTime`, as one accessor taking the kind: check the column's kind, then assert the type of the
column's buffer. -/
def RowReader.at (rr : RowReader) (typ : DataType) (i j : Nat) : Except String Cell := do
  checkColType (← index rr.cols j) typ
  let v ← index (← index rr.rows i) j
  if v.type = typ then pure v
  else throw ("interface conversion: column " ++ toString j ++ " is not of type " ++ typ.toString)

/-- A chunk whose rows have one cell per column, each of its column's kind. -/
def RowReader.WellTyped (rr : RowReader) : Prop :=
  ∀ row ∈ rr.rows, row.map Cell.type = rr.cols.map ColMeta.type

instance (rr : RowReader) : Decidable rr.WellTyped :=
  inferInstanceAs (Decidable (∀ row ∈ rr.rows, row.map Cell.type = rr.cols.map ColMeta.type))

/-- Modelled from the spec: `ValueForRow`, row `i` of column `j` read with the accessor of the
column's kind. -/
def RowReader.valueForRow (rr : RowReader) (i j : Nat) : Except String Cell := do
  rr.at (← index rr.cols j).type i j

theorem RowReader.at_ok {rr : RowReader} (h : rr.WellTyped) {i j : Nat} {row : List Cell}
    {c : ColMeta} {v : Cell} (hrow : rr.rows[i]? = some row) (hc : rr.cols[j]? = some c)
    (hv : row[j]? = some v) : rr.at c.type i j = .ok v := by
  have htype : v.type = c.type := by
    have := congrArg (·[j]?) (h row (List.getElem?_mem hrow))
    simp only [List.getElem?_map, hv, hc, Option.map_some', Option.some.injEq] at this
    exact this
  simp [RowReader.at, index, hrow, hc, hv, checkColType, htype, bind, Except.bind, pure,
    Except.pure]

theorem RowReader.valueForRow_ok {rr : RowReader} (h : rr.WellTyped) {i j : Nat}
    {row : List Cell} {c : ColMeta} {v : Cell} (hrow : rr.rows[i]? = some row)
    (hc : rr.cols[j]? = some c) (hv : row[j]? = some v) : rr.valueForRow i j = .ok v := by
  simp only [RowReader.valueForRow, index, hc]
  exact RowReader.at_ok h hrow hc hv

theorem RowReader.length_row {rr : RowReader} (hwt : rr.WellTyped) {i : Nat} {row : List Cell}
    (hrow : rr.rows[i]? = some row) : row.length = rr.cols.length := by
  simpa using congrArg List.length (hwt row (List.getElem?_mem hrow))

/-! ### Block builders -/

/-- Modelled from the spec: a block builder, with its columns and the cells appended to each. The
value of a common column is held once, by the builder's key, and not per row. -/
structure BlockBuilder where
  cols : List ColMeta
  data : List (List Cell)
  deriving DecidableEq, Repr

/-- Modelled from the spec: `AddBlockCols`, which gives a new builder the block's columns. -/
def BlockBuilder.addBlockCols (cols : List ColMeta) (b : BlockBuilder) : BlockBuilder :=
  ⟨b.cols ++ cols, b.data ++ cols.map fun _ => []⟩

/-- Modelled from the spec: the appends `AppendBool` … `AppendTime`, as one taking the kind: check
the column's kind, and append to it. -/
def BlockBuilder.append (b : BlockBuilder) (typ : DataType) (j : Nat) (v : Cell) :
    Except String BlockBuilder := do
  checkColType (← index b.cols j) typ
  let col ← index b.data j
  pure { b with data := b.data.set j (col ++ [v]) }

theorem BlockBuilder.append_ok {b : BlockBuilder} {typ : DataType} {j : Nat} {v : Cell}
    {c : ColMeta} {d : List Cell} (hc : b.cols[j]? = some c) (ht : c.type = typ)
    (hd : b.data[j]? = some d) :
    b.append typ j v = .ok { b with data := b.data.set j (d ++ [v]) } := by
  simp [BlockBuilder.append, index, hc, hd, checkColType, ht, bind, Except.bind, pure, Except.pure]

end Ifql.Execute
