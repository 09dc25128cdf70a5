import Ifql.Block

/-!
# The filter transformation

`filterTransformation.Process` (`functions/filter.go`) appends to the output builder the rows of a
block on which the filter's compiled expression holds. Before the rows it prepares the scope: each
column whose label is a property the function references is recorded in `scopeCols`, the value
column under `_value`. It then picks the expression compiled for the kind of the value column, and
drains `Times()` with `DoTime`: for each row of each chunk it binds every referenced property to the
row's cell in the recorded column, evaluates, and on `true` appends the row's cells to every column
that is not common.

The transformation keeps `scope` and `scopeCols` from one block to the next, as the source does, so
`Process` is a step of a state machine. The expression compiler and the builder cache are not part
of the sources: a compiled expression is given by its boolean evaluation, and the builder the cache
returns for the block is an argument, with the flag that says it is new.

Main results:

* **`fillScope_spec`**: after the property loop, every referenced property is bound to its column's
  cell in the row, and the other entries of the scope are unchanged.
* **`appendRowCols_spec`**: the column loop appends the row's cell to every column that is not
  common, and nothing to the common ones.
* **`processRows_spec`**: the row loop over a chunk appends exactly the rows that pass, in order.
* **`process_appends_passing_rows`**: hence `Process` appends exactly the passing rows of the block.
* **`process_panics_on_admitted_blocks`**: a block with only a time column panics at `cols[-1]`, and
  a value kind with no compiled expression at a nil dereference, not with an error.
* **`process_depends_on_history`**: a block that passes alone panics after a block that recorded a
  column it lacks, since `scopeCols` is never cleared.
-/

namespace Ifql.Filter

open Execute

/-- Modelled from the spec: `execute.ObjectProperty`, a reference `object.property` in the
function's body. -/
structure ObjectProperty where
  object : String
  property : String
  deriving DecidableEq, Repr

/-- Modelled from the spec: `execute.Scope`, the values bound to the referenced properties. -/
abbrev Scope := ObjectProperty → Option Cell

/-- Modelled from the spec: `execute.CompiledExpression`, by its result type and its boolean
evaluation `EvalBool`, which returns whether the row passes and an error. -/
structure CompiledExpression where
  type : DataType
  evalBool : Scope → Bool × Option String

/-- `expressionOrError`; `none` stands for a `nil` error or expression. -/
structure ExpressionOrError where
  err : Option String
  expr : Option CompiledExpression

/-- `filterTransformation`, without the dataset and the cache; `scopeCols` and `ces` are Go maps,
`none` for a key that is absent. -/
structure FilterTransformation where
  properties : List ObjectProperty
  scope : Scope
  scopeCols : String → Option Int
  ces : DataType → Option ExpressionOrError

/-- Modelled from the spec: a block as `Process` reads it: its columns, and its rows in the
chunks `DoTime` delivers them in. -/
structure Block where
  cols : List ColMeta
  chunks : List (List (List Cell))

/-- Modelled from the spec: `ValueColLabel`. -/
def valueColLabel : String := "_value"

/-- Modelled from the spec: `ValueIdx`, the index of the first column labelled `_value`, or `-1`. -/
def valueIdx (cols : List ColMeta) : Int :=
  match cols.findIdx? (·.label = valueColLabel) with
  | some j => j
  | none => -1

/-- Go's `xs[i]` at an `int` index. -/
def indexInt {α : Type} (xs : List α) (i : Int) : Except String α :=
  if i < 0 then .error indexOutOfRange else index xs i.toNat

/-- The panic of `PanicUnknownType`. -/
def unknownType (t : DataType) : String := "unknown type " ++ t.toString

/-- The panic of a method call on a `nil` interface. -/
def nilDereference : String := "runtime error: invalid memory address or nil pointer dereference"

/-! ### One block -/

/-- The loop preparing the scope: record the column of each referenced property, and the value
column under `_value`. -/
def prepareScopeCols (props : List ObjectProperty) (vIdx : Int) :
    Nat → List ColMeta → (String → Option Int) → String → Option Int
  | _, [], sc => sc
  | j, c :: cs, sc =>
    prepareScopeCols props vIdx (j + 1) cs
      (if c.label = valueColLabel then Function.update sc "_value" (some vIdx)
       else if props.any (·.property = c.label) then Function.update sc c.label (some j)
       else sc)

/-- The property loop of a row: `scope[op] = ValueForRow(i, scopeCols[op.Property], rr)`. -/
def fillScope (rr : RowReader) (i : Nat) (scopeCols : String → Option Int) :
    List ObjectProperty → Scope → Except String Scope
  | [], scope => .ok scope
  | op :: ops, scope => do
    let j := (scopeCols op.property).getD 0
    let v ← if j < 0 then throw indexOutOfRange else rr.valueForRow i j.toNat
    fillScope rr i scopeCols ops (Function.update scope op (some v))

/-- One case of the append switch: the accessor and the append of the column's kind. -/
def appendCell (rr : RowReader) (i j : Nat) (c : ColMeta) (builder : BlockBuilder) :
    Except String BlockBuilder :=
  match c.type with
  | .tBool => do builder.append .tBool j (← rr.at .tBool i j)
  | .tInt => do builder.append .tInt j (← rr.at .tInt i j)
  | .tUInt => do builder.append .tUInt j (← rr.at .tUInt i j)
  | .tFloat => do builder.append .tFloat j (← rr.at .tFloat i j)
  | .tString => do builder.append .tString j (← rr.at .tString i j)
  | .tTime => do builder.append .tTime j (← rr.at .tTime i j)
  | t => throw (unknownType t)

/-- The column loop of a passing row: append its cell to every column that is not common. -/
def appendRowCols (rr : RowReader) (i : Nat) :
    Nat → List ColMeta → BlockBuilder → Except String BlockBuilder
  | _, [], builder => .ok builder
  | j, c :: cs, builder => do
    let builder ← if c.isCommon then pure builder else appendCell rr i j c builder
    appendRowCols rr i (j + 1) cs builder

/-- The `DoTime` callback's loop over the rows `i, i+1, …` of a chunk, carrying the scope and
the builder. -/
def processRows (props : List ObjectProperty) (scopeCols : String → Option Int)
    (ce : Option CompiledExpression) (rr : RowReader) :
    Nat → List (List Cell) → Scope × BlockBuilder → Except String (Scope × BlockBuilder)
  | _, [], st => .ok st
  | i, _ :: rows, (scope, builder) => do
    let scope ← fillScope rr i scopeCols props scope
    match ce with
    | none => throw nilDereference
    | some ce =>
      let builder ← if (ce.evalBool scope).1 then appendRowCols rr i 0 rr.cols builder
        else pure builder
      processRows props scopeCols ce rr (i + 1) rows (scope, builder)

/-- `DoTime` over the chunks of a block. -/
def processChunks (props : List ObjectProperty) (scopeCols : String → Option Int)
    (ce : Option CompiledExpression) (cols : List ColMeta) :
    List (List (List Cell)) → Scope × BlockBuilder → Except String (Scope × BlockBuilder)
  | [], st => .ok st
  | rows :: chunks, st => do
    processChunks props scopeCols ce cols chunks (← processRows props scopeCols ce ⟨cols, rows⟩ 0 rows st)

/-- The outcome of `Process`: the transformation and builder afterwards, the error it returns, or
a panic. `scopeCols` is a map `Process` updates in place before it can fail, so an error and a panic
carry it as the scope preparation left it; the scope is unchanged at an error, and a panic inside
the `DoTime` callback may leave the scope entries of the failing row written, which the outcome does
not record. -/
inductive Outcome where
  | ok (t : FilterTransformation) (builder : BlockBuilder)
  | error (scopeCols : String → Option Int) (msg : String)
  | panic (scopeCols : String → Option Int) (msg : String)

/-- `filterTransformation.Process` on block `b`, given the builder the cache returns for it and
whether that builder is new. -/
def FilterTransformation.process (t : FilterTransformation) (b : Block) (builder : BlockBuilder)
    (new : Bool) : Outcome :=
  let builder := if new then builder.addBlockCols b.cols else builder
  let vIdx := valueIdx b.cols
  let scopeCols := prepareScopeCols t.properties vIdx 0 b.cols t.scopeCols
  match indexInt b.cols vIdx with
  | .error p => .panic scopeCols p
  | .ok valueCol =>
    let exprErr := (t.ces valueCol.type).getD ⟨none, none⟩
    match exprErr.err with
    | some e =>
      .error scopeCols ("expression does not support type " ++ valueCol.type.toString ++ ": " ++ e)
    | none =>
      match processChunks t.properties scopeCols exprErr.expr b.cols b.chunks (t.scope, builder) with
      | .error p => .panic scopeCols p
      | .ok (scope, builder) => .ok { t with scope := scope, scopeCols := scopeCols } builder

/-! ### The scope columns -/

theorem findIdx?_of_find? {p : ColMeta → Bool} :
    ∀ {cols : List ColMeta} {vc : ColMeta}, cols.find? p = some vc →
      ∃ j, cols.findIdx? p = some j ∧ cols[j]? = some vc
  | [], _, h => by simp at h
  | c :: cs, vc, h => by
    by_cases hc : p c
    · simp only [List.find?_cons_of_pos _ hc, Option.some.injEq] at h
      subst h
      exact ⟨0, by simp [hc], by simp⟩
    · simp only [List.find?_cons_of_neg _ hc] at h
      obtain ⟨j, hj, hget⟩ := findIdx?_of_find? h
      exact ⟨j + 1, by simp [hc, hj], by simpa using hget⟩

theorem indexInt_valueIdx {cols : List ColMeta} {vc : ColMeta}
    (h : cols.find? (·.label = valueColLabel) = some vc) :
    ∃ j : Nat, valueIdx cols = j ∧ cols[j]? = some vc ∧ indexInt cols (valueIdx cols) = .ok vc := by
  obtain ⟨j, hj, hget⟩ := findIdx?_of_find? h
  refine ⟨j, by simp [valueIdx, hj], hget, ?_⟩
  simp [valueIdx, hj, indexInt, index, hget, show ¬((j : Int) < 0) by omega]

section ScopeCols

variable {props : List ObjectProperty} {vIdx : Int}

theorem prepareScopeCols_other {p : String} (hp : p ≠ valueColLabel) :
    ∀ {cs : List ColMeta} {j : Nat} {sc : String → Option Int}, (∀ c ∈ cs, c.label ≠ p) →
      prepareScopeCols props vIdx j cs sc p = sc p
  | [], _, _, _ => rfl
  | c :: cs, j, sc, h => by
    rw [prepareScopeCols, prepareScopeCols_other hp fun c' hc' => h c' (List.mem_cons_of_mem _ hc')]
    have hc := h c (List.mem_cons_self _ _)
    have hp' : p ≠ "_value" := hp
    split_ifs <;> simp [Function.update_noteq, hp', Ne.symm hc]

theorem prepareScopeCols_value :
    ∀ {cs : List ColMeta} {j : Nat} {sc : String → Option Int},
      (sc valueColLabel = some vIdx ∨ ∃ c ∈ cs, c.label = valueColLabel) →
      prepareScopeCols props vIdx j cs sc valueColLabel = some vIdx
  | [], _, _, h => by simpa using h
  | c :: cs, j, sc, h => by
    rw [prepareScopeCols]
    apply prepareScopeCols_value
    by_cases hc : c.label = valueColLabel
    · simp [hc, valueColLabel]
    · rcases h with h | ⟨c', hc', hl⟩
      · left; split_ifs <;> simp [Function.update_noteq, Ne.symm hc, h]
      · rcases List.mem_cons.1 hc' with rfl | hc'
        · exact absurd hl hc
        · exact .inr ⟨c', hc', hl⟩

theorem prepareScopeCols_prop {p : String} (hp : p ≠ valueColLabel)
    (hprop : props.any (·.property = p)) :
    ∀ {cs : List ColMeta} {j : Nat} {sc : String → Option Int}, (∃ c ∈ cs, c.label = p) →
      ∃ k : Nat, prepareScopeCols props vIdx j cs sc p = some ((j + k : Nat) : Int) ∧
        (cs[k]?).map (·.label) = some p
  | [], _, _, h => by simp at h
  | c :: cs, j, sc, h => by
    rw [prepareScopeCols]
    by_cases hrest : ∃ c' ∈ cs, c'.label = p
    · obtain ⟨k, hk, hl⟩ := prepareScopeCols_prop hp hprop hrest
      exact ⟨k + 1, by rw [hk]; congr 2; omega, by simpa using hl⟩
    · have hc : c.label = p := by
        obtain ⟨c', hc', hl⟩ := h
        rcases List.mem_cons.1 hc' with rfl | hc'
        · exact hl
        · exact absurd ⟨c', hc', hl⟩ hrest
      refine ⟨0, ?_, by simp [hc]⟩
      rw [prepareScopeCols_other hp (by simpa using hrest)]
      subst hc
      simp [hp, hprop]

end ScopeCols

/-- The scope columns `Process` prepares point every referenced property that has a column at a
column of that label, `_value` at the value column. -/
theorem prepareScopeCols_spec {props : List ObjectProperty} {cols : List ColMeta}
    (sc : String → Option Int) {vc : ColMeta}
    (hv : cols.find? (·.label = valueColLabel) = some vc)
    (hprops : ∀ op ∈ props, ∃ c ∈ cols, c.label = op.property) :
    ∀ op ∈ props, ∃ k : Nat, prepareScopeCols props (valueIdx cols) 0 cols sc op.property =
      some ((k : ℕ) : ℤ) ∧
      k < cols.length ∧ (cols[k]?).map (·.label) = some op.property := by
  intro op hop
  by_cases hp : op.property = valueColLabel
  · obtain ⟨j, hvi, hvj, -⟩ := indexInt_valueIdx hv
    have hlabel : vc.label = valueColLabel := by simpa using List.find?_some hv
    refine ⟨j, ?_, (List.getElem?_eq_some_iff.1 hvj).1, by simp [hvj, hlabel, hp]⟩
    rw [hp, prepareScopeCols_value (.inr ⟨vc, List.mem_of_find?_eq_some hv, hlabel⟩), hvi]
  · obtain ⟨k, hk, hl⟩ := @prepareScopeCols_prop _ (valueIdx cols) _ hp
      (List.any_eq_true.2 ⟨op, hop, by simp⟩) cols 0 sc (hprops op hop)
    refine ⟨k, by simpa using hk, ?_, hl⟩
    obtain ⟨c, hc, -⟩ := Option.map_eq_some'.1 hl
    exact (List.getElem?_eq_some_iff.1 hc).1

/-! ### What a block appends, by the spec -/

/-- The scope a row is evaluated in: each referenced property bound to the row's cell in column
`idx` of its label, the other entries as in `base`. -/
def rowScope (props : List ObjectProperty) (idx : String → Nat) (base : Scope) (row : List Cell) :
    Scope :=
  fun op => if op ∈ props then row[idx op.property]? else base op

/-- The columns of a builder after a row is appended: the row's cell added to each column that is
not common. -/
def withRow : List ColMeta → List Cell → List (List Cell) → List (List Cell)
  | c :: cs, v :: vs, d :: ds => (if c.isCommon then d else d ++ [v]) :: withRow cs vs ds
  | _, _, ds => ds

/-- The columns after rows are appended one after the other. -/
def withRows (cols : List ColMeta) (data : List (List Cell)) (rows : List (List Cell)) :
    List (List Cell) :=
  rows.foldl (fun d row => withRow cols row d) data

theorem length_withRow : ∀ (cols : List ColMeta) (row : List Cell) (data : List (List Cell)),
    (withRow cols row data).length = data.length
  | _ :: _, _ :: _, _ :: _ => by simp [withRow, length_withRow]
  | [], _, _ => rfl
  | _ :: _, [], _ => rfl
  | _ :: _, _ :: _, [] => rfl

theorem length_withRows (cols : List ColMeta) (rows : List (List Cell)) :
    ∀ data : List (List Cell), (withRows cols data rows).length = data.length := by
  induction rows with
  | nil => intro; rfl
  | cons row rows ih => intro data; exact (ih _).trans (length_withRow _ _ _)

section Scopes

variable {props : List ObjectProperty} {idx : String → Nat}

theorem rowScope_congr {s1 s2 : Scope} (h : ∀ op, op ∉ props → s1 op = s2 op) (row : List Cell) :
    rowScope props idx s1 row = rowScope props idx s2 row := by
  funext op
  by_cases hop : op ∈ props <;> simp [rowScope, hop, h]

theorem rowScope_outside {s : Scope} {row : List Cell} {op : ObjectProperty} (hop : op ∉ props) :
    rowScope props idx s row op = s op := by
  simp [rowScope, hop]

theorem foldl_rowScope_outside (rows : List (List Cell)) {s : Scope} {op : ObjectProperty}
    (hop : op ∉ props) : rows.foldl (rowScope props idx) s op = s op := by
  induction rows generalizing s with
  | nil => rfl
  | cons row rows ih => rw [List.foldl_cons, ih, rowScope_outside hop]

end Scopes

/-! ### The loops of `Process` -/

section Loops

variable {rr : RowReader} {i : Nat} {row : List Cell}

theorem fillScope_spec (hwt : rr.WellTyped) (hrow : rr.rows[i]? = some row)
    {scopeCols : String → Option Int} {idx : String → Nat} :
    ∀ {ops : List ObjectProperty},
      (∀ op ∈ ops, scopeCols op.property = some ((idx op.property : ℕ) : ℤ) ∧
        idx op.property < rr.cols.length) →
      ∀ scope, fillScope rr i scopeCols ops scope = .ok (rowScope ops idx scope row)
  | [], _, scope => by
    simp only [fillScope]
    congr 1
  | op :: ops, h, scope => by
    obtain ⟨hsc, hlt⟩ := h op (List.mem_cons_self _ _)
    obtain ⟨c, hc⟩ : ∃ c, rr.cols[idx op.property]? = some c :=
      ⟨_, List.getElem?_eq_getElem hlt⟩
    obtain ⟨v, hv⟩ : ∃ v, row[idx op.property]? = some v :=
      ⟨_, List.getElem?_eq_getElem (by rw [RowReader.length_row hwt hrow]; exact hlt)⟩
    have hval : rr.valueForRow i (idx op.property) = .ok v := RowReader.valueForRow_ok hwt hrow hc hv
    simp only [fillScope, hsc, Option.getD_some, show ¬((idx op.property : Int) < 0) by omega,
      if_false, Int.toNat_ofNat, hval, bind, Except.bind]
    rw [fillScope_spec hwt hrow (fun o ho => h o (List.mem_cons_of_mem _ ho))]
    congr 1
    funext o
    by_cases ho : o ∈ ops
    · simp [rowScope, ho]
    · by_cases hoo : o = op
      · subst hoo; simp [rowScope, ho, hv]
      · simp [rowScope, ho, hoo, Function.update_noteq]

theorem appendCell_spec (hwt : rr.WellTyped) (hrow : rr.rows[i]? = some row) {j : Nat}
    {c : ColMeta} {v : Cell} {d : List Cell} {b : BlockBuilder} (hc : rr.cols[j]? = some c)
    (hkind : c.type ≠ .tInvalid) (hv : row[j]? = some v) (hbc : b.cols[j]? = some c)
    (hd : b.data[j]? = some d) :
    appendCell rr i j c b = .ok { b with data := b.data.set j (d ++ [v]) } := by
  have hat := RowReader.at_ok hwt hrow hc hv
  have happ := fun typ (ht : c.type = typ) => BlockBuilder.append_ok (v := v) hbc ht hd
  unfold appendCell
  cases ht : c.type
  case tInvalid => exact absurd ht hkind
  all_goals rw [ht] at hat; simp [hat, happ _ ht, bind, Except.bind]

/-- The column loop from column `j` on: with the builder's columns those of the block, and its
data split at `j`, the row's cells are appended to the columns from `j` on that are not common. -/
theorem appendRowCols_spec (hwt : rr.WellTyped) (hrow : rr.rows[i]? = some row)
    (hkinds : ∀ c ∈ rr.cols, c.type ≠ .tInvalid) :
    ∀ (cs : List ColMeta) (j : Nat) (b : BlockBuilder) (pre suf : List (List Cell)),
      rr.cols.drop j = cs → b.cols = rr.cols → pre.length = j → suf.length = cs.length →
      b.data = pre ++ suf →
      appendRowCols rr i j cs b = .ok { b with data := pre ++ withRow cs (row.drop j) suf }
  | [], j, b, pre, suf, _, _, _, hsuf, hdata => by
    obtain rfl := List.length_eq_zero.1 hsuf
    cases b
    simp_all [appendRowCols, withRow]
  | c :: cs, j, b, pre, suf, hcs, hb, hpre, hsuf, hdata => by
    obtain ⟨d, suf, rfl⟩ := List.exists_cons_of_length_eq_add_one hsuf
    have hc : rr.cols[j]? = some c := by rw [← Nat.add_zero j, ← List.getElem?_drop, hcs]; simp
    have hcs' : rr.cols.drop (j + 1) = cs := by rw [← List.drop_drop, hcs]; rfl
    obtain ⟨v, hv⟩ : ∃ v, row[j]? = some v := ⟨_, List.getElem?_eq_getElem (by
      rw [RowReader.length_row hwt hrow]; exact (List.getElem?_eq_some_iff.1 hc).1)⟩
    have hrowd : row.drop j = v :: row.drop (j + 1) := by
      rw [List.drop_eq_getElem_cons (List.getElem?_eq_some_iff.1 hv).1]
      simp [(List.getElem?_eq_some_iff.1 hv).2]
    have hd : b.data[j]? = some d := by
      rw [hdata, List.getElem?_append_right (by omega), hpre]; simp
    have hkind := hkinds c (List.getElem?_mem hc)
    rw [appendRowCols, hrowd]
    by_cases hcom : c.isCommon
    · simp only [hcom, if_true, pure, Except.pure, bind, Except.bind]
      rw [appendRowCols_spec hwt hrow hkinds _ _ _ (pre ++ [d]) suf hcs' hb
        (by simp [hpre]) (by simpa using hsuf) (by simp [hdata])]
      simp [withRow, hcom]
    · simp only [hcom, if_false, Bool.false_eq_true,
        appendCell_spec hwt hrow hc hkind hv (by rw [hb]; exact hc) hd, bind, Except.bind]
      rw [appendRowCols_spec hwt hrow hkinds _ _ { b with data := b.data.set j (d ++ [v]) }
        (pre ++ [d ++ [v]]) suf hcs' hb (by simp [hpre]) (by simpa using hsuf)
        (by rw [hdata, List.set_append_right _ _ (by omega), hpre]; simp)]
      simp [withRow, hcom]

/-- The row loop over the rows from `i` on: the rows on which the compiled expression holds, in
their own scope, are appended in order, and the scope is left as the last row made it. -/
theorem processRows_spec (hwt : rr.WellTyped) (hkinds : ∀ c ∈ rr.cols, c.type ≠ .tInvalid)
    {props : List ObjectProperty} {scopeCols : String → Option Int} {idx : String → Nat}
    (hidx : ∀ op ∈ props, scopeCols op.property = some ((idx op.property : ℕ) : ℤ) ∧
      idx op.property < rr.cols.length) (ce : CompiledExpression) :
    ∀ (rows : List (List Cell)) (i : Nat) (scope : Scope) (b : BlockBuilder),
      rr.rows.drop i = rows → b.cols = rr.cols → b.data.length = rr.cols.length →
      processRows props scopeCols (some ce) rr i rows (scope, b) =
        .ok (rows.foldl (rowScope props idx) scope, { b with
          data := withRows rr.cols b.data
            (rows.filter fun row => (ce.evalBool (rowScope props idx scope row)).1) })
  | [], _, _, _, _, _, _ => by simp [processRows, withRows]
  | row :: rows, i, scope, b, hrows, hb, hlen => by
    have hrow : rr.rows[i]? = some row := by
      rw [← Nat.add_zero i, ← List.getElem?_drop, hrows]; simp
    have hrows' : rr.rows.drop (i + 1) = rows := by rw [← List.drop_drop, hrows]; rfl
    have hfill := fillScope_spec hwt hrow hidx scope
    have hcongr : ∀ r, rowScope props idx (rowScope props idx scope row) r =
        rowScope props idx scope r :=
      rowScope_congr fun op hop => rowScope_outside hop
    simp only [processRows, hfill, bind, Except.bind]
    by_cases hpass : (ce.evalBool (rowScope props idx scope row)).1
    · have happ := appendRowCols_spec hwt hrow hkinds rr.cols 0 b [] b.data (List.drop_zero _) hb
        rfl hlen rfl
      simp only [List.drop_zero, List.nil_append] at happ
      simp only [hpass, if_true, happ]
      rw [processRows_spec hwt hkinds hidx ce _ _ _ ⟨b.cols, withRow rr.cols row b.data⟩ hrows' hb
        (by simp [length_withRow, hlen])]
      simp [hcongr, hpass, withRows]
    · simp only [hpass, if_false, Bool.false_eq_true, pure, Except.pure]
      rw [processRows_spec hwt hkinds hidx ce _ _ _ _ hrows' hb hlen]
      simp [hcongr, hpass, withRows]

end Loops

/-- `DoTime` over the chunks: the passing rows of all the chunks are appended in order, whatever
the split of the rows into chunks. -/
theorem processChunks_spec {cols : List ColMeta} (hkinds : ∀ c ∈ cols, c.type ≠ .tInvalid)
    {props : List ObjectProperty} {scopeCols : String → Option Int} (idx : String → Nat)
    (hidx : ∀ op ∈ props, scopeCols op.property = some ((idx op.property : ℕ) : ℤ) ∧
      idx op.property < cols.length) (ce : CompiledExpression) :
    ∀ (chunks : List (List (List Cell))) (scope : Scope) (b : BlockBuilder),
      (∀ rows ∈ chunks, RowReader.WellTyped ⟨cols, rows⟩) → b.cols = cols →
      b.data.length = cols.length →
      processChunks props scopeCols (some ce) cols chunks (scope, b) =
        .ok (chunks.flatten.foldl (rowScope props idx) scope, { b with
          data := withRows cols b.data
            (chunks.flatten.filter fun row => (ce.evalBool (rowScope props idx scope row)).1) })
  | [], _, _, _, _, _ => by simp [processChunks, withRows]
  | rows :: chunks, scope, b, hwt, hb, hlen => by
    have hrows := processRows_spec (hwt rows (List.mem_cons_self _ _)) hkinds hidx ce rows 0 scope b
      (List.drop_zero _) hb hlen
    simp only [processChunks, hrows, bind, Except.bind]
    rw [processChunks_spec hkinds idx hidx ce _ _ ⟨b.cols, withRows cols b.data
        (rows.filter fun row => (ce.evalBool (rowScope props idx scope row)).1)⟩
      (fun r hr => hwt r (List.mem_cons_of_mem _ hr)) hb (by simp [length_withRows, hlen])]
    have hcongr : ∀ r, rowScope props idx (rows.foldl (rowScope props idx) scope) r =
        rowScope props idx scope r :=
      rowScope_congr fun op hop => foldl_rowScope_outside rows hop
    simp [hcongr, withRows, List.foldl_append]

/-! ### `Process` -/

theorem process_appends_passing_rows (t : FilterTransformation) (b : Block)
    (builder : BlockBuilder) (new : Bool) {vc : ColMeta} {ce : CompiledExpression}
    (hv : b.cols.find? (·.label = valueColLabel) = some vc)
    (hce : t.ces vc.type = some ⟨none, some ce⟩)
    (hprops : ∀ op ∈ t.properties, ∃ c ∈ b.cols, c.label = op.property)
    (hkinds : ∀ c ∈ b.cols, c.type ≠ .tInvalid)
    (hwt : ∀ rows ∈ b.chunks, RowReader.WellTyped ⟨b.cols, rows⟩)
    (hcols : (if new then builder.addBlockCols b.cols else builder).cols = b.cols)
    (hlen : (if new then builder.addBlockCols b.cols else builder).data.length = b.cols.length) :
    ∃ idx : String → Nat,
      (∀ op ∈ t.properties, (b.cols[idx op.property]?).map (·.label) = some op.property) ∧
      ∃ t', t.process b builder new = .ok t' { (if new then builder.addBlockCols b.cols else builder) with
        data := withRows b.cols (if new then builder.addBlockCols b.cols else builder).data
          (b.chunks.flatten.filter fun row => (ce.evalBool (rowScope t.properties idx t.scope row)).1) } := by
  set sc := prepareScopeCols t.properties (valueIdx b.cols) 0 b.cols t.scopeCols
  have hspec := prepareScopeCols_spec t.scopeCols hv hprops
  refine ⟨fun p => ((sc p).getD 0).toNat, fun op hop => ?_, ?_⟩
  · obtain ⟨k, hk, -, hl⟩ := hspec op hop
    simpa [sc, hk] using hl
  · have hidx : ∀ op ∈ t.properties,
        sc op.property = some ((((sc op.property).getD 0).toNat : ℕ) : ℤ) ∧
        ((sc op.property).getD 0).toNat < b.cols.length := by
      intro op hop
      obtain ⟨k, hk, hlt, -⟩ := hspec op hop
      simp [sc, hk, hlt]
    obtain ⟨j, -, -, hidxv⟩ := indexInt_valueIdx hv
    simp only [FilterTransformation.process, hidxv, hce, Option.getD_some]
    rw [processChunks_spec hkinds (fun p => ((sc p).getD 0).toNat) hidx ce _ _ _ hwt hcols hlen]
    exact ⟨_, rfl⟩

/-- The builder of an outcome that returned. -/
def Outcome.builder? : Outcome → Option BlockBuilder
  | .ok _ builder => some builder
  | _ => none

/-- A block of the filter tests: a time column, an integer value column and a common tag, in two
chunks. -/
def testBlock : Block :=
  ⟨[⟨"time", .tTime, false, false⟩, ⟨"_value", .tInt, false, false⟩, ⟨"t1", .tString, true, true⟩],
    [[[.time 1, .int 3, .string "a"], [.time 2, .int 7, .string "a"]],
      [[.time 3, .int 9, .string "a"]]]⟩

/-- `(r) => r._value > 5`, compiled for integer values. -/
def valueAboveFive : CompiledExpression :=
  ⟨.tBool, fun sc => (match sc ⟨"r", "_value"⟩ with
    | some (.int v) => decide (5 < v)
    | _ => false, none)⟩

/-- The transformation of `filter(fn: (r) => r._value > 5)` before its first block: the expression
compiles for integer values only. -/
def aboveFive : FilterTransformation :=
  ⟨[⟨"r", "_value"⟩], fun _ => none, fun _ => none,
    fun t => if t = .tInt then some ⟨none, some valueAboveFive⟩ else none⟩

theorem process_appends_passing_rows_testBlock :
    testBlock.cols.find? (·.label = valueColLabel) = some ⟨"_value", .tInt, false, false⟩ ∧
    aboveFive.ces .tInt = some ⟨none, some valueAboveFive⟩ ∧
    (∀ op ∈ aboveFive.properties, ∃ c ∈ testBlock.cols, c.label = op.property) ∧
    (∀ c ∈ testBlock.cols, c.type ≠ .tInvalid) ∧
    (∀ rows ∈ testBlock.chunks, RowReader.WellTyped ⟨testBlock.cols, rows⟩) ∧
    (if true then BlockBuilder.addBlockCols testBlock.cols ⟨[], []⟩ else ⟨[], []⟩).cols =
      testBlock.cols ∧
    (if true then BlockBuilder.addBlockCols testBlock.cols ⟨[], []⟩ else ⟨[], []⟩).data.length =
      testBlock.cols.length ∧
    ∃ idx : String → Nat,
      (∀ op ∈ aboveFive.properties, (testBlock.cols[idx op.property]?).map (·.label) =
        some op.property) ∧
      ∃ t', aboveFive.process testBlock ⟨[], []⟩ true = .ok t'
        { (if true then BlockBuilder.addBlockCols testBlock.cols ⟨[], []⟩ else ⟨[], []⟩) with
          data := withRows testBlock.cols
            (if true then BlockBuilder.addBlockCols testBlock.cols ⟨[], []⟩ else ⟨[], []⟩).data
            (testBlock.chunks.flatten.filter fun row =>
              (valueAboveFive.evalBool (rowScope aboveFive.properties idx aboveFive.scope row)).1) } :=
  ⟨by decide, rfl, by decide, by decide, by decide, by decide, by decide,
    @process_appends_passing_rows aboveFive testBlock ⟨[], []⟩ true ⟨"_value", .tInt, false, false⟩
      valueAboveFive (by decide) rfl (by decide) (by decide) (by decide) (by decide) (by decide)⟩

example : (aboveFive.process testBlock ⟨[], []⟩ true).builder? =
    some ⟨testBlock.cols, [[.time 2, .time 3], [.int 7, .int 9], []]⟩ := by
  decide

/-! ### Blocks the specification admits -/

/-- Two blocks §3 admits on which `Process` panics. A block with a time column and no value
column: `ValueIdx` is `-1`, and `cols[-1]` panics, whatever the transformation. A value column of a
kind with no compiled expression: `ces` gives the zero `expressionOrError`, with no error and a
`nil` expression, on which `EvalBool` panics at the first row, where an error was due. -/
theorem process_panics_on_admitted_blocks :
    (∀ (t : FilterTransformation) (builder : BlockBuilder) (new : Bool)
        (chunks : List (List (List Cell))),
      ∃ sc, t.process ⟨[⟨"time", .tTime, false, false⟩], chunks⟩ builder new =
        .panic sc indexOutOfRange) ∧
    ∀ (scope : Scope) (scopeCols : String → Option Int) (ces : DataType → Option ExpressionOrError)
        (builder : BlockBuilder) (new : Bool),
      ∃ sc, (⟨[], scope, scopeCols, Function.update ces .tFloat none⟩ : FilterTransformation).process
        ⟨[⟨"time", .tTime, false, false⟩, ⟨"_value", .tFloat, false, false⟩],
          [[[.time 0, .float 0]]]⟩ builder new = .panic sc nilDereference :=
  ⟨fun _ _ _ _ => ⟨_, rfl⟩, fun _ _ _ _ _ => ⟨_, rfl⟩⟩

/-! ### What a transformation carries from block to block -/

/-- `filter(fn: (r) => r.host == "a")` before its first block, the expression compiled for every
kind of value. -/
def hostIsA : FilterTransformation :=
  ⟨[⟨"r", "host"⟩], fun _ => none, fun _ => none, fun _ => some ⟨none, some
    ⟨.tBool, fun sc => (decide (sc ⟨"r", "host"⟩ = some (.string "a")), none)⟩⟩⟩

/-- A block with a `host` tag, in column 2. -/
def hostBlock : Block :=
  ⟨[⟨"time", .tTime, false, false⟩, ⟨"_value", .tFloat, false, false⟩,
      ⟨"host", .tString, true, true⟩],
    [[[.time 0, .float 1, .string "a"]]]⟩

/-- A block without a `host` column. -/
def bareBlock : Block :=
  ⟨[⟨"time", .tTime, false, false⟩, ⟨"_value", .tFloat, false, false⟩], [[[.time 0, .float 1]]]⟩

/-- Whether `Process` fails on a block depends on the blocks before it: processed first,
`bareBlock` returns, `host` read from column 0 as the map's zero value says; processed after
`hostBlock`, the index 2 that block left in `scopeCols` is read from a block of two columns, and
`Process` panics. -/
theorem process_depends_on_history :
    (∃ t bld, hostIsA.process bareBlock ⟨[], []⟩ true = .ok t bld) ∧
    ∃ t1 bld1, hostIsA.process hostBlock ⟨[], []⟩ true = .ok t1 bld1 ∧
      ∃ sc, t1.process bareBlock ⟨[], []⟩ true = .panic sc indexOutOfRange :=
  ⟨⟨_, _, rfl⟩, _, _, rfl, _, rfl⟩

end Ifql.Filter
