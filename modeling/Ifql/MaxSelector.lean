import Ifql.Block
import Ifql.Arguments
import Mathlib.Order.Lattice

/-!
# The max selector

`MaxSelector` and the typed selectors that embed it, `MaxIntSelector`, `MaxUIntSelector` and
`MaxFloatSelector`: the row selector behind `max` (§4.5). The framework hands a selector a block's
values chunk by chunk, one call of `DoInt`, `DoUInt` or `DoFloat` per chunk with the chunk's row
reader; the selector keeps the largest value seen and the row it came from, and `Rows()` returns
that row once a value was seen.

The three `Do` methods are one loop that differs only in the element type and its `>`. The model
has the loop once, `doLoop`, parameterised by the comparison, and each method is that loop applied
to its own. A float64 is held as its IEEE-754 bits, as a cell is, and its `>` is IEEE's, false
whenever a NaN takes part.

The results are stated for a comparison that orders the values through a key into a linear
order: the identity for the integer selectors. Because the loop replaces the maximum only on a
strictly larger value, a tie keeps the earlier row.

`createMaxOpSpec`, the constructor the evaluator runs for a call of `max`, reads the one keyword
argument `useRowTime`, which only the framework reads afterwards.

Main results:

* **`doLoop_spec`**: one chunk's loop either keeps the maximum, every value of the chunk being no
  larger, or raises it to the first value of the chunk holding the chunk's largest key.
* **`doChunks_selects`**: a run over any sequence of chunks from a fresh selector returns, and
  `Rows()` is empty exactly when no chunk held a value; otherwise it is the row of the first
  position, over the whole sequence, whose key is largest.
* **`doFloat_nan_first`**: a NaN met first is never displaced, whatever follows, under every
  chunking.
* **`doFloat_selects`**: on a block whose first value is a number, `DoFloat` selects the row of the
  first position holding the largest number, the NaNs passed over: the two cases cover every block.
* **`doChunks_eq_batch`** and **`maxSelector_streams_as_batch`**: the integer selectors select the
  same row from a block in chunks as from all its values in one call, the row of one of the chunks
  holding the largest value.
* **`maxInt_tie_keeps_earliest`**: on equal values the row kept is the earliest, not the latest;
  **`maxSelector_keeps_first_max`**: so it is on every block, under every chunking.
-/

namespace Ifql.Max

open Execute

/-- `MaxOpSpec`. -/
structure MaxOpSpec where
  useRowTime : Bool
  deriving DecidableEq, Repr

/-- `createMaxOpSpec`: `useRowTime` when it is given, `false` otherwise; the accessor's error is
returned. -/
def createMaxOpSpec : Ctor MaxOpSpec :=
  .request (.getBool "useRowTime") fun g ok err =>
    match err, g with
    | some e, _ => .done (.error e)
    | none, .bool useRowTime => .done (.ok ⟨if ok then useRowTime else false⟩)
    | none, _ => .done (.ok ⟨false⟩)

/-- Modelled from the spec: `execute.Row`, the cells of one row, one per column. -/
abbrev Row := List Cell

/-- Modelled from the spec: `execute.ReadRow(i, rr)`, row `i` of the chunk with every column
copied; an index past the chunk panics. -/
def readRow (i : Nat) (rr : RowReader) : Except String Row := index rr.rows i

/-- `MaxSelector`, with the `max` field of the typed selector that embeds it. -/
structure MaxSelector (α : Type) where
  set : Bool
  max : α
  rows : List Row
  deriving DecidableEq, Repr

/-- `new(MaxIntSelector)` and its kin: nothing seen, `max` the zero value. -/
def MaxSelector.new {α : Type} (zero : α) : MaxSelector α := ⟨false, zero, []⟩

/-- `Rows()` (the field holds the name `rows`): `nil` until a value was seen. -/
def MaxSelector.getRows {α : Type} (s : MaxSelector α) : List Row := if s.set then s.rows else []

/-- `selectRow`: capture row `idx` of the chunk when the chunk raised the maximum. -/
def MaxSelector.selectRow {α : Type} (s : MaxSelector α) (idx : Int) (rr : RowReader) :
    Except String (MaxSelector α) :=
  if 0 ≤ idx then do pure { s with rows := [← readRow idx.toNat rr] } else pure s

section Loop

variable {α : Type} (gt : α → α → Bool)

/-- The loop of the `Do` methods from index `i` on, with `maxIdx` the index of the last value that
raised the maximum; `gt` is the element type's `>`. -/
def doLoop : MaxSelector α → Int → Nat → List α → MaxSelector α × Int
  | s, maxIdx, _, [] => (s, maxIdx)
  | s, maxIdx, i, v :: vs =>
    if !s.set || gt v s.max then doLoop { s with set := true, max := v } i (i + 1) vs
    else doLoop s maxIdx (i + 1) vs

/-- `DoInt`, `DoUInt` and `DoFloat`, as one: the loop from `maxIdx := -1`, then `selectRow`. -/
def MaxSelector.doWith (s : MaxSelector α) (vs : List α) (rr : RowReader) :
    Except String (MaxSelector α) :=
  let (s, maxIdx) := doLoop gt s (-1) 0 vs
  s.selectRow maxIdx rr

end Loop

/-- Modelled from the spec: the row-selector framework's calls for one block, the typed `Do`
method `step` once per chunk, in order. -/
def doChunks {α : Type}
    (step : MaxSelector α → List α → RowReader → Except String (MaxSelector α))
    (s : MaxSelector α) : List (List α × RowReader) → Except String (MaxSelector α)
  | [] => .ok s
  | (vs, rr) :: cs => do doChunks step (← step s vs rr) cs

/-- `DoInt`, on int64 values. -/
def MaxSelector.doInt (s : MaxSelector Int) := s.doWith (fun v max => decide (v > max))

/-- `DoUInt`, on uint64 values. -/
def MaxSelector.doUInt (s : MaxSelector Nat) := s.doWith (fun v max => decide (v > max))

/-- A float64 whose exponent field is all ones and whose fraction is not zero. -/
def isNaN (x : UInt64) : Bool := (x >>> 52) &&& 0x7FF == 0x7FF && x &&& 0xFFFFFFFFFFFFF != 0

/-- The place of a float64 that is not a NaN on the number line, from its sign and magnitude: the
two zeros meet at `0`, and the numbers, infinities included, are ordered as their places. -/
def float64Key (x : UInt64) : Int :=
  if x >>> 63 = 1 then -((x &&& 0x7FFFFFFFFFFFFFFF).toNat : Int)
  else ((x &&& 0x7FFFFFFFFFFFFFFF).toNat : Int)

/-- Go's `>` on float64, IEEE-754's: false when either side is a NaN. -/
def float64Gt (a b : UInt64) : Bool := !isNaN a && !isNaN b && decide (float64Key b < float64Key a)

/-- `DoFloat`, on float64 values given by their bits. -/
def MaxSelector.doFloat (s : MaxSelector UInt64) := s.doWith float64Gt

/-! ### One chunk -/

section Order

variable {α β : Type} [LinearOrder β] (key : α → β)

/-- The chunk `vs` kept the maximum of `s`: no value of it has a larger key, and it can only do so
without a value seen when it is empty. -/
def Kept (s : MaxSelector α) (vs : List α) : Prop :=
  (s.set = true → ∀ v ∈ vs, key v ≤ key s.max) ∧ (s.set = false → vs = [])

/-- The chunk `vs` raised the maximum of `s` to `m`, its value at `k`: above the old maximum, no
value of the chunk larger, every value before `k` smaller. -/
def Raised (s : MaxSelector α) (vs : List α) (k : Nat) (m : α) : Prop :=
  vs[k]? = some m ∧ (s.set = true → key s.max < key m) ∧ (∀ v ∈ vs, key v ≤ key m) ∧
    ∀ v ∈ vs.take k, key v < key m

/-- `s` is the selector after the chunks `done`: it saw a value exactly when a chunk held one, and
then its maximum is the value at the first position of the chunks whose key is largest, and its
row that position's row. -/
def Selects (done : List (List α × RowReader)) (s : MaxSelector α) : Prop :=
  (s.set = true ↔ ∃ c ∈ done, c.1 ≠ []) ∧
    (s.set = true → ∃ pre vs rr post k row, done = pre ++ (vs, rr) :: post ∧
      vs[k]? = some s.max ∧ rr.rows[k]? = some row ∧ s.rows = [row] ∧
      (∀ v ∈ (pre.map Prod.fst).flatten ++ vs.take k, key v < key s.max) ∧
      ∀ v ∈ (done.map Prod.fst).flatten, key v ≤ key s.max)

variable {key} {gt : α → α → Bool}

theorem Kept.nil (s : MaxSelector α) : Kept key s [] :=
  ⟨fun _ _ h => absurd h (List.not_mem_nil _), fun _ => rfl⟩

/-- A value no larger than the kept maximum extends a chunk that kept it. -/
theorem Kept.cons {s : MaxSelector α} {v : α} {vs : List α} (hs : s.set = true)
    (hv : key v ≤ key s.max) (h : Kept key s vs) : Kept key s (v :: vs) := by
  refine ⟨fun _ w hw => ?_, fun hf => absurd hs (by simp [hf])⟩
  rcases List.mem_cons.1 hw with rfl | hw
  exacts [hv, h.1 hs w hw]

/-- A value no larger than the new maximum, in front of a chunk that raised it. -/
theorem Raised.cons {s s' : MaxSelector α} {v m : α} {vs : List α} {k : Nat}
    (hlt : key v < key m) (hold : s.set = true → key s.max < key m) (h : Raised key s' vs k m) :
    Raised key s (v :: vs) (k + 1) m := by
  obtain ⟨hk, -, hle, hbefore⟩ := h
  refine ⟨by rw [List.getElem?_cons_succ]; exact hk, hold, fun w hw => ?_, fun w hw => ?_⟩
  · rcases List.mem_cons.1 hw with rfl | hw
    exacts [hlt.le, hle w hw]
  · rcases List.mem_cons.1 hw with rfl | hw
    exacts [hlt, hbefore w hw]

theorem selects_new (zero : α) : Selects key [] (MaxSelector.new zero) :=
  ⟨by simp [MaxSelector.new], fun h => absurd h (by simp [MaxSelector.new])⟩

/-- A value was seen in the chunks `done` and then `vs` when one was seen in `done` or `vs` is not
empty. -/
theorem seen_append {done : List (List α × RowReader)} {vs : List α} {rr : RowReader} :
    (∃ c ∈ done ++ [(vs, rr)], c.1 ≠ []) ↔ (∃ c ∈ done, c.1 ≠ []) ∨ vs ≠ [] := by
  simp [or_and_right, exists_or]

/-- A chunk that kept the maximum: the position found so far stays the first largest one. -/
theorem Selects.kept {done : List (List α × RowReader)} {s : MaxSelector α} {vs : List α}
    {rr : RowReader} (h : Selects key done s) (hk : Kept key s vs) :
    Selects key (done ++ [(vs, rr)]) s := by
  obtain ⟨hset, hpos⟩ := h
  refine ⟨?_, fun hs => ?_⟩
  · rw [seen_append, ← hset]
    cases hs : s.set
    · simp [hk.2 hs]
    · simp
  · obtain ⟨pre, ws, rr', post, k, row, rfl, hk', hrow, hrows, hlt, hle⟩ := hpos hs
    refine ⟨pre, ws, rr', post ++ [(vs, rr)], k, row, by simp, hk', hrow, hrows, hlt, ?_⟩
    simp only [List.map_append, List.flatten_append, List.mem_append] at hle ⊢
    rintro v (hv | hv)
    · exact hle v hv
    · simpa using hk.1 hs v (by simpa using hv)

/-- A chunk that raised the maximum: its position is the first largest one of the whole run. -/
theorem Selects.raised {done : List (List α × RowReader)} {s : MaxSelector α} {vs : List α}
    {rr : RowReader} {k : Nat} {m : α} {row : Row} (h : Selects key done s)
    (hr : Raised key s vs k m) (hrow : rr.rows[k]? = some row) :
    Selects key (done ++ [(vs, rr)]) { s with set := true, max := m, rows := [row] } := by
  have hdone : ∀ v ∈ (done.map Prod.fst).flatten, key v < key m := fun v hv => by
    cases hs : s.set
    · obtain ⟨c, hc, hv⟩ := List.mem_flatten.1 hv
      obtain ⟨c, hc', rfl⟩ := List.mem_map.1 hc
      exact absurd (h.1.2 ⟨c, hc', List.ne_nil_of_mem hv⟩) (by simp [hs])
    · obtain ⟨-, -, -, -, -, -, -, -, -, -, -, hle⟩ := h.2 hs
      exact (hle v hv).trans_lt (hr.2.1 hs)
  refine ⟨?_, fun _ => ⟨done, vs, rr, [], k, row, rfl, hr.1, hrow, rfl, ?_, ?_⟩⟩
  · rw [seen_append]
    exact iff_of_true rfl (.inr (List.ne_nil_of_mem (List.getElem?_mem hr.1)))
  · simp only [List.mem_append]
    rintro v (hv | hv)
    exacts [hdone v hv, hr.2.2.2 v hv]
  · simp only [List.map_append, List.flatten_append, List.mem_append]
    rintro v (hv | hv)
    · exact (hdone v hv).le
    · exact hr.2.2.1 v (by simpa using hv)

/-! ### The loop -/

variable (hgt : ∀ v m, gt v m = decide (key m < key v))
include hgt

/-- One chunk: the loop either leaves the selector and `maxIdx` as they were, or raises the
maximum to the value at some `k`, index `i + k` of the block. -/
theorem doLoop_spec (s : MaxSelector α) (maxIdx : Int) (i : Nat) (vs : List α) :
    (doLoop gt s maxIdx i vs = (s, maxIdx) ∧ Kept key s vs) ∨
      ∃ k m, doLoop gt s maxIdx i vs = ({ s with set := true, max := m }, ((i + k : Nat) : Int)) ∧
        Raised key s vs k m := by
  induction vs generalizing s maxIdx i with
  | nil => exact .inl ⟨rfl, Kept.nil s⟩
  | cons v vs ih =>
    simp only [doLoop]
    by_cases hc : (!s.set || gt v s.max) = true
    · -- `v` raises the maximum
      rw [if_pos hc]
      have hold : s.set = true → key s.max < key v := fun hs => by
        simpa [hs, hgt] using hc
      right
      rcases ih { s with set := true, max := v } i (i + 1) with ⟨heq, hkept⟩ | ⟨k, m, heq, hr⟩
      · refine ⟨0, v, heq, List.getElem?_cons_zero, hold, fun w hw => ?_,
          fun w hw => absurd hw (List.not_mem_nil _)⟩
        rcases List.mem_cons.1 hw with rfl | hw
        exacts [le_rfl, hkept.1 rfl w hw]
      · have hvm : key v < key m := hr.2.1 rfl
        refine ⟨k + 1, m, ?_, hr.cons hvm fun hs => (hold hs).trans hvm⟩
        rw [heq, show i + 1 + k = i + (k + 1) by omega]
    · -- `v` is no larger than the maximum seen
      rw [if_neg hc]
      have hs : s.set = true := by
        by_contra h
        exact hc (by simp [h])
      have hv : key v ≤ key s.max := by simpa [hs, hgt] using hc
      rcases ih s maxIdx (i + 1) with ⟨heq, hkept⟩ | ⟨k, m, heq, hr⟩
      · exact .inl ⟨heq, hkept.cons hs hv⟩
      · have hm : key s.max < key m := hr.2.1 hs
        refine .inr ⟨k + 1, m, ?_, hr.cons (hv.trans_lt hm) fun _ => hm⟩
        rw [heq, show i + 1 + k = i + (k + 1) by omega]

/-- One `Do` call on a chunk whose rows cover its values returns: either the selector unchanged,
or the selector raised to the value at some `k` with row `k` of the chunk captured. -/
theorem doWith_step (s : MaxSelector α) (vs : List α) (rr : RowReader)
    (hrows : vs.length ≤ rr.rows.length) :
    (s.doWith gt vs rr = .ok s ∧ Kept key s vs) ∨
      ∃ k m row, rr.rows[k]? = some row ∧ Raised key s vs k m ∧
        s.doWith gt vs rr = .ok { s with set := true, max := m, rows := [row] } := by
  rcases doLoop_spec hgt s (-1) 0 vs with ⟨heq, hkept⟩ | ⟨k, m, heq, hr⟩
  · refine .inl ⟨?_, hkept⟩
    simp [MaxSelector.doWith, heq, MaxSelector.selectRow, pure, Except.pure]
  · have hk : k < rr.rows.length := (List.getElem?_eq_some_iff.1 hr.1).1.trans_le hrows
    refine .inr ⟨k, m, rr.rows[k], List.getElem?_eq_getElem hk, hr, ?_⟩
    simp only [MaxSelector.doWith, heq]
    rw [MaxSelector.selectRow, if_pos (by omega)]
    simp [readRow, index, List.getElem?_eq_getElem hk, bind, Except.bind, pure, Except.pure]

/-- One `Do` call keeps `Selects`, over the chunks seen so far and the new one. -/
theorem Selects.doWith {done : List (List α × RowReader)} {s : MaxSelector α} {vs : List α}
    {rr : RowReader} (h : Selects key done s) (hrows : vs.length ≤ rr.rows.length) :
    ∃ s', s.doWith gt vs rr = .ok s' ∧ Selects key (done ++ [(vs, rr)]) s' := by
  rcases doWith_step hgt s vs rr hrows with ⟨heq, hk⟩ | ⟨k, m, row, hrow, hr, heq⟩
  exacts [⟨s, heq, h.kept hk⟩, ⟨_, heq, h.raised hr hrow⟩]

/-- The run: from a selector that `Selects` the chunks `done`, the remaining chunks, each with
rows for its values, are processed without a panic and the selector `Selects` them all. -/
theorem doChunks_run (chunks : List (List α × RowReader))
    (hrows : ∀ c ∈ chunks, c.1.length ≤ c.2.rows.length) :
    ∀ (done : List (List α × RowReader)) (s : MaxSelector α), Selects key done s →
      ∃ s', doChunks (MaxSelector.doWith gt) s chunks = .ok s' ∧
        Selects key (done ++ chunks) s' := by
  induction chunks with
  | nil => exact fun done s h => ⟨s, rfl, by simpa using h⟩
  | cons c cs ih =>
    intro done s h
    obtain ⟨s1, h1, hs1⟩ := h.doWith hgt (hrows c (List.mem_cons_self _ _))
    obtain ⟨s', h', hs'⟩ := ih (fun c hc => hrows c (List.mem_cons_of_mem _ hc)) _ s1 hs1
    refine ⟨s', ?_, by simpa using hs'⟩
    simp [doChunks, h1, h', bind, Except.bind]

/-- The max selector over a block: from a fresh selector, every sequence of chunks whose rows
cover their values is processed without a panic; `Rows()` is empty exactly when no chunk held a
value, and otherwise it is the one row at the first position of the sequence whose key is
largest: every value before it has a smaller key, and no value a larger one. -/
theorem doChunks_selects (zero : α) (chunks : List (List α × RowReader))
    (hrows : ∀ c ∈ chunks, c.1.length ≤ c.2.rows.length) :
    ∃ s, doChunks (MaxSelector.doWith gt) (MaxSelector.new zero) chunks = .ok s ∧
      (s.getRows = [] ↔ ∀ c ∈ chunks, c.1 = []) ∧
      (s.set = true → ∃ pre vs rr post k row, chunks = pre ++ (vs, rr) :: post ∧
        vs[k]? = some s.max ∧ rr.rows[k]? = some row ∧ s.getRows = [row] ∧
        (∀ v ∈ (pre.map Prod.fst).flatten ++ vs.take k, key v < key s.max) ∧
        ∀ v ∈ (chunks.map Prod.fst).flatten, key v ≤ key s.max) := by
  obtain ⟨s, hrun, hset, hpos⟩ := doChunks_run hgt chunks hrows [] _ (selects_new zero)
  simp only [List.nil_append] at hset hpos
  refine ⟨s, hrun, ?_, fun hs => ?_⟩
  · cases hs : s.set
    · simpa [MaxSelector.getRows, hs] using hset
    · obtain ⟨-, -, -, -, -, row, -, -, -, hrows, -⟩ := hpos hs
      simpa [MaxSelector.getRows, hs, hrows] using hset
  · obtain ⟨pre, vs, rr, post, k, row, hc, hk, hrow, hrows, hlt, hle⟩ := hpos hs
    exact ⟨pre, vs, rr, post, k, row, hc, hk, hrow, by simp [MaxSelector.getRows, hs, hrows],
      hlt, hle⟩

end Order

/-! ### Streaming and one batch call

The selector sees a block's values split into chunks, one per frame of the storage reader. A
batch call instead hands it every value at once, with a reader over every row. The selected row is
fixed by the flat sequence of values alone, as the first position whose key is largest, so the two
agree. -/

section Batch

variable {α β : Type} [LinearOrder β] {key : α → β}

/-- The values of a block's chunks, in order. -/
def flatValues (chunks : List (List α × RowReader)) : List α := (chunks.map Prod.fst).flatten

/-- The rows of a block's chunks that carry a value, in order. -/
def flatRows (chunks : List (List α × RowReader)) : List Row :=
  (chunks.map fun c => c.2.rows.take c.1.length).flatten

/-- One batch call in place of the chunks: every value, with a reader over the first chunk's
columns and every chunk's rows. -/
def batch (chunks : List (List α × RowReader)) : List α × RowReader :=
  (flatValues chunks, ⟨(chunks.head?.map (·.2.cols)).getD [], flatRows chunks⟩)

/-- `p` is the first position of `l` whose key is largest, and holds `m`. -/
def FirstMax (key : α → β) (l : List α) (p : Nat) (m : α) : Prop :=
  l[p]? = some m ∧ (∀ x ∈ l, key x ≤ key m) ∧ ∀ x ∈ l.take p, key x < key m

/-- A sequence has one first position of largest key. -/
theorem FirstMax.unique {l : List α} {p p' : Nat} {m m' : α} (h : FirstMax key l p m)
    (h' : FirstMax key l p' m') : p = p' := by
  have before : ∀ {p p' m m'}, FirstMax key l p m → FirstMax key l p' m' → ¬ p < p' :=
    fun h h' hlt => (h.2.1 _ (List.getElem?_mem h'.1)).not_lt
      (h'.2.2 _ (List.getElem?_mem (by rw [List.getElem?_take_of_lt hlt]; exact h.1)))
  rcases Nat.lt_trichotomy p p' with hlt | heq | hgt'
  exacts [absurd hlt (before h h'), heq, absurd hgt' (before h' h)]

theorem length_flatRows {chunks : List (List α × RowReader)}
    (hrows : ∀ c ∈ chunks, c.1.length ≤ c.2.rows.length) :
    (flatRows chunks).length = (flatValues chunks).length := by
  induction chunks with
  | nil => rfl
  | cons c cs ih =>
    have hcs := ih fun c hc => hrows c (List.mem_cons_of_mem _ hc)
    simp only [flatRows, flatValues, List.map_cons, List.flatten_cons, List.length_append,
      List.length_take] at hcs ⊢
    rw [hcs, Nat.min_eq_left (hrows c (List.mem_cons_self _ _))]

/-- The position a run `Selects`, as a position of the flat sequence of values and rows. -/
theorem Selects.position {chunks : List (List α × RowReader)} {s : MaxSelector α}
    (h : Selects key chunks s) (hs : s.set = true)
    (hrows : ∀ c ∈ chunks, c.1.length ≤ c.2.rows.length) :
    ∃ p row, FirstMax key (flatValues chunks) p s.max ∧ (flatRows chunks)[p]? = some row ∧
      s.rows = [row] := by
  obtain ⟨pre, vs, rr, post, k, row, rfl, hk, hrow, hsrows, hlt, hle⟩ := h.2 hs
  have hkv : k < vs.length := (List.getElem?_eq_some_iff.1 hk).1
  have hpre : (flatRows pre).length = (flatValues pre).length :=
    length_flatRows fun c hc => hrows c (List.mem_append_left _ hc)
  have hflat : flatValues (pre ++ (vs, rr) :: post) = flatValues pre ++ (vs ++ flatValues post) := by
    simp [flatValues]
  have hflatRows : flatRows (pre ++ (vs, rr) :: post) =
      flatRows pre ++ (rr.rows.take vs.length ++ flatRows post) := by
    simp [flatRows]
  refine ⟨(flatValues pre).length + k, row, ⟨?_, hle, ?_⟩, ?_, hsrows⟩
  · rw [hflat, List.getElem?_append_right (by omega), Nat.add_sub_cancel_left,
      List.getElem?_append_left hkv, hk]
  · rw [hflat, List.take_append, List.take_append_of_le_length hkv.le]
    exact hlt
  · rw [hflatRows, ← hpre, List.getElem?_append_right (by omega), Nat.add_sub_cancel_left,
      List.getElem?_append_left (by simp [hkv, (List.getElem?_eq_some_iff.1 hrow).1]),
      List.getElem?_take_of_lt hkv, hrow]

theorem flatValues_batch (chunks : List (List α × RowReader)) :
    flatValues [batch chunks] = flatValues chunks := by
  simp [flatValues, batch]

theorem flatRows_batch {chunks : List (List α × RowReader)}
    (hrows : ∀ c ∈ chunks, c.1.length ≤ c.2.rows.length) :
    flatRows [batch chunks] = flatRows chunks := by
  show (flatRows chunks).take (flatValues chunks).length ++ [] = flatRows chunks
  rw [List.append_nil, List.take_of_length_le (length_flatRows hrows).le]

/-- Streaming and one batch call agree: from a fresh selector, the chunks of a block whose rows
cover their values and the batch call over all of them both return, with the same `Rows()`. -/
theorem doChunks_eq_batch {gt : α → α → Bool} (hgt : ∀ v m, gt v m = decide (key m < key v))
    (zero : α) (chunks : List (List α × RowReader))
    (hrows : ∀ c ∈ chunks, c.1.length ≤ c.2.rows.length) :
    ∃ s sb, doChunks (MaxSelector.doWith gt) (MaxSelector.new zero) chunks = .ok s ∧
      doChunks (MaxSelector.doWith gt) (MaxSelector.new zero) [batch chunks] = .ok sb ∧
      s.getRows = sb.getRows := by
  have hbrows : ∀ c ∈ [batch chunks], c.1.length ≤ c.2.rows.length := by
    intro c hc
    rw [List.mem_singleton.1 hc]
    exact (length_flatRows hrows).ge
  have hnew : Selects key [] (MaxSelector.new zero) := selects_new zero
  obtain ⟨s, hrun, hs⟩ := doChunks_run hgt chunks hrows [] _ hnew
  obtain ⟨sb, hbrun, hsb⟩ := doChunks_run hgt [batch chunks] hbrows [] _ hnew
  simp only [List.nil_append] at hs hsb
  have hset : s.set = sb.set := by
    rw [Bool.eq_iff_iff, hs.1, hsb.1]
    simp [batch, flatValues]
  refine ⟨s, sb, hrun, hbrun, ?_⟩
  cases hss : s.set
  · simp [MaxSelector.getRows, hss, ← hset]
  · obtain ⟨p, row, hp, hrow, hrows_s⟩ := hs.position hss hrows
    obtain ⟨p', row', hp', hrow', hrows_b⟩ := hsb.position (hset ▸ hss) hbrows
    rw [flatValues_batch] at hp'
    rw [flatRows_batch hrows, ← hp.unique hp', hrow] at hrow'
    cases hrow'
    simp [MaxSelector.getRows, hss, ← hset, hrows_s, hrows_b]

end Batch

/-! ### Comparisons that agree once a value of `P` is held -/

section Primed

variable {α : Type} (P : α → Prop) {gt₁ gt₂ : α → α → Bool}
  (hP : ∀ v m, P m → gt₁ v m = gt₂ v m) (hkeep : ∀ v m, P m → gt₁ v m = true → P v)

/-- `selectRow` changes the rows alone. -/
theorem selectRow_ok {s s' : MaxSelector α} {idx : Int} {rr : RowReader}
    (h : s.selectRow idx rr = .ok s') : ∃ rows, s' = { s with rows := rows } := by
  unfold MaxSelector.selectRow at h
  split at h
  · rcases hr : readRow idx.toNat rr with _ | r <;>
      simp only [hr, bind, Except.bind, pure, Except.pure, Except.ok.injEq, reduceCtorEq] at h
    exact ⟨_, h.symm⟩
  · cases h; exact ⟨s.rows, rfl⟩

/-- Once the selector saw a value, its maximum is in `P`; before, the first value to come is. -/
def Primed (s : MaxSelector α) (vs : List α) : Prop :=
  (s.set = true → P s.max) ∧ (s.set = false → ∀ x ∈ vs.head?, P x)

include hP hkeep

/-- Two comparisons that agree against a maximum in `P`, the first raising it only to values of
`P`, run a chunk alike from a primed selector, and leave it primed. -/
theorem doLoop_primed (s : MaxSelector α) (maxIdx : Int) (i : Nat) (vs rest : List α)
    (hs : Primed P s (vs ++ rest)) :
    doLoop gt₁ s maxIdx i vs = doLoop gt₂ s maxIdx i vs ∧
      Primed P (doLoop gt₁ s maxIdx i vs).1 rest := by
  induction vs generalizing s maxIdx i with
  | nil => exact ⟨rfl, hs⟩
  | cons v vs ih =>
    have hc : (!s.set || gt₁ v s.max) = (!s.set || gt₂ v s.max) := by
      cases hset : s.set
      · rfl
      · simp [hP v s.max (hs.1 hset)]
    simp only [doLoop, hc]
    by_cases h : (!s.set || gt₂ v s.max) = true
    · rw [if_pos h, if_pos h]
      refine ih _ _ _ ⟨fun _ => ?_, nofun⟩
      cases hset : s.set
      · exact hs.2 hset v rfl
      · exact hkeep v s.max (hs.1 hset) (by rw [hP v s.max (hs.1 hset)]; simpa [hset] using h)
    · rw [if_neg h, if_neg h]
      have hset : s.set = true := by by_contra hf; exact h (by simp [hf])
      exact ih _ _ _ ⟨hs.1, fun hf => absurd hset (by simp [hf])⟩

/-- The same over a block, from a selector primed for its values. -/
theorem doChunks_primed (s : MaxSelector α) (chunks : List (List α × RowReader))
    (hs : Primed P s (flatValues chunks)) :
    doChunks (MaxSelector.doWith gt₁) s chunks = doChunks (MaxSelector.doWith gt₂) s chunks := by
  induction chunks generalizing s with
  | nil => rfl
  | cons c cs ih =>
    obtain ⟨vs, rr⟩ := c
    obtain ⟨heq, hp⟩ := doLoop_primed P hP hkeep s (-1) 0 vs (flatValues cs) hs
    simp only [doChunks, MaxSelector.doWith, ← heq]
    rcases h : (doLoop gt₁ s (-1) 0 vs).1.selectRow (doLoop gt₁ s (-1) 0 vs).2 rr with e | s'
    · rfl
    · obtain ⟨rows, rfl⟩ := selectRow_ok h
      exact ih _ hp

end Primed

/-! ### The typed selectors

`DoInt` and `DoUInt` compare through the identity key, so the results above apply to them with
`key := id`. -/

/-- What a typed `Do` method of the max selector does with a block, from a fresh selector: every
split of the values into chunks whose rows cover them is processed; `Rows()` is empty exactly when
there is no value; otherwise it is the row `ReadRow(i, rr)` of a chunk `(vs, rr)` whose value at `i`
is the maximum of all the values; and it is what one batch call over all of them returns. -/
def StreamsAsBatch {α : Type} [LinearOrder α]
    (step : MaxSelector α → List α → RowReader → Except String (MaxSelector α)) (zero : α) :
    Prop :=
  ∀ chunks : List (List α × RowReader), (∀ c ∈ chunks, c.1.length ≤ c.2.rows.length) →
    ∃ s sb, doChunks step (.new zero) chunks = .ok s ∧
      doChunks step (.new zero) [batch chunks] = .ok sb ∧ s.getRows = sb.getRows ∧
      (s.getRows = [] ↔ flatValues chunks = []) ∧
      (flatValues chunks ≠ [] → ∃ (j : Nat) (vs : List α) (rr : RowReader) (i : Nat) (row : Row),
        chunks[j]? = some (vs, rr) ∧
        vs[i]? = some s.max ∧ readRow i rr = .ok row ∧ s.getRows = [row] ∧
        s.max ∈ flatValues chunks ∧ ∀ x ∈ flatValues chunks, x ≤ s.max)

/-- The loop with a linear order's own `>` streams as one batch call. -/
theorem streamsAsBatch_doWith {α : Type} [LinearOrder α] {gt : α → α → Bool}
    (hgt : ∀ v m, gt v m = decide (m < v)) (zero : α) :
    StreamsAsBatch (MaxSelector.doWith gt) zero := by
  unfold StreamsAsBatch
  intro chunks hrows
  have hid : ∀ v m, gt v m = decide (id m < id v) := hgt
  obtain ⟨s, sb, hrun, hbrun, heq⟩ := doChunks_eq_batch hid zero chunks hrows
  obtain ⟨s', hrun', hempty, hpos⟩ := doChunks_selects hid zero chunks hrows
  obtain rfl : s' = s := Except.ok.inj (hrun'.symm.trans hrun)
  have hflat : flatValues chunks = [] ↔ ∀ c ∈ chunks, c.1 = [] := by simp [flatValues]
  refine ⟨s', sb, hrun, hbrun, heq, hempty.trans hflat.symm, fun hne => ?_⟩
  have hs : s'.set = true := by
    by_contra hs
    exact hne (hflat.2 (hempty.1 (by simp [MaxSelector.getRows, hs])))
  obtain ⟨pre, vs, rr, post, k, row, hc, hk, hrow, hrows', -, hle⟩ := hpos hs
  refine ⟨pre.length, vs, rr, k, row, ?_, hk, index_eq_ok.2 hrow, hrows', ?_, hle⟩
  · rw [hc, List.getElem?_append_right le_rfl, Nat.sub_self, List.getElem?_cons_zero]
  · exact List.mem_flatten.2 ⟨vs, by simp [hc], List.getElem?_mem hk⟩

theorem maxSelector_streams_as_batch :
    StreamsAsBatch MaxSelector.doInt 0 ∧ StreamsAsBatch MaxSelector.doUInt 0 :=
  ⟨streamsAsBatch_doWith (fun _ _ => rfl) 0, streamsAsBatch_doWith (fun _ _ => rfl) 0⟩

/-- The value 7 three times, at times 0 and 10 in one chunk and 20 in the next: the selector keeps
the row at time 0, the earliest, where §4.5 asks for the latest for `max`. -/
theorem maxInt_tie_keeps_earliest :
    doChunks MaxSelector.doInt (.new 0)
      [([7, 7], ⟨[⟨"_time", .tTime, false, false⟩, ⟨"_value", .tInt, false, false⟩],
          [[.time 0, .int 7], [.time 10, .int 7]]⟩),
        ([7], ⟨[⟨"_time", .tTime, false, false⟩, ⟨"_value", .tInt, false, false⟩],
          [[.time 20, .int 7]]⟩)] =
      .ok ⟨true, 7, [[.time 0, .int 7]]⟩ :=
  rfl

/-- IEEE's `>` is false as soon as one side is a NaN. -/
theorem float64Gt_nan_left {a b : UInt64} (h : isNaN a = true) : float64Gt a b = false := by
  simp [float64Gt, h]

theorem float64Gt_nan_right {a b : UInt64} (h : isNaN b = true) : float64Gt a b = false := by
  simp [float64Gt, h]

/-- Once the maximum is a NaN, no value displaces it. -/
theorem doLoop_nan (s : MaxSelector UInt64) (hs : s.set = true) (hnan : isNaN s.max = true)
    (maxIdx : Int) (i : Nat) (vs : List UInt64) : doLoop float64Gt s maxIdx i vs = (s, maxIdx) := by
  induction vs generalizing i with
  | nil => rfl
  | cons v vs ih => simp [doLoop, hs, float64Gt_nan_right hnan, ih]

theorem doChunks_nan (s : MaxSelector UInt64) (hs : s.set = true) (hnan : isNaN s.max = true)
    (chunks : List (List UInt64 × RowReader)) : doChunks MaxSelector.doFloat s chunks = .ok s := by
  induction chunks with
  | nil => rfl
  | cons c cs ih =>
    simp [doChunks, MaxSelector.doFloat, MaxSelector.doWith, doLoop_nan s hs hnan,
      MaxSelector.selectRow, ih, bind, Except.bind, pure, Except.pure]

/-- A chunk whose first value is a NaN, from a fresh selector: the NaN and the chunk's first row are
kept, whatever follows. -/
theorem doChunks_nan_cons (x : UInt64) (hx : isNaN x = true) (vs : List UInt64) (rr : RowReader)
    (row : Row) (hrow : rr.rows[0]? = some row) (chunks : List (List UInt64 × RowReader)) :
    doChunks MaxSelector.doFloat (MaxSelector.new 0) ((x :: vs, rr) :: chunks) =
      .ok ⟨true, x, [row]⟩ := by
  have hloop : doLoop float64Gt (MaxSelector.new 0) (-1) 0 (x :: vs) = (⟨true, x, []⟩, 0) :=
    doLoop_nan ⟨true, x, []⟩ rfl hx 0 1 vs
  have hfirst : (MaxSelector.new 0).doFloat (x :: vs) rr = .ok ⟨true, x, [row]⟩ := by
    rw [MaxSelector.doFloat, MaxSelector.doWith, hloop]
    simp [MaxSelector.selectRow, readRow, index, hrow, bind, Except.bind, pure, Except.pure]
  rw [doChunks, hfirst]
  exact doChunks_nan ⟨true, x, [row]⟩ rfl hx chunks

/-- A NaN met first is never displaced, whatever follows: on every split of a block whose first
value is a NaN, `DoFloat` keeps that NaN and the row of the first chunk holding a value, since IEEE's
`>` against a NaN is false. Chunks with no value before it change nothing. -/
theorem doFloat_nan_first (chunks : List (List UInt64 × RowReader))
    (hrows : ∀ c ∈ chunks, c.1.length ≤ c.2.rows.length) {x : UInt64} {rest : List UInt64}
    (hflat : flatValues chunks = x :: rest) (hx : isNaN x = true) :
    ∃ pre vs rr post row, chunks = pre ++ (x :: vs, rr) :: post ∧ (∀ c ∈ pre, c.1 = []) ∧
      rr.rows[0]? = some row ∧
      doChunks MaxSelector.doFloat (MaxSelector.new 0) chunks = .ok ⟨true, x, [row]⟩ := by
  induction chunks with
  | nil => cases hflat
  | cons c cs ih =>
    obtain ⟨_ | ⟨y, vs⟩, rr⟩ := c
    · -- an empty chunk: the selector is still fresh
      obtain ⟨pre, vs, rr', post, row, rfl, hpre, hrow, hrun⟩ :=
        ih (fun c hc => hrows c (List.mem_cons_of_mem _ hc)) (by simpa [flatValues] using hflat)
      refine ⟨([], rr) :: pre, vs, rr', post, row, rfl, ?_, hrow, hrun⟩
      simpa using hpre
    · have hy : y = x := by simpa [flatValues] using congrArg List.head? hflat
      subst y
      have hlen := hrows _ (List.mem_cons_self _ _)
      obtain ⟨row, hrow⟩ : ∃ row, rr.rows[0]? = some row :=
        ⟨_, List.getElem?_eq_getElem (by simp at hlen; omega)⟩
      exact ⟨[], vs, rr, cs, row, rfl, by simp, hrow, doChunks_nan_cons x hx vs rr row hrow cs⟩

/-- The float64 columns of the runs below: time, then value. -/
def floatCols : List ColMeta := [⟨"_time", .tTime, false, false⟩, ⟨"_value", .tFloat, false, false⟩]

/-- An empty chunk, then a NaN and `2.0`, then `2.0`: the NaN and its row are kept. -/
def nanFirst : List (List UInt64 × RowReader) :=
  [([], ⟨floatCols, []⟩),
    ([0x7FF8000000000000, 0x4000000000000000],
      ⟨floatCols, [[.time 0, .float 0x7FF8000000000000], [.time 10, .float 0x4000000000000000]]⟩),
    ([0x4000000000000000], ⟨floatCols, [[.time 20, .float 0x4000000000000000]]⟩)]

theorem doFloat_nan_first_twoChunks :
    (∀ c ∈ nanFirst, c.1.length ≤ c.2.rows.length) ∧
    flatValues nanFirst = [0x7FF8000000000000, 0x4000000000000000, 0x4000000000000000] ∧
    isNaN 0x7FF8000000000000 = true ∧
    ∃ pre vs rr post row, nanFirst = pre ++ (0x7FF8000000000000 :: vs, rr) :: post ∧
      (∀ c ∈ pre, c.1 = []) ∧ rr.rows[0]? = some row ∧
      doChunks MaxSelector.doFloat (MaxSelector.new 0) nanFirst =
        .ok ⟨true, 0x7FF8000000000000, [row]⟩ :=
  ⟨by decide, rfl, by decide, doFloat_nan_first nanFirst (by decide) rfl (by decide)⟩

/-- The order `DoFloat` selects by once a number was seen: a NaN below every number. -/
def float64NaNKey (x : UInt64) : Int := if isNaN x then -18446744073709551616 else float64Key x

theorem float64NaNKey_nan_lt {x y : UInt64} (hx : isNaN x = true) (hy : isNaN y = false) :
    float64NaNKey x < float64NaNKey y := by
  have hlt := UInt64.toNat_lt_size (y &&& 0x7FFFFFFFFFFFFFFF)
  rw [float64NaNKey, float64NaNKey, if_pos hx, if_neg (by simp [hy]), float64Key]
  split <;> simp only [UInt64.size] at hlt <;> omega

/-- Against a number, IEEE's `>` is the order that puts a NaN below every number. -/
theorem float64Gt_eq_nanKey (v : UInt64) {m : UInt64} (hm : isNaN m = false) :
    float64Gt v m = decide (float64NaNKey m < float64NaNKey v) := by
  cases hv : isNaN v
  · simp [float64Gt, float64NaNKey, hv, hm]
  · simp [float64Gt_nan_left hv, (float64NaNKey_nan_lt hv hm).not_lt]

/-- On a block whose first value is a number, `DoFloat` is the selector ordered with a NaN below
every number: the maximum is a number from the first value on, and only a number raises it. -/
theorem doFloat_eq_nanKey (chunks : List (List UInt64 × RowReader))
    (hfirst : ∀ x ∈ (flatValues chunks).head?, isNaN x = false) :
    doChunks MaxSelector.doFloat (MaxSelector.new 0) chunks =
      doChunks (MaxSelector.doWith fun v m => decide (float64NaNKey m < float64NaNKey v))
        (MaxSelector.new 0) chunks :=
  doChunks_primed (fun x => isNaN x = false) (fun v _ hm => float64Gt_eq_nanKey v hm)
    (fun v _ _ h => by simp only [float64Gt, Bool.and_eq_true, Bool.not_eq_true'] at h; exact h.1.1)
    _ chunks ⟨nofun, fun _ => hfirst⟩

/-- `DoFloat` over a block whose first value is a number: every split into chunks whose rows cover
their values is processed; `Rows()` is empty exactly when there is no value; otherwise the maximum
is a number and the row is that of the first position holding the largest number, the NaNs among
the values passed over. -/
theorem doFloat_selects (chunks : List (List UInt64 × RowReader))
    (hrows : ∀ c ∈ chunks, c.1.length ≤ c.2.rows.length)
    (hfirst : ∀ x ∈ (flatValues chunks).head?, isNaN x = false) :
    ∃ s, doChunks MaxSelector.doFloat (MaxSelector.new 0) chunks = .ok s ∧
      (s.getRows = [] ↔ ∀ c ∈ chunks, c.1 = []) ∧
      (s.set = true → isNaN s.max = false ∧ ∃ pre vs rr post k row,
        chunks = pre ++ (vs, rr) :: post ∧ vs[k]? = some s.max ∧ rr.rows[k]? = some row ∧
        s.getRows = [row] ∧
        (∀ v ∈ (pre.map Prod.fst).flatten ++ vs.take k, isNaN v = false →
          float64Key v < float64Key s.max) ∧
        ∀ v ∈ flatValues chunks, isNaN v = false → float64Key v ≤ float64Key s.max) := by
  have hkey : ∀ v m, (fun v m => decide (float64NaNKey m < float64NaNKey v)) v m =
      decide (float64NaNKey m < float64NaNKey v) := fun _ _ => rfl
  obtain ⟨s, hrun, hempty, hpos⟩ := doChunks_selects hkey 0 chunks hrows
  refine ⟨s, (doFloat_eq_nanKey chunks hfirst).trans hrun, hempty, fun hs => ?_⟩
  obtain ⟨pre, vs, rr, post, k, row, hc, hk, hrow, hget, hlt, hle⟩ := hpos hs
  -- the first value is a number no larger than the maximum, so the maximum is a number
  have hmax : isNaN s.max = false := by
    have hmem : s.max ∈ flatValues chunks :=
      List.mem_flatten.2 ⟨vs, by simp [hc], List.getElem?_mem hk⟩
    obtain ⟨x, hx⟩ : ∃ x, (flatValues chunks).head? = some x := by
      cases h : flatValues chunks with
      | nil => exact absurd (h ▸ hmem) (List.not_mem_nil _)
      | cons x _ => exact ⟨x, rfl⟩
    by_contra hn
    exact absurd (hle x (List.mem_of_mem_head? hx))
      (not_le.2 (float64NaNKey_nan_lt (by simpa using hn) (hfirst x hx)))
  have hnum : ∀ v, isNaN v = false → float64NaNKey v = float64Key v := fun v hv => by
    simp [float64NaNKey, hv]
  refine ⟨hmax, pre, vs, rr, post, k, row, hc, hk, hrow, hget, fun v hv hvn => ?_,
    fun v hv hvn => ?_⟩
  · simpa [hnum v hvn, hnum _ hmax] using hlt v hv
  · simpa [hnum v hvn, hnum _ hmax] using hle v hv

/-- 1.0 and a NaN in one chunk, 2.0 in the next. -/
def numberThenNaN : List (List UInt64 × RowReader) :=
  [([0x3FF0000000000000, 0x7FF8000000000000],
      ⟨floatCols, [[.time 0, .float 0x3FF0000000000000], [.time 10, .float 0x7FF8000000000000]]⟩),
    ([0x4000000000000000], ⟨floatCols, [[.time 20, .float 0x4000000000000000]]⟩)]

example : doChunks MaxSelector.doFloat (.new 0) numberThenNaN =
    .ok ⟨true, 0x4000000000000000, [[.time 20, .float 0x4000000000000000]]⟩ := rfl

theorem doFloat_selects_numberThenNaN :
    (∀ c ∈ numberThenNaN, c.1.length ≤ c.2.rows.length) ∧
    (∀ x ∈ (flatValues numberThenNaN).head?, isNaN x = false) ∧
    ∃ s, doChunks MaxSelector.doFloat (MaxSelector.new 0) numberThenNaN = .ok s ∧
      (s.getRows = [] ↔ ∀ c ∈ numberThenNaN, c.1 = []) ∧
      (s.set = true → isNaN s.max = false ∧ ∃ pre vs rr post k row,
        numberThenNaN = pre ++ (vs, rr) :: post ∧ vs[k]? = some s.max ∧ rr.rows[k]? = some row ∧
        s.getRows = [row] ∧
        (∀ v ∈ (pre.map Prod.fst).flatten ++ vs.take k, isNaN v = false →
          float64Key v < float64Key s.max) ∧
        ∀ v ∈ flatValues numberThenNaN, isNaN v = false → float64Key v ≤ float64Key s.max) :=
  ⟨by decide, by decide, doFloat_selects numberThenNaN (by decide) (by decide)⟩

end Ifql.Max
