import Ifql.Block

/-!
# The storage reader's block iterator

`storageBlockIterator.Do` turns the stream of `ReadResponse` messages of the storage service into
blocks: each `series` frame opens a block, handed to the consumer `f`, and the point frames after it
are that block's rows, read by the one value iterator the consumer drains. The messages, the frames
not yet consumed of the last message received (`readState`), and the iterator's column buffers are
the state; `more`, `peek` and `next` are the only ways the frames are read.

`Do`'s loop need not end, so it runs on fuel, and a run ends in one of three ways (`Run`): it
returns, it panics, or the fuel runs out. A stream is a finite list of messages; a receive that fails
other than at the end of the stream makes `more` report `false` as the end does, and is not told
apart. The consumers modelled are the ones that drain their block (`Drain`): one typed `Do`
accessor on one value iterator, run before `f` returns, so the wait on the block's done channel
returns at once. Only those accessors close the channel, so a Go consumer that returns without
draining its block leaves `Do` blocked in `block.wait()` for ever; the results below are not about
such consumers. The buffers a value iterator reuses from frame to
frame are passed to the callbacks by value, as they are at the time of the call.

`TimeCol` follows the specification (a time column of kind `time`). `ValueCol`, the metadata of the
value column every block declares, is a parameter: its kind is what the results below are about.

Main results:

* **`doBlocks_refines`**: on a stream of non-empty messages of series, integer and float frames
  with matching lengths, starting with a series frame, `Do` delivers one block per series frame, in
  order, with the frame's tags, and the `DoTime` callbacks of that block see exactly the timestamps
  and values of the point frames up to the next series frame, however the frames are split into
  messages.
* **`doBlocks_spins`**: a point frame at the front of the unread frames makes `Do` loop for
  ever.
* **`doBlocks_outOfFuel_iff`**: that is the only way it does not end: with more fuel than frames,
  on any stream of non-empty messages and with any consumer that drains its block, `Do` runs out
  of fuel exactly when the first frame is an integer or a float point frame, and otherwise returns
  or panics.
-/

namespace Ifql.Storage

open Execute

/-! ### Frames and the read state -/

/-- Modelled from the spec: `storage.ReadResponse_Frame`, one of six kinds. -/
inductive Frame where
  | series (tags : List (String × String))
  | integerPoints (timestamps : List Int) (values : List Int)
  | floatPoints (timestamps : List Int) (values : List UInt64)
  | stringPoints (timestamps : List Int) (values : List String)
  | booleanPoints (timestamps : List Int) (values : List Bool)
  | unsignedPoints (timestamps : List Int) (values : List Nat)
  deriving DecidableEq, Repr

/-- Modelled from the spec: `GetSeries()`, the series' tags, or `nil`. -/
def Frame.getSeries : Frame → Option (List (String × String))
  | .series tags => some tags
  | _ => none

/-- Modelled from the spec: `GetIntegerPoints()`. -/
def Frame.getIntegerPoints : Frame → Option (List Int × List Int)
  | .integerPoints ts vs => some (ts, vs)
  | _ => none

/-- Modelled from the spec: `GetFloatPoints()`. -/
def Frame.getFloatPoints : Frame → Option (List Int × List UInt64)
  | .floatPoints ts vs => some (ts, vs)
  | _ => none

/-- `readState`: the messages the stream has yet to deliver, and the frames of the last message
received that are not consumed yet. -/
structure ReadState where
  stream : List (List Frame)
  rep : List Frame
  deriving DecidableEq, Repr

/-- `responseType`. -/
inductive ResponseType where
  | seriesType
  | integerPointsType
  | floatPointsType
  deriving DecidableEq, Repr

/-- The panic of `peek` on a frame of another kind. -/
def peekPanic : String :=
  "read response frame should have one of series, integerPoints, or floatPoints"

/-- Go's panic on a `nil` pointer. -/
def nilDereference : String := "runtime error: invalid memory address or nil pointer dereference"

/-- `readState.peek`. -/
def ReadState.peek (s : ReadState) : Except String ResponseType := do
  let frame ← index s.rep 0
  if frame.getSeries.isSome then pure .seriesType
  else if frame.getIntegerPoints.isSome then pure .integerPointsType
  else if frame.getFloatPoints.isSome then pure .floatPointsType
  else throw peekPanic

/-- `readState.more`: frames are left, or a message was received (`RecvMsg` replaces `rep`). -/
def ReadState.more (s : ReadState) : Bool × ReadState :=
  match s.rep, s.stream with
  | _ :: _, _ => (true, s)
  | [], [] => (false, s)
  | [], m :: ms => (true, ⟨ms, m⟩)

/-- `readState.next`. -/
def ReadState.next (s : ReadState) : Except String (Frame × ReadState) := do
  let frame ← index s.rep 0
  pure (frame, { s with rep := s.rep.drop 1 })

/-- The frames not yet consumed, in stream order. -/
def ReadState.frames (s : ReadState) : List Frame := s.rep ++ s.stream.flatten

/-- No message left to receive is empty. -/
def ReadState.Good (s : ReadState) : Prop := ∀ m ∈ s.stream, m ≠ []

instance (s : ReadState) : Decidable s.Good := inferInstanceAs (Decidable (∀ m ∈ s.stream, m ≠ []))

/-- A series frame. -/
def Frame.isSeries : Frame → Bool
  | .series _ => true
  | _ => false

/-- A point frame `advance` decodes: integer or float points with as many values as timestamps. -/
def Frame.isPoint : Frame → Bool
  | .integerPoints ts vs => ts.length == vs.length
  | .floatPoints ts vs => ts.length == vs.length
  | _ => false

section ReadLemmas

variable {s : ReadState} {fr : Frame} {rest : List Frame}

/-- On a stream with no empty message, `more` finds the next frame, receiving a message if it
must, and consumes nothing. -/
theorem ReadState.more_cons (hs : s.Good) (h : s.frames = fr :: rest) :
    ∃ r, (s.more).1 = true ∧ (s.more).2.rep = fr :: r ∧ (s.more).2.frames = fr :: rest ∧
      (s.more).2.Good := by
  obtain ⟨stream, rep⟩ := s
  cases rep with
  | cons fr' r =>
    simp only [frames, List.cons_append, List.cons.injEq] at h
    obtain ⟨rfl, rfl⟩ := h
    exact ⟨r, rfl, rfl, rfl, hs⟩
  | nil =>
    cases stream with
    | nil => simp [frames] at h
    | cons m ms =>
      have hm : m ≠ [] := hs m (List.mem_cons_self _ _)
      obtain ⟨fr', r, rfl⟩ := List.exists_cons_of_ne_nil hm
      simp only [frames, List.nil_append, List.flatten_cons, List.cons_append,
        List.cons.injEq] at h
      obtain ⟨rfl, rfl⟩ := h
      exact ⟨r, rfl, rfl, by simp [more, frames], fun m' hm' => hs m' (List.mem_cons_of_mem _ hm')⟩

theorem ReadState.more_eq (hs : s.Good) (h : s.frames = fr :: rest) :
    ∃ s' r, s.more = (true, s') ∧ s'.rep = fr :: r ∧ r ++ s'.stream.flatten = rest ∧ s'.Good := by
  obtain ⟨r, h1, h2, h3, h4⟩ := more_cons hs h
  refine ⟨_, r, Prod.ext h1 rfl, h2, ?_, h4⟩
  simpa [frames, h2] using h3

theorem ReadState.more_nil (hs : s.Good) (h : s.frames = []) : s.more = (false, s) := by
  obtain ⟨stream, rep⟩ := s
  simp only [frames, List.append_eq_nil, List.flatten_eq_nil_iff] at h
  cases stream with
  | nil => simp [more, h.1]
  | cons m ms => exact absurd (h.2 m (List.mem_cons_self _ _)) (hs m (List.mem_cons_self _ _))

theorem ReadState.next_cons {r : List Frame} (h : s.rep = fr :: r) :
    s.next = .ok (fr, { s with rep := r }) := by
  simp [next, index, h, bind, Except.bind, pure, Except.pure]

theorem ReadState.peek_series {r : List Frame} (h : s.rep = fr :: r) (hfr : fr.isSeries) :
    s.peek = .ok .seriesType := by
  cases fr <;> simp_all [peek, index, Frame.isSeries, Frame.getSeries, bind, Except.bind, pure,
    Except.pure]

end ReadLemmas

/-! ### Value iterators -/

/-- The dynamic value of a column buffer `colBufs[j]`: `nil`, or the `[]Time`, `[]int64` or
`[]float64` buffer `advance` last stored there. -/
inductive Buf where
  | nil
  | times (v : List Int)
  | ints (v : List Int)
  | floats (v : List UInt64)
  deriving DecidableEq, Repr

/-- The Go type of a buffer, as a failed type assertion names it. -/
def Buf.goType : Buf → String
  | .nil => "nil"
  | .times _ => "[]execute.Time"
  | .ints _ => "[]int64"
  | .floats _ => "[]float64"

/-- The assertion `.([]Time)`. -/
def Buf.asTimes : Buf → Option (List Int)
  | .times v => some v
  | _ => none

/-- The assertion `.([]int64)`. -/
def Buf.asInts : Buf → Option (List Int)
  | .ints v => some v
  | _ => none

/-- The assertion `.([]float64)`. -/
def Buf.asFloats : Buf → Option (List UInt64)
  | .floats v => some v
  | _ => none

/-- The assertion `.([]string)`: no buffer holds strings. -/
def Buf.asStrings : Buf → Option (List String) := fun _ => none

/-- The panic of a failed type assertion on a buffer. -/
def conversionPanic (buf : Buf) (goType : String) : String :=
  "interface conversion: interface \x7b\x7d is " ++ buf.goType ++ ", not " ++ goType

/-- `storageBlockValueIterator`: the block's two columns, the column it iterates, and the column
buffers. -/
structure ValueIterator where
  colMeta : ColMeta × ColMeta
  col : Nat
  colBufs : Buf × Buf
  deriving DecidableEq, Repr

/-- `colMeta[j]`. -/
def ValueIterator.meta (b : ValueIterator) (j : Nat) : Except String ColMeta :=
  index [b.colMeta.1, b.colMeta.2] j

/-- `colBufs[j]`. -/
def ValueIterator.buf (b : ValueIterator) (j : Nat) : Except String Buf :=
  index [b.colBufs.1, b.colBufs.2] j

/-- The copy loop of one point frame: its timestamps into the time buffer, and the values at the
same indices into the value buffer; a value slice shorter than the timestamps is indexed out of
range. -/
def ValueIterator.fill {α : Type} (b : ValueIterator) (wrap : List α → Buf) (ts : List Int)
    (vs : List α) : Except String ValueIterator :=
  if ts.length ≤ vs.length then .ok { b with colBufs := (.times ts, wrap (vs.take ts.length)) }
  else .error indexOutOfRange

/-- `advance`. Each case of its loop returns, so the loop body runs at most once. -/
def ValueIterator.advance (b : ValueIterator) (s : ReadState) :
    Except String (Bool × ValueIterator × ReadState) :=
  match s.more with
  | (false, s) => .ok (false, b, s)
  | (true, s) => do
    match ← s.peek with
    | .seriesType => pure (false, b, s)
    | .integerPointsType =>
      let (frame, s) ← s.next
      match frame.getIntegerPoints with
      | none => throw nilDereference
      | some (ts, vs) => pure (true, ← b.fill .ints ts vs, s)
    | .floatPointsType =>
      let (frame, s) ← s.next
      match frame.getFloatPoints with
      | none => throw nilDereference
      | some (ts, vs) => pure (true, ← b.fill .floats ts vs, s)

/-- How a run of a loop ends: it returns, it panics, or its fuel runs out. -/
inductive Run (α : Type) where
  | done (a : α)
  | panic (msg : String)
  | outOfFuel
  deriving DecidableEq, Repr

/-- Apply a function to what a run returns. -/
def Run.map {α β : Type} (f : α → β) : Run α → Run β
  | .done a => .done (f a)
  | .panic msg => .panic msg
  | .outOfFuel => .outOfFuel

@[simp] theorem Run.map_done {α β : Type} (f : α → β) (a : α) : (Run.done a).map f = .done (f a) :=
  rfl

section Typed

variable {α Out : Type} (typ : DataType) (goType : String) (cast : Buf → Option (List α))

/-- The loop `for b.advance() { f(b.colBufs[b.col].(T), b) }` of the typed `Do` accessors. -/
def ValueIterator.doLoop (f : List α → ValueIterator → Except String Out) :
    Nat → ValueIterator → ReadState → Run (List Out × ReadState)
  | 0, _, _ => .outOfFuel
  | n + 1, b, s =>
    match b.advance s with
    | .error p => .panic p
    | .ok (false, _, s) => .done ([], s)
    | .ok (true, b, s) =>
      match b.buf b.col with
      | .error p => .panic p
      | .ok buf =>
        match cast buf with
        | none => .panic (conversionPanic buf goType)
        | some xs =>
          match f xs b with
          | .error p => .panic p
          | .ok o => (ValueIterator.doLoop f n b s).map fun (os, s) => (o :: os, s)

/-- The typed `Do` accessors, as one: `checkColType`, then the loop. The outputs are the
callback's, in call order. -/
def ValueIterator.doWith (f : List α → ValueIterator → Except String Out) (fuel : Nat)
    (b : ValueIterator) (s : ReadState) : Run (List Out × ReadState) :=
  match b.meta b.col >>= (checkColType · typ) with
  | .error p => .panic p
  | .ok () => ValueIterator.doLoop goType cast f fuel b s

/-- The typed `At` accessors, as one: `checkColType`, the type assertion, the index. -/
def ValueIterator.atWith (b : ValueIterator) (i j : Nat) : Except String α := do
  checkColType (← b.meta j) typ
  let buf ← b.buf j
  match cast buf with
  | none => throw (conversionPanic buf goType)
  | some xs => index xs i

end Typed

/-- `DoFloat`. -/
def ValueIterator.doFloat {Out : Type} (f : List UInt64 → ValueIterator → Except String Out) :=
  ValueIterator.doWith .tFloat "[]float64" Buf.asFloats f

/-- `DoString`. -/
def ValueIterator.doString {Out : Type} (f : List String → ValueIterator → Except String Out) :=
  ValueIterator.doWith .tString "[]string" Buf.asStrings f

/-- `DoTime`. -/
def ValueIterator.doTime {Out : Type} (f : List Int → ValueIterator → Except String Out) :=
  ValueIterator.doWith .tTime "[]execute.Time" Buf.asTimes f

/-- `AtFloat`. -/
def ValueIterator.atFloat := ValueIterator.atWith .tFloat "[]float64" Buf.asFloats

/-- `AtString`. -/
def ValueIterator.atString := ValueIterator.atWith .tString "[]string" Buf.asStrings

/-- `AtInt`. -/
def ValueIterator.atInt := ValueIterator.atWith .tInt "[]int64" Buf.asInts

/-- `AtTime`. -/
def ValueIterator.atTime := ValueIterator.atWith .tTime "[]execute.Time" Buf.asTimes

/-! ### Reading the point frames of one block -/

/-- The timestamps of a point frame. -/
def Frame.timestamps : Frame → List Int
  | .integerPoints ts _ => ts
  | .floatPoints ts _ => ts
  | _ => []

/-- The column buffers `advance` fills from a point frame. -/
def Frame.colBufs : Frame → Buf × Buf
  | .integerPoints ts vs => (.times ts, .ints vs)
  | .floatPoints ts vs => (.times ts, .floats vs)
  | _ => (.nil, .nil)

section AdvanceLemmas

variable {s : ReadState} {fr : Frame} {rest : List Frame}

theorem Frame.colBufs_fst (hfr : fr.isPoint) : fr.colBufs.1 = .times fr.timestamps := by
  cases fr <;> simp_all [Frame.isPoint, Frame.colBufs, Frame.timestamps]

/-- `advance` on a point frame consumes it and leaves its timestamps and values in the buffers. -/
theorem ValueIterator.advance_point (b : ValueIterator) (hs : s.Good) (h : s.frames = fr :: rest)
    (hfr : fr.isPoint) :
    ∃ s', b.advance s = .ok (true, { b with colBufs := fr.colBufs }, s') ∧ s'.frames = rest ∧
      s'.Good := by
  obtain ⟨s', r, hm, hrep, hrest, hgood⟩ := ReadState.more_eq hs h
  refine ⟨{ s' with rep := r }, ?_, hrest, hgood⟩
  cases fr <;> simp only [Frame.isPoint, beq_iff_eq, Bool.false_eq_true] at hfr
  all_goals simp [advance, hm, ReadState.peek, ReadState.next, index, hrep, Frame.getSeries,
    Frame.getIntegerPoints, Frame.getFloatPoints, fill, hfr, Frame.colBufs, bind, Except.bind,
    pure, Except.pure]

/-- `advance` stops at a series frame without consuming it. -/
theorem ValueIterator.advance_series (b : ValueIterator) (hs : s.Good) (h : s.frames = fr :: rest)
    (hfr : fr.isSeries) :
    ∃ s', b.advance s = .ok (false, b, s') ∧ s'.frames = fr :: rest ∧ s'.Good := by
  obtain ⟨r, h1, h2, h3, h4⟩ := ReadState.more_cons hs h
  refine ⟨_, ?_, h3, h4⟩
  rw [advance, show s.more = (true, s.more.2) from Prod.ext h1 rfl]
  simp [ReadState.peek_series h2 hfr, bind, Except.bind, pure, Except.pure]

theorem ValueIterator.advance_end (b : ValueIterator) (hs : s.Good) (h : s.frames = []) :
    b.advance s = .ok (false, b, s) := by
  simp [advance, ReadState.more_nil hs h]

/-- `DoTime`'s loop on `Col(0)` reads the point frames up to the next series frame or the end of
the stream, and calls the callback once for each, with its timestamps and buffers. -/
theorem ValueIterator.doLoop_times {Out : Type} (g : List Int → ValueIterator → Out)
    {pts : List Frame} (hpts : ∀ fr ∈ pts, fr.isPoint) (hrest : ∀ fr ∈ rest.head?, fr.isSeries) :
    ∀ {s : ReadState} {b : ValueIterator} {n : Nat}, b.col = 0 → s.Good →
      s.frames = pts ++ rest → pts.length < n →
      ∃ s', doLoop "[]execute.Time" Buf.asTimes (fun ts it => .ok (g ts it)) n b s =
        .done (pts.map fun fr => g fr.timestamps { b with colBufs := fr.colBufs }, s') ∧
        s'.frames = rest ∧ s'.Good := by
  induction pts with
  | nil =>
    intro s b n hb hs h hn
    obtain ⟨m, rfl⟩ : ∃ m, n = m + 1 := ⟨n - 1, by simp at hn; omega⟩
    cases rest with
    | nil => exact ⟨s, by simp [doLoop, ValueIterator.advance_end b hs h], h, hs⟩
    | cons fr rest =>
      obtain ⟨s', hadv, hs'⟩ := ValueIterator.advance_series b hs h (hrest fr rfl)
      exact ⟨s', by simp [doLoop, hadv], hs'⟩
  | cons fr pts ih =>
    rintro s ⟨cm, c, bufs⟩ n (rfl : c = 0) hs h hn
    obtain ⟨m, rfl⟩ : ∃ m, n = m + 1 := ⟨n - 1, by simp at hn; omega⟩
    have hfr := hpts fr (List.mem_cons_self _ _)
    obtain ⟨s1, hadv, hs1, hg1⟩ := ValueIterator.advance_point ⟨cm, 0, bufs⟩ hs h hfr
    obtain ⟨s', hloop, hs'⟩ := ih (fun f hf => hpts f (List.mem_cons_of_mem _ hf))
      (b := ⟨cm, 0, fr.colBufs⟩) (n := m) rfl hg1 hs1 (by simp at hn; omega)
    refine ⟨s', ?_, hs'⟩
    simp [doLoop, hadv, buf, index, Frame.colBufs_fst hfr, Buf.asTimes, hloop]

end AdvanceLemmas

/-! ### Blocks and `Do` -/

/-- `storageBlock`, without the shared read state and the done channel. -/
structure StorageBlock where
  bounds : Bounds
  tags : Tags
  colMeta : ColMeta × ColMeta

/-- `Cols()`. -/
def StorageBlock.cols (blk : StorageBlock) : List ColMeta := [blk.colMeta.1, blk.colMeta.2]

/-- `Col(c)`: a fresh value iterator on column `c`. `Times()` is `Col(0)`, `Values()` is `Col(1)`. -/
def StorageBlock.col (blk : StorageBlock) (c : Nat) : ValueIterator := ⟨blk.colMeta, c, (.nil, .nil)⟩

/-- What a consumer that drains its block does with it: drain one value iterator `Col(col)` with
one typed `Do` accessor and a callback. The accessor closes the block's done channel when its loop
ends; a Go consumer that never calls one blocks `Do` for ever in `block.wait()`, and is not one of
these. -/
inductive Drain (Out : Type) where
  | doFloat (col : Nat) (f : List UInt64 → ValueIterator → Except String Out)
  | doString (col : Nat) (f : List String → ValueIterator → Except String Out)
  | doTime (col : Nat) (f : List Int → ValueIterator → Except String Out)

/-- Run a consumer's drain of a block. -/
def Drain.run {Out : Type} (blk : StorageBlock) (fuel : Nat) (s : ReadState) :
    Drain Out → Run (List Out × ReadState)
  | .doFloat c f => (blk.col c).doFloat f fuel s
  | .doString c f => (blk.col c).doString f fuel s
  | .doTime c f => (blk.col c).doTime f fuel s

/-- The tag map built from a series frame's tags; a later duplicate key wins. -/
def tagsOf (tags : List (String × String)) : Tags :=
  tags.foldl (fun m t => Function.update m t.1 (some t.2)) fun _ => none

/-- Modelled from the spec: `TimeCol`, the time column. -/
def timeCol : ColMeta := ⟨"time", .tTime, false, false⟩

section Do

variable {Out : Type} (bounds : Bounds) (valueCol : ColMeta) (f : StorageBlock → Drain Out)

/-- `storageBlockIterator.Do`: the blocks delivered, each with its consumer's outputs. -/
def doBlocks : Nat → ReadState → Run (List (StorageBlock × List Out))
  | 0, _ => .outOfFuel
  | n + 1, s =>
    match s.more with
    | (false, _) => .done []
    | (true, s) =>
      match s.peek with
      | .error p => .panic p
      | .ok .seriesType =>
        match s.next with
        | .error p => .panic p
        | .ok (frame, s) =>
          match frame.getSeries with
          | none => .panic nilDereference
          | some tags =>
            let blk : StorageBlock := ⟨bounds, tagsOf tags, (timeCol, valueCol)⟩
            match (f blk).run blk n s with
            | .panic p => .panic p
            | .outOfFuel => .outOfFuel
            | .done (outs, s) => (doBlocks n s).map ((blk, outs) :: ·)
      | .ok _ => doBlocks n s

end Do

/-! ### What `Do` delivers on a well-formed stream -/

/-- Modelled from the spec: the point frames before the first series frame, and the blocks from
it on, each a series frame's tags and the point frames up to the next series frame. -/
def split : List Frame → List Frame × List (List (String × String) × List Frame)
  | [] => ([], [])
  | fr :: rest =>
    let r := split rest
    match fr with
    | .series tags => ([], (tags, r.1) :: r.2)
    | _ => (fr :: r.1, r.2)

theorem split_fst (l : List Frame) : (split l).1 = l.takeWhile (! ·.isSeries) := by
  induction l with
  | nil => rfl
  | cons fr rest ih => cases fr <;> simp [split, Frame.isSeries, ih]

theorem split_series (tags : List (String × String)) (rest : List Frame) :
    (split (.series tags :: rest)).2 =
      (tags, rest.takeWhile (! ·.isSeries)) :: (split (rest.dropWhile (! ·.isSeries))).2 := by
  have key : ∀ l : List Frame, (split l).2 = (split (l.dropWhile (! ·.isSeries))).2 := by
    intro l
    induction l with
    | nil => rfl
    | cons fr rest ih => cases fr <;> simp [split, Frame.isSeries, ih]
  simp [split, split_fst, key rest]

section Refinement

variable {Out : Type} (bounds : Bounds) (valueCol : ColMeta)
  (g : StorageBlock → List Int → ValueIterator → Out)

/-- A consumer that drains `Times()` with `DoTime` and the callback `g`. -/
def timesConsumer (blk : StorageBlock) : Drain Out := .doTime 0 fun ts it => .ok (g blk ts it)

/-- What `Do` delivers by the spec: one block per series frame, with its tags, the iterator's
bounds and the columns `[TimeCol, ValueCol]`, and the callback's outputs on each of the block's
point frames, given its timestamps and the buffers holding its timestamps and values. -/
def specBlocks (frames : List Frame) : List (StorageBlock × List Out) :=
  (split frames).2.map fun (tags, pts) =>
    let blk : StorageBlock := ⟨bounds, tagsOf tags, (timeCol, valueCol)⟩
    (blk, pts.map fun fr => g blk fr.timestamps ⟨blk.colMeta, 0, fr.colBufs⟩)

/-- The run lemma: from any state of a stream without empty messages whose unread frames are
series and point frames, the next of them a series frame, `Do` delivers `specBlocks`. -/
theorem doBlocks_refines (n : Nat) : ∀ {s : ReadState}, s.Good →
    (∀ fr ∈ s.frames, fr.isSeries ∨ fr.isPoint) → (∀ fr ∈ s.frames.head?, fr.isSeries) →
    s.frames.length < n →
    doBlocks bounds valueCol (timesConsumer g) n s = .done (specBlocks bounds valueCol g s.frames) := by
  induction n with
  | zero => intro s _ _ _ hn; omega
  | succ n ih =>
    intro s hs hkinds hhead hn
    cases hfr : s.frames with
    | nil => simp [doBlocks, ReadState.more_nil hs hfr, specBlocks, split]
    | cons fr rest =>
      rw [hfr] at hkinds hhead hn
      obtain ⟨tags, rfl⟩ : ∃ tags, fr = .series tags := by
        have h := hhead fr rfl
        cases fr <;> first | exact ⟨_, rfl⟩ | cases h
      obtain ⟨s1, r, hm, hrep, hrest, hs1⟩ := ReadState.more_eq hs hfr
      have hpts : ∀ f ∈ rest.takeWhile (! ·.isSeries), f.isPoint := by
        intro f hf
        have hns : (!f.isSeries) = true := List.mem_takeWhile_imp (p := fun x : Frame => !x.isSeries) hf
        rcases hkinds f (List.mem_cons_of_mem _ (List.takeWhile_subset _ hf)) with h | h
        · rw [h] at hns; cases hns
        · exact h
      have hnext : ∀ f ∈ (rest.dropWhile (! ·.isSeries)).head?, f.isSeries := by
        intro f hf
        have := List.head?_dropWhile_not (! ·.isSeries) rest
        rw [Option.mem_def.1 hf] at this
        simpa using this
      have hs2 : ReadState.Good { s1 with rep := r } := hs1
      have hf2 : ReadState.frames { s1 with rep := r } =
          rest.takeWhile (! ·.isSeries) ++ rest.dropWhile (! ·.isSeries) := by
        simpa [ReadState.frames] using hrest
      obtain ⟨s3, hloop, hs3, hg3⟩ := ValueIterator.doLoop_times
        (g ⟨bounds, tagsOf tags, (timeCol, valueCol)⟩) hpts hnext
        (b := ⟨(timeCol, valueCol), 0, (.nil, .nil)⟩) (n := n) rfl hs2 hf2
        (by have := (List.takeWhile_sublist (l := rest) (! ·.isSeries)).length_le; simp at hn; omega)
      have hrec := ih hg3 (by
          rw [hs3]; exact fun f hf => hkinds f (List.mem_cons_of_mem _ (List.dropWhile_subset _ hf)))
        (by rw [hs3]; exact hnext)
        (by rw [hs3]; have := (List.dropWhile_sublist (l := rest) (! ·.isSeries)).length_le
            simp at hn; omega)
      have htime : checkColType timeCol .tTime = .ok () := rfl
      simp [doBlocks, hm, ReadState.peek_series hrep rfl, ReadState.next_cons hrep, Frame.getSeries,
        Drain.run, timesConsumer, ValueIterator.doTime, ValueIterator.doWith, StorageBlock.col,
        ValueIterator.meta, index, htime, bind, Except.bind, hloop, hrec, hs3, specBlocks,
        split_series]

end Refinement

theorem do_refines_split {Out : Type} (bounds : Bounds) (valueCol : ColMeta)
    (g : StorageBlock → List Int → ValueIterator → Out) (ms : List (List Frame))
    (hne : ∀ m ∈ ms, m ≠ []) (hkinds : ∀ fr ∈ ms.flatten, fr.isSeries ∨ fr.isPoint)
    (hfirst : ∀ fr ∈ ms.flatten.head?, fr.isSeries) (fuel : Nat)
    (hfuel : ms.flatten.length < fuel) :
    doBlocks bounds valueCol (timesConsumer g) fuel ⟨ms, []⟩ =
      .done (specBlocks bounds valueCol g ms.flatten) :=
  doBlocks_refines bounds valueCol g fuel hne hkinds hfirst hfuel

/-- Two series, split across three messages. -/
def twoSeries : List (List Frame) :=
  [[.series [("host", "a")], .integerPoints [1, 2] [10, 20]], [.integerPoints [3] [30]],
    [.series [("host", "b")], .floatPoints [4] [5]]]

theorem do_refines_split_twoSeries :
    (∀ m ∈ twoSeries, m ≠ []) ∧ (∀ fr ∈ twoSeries.flatten, fr.isSeries ∨ fr.isPoint) ∧
      (∀ fr ∈ twoSeries.flatten.head?, fr.isSeries) ∧ twoSeries.flatten.length < 6 ∧
      doBlocks ⟨0, 10⟩ timeCol (timesConsumer fun _ ts _ => ts) 6 ⟨twoSeries, []⟩ =
        .done (specBlocks ⟨0, 10⟩ timeCol (fun _ ts _ => ts) twoSeries.flatten) :=
  ⟨by decide, by decide, by decide, by decide,
    do_refines_split _ _ _ _ (by decide) (by decide) (by decide) 6 (by decide)⟩

/-- A frame of a kind `peek` does not know stops `Do` with its panic, whatever the fuel, the
bounds, the value column and the callback. -/
theorem doBlocks_stringPoints_panics {Out : Type} (bounds : Bounds) (valueCol : ColMeta)
    (g : StorageBlock → List Int → ValueIterator → Out) (fuel : Nat) :
    doBlocks bounds valueCol (timesConsumer g) (fuel + 2)
      ⟨[[.series [], .stringPoints [1] ["a"]]], []⟩ = .panic peekPanic :=
  rfl

theorem do_string_frame_panics :
    doBlocks ⟨0, 10⟩ timeCol (timesConsumer fun _ ts _ => ts) 6
      ⟨[[.series [], .stringPoints [1] ["a"]]], []⟩ = .panic peekPanic :=
  doBlocks_stringPoints_panics _ _ _ 4

/-! ### Streams `Do` does not get through -/

section Loop

variable {Out : Type} (bounds : Bounds) (valueCol : ColMeta) (f : StorageBlock → Drain Out)

/-- `Do` skips a frame that is not a series frame with `continue`, which consumes nothing: a state
whose next frame is a point frame is a fixed point of its loop, whatever the fuel. -/
theorem doBlocks_spins {s : ReadState} {t : ResponseType} (hrep : s.rep ≠ [])
    (hpeek : s.peek = .ok t) (ht : t ≠ .seriesType) (n : Nat) :
    doBlocks bounds valueCol f n s = .outOfFuel := by
  obtain ⟨fr, r, hr⟩ := List.exists_cons_of_ne_nil hrep
  have hm : s.more = (true, s) := by
    obtain ⟨stream, rep⟩ := s
    cases hr; rfl
  induction n with
  | zero => rfl
  | succ n ih =>
    cases t
    · exact absurd rfl ht
    all_goals simp [doBlocks, hm, hpeek, ih]

end Loop

theorem do_point_frame_first_spins {Out : Type} (bounds : Bounds) (valueCol : ColMeta)
    (f : StorageBlock → Drain Out) (fuel : Nat) :
    doBlocks bounds valueCol f fuel ⟨[[.integerPoints [0] [0]]], []⟩ = .outOfFuel ∧
      doBlocks bounds valueCol f (fuel + 1) ⟨[[]], []⟩ = .panic indexOutOfRange := by
  refine ⟨?_, rfl⟩
  cases fuel with
  | zero => rfl
  | succ n =>
    exact doBlocks_spins bounds valueCol f (s := ⟨[], [.integerPoints [0] [0]]⟩) (by simp) rfl
      (by decide) n

/-! ### The declared value column -/

theorem value_column_declared_before_frames (bounds : Bounds) (vc : ColMeta) :
    (doBlocks bounds vc (timesConsumer fun _ ts _ => ts) 3
        ⟨[[.series [], .integerPoints [0] [1]]], []⟩).map (·.map (·.1.cols)) =
      .done [[timeCol, vc]] ∧
    (doBlocks bounds vc (timesConsumer fun _ ts _ => ts) 3
        ⟨[[.series [], .floatPoints [0] [1]]], []⟩).map (·.map (·.1.cols)) =
      .done [[timeCol, vc]] ∧
    doBlocks bounds { vc with type := .tFloat } (fun _ => .doFloat 1 fun _ _ => .ok ()) 3
        ⟨[[.series [], .integerPoints [0] [1]]], []⟩ =
      .panic (conversionPanic (.ints [1]) "[]float64") :=
  ⟨rfl, rfl, rfl⟩

/-! ### Which streams `Do` gets through -/

section Ends

variable {s s' : ReadState}

/-- `advance` from a state with no empty message to receive: it consumes a point frame and reports
`true`, or consumes nothing and reports `false` at a series frame or at the end of the frames. -/
theorem ValueIterator.advance_cases (b : ValueIterator) (hs : s.Good) {c : Bool} {b' : ValueIterator}
    (h : b.advance s = .ok (c, b', s')) : s'.Good ∧ (c = true ∧ s'.frames.length < s.frames.length ∨
      c = false ∧ s'.frames = s.frames ∧ ∀ fr ∈ s.frames.head?, fr.isSeries) := by
  cases hfr : s.frames with
  | nil =>
    rw [ValueIterator.advance_end b hs hfr] at h
    cases h
    exact ⟨hs, .inr ⟨rfl, hfr, nofun⟩⟩
  | cons fr rest =>
    obtain ⟨s1, r, hm, hrep, hrest, hs1⟩ := ReadState.more_eq hs hfr
    have hf1 : s1.frames = fr :: rest := by simp [ReadState.frames, hrep, ← hrest]
    cases fr <;> simp [ValueIterator.advance, hm, ReadState.peek, ReadState.next, index, hrep,
      Frame.getSeries, Frame.getIntegerPoints, Frame.getFloatPoints, ValueIterator.fill, bind,
      Except.bind, pure, Except.pure] at h
    case series =>
      obtain ⟨rfl, -, rfl⟩ := h
      exact ⟨hs1, .inr ⟨rfl, hf1, by simp [Frame.isSeries]⟩⟩
    all_goals
      split at h <;> cases h
      exact ⟨hs1, .inl ⟨rfl, by simp [ReadState.frames, ← hrest]⟩⟩

/-- How a loop over the frames of `s` may end: with a panic, or returning in a state with no empty
message to receive, no more frames than `s`, and a series frame next if any; never out of fuel. -/
def Ends {β : Type} (s : ReadState) : Run (β × ReadState) → Prop
  | .done (_, s') => s'.Good ∧ s'.frames.length ≤ s.frames.length ∧ ∀ fr ∈ s'.frames.head?, fr.isSeries
  | .panic _ => True
  | .outOfFuel => False

theorem Ends.map {β γ : Type} {r : Run (β × ReadState)} {g : β × ReadState → γ × ReadState}
    (hg : ∀ p, (g p).2 = p.2) (h : Ends s r) : Ends s (r.map g) := by
  rcases r with ⟨a, s'⟩ | _ | _
  · simp only [Run.map, Ends, hg]; exact h
  · trivial
  · exact h

theorem Ends.mono {β : Type} {r : Run (β × ReadState)} (h : Ends s' r)
    (hle : s'.frames.length ≤ s.frames.length) : Ends s r := by
  rcases r with ⟨a, s''⟩ | _ | _
  · exact ⟨h.1, h.2.1.trans hle, h.2.2⟩
  · trivial
  · exact h

section Typed

variable {α Out : Type} (typ : DataType) (goType : String) (cast : Buf → Option (List α))
  (f : List α → ValueIterator → Except String Out)

/-- The loop of a typed `Do` accessor, with more fuel than frames, ends: each turn consumes a point
frame, or stops at a series frame or at the end. -/
theorem ValueIterator.doLoop_ends : ∀ (n : Nat) (b : ValueIterator) (s : ReadState), s.Good →
    s.frames.length < n → Ends s (ValueIterator.doLoop goType cast f n b s)
  | 0, _, _, _, hn => absurd hn (Nat.not_lt_zero _)
  | n + 1, b, s, hs, hn => by
    rcases ha : b.advance s with p | ⟨c, b1, s1⟩
    · simp only [doLoop, ha]; trivial
    obtain ⟨hs1, ⟨rfl, hlt⟩ | ⟨rfl, hf, hhead⟩⟩ := advance_cases b hs ha
    · simp only [doLoop, ha]
      split
      · trivial
      split
      · trivial
      split
      · trivial
      exact Ends.mono (Ends.map (fun _ => rfl) (doLoop_ends n b1 s1 hs1 (by omega))) hlt.le
    · simp only [doLoop, ha]
      exact ⟨hs1, by rw [hf], hf ▸ hhead⟩

theorem ValueIterator.doWith_ends (n : Nat) (b : ValueIterator) (hs : s.Good)
    (hn : s.frames.length < n) : Ends s (ValueIterator.doWith typ goType cast f n b s) := by
  unfold doWith
  split
  · trivial
  · exact doLoop_ends goType cast f n b s hs hn

end Typed

theorem Drain.run_ends {Out : Type} (d : Drain Out) (blk : StorageBlock) (n : Nat) (hs : s.Good)
    (hn : s.frames.length < n) : Ends s (d.run blk n s) := by
  cases d <;> exact ValueIterator.doWith_ends _ _ _ _ n _ hs hn

end Ends

theorem Run.map_ne_outOfFuel {α β : Type} {f : α → β} {r : Run α} (h : r ≠ .outOfFuel) :
    r.map f ≠ .outOfFuel := by
  cases r <;> simp_all [Run.map]

section Fuel

variable {Out : Type} (bounds : Bounds) (valueCol : ColMeta) (f : StorageBlock → Drain Out)

/-- With more fuel than frames, `Do` returns or panics on every stream of non-empty messages that
does not start with a point frame, whatever consumer that drains its block. -/
theorem doBlocks_ne_outOfFuel : ∀ (n : Nat) (s : ReadState), s.Good → s.frames.length < n →
    (∀ fr ∈ s.frames.head?, fr.getIntegerPoints = none ∧ fr.getFloatPoints = none) →
    doBlocks bounds valueCol f n s ≠ .outOfFuel
  | 0, _, _, hn, _ => absurd hn (Nat.not_lt_zero _)
  | n + 1, s, hs, hn, hhead => by
    cases hfr : s.frames with
    | nil => simp [doBlocks, ReadState.more_nil hs hfr]
    | cons fr rest =>
      obtain ⟨s1, r, hm, hrep, hrest, hs1⟩ := ReadState.more_eq hs hfr
      rw [hfr] at hn hhead
      have hr : ({ s1 with rep := r } : ReadState).frames = rest := by simp [ReadState.frames, hrest]
      cases fr
      case series tags =>
        have he := Drain.run_ends (f ⟨bounds, tagsOf tags, (timeCol, valueCol)⟩)
          ⟨bounds, tagsOf tags, (timeCol, valueCol)⟩ n (s := { s1 with rep := r }) hs1
          (by rw [hr]; simp at hn; omega)
        simp only [doBlocks, hm, ReadState.peek_series hrep rfl, ReadState.next_cons hrep,
          Frame.getSeries]
        revert he
        generalize (f _).run _ n _ = run
        rcases run with ⟨outs, s2⟩ | _ | _ <;> intro he
        · obtain ⟨hs2, hlen, hs2head⟩ := he
          refine Run.map_ne_outOfFuel (doBlocks_ne_outOfFuel n s2 hs2 ?_ fun fr hfr => ?_)
          · rw [hr] at hlen; simp at hn; omega
          · have := hs2head fr hfr
            cases fr <;> simp_all [Frame.isSeries, Frame.getIntegerPoints, Frame.getFloatPoints]
        · simp
        · exact he.elim
      case integerPoints ts vs => simp [Frame.getIntegerPoints] at hhead
      case floatPoints ts vs => simp [Frame.getFloatPoints] at hhead
      all_goals simp [doBlocks, hm, ReadState.peek, index, hrep, Frame.getSeries,
        Frame.getIntegerPoints, Frame.getFloatPoints, bind, Except.bind]

/-- With more fuel than frames, on a stream of non-empty messages and with any consumer that drains
its block, `Do` runs out of fuel exactly when the first frame is an integer or a float point frame, the one `Do` skips
without consuming it; otherwise it returns or panics. -/
theorem doBlocks_outOfFuel_iff {n : Nat} {s : ReadState} (hs : s.Good) (hn : s.frames.length < n) :
    doBlocks bounds valueCol f n s = .outOfFuel ↔
      ∃ fr ∈ s.frames.head?, fr.getIntegerPoints.isSome ∨ fr.getFloatPoints.isSome := by
  constructor
  · intro h
    by_contra hno
    refine doBlocks_ne_outOfFuel bounds valueCol f n s hs hn (fun fr hfr => ?_) h
    simpa using not_or.1 fun h' => hno ⟨fr, hfr, h'⟩
  · rintro ⟨fr, hfr, hpt⟩
    obtain ⟨rest, hfrs⟩ : ∃ rest, s.frames = fr :: rest := by
      cases h : s.frames <;> simp_all
    obtain ⟨m, rfl⟩ : ∃ m, n = m + 1 := ⟨n - 1, by rw [hfrs] at hn; simp at hn; omega⟩
    obtain ⟨s1, r, hm, hrep, -, -⟩ := ReadState.more_eq hs hfrs
    -- `peek` reports the point frame, and `Do` goes round without consuming it
    obtain ⟨t, hpeek, ht⟩ : ∃ t, s1.peek = .ok t ∧ t ≠ .seriesType := by
      cases fr <;> simp_all [ReadState.peek, index, Frame.getSeries, Frame.getIntegerPoints,
        Frame.getFloatPoints, bind, Except.bind, pure, Except.pure]
    have hstep : doBlocks bounds valueCol f (m + 1) s = doBlocks bounds valueCol f m s1 := by
      cases t <;> simp_all [doBlocks]
    rw [hstep]
    exact doBlocks_spins bounds valueCol f (by simp [hrep]) hpeek ht m

end Fuel

theorem doBlocks_outOfFuel_iff_twoSeries :
    ReadState.Good ⟨twoSeries, []⟩ ∧ (ReadState.frames ⟨twoSeries, []⟩).length < 6 ∧
    (doBlocks ⟨0, 10⟩ timeCol (timesConsumer fun _ ts _ => ts) 6 ⟨twoSeries, []⟩ = .outOfFuel ↔
      ∃ fr ∈ (ReadState.frames ⟨twoSeries, []⟩).head?,
        fr.getIntegerPoints.isSome ∨ fr.getFloatPoints.isSome) :=
  ⟨by decide, by decide, doBlocks_outOfFuel_iff _ _ _ (by decide) (by decide)⟩

end Ifql.Storage
