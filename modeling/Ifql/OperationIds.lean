import Ifql.Evaluator
import Mathlib.Data.Nat.Digits

/-!
# Operation ids

`createOp` names an operation `fmt.Sprintf("%s%d", name, ev.nextID())`: the registered name of
the function or method, then the evaluator's counter in decimal. The counter is drawn once per
operation, so two operations never share it; whether they can still share an id depends on the
names. `f1` at counter `0` and `f` at counter `10` are both `f10` (`evaluate_colliding_ids`). The
ids of two operations are `n1 ++ toString p1` and `n2 ++ toString p2`; when they are equal, the
longer name is the shorter followed by a prefix of a canonical numeral, and that prefix is empty or
itself a positive numeral, since a canonical numeral has no leading `0`. So the ids of distinct
operations differ when no registered name is another followed by a positive numeral, as `f1` is
`f` followed by `1`.

The rest of the argument is that no operation reaches `QuerySpec.Operations` twice, and none is
`nil`. That is a property of the evaluator's heaps, because the operations a statement emits are
read through slices that may share backing arrays (`memberFunction` copies a chain by copying its
slice headers). It rests on three facts, each an invariant of a whole evaluation:

* no backing array holds an operation twice (`Evaluator.Good`), since `append` only ever writes an
  operation that no array holds yet, the one `createOp` just allocated;
* a chain bound to a variable has an empty window (`Evaluator.Ready`): its statement drained it;
* inside a statement, the chains built there read only operations created there
  (`Evaluator.Within`), however their arrays are shared: every write is of a new operation.

So each statement appends operations newer than every operation already emitted, none twice.

Main results:

* **`id_counter_eq`**: `name ++ toString p` determines `p` when neither name is the other
  followed by a positive numeral.
* **`exprSpec`** and the specs beside it: one evaluation inside a statement keeps the invariants,
  and a chain it returns reads only operations it created.
* **`doStatements_drained`**: every statement keeps the emitted operations distinct and non-nil.
* **`evaluate_ids_distinct`**: when no registered name is another followed by a positive numeral,
  the operations of every spec `Evaluate` returns are non-nil and their ids pairwise distinct.
-/

namespace Ifql

open Ast Query

variable {Spec : Type}

/-! ### The decimal counter in an id -/

/-- The number a string of decimal digits denotes, read after the digits of `n`. -/
def readDigits (cs : List Char) (n : Nat) : Nat :=
  cs.foldl (fun acc c => 10 * acc + (c.toNat - 48)) n

theorem digitChar_spec : ∀ d < 10, (Nat.digitChar d).isDigit ∧ (Nat.digitChar d).toNat - 48 = d := by
  decide

/-- `Nat.toDigitsCore` writes decimal digits, which read back as the number. -/
theorem toDigitsCore_spec : ∀ (f n : Nat) (acc : List Char), n < f → (∀ c ∈ acc, c.isDigit) →
    (∀ c ∈ Nat.toDigitsCore 10 f n acc, c.isDigit) ∧
      readDigits (Nat.toDigitsCore 10 f n acc) 0 = readDigits acc n
  | 0, _, _, h, _ => absurd h (Nat.not_lt_zero _)
  | f + 1, n, acc, hn, hacc => by
    obtain ⟨hd, hv⟩ := digitChar_spec (n % 10) (Nat.mod_lt _ (by omega))
    have hdacc : ∀ c ∈ Nat.digitChar (n % 10) :: acc, c.isDigit := by simpa [hd] using hacc
    simp only [Nat.toDigitsCore]
    split
    · refine ⟨hdacc, ?_⟩
      simp only [readDigits, List.foldl_cons, hv]
      congr 1; omega
    · obtain ⟨h1, h2⟩ := toDigitsCore_spec f (n / 10) _ (by omega) hdacc
      refine ⟨h1, ?_⟩
      rw [h2]
      simp only [readDigits, List.foldl_cons, hv]
      congr 1; omega

theorem toString_spec (n : Nat) :
    (∀ c ∈ (toString n).data, c.isDigit) ∧ readDigits (toString n).data 0 = n :=
  toDigitsCore_spec (n + 1) n [] (by omega) (by simp)

theorem digit_lt {c : Char} (h : c.isDigit) : c.toNat - 48 < 10 := by
  simp only [Char.isDigit, Bool.and_eq_true, decide_eq_true_eq] at h
  have : c.val.toNat ≤ 57 := UInt32.toNat_le_of_le (by decide) h.2
  simp only [Char.toNat]
  omega

theorem readDigits_lt {cs : List Char} (h : ∀ c ∈ cs, c.isDigit) (n : Nat) :
    readDigits cs n < (n + 1) * 10 ^ cs.length := by
  induction cs generalizing n with
  | nil => simp [readDigits]
  | cons c cs ih =>
    have hc := digit_lt (h c (List.mem_cons_self _ _))
    calc readDigits (c :: cs) n = readDigits cs (10 * n + (c.toNat - 48)) := rfl
      _ < (10 * n + (c.toNat - 48) + 1) * 10 ^ cs.length :=
        ih (fun d hd => h d (List.mem_cons_of_mem _ hd)) _
      _ ≤ (n + 1) * 10 ^ (c :: cs).length := by
        rw [List.length_cons, pow_succ', ← mul_assoc]
        exact Nat.mul_le_mul_right _ (by omega)

theorem toString_data_ne_nil (q : Nat) : (toString q).data ≠ [] := fun h => by
  have h0 : q = 0 := by rw [← (toString_spec q).2, h]; rfl
  subst h0
  exact absurd h (by decide)

/-- A canonical numeral has no leading zero. -/
theorem toString_ne_zero_cons (p : Nat) {cs : List Char} (hcs : cs ≠ []) :
    (toString p).data ≠ '0' :: cs := fun h => by
  have hd : ∀ c ∈ cs, c.isDigit :=
    fun c hc => (toString_spec p).1 c (h ▸ List.mem_cons_of_mem _ hc)
  have hp : p < 10 ^ cs.length := by
    have := readDigits_lt hd 0
    rw [← (toString_spec p).2, h]
    simpa [readDigits] using this
  have := Nat.repr_length p cs.length (List.length_pos.2 hcs) hp
  have hl : (Nat.repr p).length = cs.length + 1 := by
    rw [String.length, show (Nat.repr p).data = _ from h]; rfl
  omega

/-- The characters are a positive decimal numeral: one or more decimal digits, the first not `0`. -/
def positiveNumeral : List Char → Bool
  | [] => false
  | c :: cs => c != '0' && (c :: cs).all Char.isDigit

/-- `n2` is `n1` followed by a positive decimal numeral, as `f12` is `f` followed by `12`. -/
def numberedAfter (n1 n2 : String) : Bool :=
  n1.data.isPrefixOf n2.data && positiveNumeral (n2.data.drop n1.data.length)

/-- What a canonical numeral has before another is nothing or a positive numeral: a leading `0`
would not be canonical. -/
theorem numeral_split {a : List Char} {p q : Nat} (h : (toString p).data = a ++ (toString q).data) :
    a = [] ∨ positiveNumeral a := by
  rcases a with _ | ⟨c, cs⟩
  · exact .inl rfl
  · have hd : ∀ d ∈ c :: cs, d.isDigit :=
      fun d hd => (toString_spec p).1 d (h ▸ List.mem_append_left _ hd)
    have hc : c ≠ '0' := by
      rintro rfl
      exact toString_ne_zero_cons p (by simp [toString_data_ne_nil q]) h
    exact .inr (by simpa [positiveNumeral, hc] using hd)

theorem counter_eq_of_split {n1 n2 : String} {a : List Char} {p1 p2 : Nat}
    (h12 : numberedAfter n1 n2 = false) (hn : n2.data = n1.data ++ a)
    (hp : (toString p1).data = a ++ (toString p2).data) : p1 = p2 := by
  rcases numeral_split hp with rfl | ha
  · rw [← (toString_spec p1).2, ← (toString_spec p2).2, hp, List.nil_append]
  · simp only [numberedAfter, hn, List.length_append, List.drop_left, ha, Bool.and_true,
      Bool.eq_false_iff, ne_eq, List.isPrefixOf_iff_prefix] at h12
    exact absurd (List.prefix_append _ _) h12

/-- An id `name ++ toString p` determines the counter `p`, when neither name is the other followed
by a positive numeral. -/
theorem id_counter_eq {n1 n2 : String} {p1 p2 : Nat} (h12 : numberedAfter n1 n2 = false)
    (h21 : numberedAfter n2 n1 = false) (h : n1 ++ toString p1 = n2 ++ toString p2) : p1 = p2 := by
  have hd := congrArg String.data h
  simp only [String.data_append] at hd
  rcases List.append_eq_append_iff.1 hd with ⟨a, hn, hp⟩ | ⟨a, hn, hp⟩
  · exact counter_eq_of_split h12 hn hp
  · exact (counter_eq_of_split h21 hn hp).symm

example : numberedAfter "f" "f12" ∧ !numberedAfter "f" "f02" ∧ !numberedAfter "f" "g1" := by decide

/-! ### Stores -/

namespace Store

variable {α : Type} {st : Store α} {y : α}

theorem holds_alloc {l : List α} (h : (st.alloc l).Holds y) : st.Holds y ∨ y ∈ l := by
  obtain ⟨a, ha, hy⟩ := h
  rw [alloc_arrays] at hy
  split at hy
  · exact .inr hy
  · exact .inl ⟨a, by rw [alloc_size] at ha; omega, hy⟩

end Store

namespace Slice

variable {α : Type} {zero : α} {grow : Nat → Nat} {st : Store α} {t : Slice}

theorem valid_alloc (ht : t.Valid st) (l : List α) : t.Valid (st.alloc l) := by
  refine ⟨ht.1, fun h => ?_⟩
  obtain ⟨hlt, hlen⟩ := ht.2 h
  exact ⟨by rw [Store.alloc_size]; omega, by simp [Store.alloc_arrays, Nat.ne_of_lt hlt, hlen]⟩

theorem read_alloc (ht : t.Valid st) (l : List α) : t.read (st.alloc l) = t.read st := by
  rcases Nat.eq_zero_or_pos t.cap with h | h
  · simp [read, show t.len = 0 by have := ht.1; omega]
  · simp [read, Store.alloc_arrays, Nat.ne_of_lt (ht.2 h).1]

theorem read_literal (xs : List α) : (literal st xs).2.read (literal st xs).1 = xs := by
  simp [literal, read, Store.alloc_arrays]

theorem valid_literal (xs : List α) : (literal st xs).2.Valid (literal st xs).1 :=
  ⟨le_rfl, fun _ => ⟨by simp [literal], by simp [literal, Store.alloc_arrays]⟩⟩

/-- What a window reads after an `append` through any header: what it read, or the element. -/
theorem mem_read_append {s : Slice} {x y : α} (ht : t.Valid st)
    (h : x ∈ t.read (append zero grow st s y).1) : x ∈ t.read st ∨ x = y := by
  rcases Nat.eq_zero_or_pos t.cap with hc | hc
  · simp [read, show t.len = 0 by have := ht.1; omega] at h
  · obtain ⟨i, hi⟩ := List.mem_iff_getElem?.1 h
    simp only [read, List.getElem?_take] at hi
    split at hi
    · rcases append_slot st s y (ht.2 hc).1 i with hs | hs
      · rw [hs] at hi
        exact .inl (List.mem_iff_getElem?.2 ⟨i, by simp [read, List.getElem?_take, *]⟩)
      · rw [hs] at hi; exact .inr (Option.some.inj hi).symm
    · simp at hi

/-- A distinct list of non-nil elements repeats none. -/
theorem Distinct.nodup {β : Type} {l : List (Option β)} (hd : Distinct l)
    (hsome : ∀ x ∈ l, x.isSome) : l.Nodup := by
  induction l with
  | nil => exact List.nodup_nil
  | cons x l ih =>
    obtain ⟨b, rfl⟩ := Option.isSome_iff_exists.1 (hsome x (List.mem_cons_self _ _))
    have hl := List.nodup_cons.1 (show (b :: l.filterMap id).Nodup from hd)
    refine List.nodup_cons.2 ⟨fun hm => hl.1 (List.mem_filterMap.2 ⟨_, hm, rfl⟩), ?_⟩
    exact ih hl.2 fun x hx => hsome x (List.mem_cons_of_mem _ hx)

/-- A window of a distinct array repeats no non-nil element. -/
theorem distinct_read {β : Type} {st : Store (Option β)}
    (hd : ∀ a < st.size, Distinct (st.arrays a)) (ht : t.Valid st) : Distinct (t.read st) := by
  rcases Nat.eq_zero_or_pos t.cap with hc | hc
  · simp [Distinct, read, show t.len = 0 by have := ht.1; omega]
  · exact (hd _ (ht.2 hc).1).take _

end Slice

/-! ### What evaluation keeps -/

/-- The names of the registry's functions and methods. -/
def Registry.names (reg : Registry Spec) : List String :=
  reg.functions.map Prod.fst ++ reg.methods.map Prod.fst

/-- The operations visible through chain `c`'s `Operations` slice. -/
def Evaluator.window (s : Evaluator Spec) (c : Nat) : List (Option Nat) :=
  (s.chains.cells c).operations.read s.opArrays

/-- Every element is an operation allocated at address `m` or later. -/
def FreshFrom (m : Nat) (l : List (Option Nat)) : Prop := ∀ x ∈ l, ∃ p, x = some p ∧ m ≤ p

/-- What every state of an evaluation keeps: the counter is the number of operations, each named
after a registered name and its address, every chain's `Operations` header is one Go could have
built, and no backing array holds an operation twice or one not yet allocated. -/
structure Evaluator.Good (reg : Registry Spec) (s : Evaluator Spec) : Prop where
  ids : s.ops.size = s.id
  named : ∀ p < s.ops.size, ∃ name ∈ reg.names, (s.ops.cells p).id = name ++ toString p
  valid : ∀ c, (s.chains.cells c).operations.Valid s.opArrays
  distinct : ∀ a < s.opArrays.size, Slice.Distinct (s.opArrays.arrays a)
  allocated : ∀ p, s.opArrays.Holds (some p) → p < s.ops.size

/-- A state an expression of a statement is evaluated from: a chain a variable holds was drained by
its statement, so its window is empty. -/
structure Evaluator.Ready (reg : Registry Spec) (s : Evaluator Spec) extends s.Good reg :
    Prop where
  scopeChains : ∀ n v c, s.scope n = some v → v.value = .chain c →
    c < s.chains.size ∧ (s.chains.cells c).operations.len = 0

/-- How evaluation inside a statement moves from `s0` to `s`: it emits nothing, binds nothing,
leaves the chains it found alone, and writes into arrays only operations it allocated. -/
structure Evaluator.Within (reg : Registry Spec) (s0 s : Evaluator Spec) : Prop where
  good : s.Good reg
  ops_size : s0.ops.size ≤ s.ops.size
  chains_size : s0.chains.size ≤ s.chains.size
  chains : ∀ c < s0.chains.size, s.chains.cells c = s0.chains.cells c
  operations : s.operations = s0.operations
  scope : s.scope = s0.scope
  holds : ∀ p, s.opArrays.Holds (some p) → s0.opArrays.Holds (some p) ∨ s0.ops.size ≤ p
  windows : ∀ c < s0.chains.size, ∀ x ∈ s.window c,
    x ∈ s0.window c ∨ ∃ p, x = some p ∧ s0.ops.size ≤ p

namespace Evaluator

variable {reg : Registry Spec} {s0 s s1 s2 : Evaluator Spec}

theorem Within.refl (h : s.Good reg) : s.Within reg s :=
  ⟨h, le_rfl, le_rfl, fun _ _ => rfl, rfl, rfl, fun _ h => .inl h, fun _ _ _ h => .inl h⟩

theorem Within.trans (h1 : s0.Within reg s1) (h2 : s1.Within reg s2) : s0.Within reg s2 where
  good := h2.good
  ops_size := h1.ops_size.trans h2.ops_size
  chains_size := h1.chains_size.trans h2.chains_size
  chains c hc := (h2.chains c (by have := h1.chains_size; omega)).trans (h1.chains c hc)
  operations := h2.operations.trans h1.operations
  scope := h2.scope.trans h1.scope
  holds p hp := by
    rcases h2.holds p hp with hp | hp
    · exact h1.holds p hp
    · exact .inr (h1.ops_size.trans hp)
  windows c hc x hx := by
    rcases h2.windows c (by have := h1.chains_size; omega) x hx with hx | ⟨p, rfl, hp⟩
    · exact h1.windows c hc x hx
    · exact .inr ⟨p, rfl, h1.ops_size.trans hp⟩

theorem Within.ready (h0 : s0.Ready reg) (h : s0.Within reg s) : s.Ready reg where
  toGood := h.good
  scopeChains n v c hn hv := by
    rw [h.scope] at hn
    obtain ⟨hc, hlen⟩ := h0.scopeChains n v c hn hv
    exact ⟨by have := h.chains_size; omega, by rw [h.chains c hc]; exact hlen⟩

/-- A window of fresh operations stays fresh: the evaluation writes only newer ones. -/
theorem Within.freshFrom {m c : Nat} (h : s0.Within reg s) (hc : c < s0.chains.size)
    (hm : m ≤ s0.ops.size) (hf : FreshFrom m (s0.window c)) : FreshFrom m (s.window c) := by
  intro x hx
  rcases h.windows c hc x hx with hx | ⟨p, rfl, hp⟩
  · exact hf x hx
  · exact ⟨p, rfl, hm.trans hp⟩

/-! #### The steps of an evaluation -/

variable {name : String} {op : Nat}

/-- `newOp`: the operation `name ++ id` at the next address. -/
theorem Within.newOp (w : s0.Within reg s) (hn : name ∈ reg.names) :
    s0.Within reg { s with id := s.id + 1, ops := (s.ops.alloc ⟨name ++ toString s.id, none⟩).1 } where
  good :=
    { ids := by simp [w.good.ids]
      named := fun p hp => by
        rw [Heap.alloc_cells]
        split
        · subst p; exact ⟨name, hn, by rw [w.good.ids]⟩
        · exact w.good.named p (by simp only [Heap.alloc_size] at hp; omega)
      valid := w.good.valid
      distinct := w.good.distinct
      allocated := fun p hp => by have := w.good.allocated p hp; simp only [Heap.alloc_size]; omega }
  ops_size := by have := w.ops_size; simp only [Heap.alloc_size]; omega
  chains_size := w.chains_size
  chains := w.chains
  operations := w.operations
  scope := w.scope
  holds := w.holds
  windows := w.windows

/-- `construct` sets the operation's spec, and keeps its id. -/
theorem Within.setSpec (w : s0.Within reg s) (x : Option Spec) :
    s0.Within reg { s with ops := s.ops.set op { s.ops.cells op with spec := x } } where
  good :=
    { ids := w.good.ids
      named := fun p hp => by
        rw [Heap.set_cells]
        split
        · subst p; exact w.good.named op hp
        · exact w.good.named p hp
      valid := w.good.valid
      distinct := w.good.distinct
      allocated := w.good.allocated }
  ops_size := w.ops_size
  chains_size := w.chains_size
  chains := w.chains
  operations := w.operations
  scope := w.scope
  holds := w.holds
  windows := w.windows

/-- A chain stored at an address the evaluation allocated. -/
theorem Within.setChain {p : Nat} {c : CallChain} (w : s0.Within reg s) (hp : s0.chains.size ≤ p)
    (hv : c.operations.Valid s.opArrays) : s0.Within reg { s with chains := s.chains.set p c } where
  good :=
    { ids := w.good.ids
      named := w.good.named
      valid := fun q => by rw [Heap.set_cells]; split; exact hv; exact w.good.valid q
      distinct := w.good.distinct
      allocated := w.good.allocated }
  ops_size := w.ops_size
  chains_size := w.chains_size
  chains q hq := by rw [Heap.set_cells, if_neg (by omega)]; exact w.chains q hq
  operations := w.operations
  scope := w.scope
  holds := w.holds
  windows q hq := by
    simp only [window, Heap.set_cells, if_neg (show q ≠ p by omega)]
    exact w.windows q hq

/-- A new chain. -/
theorem Within.allocChain {c : CallChain} (w : s0.Within reg s) (hv : c.operations.Valid s.opArrays) :
    s0.Within reg { s with chains := (s.chains.alloc c).1 } where
  good :=
    { ids := w.good.ids
      named := w.good.named
      valid := fun q => by rw [Heap.alloc_cells]; split; exact hv; exact w.good.valid q
      distinct := w.good.distinct
      allocated := w.good.allocated }
  ops_size := w.ops_size
  chains_size := by have := w.chains_size; simp only [Heap.alloc_size]; omega
  chains q hq := by
    rw [Heap.alloc_cells, if_neg (by have := w.chains_size; omega)]; exact w.chains q hq
  operations := w.operations
  scope := w.scope
  holds := w.holds
  windows q hq := by
    simp only [window, Heap.alloc_cells, if_neg (show q ≠ s.chains.size by
      have := w.chains_size; omega)]
    exact w.windows q hq

/-- The slice literal `[]*query.Operation{op}` of an operation the evaluation allocated. -/
theorem Within.literalOps (w : s0.Within reg s) (hop : s0.ops.size ≤ op) (hlt : op < s.ops.size) :
    s0.Within reg { s with opArrays := s.opArrays.alloc [some op] } where
  good :=
    { ids := w.good.ids
      named := w.good.named
      valid := fun c => Slice.valid_alloc (w.good.valid c) _
      distinct := fun a ha => by
        rw [Store.alloc_arrays]
        split
        · simp [Slice.Distinct]
        · exact w.good.distinct a (by simp only [Store.alloc_size] at ha; omega)
      allocated := fun p hp => by
        rcases Store.holds_alloc hp with hp | hp
        · exact w.good.allocated p hp
        · simp only [List.mem_singleton, Option.some.injEq] at hp; exact hp ▸ hlt }
  ops_size := w.ops_size
  chains_size := w.chains_size
  chains := w.chains
  operations := w.operations
  scope := w.scope
  holds p hp := by
    rcases Store.holds_alloc hp with hp | hp
    · exact w.holds p hp
    · simp only [List.mem_singleton, Option.some.injEq] at hp; exact .inr (hp ▸ hop)
  windows c hc := by
    simp only [window, Slice.read_alloc (w.good.valid c)]
    exact w.windows c hc

/-- `append` of an operation the evaluation allocated and no array holds yet. -/
theorem Within.appendOp {grow : Nat → Nat} {sl : Slice} (w : s0.Within reg s)
    (hop : s0.ops.size ≤ op) (hlt : op < s.ops.size) (hnew : ¬ s.opArrays.Holds (some op))
    (hsl : sl.Valid s.opArrays) :
    s0.Within reg { s with opArrays := (Slice.append none grow s.opArrays sl (some op)).1 } where
  good :=
    { ids := w.good.ids
      named := w.good.named
      valid := fun c => Slice.valid_of_append _ _ _ (w.good.valid c)
      distinct := Slice.distinct_append w.good.distinct hnew hsl
      allocated := fun p hp => by
        rcases Slice.holds_append hsl hp with hp | hp | hp
        · exact w.good.allocated p hp
        · cases hp; exact hlt
        · cases hp }
  ops_size := w.ops_size
  chains_size := w.chains_size
  chains := w.chains
  operations := w.operations
  scope := w.scope
  holds p hp := by
    rcases Slice.holds_append hsl hp with hp | hp | hp
    · exact w.holds p hp
    · cases hp; exact .inr hop
    · cases hp
  windows c hc x hx := by
    rcases Slice.mem_read_append (w.good.valid c) hx with hx | rfl
    · exact w.windows c hc x hx
    · exact .inr ⟨op, rfl, hop⟩

/-- Edges live in arrays of their own. -/
theorem Within.edgeArrays (w : s0.Within reg s) (e : Store Edge) :
    s0.Within reg { s with edgeArrays := e } :=
  ⟨⟨w.good.ids, w.good.named, w.good.valid, w.good.distinct, w.good.allocated⟩, w.ops_size,
    w.chains_size, w.chains, w.operations, w.scope, w.holds, w.windows⟩

end Evaluator

/-! ### The evaluator's helpers, when they succeed -/

section Helpers

variable {reg : Registry Spec} {s s' : Evaluator Spec} {α : Type}

theorem mem_names_of_lookup {β : Type} {l : List (String × β)} {name : String} {c : β}
    (h : l.lookup name = some c) : name ∈ l.map Prod.fst := by
  obtain ⟨l1, l2, rfl, -⟩ := List.lookup_eq_some_iff.1 h
  exact List.mem_map.2 ⟨(name, c), List.mem_append_right _ (List.mem_cons_self _ _), rfl⟩

theorem wrapError_ok {msg : String} {x : EvalM Spec α} {r : α × Evaluator Spec}
    (h : wrapError msg x s = .ok r) : x s = .ok r := by
  unfold wrapError at h
  split at h
  · cases h
  · exact h

/-- `function` calls its continuation on the constructor of a registered function. -/
theorem function_ok {name : String} {k : Ctor Spec → EvalM Spec α} {r : α × Evaluator Spec}
    (h : function reg name k s = .ok r) : ∃ c, name ∈ reg.names ∧ k c s = .ok r := by
  unfold function at h
  rcases hl : reg.functions.lookup name with _ | c <;> rw [hl] at h
  · cases h
  · exact ⟨c, List.mem_append_left _ (mem_names_of_lookup hl), wrapError_ok h⟩

/-- `method` calls its continuation on the constructor of a registered method. -/
theorem method_ok {name : String} {k : Ctor Spec → EvalM Spec α} {r : α × Evaluator Spec}
    (h : method reg name k s = .ok r) : ∃ c, name ∈ reg.names ∧ k c s = .ok r := by
  unfold method at h
  rcases hl : reg.methods.lookup name with _ | c <;> rw [hl] at h
  · cases h
  · exact ⟨c, List.mem_append_right _ (mem_names_of_lookup hl), wrapError_ok h⟩

/-- `construct` only sets the operation's spec. -/
theorem construct_ok {op : Nat} {ctor : Ctor Spec} {params : List (String × Value)}
    {ps : List OperationID} (h : construct op ctor params s = .ok (ps, s')) :
    ∃ x, s' = { s with ops := s.ops.set op { s.ops.cells op with spec := x } } := by
  unfold construct at h
  obtain ⟨_, _, hget, h⟩ := EvalM.bind_eq_ok h
  cases hget
  rcases hr : runCtor s.scope s.chains ctor ⟨newArguments params, []⟩ with _ | ⟨_ | _, st⟩ <;>
    rw [hr] at h
  · cases h
  · cases h
  · dsimp only at h
    by_cases hu : st.args.listUnused ≠ []
    · rw [if_pos hu] at h; cases h
    · rw [if_neg hu] at h; cases h; exact ⟨_, rfl⟩

/-- The loop of additional parents only appends edges. -/
theorem appendParents_ok {grow : Nat → Nat} {child : OperationID} :
    ∀ {ps : List OperationID} {sl sl' : Slice} {s s' : Evaluator Spec},
      appendParents grow child sl ps s = .ok (sl', s') → ∃ e, s' = { s with edgeArrays := e }
  | [], _, _, _, _, h => by cases h; exact ⟨_, rfl⟩
  | _ :: _, _, _, _, _, h => by
    obtain ⟨_, _, h1, h⟩ := EvalM.bind_eq_ok h
    cases h1
    obtain ⟨e, rfl⟩ := appendParents_ok h
    exact ⟨e, rfl⟩

/-- A window of a chain whose `Operations` slice is empty reads nothing. -/
theorem Evaluator.window_eq_nil {c : Nat} (h : (s.chains.cells c).operations.len = 0) :
    s.window c = [] := by
  simp [Evaluator.window, Slice.read, h]

/-- A chain an evaluation from `s` allocated, reading only operations it created. -/
def NewChain (s s' : Evaluator Spec) (X : Nat) : Prop :=
  s.chains.size ≤ X ∧ X < s'.chains.size ∧ FreshFrom s.ops.size (s'.window X)

/-- What a value computed from `s` promises about a chain it holds: it reads only operations the
computation created, and is drained when the statement ends, or is a variable's empty one. -/
def FreshValue (s s' : Evaluator Spec) (v : Value) : Prop :=
  ∀ c, v.value = .chain c → c < s'.chains.size ∧ FreshFrom s.ops.size (s'.window c) ∧
    (v.type ≠ .tChain → (s'.chains.cells c).operations.len = 0)

/-- `copyChain` into a new chain: the copy of a variable's chain, with an empty window. -/
theorem copyChain_within {n : String} {X : Nat} (hr : s.Ready reg)
    (h : copyChain n none s = .ok (X, s')) : s.Within reg s' ∧ NewChain s s' X := by
  unfold copyChain at h
  obtain ⟨_, _, hget, h⟩ := EvalM.bind_eq_ok h
  cases hget
  rcases hn : s.scope n with _ | v <;> rw [hn] at h
  · cases h
  · dsimp only at h
    by_cases ht : v.type ≠ .tChain
    · rw [if_pos ht] at h; cases h
    rw [if_neg ht] at h
    obtain ⟨src, hv⟩ : ∃ src, v.value = .chain src := by
      cases hv : v.value <;> rw [hv] at h <;> first | exact ⟨_, rfl⟩ | cases h
    obtain ⟨hsrc, hlen⟩ := hr.scopeChains n v src hn hv
    rw [hv] at h
    cases h
    have hcell : ((s.chains.alloc .zero).1.cells src) = s.chains.cells src := by
      rw [Heap.alloc_cells, if_neg (by omega)]
    have hzero : CallChain.zero.operations.Valid s.opArrays :=
      ⟨Nat.zero_le _, fun h => absurd h (by decide)⟩
    refine ⟨((Evaluator.Within.refl hr.toGood).allocChain hzero).setChain le_rfl
      (by rw [hcell]; exact hr.valid src), le_rfl, by simp, ?_⟩
    rw [Evaluator.window_eq_nil (by simp [Heap.set_cells, hcell, hlen])]
    exact fun _ h => nomatch h

end Helpers

/-! ### One expression: what each evaluator function keeps -/

section Specs

variable (reg : Registry Spec) (grow : Nat → Nat)

/-- `doExpression` keeps the invariants, and a chain in its value reads only new operations. -/
def ExprSpec (e : Ast.Expression) : Prop :=
  ∀ ⦃s s' : Evaluator Spec⦄ ⦃v : Value⦄, s.Ready reg → doExpression reg grow e s = .ok (v, s') →
    s.Within reg s' ∧ FreshValue s s' v

/-- `doArray` keeps the invariants. -/
def ArraySpec (a : ArrayExpression) : Prop :=
  ∀ ⦃s s' : Evaluator Spec⦄ ⦃v : Value⦄, s.Ready reg → doArray reg grow a s = .ok (v, s') →
    s.Within reg s' ∧ FreshValue s s' v

/-- The element loop keeps the invariants. -/
def ElementsSpec (els : List Ast.Expression) : Prop :=
  ∀ t ⦃s s' : Evaluator Spec⦄ ⦃r : ValueType × List Value⦄, s.Ready reg →
    doElements reg grow els t s = .ok (r, s') → s.Within reg s'

/-- `callFunction` returns a new chain reading only new operations. -/
def CallSpec (c : CallExpression) : Prop :=
  ∀ ⦃s s' : Evaluator Spec⦄ ⦃X : Nat⦄, s.Ready reg → callFunction reg grow c none s = .ok (X, s') →
    s.Within reg s' ∧ NewChain s s' X

/-- `memberFunction` returns a new chain reading only new operations. -/
def MemberSpec (m : MemberExpression) : Prop :=
  ∀ ⦃s s' : Evaluator Spec⦄ ⦃X : Nat⦄ ⦃name : String⦄, s.Ready reg →
    memberFunction reg grow m none s = .ok ((X, name), s') → s.Within reg s' ∧ NewChain s s' X

/-- `createOp` allocates the operation at the next address, and no array holds it yet. -/
def ArgsSpec (args : List Ast.Expression) : Prop :=
  ∀ name ctor ⦃s s' : Evaluator Spec⦄ ⦃op : Nat⦄ ⦃ps : List OperationID⦄, name ∈ reg.names →
    s.Ready reg → createOp reg grow name ctor args s = .ok ((op, ps), s') →
    s.Within reg s' ∧ op = s.ops.size ∧ op < s'.ops.size ∧ ¬ s'.opArrays.Holds (some op)

/-- `resolveParameters` keeps the invariants. -/
def ObjectSpec (o : ObjectExpression) : Prop :=
  ∀ ⦃s s' : Evaluator Spec⦄ ⦃r : List (String × Value)⦄, s.Ready reg →
    resolveParameters reg grow o s = .ok (r, s') → s.Within reg s'

/-- The property loop keeps the invariants. -/
def PropsSpec (ps : List Property) : Prop :=
  ∀ acc ⦃s s' : Evaluator Spec⦄ ⦃r : List (String × Value)⦄, s.Ready reg →
    resolveProperties reg grow ps acc s = .ok (r, s') → s.Within reg s'

variable {reg grow}

theorem exprSpec_literal (l : Literal) : ExprSpec reg grow (.literal l) := by
  intro s s' v hr h
  cases l <;> cases h <;> exact ⟨.refl hr.toGood, fun _ hc => nomatch hc⟩

theorem exprSpec_identifier (n : String) : ExprSpec reg grow (.identifier n) := by
  intro s s' v hr h
  rw [doExpression.eq_2] at h
  rcases hn : s.scope n with _ | v' <;> rw [hn] at h <;> cases h
  refine ⟨.refl hr.toGood, fun c hc => ?_⟩
  obtain ⟨hlt, hlen⟩ := hr.scopeChains n _ c hn hc
  exact ⟨hlt, by rw [Evaluator.window_eq_nil hlen]; exact fun _ h => (nomatch h), fun _ => hlen⟩

theorem exprSpec_call {c : CallExpression} (hc : CallSpec reg grow c) :
    ExprSpec reg grow (.callExpression c) := by
  intro s s' v hr h
  obtain ⟨X, s1, h1, h⟩ := EvalM.bind_eq_ok h
  cases h
  obtain ⟨w, -, hlt, hfresh⟩ := hc hr h1
  exact ⟨w, fun c hc => by cases hc; exact ⟨hlt, hfresh, fun h => absurd rfl h⟩⟩

theorem exprSpec_binary (b : BinaryExpression) : ExprSpec reg grow (.binaryExpression b) := by
  intro s s' v hr h
  rw [doExpression.eq_4] at h
  split at h <;> cases h
  exact ⟨.refl hr.toGood, fun _ hc => nomatch hc⟩

theorem exprSpec_logical (l : LogicalExpression) : ExprSpec reg grow (.logicalExpression l) := by
  intro s s' v hr h
  rw [doExpression.eq_5] at h
  split at h <;> cases h
  exact ⟨.refl hr.toGood, fun _ hc => nomatch hc⟩

theorem exprSpec_arrow {params : List String} {body : Ast.Expression}
    (hb : ExprSpec reg grow body) : ExprSpec reg grow (.arrowFunctionExpression params body) := by
  intro s s' v hr h
  obtain ⟨v1, s1, h1, h⟩ := EvalM.bind_eq_ok h
  obtain ⟨w, -⟩ := hb hr h1
  cases hv : v1.value <;> rw [hv] at h <;> cases h
  exact ⟨w, fun _ hc => nomatch hc⟩

theorem exprSpec_array {a : ArrayExpression} (ha : ArraySpec reg grow a) :
    ExprSpec reg grow (.arrayExpression a) := by
  intro s s' v hr h
  exact ha hr h

theorem exprSpec_member (m : MemberExpression) : ExprSpec reg grow (.memberExpression m) := by
  intro s s' v hr h
  cases h

theorem exprSpec_object (o : ObjectExpression) : ExprSpec reg grow (.objectExpression o) := by
  intro s s' v hr h
  cases h

theorem arraySpec_mk {els : List Ast.Expression} (hels : ElementsSpec reg grow els) :
    ArraySpec reg grow (.mk els) := by
  intro s s' v hr h
  obtain ⟨⟨t, vs⟩, s1, h1, h⟩ := EvalM.bind_eq_ok h
  dsimp only at h
  rcases he : toElements t vs with f | els' <;> rw [he] at h <;> cases h
  exact ⟨hels _ hr h1, fun _ hc => nomatch hc⟩

theorem elementsSpec_nil : ElementsSpec reg grow [] := by
  intro t s s' r hr h
  cases h
  exact .refl hr.toGood

theorem elementsSpec_cons {el : Ast.Expression} {els : List Ast.Expression}
    (he : ExprSpec reg grow el) (hels : ElementsSpec reg grow els) :
    ElementsSpec reg grow (el :: els) := by
  intro t s s' r hr h
  obtain ⟨v, s1, h1, h⟩ := EvalM.bind_eq_ok h
  obtain ⟨w1, -⟩ := he hr h1
  obtain ⟨_, s3, h3, h⟩ := EvalM.bind_eq_ok (EvalM.check_ok h).2
  cases h
  exact w1.trans (hels _ (w1.ready hr) h3)

theorem callSpec_identifier {name : String} {args : List Ast.Expression}
    (hargs : ArgsSpec reg grow args) : CallSpec reg grow (.mk (.identifier name) args) := by
  intro s s' X hr h
  obtain ⟨⟨op, parents⟩, s1, h1, h⟩ := EvalM.bind_eq_ok h
  obtain ⟨c, hn, h1⟩ := function_ok h1
  obtain ⟨w1, rfl, hlt, -⟩ := hargs name c hn hr h1
  obtain ⟨_, _, hget, h⟩ := EvalM.bind_eq_ok h
  cases hget
  obtain ⟨_, _, h2, h⟩ := EvalM.bind_eq_ok h
  cases h2
  obtain ⟨_, _, h3, h⟩ := EvalM.bind_eq_ok h
  obtain ⟨e, rfl⟩ := appendParents_ok h3
  cases h
  refine ⟨((w1.literalOps le_rfl hlt).edgeArrays e).allocChain (Slice.valid_literal _),
    w1.chains_size, by simp, ?_⟩
  simp [Evaluator.window, Heap.alloc_cells, Slice.read_literal, FreshFrom]

theorem callSpec_member {m : MemberExpression} {args : List Ast.Expression}
    (hm : MemberSpec reg grow m) (hargs : ArgsSpec reg grow args) :
    CallSpec reg grow (.mk (.memberExpression m) args) := by
  intro s s' X hr h
  obtain ⟨⟨X, name⟩, s1, h1, h⟩ := EvalM.bind_eq_ok h
  obtain ⟨w1, hX, hXlt, hfresh⟩ := hm hr h1
  obtain ⟨⟨op, parents⟩, s2, h2, h⟩ := EvalM.bind_eq_ok h
  obtain ⟨c, hn, h2⟩ := method_ok h2
  obtain ⟨w2, rfl, hlt, hnew⟩ := hargs name c hn (w1.ready hr) h2
  obtain ⟨_, _, hget, h⟩ := EvalM.bind_eq_ok h
  cases hget
  obtain ⟨_, _, hget, h⟩ := EvalM.bind_eq_ok h
  cases hget
  obtain ⟨_, _, h3, h⟩ := EvalM.bind_eq_ok h
  cases h3
  obtain ⟨_, _, h4, h⟩ := EvalM.bind_eq_ok h
  cases h4
  obtain ⟨_, _, h5, h⟩ := EvalM.bind_eq_ok h
  obtain ⟨e, rfl⟩ := appendParents_ok h5
  obtain ⟨_, _, h6, h⟩ := EvalM.bind_eq_ok h
  cases h6
  cases h
  have hv := w2.good.valid X
  refine ⟨(((w1.trans w2).appendOp w1.ops_size hlt hnew hv).edgeArrays _ |>.edgeArrays e).setChain hX
    (Slice.valid_append _ hv), hX, by simpa using hXlt.trans_le w2.chains_size, ?_⟩
  have hold := w2.freshFrom hXlt w1.ops_size hfresh
  intro x hx
  simp only [Evaluator.window, Heap.set_cells, if_pos, Slice.read_append _ hv] at hx
  rcases List.mem_append.1 hx with hx | hx
  · exact hold x hx
  · simp only [List.mem_singleton] at hx
    exact ⟨_, hx, w1.ops_size⟩

theorem callSpec_of_error {c : CallExpression}
    (h : ∀ s : Evaluator Spec, ∃ e, callFunction reg grow c none s = .error e) :
    CallSpec reg grow c := by
  intro s s' X _ hc
  obtain ⟨e, he⟩ := h s
  rw [he] at hc
  cases hc

theorem memberSpec_call {c : CallExpression} {p : Ast.Expression} (hc : CallSpec reg grow c) :
    MemberSpec reg grow (.mk (.callExpression c) p) := by
  intro s s' X name hr h
  obtain ⟨X, s1, h1, h⟩ := EvalM.bind_eq_ok h
  obtain ⟨w, hX⟩ := hc hr h1
  cases p <;> cases h
  exact ⟨w, hX⟩

theorem memberSpec_identifier {n : String} {p : Ast.Expression} :
    MemberSpec reg grow (.mk (.identifier n) p) := by
  intro s s' X name hr h
  obtain ⟨X, s1, h1, h⟩ := EvalM.bind_eq_ok h
  obtain ⟨w, hX⟩ := copyChain_within hr h1
  cases p <;> cases h
  exact ⟨w, hX⟩

theorem memberSpec_of_error {m : MemberExpression}
    (h : ∀ s : Evaluator Spec, ∃ e, memberFunction reg grow m none s = .error e) :
    MemberSpec reg grow m := by
  intro s s' X name _ hm
  obtain ⟨e, he⟩ := h s
  rw [he] at hm
  cases hm

/-- `createOp`'s head and tail around the arguments: the operation drawn at the next address is
one no array holds when the constructor returns. -/
theorem createOp_within {name : String} {ctor : Ctor Spec} {params : List (String × Value)}
    {s s2 s' : Evaluator Spec} {ps : List OperationID} (hr : s.Ready reg) (hn : name ∈ reg.names)
    (w : Evaluator.Within reg
      { s with id := s.id + 1, ops := (s.ops.alloc ⟨name ++ toString s.id, none⟩).1 } s2)
    (h : construct s.ops.size ctor params s2 = .ok (ps, s')) :
    s.Within reg s' ∧ s.ops.size < s'.ops.size ∧ ¬ s'.opArrays.Holds (some s.ops.size) := by
  obtain ⟨x, rfl⟩ := construct_ok h
  refine ⟨(((Evaluator.Within.refl hr.toGood).newOp hn).trans w).setSpec x,
    by have := w.ops_size; simp only [Heap.alloc_size, Heap.set_size] at this ⊢; omega, fun hh => ?_⟩
  rcases w.holds _ hh with hh | hh
  · exact lt_irrefl _ (hr.allocated _ hh)
  · simp only [Heap.alloc_size] at hh; omega

theorem argsSpec_object {o : ObjectExpression} (ho : ObjectSpec reg grow o) :
    ArgsSpec reg grow [.objectExpression o] := by
  intro name ctor s s' op ps hn hr h
  obtain ⟨_, _, h1, h⟩ := EvalM.bind_eq_ok h
  cases h1
  obtain ⟨params, s2, h2, h⟩ := EvalM.bind_eq_ok h
  have w2 := ho (((Evaluator.Within.refl hr.toGood).newOp hn).ready hr) h2
  obtain ⟨_, _, h3, h⟩ := EvalM.bind_eq_ok h
  cases h
  obtain ⟨w, hlt, hnew⟩ := createOp_within hr hn w2 h3
  exact ⟨w, rfl, hlt, hnew⟩

theorem argsSpec_none {args : List Ast.Expression} (hargs : ∀ e, args ≠ [e]) :
    ArgsSpec reg grow args := by
  intro name ctor s s' op ps hn hr h
  -- with no argument object, `createOp` runs the constructor on no parameters
  replace h : (do let op ← newOp name; pure (op, ← construct op ctor []) : EvalM Spec _) s =
      .ok ((op, ps), s') := by
    match args, hargs, h with
    | [], _, h => exact h
    | [e], hargs, _ => exact absurd rfl (hargs e)
    | e :: _ :: _, _, h => cases e <;> exact h
  obtain ⟨_, _, h1, h⟩ := EvalM.bind_eq_ok h
  cases h1
  obtain ⟨_, _, h3, h⟩ := EvalM.bind_eq_ok h
  cases h
  obtain ⟨w, hlt, hnew⟩ :=
    createOp_within hr hn (.refl ((Evaluator.Within.refl hr.toGood).newOp hn).good) h3
  exact ⟨w, rfl, hlt, hnew⟩

theorem argsSpec_of_error {args : List Ast.Expression}
    (h : ∀ (name : String) (ctor : Ctor Spec) (s : Evaluator Spec),
      ∃ e, createOp reg grow name ctor args s = .error e) : ArgsSpec reg grow args := by
  intro name ctor s s' op ps _ _ hc
  obtain ⟨e, he⟩ := h name ctor s
  rw [he] at hc
  cases hc

theorem objectSpec_mk {ps : List Property} (hps : PropsSpec reg grow ps) :
    ObjectSpec reg grow (.mk ps) := by
  intro s s' r hr h
  exact hps [] hr h

theorem propsSpec_nil : PropsSpec reg grow [] := by
  intro acc s s' r hr h
  cases h
  exact .refl hr.toGood

theorem propsSpec_cons {key : String} {value : Ast.Expression} {ps : List Property}
    (hv : ExprSpec reg grow value) (hps : PropsSpec reg grow ps) :
    PropsSpec reg grow (.mk key value :: ps) := by
  intro acc s s' r hr h
  obtain ⟨v, s1, h1, h⟩ := EvalM.bind_eq_ok h
  obtain ⟨w1, -⟩ := hv hr h1
  exact w1.trans (hps _ (w1.ready hr) (EvalM.check_ok h).2)

end Specs

section Specs

variable (reg : Registry Spec) (grow : Nat → Nat)

mutual

/-- Every expression keeps the invariants of a statement's evaluation, by induction over the
syntax tree with the evaluator's own recursion. -/
theorem exprSpec : ∀ e, ExprSpec reg grow e
  | .literal l => exprSpec_literal l
  | .identifier n => exprSpec_identifier n
  | .callExpression c => exprSpec_call (callSpec c)
  | .memberExpression m => exprSpec_member m
  | .arrowFunctionExpression _ body => exprSpec_arrow (exprSpec body)
  | .binaryExpression b => exprSpec_binary b
  | .logicalExpression l => exprSpec_logical l
  | .arrayExpression a => exprSpec_array (arraySpec a)
  | .objectExpression o => exprSpec_object o

theorem arraySpec : ∀ a, ArraySpec reg grow a
  | .mk els => arraySpec_mk (elementsSpec els)

theorem elementsSpec : ∀ els, ElementsSpec reg grow els
  | [] => elementsSpec_nil
  | el :: els => elementsSpec_cons (exprSpec el) (elementsSpec els)

theorem callSpec : ∀ c, CallSpec reg grow c
  | .mk (.identifier _) args => callSpec_identifier (argsSpec args)
  | .mk (.memberExpression m) args => callSpec_member (memberSpec m) (argsSpec args)
  | .mk (.literal _) _ | .mk (.callExpression _) _ | .mk (.arrowFunctionExpression _ _) _
  | .mk (.binaryExpression _) _ | .mk (.logicalExpression _) _ | .mk (.arrayExpression _) _
  | .mk (.objectExpression _) _ => callSpec_of_error fun _ => ⟨_, rfl⟩

theorem memberSpec : ∀ m, MemberSpec reg grow m
  | .mk (.callExpression c) _ => memberSpec_call (callSpec c)
  | .mk (.identifier _) _ => memberSpec_identifier
  | .mk (.literal _) _ | .mk (.memberExpression _) _ | .mk (.arrowFunctionExpression _ _) _
  | .mk (.binaryExpression _) _ | .mk (.logicalExpression _) _ | .mk (.arrayExpression _) _
  | .mk (.objectExpression _) _ => memberSpec_of_error fun _ => ⟨_, rfl⟩

theorem argsSpec : ∀ args, ArgsSpec reg grow args
  | [.objectExpression o] => argsSpec_object (objectSpec o)
  | [.literal _] | [.identifier _] | [.callExpression _] | [.memberExpression _]
  | [.arrowFunctionExpression _ _] | [.binaryExpression _] | [.logicalExpression _]
  | [.arrayExpression _] => argsSpec_of_error fun _ _ _ => ⟨_, rfl⟩
  | [] => argsSpec_none (by simp)
  | _ :: _ :: _ => argsSpec_none (by simp)

theorem objectSpec : ∀ o, ObjectSpec reg grow o
  | .mk ps => objectSpec_mk (propsSpec ps)

theorem propsSpec : ∀ ps, PropsSpec reg grow ps
  | [] => propsSpec_nil
  | .mk _ v :: ps => propsSpec_cons (exprSpec v) (propsSpec ps)

end

end Specs

/-! ### Statements -/

/-- The state between two statements: ready, with the emitted operations allocated, non-nil and
pairwise distinct. -/
structure Evaluator.Drained (reg : Registry Spec) (s : Evaluator Spec) extends s.Ready reg :
    Prop where
  emitted : ∀ o ∈ s.operations, ∃ p, o = some p ∧ p < s.ops.size
  nodup : s.operations.Nodup

section Statements

variable {reg : Registry Spec} {grow : Nat → Nat} {s0 s1 s2 : Evaluator Spec} {v : Value}

/-- The operations emitted before a statement stay emitted, allocated and distinct. -/
theorem Evaluator.Drained.emitted_within (hd : s0.Drained reg) (w : s0.Within reg s1) :
    ∀ o ∈ s1.operations, ∃ p, o = some p ∧ p < s0.ops.size := by
  rw [w.operations]; exact hd.emitted

/-- A statement that drains nothing: the emitted operations are as they were, and the scope holds
only empty chains. -/
theorem drained_of_scope {sc : Scope} (hd : s0.Drained reg) (w : s0.Within reg s1)
    (hsc : ∀ n v' c, sc n = some v' → v'.value = .chain c →
      c < s1.chains.size ∧ (s1.chains.cells c).operations.len = 0) :
    ({ s1 with scope := sc } : Evaluator Spec).Drained reg where
  toGood := ⟨w.good.ids, w.good.named, w.good.valid, w.good.distinct, w.good.allocated⟩
  scopeChains := hsc
  emitted o ho := by
    obtain ⟨p, rfl, hp⟩ := hd.emitted_within w o ho
    exact ⟨p, rfl, hp.trans_le w.ops_size⟩
  nodup := by rw [show s1.operations = s0.operations from w.operations]; exact hd.nodup

/-- `addChain` of a chain reading only operations newer than every emitted one: the emitted list
stays distinct, and the chain is left empty. -/
theorem addChain_drained {c : Nat} {sc : Scope} (hd : s0.Drained reg) (w : s0.Within reg s1)
    (hlt : c < s1.chains.size) (hfresh : FreshFrom s0.ops.size (s1.window c))
    (hsc : ∀ n v' c', sc n = some v' → v'.value = .chain c' → c' = c ∨
      c' < s1.chains.size ∧ (s1.chains.cells c').operations.len = 0)
    (h : addChain c { s1 with scope := sc } = .ok ((), s2)) : s2.Drained reg := by
  cases h
  have hcell : ∀ q, ((s1.chains.set c { s1.chains.cells c with
      operations := { (s1.chains.cells c).operations with len := 0 },
      edges := { (s1.chains.cells c).edges with len := 0 } }).cells q).operations =
      if q = c then { (s1.chains.cells c).operations with len := 0 }
      else (s1.chains.cells q).operations := by
    intro q; rw [Heap.set_cells]; split <;> rfl
  -- the window: new operations, allocated by now
  have hwin : ∀ x ∈ s1.window c, ∃ p, x = some p ∧ s0.ops.size ≤ p ∧ p < s1.ops.size := by
    intro x hx
    obtain ⟨p, rfl, hp⟩ := hfresh x hx
    exact ⟨p, rfl, hp, w.good.allocated p (Slice.holds_of_mem_read (w.good.valid c) hx)⟩
  refine ⟨⟨⟨w.good.ids, w.good.named, fun q => ?_, w.good.distinct, w.good.allocated⟩,
    fun n v' c' hn hc' => ?_⟩, fun o ho => ?_, ?_⟩
  · rw [hcell]
    split
    · exact ⟨Nat.zero_le _, fun h => (w.good.valid c).2 h⟩
    · exact w.good.valid q
  · simp only [Heap.set_size, hcell]
    rcases hsc n v' c' hn hc' with rfl | ⟨hlt', hlen⟩
    · exact ⟨hlt, by simp⟩
    · exact ⟨hlt', by split <;> simp [hlen]⟩
  · rcases List.mem_append.1 ho with ho | ho
    · obtain ⟨p, rfl, hp⟩ := hd.emitted_within w o ho
      exact ⟨p, rfl, hp.trans_le w.ops_size⟩
    · obtain ⟨p, rfl, -, hp⟩ := hwin o ho
      exact ⟨p, rfl, hp⟩
  · rw [w.operations]
    refine List.nodup_append.2 ⟨hd.nodup, ?_, fun x hx hx' => ?_⟩
    · refine Slice.Distinct.nodup (Slice.distinct_read w.good.distinct (w.good.valid c))
        fun x hx => ?_
      obtain ⟨p, rfl, -⟩ := hwin x hx
      rfl
    · obtain ⟨p, rfl, hp⟩ := hd.emitted _ hx
      obtain ⟨q, hq, hq0, -⟩ := hwin _ hx'
      cases hq
      omega

/-- The end of a statement: with the value bound or not in scope `sc`, the test
`value.Type == TChain` and `addChain` emit the chain's window, all of it newer than what was
emitted before, and empty it. -/
theorem drain_drained (hd : s0.Drained reg) (w : s0.Within reg s1) (hv : FreshValue s0 s1 v)
    (sc : Scope) (hsc : ∀ n v', sc n = some v' → v' = v ∨ s0.scope n = some v')
    (h : drain v { s1 with scope := sc } = .ok ((), s2)) : s2.Drained reg := by
  -- a chain held by the scope is the value's, or a variable's, empty since its statement
  have hold : ∀ n v' c, sc n = some v' → v'.value = .chain c → v' ≠ v →
      c < s1.chains.size ∧ (s1.chains.cells c).operations.len = 0 := by
    intro n v' c hn hc hne
    rcases hsc n v' hn with rfl | hn
    · exact absurd rfl hne
    obtain ⟨hlt, hlen⟩ := hd.scopeChains n v' c hn hc
    exact ⟨hlt.trans_le w.chains_size, by rw [w.chains c hlt]; exact hlen⟩
  unfold drain at h
  by_cases ht : v.type = .tChain
  · rw [if_pos ht] at h
    obtain ⟨c, hc⟩ : ∃ c, v.value = .chain c := by
      cases hc : v.value <;> rw [hc] at h <;> first | exact ⟨_, rfl⟩ | cases h
    rw [hc] at h
    obtain ⟨hlt, hfresh, -⟩ := hv c hc
    refine addChain_drained hd w hlt hfresh (fun n v' c' hn hc' => ?_) h
    by_cases hv' : v' = v
    · subst hv'; rw [hc] at hc'; exact .inl (Dynamic.chain.inj hc').symm
    · exact .inr (hold n v' c' hn hc' hv')
  · rw [if_neg ht] at h
    cases h
    refine drained_of_scope hd w fun n v' c hn hc => ?_
    by_cases hv' : v' = v
    · subst hv'
      obtain ⟨hlt, -, hlen⟩ := hv c hc
      exact ⟨hlt, hlen ht⟩
    · exact hold n v' c hn hc hv'

variable (reg grow)

/-- `doVariableDeclaration`: each declarator binds its value, then drains it. -/
theorem doVariableDeclaration_drained :
    ∀ (vds : List VariableDeclarator) {s s' : Evaluator Spec}, s.Drained reg →
      doVariableDeclaration reg grow vds s = .ok ((), s') → s'.Drained reg
  | [], _, _, hd, h => by cases h; exact hd
  | vd :: vds, s, s', hd, h => by
    rw [doVariableDeclaration.eq_2] at h
    obtain ⟨v, s1, h1, h⟩ := EvalM.bind_eq_ok h
    obtain ⟨w, hv⟩ := exprSpec reg grow vd.init hd.toReady h1
    obtain ⟨_, _, h2, h⟩ := EvalM.bind_eq_ok h
    cases h2
    obtain ⟨_, s3, h3, h⟩ := EvalM.bind_eq_ok h
    refine doVariableDeclaration_drained vds (drain_drained hd w hv _ (fun n v' hn => ?_) h3) h
    rw [Scope.set, Function.update_apply] at hn
    split at hn
    · exact .inl (Option.some.inj hn).symm
    · exact .inr (w.scope ▸ hn)

/-- Every statement keeps the emitted operations allocated, non-nil and distinct. -/
theorem doStatement_drained {s s' : Evaluator Spec} (st : Statement) (hd : s.Drained reg)
    (h : doStatement reg grow st s = .ok ((), s')) : s'.Drained reg := by
  cases st with
  | variableDeclaration ds => exact doVariableDeclaration_drained reg grow ds hd h
  | expressionStatement e =>
    obtain ⟨v, s1, h1, h⟩ := EvalM.bind_eq_ok h
    obtain ⟨w, hv⟩ := exprSpec reg grow e hd.toReady h1
    exact drain_drained hd w hv s1.scope (fun n v' hn => .inr (w.scope ▸ hn)) h

theorem doStatements_drained :
    ∀ (sts : List Statement) {s s' : Evaluator Spec}, s.Drained reg →
      doStatements reg grow sts s = .ok ((), s') → s'.Drained reg
  | [], _, _, hd, h => by cases h; exact hd
  | st :: sts, _, _, hd, h => by
    rw [doStatements.eq_2] at h
    obtain ⟨_, s1, h1, h⟩ := EvalM.bind_eq_ok h
    exact doStatements_drained sts (doStatement_drained reg grow st hd h1) h

/-- The evaluator `Evaluate` starts from holds nothing. -/
theorem drained_init : (Evaluator.init : Evaluator Spec).Drained reg where
  ids := rfl
  named _ h := absurd h (Nat.not_lt_zero _)
  valid _ := ⟨Nat.zero_le _, fun h => absurd h (Nat.lt_irrefl 0)⟩
  distinct _ h := absurd h (Nat.not_lt_zero _)
  allocated _ h := by obtain ⟨_, h, -⟩ := h; exact absurd h (Nat.not_lt_zero _)
  scopeChains _ _ _ h := by cases h
  emitted _ h := by cases h
  nodup := List.nodup_nil

end Statements

/-! ### Distinct ids -/

/-- When no registered function or method name ends in a decimal digit, the operations of every
spec `Evaluate` returns are non-nil, and their ids pairwise distinct. -/
theorem evaluate_ids_distinct (reg : Registry Spec) (grow : Nat → Nat) (prog : Program)
    (hnames : ∀ n1 ∈ reg.names, ∀ n2 ∈ reg.names, numberedAfter n1 n2 = false)
    {q : QuerySpec Spec}
    (h : evaluate reg grow prog = .ok q) : none ∉ q.graph.1 ∧ q.graph.1.Nodup := by
  obtain ⟨s, hs, rfl⟩ : ∃ s, doStatements reg grow prog.body .init = .ok ((), s) ∧ s.spec = q := by
    simp only [evaluate, eval, StateT.run] at h
    rcases hr : doStatements reg grow prog.body .init with e | ⟨⟨⟩, s⟩ <;> rw [hr] at h <;> cases h
    exact ⟨s, rfl, rfl⟩
  have hd := doStatements_drained reg grow prog.body (drained_init reg) hs
  have hgraph : s.spec.graph.1 = s.operations.map (Option.map fun p => (s.ops.cells p).id) := by
    simp [Evaluator.spec, QuerySpec.graph, Option.map_map, Function.comp_def]
  rw [hgraph]
  refine ⟨fun hm => ?_, List.Nodup.map_on (fun x hx y hy hxy => ?_) hd.nodup⟩
  · obtain ⟨o, ho, hno⟩ := List.mem_map.1 hm
    obtain ⟨p, rfl, -⟩ := hd.emitted o ho
    cases hno
  · obtain ⟨p, rfl, hp⟩ := hd.emitted x hx
    obtain ⟨p', rfl, hp'⟩ := hd.emitted y hy
    obtain ⟨n1, hn1, h1⟩ := hd.named p hp
    obtain ⟨n2, hn2, h2⟩ := hd.named p' hp'
    simp only [Option.map_some', Option.some.injEq, h1, h2] at hxy
    rw [id_counter_eq (hnames n1 hn1 n2 hn2) (hnames n2 hn2 n1 hn1) hxy]

section Runs

set_option smartUnfolding false

/-- `a = f()`, then `a.g()`: the second statement extends, in place, the array the first emitted
from. -/
def branchProgram : Program :=
  ⟨[.variableDeclaration [⟨"a", call (.identifier "f") []⟩],
    .expressionStatement (call (member (.identifier "a") "g") [])]⟩

/-- Functions `f` and `f0` and method `g`: `f0` ends in a digit, but is `f` followed by `0`, which
is no positive numeral, so no id of `f` is one of `f0`. -/
def idsRegistry : Registry Unit := ⟨[("f", noArguments), ("f0", noArguments)], [("g", noArguments)]⟩

theorem evaluate_ids_distinct_branch :
    (∀ n1 ∈ idsRegistry.names, ∀ n2 ∈ idsRegistry.names, numberedAfter n1 n2 = false) ∧
    evaluate idsRegistry doubling branchProgram =
      .ok ⟨[some ⟨"f0", some ()⟩, some ⟨"g1", some ()⟩], [⟨"f0", "g1"⟩]⟩ ∧
    none ∉ (QuerySpec.graph (⟨[some ⟨"f0", some ()⟩, some ⟨"g1", some ()⟩], [⟨"f0", "g1"⟩]⟩ :
      QuerySpec Unit)).1 ∧
    (QuerySpec.graph (⟨[some ⟨"f0", some ()⟩, some ⟨"g1", some ()⟩], [⟨"f0", "g1"⟩]⟩ :
      QuerySpec Unit)).1.Nodup :=
  ⟨by decide, rfl, evaluate_ids_distinct idsRegistry doubling branchProgram (by decide) rfl⟩

end Runs

end Ifql
