import Mathlib.Data.List.Nodup
import Mathlib.Logic.Function.Basic

/-!
# Go pointers, and slices over a store of backing arrays

The evaluator of `ifql/eval.go` keeps the operations and edges of a call chain in Go slices, and
copies a chain by copying its slice headers (`*chain = *(value.Value.(*CallChain))`). Two chains
then view one backing array, and an `append` through either of them writes into that array when the
window leaves room. This module models exactly that much of the Go runtime.

A heap holds the objects reached through pointers, by address. A store holds the backing arrays
by address; allocation takes the fresh address `size`. A slice
header names an array, a length and a capacity. Every slice the evaluator builds starts at offset 0
of its array (slice literals, `append`, and the re-slice `s[0:0]` all keep offset 0), so no offset
is carried; a `nil` slice is one of capacity 0.

`append` follows the Go specification: when `len < cap` the element is written in place, into the
array every other header of that array also sees; otherwise a new array receives a copy of the
window, the element, and zero values up to the new capacity. The specification leaves the new
capacity to the implementation beyond fitting the new length; `grow` is that choice, and nothing
proved here depends on it.

* `read_append`: appending adds exactly the new element to the window it was appended through;
* `append_slot`: every position of every allocated array keeps its element, or receives the
  appended one — the aliasing the evaluator is exposed to;
* `distinct_append`: if no array repeats a non-nil element and the appended element occurs nowhere,
  no array repeats one afterwards.
-/

namespace Ifql

/-- The backing arrays of one element type: array `a` is `arrays a`, and the next allocation
takes address `size`. -/
structure Store (α : Type) where
  arrays : Nat → List α
  size : Nat

namespace Store

variable {α : Type}

/-- The empty heap. -/
def empty : Store α := ⟨fun _ => [], 0⟩

/-- Allocate a new array holding `l` at the fresh address `st.size`. -/
def alloc (st : Store α) (l : List α) : Store α :=
  ⟨Function.update st.arrays st.size l, st.size + 1⟩

/-- Overwrite position `i` of array `a`. -/
def write (st : Store α) (a i : Nat) (x : α) : Store α :=
  { st with arrays := Function.update st.arrays a ((st.arrays a).set i x) }

@[simp] theorem alloc_size (st : Store α) (l : List α) : (st.alloc l).size = st.size + 1 := rfl

@[simp] theorem write_size (st : Store α) (a i : Nat) (x : α) :
    (st.write a i x).size = st.size := rfl

theorem alloc_arrays (st : Store α) (l : List α) (b : Nat) :
    (st.alloc l).arrays b = if b = st.size then l else st.arrays b := by
  simp [alloc, Function.update_apply]

theorem write_arrays (st : Store α) (a i : Nat) (x : α) (b : Nat) :
    (st.write a i x).arrays b = if b = a then (st.arrays a).set i x else st.arrays b := by
  simp only [write, Function.update_apply]

/-- `y` is held by some allocated array. -/
def Holds (st : Store α) (y : α) : Prop := ∃ a < st.size, y ∈ st.arrays a

end Store

/-- Objects reached through pointers (`*CallChain`, `*query.Operation`): the object at address
`p` is `cells p`, and the next allocation takes address `size`. -/
structure Heap (α : Type) where
  cells : Nat → α
  size : Nat

namespace Heap

variable {α : Type}

/-- The empty heap; `d` stands in for the contents of addresses never allocated. -/
def empty (d : α) : Heap α := ⟨fun _ => d, 0⟩

/-- Allocate `x`, returning the heap and its address. -/
def alloc (h : Heap α) (x : α) : Heap α × Nat :=
  (⟨Function.update h.cells h.size x, h.size + 1⟩, h.size)

/-- Store `x` at address `p`. -/
def set (h : Heap α) (p : Nat) (x : α) : Heap α := { h with cells := Function.update h.cells p x }

@[simp] theorem alloc_size (h : Heap α) (x : α) : (h.alloc x).1.size = h.size + 1 := rfl

@[simp] theorem alloc_addr (h : Heap α) (x : α) : (h.alloc x).2 = h.size := rfl

@[simp] theorem set_size (h : Heap α) (p : Nat) (x : α) : (h.set p x).size = h.size := rfl

theorem alloc_cells (h : Heap α) (x : α) (q : Nat) :
    (h.alloc x).1.cells q = if q = h.size then x else h.cells q := by
  simp [alloc, Function.update_apply]

theorem set_cells (h : Heap α) (p : Nat) (x : α) (q : Nat) :
    (h.set p x).cells q = if q = p then x else h.cells q := by
  simp [set, Function.update_apply]

end Heap

/-- A Go slice header: the backing array it views, its length and its capacity. -/
structure Slice where
  array : Nat
  len : Nat
  cap : Nat
  deriving DecidableEq, Repr

namespace Slice

variable {α : Type} (zero : α) (grow : Nat → Nat)

/-- The `nil` slice. -/
def nil : Slice := ⟨0, 0, 0⟩

/-- The elements visible through `s`. -/
def read (st : Store α) (s : Slice) : List α := (st.arrays s.array).take s.len

/-- The slice literal `[]T{xs...}`: a fresh array of length and capacity `xs.length`. -/
def literal (st : Store α) (xs : List α) : Store α × Slice :=
  (st.alloc xs, ⟨st.size, xs.length, xs.length⟩)

/-- Go's `append(s, x)`. -/
def append (st : Store α) (s : Slice) (x : α) : Store α × Slice :=
  if s.len < s.cap then
    (st.write s.array s.len x, { s with len := s.len + 1 })
  else
    (st.alloc (s.read st ++ x :: List.replicate (max (s.len + 1) (grow s.cap) - (s.len + 1)) zero),
      ⟨st.size, s.len + 1, max (s.len + 1) (grow s.cap)⟩)

/-- A header the Go runtime could have built over `st`: its window fits its capacity, and a
non-nil header names an allocated array of exactly its capacity. -/
def Valid (st : Store α) (s : Slice) : Prop :=
  s.len ≤ s.cap ∧ (0 < s.cap → s.array < st.size ∧ (st.arrays s.array).length = s.cap)

/-! ### What `append` does to the store -/

variable {zero grow}

theorem take_succ_set {l : List α} {n : Nat} (x : α) (h : n < l.length) :
    (l.set n x).take (n + 1) = l.take n ++ [x] := by
  simp [List.set_eq_take_append_cons_drop, h, List.take_append_eq_append_take,
    Nat.min_eq_left (Nat.le_of_lt h)]

theorem size_le_append (st : Store α) (s : Slice) (x : α) :
    st.size ≤ (append zero grow st s x).1.size := by
  unfold append; split <;> simp

theorem length_read_of_valid {st : Store α} {s : Slice} (hv : s.Valid st) :
    (s.read st).length = s.len := by
  rcases Nat.eq_zero_or_pos s.cap with h | h
  · simp [read, show s.len = 0 by have := hv.1; omega]
  · simp [read, (hv.2 h).2, hv.1]

/-- Appending adds exactly the new element to the window it was appended through. -/
theorem read_append {st : Store α} {s : Slice} (x : α) (hv : s.Valid st) :
    (append zero grow st s x).2.read (append zero grow st s x).1 = s.read st ++ [x] := by
  unfold append
  split <;> rename_i h
  · have hlen := (hv.2 (by omega)).2
    simp only [read, Store.write_arrays, if_true]
    exact take_succ_set x (by omega)
  · have hr := length_read_of_valid hv
    show ((st.alloc _).arrays st.size).take (s.len + 1) = _
    rw [Store.alloc_arrays, if_pos rfl]
    simp [List.take_append_eq_append_take, hr, List.take_of_length_le]

theorem valid_append {st : Store α} {s : Slice} (x : α) (hv : s.Valid st) :
    (append zero grow st s x).2.Valid (append zero grow st s x).1 := by
  unfold append
  split <;> rename_i h
  · obtain ⟨hlt, hlen⟩ := hv.2 (by omega)
    exact ⟨by simp only; omega, fun _ => ⟨by simpa using hlt, by simp [Store.write_arrays, hlen]⟩⟩
  · refine ⟨by simp only; omega, fun _ => ⟨by simp, ?_⟩⟩
    simp only [Store.alloc_arrays, if_true, List.length_append, List.length_cons,
      List.length_replicate, length_read_of_valid hv]
    omega

/-- Every position of every allocated array keeps its element, or receives the appended one. -/
theorem append_slot (st : Store α) (s : Slice) (x : α) {a : Nat} (ha : a < st.size) (i : Nat) :
    ((append zero grow st s x).1.arrays a)[i]? = (st.arrays a)[i]? ∨
      ((append zero grow st s x).1.arrays a)[i]? = some x := by
  unfold append
  split
  · simp only [Store.write_arrays]
    split
    · subst a
      rw [List.getElem?_set]
      split_ifs <;> simp; omega
    · exact .inl rfl
  · simp [Store.alloc_arrays, Nat.ne_of_lt ha]

/-- Arrays keep their lengths, so headers valid before stay valid. -/
theorem valid_of_append (st : Store α) (s : Slice) (x : α) {t : Slice} (ht : t.Valid st) :
    t.Valid (append zero grow st s x).1 := by
  refine ⟨ht.1, fun hc => ?_⟩
  obtain ⟨hlt, hlen⟩ := ht.2 hc
  refine ⟨Nat.lt_of_lt_of_le hlt (size_le_append st s x), ?_⟩
  unfold append
  split
  · simp only [Store.write_arrays]
    split <;> simp_all
  · simpa [Store.alloc_arrays, Nat.ne_of_lt hlt] using hlen

/-! ### Membership and distinctness -/

theorem holds_of_mem_read {st : Store α} {s : Slice} {y : α} (hv : s.Valid st)
    (h : y ∈ s.read st) : st.Holds y := by
  rcases Nat.eq_zero_or_pos s.cap with hc | hc
  · simp [read, show s.len = 0 by have := hv.1; omega] at h
  · exact ⟨s.array, (hv.2 hc).1, List.mem_of_mem_take h⟩

/-- An element held after an `append` was held before, is the appended element, or is a zero
value padding a new array. -/
theorem holds_append {st : Store α} {s : Slice} {x y : α} (hv : s.Valid st)
    (h : (append zero grow st s x).1.Holds y) : st.Holds y ∨ y = x ∨ y = zero := by
  obtain ⟨a, ha, hy⟩ := h
  by_cases hc : s.len < s.cap
  · simp only [append, hc, if_true, Store.write_size, Store.write_arrays] at ha hy
    split at hy
    · subst a
      rcases List.mem_or_eq_of_mem_set hy with hy | hy
      · exact .inl ⟨_, ha, hy⟩
      · exact .inr (.inl hy)
    · exact .inl ⟨a, ha, hy⟩
  · simp only [append, hc, if_false, Store.alloc_size, Store.alloc_arrays] at ha hy
    split at hy
    · simp only [List.mem_append, List.mem_cons] at hy
      rcases hy with hy | hy | hy
      · exact .inl (holds_of_mem_read hv hy)
      · exact .inr (.inl hy)
      · exact .inr (.inr (List.eq_of_mem_replicate hy))
    · exact .inl ⟨a, by omega, hy⟩

/-- No non-nil element occurs twice in `l`. -/
def Distinct {β : Type} (l : List (Option β)) : Prop := (l.filterMap id).Nodup

section Distinct

variable {β : Type} {l : List (Option β)} {y : β}

theorem Distinct.take (h : Distinct l) (n : Nat) : Distinct (l.take n) :=
  h.sublist ((List.take_sublist n l).filterMap _)

/-- Writing an element that occurs nowhere in the array keeps it distinct. -/
theorem Distinct.set (h : Distinct l) (hy : some y ∉ l) (i : Nat) : Distinct (l.set i (some y)) := by
  rw [Distinct, List.set_eq_take_append_cons_drop]
  split
  · have hsub : List.Sublist ((l.take i ++ l.drop (i + 1)).filterMap id) (l.filterMap id) := by
      rw [← List.eraseIdx_eq_take_drop_succ]; exact (List.eraseIdx_sublist l i).filterMap _
    rw [List.filterMap_append, show (some y :: l.drop (i + 1)).filterMap id =
      y :: (l.drop (i + 1)).filterMap id from rfl, List.nodup_middle, ← List.filterMap_append]
    exact List.nodup_cons.2 ⟨fun hm => hy (by
      obtain ⟨o, ho, he⟩ := List.mem_filterMap.1 (hsub.subset hm)
      simpa [← he] using ho), h.sublist hsub⟩
  · exact h

/-- A new array: a distinct window, a fresh element, then nil padding. -/
theorem Distinct.append_fresh (h : Distinct l) (hy : some y ∉ l) (n : Nat) :
    Distinct (l ++ some y :: List.replicate n none) := by
  have hnil : (List.replicate n (none : Option β)).filterMap id = [] := by
    simp [List.filterMap_eq_nil_iff]
  rw [Distinct, List.filterMap_append, show (some y :: List.replicate n none).filterMap id =
    y :: (List.replicate n none).filterMap id from rfl, hnil, List.nodup_append]
  exact ⟨h, List.nodup_singleton y, by simpa [List.disjoint_singleton] using hy⟩

end Distinct

/-- An `append` of an element held by no array keeps every array distinct. -/
theorem distinct_append {β : Type} {st : Store (Option β)} {s : Slice} {y : β}
    (hd : ∀ a < st.size, Distinct (st.arrays a)) (hy : ¬ st.Holds (some y)) (hv : s.Valid st) :
    ∀ a < (append none grow st s (some y)).1.size,
      Distinct ((append none grow st s (some y)).1.arrays a) := by
  intro a ha
  by_cases hc : s.len < s.cap
  · simp only [append, hc, if_true, Store.write_size, Store.write_arrays] at ha ⊢
    split
    · subst a; exact (hd _ ha).set (fun hm => hy ⟨_, ha, hm⟩) _
    · exact hd a ha
  · simp only [append, hc, if_false, Store.alloc_size, Store.alloc_arrays] at ha ⊢
    split
    · rcases Nat.eq_zero_or_pos s.cap with h0 | h0
      · simp only [read, show s.len = 0 by have := hv.1; omega, List.take_zero, List.nil_append]
        simp [Distinct]
      · exact ((hd _ (hv.2 h0).1).take _).append_fresh
          (fun hm => hy (holds_of_mem_read hv hm)) _
    · exact hd a (by omega)

end Slice

end Ifql
