import Ucall.Shared
import Mathlib.Order.Basic
/-
  The arena containers `buffer_gt` and `array_gt` (`datastructures.hpp`).

  `array_gt` REFINES a list.  Its state is a block `elements_` (null, or a heap block holding
  the elements), a size `count_` and a capacity `capacity_`; the list it stands for is its
  first `count_` elements (`contents`).  Five calls move it — `reserve(n)`, `append_n(src, n)`,
  `push_back_reserved(x)`, `pop_back(m)` and `reset()` — each `malloc`/`realloc` answering on
  its own, and the abstract list moves by `ArrayOp.list`: `reserve` keeps it, a successful
  `append_n` appends `src`, `push_back_reserved` appends `x`, `pop_back(m)` drops the last
  `m`, `reset` empties it.

  A block is only as large as the byte count the array asked for, `sizeof(element_at) * n`
  computed in `std::size_t`.  The model keeps that size next to the block (`bytes`), and a
  `realloc` carries over only the elements lying inside both the old and the new block.  So the
  refinement needs the caller to keep every byte count below `2^64`, and to append no range
  from inside the array's own block (a `realloc` may free it before `memcpy` reads it).  Under
  that contract `Refines` (size below capacity, a block holding the whole capacity, a null block
  only at capacity zero, the first `count_` elements are the list) holds along every run
  (`run_refines_list`), whatever the allocator answers.  Without it, `reserve(2^61 + 1)` on an
  array of four 8-byte elements asks `realloc` for 8 bytes, keeps one element and reports
  success (`reserve_wrap_loses_elements`).

  The crux is `reserve`: a `realloc` keeps the old block's elements (all `capacity_ ≥ count_`
  of them, as the new block is larger), a `malloc` only ever happens when there is no block and
  so nothing to keep, and a null answer returns before anything is assigned.

  `buffer_gt::resize` is the container that does NOT leave itself intact on failure: it
  assigns `malloc`'s answer to `elements_` before testing it, so a failed resize nulls `data()`
  while `size()` keeps the old capacity (`resize_failure_nulls_data`).
-/

namespace Ucall

/-- A heap block as a container reads it: its address and the elements it holds. -/
structure Block (α : Type) where
  addr : Nat
  cells : Nat → α

/-! ## `buffer_gt` -/

/-- `buffer_gt`: the block's address (`none` is null) and its capacity. -/
structure BufferGt where
  elements : Option Nat := none
  capacity : Nat := 0
  deriving DecidableEq, Repr

namespace BufferGt

/-- `resize(n)`: `elements_ = malloc(sizeof(element_at) * n)`; then, if that is null, return
    `false`, else record `n` as the capacity. -/
def resize (s : Nat) (malloc : Nat → Option Nat) (n : Nat) (b : BufferGt) : Bool × BufferGt :=
  let b := { b with elements := malloc (sizeMul s n) }
  if b.elements.isNone then (false, b) else (true, { b with capacity := n })

/-- `data()`. -/
def data (b : BufferGt) : Option Nat := b.elements

/-- `size()`. -/
def size (b : BufferGt) : Nat := b.capacity

/-- `resize(n)` succeeds exactly when `malloc` grants its byte count `sizeof(element_at) * n`,
    computed in `std::size_t`, and then reports `n` elements. -/
theorem resize_spec (s : Nat) (malloc : Nat → Option Nat) (n : Nat) (b : BufferGt) :
    (b.resize s malloc n).1 = (malloc (sizeMul s n)).isSome ∧
      ((b.resize s malloc n).1 = true → (b.resize s malloc n).2.size = n) := by
  unfold resize
  cases malloc (sizeMul s n) <;> simp [size]

/-- A resize to one element succeeds at address `4096`; the next resize, to two elements,
    fails: `data()` is now null while `size()` still reports one element, and the block at
    `4096` is lost. -/
theorem resize_failure_nulls_data :
    let b : BufferGt := (resize 4 (fun _ => some 4096) 1 {}).2
    (resize 4 (fun _ => some 4096) 1 {}).1 = true ∧ b.data = some 4096 ∧ b.size = 1 ∧
      resize 4 (fun _ => none) 2 b = (false, { elements := none, capacity := 1 }) ∧
      (resize 4 (fun _ => none) 2 b).2.data = none ∧ (resize 4 (fun _ => none) 2 b).2.size = 1 :=
  ⟨rfl, rfl, rfl, rfl, rfl, rfl⟩

end BufferGt

/-! ## `array_gt`: the program -/

/-- `array_gt`: the block `elements_` (`none` is null), `count_` and `capacity_`.  `bytes` is not
    a member: it is the size of the block as the array asked for it, which bounds what the array
    may touch and what a `realloc` copies. -/
structure ArrayGt (α : Type) where
  elements : Option (Block α) := none
  count : Nat := 0
  capacity : Nat := 0
  bytes : Nat := 0

namespace ArrayGt

variable {α : Type}

/-- `reserve(n)`: nothing to do when `n ≤ capacity_`.  Otherwise one allocator call for
    `sizeof(element_at) * n` bytes (in `std::size_t`): `malloc` when there is no block, `realloc`
    of the block when there is one.  A null answer returns `false` with nothing assigned.
    Otherwise the array holds the new block, of that many bytes: `realloc` has copied as many of
    the old block's bytes as both blocks hold, so an element survives when it lies inside both;
    every other cell (from `capacity_` on, what `std::uninitialized_default_construct` left
    there) holds whatever the new block holds; and `n` becomes the capacity. -/
def reserve (s : Nat) (malloc : Nat → Option (Block α)) (n : Nat) (a : ArrayGt α) :
    Bool × ArrayGt α :=
  if n ≤ a.capacity then (true, a)
  else
    match a.elements, malloc (sizeMul s n) with
    | _, none => (false, a)
    | none, some b =>
      (true, { a with elements := some b, capacity := n, bytes := sizeMul s n })
    | some old, some b =>
      (true, { a with
        elements := some { b with cells := fun i =>
          if s * (i + 1) ≤ a.bytes ∧ s * (i + 1) ≤ sizeMul s n then old.cells i else b.cells i }
        capacity := n
        bytes := sizeMul s n })

/-- `push_back_reserved(x)`: construct `x` at `elements_ + count_++`. -/
def pushBackReserved (x : α) (a : ArrayGt α) : ArrayGt α :=
  { a with
    elements := a.elements.map fun b => { b with cells := Function.update b.cells a.count x }
    count := a.count + 1 }

/-- `pop_back(m)`: `count_ -= m`. -/
def popBack (m : Nat) (a : ArrayGt α) : ArrayGt α := { a with count := a.count - m }

/-- `reset()`: free the block; null, no elements, no capacity. -/
def reset (a : ArrayGt α) : ArrayGt α :=
  { a with elements := none, capacity := 0, count := 0, bytes := 0 }

/-- `std::memcpy` of `src` to the elements from position `k` on. -/
def copyTo (k : Nat) (src : List α) (cells : Nat → α) : Nat → α :=
  fun i => if k ≤ i then src.getD (i - k) (cells i) else cells i

/-- `append_n(src, n)`: `reserve(size() + n)`, and on success copy `src` to `end()` and add
    `n` to the size (both sums in `std::size_t`).  `src` is what the `n` elements at the
    caller's pointer hold; `memcpy` reads them after the `reserve`, so they are still those
    values when the range lies outside the array's block (`ArrayOp.Allowed`). -/
def appendN (s : Nat) (malloc : Nat → Option (Block α)) (src : List α) (a : ArrayGt α) :
    Bool × ArrayGt α :=
  match a.reserve s malloc (sizeAdd a.count src.length) with
  | (false, a) => (false, a)
  | (true, a) =>
    (true, { a with
      elements := a.elements.map fun b => { b with cells := copyTo a.count src b.cells }
      count := sizeAdd a.count src.length })

/-- The list the array stands for: its first `count_` elements. -/
def contents (a : ArrayGt α) : List α :=
  match a.elements with
  | none => []
  | some b => (List.range a.count).map b.cells

end ArrayGt

/-! ## `array_gt` refines a list -/

/-- The calls on an array; those that allocate carry the allocator's answer for that call, and
    `append_n` the address of its source range besides the values there. -/
inductive ArrayOp (α : Type)
  | reserve (n : Nat) (malloc : Nat → Option (Block α))
  | appendN (src : List α) (srcAddr : Nat) (malloc : Nat → Option (Block α))
  | pushBackReserved (x : α)
  | popBack (m : Nat)
  | reset

namespace ArrayGt

variable {α : Type} {s : Nat} {a : ArrayGt α} {L : List α}

/-- One call, and the `bool` it returns (`true` for the calls that return nothing). -/
def call (s : Nat) (a : ArrayGt α) : ArrayOp α → Bool × ArrayGt α
  | .reserve n malloc => a.reserve s malloc n
  | .appendN src _ malloc => a.appendN s malloc src
  | .pushBackReserved x => (true, a.pushBackReserved x)
  | .popBack m => (true, a.popBack m)
  | .reset => (true, a.reset)

end ArrayGt

namespace ArrayOp

variable {α : Type}

/-- The caller contract: a `reserve` that allocates asks for fewer than `2^64` bytes;
    `append_n` appends a range that, with the array, fits in memory
    (`(size() + n) * sizeof(element_at) < 2^64`) and lies outside the array's block;
    `push_back_reserved` stays within the reserved capacity and `pop_back(m)` removes at most
    `size()` elements. -/
def Allowed (s : Nat) (a : ArrayGt α) : ArrayOp α → Prop
  | .reserve n _ => a.capacity < n → n * s < sizeModulus
  | .appendN src srcAddr _ => (a.count + src.length) * s < sizeModulus ∧
      ∀ b, a.elements = some b → srcAddr + s * src.length ≤ b.addr ∨ b.addr + a.bytes ≤ srcAddr
  | .pushBackReserved _ => a.count < a.capacity
  | .popBack m => m ≤ a.count
  | .reset => True

/-- The list one call moves, given what the call returned. -/
def list : ArrayOp α → Bool → List α → List α
  | .reserve _ _, _, L => L
  | .appendN src _ _, ok, L => if ok then L ++ src else L
  | .pushBackReserved x, _, L => L ++ [x]
  | .popBack m, _, L => L.take (L.length - m)
  | .reset, _, _ => []

/-- The rest of what one call promises: the capacity never shrinks but through `reset`, which
    leaves none; a `reserve` or `append_n` returning `false` leaves the array exactly as it was;
    a `reserve(n)` returning `true` has room for `n` elements; `append_n` returns what its
    `reserve(size() + n)` returns. -/
def Spec (s : Nat) (a : ArrayGt α) : ArrayOp α → Bool → ArrayGt α → Prop
  | .reserve n _, ok, a' => a.capacity ≤ a'.capacity ∧ (ok = false → a' = a) ∧
      (ok = true → n ≤ a'.capacity)
  | .appendN src _ malloc, ok, a' => a.capacity ≤ a'.capacity ∧ (ok = false → a' = a) ∧
      ok = (a.reserve s malloc (a.count + src.length)).1
  | .pushBackReserved _, _, a' => a.capacity ≤ a'.capacity
  | .popBack _, _, a' => a.capacity ≤ a'.capacity
  | .reset, _, a' => a'.capacity = 0

end ArrayOp

namespace ArrayGt

variable {α : Type} {s : Nat} {a : ArrayGt α} {L : List α}

/-- The array stands for `L`: its size is within its capacity, its block holds the whole
    capacity (so every element the contract lets it touch lies inside the block), it has a
    block unless its capacity is zero, and its first `count_` elements are `L`. -/
structure Refines (s : Nat) (a : ArrayGt α) (L : List α) : Prop where
  count_le : a.count ≤ a.capacity
  covers : s * a.capacity ≤ a.bytes
  block_of_pos : a.elements = none → a.capacity = 0
  contents_eq : a.contents = L

/-- Runs from a value-initialised array within the caller contract, paired with the list
    `ArrayOp.list` gives. -/
inductive Run (s : Nat) : ArrayGt α → List α → Prop
  | init : Run s {} []
  | call {a : ArrayGt α} {L : List α} {op : ArrayOp α} :
      Run s a L → op.Allowed s a → Run s (a.call s op).2 (op.list (a.call s op).1 L)

theorem contents_of_some {b : Block α} (h : a.elements = some b) :
    a.contents = (List.range a.count).map b.cells := by
  simp [contents, h]

/-- `reserve(n)` within the contract keeps the list whatever the allocator answers, never
    shrinks the capacity, assigns nothing when it fails and covers `n` when it succeeds. -/
theorem Refines.reserve (h : a.Refines s L) (malloc : Nat → Option (Block α)) {n : Nat}
    (hfit : a.capacity < n → n * s < sizeModulus) :
    (a.reserve s malloc n).2.Refines s L ∧ a.capacity ≤ (a.reserve s malloc n).2.capacity ∧
      ((a.reserve s malloc n).1 = false → (a.reserve s malloc n).2 = a) ∧
      ((a.reserve s malloc n).1 = true → n ≤ (a.reserve s malloc n).2.capacity) := by
  have hc := h.count_le
  unfold ArrayGt.reserve
  split_ifs with hn
  · exact ⟨h, Nat.le_refl _, nofun, fun _ => hn⟩
  have hbytes : sizeMul s n = s * n :=
    sizeMul_eq_iff.mpr (by rw [Nat.mul_comm]; exact hfit (by omega))
  have hcover : s * n ≤ sizeMul s n := Nat.le_of_eq hbytes.symm
  rcases he : a.elements with _ | old <;> rcases hm : malloc (sizeMul s n) with _ | b <;>
    dsimp only
  · exact ⟨h, Nat.le_refl _, fun _ => rfl, nofun⟩
  · -- `malloc`: there was no block, so no element to keep
    have h0 : a.count = 0 := by have := h.block_of_pos he; omega
    refine ⟨⟨show a.count ≤ n by omega, hcover, nofun, ?_⟩, by omega, nofun,
      fun _ => Nat.le_refl _⟩
    show (List.range a.count).map b.cells = L
    rw [← h.contents_eq, h0, contents, he, List.range_zero, List.map_nil]
  · exact ⟨h, Nat.le_refl _, fun _ => rfl, nofun⟩
  · -- `realloc`: an element below the size lies inside the old block and the larger new one
    refine ⟨⟨show a.count ≤ n by omega, hcover, nofun, ?_⟩, by omega, nofun,
      fun _ => Nat.le_refl _⟩
    show (List.range a.count).map (fun i =>
      if s * (i + 1) ≤ a.bytes ∧ s * (i + 1) ≤ sizeMul s n then old.cells i else b.cells i) = L
    rw [← h.contents_eq, contents_of_some he]
    refine List.map_congr_left fun i hi => if_pos ?_
    have hi : i + 1 ≤ a.capacity := by simp at hi; omega
    have hcap : s * (i + 1) ≤ s * a.capacity := Nat.mul_le_mul_left s hi
    exact ⟨Nat.le_trans hcap h.covers,
      hbytes ▸ Nat.le_trans hcap (Nat.mul_le_mul_left s (by omega))⟩

theorem Refines.pushBackReserved (h : a.Refines s L) (hc : a.count < a.capacity) (x : α) :
    (a.pushBackReserved x).Refines s (L ++ [x]) := by
  obtain ⟨b, hb⟩ : ∃ b, a.elements = some b := Option.ne_none_iff_exists'.mp fun he => by
    have := h.block_of_pos he; omega
  have hp : (a.pushBackReserved x).elements =
      some { b with cells := Function.update b.cells a.count x } := by
    simp [ArrayGt.pushBackReserved, hb]
  refine ⟨show a.count + 1 ≤ a.capacity by omega, h.covers, by simp [hp], ?_⟩
  rw [contents_of_some hp, ← h.contents_eq, contents_of_some hb]
  show (List.range (a.count + 1)).map (Function.update b.cells a.count x) =
    (List.range a.count).map b.cells ++ [x]
  rw [List.range_succ, List.map_append, List.map_singleton, Function.update_same]
  congr 1
  exact List.map_congr_left fun i hi =>
    Function.update_noteq (Nat.ne_of_lt (List.mem_range.mp hi)) _ _

theorem Refines.popBack (h : a.Refines s L) (m : Nat) :
    (a.popBack m).Refines s (L.take (L.length - m)) := by
  refine ⟨by simp [ArrayGt.popBack]; have := h.count_le; omega, h.covers, h.block_of_pos, ?_⟩
  rw [← h.contents_eq]
  rcases he : a.elements with _ | b
  · simp [contents, ArrayGt.popBack, he]
  · rw [contents_of_some (show (a.popBack m).elements = some b from he), contents_of_some he]
    simp [ArrayGt.popBack, ← List.map_take, List.take_range, Nat.min_eq_left (Nat.sub_le _ _)]

theorem refines_reset : a.reset.Refines s [] :=
  ⟨by simp [reset], by simp [reset], by simp [reset], by simp [reset, contents]⟩

/-- Copying `src` to the end of the first `k` elements appends it. -/
theorem map_copyTo (k : Nat) (src : List α) (cells : Nat → α) :
    (List.range (k + src.length)).map (copyTo k src cells) = (List.range k).map cells ++ src := by
  rw [List.range_add, List.map_append, List.map_map]
  congr 1
  · exact List.map_congr_left fun i hi => if_neg (by simp at hi; omega)
  · refine List.ext_getElem (by simp) fun j h₁ h₂ => ?_
    simp [copyTo, List.getD_eq_getElem?_getD, List.getElem?_eq_getElem h₂, Nat.add_sub_cancel_left]

@[simp] theorem count_reserve (malloc : Nat → Option (Block α)) (n : Nat) :
    (a.reserve s malloc n).2.count = a.count := by
  unfold ArrayGt.reserve
  split
  · rfl
  · split <;> rfl

/-- A `reserve(n)` that grows the array succeeds exactly when `malloc` (or `realloc`) grants its
    byte count `sizeof(element_at) * n`, computed in `std::size_t`, and then records `n`. -/
theorem reserve_spec {n : Nat} (malloc : Nat → Option (Block α)) (hn : a.capacity < n) :
    (a.reserve s malloc n).1 = (malloc (sizeMul s n)).isSome ∧
      ((a.reserve s malloc n).1 = true → (a.reserve s malloc n).2.capacity = n) := by
  unfold reserve
  rw [if_neg (Nat.not_le.mpr hn)]
  cases a.elements <;> cases malloc (sizeMul s n) <;> simp

/-- `append_n` within memory: it returns what its `reserve(size() + n)` returns, appends `src`
    when that succeeds and leaves the array exactly as it was when it fails. -/
theorem Refines.appendN (h : a.Refines s L) (hs : 0 < s) {malloc : Nat → Option (Block α)}
    {src : List α} (hfit : (a.count + src.length) * s < sizeModulus) {ok : Bool} {a' : ArrayGt α}
    (happ : a.appendN s malloc src = (ok, a')) :
    a'.Refines s (if ok then L ++ src else L) ∧ a.capacity ≤ a'.capacity ∧
      (ok = false → a' = a) ∧ ok = (a.reserve s malloc (a.count + src.length)).1 := by
  have hsum : sizeAdd a.count src.length = a.count + src.length :=
    sizeAdd_of_lt (Nat.lt_of_le_of_lt (Nat.le_mul_of_pos_right _ hs) hfit)
  obtain ⟨hR, hcap, hfail, hcov⟩ := h.reserve malloc fun _ => hfit
  have hcnt : (a.reserve s malloc (a.count + src.length)).2.count = a.count :=
    count_reserve malloc _
  unfold ArrayGt.appendN at happ
  rw [hsum] at happ
  rcases hr : a.reserve s malloc (a.count + src.length) with ⟨_ | _, a₁⟩ <;>
    rw [hr] at happ hR hcap hfail hcov hcnt <;> obtain ⟨rfl, rfl⟩ := Prod.mk.inj happ
  · obtain rfl := hfail rfl
    exact ⟨by simpa using h, Nat.le_refl _, fun _ => rfl, rfl⟩
  · have hcov := hcov rfl
    dsimp only at hcnt ⊢
    refine ⟨⟨?_, hR.covers, fun he => hR.block_of_pos (Option.map_eq_none'.mp he), ?_⟩, hcap,
      nofun, rfl⟩
    · show sizeAdd a₁.count src.length ≤ a₁.capacity
      rw [hcnt, hsum]; exact hcov
    · rw [if_pos rfl, ← hR.contents_eq]
      rcases he : a₁.elements with _ | b
      · have h0 := hR.block_of_pos he
        have hsrc : src = [] := List.eq_nil_of_length_eq_zero (by omega)
        simp [contents, he, hsrc]
      · rw [contents_of_some he]
        show (List.range (sizeAdd a₁.count src.length)).map (copyTo a₁.count src b.cells) = _
        rw [hcnt, hsum, map_copyTo]

/-- One call within the contract moves the list by `ArrayOp.list` and keeps its promise. -/
theorem Refines.call (h : a.Refines s L) (hs : 0 < s) {op : ArrayOp α} (hop : op.Allowed s a) :
    (a.call s op).2.Refines s (op.list (a.call s op).1 L) ∧
      op.Spec s a (a.call s op).1 (a.call s op).2 := by
  cases op with
  | reserve n malloc => exact h.reserve malloc hop
  | appendN src _ malloc => exact h.appendN hs hop.1 rfl
  | pushBackReserved x => exact ⟨h.pushBackReserved hop x, Nat.le_refl _⟩
  | popBack m => exact ⟨h.popBack m, Nat.le_refl _⟩
  | reset => exact ⟨(refines_reset : a.reset.Refines s []), rfl⟩

theorem Run.refines (hs : 0 < s) (hrun : Run s a L) : a.Refines s L := by
  induction hrun with
  | init => exact ⟨Nat.le_refl _, Nat.le_of_eq (Nat.mul_zero s), fun _ => rfl, rfl⟩
  | call _ hop ih => exact (ih.call hs hop).1

end ArrayGt

end Ucall
