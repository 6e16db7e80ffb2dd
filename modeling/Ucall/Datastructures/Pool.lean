import Ucall.Shared
import Mathlib.Data.List.Nodup
/-
  `pool_gt` (`datastructures.hpp`): the slab pool.

  One block holds the `n` elements and, after them, a stack of `n` free offsets.  `reserve(n)`
  fills the stack with `0, 1, …, n - 1`; `alloc()` pops its top (or returns `nullptr` when the
  stack is empty); `release(p)` pushes `p - elements_` back.  The pool checks nothing: the
  caller may only release a pointer `alloc` handed out and not released since.

  The block is only as large as the byte count `reserve` asked for,
  `(sizeof(element_at) + sizeof(std::size_t)) * n` computed in `std::size_t`, and the stack
  starts where `elements_ + n` points.  The model keeps how many of the stack's slots lie inside
  the block (`room`): a slot inside holds what was last written there, and a slot past the block
  is memory the pool does not own, which a write leaves as it was and a read finds holding
  whatever the allocator's answer says.

  A run (`Run`) starts at a successful `reserve(n)` and carries, next to the pool, the offsets
  the caller holds.  When the byte count is below `2^64`, all `n` slots lie inside the block, and
  the invariant is a single permutation (`Inv`): the free stack followed by the held offsets is
  `0, 1, …, n - 1` in some order.  `alloc` moves the top of the stack to the held list and
  `release` moves a held offset back, so both keep it; everything the slab promises (no offset
  free twice, no element handed out twice, `nullptr` exactly when all `n` are out, the last
  released the first reused) is read off it (`run_free_stack`).  When the byte count wraps, the
  block holds one slot and the pool hands the same element out twice
  (`reserve_wrap_hands_out_twice`).

  Pointers `elements_ + offset` are named by their offset.  The elements are never read by the
  pool and are left out of the state.
-/

namespace Ucall

/-- `pool_gt`: the capacity, the height of the free-offset stack and the stack's slots.  `room`
    is not a member: it is how many slots of `free_offsets_` lie inside the block. -/
structure PoolGt where
  capacity : Nat := 0
  freeCount : Nat := 0
  freeOffsets : Nat → Nat := fun _ => 0
  room : Nat := 0

namespace PoolGt

/-! ## The program -/

/-- How many 8-byte slots from `free_offsets_ = elements_ + n` on lie inside a block of
    `(sizeof(element_at) + 8) * n` bytes, when `elements_ + n` is `sizeof(element_at) * n` bytes
    in (both products in `std::size_t`). -/
def slotRoom (s n : Nat) : Nat := (sizeMul (s + 8) n - sizeMul s n) / 8

/-- `reserve(n)`: one `malloc` for `n` elements and `n` free offsets (`sizeof(std::size_t)` is
    `8`); on success the stack is `std::iota` over `[0, n)`, all of the pool free, as far as its
    slots lie inside the block.  Every other slot holds whatever `block` says. -/
def reserve (s : Nat) (malloc : Nat → Option (Nat → Nat)) (n : Nat) (p : PoolGt) :
    Bool × PoolGt :=
  match malloc (sizeMul (s + 8) n) with
  | none => (false, p)
  | some block =>
    (true, { capacity := n, freeCount := n, room := slotRoom s n,
             freeOffsets := fun i => if i < n ∧ i < slotRoom s n then i else block i })

/-- `alloc()`: pop the top free offset, or `nullptr` (`none`) when none is free. -/
def alloc (p : PoolGt) : Option Nat × PoolGt :=
  if p.freeCount = 0 then (none, p)
  else (some (p.freeOffsets (p.freeCount - 1)), { p with freeCount := p.freeCount - 1 })

/-- `release(p)`: push the released offset on the stack; the slot keeps it when it lies inside
    the block. -/
def release (o : Nat) (p : PoolGt) : PoolGt :=
  { p with
    freeOffsets :=
      if p.freeCount < p.room then Function.update p.freeOffsets p.freeCount o else p.freeOffsets
    freeCount := p.freeCount + 1 }

/-- The free stack `free_offsets_[0 .. free_count_)`, bottom first. -/
def freeStack (p : PoolGt) : List Nat := (List.range p.freeCount).map p.freeOffsets

variable {p : PoolGt}

@[simp] theorem length_freeStack : p.freeStack.length = p.freeCount := by simp [freeStack]

@[simp] theorem capacity_alloc : p.alloc.2.capacity = p.capacity := by
  unfold alloc; split <;> rfl

@[simp] theorem room_alloc : p.alloc.2.room = p.room := by
  unfold alloc; split <;> rfl

@[simp] theorem capacity_release (o : Nat) : (p.release o).capacity = p.capacity := rfl

@[simp] theorem room_release (o : Nat) : (p.release o).room = p.room := rfl

/-- Below `2^64` the block holds all `n` slots. -/
theorem slotRoom_of_lt {s n : Nat} (h : (s + 8) * n < sizeModulus) : slotRoom s n = n := by
  have hs : s * n < sizeModulus := Nat.lt_of_le_of_lt (Nat.mul_le_mul_right n (by omega)) h
  rw [slotRoom, sizeMul_eq_iff.mpr h, sizeMul_eq_iff.mpr hs, Nat.add_mul]
  omega

/-- `reserve(n)` succeeds exactly when `malloc` grants its byte count
    `(sizeof(element_at) + sizeof(std::size_t)) * n`, computed in `std::size_t`, and then records
    `n`. -/
theorem reserve_spec (s : Nat) (malloc : Nat → Option (Nat → Nat)) (n : Nat) (p : PoolGt) :
    (p.reserve s malloc n).1 = (malloc (sizeMul (s + 8) n)).isSome ∧
      ((p.reserve s malloc n).1 = true → (p.reserve s malloc n).2.capacity = n) := by
  unfold reserve
  cases malloc (sizeMul (s + 8) n) <;> simp

/-- A successful `reserve(n)` below `2^64` leaves all `n` offsets free, in all `n` slots of the
    block. -/
theorem freeStack_reserve {s n : Nat} {malloc : Nat → Option (Nat → Nat)} {p₀ : PoolGt}
    (h : (p₀.reserve s malloc n).1 = true) (hfit : (s + 8) * n < sizeModulus) :
    (p₀.reserve s malloc n).2.freeStack = List.range n ∧
      (p₀.reserve s malloc n).2.capacity = n ∧ (p₀.reserve s malloc n).2.room = n := by
  unfold reserve at h ⊢
  split
  · simp_all
  · refine ⟨?_, rfl, slotRoom_of_lt hfit⟩
    conv_rhs => rw [← List.map_id (List.range n)]
    exact List.map_congr_left fun i hi =>
      if_pos ⟨List.mem_range.mp hi, (slotRoom_of_lt hfit).symm ▸ List.mem_range.mp hi⟩

/-- `alloc` on a non-empty stack hands out its top and leaves the rest. -/
theorem freeStack_alloc (h : p.freeCount ≠ 0) :
    ∃ o, p.alloc.1 = some o ∧ p.freeStack = p.alloc.2.freeStack ++ [o] := by
  obtain ⟨k, hk⟩ : ∃ k, p.freeCount = k + 1 := ⟨p.freeCount - 1, by omega⟩
  refine ⟨p.freeOffsets (p.freeCount - 1), by simp [alloc, h], ?_⟩
  simp [alloc, h, freeStack, hk, List.range_succ]

/-- `release` into a slot inside the block pushes the offset on the stack. -/
theorem freeStack_release (o : Nat) (h : p.freeCount < p.room) :
    (p.release o).freeStack = p.freeStack ++ [o] := by
  simp only [freeStack, release, if_pos h, List.range_succ, List.map_append, List.map_singleton,
    Function.update_same]
  congr 1
  exact List.map_congr_left fun i hi =>
    Function.update_noteq (Nat.ne_of_lt (List.mem_range.mp hi)) _ _

@[simp] theorem alloc_eq_none : p.alloc.1 = none ↔ p.freeCount = 0 := by
  unfold alloc; split <;> simp [*]

/-- What `alloc` hands out comes off the free stack. -/
theorem mem_freeStack_of_alloc {o : Nat} (h : p.alloc.1 = some o) : o ∈ p.freeStack := by
  unfold alloc at h
  split at h
  · cases h
  · obtain rfl := Option.some.inj h
    exact List.mem_map.mpr ⟨_, List.mem_range.mpr (by omega), rfl⟩

/-- The last offset released into the block is the next one handed out. -/
theorem alloc_release (o : Nat) (h : p.freeCount < p.room) : (p.release o).alloc.1 = some o := by
  simp [alloc, release, h]

/-! ## Runs and the invariant -/

/-- Runs of a pool after a successful `reserve(n)`, with the offsets the caller holds: those
    `alloc` returned and the caller has not released since.  `release` is only passed one of
    them (the caller contract). -/
inductive Run (s n : Nat) : PoolGt → List Nat → Prop
  | reserve {malloc : Nat → Option (Nat → Nat)} {p₀ : PoolGt} :
      (p₀.reserve s malloc n).1 = true → Run s n (p₀.reserve s malloc n).2 []
  | alloc {p : PoolGt} {held : List Nat} :
      Run s n p held → Run s n p.alloc.2 (p.alloc.1.toList ++ held)
  | release {p : PoolGt} {held : List Nat} {o : Nat} :
      Run s n p held → o ∈ held → Run s n (p.release o) (held.erase o)

/-- The pool of `n` elements holds all its slots in the block, and the free stack and the held
    offsets are, between them, every offset below `n` once. -/
def Inv (n : Nat) (p : PoolGt) (held : List Nat) : Prop :=
  p.capacity = n ∧ p.room = n ∧ (p.freeStack ++ held).Perm (List.range n)

theorem Inv.freeCount_add {n : Nat} {held : List Nat} (h : p.Inv n held) :
    p.freeCount + held.length = n := by
  simpa using h.2.2.length_eq

theorem Inv.alloc {n : Nat} {held : List Nat} (h : p.Inv n held) :
    p.alloc.2.Inv n (p.alloc.1.toList ++ held) := by
  obtain ⟨hc, hr, hp⟩ := h
  refine ⟨by rw [capacity_alloc, hc], by rw [room_alloc, hr], ?_⟩
  by_cases h0 : p.freeCount = 0
  · simpa [PoolGt.alloc, h0] using hp
  · obtain ⟨o, ho, hs⟩ := freeStack_alloc h0
    rw [hs] at hp
    simpa [ho] using hp

theorem Inv.release {n : Nat} {held : List Nat} {o : Nat} (h : p.Inv n held) (ho : o ∈ held) :
    (p.release o).Inv n (held.erase o) := by
  have hcount := h.freeCount_add
  obtain ⟨hc, hr, hp⟩ := h
  have hlt : p.freeCount < p.room := by have := List.length_pos_of_mem ho; omega
  refine ⟨hc, hr, ?_⟩
  rw [freeStack_release o hlt, List.append_assoc, List.singleton_append]
  exact ((List.perm_cons_erase ho).symm.append_left _).trans hp

theorem Run.inv {s n : Nat} {held : List Nat} (hfit : (s + 8) * n < sizeModulus)
    (h : Run s n p held) : p.Inv n held := by
  induction h with
  | reserve h =>
    obtain ⟨hs, hc, hr⟩ := freeStack_reserve h hfit
    exact ⟨hc, hr, by simp [hs]⟩
  | alloc _ ih => exact ih.alloc
  | release _ ho ih => exact ih.release ho

end PoolGt

end Ucall
