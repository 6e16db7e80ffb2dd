import Ucall.Datastructures.Arena
import Ucall.Datastructures.Pool
import Ucall.Datastructures.RoundRobin
/-
  The containers and the C allocator: the byte counts they ask for, and the blocks they hold.

  BYTE COUNTS WRAP.  `buffer_gt::resize`, `array_gt::reserve`, `pool_gt::reserve` and
  `round_robin_gt::alloc` ask the allocator for `sizeof(element_at) * n` bytes
  (`(sizeof(element_at) + sizeof(std::size_t)) * n` for the pool, which keeps its free offsets
  after the elements), computed in `std::size_t` with no overflow check, and each records `n` as
  its capacity whenever the allocator does not return null (`BufferGt.resize_spec`,
  `ArrayGt.reserve_spec`, `PoolGt.reserve_spec`, `RoundRobinGt.alloc_spec`).  Below `2^64`
  that byte count is the exact product (`sizeMul_eq_iff`).  Above it the count wraps: `2^61 + 1`
  elements of 8 bytes are asked for as 8 bytes (16 for the pool), a heap with only 4 KiB free
  grants that, and all four calls report success with a capacity whose elements need more than
  `2^64` bytes (`allocation_byte_count_wraps`).

  WHO OWNS THE BLOCKS.  The C heap is the list of the blocks `malloc`/`realloc` handed out and
  nobody freed.  An array call makes at most one allocator call (`HeapCall`), with the
  allocator's answer: `malloc` adds the block it grants, `realloc` frees its block when it
  grants a new one, `free` removes its block, and `realloc` of zero bytes frees its block and
  returns null, as glibc does.  Two contracts meet there: the ALLOCATOR's, that a block it grants
  is not live (`HeapCall.Fresh`), which the runs below assume of every call, and the CALLER's,
  that it reallocates and frees only live blocks (`HeapCall.Safe`: no double free, no free of a
  block it does not hold), which the theorems prove.

  Within the array's contract `array_gt` OWNS EXACTLY ITS BLOCK (`heapRun_owns_block`): along
  every run of its calls, the heap is what was live before plus the array's one block, no block
  is live twice, every `realloc` and `free` it makes is of that block, and the destructor
  (`reset()`) returns the heap to what it was.  The crux is `reserve`: on a null array it
  `malloc`s, on a block it `realloc`s, and when `realloc` fails it keeps the old block, which is
  still live because it asked for bytes.  When the byte count wraps to zero it is not: `realloc`
  frees the block, `reserve` returns `false` keeping it, and the destructor frees it a second
  time (`reserve_zero_bytes_double_free`).
-/

namespace Ucall

/-! ## Byte counts -/

/-- The answer of `std::malloc` on a heap with `limit` bytes free: `block` for a request of at
    most `limit` bytes, a null pointer for a larger one. -/
def mallocUpTo {β : Type} (limit : Nat) (block : β) (bytes : Nat) : Option β :=
  if bytes ≤ limit then some block else none

/-- **Allocation byte counts wrap.**  `2^61 + 1` elements of 8 bytes need `2^64 + 8` bytes
    (`2^65 + 16` with the pool's free offsets), but `std::size_t` arithmetic asks for `8` (`16`).
    A heap with only 4 KiB free grants that, and each of the four allocating calls, made on a
    fresh object, reports success and records `2^61 + 1` as its capacity. -/
theorem allocation_byte_count_wraps :
    8 * (2 ^ 61 + 1) = 2 ^ 64 + 8 ∧ sizeMul 8 (2 ^ 61 + 1) = 8 ∧
      (8 + 8) * (2 ^ 61 + 1) = 2 ^ 65 + 16 ∧ sizeMul (8 + 8) (2 ^ 61 + 1) = 16 ∧
      BufferGt.resize 8 (mallocUpTo 4096 4096) (2 ^ 61 + 1) {} =
        (true, { elements := some 4096, capacity := 2 ^ 61 + 1 }) ∧
      (ArrayGt.reserve 8 (mallocUpTo 4096 (⟨4096, fun _ => 0⟩ : Block Nat)) (2 ^ 61 + 1) {}).1 ∧
      (ArrayGt.reserve 8 (mallocUpTo 4096 (⟨4096, fun _ => 0⟩ : Block Nat)) (2 ^ 61 + 1)
        {}).2.capacity = 2 ^ 61 + 1 ∧
      (PoolGt.reserve 8 (mallocUpTo 4096 id) (2 ^ 61 + 1) {}).1 ∧
      (PoolGt.reserve 8 (mallocUpTo 4096 id) (2 ^ 61 + 1) {}).2.capacity = 2 ^ 61 + 1 ∧
      (RoundRobinGt.alloc 8 (mallocUpTo 4096 fun _ => ⟨0, 0, ⟨0, 0⟩⟩) (2 ^ 61 + 1) {}).1 ∧
      (RoundRobinGt.alloc 8 (mallocUpTo 4096 fun _ => ⟨0, 0, ⟨0, 0⟩⟩) (2 ^ 61 + 1)
        {}).2.capacity = 2 ^ 61 + 1 := by
  have h8 : sizeMul 8 (2 ^ 61 + 1) = 8 := by decide
  have h16 : sizeMul (8 + 8) (2 ^ 61 + 1) = 16 := by decide
  -- each call succeeds because `malloc` grants the wrapped byte count
  have ha := @ArrayGt.reserve_spec Nat 8 {} (2 ^ 61 + 1) (mallocUpTo 4096 ⟨4096, fun _ => 0⟩)
    (by decide)
  have hp := PoolGt.reserve_spec 8 (mallocUpTo 4096 id) (2 ^ 61 + 1) {}
  have hr := RoundRobinGt.alloc_spec 8 (mallocUpTo 4096 fun _ => ⟨0, 0, ⟨0, 0⟩⟩) (2 ^ 61 + 1) {}
  rw [h8] at ha hr
  rw [h16] at hp
  have ha₁ := ha.1.trans rfl
  have hp₁ := hp.1.trans rfl
  have hr₁ := hr.1.trans rfl
  exact ⟨by decide, h8, by decide, h16, rfl, ha₁, ha.2 ha₁, hp₁, hp.2 hp₁, hr₁, hr.2 hr₁⟩

/-! ## The C heap -/

/-- A call into the C allocator, with the allocator's answer (`none` is a null pointer). -/
inductive HeapCall
  | noCall
  | malloc (ans : Option Nat)
  | realloc (old bytes : Nat) (ans : Option Nat)
  | free (ptr : Option Nat)
  deriving DecidableEq, Repr

namespace HeapCall

/-- The live blocks after the call: `malloc` adds the block it grants; `realloc` frees the old
    block when it grants one (which may be the old address), keeps it when it fails, and frees it
    when asked for zero bytes (glibc's `realloc(p, 0)`, which returns null); `free` removes its
    block, and `free(nullptr)` does nothing. -/
def run : HeapCall → List Nat → List Nat
  | .noCall, h => h
  | .malloc ans, h => ans.toList ++ h
  | .realloc old bytes none, h => if bytes = 0 then h.erase old else h
  | .realloc old _ (some p), h => p :: h.erase old
  | .free none, h => h
  | .free (some p), h => h.erase p

/-- The allocator's contract: a block it grants is not live (`realloc` may hand back the block
    it was given). -/
def Fresh : HeapCall → List Nat → Prop
  | .malloc (some p), h => p ∉ h
  | .realloc old _ (some p), h => p ∉ h.erase old
  | _, _ => True

/-- The caller's part: `realloc` and `free` only of a live block. -/
def Safe : HeapCall → List Nat → Prop
  | .realloc old _ _, h => old ∈ h
  | .free (some p), h => p ∈ h
  | _, _ => True

instance instDecidableFresh : (c : HeapCall) → (h : List Nat) → Decidable (c.Fresh h)
  | .noCall, _ => isTrue trivial
  | .malloc none, _ => isTrue trivial
  | .malloc (some p), h => inferInstanceAs (Decidable (p ∉ h))
  | .realloc _ _ none, _ => isTrue trivial
  | .realloc old _ (some p), h => inferInstanceAs (Decidable (p ∉ h.erase old))
  | .free _, _ => isTrue trivial

/-- Under the allocator's contract no call makes a block live twice. -/
theorem nodup_run {c : HeapCall} {h : List Nat} (hn : h.Nodup) (hf : c.Fresh h) :
    (c.run h).Nodup := by
  match c, hf with
  | .noCall, _ => exact hn
  | .malloc none, _ => exact hn
  | .malloc (some _), hf => exact List.nodup_cons.mpr ⟨hf, hn⟩
  | .realloc old bytes none, _ =>
    by_cases hb : bytes = 0
    · simpa [run, hb] using hn.erase old
    · simpa [run, hb] using hn
  | .realloc old _ (some _), hf => exact List.nodup_cons.mpr ⟨hf, hn.erase old⟩
  | .free none, _ => exact hn
  | .free (some p), _ => exact hn.erase p

end HeapCall

/-! ## `array_gt` owns exactly its block -/

namespace ArrayGt

variable {α : Type} {s : Nat} {a : ArrayGt α} {h base : List Nat}

/-- The block `elements_` points at (`none` for null). -/
def ptr (a : ArrayGt α) : Option Nat := a.elements.map Block.addr

/-- The allocator call `reserve(n)` makes: none when the capacity suffices, `malloc` on a null
    array, and `realloc` of its block otherwise, each for `sizeof(element_at) * n` bytes. -/
def reserveCall (s : Nat) (malloc : Nat → Option (Block α)) (n : Nat) (a : ArrayGt α) :
    HeapCall :=
  if n ≤ a.capacity then .noCall
  else
    match a.elements with
    | none => .malloc ((malloc (sizeMul s n)).map Block.addr)
    | some old => .realloc old.addr (sizeMul s n) ((malloc (sizeMul s n)).map Block.addr)

end ArrayGt

/-- The allocator call one array call makes: `append_n` makes the call its
    `reserve(size() + n)` makes, `reset()` frees the block, and the others make none. -/
def ArrayOp.heapCall {α : Type} (s : Nat) (a : ArrayGt α) : ArrayOp α → HeapCall
  | .reserve n malloc => a.reserveCall s malloc n
  | .appendN src _ malloc => a.reserveCall s malloc (sizeAdd a.count src.length)
  | .pushBackReserved _ => .noCall
  | .popBack _ => .noCall
  | .reset => .free a.ptr

namespace ArrayGt

variable {α : Type} {s : Nat} {a : ArrayGt α} {h base : List Nat}

@[simp] theorem ptr_pushBackReserved (x : α) : (a.pushBackReserved x).ptr = a.ptr := by
  simp [ptr, pushBackReserved, Option.map_map, Function.comp_def]

@[simp] theorem ptr_popBack (m : Nat) : (a.popBack m).ptr = a.ptr := rfl

@[simp] theorem ptr_reset : a.reset.ptr = none := rfl

/-- `append_n` keeps the block its `reserve` leaves: the copy writes into it. -/
theorem ptr_appendN (malloc : Nat → Option (Block α)) (src : List α) :
    (a.appendN s malloc src).2.ptr = (a.reserve s malloc (sizeAdd a.count src.length)).2.ptr := by
  unfold appendN
  rcases a.reserve s malloc (sizeAdd a.count src.length) with ⟨_ | _, a'⟩
  · rfl
  · simp [ptr, Option.map_map, Function.comp_def]

/-- A growing `reserve(n)` within the contract asks for a positive byte count. -/
theorem sizeMul_ne_zero {n : Nat} (hs : 0 < s) (hfit : a.capacity < n → n * s < sizeModulus)
    (hn : a.capacity < n) : sizeMul s n ≠ 0 := by
  rw [sizeMul_eq_iff.mpr (by rw [Nat.mul_comm]; exact hfit hn)]
  exact Nat.pos_iff_ne_zero.mp (Nat.mul_pos hs (by omega))

/-- **`reserve` hands its block over.**  From a heap holding the array's block besides `base`,
    the call a growing `reserve(n)` of a positive byte count makes is of a live block, and
    afterwards the heap holds the block the array then points at besides `base`: the new one
    when `malloc`/`realloc` grants it, the old one when `realloc` fails. -/
theorem reserve_heap (hown : h.Perm (a.ptr.toList ++ base))
    (malloc : Nat → Option (Block α)) (n : Nat) (hbytes : a.capacity < n → sizeMul s n ≠ 0) :
    (a.reserveCall s malloc n).Safe h ∧
      ((a.reserveCall s malloc n).run h).Perm ((a.reserve s malloc n).2.ptr.toList ++ base) := by
  unfold reserveCall reserve
  split_ifs with hn
  · exact ⟨trivial, hown⟩
  have hpos := hbytes (by omega)
  rcases he : a.elements with _ | old <;>
    simp only [ptr, he, Option.map_none', Option.map_some', Option.toList_none,
      Option.toList_some, List.nil_append, List.singleton_append] at hown <;>
    rcases hm : malloc (sizeMul s n) with _ | b
  · exact ⟨trivial, by simpa [HeapCall.run, ptr, he] using hown⟩
  · -- `malloc` grants `b` to a null array
    exact ⟨trivial, by simpa [HeapCall.run, ptr] using hown⟩
  · -- `realloc` of a positive byte count fails: the old block stays live and the array keeps it
    exact ⟨hown.mem_iff.mpr (List.mem_cons_self _ _),
      by simpa [HeapCall.run, ptr, he, hpos] using hown⟩
  · -- `realloc` grants `b` and frees the old block
    have hfree := hown.erase old.addr
    rw [List.erase_cons_head] at hfree
    exact ⟨hown.mem_iff.mpr (List.mem_cons_self _ _), by simpa [HeapCall.run, ptr] using hfree⟩

/-- One call within the contract keeps the array's ownership: its allocator call is of a live
    block, and the heap afterwards holds the array's block besides `base`. -/
theorem call_heap (hs : 0 < s) (hown : h.Perm (a.ptr.toList ++ base)) {op : ArrayOp α}
    (hop : op.Allowed s a) :
    (op.heapCall s a).Safe h ∧
      ((op.heapCall s a).run h).Perm ((a.call s op).2.ptr.toList ++ base) := by
  cases op with
  | reserve n malloc => exact reserve_heap hown malloc n (sizeMul_ne_zero hs hop)
  | appendN src _ malloc =>
    have hsum : sizeAdd a.count src.length = a.count + src.length :=
      sizeAdd_of_lt (Nat.lt_of_le_of_lt (Nat.le_mul_of_pos_right _ hs) hop.1)
    rw [call, ptr_appendN]
    exact reserve_heap hown malloc _ (sizeMul_ne_zero hs fun _ => hsum ▸ hop.1)
  | pushBackReserved x =>
    exact ⟨trivial, by simpa [call, ArrayOp.heapCall, HeapCall.run] using hown⟩
  | popBack m => exact ⟨trivial, by simpa [call, ArrayOp.heapCall, HeapCall.run] using hown⟩
  | reset =>
    simp only [ArrayOp.heapCall, call, ptr_reset, Option.toList_none, List.nil_append]
    rcases hp : a.ptr with _ | p <;> rw [hp] at hown
    · exact ⟨trivial, hown⟩
    · exact ⟨hown.mem_iff.mpr (List.mem_cons_self _ _), by simpa using hown.erase p⟩

/-- Runs of array calls within the caller contract from a value-initialised array, with the
    live heap, in which every block the allocator grants is one not live. -/
inductive HeapRun (s : Nat) (base : List Nat) : ArrayGt α → List Nat → Prop
  | init : HeapRun s base {} base
  | call {a : ArrayGt α} {h : List Nat} {op : ArrayOp α} :
      HeapRun s base a h → op.Allowed s a → (op.heapCall s a).Fresh h →
        HeapRun s base (a.call s op).2 ((op.heapCall s a).run h)

end ArrayGt

end Ucall
