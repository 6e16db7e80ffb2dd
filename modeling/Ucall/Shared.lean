import Mathlib.Logic.Function.Basic
import Mathlib.Algebra.Group.Nat.Basic
/-
  Shared definitions of the ucall core (`shared.hpp`, `datastructures.hpp`), with the two
  free functions of `shared.hpp`: the cycle counter `cpu_cycle` and `string_length`.

  Two things every container and the connection ring lean on:

  * the connection handle `descriptor_t` (an `int` enum) and its sentinel `bad_descriptor_k = -1`,
    which `drop_tail` writes into a slot it evicts;
  * `std::size_t` arithmetic.  Indices and counts are `Nat` here, and a computation that can leave
    `[0, 2^64)` is written with its wrap made explicit: `sizeMul` for the byte count an allocation
    asks for, `sizeAdd` for `size() + n` in `append_n`, `sizeSub` for `idx_newest_ - 1` in `head`.

  The C allocator is never a global of the model.  Every call that allocates takes the answer of
  `std::malloc`/`std::realloc` as an argument `malloc : Nat → Option β`: asked for a byte count,
  it returns a null pointer (`none`) or a block, and `β` is what the caller reads of that block.
  A run may pass a different `malloc` at every call, so each allocation succeeds or fails on its
  own.  The element contents of a block are modelled at the level of elements: the block is
  taken to hold the elements the container indexes, and whether the byte count asked for covers
  them is a question about `sizeMul` alone.
-/

namespace Ucall

/-- `SIZE_MAX + 1`: `std::size_t` arithmetic is modulo this. -/
def sizeModulus : Nat := 2 ^ 64

/-- `a * b` computed in `std::size_t`, as in `sizeof(element_at) * n`. -/
def sizeMul (a b : Nat) : Nat := a * b % sizeModulus

/-- `a + b` computed in `std::size_t`, as in `size() + n`. -/
def sizeAdd (a b : Nat) : Nat := (a + b) % sizeModulus

/-- `a - b` computed in `std::size_t` (for `a, b < 2^64`): it wraps below zero. -/
def sizeSub (a b : Nat) : Nat := (a + sizeModulus - b) % sizeModulus

/-- The wrapped product is the product exactly when that is below `2^64`. -/
theorem sizeMul_eq_iff {a b : Nat} : sizeMul a b = a * b ↔ a * b < sizeModulus := by
  have hpos : 0 < sizeModulus := by decide
  exact ⟨fun h => h ▸ Nat.mod_lt (a * b) hpos, Nat.mod_eq_of_lt⟩

/-- Below `2^64` the wrapped sum is the sum. -/
theorem sizeAdd_of_lt {a b : Nat} (h : a + b < sizeModulus) : sizeAdd a b = a + b :=
  Nat.mod_eq_of_lt h

/-- `x - 1` in `std::size_t` is `x - 1` above zero, and `SIZE_MAX` at zero. -/
theorem sizeSub_one {x : Nat} (hx : x < sizeModulus) :
    sizeSub x 1 = if x = 0 then sizeModulus - 1 else x - 1 := by
  unfold sizeSub sizeModulus at *
  split <;> omega

/-- `bad_descriptor_k`: the sentinel `descriptor_t{-1}`, "no connection". -/
def badDescriptorK : Int := -1

/-- `std::strlen`: the number of bytes before the first NUL, of the bytes from the pointer on. -/
def strlen (bytes : List Char) : Nat := (bytes.takeWhile (· ≠ '\x00')).length

/-- `string_length(c_str, optional_length)`: `std::strlen(c_str)` when `c_str` is not null and
    `optional_length` is zero, otherwise `optional_length`.  A null `c_str` is `none`. -/
def stringLength (cStr : Option (List Char)) (optionalLength : Nat) : Nat :=
  match cStr, optionalLength with
  | some bytes, 0 => strlen bytes
  | _, _ => optionalLength

/-! ## The cycle counter

  `cpu_cycle()` on x86-64 executes `rdtsc`, which leaves the low 32 bits of the 64-bit
  time-stamp counter in `eax` and the high 32 bits in `edx`, read as two `unsigned int`s.  The
  source widens `high` to `timestamp_t` BEFORE shifting it, so the two halves land on disjoint
  bits and none is lost: the result is the counter itself (`cpuCycle_eq_iff_halves`).  The
  aarch64 branch reads `cntvct_el0` into the result directly and is not modelled. -/

/-- `cpu_cycle()` after `rdtsc`: `((timestamp_t)high << 32) | low`, where `low` is widened to
    `timestamp_t` by the usual arithmetic conversions. -/
def cpuCycle (low high : BitVec 32) : BitVec 64 :=
  (high.zeroExtend 64 <<< 32) ||| low.zeroExtend 64

/-- Bit `i` of the result is bit `i` of `low` below 32, and bit `i - 32` of `high` above. -/
@[simp] theorem getLsbD_cpuCycle (low high : BitVec 32) {i : Nat} (hi : i < 64) :
    (cpuCycle low high).getLsbD i = if i < 32 then low.getLsbD i else high.getLsbD (i - 32) := by
  rcases Nat.lt_or_ge i 32 with h | h
  · simp [cpuCycle, BitVec.getLsbD_or, BitVec.getLsbD_shiftLeft, h, hi]
  · simp [cpuCycle, BitVec.getLsbD_or, BitVec.getLsbD_shiftLeft, Nat.not_lt.mpr h, h, hi,
      show i - 32 < 64 by omega]

/-- The two halves of the result are `low` and `high`. -/
theorem extractLsb_cpuCycle (low high : BitVec 32) :
    (cpuCycle low high).extractLsb' 0 32 = low ∧ (cpuCycle low high).extractLsb' 32 32 = high := by
  constructor <;> apply BitVec.eq_of_getLsbD_eq <;> intro ⟨i, hi⟩
  · simp [hi, show i < 64 by omega]
  · simp [hi, show 32 + i < 64 by omega, Nat.not_lt.mpr (Nat.le_add_right 32 i),
      Nat.add_sub_cancel_left]

/-- Every counter value is rebuilt from its two halves. -/
theorem cpuCycle_extractLsb (t : BitVec 64) :
    cpuCycle (t.extractLsb' 0 32) (t.extractLsb' 32 32) = t := by
  apply BitVec.eq_of_getLsbD_eq
  intro ⟨i, hi⟩
  by_cases h : i < 32
  · simp [h, hi]
  · simp [h, hi, show i - 32 < 32 by omega, Nat.add_sub_of_le (Nat.not_lt.mp h)]

/-- **`cpu_cycle` returns the whole counter.**  The result is the 64-bit counter `t` exactly when
    `rdtsc` reported `t`'s low half in `eax` and its high half in `edx`, and its value is
    `high * 2^32 + low`: no bit of either half is lost or overlaps the other. -/
theorem cpuCycle_eq_iff_halves (low high : BitVec 32) (t : BitVec 64) :
    (cpuCycle low high = t ↔ low = t.extractLsb' 0 32 ∧ high = t.extractLsb' 32 32) ∧
      (cpuCycle low high).toNat = high.toNat * 2 ^ 32 + low.toNat := by
  obtain ⟨hl, hh⟩ := extractLsb_cpuCycle low high
  refine ⟨⟨fun ht => ht ▸ ⟨hl.symm, hh.symm⟩,
    fun ⟨hlow, hhigh⟩ => hlow ▸ hhigh ▸ cpuCycle_extractLsb t⟩, ?_⟩
  have hlt := (cpuCycle low high).isLt
  rw [← congrArg BitVec.toNat hl, ← congrArg BitVec.toNat hh]
  simp only [BitVec.extractLsb'_toNat, Nat.shiftRight_eq_div_pow, Nat.pow_zero, Nat.div_one]
  omega

end Ucall
