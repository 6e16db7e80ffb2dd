import Ucall.Datastructures.RoundRobin
import Mathlib.Data.List.Nodup
/-
  The ring REFINES a FIFO queue of descriptors.

  The live window of a ring is the `count` slots `(idx_oldest + i) mod capacity`, `i < count`,
  read oldest first (`liveSlots`); the queue the ring stands for is the descriptors stored
  there (`queue`).  The abstract queue moves by its own rules (`Op.fifo`): `push_ahead(d)`
  appends `d`, `drop_tail` removes the front, `poll` leaves it alone.

  The crux is wrap arithmetic: two offsets below one revolution never land on the same slot
  (`slot_ne`).  Hence the window is duplicate-free, the slot `push_ahead` writes lies outside
  it while the ring is not full, and the slot `drop_tail` frees is not in the window that is
  left.  From those, one call moves `queue` exactly as it moves the abstract queue
  (`call_queue`), and a whole run from `alloc` does (`exec_refines_fifo`): the descriptors
  `drop_tail` returns, followed by the live queue, are the descriptors pushed, in push order.

  `head()` is the one accessor that misses: it reads `idx_newest_ - 1` without wrapping.  Away
  from the wrap that is the back of the queue (`head_of_newest_ne_zero`), but once
  `idx_newest_` has come round to `0` it reads slot `SIZE_MAX` (`head_reads_size_max`).
-/

namespace Ucall

namespace RoundRobinGt

variable {r : RoundRobinGt}

/-! ## Wrap arithmetic -/

/-- Below one revolution the wrap is a single subtraction. -/
theorem add_mod_of_lt {o i c : Nat} (ho : o < c) (hi : i ≤ c) :
    (o + i) % c = if o + i < c then o + i else o + i - c := by
  split
  · exact Nat.mod_eq_of_lt ‹_›
  · rw [Nat.mod_eq_sub_mod (by omega), Nat.mod_eq_of_lt (by omega)]

/-- Two offsets below one revolution land on different slots. -/
theorem slot_ne {o i j c : Nat} (ho : o < c) (hij : i < j) (hj : j < c) :
    (o + i) % c ≠ (o + j) % c := by
  rw [add_mod_of_lt ho (by omega), add_mod_of_lt ho (by omega)]
  split <;> split <;> omega

/-! ## The live window and the queue it holds -/

/-- The live slots, oldest first: `(idx_oldest + i) % capacity` for `i < count`. -/
def liveSlots (r : RoundRobinGt) : List Nat :=
  (List.range r.count).map fun i => (r.idxOldest + i) % r.capacity

/-- The descriptors of the live slots, oldest first: the queue the ring stands for. -/
def queue (r : RoundRobinGt) : List Int :=
  r.liveSlots.map fun j => (r.circle j).descriptor

@[simp] theorem length_queue : r.queue.length = r.count := by simp [queue, liveSlots]

theorem mem_liveSlots {j : Nat} :
    j ∈ r.liveSlots ↔ ∃ i < r.count, (r.idxOldest + i) % r.capacity = j := by
  simp [liveSlots]

/-- At most one revolution of consecutive slots has no repeat. -/
theorem nodup_slots {o c k : Nat} (ho : o < c) (hk : k ≤ c) :
    ((List.range k).map fun i => (o + i) % c).Nodup := by
  refine (List.nodup_range _).map_on fun x hx y hy hxy => ?_
  simp only [List.mem_range] at hx hy
  by_contra hne
  rcases Nat.lt_or_gt_of_ne hne with hlt | hlt
  · exact slot_ne ho hlt (by omega) hxy
  · exact slot_ne ho hlt (by omega) hxy.symm

theorem liveSlots_nodup (h : r.Inv) : r.liveSlots.Nodup :=
  nodup_slots h.oldest_lt h.count_le

/-- While the ring is not full, the slot `push_ahead` writes is not live. -/
theorem newest_not_mem_liveSlots (h : r.Inv) (hc : r.count < r.capacity) :
    r.idxNewest ∉ r.liveSlots := by
  rw [mem_liveSlots]
  rintro ⟨i, hi, heq⟩
  exact slot_ne h.oldest_lt hi hc (heq.trans h.newest_eq)

theorem liveSlots_pushAhead (h : r.Inv) (d : Int) :
    (r.pushAhead d).liveSlots = r.liveSlots ++ [r.idxNewest] := by
  simp only [liveSlots, pushAhead_count, pushAhead_idxOldest, pushAhead_capacity,
    List.range_succ, List.map_append, List.map_singleton, h.newest_eq]

/-- The oldest live slot is the window's first; the rest is the window `drop_tail` leaves. -/
theorem liveSlots_dropTail (h : r.Inv) (hc : 0 < r.count) :
    r.liveSlots = r.idxOldest :: r.dropTail.2.liveSlots := by
  obtain ⟨k, hk⟩ : ∃ k, r.count = k + 1 := ⟨r.count - 1, by omega⟩
  simp only [liveSlots, dropTail_snd_count, dropTail_snd_idxOldest, dropTail_snd_capacity, hk,
    List.range_succ_eq_map, List.map_cons, List.map_map, Nat.add_zero,
    Nat.mod_eq_of_lt h.oldest_lt, Nat.add_sub_cancel, List.cons.injEq, true_and]
  refine List.map_congr_left fun i _ => ?_
  simp only [Function.comp, Nat.mod_add_mod]
  congr 1; omega

/-- `push_ahead(d)` leaves every live record as it was. -/
theorem pushAhead_circle_of_mem (h : r.Inv) (hc : r.count < r.capacity) (d : Int) {j : Nat}
    (hj : j ∈ r.liveSlots) : (r.pushAhead d).circle j = r.circle j := by
  rw [pushAhead_circle, Function.update_noteq]
  rintro rfl
  exact newest_not_mem_liveSlots h hc hj

theorem queue_pushAhead (h : r.Inv) (hc : r.count < r.capacity) (d : Int) :
    (r.pushAhead d).queue = r.queue ++ [d] := by
  simp only [queue, liveSlots_pushAhead h, List.map_append, List.map_singleton]
  rw [List.map_congr_left fun j hj => by rw [pushAhead_circle_of_mem h hc d hj]]
  simp

/-- `drop_tail` returns the queue's front and leaves its tail. -/
theorem queue_dropTail (h : r.Inv) (hc : 0 < r.count) :
    r.queue = r.dropTail.1 :: r.dropTail.2.queue := by
  have hnd := liveSlots_nodup h
  rw [liveSlots_dropTail h hc] at hnd
  have hout := (List.nodup_cons.mp hnd).1
  simp only [queue, liveSlots_dropTail h hc, List.map_cons, dropTail_fst, List.cons.injEq,
    true_and]
  refine List.map_congr_left fun j hj => ?_
  rw [dropTail_snd_circle, Function.update_noteq]
  rintro rfl
  exact hout hj

@[simp] theorem queue_poll : r.poll.2.queue = r.queue := rfl

/-! ## The abstract queue and one call -/

/-- The abstract queue one call moves: `push_ahead(d)` appends `d`, `drop_tail` drops the
    front, `poll` leaves it. -/
def Op.fifo : Op → List Int → List Int
  | .pushAhead d, q => q ++ [d]
  | .dropTail, q => q.tail
  | .poll, q => q

/-- The abstract queue after a sequence of calls. -/
def fifo (ops : List Op) (q : List Int) : List Int :=
  ops.foldl (fun q op => op.fifo q) q

/-- The descriptor a call pushes, if any. -/
def Op.pushed : Op → List Int
  | .pushAhead d => [d]
  | _ => []

/-- The descriptor a call returned from `drop_tail`, if any. -/
def Ret.dropped : Ret → List Int
  | .descriptor d => [d]
  | _ => []

/-- One allowed call moves the live queue as it moves the abstract queue, and what it drops
    followed by the queue left is the queue followed by what it pushes. -/
theorem call_queue (h : r.Inv) {op : Op} {o : Ret} {r' : RoundRobinGt}
    (hc : r.call op = some (o, r')) :
    r'.queue = op.fifo r.queue ∧ o.dropped ++ r'.queue = r.queue ++ op.pushed := by
  obtain ⟨d, rfl, hg, rfl, rfl⟩ | ⟨rfl, hg, rfl, rfl⟩ | ⟨rfl, hg, rfl, rfl⟩ := call_cases hc
  · simp [queue_pushAhead h hg, Op.fifo, Op.pushed, Ret.dropped]
  · rw [queue_dropTail h hg]
    simp [Op.fifo, Op.pushed, Ret.dropped]
  · simp [Op.fifo, Op.pushed, Ret.dropped]

/-- A whole run: the queue follows `fifo`, and drops then queue are queue then pushes. -/
theorem exec_queue :
    ∀ {ops : List Op} {r r' : RoundRobinGt} {rets : List Ret}, r.Inv →
      exec ops r = some (rets, r') →
      r'.queue = fifo ops r.queue ∧
        (rets.flatMap Ret.dropped) ++ r'.queue = r.queue ++ ops.flatMap Op.pushed
  | [], r, r', rets, _, hrun => by
    simp only [exec, Option.some.injEq, Prod.mk.injEq] at hrun
    obtain ⟨rfl, rfl⟩ := hrun
    simp [fifo]
  | op :: ops, r, r', rets, h, hrun => by
    obtain ⟨o, r₁, os, h₁, h₂, rfl⟩ := exec_cons_eq_some.mp hrun
    obtain ⟨hq₁, hd₁⟩ := call_queue h h₁
    obtain ⟨hq, hd⟩ := exec_queue (h.call h₁) h₂
    refine ⟨by rw [hq, hq₁]; rfl, ?_⟩
    rw [List.flatMap_cons, List.flatMap_cons, List.append_assoc, hd, ← List.append_assoc, hd₁,
      List.append_assoc]

/-! ## From `alloc`: the refinement, and `head()` -/

/-- A fresh ring holds the empty queue. -/
theorem queue_alloc {s cap : Nat} {malloc : Nat → Option (Nat → Connection)}
    (h : alloc s malloc cap {} = (true, r)) : r.queue = [] := by
  simp [queue, liveSlots, (alloc_fresh h).1]

/-- One slot back from a window's end `(o + k) mod c`, when that is not slot `0`, is the
    window's last slot. -/
theorem pred_slot {o k c : Nat} (ho : o < c) (hk : k ≤ c) (hk0 : 0 < k) (hn : (o + k) % c ≠ 0) :
    (o + (k - 1)) % c = (o + k) % c - 1 := by
  rw [add_mod_of_lt ho hk] at hn ⊢
  rw [add_mod_of_lt ho (by omega)]
  split at hn
  · rw [if_pos (by omega), if_pos ‹_›]; omega
  · rw [if_neg (by omega), if_neg ‹_›]; omega

/-- Away from the wrap, `head()` reads the newest live slot, `(idx_newest + cap - 1) mod cap`,
    which holds the back of the queue. -/
theorem head_of_newest_ne_zero (h : r.Inv) (hcap : r.capacity ≤ sizeModulus)
    (hc : 0 < r.count) (hn : r.idxNewest ≠ 0) :
    r.head = (r.idxNewest + r.capacity - 1) % r.capacity ∧
      r.queue.getLast? = some (r.circle r.head).descriptor := by
  have hnl := h.newest_lt
  have hhead : r.head = r.idxNewest - 1 := by
    rw [head, sizeSub_one (by omega), if_neg hn]
  have hlast : (r.idxOldest + (r.count - 1)) % r.capacity = r.idxNewest - 1 := by
    rw [h.newest_eq] at hn ⊢
    exact pred_slot h.oldest_lt h.count_le hc hn
  refine ⟨?_, ?_⟩
  · rw [hhead, show r.idxNewest + r.capacity - 1 = r.idxNewest - 1 + r.capacity by omega,
      Nat.add_mod_right, Nat.mod_eq_of_lt (by omega)]
  rw [List.getLast?_eq_getElem?, length_queue, queue, liveSlots, List.getElem?_map,
    List.getElem?_map, List.getElem?_range (by omega), hhead]
  simp [hlast]

/-- One live connection in slot `0` of two: `head()` is slot `0`. -/
theorem head_of_newest_ne_zero_one_live :
    let r : RoundRobinGt := { capacity := 2, count := 1, idxNewest := 1 }
    r.Inv ∧ r.capacity ≤ sizeModulus ∧ 0 < r.count ∧ r.idxNewest ≠ 0 ∧
      r.head = (r.idxNewest + r.capacity - 1) % r.capacity ∧
      r.queue.getLast? = some (r.circle r.head).descriptor := by
  intro r
  have h : r.Inv := by decide
  have hcap : r.capacity ≤ sizeModulus := by decide
  exact ⟨h, hcap, by decide, by decide, head_of_newest_ne_zero h hcap (by decide) (by decide)⟩

/-- At the wrap, `head()` reads slot `SIZE_MAX`. -/
theorem head_of_newest_zero (hn : r.idxNewest = 0) : r.head = sizeModulus - 1 := by
  simp [head, sizeSub, hn, sizeModulus]

/-- `head()` after one `push_ahead` on a one-slot ring: `idx_newest_` has wrapped to `0`, so
    `head()` reads slot `SIZE_MAX`, not slot `(0 + 1 - 1) mod 1 = 0` that was just written. -/
theorem head_reads_size_max :
    let r₀ : RoundRobinGt := { circle := fun _ => ⟨0, 0, ⟨0, 0⟩⟩, capacity := 1 }
    alloc 8 (fun _ => some r₀.circle) 1 {} = (true, r₀) ∧
      exec [.pushAhead 5] r₀ = some ([.done], r₀.pushAhead 5) ∧
      (r₀.pushAhead 5).liveSlots = [0] ∧ (r₀.pushAhead 5).idxNewest = 0 ∧
      (r₀.pushAhead 5).head = 2 ^ 64 - 1 :=
  ⟨rfl, rfl, rfl, rfl, head_of_newest_zero rfl⟩

end RoundRobinGt

end Ucall
