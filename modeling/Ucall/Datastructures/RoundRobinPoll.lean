import Ucall.Datastructures.RoundRobinQueue
/-
  The poll cursor of `round_robin_gt`.

  The cursor discipline the ring is meant to keep (`PollInv`): on top of the cursor shape
  `Inv`, an empty ring parks `idx_to_poll` on `idx_oldest`, and a non-empty ring keeps it in the
  live window, `(idx_to_poll - idx_oldest) mod capacity < count`.  Under `Inv` the window test
  is membership in `liveSlots` (`toPoll_window_iff`), which is how every proof below reads it.

  `push_ahead` and `drop_tail` KEEP the discipline (`pushAhead_dropTail_keep_pollInv`): a push
  only widens the window at its far end, and a drop whose victim is under the cursor moves the
  cursor to the new oldest slot, so the cursor never rests on the slot just evicted.

  `poll` does NOT.  It steps the cursor modulo the live count `count_`, where `push_ahead` and
  `drop_tail` step modulo `capacity_`; the two agree only while the window starts at slot `0`.
  Once a `drop_tail` has moved the window off slot `0`, a `poll` can step the cursor onto a
  dead slot and return it (`poll_returns_evicted_slot`), leaving a reachable ring outside the
  discipline (`poll_breaks_pollInv`).  While the window does start at slot `0`, `poll` is the
  round robin it is meant to be (`poll_round_robin_from_slot_zero`): `count` polls hand out
  every live slot once and bring the cursor back.
-/

namespace Ucall

namespace RoundRobinGt

variable {r : RoundRobinGt}

/-! ## The cursor discipline -/

/-- The cursor shape, and the poll cursor on the oldest slot of an empty ring and inside the
    live window of a non-empty one. -/
structure PollInv (r : RoundRobinGt) extends r.Inv : Prop where
  toPoll_oldest : r.count = 0 → r.idxToPoll = r.idxOldest
  toPoll_window : 0 < r.count →
    (r.idxToPoll + r.capacity - r.idxOldest) % r.capacity < r.count

instance (r : RoundRobinGt) : Decidable r.PollInv :=
  decidable_of_iff (r.Inv ∧ (r.count = 0 → r.idxToPoll = r.idxOldest) ∧
      (0 < r.count → (r.idxToPoll + r.capacity - r.idxOldest) % r.capacity < r.count))
    ⟨fun ⟨a, b, c⟩ => ⟨a, b, c⟩, fun ⟨a, b, c⟩ => ⟨a, b, c⟩⟩

/-- Two slots of the ring are `(t - o) mod c` apart. -/
theorem sub_mod_of_lt {t o c : Nat} (ht : t < c) (ho : o < c) :
    (t + c - o) % c = if o ≤ t then t - o else t + c - o := by
  split
  · rw [show t + c - o = t - o + c by omega, Nat.add_mod_right, Nat.mod_eq_of_lt (by omega)]
  · exact Nat.mod_eq_of_lt (by omega)

/-- Offsets `t - o` below `k` are those that `o` reaches in fewer than `k` steps. -/
theorem window_iff {t o c k : Nat} (ht : t < c) (ho : o < c) (hk : k ≤ c) :
    (t + c - o) % c < k ↔ ∃ i < k, (o + i) % c = t := by
  rw [sub_mod_of_lt ht ho]
  constructor
  · intro hlt
    split at hlt
    · exact ⟨t - o, hlt, by rw [Nat.add_sub_cancel' ‹_›, Nat.mod_eq_of_lt ht]⟩
    · exact ⟨t + c - o, hlt, by
        rw [Nat.add_sub_cancel' (by omega), Nat.add_mod_right, Nat.mod_eq_of_lt ht]⟩
  · rintro ⟨i, hi, he⟩
    rw [add_mod_of_lt ho (by omega)] at he
    split at he
    · rw [if_pos (by omega)]; omega
    · rw [if_neg (by omega)]; omega

/-- Under the cursor shape, "inside the window" is membership in the live slots. -/
theorem toPoll_window_iff (h : r.Inv) :
    (r.idxToPoll + r.capacity - r.idxOldest) % r.capacity < r.count ↔
      r.idxToPoll ∈ r.liveSlots := by
  rw [mem_liveSlots]
  exact window_iff h.toPoll_lt h.oldest_lt h.count_le

/-! ## `push_ahead` and `drop_tail` keep the discipline -/

theorem PollInv.pushAhead (h : r.PollInv) (hc : r.count < r.capacity) (d : Int) :
    (r.pushAhead d).PollInv := by
  have h' := h.toInv.pushAhead hc d
  refine ⟨h', fun h0 => by simp at h0, fun _ => (toPoll_window_iff h').mpr ?_⟩
  rw [liveSlots_pushAhead h.toInv, pushAhead_idxToPoll, List.mem_append]
  rcases Nat.eq_zero_or_pos r.count with h0 | hpos
  · right
    rw [List.mem_singleton, h.toPoll_oldest h0, h.newest_eq, h0, Nat.add_zero,
      Nat.mod_eq_of_lt h.oldest_lt]
  · exact .inl ((toPoll_window_iff h.toInv).mp (h.toPoll_window hpos))

/-- A drop that evicts the slot under the cursor moves the cursor to the new oldest slot. -/
theorem dropTail_toPoll_of_eq (heq : r.idxToPoll = r.idxOldest) :
    r.dropTail.2.idxToPoll = r.dropTail.2.idxOldest := by
  simp [heq]

theorem PollInv.dropTail (h : r.PollInv) (hc : 0 < r.count) : r.dropTail.2.PollInv := by
  have h' := h.toInv.dropTail hc
  have hwin := (toPoll_window_iff h.toInv).mp (h.toPoll_window hc)
  rw [liveSlots_dropTail h.toInv hc, List.mem_cons] at hwin
  refine ⟨h', fun h0 => ?_, fun hpos => (toPoll_window_iff h').mpr ?_⟩
  · rcases hwin with heq | hmem
    · exact dropTail_toPoll_of_eq heq
    · rw [mem_liveSlots, h0] at hmem
      omega
  · rcases hwin with heq | hmem
    · rw [dropTail_toPoll_of_eq heq, mem_liveSlots]
      exact ⟨0, hpos, by simp [Nat.mod_eq_of_lt h'.oldest_lt]⟩
    · have hne : r.idxToPoll ≠ r.idxOldest := fun e =>
        (List.nodup_cons.mp (liveSlots_dropTail h.toInv hc ▸ liveSlots_nodup h.toInv)).1
          (e ▸ hmem)
      simpa [hne] using hmem

/-- **`push_ahead` and `drop_tail` keep the cursor discipline.**  From every ring with
    `cap > 0` satisfying `PollInv`, `push_ahead(d)` on a non-full ring and `drop_tail()` on a
    non-empty one give rings satisfying it again; a drop that evicts the slot under the cursor
    moves it to the new oldest slot (which is `idx_oldest` when the ring empties), and a drop
    never leaves the cursor of a non-empty ring on the evicted slot. -/
theorem pushAhead_dropTail_keep_pollInv (h : r.PollInv) :
    (∀ d, r.count < r.capacity → (r.pushAhead d).PollInv) ∧
      (0 < r.count → r.dropTail.2.PollInv ∧
        (r.idxToPoll = r.idxOldest → r.dropTail.2.idxToPoll = r.dropTail.2.idxOldest) ∧
        (0 < r.dropTail.2.count → r.dropTail.2.idxToPoll ≠ r.idxOldest)) := by
  refine ⟨fun d hc => h.pushAhead hc d, fun hc => ⟨h.dropTail hc,
    dropTail_toPoll_of_eq, fun hpos hon => ?_⟩⟩
  have hwin := (toPoll_window_iff (h.dropTail hc).toInv).mp ((h.dropTail hc).toPoll_window hpos)
  rw [hon] at hwin
  exact (List.nodup_cons.mp (liveSlots_dropTail h.toInv hc ▸ liveSlots_nodup h.toInv)).1 hwin

/-- A one-connection ring of capacity two, cursor on its only live slot. -/
theorem pushAhead_dropTail_keep_pollInv_one_live :
    let r : RoundRobinGt := { capacity := 2, count := 1, idxNewest := 1 }
    r.PollInv ∧
      (∀ d, r.count < r.capacity → (r.pushAhead d).PollInv) ∧
      (0 < r.count → r.dropTail.2.PollInv ∧
        (r.idxToPoll = r.idxOldest → r.dropTail.2.idxToPoll = r.dropTail.2.idxOldest) ∧
        (0 < r.dropTail.2.count → r.dropTail.2.idxToPoll ≠ r.idxOldest)) := by
  intro r
  have h : r.PollInv := by decide
  exact ⟨h, pushAhead_dropTail_keep_pollInv h⟩

/-! ## From slot `0`, `poll` is round robin

  While the live window starts at slot `0` the live slots are `0, …, count - 1`, so stepping
  modulo `count_` is stepping round the window, and `idx_newest_` is either `count` (never
  stepped onto) or, on a full ring, `0` (where the step lands anyway).  There `poll` keeps the
  discipline, and `count` polls hand out every live slot once and bring the cursor back. -/

/-- Stepping `c` times round `c` slots from any start visits each slot once. -/
theorem rotation_perm_range {c : Nat} (hc : 0 < c) (t : Nat) :
    ((List.range c).map fun i => (t + i) % c).Perm (List.range c) := by
  have hnd : ((List.range c).map fun i => (t + i) % c).Nodup := by
    simpa only [Nat.mod_add_mod] using nodup_slots (Nat.mod_lt t hc) (Nat.le_refl c)
  refine (List.subperm_of_subset hnd fun j hj => ?_).perm_of_length_le (by simp)
  obtain ⟨i, -, rfl⟩ := List.mem_map.mp hj
  exact List.mem_range.mpr (Nat.mod_lt _ hc)

theorem liveSlots_of_oldest_zero (h : r.Inv) (ho : r.idxOldest = 0) :
    r.liveSlots = List.range r.count := by
  rw [liveSlots, ho]
  refine (List.map_congr_left fun i hi => ?_).trans (List.map_id' _)
  rw [Nat.zero_add, Nat.mod_eq_of_lt (Nat.lt_of_lt_of_le (List.mem_range.mp hi) h.count_le)]

/-- With the window at slot `0`, the cursor is below the live count. -/
theorem toPoll_lt_count (h : r.PollInv) (ho : r.idxOldest = 0) (hc : 0 < r.count) :
    r.idxToPoll < r.count := by
  have hw := h.toPoll_window hc
  rwa [ho, Nat.sub_zero, Nat.add_mod_right, Nat.mod_eq_of_lt h.toPoll_lt] at hw

/-- With the window at slot `0`, `poll` steps the cursor modulo `count_` and returns the slot it
    lands on. -/
theorem poll_of_oldest_zero (h : r.PollInv) (ho : r.idxOldest = 0) (hc : 0 < r.count) :
    r.poll = ((r.idxToPoll + 1) % r.count, { r with idxToPoll := (r.idxToPoll + 1) % r.count }) := by
  suffices hidx : r.poll.1 = (r.idxToPoll + 1) % r.count by
    rw [← hidx]; rfl
  rw [poll_fst]
  split_ifs with heq
  · -- the step lands on `idx_newest_ = count mod capacity`: the ring is full, and that is slot 0
    rw [h.newest_eq, ho, Nat.zero_add] at heq
    rw [ho, heq]
    rcases Nat.lt_or_eq_of_le h.count_le with hlt | hfull
    · rw [Nat.mod_eq_of_lt hlt] at heq
      exact absurd heq (Nat.mod_lt _ hc).ne
    · rw [hfull, Nat.mod_self]
  · rfl

theorem PollInv.poll_of_oldest_zero (h : r.PollInv) (ho : r.idxOldest = 0) (hc : 0 < r.count) :
    r.poll.2.PollInv := by
  have hinv := h.toInv.poll hc
  rw [RoundRobinGt.poll_of_oldest_zero h ho hc] at hinv ⊢
  refine ⟨hinv, fun h0 => absurd h0 hc.ne', fun _ => ?_⟩
  dsimp only
  rw [ho, Nat.sub_zero, Nat.add_mod_right, Nat.mod_eq_of_lt hinv.toPoll_lt]
  exact Nat.mod_lt _ hc

/-- `k` polls from a window at slot `0` return the `k` slots after the cursor, in order round the
    window, and leave the cursor `k` steps on. -/
theorem exec_replicate_poll (h : r.PollInv) (ho : r.idxOldest = 0) (hc : 0 < r.count) (k : Nat) :
    exec (List.replicate k .poll) r =
      some ((List.range k).map fun i => .slot ((r.idxToPoll + 1 + i) % r.count),
        { r with idxToPoll := (r.idxToPoll + k) % r.count }) := by
  induction k generalizing r with
  | zero =>
    simp only [Nat.add_zero, Nat.mod_eq_of_lt (toPoll_lt_count h ho hc)]
    rfl
  | succ k ih =>
    have h₁ := h.poll_of_oldest_zero ho hc
    rw [poll_of_oldest_zero h ho hc] at h₁
    simp only [List.replicate_succ, exec, call, if_pos hc, poll_of_oldest_zero h ho hc,
      Option.some_bind, ih h₁ ho hc, Option.map_some', List.range_succ_eq_map, List.map_cons,
      List.map_map, Nat.mod_add_mod, Nat.add_zero]
    congr 3
    · refine congrArg (List.map · _) (funext fun i => ?_)
      simp only [Function.comp, Nat.succ_eq_add_one]
      rw [Nat.add_assoc ((r.idxToPoll + 1) % r.count), Nat.mod_add_mod]
      congr 2
      omega
    · congr 1
      omega

/-- **From slot `0`, `poll` is round robin.**  On every ring satisfying `PollInv` whose live
    window starts at slot `0` and is not empty, `poll()` returns the slot after the cursor
    round the window and keeps the discipline, and `count` successive `poll()`s hand out every
    live slot exactly once and leave the ring as it was. -/
theorem poll_round_robin_from_slot_zero (h : r.PollInv) (ho : r.idxOldest = 0)
    (hc : 0 < r.count) :
    r.poll.1 = (r.idxToPoll + 1) % r.count ∧ r.poll.2.PollInv ∧
      ∃ rets, exec (List.replicate r.count .poll) r = some (rets, r) ∧
        rets.Perm (r.liveSlots.map .slot) := by
  have hrun := exec_replicate_poll h ho hc r.count
  rw [Nat.add_mod_right, Nat.mod_eq_of_lt (toPoll_lt_count h ho hc)] at hrun
  refine ⟨by rw [poll_of_oldest_zero h ho hc], h.poll_of_oldest_zero ho hc, _, hrun, ?_⟩
  have hperm := (rotation_perm_range hc (r.idxToPoll + 1)).map Ret.slot
  rw [List.map_map] at hperm
  rw [liveSlots_of_oldest_zero h.toInv ho]
  exact hperm

/-- Two live connections in a ring of three slots, cursor on slot `0`. -/
theorem poll_round_robin_from_slot_zero_two_live :
    let r : RoundRobinGt := { capacity := 3, count := 2, idxNewest := 2 }
    r.PollInv ∧ r.idxOldest = 0 ∧ 0 < r.count ∧
      r.poll.1 = (r.idxToPoll + 1) % r.count ∧ r.poll.2.PollInv ∧
      ∃ rets, exec (List.replicate r.count .poll) r = some (rets, r) ∧
        rets.Perm (r.liveSlots.map .slot) := by
  intro r
  have h : r.PollInv := by decide
  exact ⟨h, rfl, by decide, poll_round_robin_from_slot_zero h rfl (by decide)⟩

/-! ## `poll` leaves the window -/

/-- `alloc(3)`, push `5`, push `6`, drop `5`: one connection is live, in slot `1`, and the
    cursor rests on it.  The next `poll()` steps to `(1 + 1) % count_ = 0`, which is not
    `idx_newest_ = 2`, so it moves the cursor to slot `0` and returns that slot: the one
    `drop_tail` emptied, holding `bad_descriptor_k`. -/
theorem poll_returns_evicted_slot :
    let r₀ : RoundRobinGt := { circle := fun _ => ⟨0, 0, ⟨0, 0⟩⟩, capacity := 3 }
    let r := ((r₀.pushAhead 5).pushAhead 6).dropTail.2
    alloc 8 (fun _ => some r₀.circle) 3 {} = (true, r₀) ∧
      exec [.pushAhead 5, .pushAhead 6, .dropTail] r₀ = some ([.done, .done, .descriptor 5], r) ∧
      r.size = 1 ∧ r.liveSlots = [1] ∧ r.idxToPoll = 1 ∧
      exec [.poll] r = some ([.slot 0], r.poll.2) ∧ 0 ∉ r.liveSlots ∧
      (r.circle 0).descriptor = badDescriptorK :=
  ⟨rfl, rfl, rfl, rfl, rfl, rfl, by decide, rfl⟩

/-- The same run with its `poll`: the ring reached keeps the cursor shape, but its cursor, on
    slot `0`, is outside the live window `[1]`; one more `drop_tail` empties the ring with the
    cursor still on slot `0` while `idx_oldest` is `2`. -/
theorem poll_breaks_pollInv :
    let r₀ : RoundRobinGt := { circle := fun _ => ⟨0, 0, ⟨0, 0⟩⟩, capacity := 3 }
    let r := ((((r₀.pushAhead 5).pushAhead 6).dropTail.2).poll.2)
    alloc 8 (fun _ => some r₀.circle) 3 {} = (true, r₀) ∧
      exec [.pushAhead 5, .pushAhead 6, .dropTail, .poll] r₀ =
        some ([.done, .done, .descriptor 5, .slot 0], r) ∧
      r.Inv ∧ ¬ r.PollInv ∧ r.idxToPoll = 0 ∧ r.liveSlots = [1] ∧
      r.dropTail.2.count = 0 ∧ r.dropTail.2.idxToPoll = 0 ∧ r.dropTail.2.idxOldest = 2 :=
  ⟨rfl, rfl, by decide, by decide, rfl, rfl, rfl, rfl, rfl⟩

end RoundRobinGt

end Ucall
