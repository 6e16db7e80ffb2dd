import Ucall.Shared
import Mathlib.Tactic.Simps.Basic
/-
  `round_robin_gt` (`shared.hpp`, duplicated in `datastructures.hpp`): the connection ring.

  The ring is a block `circle_` of `capacity_` connection records with three cursors:
  `idx_oldest_` (the tail, evicted next), `idx_newest_` (where the next connection goes) and
  `idx_to_poll_` (the next connection to service), plus the live count `count_`.  The reactor
  drives it with three calls, each under a caller contract the ring itself never checks:

  * `push_ahead(d)`  — only when `size() < capacity()`;
  * `drop_tail()`    — only when `size() > 0`;
  * `poll()`         — only when `size() > 0` (it divides by `count_`).

  `call` is one call made under that contract (`none` when the contract forbids it) and `exec`
  a whole sequence of them, returning what each call handed back.  A ring is REACHABLE when it
  comes out of `exec` started on a fresh ring that `alloc(cap)`, `cap > 0`, succeeded on.

  The first invariant, `Inv`, is the shape of the cursors: every index below the capacity and
  `idx_newest = (idx_oldest + count) mod capacity`.  It holds of every reachable ring
  (`reachable_inv`, from `Inv.alloc` and the run lemma `Inv.exec`), `poll` included.  What the poll cursor does inside the live window is the
  subject of `Ucall.Datastructures.RoundRobinPoll`; what the live window holds, of
  `Ucall.Datastructures.RoundRobinQueue`.

  Returned references (`element_at&` of `poll`, `tail`, `head`) are the slot indices they
  designate.  `drop_tail` on an empty ring and `%` by a zero capacity or count are outside the
  contract; `count_--` is written `count - 1` because the contract keeps it above zero.
-/

namespace Ucall

/-- The `response` record a slot embeds: how much of a partial reply was flushed. -/
structure Response where
  copiesCount : Nat
  iovecsCount : Nat
  deriving DecidableEq, Repr

/-- The fields of a ring slot (`element_at`, the connection state) that the ring writes. -/
structure Connection where
  descriptor : Int
  skippedCycles : Nat
  response : Response
  deriving DecidableEq, Repr

/-- `round_robin_gt`.  The defaults are those of a value-initialised ring (`circle_` is null
    then; its placeholder contents are never read before `alloc` replaces them). -/
structure RoundRobinGt where
  circle : Nat → Connection := fun _ => ⟨0, 0, ⟨0, 0⟩⟩
  count : Nat := 0
  capacity : Nat := 0
  idxNewest : Nat := 0
  idxOldest : Nat := 0
  idxToPoll : Nat := 0

namespace RoundRobinGt

/-! ## The program -/

/-- `alloc(n)`: `malloc` a block of `n` slots of `s = sizeof(element_at)` bytes; on success it
    becomes `circle_` (holding whatever `malloc` left there) and `n` the capacity.  The cursors
    and the count are not touched. -/
def alloc (s : Nat) (malloc : Nat → Option (Nat → Connection)) (n : Nat) (r : RoundRobinGt) :
    Bool × RoundRobinGt :=
  match malloc (sizeMul s n) with
  | none => (false, r)
  | some cons => (true, { r with circle := cons, capacity := n })

/-- `drop_tail()`: swap `bad_descriptor_k` into the oldest slot, step the poll cursor past that
    slot if it rests there, advance `idx_oldest_`, and return the evicted descriptor. -/
@[simps]
def dropTail (r : RoundRobinGt) : Int × RoundRobinGt :=
  ((r.circle r.idxOldest).descriptor,
    { r with
      circle := Function.update r.circle r.idxOldest
        { r.circle r.idxOldest with descriptor := badDescriptorK }
      idxToPoll := if r.idxToPoll = r.idxOldest then (r.idxToPoll + 1) % r.capacity
        else r.idxToPoll
      idxOldest := (r.idxOldest + 1) % r.capacity
      count := r.count - 1 })

/-- `push_ahead(d)`: reset the record at `idx_newest_` for the new connection `d` and advance
    `idx_newest_`. -/
@[simps]
def pushAhead (d : Int) (r : RoundRobinGt) : RoundRobinGt :=
  { r with
    circle := Function.update r.circle r.idxNewest
      { r.circle r.idxNewest with
        descriptor := d
        skippedCycles := 0
        response := { (r.circle r.idxNewest).response with copiesCount := 0, iovecsCount := 0 } }
    idxNewest := (r.idxNewest + 1) % r.capacity
    count := r.count + 1 }

/-- `poll()`: the cursor moves to `(idx_to_poll_ + 1) % count_`, or back to `idx_oldest_` when
    that lands on `idx_newest_`, and the slot it then rests on is returned (`connection_ptr`,
    the slot it left, is computed and unused). -/
@[simps]
def poll (r : RoundRobinGt) : Nat × RoundRobinGt :=
  let following := (r.idxToPoll + 1) % r.count
  let idx := if following = r.idxNewest then r.idxOldest else following
  (idx, { r with idxToPoll := idx })

/-- `tail()`: the slot at `idx_oldest_`. -/
def tail (r : RoundRobinGt) : Nat := r.idxOldest

/-- `head()`: the slot at `idx_newest_ - 1`, a `std::size_t` subtraction. -/
def head (r : RoundRobinGt) : Nat := sizeSub r.idxNewest 1

/-- `size()`. -/
def size (r : RoundRobinGt) : Nat := r.count

/-! ## Calls under the caller contract, and runs -/

/-- The calls the reactor makes. -/
inductive Op
  | pushAhead (d : Int)
  | dropTail
  | poll
  deriving DecidableEq, Repr

/-- What a call hands back: nothing (`push_ahead`), a descriptor, or a slot. -/
inductive Ret
  | done
  | descriptor (d : Int)
  | slot (i : Nat)
  deriving DecidableEq, Repr

/-- One call, made only when the contract allows it (`none` otherwise). -/
def call (r : RoundRobinGt) : Op → Option (Ret × RoundRobinGt)
  | .pushAhead d => if r.count < r.capacity then some (.done, r.pushAhead d) else none
  | .dropTail => if 0 < r.count then some (.descriptor r.dropTail.1, r.dropTail.2) else none
  | .poll => if 0 < r.count then some (.slot r.poll.1, r.poll.2) else none

/-- A sequence of calls: the values returned and the ring left, or `none` if some call broke
    the contract. -/
def exec : List Op → RoundRobinGt → Option (List Ret × RoundRobinGt)
  | [], r => some ([], r)
  | op :: ops, r =>
    (r.call op).bind fun (o, r₁) => (exec ops r₁).map fun (os, r₂) => (o :: os, r₂)

/-- What one allowed call did: which operation ran, under which guard, and what it returned. -/
theorem call_cases {r r' : RoundRobinGt} {op : Op} {o : Ret} (hc : r.call op = some (o, r')) :
    (∃ d, op = .pushAhead d ∧ r.count < r.capacity ∧ o = .done ∧ r' = r.pushAhead d) ∨
    (op = .dropTail ∧ 0 < r.count ∧ o = .descriptor r.dropTail.1 ∧ r' = r.dropTail.2) ∨
    (op = .poll ∧ 0 < r.count ∧ o = .slot r.poll.1 ∧ r' = r.poll.2) := by
  cases op <;> simp only [call] at hc <;> split at hc <;>
    simp only [Option.some.injEq, Prod.mk.injEq, reduceCtorEq] at hc <;> obtain ⟨rfl, rfl⟩ := hc
  · exact .inl ⟨_, rfl, ‹_›, rfl, rfl⟩
  · exact .inr (.inl ⟨rfl, ‹_›, rfl, rfl⟩)
  · exact .inr (.inr ⟨rfl, ‹_›, rfl, rfl⟩)

theorem exec_cons_eq_some {op : Op} {ops : List Op} {r r' : RoundRobinGt} {rets : List Ret} :
    exec (op :: ops) r = some (rets, r') ↔
      ∃ o r₁ os, r.call op = some (o, r₁) ∧ exec ops r₁ = some (os, r') ∧ rets = o :: os := by
  simp only [exec, Option.bind_eq_some, Option.map_eq_some', Prod.exists, Prod.mk.injEq]
  constructor
  · rintro ⟨o, r₁, h₁, os, r₂, h₂, rfl, rfl⟩
    exact ⟨o, r₁, os, h₁, h₂, rfl⟩
  · rintro ⟨o, r₁, os, h₁, h₂, rfl⟩
    exact ⟨o, r₁, h₁, os, r', h₂, rfl, rfl⟩

/-- Running a sequence one call at a time: what holds initially and survives every allowed
    call holds after the whole sequence.  Every run-level fact below is an instance. -/
theorem exec_induction (P : RoundRobinGt → Prop)
    (hstep : ∀ r op o r', P r → r.call op = some (o, r') → P r') :
    ∀ {ops r rets r'}, P r → exec ops r = some (rets, r') → P r'
  | [], r, rets, r', hr, h => by
    simp only [exec, Option.some.injEq, Prod.mk.injEq] at h
    exact h.2 ▸ hr
  | op :: ops, r, rets, r', hr, h => by
    obtain ⟨o, r₁, os, h₁, h₂, -⟩ := exec_cons_eq_some.mp h
    exact exec_induction P hstep (hstep r op o r₁ hr h₁) h₂

/-- `alloc(n)` succeeds exactly when `malloc` grants its byte count `sizeof(element_at) * n`,
    computed in `std::size_t`, and then records `n`. -/
theorem alloc_spec (s : Nat) (malloc : Nat → Option (Nat → Connection)) (n : Nat)
    (r : RoundRobinGt) :
    (r.alloc s malloc n).1 = (malloc (sizeMul s n)).isSome ∧
      ((r.alloc s malloc n).1 = true → (r.alloc s malloc n).2.capacity = n) := by
  unfold alloc
  cases malloc (sizeMul s n) <;> simp

/-- A ring that `alloc(cap)` on a fresh object produced: the block `malloc` returned, the
    capacity `cap`, every cursor and the count at zero. -/
theorem alloc_fresh {s cap : Nat} {malloc : Nat → Option (Nat → Connection)} {r : RoundRobinGt}
    (h : alloc s malloc cap {} = (true, r)) :
    r.count = 0 ∧ r.capacity = cap ∧ r.idxNewest = 0 ∧ r.idxOldest = 0 ∧ r.idxToPoll = 0 := by
  unfold alloc at h
  split at h
  · simp at h
  · simp only [Prod.mk.injEq, true_and] at h
    subst h
    exact ⟨rfl, rfl, rfl, rfl, rfl⟩

/-! ## The cursor-shape invariant -/

/-- The shape of the cursors: all of them index slots, and the newest follows the oldest by
    `count` places round the ring. -/
structure Inv (r : RoundRobinGt) : Prop where
  capacity_pos : 0 < r.capacity
  count_le : r.count ≤ r.capacity
  oldest_lt : r.idxOldest < r.capacity
  newest_lt : r.idxNewest < r.capacity
  newest_eq : r.idxNewest = (r.idxOldest + r.count) % r.capacity
  toPoll_lt : r.idxToPoll < r.capacity

instance (r : RoundRobinGt) : Decidable r.Inv :=
  decidable_of_iff (0 < r.capacity ∧ r.count ≤ r.capacity ∧ r.idxOldest < r.capacity ∧
      r.idxNewest < r.capacity ∧ r.idxNewest = (r.idxOldest + r.count) % r.capacity ∧
      r.idxToPoll < r.capacity)
    ⟨fun ⟨a, b, c, d, e, f⟩ => ⟨a, b, c, d, e, f⟩, fun ⟨a, b, c, d, e, f⟩ => ⟨a, b, c, d, e, f⟩⟩

theorem Inv.alloc {s cap : Nat} {malloc : Nat → Option (Nat → Connection)} {r : RoundRobinGt}
    (hcap : 0 < cap) (h : RoundRobinGt.alloc s malloc cap {} = (true, r)) : r.Inv := by
  obtain ⟨h₁, h₂, h₃, h₄, h₅⟩ := alloc_fresh h
  exact ⟨by omega, by omega, by omega, by omega, by simp [h₁, h₃, h₄], by omega⟩

section Step

variable {r : RoundRobinGt}

theorem Inv.pushAhead (h : r.Inv) (hc : r.count < r.capacity) (d : Int) :
    (r.pushAhead d).Inv := by
  refine ⟨h.capacity_pos, ?_, h.oldest_lt, Nat.mod_lt _ h.capacity_pos, ?_, h.toPoll_lt⟩
  · simp only [pushAhead_count, pushAhead_capacity]; omega
  · simp only [pushAhead_idxNewest, pushAhead_capacity, pushAhead_idxOldest, pushAhead_count,
      h.newest_eq, Nat.mod_add_mod, Nat.add_assoc]

theorem Inv.dropTail (h : r.Inv) (hc : 0 < r.count) : r.dropTail.2.Inv := by
  have hpos := h.capacity_pos
  refine ⟨hpos, ?_, Nat.mod_lt _ hpos, h.newest_lt, ?_, ?_⟩
  · simp only [dropTail_snd_count, dropTail_snd_capacity]; have := h.count_le; omega
  · simp only [dropTail_snd_idxNewest, dropTail_snd_idxOldest, dropTail_snd_capacity,
      dropTail_snd_count, h.newest_eq, Nat.mod_add_mod]
    congr 1; omega
  · simp only [dropTail_snd_idxToPoll, dropTail_snd_capacity]
    split
    · exact Nat.mod_lt _ hpos
    · exact h.toPoll_lt

theorem Inv.poll (h : r.Inv) (hc : 0 < r.count) : r.poll.2.Inv := by
  refine ⟨h.capacity_pos, h.count_le, h.oldest_lt, h.newest_lt, h.newest_eq, ?_⟩
  simp only [poll_snd_idxToPoll]
  split
  · exact h.oldest_lt
  · exact Nat.lt_of_lt_of_le (Nat.mod_lt _ hc) h.count_le

theorem Inv.call (h : r.Inv) {op : Op} {o : Ret} {r' : RoundRobinGt}
    (hc : r.call op = some (o, r')) : r'.Inv := by
  obtain ⟨d, -, hg, -, rfl⟩ | ⟨-, hg, -, rfl⟩ | ⟨-, hg, -, rfl⟩ := call_cases hc
  · exact h.pushAhead hg d
  · exact h.dropTail hg
  · exact h.poll hg

end Step

/-- **The cursor shape holds of every reachable ring.** -/
theorem Inv.exec {ops : List Op} {r r' : RoundRobinGt} {rets : List Ret} (h : r.Inv)
    (hrun : RoundRobinGt.exec ops r = some (rets, r')) : r'.Inv :=
  exec_induction Inv (fun _ _ _ _ hr hc => hr.call hc) h hrun

/-- **Every reachable ring has the cursor shape.**  After any run of calls within the contract,
    started on the ring a successful `alloc(cap)`, `cap > 0`, returned. -/
theorem reachable_inv {s cap : Nat} {malloc : Nat → Option (Nat → Connection)}
    {r₀ r : RoundRobinGt} {ops : List Op} {rets : List Ret} (hcap : 0 < cap)
    (halloc : alloc s malloc cap {} = (true, r₀)) (hrun : exec ops r₀ = some (rets, r)) :
    r.Inv :=
  (Inv.alloc hcap halloc).exec hrun

/-- `alloc(2)`, push `7`, poll, drop `7`. -/
theorem reachable_inv_push_poll_drop :
    let r₀ : RoundRobinGt := { circle := fun _ => ⟨0, 0, ⟨0, 0⟩⟩, capacity := 2 }
    let r := ((r₀.pushAhead 7).poll.2).dropTail.2
    0 < 2 ∧ alloc 1 (fun _ => some r₀.circle) 2 {} = (true, r₀) ∧
      exec [.pushAhead 7, .poll, .dropTail] r₀ = some ([.done, .slot 0, .descriptor 7], r) ∧
      r.Inv :=
  ⟨by decide, rfl, rfl, @reachable_inv 1 2 (fun _ => some fun _ => ⟨0, 0, ⟨0, 0⟩⟩) _ _
    [.pushAhead 7, .poll, .dropTail] _ (by decide) rfl rfl⟩

end RoundRobinGt

end Ucall
