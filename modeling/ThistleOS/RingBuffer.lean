import Mathlib.Data.List.DropRight
import Mathlib.Data.Nat.ModEq

/-!
# Ring buffers

A buffer of `n` cells in which the elements from `head` on are in use and wrap around at its end. A full buffer
forgets its oldest element when another one is pushed, so it holds the last `n` elements of what has been pushed.
-/

variable {α : Type} {n : ℕ}

/-! ### The last elements of a list -/

lemma List.rtake_of_length_le {l : List α} (h : l.length ≤ n) : l.rtake n = l := by
  rw [List.rtake_eq_reverse_take_reverse, List.take_of_length_le (by rwa [List.length_reverse]), List.reverse_reverse]

/-- What has been forgotten is not missed. -/
lemma List.rtake_rtake_append (l r : List α) : (l.rtake n ++ r).rtake n = (l ++ r).rtake n := by
  simp only [List.rtake_eq_reverse_take_reverse, List.reverse_append, List.reverse_reverse, List.take_append]
  rw [List.take_take, min_eq_left (Nat.sub_le _ _)]

/-! ### Buffers -/

structure RingBuffer (α : Type) (n : ℕ) where
  cells : Fin n → α
  head : ℕ
  count : ℕ
  head_lt : head < n
  count_le : count ≤ n

namespace RingBuffer

lemma pos (b : RingBuffer α n) : 0 < n := Nat.zero_lt_of_lt b.head_lt

/-- The cell that is `i` cells behind the head. -/
def cell (b : RingBuffer α n) (i : ℕ) : Fin n := ⟨(b.head + i) % n, Nat.mod_lt _ b.pos⟩

def get? (b : RingBuffer α n) (i : ℕ) : Option α := if i < b.count then some (b.cells (b.cell i)) else none

def toList (b : RingBuffer α n) : List α := (List.range b.count).map fun i => b.cells (b.cell i)

def push (b : RingBuffer α n) (x : α) : RingBuffer α n where
  cells := Function.update b.cells (b.cell b.count) x
  head := if b.count < n then b.head else (b.head + 1) % n
  count := if b.count < n then b.count + 1 else b.count
  head_lt := by
    split_ifs
    · exact b.head_lt
    · exact Nat.mod_lt _ b.pos
  count_le := by
    split_ifs with h
    · exact h
    · exact b.count_le

@[simp] lemma cells_push (b : RingBuffer α n) (x : α) :
    (b.push x).cells = Function.update b.cells (b.cell b.count) x := rfl

def clear (b : RingBuffer α n) : RingBuffer α n := ⟨b.cells, 0, 0, b.pos, Nat.zero_le n⟩

@[simp] lemma length_toList (b : RingBuffer α n) : b.toList.length = b.count := by
  simp [toList]

lemma getElem?_toList (b : RingBuffer α n) (i : ℕ) : b.toList[i]? = b.get? i := by
  rw [toList, List.getElem?_map, get?]
  split_ifs with h
  · rw [List.getElem?_range h, Option.map_some]
  · rw [List.getElem?_eq_none (by rw [List.length_range]; exact Nat.le_of_not_lt h), Option.map_none]

@[simp] lemma toList_clear (b : RingBuffer α n) : b.clear.toList = [] := rfl

/-- Two places of the buffer are the same cell only if they are the same place. -/
lemma cell_inj (b : RingBuffer α n) {i j : ℕ} (hi : i < n) (hj : j < n) : b.cell i = b.cell j ↔ i = j := by
  refine ⟨fun h => ?_, fun h => by rw [h]⟩
  have hmod : b.head + i ≡ b.head + j [MOD n] := congrArg Fin.val h
  exact (Nat.ModEq.add_left_cancel' b.head hmod).eq_of_lt_of_lt hi hj

/-- The cell behind the last one of a full buffer is its head. -/
lemma cell_wrap (b : RingBuffer α n) : b.cell n = b.cell 0 := by
  rw [cell, cell, Fin.mk.injEq, Nat.add_mod_right, Nat.add_zero]

/-- A push to a buffer with room adds the element. -/
lemma toList_push_room (b : RingBuffer α n) (x : α) (h : b.count < n) : (b.push x).toList = b.toList ++ [x] := by
  have hcell (i : ℕ) : (b.push x).cell i = b.cell i := by
    simp only [cell, push, if_pos h]
  have hcount : (b.push x).count = b.count + 1 := if_pos h
  rw [toList, hcount, List.range_succ, List.map_append, List.map_singleton, hcell, toList]
  congr 1
  · refine List.map_congr_left fun i hi => ?_
    have hi := List.mem_range.mp hi
    have hne : b.cell i ≠ b.cell b.count := fun heq =>
      hi.ne ((b.cell_inj (hi.trans h) h).mp heq)
    rw [hcell, cells_push, Function.update_of_ne hne]
  · rw [cells_push, Function.update_self]

/-- A push to a full buffer forgets the first element. -/
lemma toList_push_full (b : RingBuffer α n) (x : α) (h : b.count = n) :
    (b.push x).toList = b.toList.tail ++ [x] := by
  have hfull : ¬ b.count < n := h.not_lt
  have hcell (i : ℕ) : (b.push x).cell i = b.cell (i + 1) := by
    simp only [cell, push, if_neg hfull, Fin.mk.injEq, Nat.mod_add_mod]
    rw [Nat.add_assoc, Nat.add_comm 1 i]
  obtain ⟨m, rfl⟩ := Nat.exists_eq_add_one.mpr b.pos
  have hcount : (b.push x).count = m + 1 := (if_neg hfull).trans h
  have htail : b.toList.tail = (List.range m).map fun i => b.cells (b.cell (i + 1)) := by
    rw [toList, h, List.range_succ_eq_map, List.map_cons, List.tail_cons, List.map_map]
    rfl
  rw [toList, hcount, List.range_succ, List.map_append, List.map_singleton, hcell, htail]
  congr 1
  · refine List.map_congr_left fun i hi => ?_
    have hi := List.mem_range.mp hi
    have hne : b.cell (i + 1) ≠ b.cell b.count := by
      rw [h, cell_wrap]
      exact fun heq => absurd ((b.cell_inj (Nat.succ_lt_succ hi) b.pos).mp heq) (Nat.succ_ne_zero i)
    rw [hcell, cells_push, Function.update_of_ne hne]
  · rw [cells_push, h, Function.update_self]

/-- A push leaves the last `n` elements. -/
theorem toList_push (b : RingBuffer α n) (x : α) : (b.push x).toList = (b.toList ++ [x]).rtake n := by
  rcases Nat.lt_or_eq_of_le b.count_le with h | h
  · rw [b.toList_push_room x h, List.rtake_of_length_le]
    rw [List.length_append, length_toList]
    exact h
  · have hdrop : (b.toList ++ [x]).rtake n = (b.toList ++ [x]).drop 1 := by
      rw [List.rtake, List.length_append, length_toList, h, Nat.add_sub_cancel_left, List.length_singleton]
    have hpos : 1 ≤ b.toList.length := by
      rw [length_toList, h]
      exact b.pos
    rw [b.toList_push_full x h, hdrop, List.drop_append_of_le_length hpos, List.drop_one]

end RingBuffer
