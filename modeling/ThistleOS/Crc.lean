import Mathlib.Tactic.Common

/-!
# Cyclic redundancy checks

The remainder of a message by a polynomial, most significant bits first. The remainder is linear in the
message, and a polynomial with a constant term divides no burst that is not longer than its degree.
-/

namespace Crc

variable {w : Nat} (poly : BitVec w)

/-- The remainder moves up by one place. -/
def shift (v : BitVec w) : BitVec w := if v.msb then (v <<< 1) ^^^ poly else v <<< 1

def shifts : Nat → BitVec w → BitVec w
  | 0, v => v
  | n + 1, v => shifts n (shift poly v)

/-- A bit in the highest place. -/
def high (b : Bool) : BitVec w := if b then .twoPow w (w - 1) else 0

/-- The remainder after some bits of a message. -/
def remainder (v : BitVec w) (bits : List Bool) : BitVec w :=
  bits.foldl (fun v b => shift poly (v ^^^ high b)) v

/-- Some bits in the highest places. -/
def top : List Bool → BitVec w
  | [] => 0
  | b :: bits => high b ^^^ (top bits >>> 1)

variable {poly} {u v : BitVec w} {bits : List Bool}

/-! ### Linearity -/

lemma xor_swap (a b c d : BitVec w) : (a ^^^ b) ^^^ (c ^^^ d) = (a ^^^ c) ^^^ (b ^^^ d) := by
  ac_rfl

lemma shift_xor (u v : BitVec w) : shift poly (u ^^^ v) = shift poly u ^^^ shift poly v := by
  rw [shift, shift, shift, BitVec.msb_xor, BitVec.shiftLeft_xor_distrib]
  cases u.msb <;> cases v.msb
  · rfl
  · exact BitVec.xor_assoc _ _ _
  · change u <<< 1 ^^^ v <<< 1 ^^^ poly = (u <<< 1 ^^^ poly) ^^^ v <<< 1
    ac_rfl
  · change u <<< 1 ^^^ v <<< 1 = (u <<< 1 ^^^ poly) ^^^ (v <<< 1 ^^^ poly)
    rw [xor_swap, BitVec.xor_self, BitVec.xor_zero]

@[simp] lemma shift_zero : shift poly 0 = 0 := by
  have hmsb : (0 : BitVec w).msb = false := BitVec.msb_zero
  rw [shift, hmsb]
  exact BitVec.zero_shiftLeft 1

lemma shifts_zero (n : Nat) : shifts poly n 0 = 0 := by
  induction n with
  | zero => rfl
  | succ n ih => rw [shifts, shift_zero, ih]

lemma high_xor (a b : Bool) : (high (a ^^ b) : BitVec w) = high a ^^^ high b := by
  cases a <;> cases b
  · exact BitVec.xor_zero.symm
  · exact BitVec.zero_xor.symm
  · exact BitVec.xor_zero.symm
  · exact BitVec.xor_self.symm

@[simp] lemma remainder_nil : remainder poly v [] = v := rfl

lemma remainder_cons (b : Bool) : remainder poly v (b :: bits) = remainder poly (shift poly (v ^^^ high b)) bits :=
  rfl

lemma remainder_append (bits' : List Bool) :
    remainder poly v (bits ++ bits') = remainder poly (remainder poly v bits) bits' := List.foldl_append

/-- The remainders of two messages differ by the remainder of their difference. -/
theorem remainder_zipWith_xor (u v : BitVec w) {bits bits' : List Bool} (h : bits.length = bits'.length) :
    remainder poly (u ^^^ v) (List.zipWith xor bits bits') = remainder poly u bits ^^^ remainder poly v bits' := by
  induction bits generalizing bits' u v with
  | nil =>
    cases bits' with
    | nil => rfl
    | cons => cases h
  | cons b bits ih =>
    cases bits' with
    | nil => cases h
    | cons b' bits' =>
      rw [List.zipWith_cons_cons, remainder_cons, remainder_cons, remainder_cons, ← ih _ _ (Nat.succ.inj h),
        ← shift_xor, high_xor, xor_swap]

/-! ### No more bits than places -/

lemma getLsbD_top (bits : List Bool) (i : Nat) (h : i + bits.length < w) : (top bits : BitVec w).getLsbD i = false := by
  induction bits generalizing i with
  | nil => exact BitVec.getLsbD_zero
  | cons b bits ih =>
    rw [List.length_cons] at h
    rw [top, BitVec.getLsbD_xor, BitVec.getLsbD_ushiftRight, Nat.add_comm 1 i, ih (i + 1) (by omega), Bool.xor_false]
    cases b
    · exact BitVec.getLsbD_zero
    · rw [high, if_pos rfl, BitVec.getLsbD_twoPow]
      simp
      omega

/-- Bits that are moved down and up again. -/
lemma shift_ushiftRight (h : v.getLsbD 0 = false) : shift poly (v >>> 1) = v := by
  have hmsb : (v >>> 1).msb = false := by
    rw [BitVec.msb_eq_getLsbD_last, BitVec.getLsbD_ushiftRight]
    exact BitVec.getLsbD_of_ge _ _ (by omega)
  rw [shift, hmsb, if_neg Bool.false_ne_true]
  refine BitVec.eq_of_getLsbD_eq fun i hi => ?_
  rw [BitVec.getLsbD_shiftLeft, BitVec.getLsbD_ushiftRight]
  cases i with
  | zero => simp [h]
  | succ i => simp [hi, Nat.add_comm 1]

/-- Bits that the remainder has places for can be added at once. -/
theorem remainder_eq_shifts (h : bits.length ≤ w) : remainder poly v bits = shifts poly bits.length (v ^^^ top bits) := by
  induction bits generalizing v with
  | nil =>
    rw [top, remainder_nil, List.length_nil, shifts]
    exact BitVec.xor_zero.symm
  | cons b bits ih =>
    rw [List.length_cons] at h
    have hlow := getLsbD_top (w := w) bits 0 (by omega)
    rw [remainder_cons, ih (by omega), List.length_cons, shifts, top, ← BitVec.xor_assoc, shift_xor _ (top bits >>> 1),
      shift_ushiftRight hlow]

lemma top_append (bits bits' : List Bool) : (top (bits ++ bits') : BitVec w) = top bits ^^^ top bits' >>> bits.length := by
  induction bits with
  | nil =>
    rw [List.nil_append, top, List.length_nil, BitVec.ushiftRight_zero]
    exact BitVec.zero_xor.symm
  | cons b bits ih =>
    rw [List.cons_append, top, top, ih, BitVec.ushiftRight_xor_distrib, BitVec.xor_assoc, List.length_cons,
      ← BitVec.shiftRight_add]

/-! ### Bursts -/

/-- A polynomial with a constant term divides no power of the indeterminate. -/
lemma shift_eq_zero (hpoly : poly.getLsbD 0 = true) (h : shift poly v = 0) : v = 0 := by
  rw [shift] at h
  have hw : 0 < w := BitVec.lt_of_getLsbD hpoly
  split_ifs at h with hmsb
  · have hlow := congrArg (fun x => BitVec.getLsbD x 0) h
    simp [BitVec.getLsbD_xor, BitVec.getLsbD_shiftLeft, hpoly] at hlow
  · refine BitVec.eq_of_getLsbD_eq fun i hi => ?_
    rw [Bool.not_eq_true] at hmsb
    by_cases hlast : i = w - 1
    · rw [hlast, ← BitVec.msb_eq_getLsbD_last, hmsb]
      exact BitVec.getLsbD_zero.symm
    · have hbit := congrArg (fun x => BitVec.getLsbD x (i + 1)) h
      rw [BitVec.getLsbD_shiftLeft] at hbit
      simpa [show i + 1 < w by omega] using hbit

lemma shifts_eq_zero (hpoly : poly.getLsbD 0 = true) (n : Nat) (h : shifts poly n v = 0) : v = 0 := by
  induction n generalizing v with
  | zero => exact h
  | succ n ih => exact shift_eq_zero hpoly (ih h)

lemma remainder_replicate_false (n : Nat) : remainder poly v (List.replicate n false) = shifts poly n v := by
  induction n generalizing v with
  | zero => rfl
  | succ n ih =>
    rw [List.replicate_succ, remainder_cons, ih, shifts]
    congr 2
    exact BitVec.xor_zero

lemma top_ne_zero (hw : 0 < w) (bits : List Bool) : (top (true :: bits) : BitVec w) ≠ 0 := by
  intro h
  have hlast := congrArg (fun x => BitVec.getLsbD x (w - 1)) h
  have htail : (top bits >>> 1 : BitVec w).getLsbD (w - 1) = false := by
    rw [BitVec.getLsbD_ushiftRight]
    exact BitVec.getLsbD_of_ge _ _ (by omega)
  have hself : (BitVec.twoPow w (w - 1)).getLsbD (w - 1) = true := by
    rw [BitVec.getLsbD_twoPow, decide_eq_true (Nat.sub_lt hw Nat.one_pos), decide_eq_true rfl, Bool.and_self]
  rw [top, BitVec.getLsbD_xor, htail, Bool.xor_false, high, if_pos rfl, hself] at hlast
  exact Bool.noConfusion (hlast.trans BitVec.getLsbD_zero)

/-- A message whose first and last bits of value one are at most `w` places apart has a remainder. -/
theorem remainder_burst (hpoly : poly.getLsbD 0 = true) (pre post : Nat) (h : bits.length < w) :
    remainder poly 0 (List.replicate pre false ++ true :: bits ++ List.replicate post false) ≠ 0 := by
  have hw : 0 < w := Nat.zero_lt_of_lt h
  intro hzero
  rw [remainder_append, remainder_append, remainder_replicate_false, remainder_replicate_false, shifts_zero,
    remainder_eq_shifts (by rw [List.length_cons]; exact h)] at hzero
  have htop := shifts_eq_zero hpoly _ (shifts_eq_zero hpoly _ hzero)
  exact top_ne_zero hw bits (BitVec.zero_xor.symm.trans htop)

lemma eq_replicate_false {l : List Bool} (h : true ∉ l) : l = List.replicate l.length false := by
  refine List.eq_replicate_iff.mpr ⟨rfl, fun b hb => ?_⟩
  rw [← Bool.not_eq_true]
  rintro rfl
  exact h hb

/-- Bits of value one that lie in a window. -/
lemma exists_burst {i n : Nat} (hone : true ∈ bits) (hwindow : ∀ k, bits[k]? = some true → i ≤ k ∧ k < i + (n + 1)) :
    ∃ pre burst post, burst.length ≤ n ∧
      bits = List.replicate pre false ++ true :: burst ++ List.replicate post false := by
  obtain ⟨pre, rest, rfl, hpre⟩ := List.eq_append_cons_of_mem hone
  have hfirst := (hwindow pre.length (by simp)).1
  have hpost : true ∉ rest.drop n := by
    intro hmem
    obtain ⟨k, hk⟩ := List.mem_iff_getElem?.mp hmem
    have hlast := (hwindow (pre.length + (n + k + 1)) ?_).2
    · omega
    · rw [List.getElem?_drop] at hk
      rw [List.getElem?_append_right (by omega), Nat.add_sub_cancel_left, List.getElem?_cons_succ, hk]
  refine ⟨pre.length, rest.take n, (rest.drop n).length, List.length_take_le _ _, ?_⟩
  rw [← eq_replicate_false hpre, ← eq_replicate_false hpost, List.append_assoc, List.cons_append,
    List.take_append_drop]

/-- Two messages with the same remainder are equal, or differ by more than a burst. -/
theorem eq_of_remainder_eq (hpoly : poly.getLsbD 0 = true) {bits' : List Bool} (hlen : bits.length = bits'.length)
    (h : remainder poly v bits = remainder poly v bits') {i : Nat}
    (hwindow : ∀ k, bits[k]? ≠ bits'[k]? → i ≤ k ∧ k < i + w) : bits = bits' := by
  have hw : 0 < w := BitVec.lt_of_getLsbD hpoly
  have hzero : remainder poly (v ^^^ v) (List.zipWith xor bits bits') =
      remainder poly v bits ^^^ remainder poly v bits' := remainder_zipWith_xor v v hlen
  rw [h, BitVec.xor_self, BitVec.xor_self] at hzero
  by_cases hone : true ∈ List.zipWith xor bits bits'
  · obtain ⟨pre, burst, post, hburst, hsplit⟩ := exists_burst (i := i) (n := w - 1) hone fun k hk => by
      rw [Nat.sub_add_cancel hw]
      refine hwindow k fun heq => ?_
      rw [List.getElem?_zipWith, heq] at hk
      cases hb : bits'[k]? with
      | none => simp [hb] at hk
      | some b => simp [hb] at hk
    rw [hsplit] at hzero
    exact absurd hzero (remainder_burst hpoly pre post (by omega))
  · refine List.ext_getElem? fun k => ?_
    by_cases hk : k < bits.length
    · have hk' : k < bits'.length := hlen ▸ hk
      rw [List.getElem?_eq_getElem hk, List.getElem?_eq_getElem hk']
      congr 1
      by_contra hne
      refine hone (List.mem_iff_getElem?.mpr ⟨k, ?_⟩)
      rw [List.getElem?_zipWith, List.getElem?_eq_getElem hk, List.getElem?_eq_getElem hk']
      simpa using hne
    · rw [List.getElem?_eq_none (by omega), List.getElem?_eq_none (by omega)]

end Crc
