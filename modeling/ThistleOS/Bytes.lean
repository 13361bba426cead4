import Mathlib.Data.List.OfFn
import Mathlib.Tactic.Common

/-!
# Arrays and slices of bytes

Arrays of a fixed length, slices that are written in place, and a stream cipher in counter mode over
any function that makes a block of keystream from a counter.
-/

namespace ThistleOS

/-- An array of `n` bytes. -/
abbrev Arr (n : Nat) := Fin n → UInt8

namespace Arr

variable {n : Nat}

def zero : Arr n := fun _ => 0

def bytes (a : Arr n) : List UInt8 := List.ofFn a

/-- The array at the start of a slice. -/
def ofSlice (slice : List UInt8) : Arr n := fun i => slice.getD i 0

@[simp] lemma length_bytes (a : Arr n) : a.bytes.length = n := List.length_ofFn

lemma ofSlice_append (a : Arr n) (rest : List UInt8) : ofSlice (a.bytes ++ rest) = a := by
  funext i
  have hi : i.val < (List.ofFn a).length := by simp
  rw [ofSlice, bytes, List.getD_eq_getElem?_getD, List.getElem?_append_left hi]
  simp

lemma bytes_ofSlice {l : List UInt8} (h : l.length = n) : (ofSlice l : Arr n).bytes = l := by
  subst h
  rw [bytes]
  conv_rhs => rw [← @List.ofFn_getElem _ l]
  congr 1
  funext i
  rw [ofSlice, List.getD_eq_getElem?_getD, List.getElem?_eq_getElem i.isLt, Option.getD_some]

lemma ofSlice_bytes (a : Arr n) : ofSlice a.bytes = a := by
  have h := ofSlice_append a []
  rwa [List.append_nil] at h

end Arr

/-! ### Writing into a slice -/

/-- The slice with `src` written over it from `offset` on. -/
def copyInto (offset : Nat) (src slice : List UInt8) : List UInt8 :=
  slice.take offset ++ src ++ slice.drop (offset + src.length)

lemma copyInto_zero (src slice : List UInt8) : copyInto 0 src slice = src ++ slice.drop src.length := by
  simp [copyInto]

/-- What is written behind what has been written before. -/
lemma copyInto_append (pre src slice : List UInt8) :
    copyInto pre.length src (pre ++ slice.drop pre.length) =
      (pre ++ src) ++ slice.drop (pre ++ src).length := by
  simp [copyInto, List.drop_append]

/-! ### Counter mode -/

section CounterMode

variable {κ : Type} {size : Nat}

/-- The input xored with the keystream: a block of keystream for each of `blocks` blocks of input, the
last of which may be short. -/
def counterMode (block : κ → Arr size) (next : κ → κ) : Nat → κ → List UInt8 → List UInt8
  | 0, _, _ => []
  | blocks + 1, counter, input =>
    List.zipWith (· ^^^ ·) (input.take size) (block counter).bytes ++
      counterMode block next blocks (next counter) (input.drop size)

/-- The blocks of keystream of the counters from `counter` on. -/
def keystream (block : κ → Arr size) (next : κ → κ) : Nat → κ → List UInt8
  | 0, _ => []
  | blocks + 1, counter => (block counter).bytes ++ keystream block next blocks (next counter)

variable {block : κ → Arr size} {next : κ → κ}

lemma length_keystream (blocks : Nat) (counter : κ) :
    (keystream block next blocks counter).length = blocks * size := by
  induction blocks generalizing counter with
  | zero => simp [keystream]
  | succ blocks ih => rw [keystream, List.length_append, ih, Arr.length_bytes, Nat.succ_mul, Nat.add_comm]

lemma zipWith_take_drop (f : UInt8 → UInt8 → UInt8) (input first rest : List UInt8) :
    List.zipWith f (input.take first.length) first ++ List.zipWith f (input.drop first.length) rest =
      List.zipWith f input (first ++ rest) := by
  induction first generalizing input with
  | nil => simp
  | cons k first ih =>
    cases input with
    | nil => simp
    | cons b input => simp [ih]

/-- Counter mode xors the input with the keystream as a whole. -/
lemma counterMode_eq (blocks : Nat) (counter : κ) (input : List UInt8) :
    counterMode block next blocks counter input =
      List.zipWith (· ^^^ ·) input (keystream block next blocks counter) := by
  induction blocks generalizing counter input with
  | zero => simp [counterMode, keystream]
  | succ blocks ih =>
    have h := zipWith_take_drop (· ^^^ ·) input (block counter).bytes
      (keystream block next blocks (next counter))
    rw [Arr.length_bytes] at h
    rw [counterMode, ih, keystream, h]

lemma length_counterMode {blocks : Nat} {input : List UInt8} (h : input.length ≤ blocks * size)
    (counter : κ) : (counterMode block next blocks counter input).length = input.length := by
  rw [counterMode_eq, List.length_zipWith, length_keystream, Nat.min_eq_left h]

lemma zipWith_xor_cancel (input stream : List UInt8) (h : input.length ≤ stream.length) :
    List.zipWith (· ^^^ ·) (List.zipWith (· ^^^ ·) input stream) stream = input := by
  induction input generalizing stream with
  | nil => rfl
  | cons b input ih =>
    cases stream with
    | nil => cases h
    | cons k stream =>
      have hbyte : b ^^^ k ^^^ k = b := by rw [UInt8.xor_assoc, UInt8.xor_self, UInt8.xor_zero]
      simp only [List.zipWith_cons_cons, hbyte, ih stream (Nat.le_of_succ_le_succ h)]

/-- Counter mode undoes itself on an input that has no more than the given blocks. -/
theorem counterMode_counterMode {blocks : Nat} {input : List UInt8} (h : input.length ≤ blocks * size)
    (counter : κ) :
    counterMode block next blocks counter (counterMode block next blocks counter input) = input := by
  rw [counterMode_eq, counterMode_eq]
  exact zipWith_xor_cancel _ _ (by rwa [length_keystream])

end CounterMode

/-! ### Comparison in constant time -/

/-- A fold that collects differences finds none exactly if there is none. -/
lemma foldl_or_eq_zero {α β : Type} {zero : α} {or : α → α → α}
    (hor : ∀ a b, or a b = zero ↔ a = zero ∧ b = zero) (f : β → α) (l : List β) (a : α) :
    l.foldl (fun a b => or a (f b)) a = zero ↔ a = zero ∧ ∀ b ∈ l, f b = zero := by
  induction l generalizing a with
  | nil => simp
  | cons b l ih => rw [List.foldl_cons, ih, hor, List.forall_mem_cons, and_assoc]

/-- The bits in which two slices differ as far as both go. -/
def differingBits (a b : List UInt8) : UInt8 :=
  (a.zip b).foldl (fun diff p => diff ||| (p.1 ^^^ p.2)) 0

lemma differingBits_eq_zero {a b : List UInt8} (h : a.length = b.length) :
    differingBits a b = 0 ↔ a = b := by
  rw [differingBits, foldl_or_eq_zero fun _ _ => UInt8.or_eq_zero_iff]
  induction a generalizing b with
  | nil => simp [List.eq_nil_of_length_eq_zero h.symm]
  | cons x a ih =>
    cases b with
    | nil => cases h
    | cons y b => simpa using fun _ => ih (Nat.succ.inj h)

end ThistleOS
