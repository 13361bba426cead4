import Mathlib.Algebra.GroupWithZero.Nat
import Mathlib.Tactic.Common

/-!
# Records of little-endian numbers

Numbers as bytes of which the least significant comes first, and records of such numbers, each of a
width of its own.
-/

namespace LittleEndian

/-- The first `n` digits of a number to the base 256. -/
def encode : Nat → Nat → List UInt8
  | 0, _ => []
  | n + 1, x => .ofNat x :: encode n (x / 256)

@[simp] lemma length_encode (n x : Nat) : (encode n x).length = n := by
  induction n generalizing x with
  | zero => rfl
  | succ n ih => rw [encode, List.length_cons, ih]

lemma encode_add (n m x : Nat) : encode (n + m) x = encode n x ++ encode m (x / 256 ^ n) := by
  induction n generalizing x with
  | zero => rw [Nat.zero_add, Nat.pow_zero, Nat.div_one, encode, List.nil_append]
  | succ n ih =>
    rw [Nat.succ_add, encode, encode, ih, Nat.div_div_eq_div_mul, Nat.pow_succ', List.cons_append]

/-- The number that bytes spell. -/
def decode : List UInt8 → Nat
  | [] => 0
  | b :: bs => b.toNat + 256 * decode bs

lemma decode_encode {n x : Nat} (h : x < 256 ^ n) : decode (encode n x) = x := by
  induction n generalizing x with
  | zero => rw [encode, decode, Nat.lt_one_iff.mp h]
  | succ n ih =>
    have hdiv : x / 256 < 256 ^ n := Nat.div_lt_of_lt_mul (by rwa [Nat.mul_comm, ← Nat.pow_succ])
    rw [encode, decode, ih hdiv, UInt8.toNat_ofNat']
    exact Nat.mod_add_div x 256

/-- The record of some fields, which are their widths with their numbers. -/
def pack (fields : List (Nat × Nat)) : List UInt8 := fields.flatMap fun f => encode f.1 f.2

/-- The length of the record of some fields. -/
def width (fields : List (Nat × Nat)) : Nat := (fields.map Prod.fst).sum

lemma length_pack (fields : List (Nat × Nat)) : (pack fields).length = width fields := by
  induction fields with
  | nil => rfl
  | cons f fields ih =>
    rw [pack, List.flatMap_cons, List.length_append, length_encode, width, List.map_cons, List.sum_cons]
    exact congrArg (f.1 + ·) ih

/-- A field begins where the fields before it end. -/
theorem drop_pack {fields : List (Nat × Nat)} {k w x : Nat} (h : fields[k]? = some (w, x)) :
    (pack fields).drop (width (fields.take k)) = encode w x ++ pack (fields.drop (k + 1)) := by
  obtain ⟨hk, hx⟩ := List.getElem?_eq_some_iff.mp h
  have hsplit : fields = fields.take k ++ (w, x) :: fields.drop (k + 1) := by
    rw [← hx, List.getElem_cons_drop, List.take_append_drop]
  have hpack : pack fields = pack (fields.take k) ++ (encode w x ++ pack (fields.drop (k + 1))) := by
    conv_lhs => rw [hsplit]
    simp [pack]
  rw [hpack, ← length_pack, List.drop_left]

end LittleEndian
