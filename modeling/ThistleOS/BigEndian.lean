import Mathlib.Algebra.Group.Nat.Defs
import Mathlib.Tactic.Common

/-!
# Numbers as bytes

Numbers as bytes of which the most significant comes first.
-/

namespace BigEndian

/-- The last `n` digits of a number to the base 256. -/
def encode : Nat → Nat → List UInt8
  | 0, _ => []
  | n + 1, x => .ofNat (x / 256 ^ n) :: encode n x

def decode : List UInt8 → Nat
  | [] => 0
  | b :: bytes => b.toNat * 256 ^ bytes.length + decode bytes

@[simp] lemma length_encode (n x : Nat) : (encode n x).length = n := by
  induction n with
  | zero => rfl
  | succ n ih => rw [encode, List.length_cons, ih]

lemma decode_lt (bytes : List UInt8) : decode bytes < 256 ^ bytes.length := by
  induction bytes with
  | nil => exact Nat.one_pos
  | cons b bytes ih =>
    have hb : (b.toNat + 1) * 256 ^ bytes.length ≤ 256 * 256 ^ bytes.length := Nat.mul_le_mul_right _ b.toNat_lt
    rw [Nat.succ_mul] at hb
    rw [decode, List.length_cons, Nat.pow_succ']
    omega

theorem decode_encode (n x : Nat) : decode (encode n x) = x % 256 ^ n := by
  induction n with
  | zero => rw [encode, decode, Nat.pow_zero, Nat.mod_one]
  | succ n ih =>
    have hbyte : (UInt8.ofNat (x / 256 ^ n)).toNat = x / 256 ^ n % 256 := UInt8.toNat_ofNat'
    rw [encode, decode, length_encode, ih, hbyte, Nat.pow_succ, Nat.mod_mul, Nat.add_comm, Nat.mul_comm]

/-- The bytes before the last ones do not matter to them. -/
lemma encode_add_mul (n x k : Nat) : encode n (k * 256 ^ n + x) = encode n x := by
  induction n generalizing k with
  | zero => rfl
  | succ n ih =>
    have hsplit : k * 256 ^ (n + 1) + x = (k * 256) * 256 ^ n + x := by
      rw [Nat.pow_succ', Nat.mul_assoc]
    have hpos : 0 < 256 ^ n := Nat.pow_pos (by decide)
    rw [encode, encode, hsplit, ih, Nat.add_comm, Nat.add_mul_div_right _ _ hpos]
    congr 1
    refine UInt8.toNat_inj.mp ?_
    rw [UInt8.toNat_ofNat', UInt8.toNat_ofNat']
    exact Nat.add_mul_mod_self_right _ _ _

theorem encode_decode (bytes : List UInt8) : encode bytes.length (decode bytes) = bytes := by
  induction bytes with
  | nil => rfl
  | cons b bytes ih =>
    have hpos : 0 < 256 ^ bytes.length := Nat.pow_pos (by decide)
    rw [List.length_cons, encode, decode, encode_add_mul, ih, Nat.add_comm, Nat.add_mul_div_right _ _ hpos,
      Nat.div_eq_of_lt (decode_lt bytes), Nat.zero_add]
    congr 1
    exact UInt8.ofNat_toNat

lemma decode_encode_of_lt {n x : Nat} (h : x < 256 ^ n) : decode (encode n x) = x := by
  rw [decode_encode, Nat.mod_eq_of_lt h]

lemma encode_decode_mod {bytes : List UInt8} {n m : Nat} (hn : bytes.length = n) (hm : 256 ^ n = m) :
    encode n (decode bytes % m) = bytes := by
  subst hn hm
  rw [Nat.mod_eq_of_lt (decode_lt bytes), encode_decode]

end BigEndian
