import Mathlib.Data.List.Basic
import Mathlib.Logic.Function.Basic

/-!
# Block chaining

A list of blocks is encrypted block by block, each mixed with the block that was made before it. The blocks,
their encryption and the mixing are left open.
-/

namespace ThistleOS.BlockChain

variable {β : Type} (enc dec : β → β) (mix : β → β → β)

def chain : β → List β → List β
  | _, [] => []
  | prev, b :: bs => enc (mix b prev) :: chain (enc (mix b prev)) bs

def unchain : β → List β → List β
  | _, [] => []
  | prev, c :: cs => mix (dec c) prev :: unchain c cs

/-- The block that comes before what is added to the blocks `bs`. -/
def last (prev : β) (bs : List β) : β := (chain enc mix prev bs).getLast?.getD prev

variable {enc dec mix} {prev prev' : β}

@[simp] lemma length_chain (prev : β) (bs : List β) : (chain enc mix prev bs).length = bs.length := by
  induction bs generalizing prev with
  | nil => rfl
  | cons b bs ih => rw [chain, List.length_cons, ih, List.length_cons]

@[simp] lemma length_unchain (prev : β) (cs : List β) : (unchain dec mix prev cs).length = cs.length := by
  induction cs generalizing prev with
  | nil => rfl
  | cons c cs ih => rw [unchain, List.length_cons, ih, List.length_cons]

/-- Unchaining undoes chaining. -/
theorem unchain_chain (hdec : ∀ b, dec (enc b) = b) (hmix : ∀ a b, mix (mix a b) b = a) (prev : β) (bs : List β) :
    unchain dec mix prev (chain enc mix prev bs) = bs := by
  induction bs generalizing prev with
  | nil => rfl
  | cons b bs ih => rw [chain, unchain, hdec, hmix, ih]

lemma last_cons (prev b : β) (bs : List β) :
    last enc mix prev (b :: bs) = last enc mix (enc (mix b prev)) bs := by
  rw [last, last, chain, List.getLast?_cons, Option.getD_some]

lemma chain_append (prev : β) (bs bs' : List β) :
    chain enc mix prev (bs ++ bs') = chain enc mix prev bs ++ chain enc mix (last enc mix prev bs) bs' := by
  induction bs generalizing prev with
  | nil => rfl
  | cons b bs ih =>
    rw [List.cons_append, chain, ih, chain, List.cons_append, last_cons]

/-- A block is made of the blocks up to it. -/
lemma chain_take (prev : β) (bs : List β) (n : ℕ) :
    (chain enc mix prev bs).take n = chain enc mix prev (bs.take n) := by
  conv_lhs => rw [← List.take_append_drop n bs, chain_append]
  by_cases h : n ≤ bs.length
  · have hlength : (chain enc mix prev (bs.take n)).length = n := by rw [length_chain, List.length_take_of_le h]
    rw [List.take_append_of_le_length (Nat.le_of_eq hlength.symm), List.take_of_length_le (Nat.le_of_eq hlength)]
  · have hdrop : bs.drop n = [] := List.drop_eq_nil_of_le (by omega)
    rw [hdrop, chain, List.append_nil, List.take_of_length_le (by rw [length_chain]; exact List.length_take_le n bs)]

/-- Every block depends on the first one. -/
lemma prev_eq_of_getElem? (henc : Function.Injective enc) (hmix : ∀ b, Function.Injective (mix b)) {bs : List β}
    {i : ℕ} (hi : i < bs.length) (h : (chain enc mix prev bs)[i]? = (chain enc mix prev' bs)[i]?) :
    prev = prev' := by
  induction bs generalizing prev prev' i with
  | nil => cases hi
  | cons b bs ih =>
    have hhead : enc (mix b prev) = enc (mix b prev') := by
      cases i with
      | zero => simpa [chain] using h
      | succ i => exact ih (Nat.lt_of_succ_lt_succ hi) (by simpa [chain] using h)
    exact hmix b (henc hhead)

/-- Every block depends on each block before it. -/
lemma block_eq_of_getElem? (henc : Function.Injective enc) (hmix : ∀ b, Function.Injective (mix b))
    (hmix' : ∀ b, Function.Injective fun a => mix a b) {pre post : List β} {a a' : β} {i : ℕ}
    (hle : pre.length ≤ i) (hi : i < (pre ++ a :: post).length)
    (h : (chain enc mix prev (pre ++ a :: post))[i]? = (chain enc mix prev (pre ++ a' :: post))[i]?) : a = a' := by
  obtain ⟨k, rfl⟩ := Nat.exists_eq_add_of_le hle
  have hlen : (chain enc mix prev pre).length ≤ pre.length + k := by rw [length_chain]; omega
  rw [chain_append, chain_append, List.getElem?_append_right hlen, List.getElem?_append_right hlen, length_chain,
    Nat.add_sub_cancel_left] at h
  generalize last enc mix prev pre = prev' at h
  have hblock : enc (mix a prev') = enc (mix a' prev') := by
    cases k with
    | zero => simpa [chain] using h
    | succ k =>
      have hk : k < post.length := by
        simp only [List.length_append, List.length_cons] at hi
        omega
      exact prev_eq_of_getElem? henc hmix hk (by simpa [chain] using h)
  exact hmix' prev' (henc hblock)

/-- Two lists that differ in one place only. -/
lemma exists_split_of_differ {bs bs' : List β} {j : ℕ} (hj : j < bs.length) (hlength : bs'.length = bs.length)
    (h : ∀ i, bs[i]? = bs'[i]? ↔ i ≠ j) :
    ∃ pre a a' post, pre.length = j ∧ bs = pre ++ a :: post ∧ bs' = pre ++ a' :: post ∧ a ≠ a' := by
  have hj' : j < bs'.length := hlength ▸ hj
  have hpre : bs'.take j = bs.take j := by
    refine List.ext_getElem? fun i => ?_
    by_cases hi : i < j
    · rw [List.getElem?_take_of_lt hi, List.getElem?_take_of_lt hi, (h i).mpr (Nat.ne_of_lt hi)]
    · rw [List.getElem?_take_eq_none (Nat.le_of_not_lt hi), List.getElem?_take_eq_none (Nat.le_of_not_lt hi)]
  have hpost : bs'.drop (j + 1) = bs.drop (j + 1) := by
    refine List.ext_getElem? fun i => ?_
    rw [List.getElem?_drop, List.getElem?_drop, (h (j + 1 + i)).mpr (by omega)]
  refine ⟨bs.take j, bs[j], bs'[j], bs.drop (j + 1), List.length_take_of_le (Nat.le_of_lt hj), ?_, ?_, fun heq => ?_⟩
  · rw [← List.drop_eq_getElem_cons hj, List.take_append_drop]
  · rw [← hpre, ← hpost, ← List.drop_eq_getElem_cons hj', List.take_append_drop]
  · refine (h j).mp ?_ rfl
    rw [List.getElem?_eq_getElem hj, List.getElem?_eq_getElem hj', heq]

end ThistleOS.BlockChain
