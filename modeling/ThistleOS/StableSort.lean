import Mathlib.Data.List.Sort
import Mathlib.Tactic.Common

/-!
# Stable sorting by a key

A stable sort keeps the order of elements with the same key. A list that is sorted but for its last
element is sorted by moving that element before the elements with larger keys.
-/

namespace StableSort

variable {α β : Type*} (key : α → ℕ)

/-- The elements in the order of their keys, those with the same key in the order they had. -/
def sortByKey (l : List α) : List α := l.insertionSort fun a b => key a ≤ key b

def SortedByKey (l : List α) : Prop := l.Pairwise fun a b => key a ≤ key b

variable {key} {l : List α} {a : α}

lemma orderedInsert_of_forall_le (h : ∀ b ∈ l, key a ≤ key b) :
    l.orderedInsert (fun a b => key a ≤ key b) a = a :: l := by
  cases l with
  | nil => rfl
  | cons b l => exact List.orderedInsert_cons_of_le _ l (h b (by simp))

/-- Where the last element goes. -/
theorem sortByKey_concat (h : SortedByKey key l) :
    ∃ pre post, l = pre ++ post ∧ sortByKey key (l ++ [a]) = pre ++ a :: post ∧
      (∀ b ∈ pre, key b ≤ key a) ∧ ∀ b ∈ post, key a < key b := by
  induction l with
  | nil => exact ⟨[], [], rfl, rfl, by simp, by simp⟩
  | cons b l ih =>
    obtain ⟨hb, hl⟩ := List.pairwise_cons.mp h
    obtain ⟨pre, post, rfl, hsort, hpre, hpost⟩ := ih hl
    have hcons : sortByKey key (b :: (pre ++ post) ++ [a]) =
        (pre ++ a :: post).orderedInsert (fun a b => key a ≤ key b) b := by
      rw [← hsort]
      rfl
    rw [hcons]
    by_cases hba : key b ≤ key a
    · refine ⟨b :: pre, post, rfl, ?_, ?_, hpost⟩
      · apply orderedInsert_of_forall_le
        intro c hc
        rcases List.mem_append.mp hc with hc | hc
        · exact hb c (by simp [hc])
        · rcases List.mem_cons.mp hc with rfl | hc
          · exact hba
          · exact hb c (by simp [hc])
      · simpa using ⟨hba, hpre⟩
    · -- all that was not larger than the last element would come before `b`
      have hnil : pre = [] := by
        rw [List.eq_nil_iff_forall_not_mem]
        intro c hc
        have := hb c (by simp [hc])
        have := hpre c hc
        omega
      subst hnil
      refine ⟨[], b :: post, rfl, ?_, by simp, ?_⟩
      · rw [List.nil_append, List.nil_append, List.orderedInsert_cons, if_neg hba,
          orderedInsert_of_forall_le fun c hc => hb c (by simpa using hc)]
      · simpa using ⟨Nat.lt_of_not_le hba, hpost⟩

/-- A sort by a key that a function keeps commutes with the function. -/
theorem map_sortByKey {key' : β → ℕ} (f : α → β) (hf : ∀ a, key' (f a) = key a) (l : List α) :
    (sortByKey key l).map f = sortByKey key' (l.map f) := by
  apply List.map_insertionSort
  intro a _ b _
  rw [hf, hf]

/-- Elements that are in order with each other keep the order they had. -/
theorem filter_mergeSort {le : α → α → Bool} (htrans : ∀ a b c, le a b → le b c → le a c)
    (htotal : ∀ a b, (le a b || le b a) = true) {p : α → Bool} (h : ∀ a b, p a → p b → le a b) (l : List α) :
    (l.mergeSort le).filter p = l.filter p := by
  have hle : (l.filter p).Pairwise fun a b => le a b = true := by
    apply List.pairwise_of_forall_mem_list
    intro a ha b hb
    exact h a b (List.mem_filter.mp ha).2 (List.mem_filter.mp hb).2
  have hsub : (l.filter p).Sublist ((l.mergeSort le).filter p) := by
    have hkept := (List.sublist_mergeSort htrans htotal hle List.filter_sublist).filter p
    simpa using hkept
  exact (hsub.eq_of_length ((List.mergeSort_perm l le).filter p).length_eq.symm).symm

end StableSort
