import Mathlib.Data.List.Nodup
import Mathlib.Tactic.Common

/-!
# Tables of slots

A table is searched from its first slot on. A slot may carry a key; the keys of a table are distinct
when no two slots carry the same one.
-/

namespace Slots

variable {α κ : Type*}

/-- The first element that satisfies `p` splits the list. -/
lemma findIdx?_eq_some_split {p : α → Bool} {l : List α} {i : ℕ} (h : l.findIdx? p = some i) :
    ∃ pre a post, l = pre ++ a :: post ∧ pre.length = i ∧ (∀ b ∈ pre, p b = false) ∧ p a = true := by
  induction l generalizing i with
  | nil => simp at h
  | cons a l ih =>
    rw [List.findIdx?_cons] at h
    split at h
    · cases h
      exact ⟨[], a, l, rfl, rfl, by simp, ‹_›⟩
    · obtain ⟨j, hj, rfl⟩ := Option.map_eq_some_iff.mp h
      obtain ⟨pre, b, post, rfl, rfl, hpre, hb⟩ := ih hj
      refine ⟨a :: pre, b, post, rfl, rfl, fun c hc => ?_, hb⟩
      rcases List.mem_cons.mp hc with rfl | hc
      · exact Bool.eq_false_iff.mpr ‹_›
      · exact hpre c hc

/-- The element at an index splits the list. -/
lemma getElem?_eq_some_split {l : List α} {i : ℕ} {a : α} (h : l[i]? = some a) :
    ∃ pre post, l = pre ++ a :: post ∧ pre.length = i := by
  obtain ⟨hlt, rfl⟩ := List.getElem?_eq_some_iff.mp h
  refine ⟨l.take i, l.drop (i + 1), ?_, List.length_take_of_le (Nat.le_of_lt hlt)⟩
  rw [List.getElem_cons_drop, List.take_append_drop]

lemma modify_length_append (f : α → α) (pre : List α) (a : α) (post : List α) :
    (pre ++ a :: post).modify pre.length f = pre ++ f a :: post := by
  induction pre with
  | nil => rfl
  | cons b pre ih => simpa using ih

variable {p : α → Bool} {pre post : List α} {a b : α}

lemma find?_split (hpre : ∀ c ∈ pre, p c = false) (ha : p a = true) :
    (pre ++ a :: post).find? p = some a := by
  have hnone : pre.find? p = none := List.find?_eq_none.mpr fun c hc => by simp [hpre c hc]
  rw [List.find?_append, hnone, Option.none_or, List.find?_cons_of_pos ha]

/-- A slot that does not satisfy `p`, before or after it is changed, does not matter to a search. -/
lemma find?_change (ha : p a = false) (hb : p b = false) :
    (pre ++ b :: post).find? p = (pre ++ a :: post).find? p := by
  simp [List.find?_append, ha, hb]

/-! ### Keys -/

variable {key : α → Option κ}

/-- No two slots carry the same key. -/
def Distinct (key : α → Option κ) (l : List α) : Prop := (l.filterMap key).Nodup

lemma Distinct.same_key (h : Distinct key (pre ++ a :: post)) (hkey : key b = key a) :
    Distinct key (pre ++ b :: post) := by
  unfold Distinct at *
  simpa only [List.filterMap_append, List.filterMap_cons, hkey] using h

/-- A slot without a key may be given one that no slot carries. -/
lemma Distinct.new_key {k : κ} (h : Distinct key (pre ++ a :: post)) (ha : key a = none)
    (hb : key b = some k) (hk : ∀ c ∈ pre ++ a :: post, key c ≠ some k) :
    Distinct key (pre ++ b :: post) := by
  have hnew : k ∉ pre.filterMap key ++ post.filterMap key := by
    rw [← List.filterMap_append, List.mem_filterMap]
    rintro ⟨c, hc, hck⟩
    refine hk c ?_ hck
    rcases List.mem_append.mp hc with hc | hc
    · exact List.mem_append_left _ hc
    · exact List.mem_append_right _ (List.mem_cons_of_mem a hc)
  unfold Distinct at *
  rw [List.filterMap_append, List.filterMap_cons, ha] at h
  rw [List.filterMap_append, List.filterMap_cons, hb]
  exact List.nodup_middle.mpr (List.nodup_cons.mpr ⟨hnew, h⟩)

/-- Two slots with the same key are the same slot. -/
lemma Distinct.index_eq {l : List α} {i j : ℕ} {k : κ} (h : Distinct key l) (hi : l[i]? = some a)
    (hj : l[j]? = some b) (ha : key a = some k) (hb : key b = some k) : i = j := by
  unfold Distinct at h
  rw [List.Nodup, List.pairwise_filterMap, List.pairwise_iff_getElem] at h
  obtain ⟨hi', rfl⟩ := List.getElem?_eq_some_iff.mp hi
  obtain ⟨hj', rfl⟩ := List.getElem?_eq_some_iff.mp hj
  rcases Nat.lt_trichotomy i j with hlt | rfl | hlt
  · exact absurd rfl (h i j hi' hj' hlt k ha k hb)
  · rfl
  · exact absurd rfl (h j i hj' hi' hlt k hb k ha)

/-- A table all of whose slots carry a key has as many keys as slots. -/
lemma length_filterMap_key {l : List α} (h : ∀ c ∈ l, (key c).isSome) :
    (l.filterMap key).length = l.length := by
  rw [List.length_filterMap_eq_countP, List.countP_eq_length]
  exact h

end Slots
