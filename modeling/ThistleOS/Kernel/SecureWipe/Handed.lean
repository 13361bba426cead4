import Mathlib.Data.List.Induction
import ThistleOS.Kernel.SecureWipe

/-!
# The targets that a plan hands out

An index in the plan is all that the caller gets for a target. To tell which target an index stands
for, the path of each target carries the number of the call that added it: the plan does not look at
paths, so it is the plan of the code with the numbers left out.

An index keeps its target exactly as long as no target with a smaller priority value is added.
-/

namespace ThistleOS.SecureWipe

abbrev Target := WipeTarget (ℕ × String)

def WipeTarget.number (t : Target) : ℕ := t.path.1

def Op.number (n : ℕ) : Op String → Op (ℕ × String)
  | .addTarget path size dir prio => .addTarget (n, path) size dir prio
  | .nextPending => .nextPending
  | .markInProgress index => .markInProgress index
  | .markCompleted index => .markCompleted index
  | .markFailed index reason => .markFailed index reason
  | .markSkipped index => .markSkipped index

def numbered : ℕ → List (Op String) → List (Op (ℕ × String))
  | _, [] => []
  | n, o :: ops => o.number n :: numbered (n + 1) ops

/-- The plan after the calls of a list. -/
def after (ops : List (Op String)) : WipePlan (ℕ × String) :=
  (calls _).run .new (numbered 0 ops)

/-! ### The numbers change nothing -/

def WipeTarget.forget (t : Target) : WipeTarget String := { t with path := t.path.2 }

def WipePlan.forget (plan : WipePlan (ℕ × String)) : WipePlan String :=
  ⟨plan.targets.map WipeTarget.forget⟩

lemma forget_addTarget (n : ℕ) (path : String) (size : UInt64) (dir : Bool) (prio : WipePriority)
    (plan : WipePlan (ℕ × String)) :
    (plan.addTarget (n, path) size dir prio).forget = plan.forget.addTarget path size dir prio := by
  have hrank (t : Target) : t.forget.rank = t.rank := rfl
  have hsort := StableSort.map_sortByKey WipeTarget.forget hrank
    (plan.targets ++ [⟨(n, path), size, dir, prio, .pending⟩])
  simpa [WipePlan.forget, WipePlan.addTarget, WipeTarget.forget] using hsort

lemma forget_mark (mayLeave : WipeStatus → Bool) (status : WipeStatus) (index : ℕ)
    (plan : WipePlan (ℕ × String)) :
    (plan.mark mayLeave status index).2.forget = (plan.forget.mark mayLeave status index).2 := by
  have hget : plan.forget.targets[index]? = plan.targets[index]?.map WipeTarget.forget :=
    List.getElem?_map
  rw [WipePlan.mark, WipePlan.mark, hget]
  cases plan.targets[index]? with
  | none => rfl
  | some t =>
    have hstatus : t.forget.status = t.status := rfl
    simp only [Option.map_some, hstatus]
    split
    · simp [WipePlan.forget, WipeTarget.forget]
    · rfl

lemma forget_next (n : ℕ) (o : Op String) (plan : WipePlan (ℕ × String)) :
    ((calls _).next (o.number n) plan).forget = (calls _).next o plan.forget := by
  cases o with
  | addTarget path size dir prio => exact forget_addTarget n path size dir prio plan
  | nextPending => rfl
  | markInProgress index => exact forget_mark _ _ index plan
  | markCompleted index => exact forget_mark _ _ index plan
  | markFailed index reason => exact forget_mark _ _ index plan
  | markSkipped index => exact forget_mark _ _ index plan

lemma forget_run (n : ℕ) (ops : List (Op String)) (plan : WipePlan (ℕ × String)) :
    ((calls _).run plan (numbered n ops)).forget = (calls _).run plan.forget ops := by
  induction ops generalizing n plan with
  | nil => rfl
  | cons o ops ih =>
    rw [numbered, Component.run_cons, Component.run_cons, ih, forget_next]

lemma numbered_append (n : ℕ) (ops ops' : List (Op String)) :
    numbered n (ops ++ ops') = numbered n ops ++ numbered (n + ops.length) ops' := by
  induction ops generalizing n with
  | nil => rfl
  | cons o ops ih =>
    rw [List.cons_append, numbered, ih, numbered, List.length_cons, Nat.add_right_comm, Nat.add_assoc]
    rfl

lemma after_concat (ops : List (Op String)) (o : Op String) :
    after (ops ++ [o]) = (calls _).next (o.number ops.length) (after ops) := by
  rw [after, numbered_append, Component.run_append, Nat.zero_add]
  rfl

@[simp] lemma after_nil : after [] = .new := rfl

/-! ### The order of the targets -/

/-- The order in which targets are handed out. -/
def Before (t u : Target) : Prop := t.rank < u.rank ∨ t.rank = u.rank ∧ t.number < u.number

/-- The targets come in their order, with distinct numbers below `n`. -/
structure Ordered (n : ℕ) (l : List Target) : Prop where
  pairwise : l.Pairwise Before
  distinct : l.Pairwise fun t u => t.number ≠ u.number
  lt : ∀ t ∈ l, t.number < n

namespace Ordered

variable {n : ℕ} {l l' : List Target} {o : Op String}

lemma nil : Ordered 0 [] := ⟨.nil, .nil, by simp⟩

lemma sorted (h : Ordered n l) : StableSort.SortedByKey WipeTarget.rank l :=
  h.pairwise.imp fun hbefore => hbefore.elim Nat.le_of_lt fun h => Nat.le_of_eq h.1

/-- Two targets with the same number are the same target. -/
lemma index_eq (h : Ordered n l) {i j : ℕ} {t u : Target} (hi : l[i]? = some t) (hj : l[j]? = some u)
    (hnum : t.number = u.number) : i = j := by
  have hdistinct := List.pairwise_iff_getElem.mp h.distinct
  obtain ⟨hi', rfl⟩ := List.getElem?_eq_some_iff.mp hi
  obtain ⟨hj', rfl⟩ := List.getElem?_eq_some_iff.mp hj
  rcases Nat.lt_trichotomy i j with hlt | rfl | hlt
  · exact absurd hnum (hdistinct i j hi' hj' hlt)
  · rfl
  · exact absurd hnum.symm (hdistinct j i hj' hi' hlt)

/-- The order does not look at the status. -/
lemma of_marked {pre post : List Target} {t u : Target} (h : Ordered n (pre ++ t :: post))
    (hrank : u.rank = t.rank) (hnum : u.number = t.number) : Ordered n (pre ++ u :: post) := by
  obtain ⟨hpair, hdist, hlt⟩ := h
  simp only [List.pairwise_append, List.pairwise_cons, List.forall_mem_append, List.forall_mem_cons,
    Before] at hpair hdist hlt
  refine ⟨?_, ?_, ?_⟩ <;>
    simpa only [List.pairwise_append, List.pairwise_cons, List.forall_mem_append, List.forall_mem_cons,
      Before, hrank, hnum]

lemma of_added {pre post : List Target} {path : String} {size : UInt64} {dir : Bool}
    {prio : WipePriority} (h : Ordered n (pre ++ post)) (hpre : ∀ t ∈ pre, t.priority.value ≤ prio.value)
    (hpost : ∀ t ∈ post, prio.value < t.priority.value) :
    Ordered (n + 1) (pre ++ ⟨(n, path), size, dir, prio, .pending⟩ :: post) := by
  obtain ⟨hpair, hdist, hlt⟩ := h
  have hlt_pre : ∀ t ∈ pre, t.number < n := fun t ht => hlt t (by simp [ht])
  have hlt_post : ∀ t ∈ post, t.number < n := fun t ht => hlt t (by simp [ht])
  rw [List.pairwise_append] at hpair hdist
  refine ⟨?_, ?_, ?_⟩
  · rw [List.pairwise_append, List.pairwise_cons]
    refine ⟨hpair.1, ⟨fun t ht => .inl (hpost t ht), hpair.2.1⟩, fun t ht u hu => ?_⟩
    rcases List.mem_cons.mp hu with rfl | hu
    · rcases Nat.lt_or_eq_of_le (hpre t ht) with hrank | hrank
      · exact .inl hrank
      · exact .inr ⟨hrank, hlt_pre t ht⟩
    · exact hpair.2.2 t ht u hu
  · rw [List.pairwise_append, List.pairwise_cons]
    refine ⟨hdist.1, ⟨fun t ht => (hlt_post t ht).ne', hdist.2.1⟩, fun t ht u hu => ?_⟩
    rcases List.mem_cons.mp hu with rfl | hu
    · exact (hlt_pre t ht).ne
    · exact hdist.2.2 t ht u hu
  · intro t ht
    rw [List.mem_append, List.mem_cons] at ht
    rcases ht with ht | rfl | ht
    · exact (hlt_pre t ht).trans n.lt_succ_self
    · exact n.lt_succ_self
    · exact (hlt_post t ht).trans n.lt_succ_self

lemma mono (h : Ordered n l) : Ordered (n + 1) l :=
  ⟨h.pairwise, h.distinct, fun t ht => (h.lt t ht).trans n.lt_succ_self⟩

lemma step (h : Ordered n l) (hchange : Changed (o.number n) l l') : Ordered (n + 1) l' := by
  cases o with
  | addTarget path size dir prio =>
    cases hchange with
    | same _ _ hne => exact absurd rfl (hne _ _ _ _)
    | marked _ hne => exact absurd rfl (hne _ _ _ _)
    | added _ _ _ _ pre post hpre hpost => exact h.of_added hpre hpost
  | _ =>
    cases hchange with
    | same => exact h.mono
    | marked =>
      apply mono
      exact h.of_marked rfl rfl

end Ordered

theorem ordered_after (ops : List (Op String)) : Ordered ops.length (after ops).targets := by
  induction ops using List.reverseRecOn with
  | nil => exact .nil
  | append_singleton ops o ih =>
    rw [after_concat, List.length_append]
    exact ih.step (next_changed _ ih.sorted)

/-- What the next call changes. -/
lemma after_changed (ops : List (Op String)) (o : Op String) :
    Changed (o.number ops.length) (after ops).targets (after (ops ++ [o])).targets := by
  rw [after_concat]
  exact next_changed _ (ordered_after ops).sorted

/-! ### What becomes of a target -/

/-- A target later on. -/
structure Later (t u : Target) : Prop where
  path : u.path = t.path
  size : u.sizeBytes = t.sizeBytes
  directory : u.isDirectory = t.isDirectory
  priority : u.priority = t.priority
  left : t.status ≠ .pending → u.status ≠ .pending
  settled : t.status.isFinal = true → u.status = t.status

namespace Later

lemma refl (t : Target) : Later t t := ⟨rfl, rfl, rfl, rfl, id, fun _ => rfl⟩

lemma trans {t u v : Target} (h : Later t u) (h' : Later u v) : Later t v where
  path := h'.path.trans h.path
  size := h'.size.trans h.size
  directory := h'.directory.trans h.directory
  priority := h'.priority.trans h.priority
  left ht := h'.left (h.left ht)
  settled ht := by
    have hu := h.settled ht
    rw [h'.settled (hu ▸ ht), hu]

lemma of_step {t : Target} {status : WipeStatus} (h : t.status.Step status) :
    Later t { t with status := status } where
  path := rfl
  size := rfl
  directory := rfl
  priority := rfl
  left _ := h.ne_pending
  settled ht := absurd ht (by simp [h.1])

end Later

lemma Changed.later {o : Op (ℕ × String)} {l l' : List Target} (h : Changed o l l') {t : Target}
    (ht : t ∈ l) : ∃ u ∈ l', Later t u := by
  cases h with
  | same => exact ⟨t, ht, .refl t⟩
  | marked _ _ pre t' post status hstep =>
    rw [List.mem_append, List.mem_cons] at ht
    rcases ht with ht | rfl | ht
    · exact ⟨t, by simp [ht], .refl t⟩
    · exact ⟨_, by simp, .of_step hstep⟩
    · exact ⟨t, by simp [ht], .refl t⟩
  | added _ _ _ _ pre post =>
    rcases List.mem_append.mp ht with ht | ht
    · exact ⟨t, by simp [ht], .refl t⟩
    · exact ⟨t, by simp [ht], .refl t⟩

lemma later_after (pre post : List (Op String)) {t : Target} (ht : t ∈ (after pre).targets) :
    ∃ u ∈ (after (pre ++ post)).targets, Later t u := by
  induction post using List.reverseRecOn with
  | nil => exact ⟨t, by simpa using ht, .refl t⟩
  | append_singleton post o ih =>
    obtain ⟨u, hu, htu⟩ := ih
    obtain ⟨v, hv, huv⟩ := (after_changed (pre ++ post) o).later hu
    exact ⟨v, by simpa using hv, htu.trans huv⟩

/-! ### What is handed out -/

theorem nextPending_first {l : List Target} {n : ℕ} (h : Ordered n l) {i : ℕ}
    (hi : l.findIdx? WipeTarget.isPending = some i) :
    ∃ t, l[i]? = some t ∧ t.status = .pending ∧
      ∀ u ∈ l, u.status = .pending → u = t ∨ Before t u := by
  obtain ⟨pre, t, post, rfl, rfl, hpre, ht⟩ := Slots.findIdx?_eq_some_split hi
  refine ⟨t, by simp, WipeTarget.isPending_iff.mp ht, fun u hu hpending => ?_⟩
  rw [List.mem_append, List.mem_cons] at hu
  rcases hu with hu | rfl | hu
  · have := hpre u hu
    rw [← WipeTarget.isPending_iff, this] at hpending
    cases hpending
  · exact .inl rfl
  · have hpair := (List.pairwise_append.mp h.pairwise).2.1
    exact .inr ((List.pairwise_cons.mp hpair).1 u hu)

/-- Until when an index is to keep its target: until a call has marked the target, or only until its
status is final. -/
inductive Span
  | marked
  | final

def Span.covers : Span → WipeStatus → Bool
  | marked, status => status == .pending
  | final, status => !status.isFinal

/-- The target with a number is in the plan and not marked. -/
def Unmarked (span : Span) (plan : WipePlan (ℕ × String)) (n : ℕ) : Prop :=
  ∃ t ∈ plan.targets, t.number = n ∧ span.covers t.status = true

lemma Span.covers_of_step {span : Span} {s s' : WipeStatus} (h : s.Step s')
    (hcovers : span.covers s' = true) : span.covers s = true := by
  cases span with
  | marked => exact absurd (by simpa [covers] using hcovers) h.ne_pending
  | final => simp [covers, h.1]

namespace Changed

variable {l l' : List Target} {i : ℕ} {t : Target}

/-- A call that adds nothing leaves every target where it is. -/
lemma kept {o : Op (ℕ × String)} (h : Changed o l l') (ho : ∀ path size dir prio, o ≠ .addTarget path size dir prio)
    (ht : l[i]? = some t) : ∃ u, l'[i]? = some u ∧ Later t u := by
  cases h with
  | same => exact ⟨t, ht, .refl t⟩
  | marked _ _ pre t' post status hstep =>
    rcases Nat.lt_trichotomy i pre.length with hi | rfl | hi
    · rw [List.getElem?_append_left hi] at ht ⊢
      exact ⟨t, ht, .refl t⟩
    · obtain rfl : t' = t := by simpa using ht
      exact ⟨_, by simp, .of_step hstep⟩
    · obtain ⟨j, rfl⟩ := Nat.exists_eq_add_of_lt hi
      refine ⟨t, ?_, .refl t⟩
      rw [Nat.add_assoc, List.getElem?_append_right (Nat.le_add_right _ _), Nat.add_sub_cancel_left,
        List.getElem?_cons_succ] at ht ⊢
      exact ht
  | added => exact absurd rfl (ho _ _ _ _)

/-- A new target moves those with a larger priority value. -/
lemma moved {path : ℕ × String} {size : UInt64} {dir : Bool} {prio : WipePriority}
    (h : Changed (.addTarget path size dir prio) l l') (ht : l[i]? = some t) :
    l'[if t.priority.value ≤ prio.value then i else i + 1]? = some t := by
  cases h with
  | same _ _ hne => exact absurd rfl (hne _ _ _ _)
  | marked _ hne => exact absurd rfl (hne _ _ _ _)
  | added _ _ _ _ pre post hpre hpost =>
    rcases Nat.lt_or_ge i pre.length with hi | hi
    · rw [List.getElem?_append_left hi] at ht
      rw [if_pos (hpre t (List.mem_of_getElem? ht)), List.getElem?_append_left hi, ht]
    · rw [List.getElem?_append_right hi] at ht
      have hlt := hpost t (List.mem_of_getElem? ht)
      rw [if_neg (Nat.not_le_of_lt hlt), List.getElem?_append_right (Nat.le_succ_of_le hi),
        Nat.succ_sub hi, List.getElem?_cons_succ, ht]

/-- No call takes a mark away. -/
lemma covers_back {o : Op String} {span : Span} {n k : ℕ} (h : Changed (o.number k) l l') (hn : n < k)
    (hcovers : ∃ u ∈ l', u.number = n ∧ span.covers u.status = true) :
    ∃ u ∈ l, u.number = n ∧ span.covers u.status = true := by
  obtain ⟨u, hu, hnum, hspan⟩ := hcovers
  generalize ho : o.number k = o' at h
  cases h with
  | same => exact ⟨u, hu, hnum, hspan⟩
  | marked _ _ pre t post status hstep =>
    rw [List.mem_append, List.mem_cons] at hu
    rcases hu with hu | rfl | hu
    · exact ⟨u, by simp [hu], hnum, hspan⟩
    · exact ⟨t, by simp, hnum, Span.covers_of_step hstep hspan⟩
    · exact ⟨u, by simp [hu], hnum, hspan⟩
  | added path _ _ _ pre post =>
    rw [List.mem_append, List.mem_cons] at hu
    rcases hu with hu | rfl | hu
    · exact ⟨u, by simp [hu], hnum, hspan⟩
    · cases o with
      | addTarget =>
        cases ho
        exact absurd hnum hn.ne'
      | _ => cases ho
    · exact ⟨u, by simp [hu], hnum, hspan⟩

end Changed

/-! ### Handed out and kept -/

/-- What the wiper relies on, in a run. -/
structure Kept (span : Span) (ops : List (Op String)) : Prop where
  /-- An index that was handed out stands for its target until that is marked. -/
  designates : ∀ pre mid post i t, ops = pre ++ .nextPending :: (mid ++ post) →
    (after pre).nextPending = some i → (after pre).targets[i]? = some t →
    Unmarked span (after (pre ++ .nextPending :: mid)) t.number →
    ∃ u, (after (pre ++ .nextPending :: mid)).targets[i]? = some u ∧ Later t u
  /-- A target stays in the plan, never becomes pending again and keeps a final status. -/
  later : ∀ pre post, ops = pre ++ post → ∀ t ∈ (after pre).targets,
    ∃ u ∈ (after ops).targets, Later t u
  /-- A target that is handed out is pending and comes before all others that are. -/
  first : ∀ pre post i, ops = pre ++ .nextPending :: post → (after pre).nextPending = some i →
    ∃ t, (after pre).targets[i]? = some t ∧ t.status = .pending ∧
      ∀ u ∈ (after pre).targets, u.status = .pending → u = t ∨ Before t u

/-- No target is added with a smaller priority value than that of a target that has been handed out
and is not marked. -/
def AddedBehind (span : Span) (ops : List (Op String)) : Prop :=
  ∀ pre mid post i t path size dir prio,
    ops = pre ++ .nextPending :: (mid ++ .addTarget path size dir prio :: post) →
    (after pre).nextPending = some i → (after pre).targets[i]? = some t →
    Unmarked span (after (pre ++ .nextPending :: mid)) t.number → t.priority.value ≤ prio.value

section

variable {span : Span} {ops pre mid post : List (Op String)} {i : ℕ} {t : Target}

lemma number_lt (ht : (after pre).targets[i]? = some t) (mid : List (Op String)) :
    t.number < (pre ++ .nextPending :: mid).length := by
  have := (ordered_after pre).lt t (List.mem_of_getElem? ht)
  simp
  omega

lemma unmarked_back {o : Op String} (ht : (after pre).targets[i]? = some t)
    (h : Unmarked span (after (pre ++ .nextPending :: (mid ++ [o]))) t.number) :
    Unmarked span (after (pre ++ .nextPending :: mid)) t.number := by
  have hchange := after_changed (pre ++ .nextPending :: mid) o
  rw [List.append_assoc, List.cons_append] at hchange
  exact hchange.covers_back (number_lt ht mid) h

/-- As long as nothing is added before it, the target of an index that was handed out stays there. -/
lemma stays (h : AddedBehind span ops) (hops : ops = pre ++ .nextPending :: (mid ++ post))
    (hi : (after pre).nextPending = some i) (ht : (after pre).targets[i]? = some t)
    (hmark : Unmarked span (after (pre ++ .nextPending :: mid)) t.number) :
    ∃ u, (after (pre ++ .nextPending :: mid)).targets[i]? = some u ∧ Later t u := by
  induction mid using List.reverseRecOn generalizing post with
  | nil => exact (after_changed pre .nextPending).kept (by simp [Op.number]) ht
  | append_singleton mid o ih =>
    have hback := unmarked_back ht hmark
    have hops' : ops = pre ++ .nextPending :: (mid ++ o :: post) := by simpa using hops
    obtain ⟨u, hu, hlater⟩ := ih hops' hback
    have hchange := after_changed (pre ++ .nextPending :: mid) o
    rw [List.append_assoc, List.cons_append] at hchange
    cases o with
    | addTarget path size dir prio =>
      have hprio : u.priority.value ≤ prio.value := by
        rw [hlater.priority]
        exact h pre mid post i t path size dir prio (by simpa using hops) hi ht hback
      have hmoved := hchange.moved hu
      rw [if_pos hprio] at hmoved
      exact ⟨u, hmoved, hlater⟩
    | _ =>
      obtain ⟨v, hv, huv⟩ := hchange.kept (by simp [Op.number]) hu
      exact ⟨v, hv, hlater.trans huv⟩

/-- A target that is added before another one takes the index of the other one. -/
lemma displaced {path : String} {size : UInt64} {dir : Bool} {prio : WipePriority}
    (ht : (after ops).targets[i]? = some t) (hprio : prio.value < t.priority.value) {u : Target}
    (hu : (after (ops ++ [.addTarget path size dir prio])).targets[i]? = some u) :
    u.number ≠ t.number := by
  intro hnum
  have hmoved := (after_changed ops (.addTarget path size dir prio)).moved ht
  rw [if_neg (Nat.not_le_of_lt hprio)] at hmoved
  have := (ordered_after _).index_eq hu hmoved hnum
  omega

/-- To add a target marks none. -/
lemma Unmarked.add {path : String} {size : UInt64} {dir : Bool} {prio : WipePriority} {n : ℕ}
    (h : Unmarked span (after ops) n) :
    Unmarked span (after (ops ++ [.addTarget path size dir prio])) n := by
  obtain ⟨t, ht, hnum, hcovers⟩ := h
  obtain ⟨j, hj⟩ := List.mem_iff_getElem?.mp ht
  have hmoved := (after_changed ops (.addTarget path size dir prio)).moved hj
  exact ⟨t, List.mem_of_getElem? hmoved, hnum, hcovers⟩

lemma Later.number {t u : Target} (h : Later t u) : u.number = t.number := congrArg Prod.fst h.path

lemma Kept.addedBehind (h : Kept span ops) : AddedBehind span ops := by
  intro pre mid post i t path size dir prio hops hi ht hmark
  by_contra hprio
  obtain ⟨u, hu, hlater⟩ := h.designates pre mid _ i t hops hi ht hmark
  have hadd : after (pre ++ .nextPending :: (mid ++ [.addTarget path size dir prio])) =
      after (pre ++ .nextPending :: mid ++ [.addTarget path size dir prio]) := by
    rw [List.append_assoc, List.cons_append]
  obtain ⟨v, hv, hlater'⟩ := h.designates pre (mid ++ [.addTarget path size dir prio]) post i t
    (by simpa using hops) hi ht (hadd ▸ hmark.add)
  rw [hadd] at hv
  rw [← hlater.priority] at hprio
  exact displaced hu (Nat.lt_of_not_le hprio) hv (hlater'.number.trans hlater.number.symm)

lemma AddedBehind.kept (h : AddedBehind span ops) : Kept span ops where
  designates _ _ _ _ _ hops hi ht hmark := stays h hops hi ht hmark
  later pre post hops t ht := by
    subst hops
    exact later_after pre post ht
  first pre _ _ _ hi := nextPending_first (ordered_after pre) hi

end

/-- The plan is that of the code, and what the wiper relies on holds of a run exactly if no target is
added before one that is handed out and not marked. -/
theorem kept_iff (span : Span) (ops : List (Op String)) :
    (after ops).forget = (calls String).run .new ops ∧ (Kept span ops ↔ AddedBehind span ops) :=
  ⟨forget_run 0 ops .new, Kept.addedBehind, AddedBehind.kept⟩

/-- The vault is added while the cache is being wiped, and is taken for it. -/
def vaultLast : List (Op String) :=
  [.addTarget "/sdcard/cache/" 0 true .low, .nextPending, .addTarget "/sdcard/vault/" 0 true .critical,
    .markCompleted 0]

theorem vaultLast_not_kept :
    ¬ Kept .marked vaultLast ∧
      ((calls String).run .new vaultLast).targets.map (fun t => (t.path, t.status)) =
        [("/sdcard/vault/", .completed), ("/sdcard/cache/", .pending)] := by
  refine ⟨fun h => ?_, rfl⟩
  have hbehind := h.addedBehind [.addTarget "/sdcard/cache/" 0 true .low] [] [.markCompleted 0] 0
    ⟨(0, "/sdcard/cache/"), 0, true, .low, .pending⟩ "/sdcard/vault/" 0 true .critical rfl rfl rfl
    ⟨_, .head _, rfl, rfl⟩
  exact absurd hbehind (by decide)

end ThistleOS.SecureWipe
