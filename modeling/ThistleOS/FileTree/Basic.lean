import Mathlib.Data.List.Infix
import Mathlib.Tactic.Common

/-!
# File trees

A file tree assigns to each path, a list of names from the root, what the path holds. Every entry
lies in a directory, so nothing lies below a file or below an absent path.
-/

inductive FileTree.Node (β : Type)
  | dir
  | file (data : List β)
  deriving DecidableEq, Repr

open FileTree (Node)

@[ext] structure FileTree (ν β : Type) where
  node : List ν → Option (Node β)
  node_nil : node [] = some .dir
  dir_of_child : ∀ {p : List ν} {x : ν}, node (p ++ [x]) ≠ none → node p = some .dir

namespace FileTree

variable {ν β : Type} {t : FileTree ν β} {p q src dst : List ν}

/-- The tree that holds nothing but its root. -/
def empty : FileTree ν β where
  node p := if p.isEmpty then some .dir else none
  node_nil := rfl
  dir_of_child := by simp

def isDir (t : FileTree ν β) (p : List ν) : Bool :=
  match t.node p with
  | some .dir => true
  | _ => false

def isFile (t : FileTree ν β) (p : List ν) : Bool :=
  match t.node p with
  | some (.file _) => true
  | _ => false

@[simp] lemma isDir_eq_true : t.isDir p = true ↔ t.node p = some .dir := by
  unfold isDir
  split <;> simp_all

@[simp] lemma isFile_eq_true : t.isFile p = true ↔ ∃ d, t.node p = some (.file d) := by
  unfold isFile
  split <;> simp_all

/-! ### What lies above and below a path -/

lemma dir_of_append (r : List ν) (hr : r ≠ []) (h : t.node (p ++ r) ≠ none) :
    t.node p = some .dir := by
  induction r using List.reverseRecOn with
  | nil => exact absurd rfl hr
  | append_singleton r x ih =>
    rw [← List.append_assoc] at h
    have hpr := t.dir_of_child h
    by_cases hr : r = []
    · rwa [hr, List.append_nil] at hpr
    · exact ih hr (by simp [hpr])

/-- Every proper prefix of an existing path is a directory. -/
lemma dir_above (hpq : p <+: q) (hne : p ≠ q) (h : t.node q ≠ none) : t.node p = some .dir := by
  obtain ⟨r, rfl⟩ := hpq
  exact dir_of_append r (fun hr => hne (by simp [hr])) h

lemma node_ne_none_above (hpq : p <+: q) (h : t.node q ≠ none) : t.node p ≠ none := by
  by_cases hne : p = q
  · exact hne ▸ h
  · simp [dir_above hpq hne h]

/-- Nothing lies below an absent path. -/
lemma node_append_eq_none (h : t.node p = none) (r : List ν) : t.node (p ++ r) = none := by
  by_contra hne
  exact node_ne_none_above (List.prefix_append p r) hne h

/-- Nothing lies below a file. -/
lemma node_append_file {d : List β} (h : t.node p = some (.file d)) {r : List ν} (hr : r ≠ []) :
    t.node (p ++ r) = none := by
  by_contra hne
  have := dir_of_append r hr hne
  simp [h] at this

/-- An existing path other than the root lies in a directory. -/
lemma dir_dropLast (h : t.node p ≠ none) : t.node p.dropLast = some .dir := by
  by_cases hp : p = []
  · simp [hp, t.node_nil]
  · rw [← List.dropLast_append_getLast hp] at h
    exact t.dir_of_child h

/-! ### Changing a tree -/

section Change

variable [DecidableEq ν]

/-- The tree without the paths in `gone`, which holds of every path below one of its own. -/
def without (t : FileTree ν β) (gone : List ν → Bool) (hnil : gone [] = false)
    (hgone : ∀ p x, gone p = true → gone (p ++ [x]) = true) : FileTree ν β where
  node q := if gone q then none else t.node q
  node_nil := by simp [hnil, t.node_nil]
  dir_of_child {q x} h := by
    by_cases hqx : gone (q ++ [x]) = true
    · simp [hqx] at h
    · have hq : ¬ gone q = true := fun hq => hqx (hgone q x hq)
      simp only [hqx, hq, if_false, Bool.false_eq_true] at h ⊢
      exact t.dir_of_child h

/-- The tree without everything at and below `p`. -/
def removeUnder (t : FileTree ν β) (p : List ν) (hp : p ≠ []) : FileTree ν β :=
  t.without (fun q => p.isPrefixOf q) (by cases p <;> simp_all [List.isPrefixOf])
    (fun q x h => by
      rw [List.isPrefixOf_iff_prefix] at h ⊢
      exact h.trans (List.prefix_append q [x]))

/-- The tree in which a part of what lies at and below `p` has been deleted: `keep` says which
entries survive, and an entry survives only together with the directories it lies in. -/
def prune (t : FileTree ν β) (p : List ν) (hp : p ≠ []) (keep : List ν → Bool) : FileTree ν β :=
  t.without (fun q => q.inits.any fun r => p.isPrefixOf r && !keep r)
    (by cases p <;> simp_all [List.isPrefixOf])
    (fun q x h => by
      rw [List.any_eq_true] at h ⊢
      obtain ⟨r, hr, hrk⟩ := h
      rw [List.mem_inits] at hr
      exact ⟨r, (List.mem_inits _ _).mpr (hr.trans (List.prefix_append q [x])), hrk⟩)

/-- The tree with a file at `p`, in an existing directory. -/
def putFile (t : FileTree ν β) (p : List ν) (d : List β) (hp : p ≠ [])
    (hdir : t.isDir p.dropLast = true) (hno : t.isDir p = false) : FileTree ν β where
  node q := if q = p then some (.file d) else t.node q
  node_nil := by simp [hp.symm, t.node_nil]
  dir_of_child {q x} h := by
    rw [isDir_eq_true] at hdir
    by_cases hqx : q ++ [x] = p
    · have hq : q = p.dropLast := by rw [← hqx, List.dropLast_concat]
      have hne : q ≠ p := by
        intro hqp
        have := congrArg List.length hqx
        simp [hqp] at this
      rw [if_neg hne, hq, hdir]
    · rw [if_neg hqx] at h
      have hq := t.dir_of_child h
      have hne : q ≠ p := by
        rintro rfl
        rw [← isDir_eq_true, hno] at hq
        exact absurd hq (by simp)
      rw [if_neg hne, hq]

/-- The tree with every missing directory on the way to `p`, and `p` itself. -/
def mkdirs (t : FileTree ν β) (p : List ν) (h : p.inits.any t.isFile = false) : FileTree ν β where
  node q := if q.isPrefixOf p && (t.node q).isNone then some .dir else t.node q
  node_nil := by simp [t.node_nil]
  dir_of_child {q x} hq := by
    by_cases hqx : (q ++ [x]) <+: p
    · have hqp : q <+: p := (List.prefix_append q [x]).trans hqx
      have hnf : ∀ d, t.node q ≠ some (.file d) := by
        intro d hd
        have hall := List.any_eq_false.mp h q ((List.mem_inits _ _).mpr hqp)
        exact hall (isFile_eq_true.mpr ⟨d, hd⟩)
      rw [← List.isPrefixOf_iff_prefix] at hqp
      match hnode : t.node q with
      | none => simp [hqp]
      | some .dir => simp
      | some (.file d) => exact absurd hnode (hnf d)
    · rw [← List.isPrefixOf_iff_prefix] at hqx
      simp only [hqx, Bool.false_and, Bool.false_eq_true, if_false] at hq
      simp [t.dir_of_child hq]

/-- The tree in which everything at and below `src` has moved to `dst`. -/
def move (t : FileTree ν β) (src dst : List ν) (hdir : t.isDir dst.dropLast = true)
    (hno : t.node dst = none) (hsub : src.isPrefixOf dst = false) : FileTree ν β where
  node q :=
    if dst.isPrefixOf q then t.node (src ++ q.drop dst.length)
    else if src.isPrefixOf q then none
    else t.node q
  node_nil := by
    have hd : dst ≠ [] := by
      rintro rfl
      simp [t.node_nil] at hno
    have hs : src ≠ [] := by
      rintro rfl
      simp at hsub
    cases dst <;> cases src <;> simp_all [List.isPrefixOf, t.node_nil]
  dir_of_child {q x} h := by
    simp only [List.isPrefixOf_iff_prefix, ← Bool.not_eq_true] at h hsub ⊢
    rw [isDir_eq_true] at hdir
    by_cases hqx : dst <+: q ++ [x]
    · rw [if_pos hqx] at h
      rcases List.prefix_concat_iff.mp hqx with heq | hdq
      · -- the moved entry itself: its directory is neither moved nor below the source
        have hq : q = dst.dropLast := by rw [heq, List.dropLast_concat]
        have hndq : ¬ dst <+: q := by
          intro hle
          have := hle.length_le
          simp only [heq, List.length_append, List.length_singleton] at this
          omega
        have hnsq : ¬ src <+: q := fun hle => hsub (hle.trans (heq ▸ List.prefix_append q [x]))
        rw [if_neg hndq, if_neg hnsq, hq, hdir]
      · rw [if_pos hdq]
        have hlen : dst.length ≤ q.length := hdq.length_le
        rw [List.drop_append_of_le_length hlen, ← List.append_assoc] at h
        exact t.dir_of_child h
    · rw [if_neg hqx] at h
      have hndq : ¬ dst <+: q := fun hle => hqx (hle.trans (List.prefix_append q [x]))
      by_cases hsx : src <+: q ++ [x]
      · simp [hsx] at h
      · rw [if_neg hsx] at h
        have hnsq : ¬ src <+: q := fun hle => hsx (hle.trans (List.prefix_append q [x]))
        rw [if_neg hndq, if_neg hnsq]
        exact t.dir_of_child h

end Change

end FileTree
