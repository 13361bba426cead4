import ThistleOS.Kernel.TapInstaller
import Mathlib.Data.List.Forall2

/-!
# The stage

The stage of an installation holds the files of the entries that have been extracted, and nothing
else on the card changes.
-/

open PowerLoss FileTree

namespace ThistleOS.TapInstaller

variable {P : Platform} {r : TapRequest} {file : List UInt8} {declared : List Declared}
  {entry : ZipEntry} {t t' t₀ t₁ t₂ t₃ : Tree} {dir p q : Path} {d : List UInt8}

/-- The place of a file in a package, and its data. -/
abbrev Packed := Path × List UInt8

variable {fs : List Packed}

/-- What a package has at a path. -/
def packageNode (fs : List Packed) (q : Path) : Option (Node UInt8) :=
  match fs.find? (·.1 == q) with
  | some f => some (.file f.2)
  | none => if fs.any fun f => q.isPrefixOf f.1 then some .dir else none

/-- A directory holds a package, and nothing else. -/
structure Holds (fs : List Packed) (dir : Path) (t : Tree) : Prop where
  root : t.node dir = some .dir
  below : ∀ q, q ≠ [] → t.node (dir ++ q) = packageNode fs q

lemma readExact_le {pos n : Nat} (h : readExact file pos n = .ok d) : pos + n ≤ file.length := by
  rw [readExact] at h
  split_ifs at h with hle
  exact hle

/-- The data of an entry begins in the archive. -/
lemma entryDataOffset_le {offset : Nat} (h : entryDataOffset file entry = .ok offset) :
    offset ≤ file.length := by
  obtain ⟨fixed, -, h⟩ := Except.bind_ok h
  obtain ⟨-, h⟩ := Except.check_ok h
  obtain ⟨name, hname, h⟩ := Except.bind_ok h
  obtain ⟨-, h⟩ := Except.check_ok h
  obtain rfl := Except.ok.inj h
  exact readExact_le hname

/-- What is extracted of an entry. -/
def entryData (P : Platform) (file : List UInt8) (declared : List Declared) (entry : ZipEntry) :
    Except TapError (List UInt8) := do
  let expected := declared.find? (·.path == entry.name)
  if expected.any (·.size != entry.size) then throw .integrity
  let offset ← entryDataOffset file entry
  let data ← readExact file offset entry.size
  checkData P entry data (expected.map Declared.digest)
  return data

/-- The file of an entry, which has been verified. -/
def Unpacks (P : Platform) (file : List UInt8) (declared : List Declared) (entry : ZipEntry)
    (f : Packed) : Prop :=
  f.1 = names entry.name ∧ entryData P file declared entry = .ok f.2

lemma names_ne_nil (name : String) : names name ≠ [] := by
  rw [names, ne_eq, List.map_eq_nil_iff]
  exact List.splitOn_ne_nil _ _

/-! ### One more file -/

lemma packageNode_eq_none (h : packageNode fs q = none) :
    fs.find? (·.1 == q) = none ∧ ∀ f ∈ fs, ¬ q <+: f.1 := by
  rw [packageNode] at h
  split at h
  · cases h
  · rename_i hfind
    refine ⟨hfind, fun f hf hle => ?_⟩
    have hany : (fs.any fun f => q.isPrefixOf f.1) = true :=
      List.any_eq_true.mpr ⟨f, hf, List.isPrefixOf_iff_prefix.mpr hle⟩
    rw [if_pos hany] at h
    cases h

lemma prefix_dropLast_iff (hp : p ≠ []) : q <+: p.dropLast ↔ q <+: p ∧ q ≠ p := by
  constructor
  · intro h
    refine ⟨h.trans (List.dropLast_prefix p), ?_⟩
    rintro rfl
    have hlen := h.length_le
    have hpos := List.length_pos_of_ne_nil hp
    rw [List.length_dropLast] at hlen
    omega
  · rintro ⟨h, hne⟩
    exact prefix_dropLast_of_ne h hne

lemma packageNode_of_find {f : Packed} (h : fs.find? (·.1 == q) = some f) :
    packageNode fs q = some (.file f.2) := by
  rw [packageNode, h]

lemma packageNode_of_find_none (h : fs.find? (·.1 == q) = none) :
    packageNode fs q = if fs.any fun f => q.isPrefixOf f.1 then some .dir else none := by
  rw [packageNode, h]

lemma packageNode_append (hnone : fs.find? (·.1 == p) = none) :
    packageNode (fs ++ [(p, d)]) q =
      if q = p then some (.file d)
      else if q <+: p ∧ packageNode fs q = none then some .dir else packageNode fs q := by
  by_cases hq : q = p
  · subst hq
    rw [if_pos rfl]
    exact packageNode_of_find (f := (q, d)) (by rw [List.find?_append, hnone]; simp)
  · rw [if_neg hq]
    have hsingle : [(p, d)].find? (fun f : Packed => f.1 == q) = none := by
      simp [Ne.symm hq]
    cases hfind : fs.find? (·.1 == q) with
    | some f =>
      rw [packageNode_of_find hfind, packageNode_of_find (f := f) (by
        rw [List.find?_append, hfind, Option.some_or])]
      simp
    | none =>
      rw [packageNode_of_find_none hfind, packageNode_of_find_none (by
        rw [List.find?_append, hfind, hsingle, Option.or_none])]
      by_cases hany : (fs.any fun f => q.isPrefixOf f.1) = true
      · simp [hany]
      · by_cases hle : q <+: p
        · simp [hany, hle]
        · simp [hany, hle]

/-- A directory that has just been made is empty. -/
lemma holds_nil_of_createDir (h : t.createDir dir = .ok t') : Holds [] dir t' := by
  obtain ⟨hmissing, -, hnode⟩ := createDir_ok h
  refine ⟨by rw [hnode, if_pos rfl], fun q hq => ?_⟩
  rw [hnode, if_neg (by simpa using hq), node_append_eq_none hmissing]
  rfl

/-- The package has one file more once it has been written. -/
lemma Holds.extract (h : Holds fs dir t) (hp : p ≠ [])
    (hdir : t.createDirAll (dir ++ p).dropLast = .ok t₁) (hnew : t₁.createNew (dir ++ p) = .ok t₂)
    (hwrite : t₂.append (dir ++ p) d = .ok t₃) : Holds (fs ++ [(p, d)]) dir t₃ := by
  rw [List.dropLast_append_of_ne_nil hp] at hdir
  obtain ⟨hmissing, hnew⟩ := createNew_ok hnew
  obtain ⟨old, hold, hwrite⟩ := append_ok hwrite
  have hold : old = [] := by
    rw [hnew, if_pos rfl] at hold
    cases hold
    rfl
  subst hold
  have hne : dir ≠ dir ++ p := fun heq => hp (by simpa using heq)
  have habsent : t.node (dir ++ p) = none := by
    rw [createDirAll_ok hdir] at hmissing
    split_ifs at hmissing
    exact hmissing
  obtain ⟨hfind, -⟩ := packageNode_eq_none ((h.below p hp).symm.trans habsent)
  refine ⟨?_, fun q hq => ?_⟩
  · rw [hwrite, if_neg hne, hnew, if_neg hne, createDirAll_ok hdir, if_neg (by simp [h.root]), h.root]
  · rw [packageNode_append hfind, hwrite]
    by_cases heq : q = p
    · rw [if_pos (by rw [heq]), if_pos heq, List.nil_append]
    · have hne : dir ++ q ≠ dir ++ p := fun h => heq (List.append_cancel_left h)
      rw [if_neg hne, hnew, if_neg hne, createDirAll_ok hdir, if_neg heq, h.below q hq]
      simp only [List.prefix_append_right_inj, prefix_dropLast_iff hp, heq, ne_eq, not_false_eq_true,
        and_true]

/-! ### Extracting an entry -/

section

variable {err : TapError → Tree → Prop} {cut : Tree → Prop}

lemma wp_readOn {ok : Unit → Tree → Prop} (hcut : cut t) (herr : ∀ e, err e t) (hok : ok () t) :
    Act.wp (machine String UInt8) (readOn r) ok err cut t := by
  rw [readOn, Act.wp_bind]
  exact wp_requestRead hcut herr fun _ _ => hok

lemma wp_liftM {α : Type} {x : Except TapError α} {ok : α → Tree → Prop} (herr : ∀ e, err e t)
    (hok : ∀ a, x = .ok a → ok a t) :
    Act.wp (machine String UInt8) (liftM x : TapAct α) ok err cut t := by
  cases x with
  | ok a => exact hok a rfl
  | error e => exact herr e

/-- The extraction of an entry changes nothing but the stage, and adds its file there. -/
lemma wp_extractInto {stage : Path} (hchange : ChangesBelow {stage} t₀ t) (h : Holds fs stage t) :
    Act.wp (machine String UInt8) (extractInto P r file declared stage entry)
      (fun _ t' => ChangesBelow {stage} t₀ t' ∧
        ∃ f, Unpacks P file declared entry f ∧ Holds (fs ++ [f]) stage t')
      (fun _ => ChangesBelow {stage} t₀) (ChangesBelow {stage} t₀) t := by
  have hbelow : ∃ a ∈ ({stage} : Set Path), a <+: stage ++ names entry.name :=
    ⟨stage, rfl, List.prefix_append _ _⟩
  have hparent : ∃ a ∈ ({stage} : Set Path), (stage ++ names entry.name).dropLast <+: a ∨
      a <+: (stage ++ names entry.name).dropLast := by
    refine ⟨stage, rfl, .inr ?_⟩
    rw [List.dropLast_append_of_ne_nil (names_ne_nil _)]
    exact List.prefix_append _ _
  unfold extractInto extractEntry
  simp only
  by_cases hsize : (declared.find? (·.path == entry.name)).any (·.size != entry.size) = true
  · rw [if_pos hsize, Act.wp_bind]
    exact hchange
  rw [if_neg hsize, Act.wp_bind]
  refine wp_readOn hchange (fun _ => hchange) ?_
  rw [Act.wp_bind]
  refine wp_liftM (fun _ => hchange) fun offset hoffset => ?_
  rw [Act.wp_bind]
  refine wp_request_within hchange hparent (fun _ h => h) (fun _ _ h => h) fun t₁ hdir hchange₁ => ?_
  rw [Act.wp_bind]
  refine wp_request_within hchange₁ hbelow (fun _ h => h) (fun _ _ h => h) fun t₂ hnew hchange₂ => ?_
  by_cases hshort : ((file.drop offset).take entry.size).length < entry.size
  · rw [if_pos hshort, Act.wp_bind]
    refine wp_request_within hchange₂ hbelow (fun _ h => h) (fun _ _ h => h) fun t₃ _ hchange₃ => ?_
    rw [Act.wp_bind]
    exact hchange₃
  rw [if_neg hshort, Act.wp_bind]
  refine wp_request_within hchange₂ hbelow (fun _ h => h) (fun _ _ h => h) fun t₃ hwrite hchange₃ => ?_
  rw [Act.wp_bind]
  refine wp_request_within hchange₃ trivial (fun _ h => h) (fun _ _ h => h) fun t₄ hsync hchange₄ => ?_
  obtain rfl := Except.ok.inj hsync
  refine wp_liftM (fun _ => hchange₃) fun _ hcheck => ⟨hchange₃, ?_⟩
  refine ⟨(names entry.name, (file.drop offset).take entry.size), ⟨rfl, ?_⟩,
    h.extract (names_ne_nil _) hdir hnew hwrite⟩
  have hread : readExact file offset entry.size = .ok ((file.drop offset).take entry.size) := by
    rw [readExact, if_pos]
    have hle := entryDataOffset_le hoffset
    rw [List.length_take, List.length_drop] at hshort
    omega
  unfold entryData
  simp only [if_neg hsize, hoffset, hread, bind, Except.bind, hcheck]
  rfl

end

end ThistleOS.TapInstaller
