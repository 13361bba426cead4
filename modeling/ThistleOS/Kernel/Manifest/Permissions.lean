import ThistleOS.Kernel.Manifest.FromJson
import ThistleOS.Kernel.Permissions.Parse

/-!
# The permissions of a manifest

The permissions of a manifest are found by searching the text of its list for their names, while the permission
module parses the names themselves. The two agree exactly if each name stands somewhere in the text that is
searched if and only if a token grants it.
-/

open ThistleOS.MsgQueue ThistleOS.JsonText

namespace ThistleOS.Manifests

variable {p q : Text → Bool} {word a b raw items rest : Text} {raws tokens : List Text}

/-! ### Flags -/

lemma foldl_or {α : Type} (f : α → UInt32) (l : List α) (m : UInt32) :
    l.foldl (fun m x => m ||| f x) m = m ||| l.foldl (fun m x => m ||| f x) 0 := by
  induction l generalizing m with
  | nil => simp
  | cons x l ih => rw [List.foldl_cons, List.foldl_cons, ih, ih (0 ||| f x), UInt32.zero_or, UInt32.or_assoc]

lemma permissionsWhere_eq (p : Text → Bool) :
    permissionsWhere p = permissionFlags.foldl (fun m flag => m ||| if p flag.1.toList then flag.2 else 0) 0 := by
  rw [permissionsWhere]
  refine List.foldl_ext _ _ _ fun m flag _ => ?_
  split_ifs
  · rfl
  · rw [UInt32.or_zero]

lemma foldl_or_or {α : Type} (f g : α → UInt32) (l : List α) :
    l.foldl (fun m x => m ||| f x) 0 ||| l.foldl (fun m x => m ||| g x) 0 =
      l.foldl (fun m x => m ||| (f x ||| g x)) 0 := by
  induction l with
  | nil => exact UInt32.or_self
  | cons x l ih =>
    rw [List.foldl_cons, List.foldl_cons, List.foldl_cons, foldl_or, foldl_or g, foldl_or fun x => f x ||| g x, ← ih]
    simp only [UInt32.zero_or]
    ac_rfl

/-- The flags of either of two predicates. -/
lemma permissionsWhere_or (p q : Text → Bool) :
    permissionsWhere p ||| permissionsWhere q = permissionsWhere fun name => p name || q name := by
  rw [permissionsWhere_eq, permissionsWhere_eq, permissionsWhere_eq, foldl_or_or]
  refine List.foldl_ext _ _ _ fun m flag _ => ?_
  cases p flag.1.toList <;> cases q flag.1.toList <;> simp

lemma foldl_permissionsWhere {α : Type} (p : α → Text → Bool) (l : List α) :
    l.foldl (fun m x => m ||| permissionsWhere (p x)) 0 = permissionsWhere fun name => l.any fun x => p x name := by
  induction l with
  | nil => rfl
  | cons x l ih => rw [List.foldl_cons, foldl_or, ih, UInt32.zero_or, permissionsWhere_or]; rfl

lemma foldl_or_and {α : Type} (f : α → UInt32) (y : UInt32) (l : List α) :
    l.foldl (fun m x => m ||| f x) 0 &&& y = l.foldl (fun m x => m ||| f x &&& y) 0 := by
  induction l with
  | nil => exact UInt32.zero_and
  | cons x l ih =>
    have hdistrib (a b : UInt32) : (a ||| b) &&& y = a &&& y ||| b &&& y :=
      UInt32.toBitVec_inj.mp BitVec.and_or_distrib_right
    rw [List.foldl_cons, List.foldl_cons, foldl_or, foldl_or fun x => f x &&& y, UInt32.zero_or, UInt32.zero_or,
      hdistrib, ih]

/-- Values that are all the same or zero have this value together. -/
lemma foldl_or_same {α : Type} {f : α → UInt32} {a : α} {l : List α} (ha : a ∈ l)
    (h : ∀ x ∈ l, f x = f a ∨ f x = 0) :
    l.foldl (fun m x => m ||| f x) 0 = f a := by
  have hkeep : ∀ l : List α, (∀ x ∈ l, f x = f a ∨ f x = 0) → l.foldl (fun m x => m ||| f x) (f a) = f a := by
    intro l h
    induction l with
    | nil => rfl
    | cons x l ih =>
      have hx : f a ||| f x = f a := by
        rcases h x List.mem_cons_self with hx | hx
        · rw [hx, UInt32.or_self]
        · rw [hx, UInt32.or_zero]
      rw [List.foldl_cons, hx]
      exact ih fun x' hx' => h x' (List.mem_cons_of_mem x hx')
  induction l with
  | nil => cases ha
  | cons x l ih =>
    have hl (x' : α) (hx' : x' ∈ l) := h x' (List.mem_cons_of_mem x hx')
    rw [List.foldl_cons, UInt32.zero_or]
    rcases List.mem_cons.mp ha with rfl | ha
    · exact hkeep l hl
    · rcases h x List.mem_cons_self with hx | hx
      · rw [hx]
        exact hkeep l hl
      · rw [hx]
        exact ih ha hl

/-- A flag is in the mask exactly if the predicate holds of its name. -/
lemma permissionsWhere_and : ∀ flag ∈ permissionFlags,
    permissionsWhere p &&& flag.2 = if p flag.1.toList then flag.2 else 0 := by
  intro flag hflag
  have hapart : ∀ flag ∈ permissionFlags, ∀ flag' ∈ permissionFlags, flag' = flag ∨ flag'.2 &&& flag.2 = 0 := by
    decide
  have hsame : ∀ flag' ∈ permissionFlags,
      flag' = flag ∨ (if p flag'.1.toList then flag'.2 else 0) &&& flag.2 = 0 := by
    intro flag' hflag'
    refine (hapart flag hflag flag' hflag').imp_right fun h => ?_
    split_ifs
    · exact h
    · exact UInt32.zero_and
  rw [permissionsWhere_eq, foldl_or_and,
    foldl_or_same hflag fun flag' hflag' => (hsame flag' hflag').imp_left fun h => by rw [h]]
  split_ifs
  · exact UInt32.and_self
  · exact UInt32.zero_and

lemma permissionsWhere_inj : permissionsWhere p = permissionsWhere q ↔
    ∀ flag ∈ permissionFlags, p flag.1.toList = q flag.1.toList := by
  refine ⟨fun h flag hflag => ?_, permissionsWhere_congr⟩
  have hp := @permissionsWhere_and p flag hflag
  rw [h, permissionsWhere_and flag hflag] at hp
  have hzero : ∀ flag ∈ permissionFlags, flag.2 ≠ 0 := by decide
  have hne := hzero flag hflag
  cases hpflag : p flag.1.toList <;> cases hqflag : q flag.1.toList <;> simp_all

/-! ### What a token grants -/

/-- A token grants the permissions that one of its names names, and each of them if one is "all". -/
def Grants (token name : Text) : Prop :=
  ∃ tok ∈ Permissions.namesIn token, tok = name ∨ tok = "all".toList

instance (token name : Text) : Decidable (Grants token name) := by
  unfold Grants
  infer_instance

lemma flagsOf_eq (tok : Text) :
    Permissions.flagsOf tok = permissionsWhere fun name => decide (tok = name ∨ tok = "all".toList) := by
  by_cases hknown : tok ∈ permissionFlags.map (fun flag => flag.1.toList) ∨ tok = "all".toList
  · have hall : ∀ tok ∈ permissionFlags.map (fun flag => flag.1.toList) ++ ["all".toList],
        Permissions.flagsOf tok = permissionsWhere fun name => decide (tok = name ∨ tok = "all".toList) := by
      decide
    refine hall tok (List.mem_append.mpr (hknown.imp_right fun h => ?_))
    rw [h]
    exact List.mem_singleton_self _
  · rw [not_or] at hknown
    have hnone : permissionsWhere (fun name => decide (tok = name ∨ tok = "all".toList)) =
        permissionsWhere fun _ => false := by
      refine permissionsWhere_congr fun flag hflag => ?_
      rw [decide_eq_false_iff_not, not_or]
      exact ⟨fun h => hknown.1 (h ▸ List.mem_map_of_mem hflag), hknown.2⟩
    rw [hnone, Permissions.flagsOf]
    simp only [permissionFlags, List.map_cons, List.map_nil, List.mem_cons, List.not_mem_nil, or_false,
      not_or] at hknown
    simp only [hknown, if_false]
    rfl

/-- The mask of some tokens has the permissions that they grant. -/
lemma foldl_parse (tokens : List Text) :
    tokens.foldl (fun m token => m ||| Permissions.parse token) 0 =
      permissionsWhere fun name => tokens.any fun token => decide (Grants token name) := by
  have hparse (token : Text) : Permissions.parse token = permissionsWhere fun name => decide (Grants token name) := by
    rw [Permissions.parse]
    simp only [flagsOf_eq, foldl_permissionsWhere]
    refine permissionsWhere_congr fun flag _ => ?_
    rw [Bool.eq_iff_iff, List.any_eq_true, decide_eq_true_eq, Grants]
    simp
  simp only [hparse, foldl_permissionsWhere]

/-! ### Words within a text -/

/-- A word does not reach over a character that it does not have. -/
lemma within_append_cons {c : Char} (hc : c ∉ word) :
    word <:+: a ++ c :: b ↔ word <:+: a ∨ word <:+: b := by
  constructor
  · rintro ⟨s, t, h⟩
    rcases List.append_eq_append_iff.mp h with ⟨m, ha, ht⟩ | ⟨m, hs, hb⟩
    · exact .inl ⟨s, m, ha.symm⟩
    · cases m with
      | nil => exact .inl ⟨s, [], by simpa using hs⟩
      | cons d m =>
        obtain ⟨rfl, rfl⟩ := List.cons.inj hb
        rw [List.append_cons] at hs
        rcases List.append_eq_append_iff.mp hs with ⟨n, hleft, hword⟩ | ⟨n, hleft, hm⟩
        · rcases List.eq_nil_or_concat n with rfl | ⟨n, x, rfl⟩
          · exact .inr ⟨[], t, by rw [hword]; rfl⟩
          · rw [List.concat_eq_append, ← List.append_assoc] at hleft
            obtain rfl : c = x := by simpa using (List.append_inj' hleft rfl).2
            exact absurd (by rw [hword]; simp) hc
        · exact .inr ⟨n, t, by rw [hm]; rfl⟩
  · rintro (h | h)
    · exact h.trans (List.prefix_append _ _).isInfix
    · exact (h.trans (List.suffix_cons c b).isInfix).trans (List.suffix_append _ _).isInfix

lemma within_cons {c : Char} (hc : c ∉ word) (hne : word ≠ []) : word <:+: c :: b ↔ word <:+: b := by
  rw [← List.nil_append (c :: b), within_append_cons hc, List.infix_nil, or_iff_right hne]

lemma within_white {w : Text} (hw : White w) (hword : ∀ c ∈ word, c.isLower = true) (hne : word ≠ []) :
    word <:+: w ++ b ↔ word <:+: b := by
  induction w with
  | nil => rfl
  | cons c w ih =>
    have hc : c ∉ word := fun hmem => by
      have hblank := hw c List.mem_cons_self
      have hlower := hword c hmem
      simp only [List.mem_cons, List.not_mem_nil, or_false] at hblank
      rcases hblank with rfl | rfl | rfl | rfl <;> exact absurd hlower (by decide)
    rw [List.cons_append, within_cons hc hne]
    exact ih fun c' hc' => hw c' (List.mem_cons_of_mem c hc')

/-! ### The text that is searched -/

/-- The texts up to the first mark that one of them has. -/
def textsBefore (mark : Char) : List Text → List Text
  | [] => []
  | raw :: raws => if mark ∈ raw then [raw.takeWhile (· ≠ mark)] else raw :: textsBefore mark raws

lemma takeWhile_of_mem {mark : Char} (h : mark ∈ a) (b : Text) :
    (a ++ b).takeWhile (· ≠ mark) = a.takeWhile (· ≠ mark) := by
  induction a with
  | nil => cases h
  | cons c a ih =>
    rw [List.cons_append, List.takeWhile_cons, List.takeWhile_cons]
    split_ifs with hc
    · rcases List.mem_cons.mp h with rfl | h
      · simp at hc
      · rw [ih h]
    · rfl

lemma takeWhile_of_notMem {mark : Char} (h : mark ∉ a) (b : Text) :
    (a ++ b).takeWhile (· ≠ mark) = a ++ b.takeWhile (· ≠ mark) :=
  List.takeWhile_append_of_pos fun c hc => by
    rw [decide_eq_true_eq]
    rintro rfl
    exact h hc

/-- The first item of an array, with what follows it. -/
lemma within_item {w w' tail : Text} (hw : White w) (hw' : White w') (hword : ∀ c ∈ word, c.isLower = true)
    (hne : word ≠ []) :
    word <:+: (w ++ quoted raw ++ (w' ++ tail)).takeWhile (· ≠ ']') ↔
      if ']' ∈ raw then word <:+: raw.takeWhile (· ≠ ']')
      else word <:+: raw ∨ word <:+: tail.takeWhile (· ≠ ']') := by
  have hquote : '"' ∉ word := fun hmem => absurd (hword _ hmem) (by decide)
  have hitem : w ++ quoted raw ++ (w' ++ tail) = w ++ '"' :: (raw ++ '"' :: (w' ++ tail)) := by simp [quoted]
  rw [hitem, takeWhile_of_notMem (hw.not_mem (by simp [Quiet])), within_white hw hword hne,
    List.takeWhile_cons_of_pos (by decide), within_cons hquote hne]
  split_ifs with hclose
  · rw [takeWhile_of_mem hclose]
  · rw [takeWhile_of_notMem hclose, List.takeWhile_cons_of_pos (by decide), within_append_cons hquote,
      takeWhile_of_notMem (hw'.not_mem (by simp [Quiet])), within_white hw' hword hne]

/-- A name is found in an array exactly if it is found in one of the texts that are searched. -/
lemma within_array (h : Listed (raws.map quoted) items) (hword : ∀ c ∈ word, c.isLower = true) (hne : word ≠ [])
    (rest : Text) :
    word <:+: (items ++ ']' :: rest).takeWhile (· ≠ ']') ↔ ∃ raw ∈ textsBefore ']' raws, word <:+: raw := by
  have hstop : (']' :: rest).takeWhile (· ≠ ']') = [] := by simp
  have hcomma : ',' ∉ word := fun hmem => absurd (hword _ hmem) (by decide)
  generalize hts : raws.map quoted = ts at h
  induction h generalizing raws with
  | nil hw =>
    rw [List.map_eq_nil_iff.mp hts, takeWhile_of_notMem (hw.not_mem (by simp [Quiet])), hstop, within_white hw hword hne]
    simp [textsBefore, hne]
  | singleton hw hw' =>
    obtain ⟨raw, rfl, rfl⟩ := List.map_eq_singleton_iff.mp hts
    rw [List.append_assoc, within_item hw hw' hword hne, hstop, textsBefore, textsBefore]
    split_ifs <;> simp [hne]
  | cons hw hw' hrest ih =>
    obtain ⟨raw, raws', rfl, rfl, hts'⟩ := List.map_eq_cons_iff.mp hts
    have hlater := ih hts'
    rw [List.append_assoc _ _ (']' :: rest), List.append_assoc, within_item hw hw' hword hne, List.cons_append,
      List.takeWhile_cons_of_pos (by decide), within_cons hcomma hne, textsBefore]
    split_ifs
    · simp
    · rw [List.exists_mem_cons_iff]
      exact or_congr_right hlater

/-! ### The masks -/

/-- The list of permissions of a manifest: an array of the tokens, or the tokens between commas in one string. The
texts are those between the quotes, and the mark is where the search of them ends. -/
inductive PermissionList (json : Text) : Char → List Text → List Text → Prop
  | array {items rest : Text} {raws tokens : List Text}
    (hvalue : jsonValue json "permissions".toList = some (array items ++ rest))
    (hlisted : Listed (raws.map quoted) items) (hspelled : List.Forall₂ Spells raws tokens) :
    PermissionList json ']' raws tokens
  | string {raw rest : Text} {tokens : List Text}
    (hvalue : jsonValue json "permissions".toList = some (quoted raw ++ rest))
    (hspelled : Spells raw ([','].intercalate tokens)) : PermissionList json '"' [raw] tokens

lemma isLower_of_flag : ∀ flag ∈ permissionFlags, (∀ c ∈ flag.1.toList, c.isLower = true) ∧ flag.1.toList ≠ [] := by
  simp [permissionFlags]

/-- The names that are found in a list are those within the texts that are searched. -/
lemma parsePermissions_list {json : Text} {mark : Char} (h : PermissionList json mark raws tokens) :
    parsePermissions json =
      permissionsWhere fun name => (textsBefore mark raws).any fun raw => decide (name <:+: raw) := by
  have hany (name : Text) : ((textsBefore mark raws).any fun raw => decide (name <:+: raw)) =
      decide (∃ raw ∈ textsBefore mark raws, name <:+: raw) := by
    rw [Bool.eq_iff_iff, List.any_eq_true, decide_eq_true_eq]
    simp
  cases h with
  | array hvalue hlisted hspelled =>
    rename_i items rest
    have hlist : array items ++ rest = '[' :: (items ++ ']' :: rest) := by simp [array]
    rw [parsePermissions, hvalue, hlist]
    refine permissionsWhere_congr fun flag hflag => ?_
    obtain ⟨hlower, hne⟩ := isLower_of_flag flag hflag
    have hopen : '[' ∉ flag.1.toList := fun hmem => absurd (hlower _ hmem) (by decide)
    rw [hany, contains, decide_eq_decide, List.takeWhile_cons_of_pos (by decide), within_cons hopen hne]
    exact within_array hlisted hlower hne rest
  | string hvalue hspelled =>
    rename_i raw rest
    have hstring : quoted raw ++ rest = '"' :: (raw ++ '"' :: rest) := by simp [quoted]
    rw [parsePermissions, hvalue, hstring]
    refine permissionsWhere_congr fun flag _ => ?_
    rw [hany, contains, decide_eq_decide, textsBefore]
    split_ifs with hquote
    · rw [takeWhile_of_mem hquote]
      simp
    · rw [takeWhile_mark hquote]
      simp [textsBefore]

/-- The mask of a manifest is the one of its tokens exactly if each name stands within a text that is searched if
and only if a token grants it. -/
theorem permissions_agree_iff {json : Text} {mark : Char} (h : PermissionList json mark raws tokens) :
    parsePermissions json = tokens.foldl (fun m token => m ||| Permissions.parse token) 0 ↔
      ∀ flag ∈ permissionFlags, (∃ raw ∈ textsBefore mark raws, flag.1.toList <:+: raw) ↔
        ∃ token ∈ tokens, Grants token flag.1.toList := by
  rw [parsePermissions_list h, foldl_parse, permissionsWhere_inj]
  refine forall₂_congr fun flag _ => ?_
  rw [Bool.eq_iff_iff, List.any_eq_true, List.any_eq_true]
  simp only [decide_eq_true_eq]

/-! ### Two lists -/

/-- A manifest that has nothing but its list of permissions. -/
def listOnly (tokens : List Text) : Text :=
  object (quoted "permissions".toList ++ ':' :: array ([','].intercalate (tokens.map quoted)))

lemma permissionList_listOnly (hne : tokens ≠ []) (h : ∀ token ∈ tokens, ∀ c ∈ token, Unescaped c) :
    PermissionList (listOnly tokens) ']' tokens tokens := by
  have hvalue : jsonValue (listOnly tokens) "permissions".toList =
      some (array ([','].intercalate (tokens.map quoted)) ++ ['}']) := by
    rw [listOnly]
    simp only [object, quoted, array]
    rfl
  exact .array hvalue (listed_intercalate (by simpa using hne))
    (List.forall₂_same.mpr fun token htoken => spells_of_unescaped (h token htoken))

theorem permissions_agree_named : parsePermissions (listOnly ["radio".toList, "gps".toList]) =
    ["radio".toList, "gps".toList].foldl (fun m token => m ||| Permissions.parse token) 0 :=
  (permissions_agree_iff (permissionList_listOnly (by decide) (by simp [Unescaped]))).mpr (by decide)

/-- A token that names no permission grants one in a manifest if a name is part of it. -/
theorem permissions_disagree : ¬ ∀ json mark raws tokens, PermissionList json mark raws tokens →
    parsePermissions json = tokens.foldl (fun m token => m ||| Permissions.parse token) 0 := by
  intro hall
  have hlist := @permissionList_listOnly ["radiograph".toList] (by decide) (by simp [Unescaped])
  exact absurd (hall _ _ _ _ hlist) (by decide)

end ThistleOS.Manifests
