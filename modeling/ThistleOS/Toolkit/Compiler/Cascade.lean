import ThistleOS.Toolkit.Compiler.Css
import ThistleOS.Except

/-!
# The cascade

What a sheet says of a property is what its last declaration in the order of the cascade says. The compiler
merges the declarations of a rule before those of the sheet, so that the padding of a rule takes the place of
all four sides.
-/

namespace ThistleOS.Toolkit.Compiler

open MsgQueue (Text trim)

variable {F α β γ δ : Type}

/-! ### Properties -/

/-- A property, where each side of the padding is one of its own. -/
inductive Property where
  | field (f : Field)
  | side (s : Side)
  deriving DecidableEq

def Property.Value (F : Type) : Property → Type
  | field f => f.Value F
  | side _ => ℕ

/-- What a style says of a property, if it does not leave it to the widget. Widgets have a padding of zeros. -/
def Style.value (style : Style F) : (p : Property) → Option (p.Value F)
  | .field f => style.field f
  | .side s => some ((style.padding.getD .zero).side s)

namespace Declaration

def value : Declaration F → (p : Property) → Option (p.Value F)
  | field f v, .field g => if h : f = g then some (h ▸ v) else none
  | field .., .side _ => none
  | padding _, .field _ => none
  | padding p, .side s => some (p.side s)
  | side .., .field _ => none
  | side t px, .side s => if t = s then some px else none

def ofPadding : Declaration F → Bool
  | field .. => false
  | padding _ => true
  | side .. => true

end Declaration

/-- A sheet with the declarations of its rules as they are written. -/
abbrev Sheet (F : Type) := List (CssRule (List (Declaration F)))

def declarations (floats : Floats F) (body : Text) (selector : String) :
    Except String (List (Declaration F)) :=
  (declarationTexts body).mapM fun decl => do
    let (name, value) ← nameAndValue decl selector
    Declaration.parse floats name value selector

def sheetOf (floats : Floats F) (css : Text) : Except String (Sheet F) :=
  parseRules (declarations floats) (stripCssComments css) []

/-- Where a declaration stands in the cascade. -/
structure Place where
  specificity : ℕ
  rule : ℕ
  position : ℕ
  deriving DecidableEq

namespace Place

def RuleBefore (a b : Place) : Prop :=
  a.specificity < b.specificity ∨ a.specificity = b.specificity ∧ a.rule < b.rule

def Before (a b : Place) : Prop :=
  a.RuleBefore b ∨ a.specificity = b.specificity ∧ a.rule = b.rule ∧ a.position < b.position

end Place

/-- A rule that matches the node has the declaration at the place. -/
def Occurs (sheet : Sheet F) (node : Head) (place : Place) (d : Declaration F) : Prop :=
  ∃ rule, sheet[place.rule]? = some rule ∧ rule.selector.matchesNode node = true ∧
    rule.selector.specificity = place.specificity ∧ rule.declarations[place.position]? = some d

/-- The last declaration of the property is at the place. -/
def Wins (sheet : Sheet F) (node : Head) (p : Property) (place : Place) (v : p.Value F) : Prop :=
  (∃ d, Occurs sheet node place d ∧ d.value p = some v) ∧
    ∀ place' d, Occurs sheet node place' d → d.value p ≠ none → ¬ place.Before place'

/-- What the cascade makes of a property. -/
def Cascaded (sheet : Sheet F) (node : Head) (p : Property) (v : Option (p.Value F)) : Prop :=
  (∃ place w, Wins sheet node p place w ∧ v = some w) ∨
    ((∀ place d, Occurs sheet node place d → d.value p = none) ∧ v = (initialStyle node).value p)

/-- After the rule that gives a side of the padding, unless it gives zero, no rule that matches the node
declares any padding. -/
def KeepsPadding (sheet : Sheet F) (node : Head) : Prop :=
  ∀ (s : Side) (place : Place) (px : ℕ), Wins sheet node (.side s) place px → px ≠ 0 →
    ∀ place' d, Occurs sheet node place' d → d.ofPadding = true → ¬ place.RuleBefore place'

/-! ### The last of a list -/

section Last

variable {κ : Type} {r : κ → κ → Prop} {f : δ → Option γ} {l : List (κ × δ)} {v : γ}

/-- In a list in order, the last value is that of an entry before no other with a value. -/
lemma getLast?_filterMap_iff (hasymm : ∀ a b, r a b → ¬ r b a)
    (h : l.Pairwise fun x y => r x.1 y.1) :
    (l.filterMap fun x => f x.2).getLast? = some v ↔
      ∃ k, (∃ d, (k, d) ∈ l ∧ f d = some v) ∧ ∀ k' d, (k', d) ∈ l → f d ≠ none → ¬ r k k' := by
  induction l using List.reverseRecOn with
  | nil => simp
  | append_singleton l x ih =>
    obtain ⟨hl, -, hx⟩ := List.pairwise_append.mp h
    rw [List.filterMap_append, List.getLast?_append]
    cases hfx : f x.2 with
    | none =>
      have hnil : [x].filterMap (fun x => f x.2) = [] := by simp [hfx]
      have hmem : ∀ k d, f d ≠ none → ((k, d) ∈ l ++ [x] ↔ (k, d) ∈ l) := by
        intro k d hd
        rw [List.mem_append, List.mem_singleton, or_iff_left]
        rintro rfl
        exact hd hfx
      rw [hnil, List.getLast?_nil, Option.none_or, ih hl]
      refine exists_congr fun k => and_congr (exists_congr fun d => and_congr_left fun hd => ?_) ?_
      · exact (hmem k d (by simp [hd])).symm
      · exact forall_congr' fun k' => forall_congr' fun d =>
          ⟨fun hall hin hd => hall ((hmem k' d hd).mp hin) hd, fun hall hin hd => hall ((hmem k' d hd).mpr hin) hd⟩
    | some w =>
      have hone : [x].filterMap (fun x => f x.2) = [w] := by simp [hfx]
      rw [hone, List.getLast?_singleton, Option.some_or]
      constructor
      · rintro ⟨rfl⟩
        refine ⟨x.1, ⟨x.2, by simp, hfx⟩, fun k d hin _ hafter => ?_⟩
        rcases List.mem_append.mp hin with hin | hin
        · exact hasymm _ _ (hx (k, d) hin x (by simp)) hafter
        · obtain rfl := List.mem_singleton.mp hin
          exact hasymm _ _ hafter hafter
      · rintro ⟨k, ⟨d, hin, hd⟩, hall⟩
        rcases List.mem_append.mp hin with hin | hin
        · exact absurd (hx (k, d) hin x (by simp)) (hall x.1 x.2 (by simp) (by simp [hfx]))
        · obtain rfl := List.mem_singleton.mp hin
          exact hfx.symm.trans hd

end Last

/-! ### Reading -/

namespace CssRule

def map (g : α → β) (rule : CssRule α) : CssRule β := ⟨rule.selector, g rule.declarations, rule.order⟩

end CssRule

/-- The orders of rules are their places. -/
def Numbered (rules : List (CssRule α)) : Prop := rules.map CssRule.order = List.range rules.length

lemma Numbered.concat {rules : List (CssRule α)} (h : Numbered rules) (selector : Selector) (a : α) :
    Numbered (rules ++ [⟨selector, a, rules.length⟩]) := by
  rw [Numbered, List.map_append, h, List.length_append, List.length_singleton, List.range_succ]
  rfl

lemma parseRules_numbered {read : Text → String → Except String α} {rest : Text}
    {rules result : List (CssRule α)} (h : Numbered rules) (hparse : parseRules read rest rules = .ok result) :
    Numbered result := by
  fun_induction parseRules read rest rules with
  | case1 rest rules hblank =>
    obtain rfl := Except.ok.inj hparse
    exact h
  | case2 => cases hparse
  | case3 => cases hparse
  | case4 rest rules hblank before afterOpen hopen selectorText body after hclose hlt ih =>
    obtain ⟨selector, -, hparse⟩ := Except.bind_ok hparse
    obtain ⟨a, -, hparse⟩ := Except.bind_ok hparse
    exact ih selector a (h.concat selector a) hparse

lemma parseRules_rule (read : Text → String → Except String α) {rest before afterOpen body after : Text}
    (rules : List (CssRule α)) (hblank : trim rest ≠ []) (hopen : splitOnce '{' rest = some (before, afterOpen))
    (hclose : splitOnce '}' afterOpen = some (body, after)) :
    parseRules read rest rules = (do
      let selector ← Selector.parse (trim before)
      let declarations ← read body (String.ofList (trim before))
      parseRules read after (rules ++ [⟨selector, declarations, rules.length⟩])) := by
  rw [parseRules, if_neg hblank]
  split
  · rename_i hnone
    cases hopen.symm.trans hnone
  · rename_i before' afterOpen' hsome
    cases hopen.symm.trans hsome
    dsimp only
    split
    · rename_i hnone
      cases hclose.symm.trans hnone
    · rename_i body' after' hsome
      cases hclose.symm.trans hsome
      rfl

/-- What is read from the bodies may be mapped before or after. -/
lemma parseRules_map (g : α → β) (read : Text → String → Except String α) (rest : Text)
    (rules : List (CssRule α)) :
    parseRules (fun body selector => (read body selector).map g) rest (rules.map (CssRule.map g)) =
      (parseRules read rest rules).map (List.map (CssRule.map g)) := by
  fun_induction parseRules read rest rules with
  | case1 rest rules hblank =>
    rw [parseRules, if_pos hblank]
    rfl
  | case2 rest rules hblank hopen =>
    rw [parseRules, if_neg hblank]
    split
    · rfl
    · rename_i hsome
      cases hopen.symm.trans hsome
  | case3 rest rules hblank before afterOpen hopen selectorText hclose =>
    rw [parseRules, if_neg hblank]
    split
    · rename_i hnone
      cases hopen.symm.trans hnone
    · rename_i hsome
      cases hopen.symm.trans hsome
      dsimp only
      split
      · rfl
      · rename_i hsome
        cases hclose.symm.trans hsome
  | case4 rest rules hblank before afterOpen hopen selectorText body after hclose hlt ih =>
    rw [parseRules_rule _ _ hblank hopen hclose]
    cases Selector.parse (trim before) with
    | error e => rfl
    | ok selector =>
      cases read body (String.ofList (trim before)) with
      | error e =>
        simp only [Except.ok_bind]
        rfl
      | ok a =>
        simp only [Except.ok_bind]
        have hmap := ih selector a
        rw [List.map_append, List.map_singleton] at hmap
        rw [← hmap, List.length_map]
        rfl

/-- Steps that are read one by one may be read first and then made. -/
lemma foldlM_eq_map_mapM {ε : Type} (read : γ → Except ε δ) (step : β → δ → β) (l : List γ) (b : β) :
    l.foldlM (fun b c => do return step b (← read c)) b = (l.mapM read).map fun ds => ds.foldl step b := by
  induction l generalizing b with
  | nil => rfl
  | cons c l ih =>
    rw [List.foldlM_cons, List.mapM_cons]
    cases read c with
    | error e => rfl
    | ok d =>
      simp only [Except.ok_bind]
      refine (ih (step b d)).trans ?_
      cases l.mapM read <;> rfl

/-- The style that a rule is merged to. -/
def styleOf (ds : List (Declaration F)) : Style F := ds.foldl Declaration.apply .default

lemma parseDeclarations_eq (floats : Floats F) (body : Text) (selector : String) :
    parseDeclarations floats body selector = (declarations floats body selector).map styleOf := by
  refine Eq.trans ?_ (foldlM_eq_map_mapM _ _ _ _)
  rw [parseDeclarations]
  congr 1
  funext style decl
  cases nameAndValue decl selector <;> rfl

lemma parseCss_eq (floats : Floats F) (css : Text) :
    parseCss floats css = (sheetOf floats css).map (List.map (CssRule.map styleOf)) := by
  rw [sheetOf, ← parseRules_map styleOf]
  exact congrArg (parseRules · (stripCssComments css) [])
    (funext₂ fun body selector => parseDeclarations_eq floats body selector)

/-! ### Places -/

namespace Place

variable {a b : Place}

lemma RuleBefore.asymm (h : a.RuleBefore b) : ¬ b.RuleBefore a := by
  simp only [RuleBefore] at *
  omega

lemma Before.asymm (h : a.Before b) : ¬ b.Before a := by
  simp only [Before, RuleBefore] at *
  omega

end Place

/-- The declarations of a rule with their places. -/
def placedIn (rule : CssRule (List (Declaration F))) : List (Place × Declaration F) :=
  rule.declarations.zipIdx.map fun x => (⟨rule.selector.specificity, rule.order, x.2⟩, x.1)

def placed (rules : Sheet F) : List (Place × Declaration F) := rules.flatMap placedIn

lemma mem_placedIn {rule : CssRule (List (Declaration F))} {place : Place} {d : Declaration F} :
    (place, d) ∈ placedIn rule ↔ rule.selector.specificity = place.specificity ∧ rule.order = place.rule ∧
      rule.declarations[place.position]? = some d := by
  rw [placedIn, List.mem_map]
  constructor
  · rintro ⟨⟨d', i⟩, hmem, heq⟩
    obtain ⟨rfl, rfl⟩ := Prod.mk.inj heq
    exact ⟨rfl, rfl, List.mem_zipIdx_iff_getElem?.mp hmem⟩
  · rintro ⟨hspecificity, hrule, hget⟩
    refine ⟨(d, place.position), List.mem_zipIdx_iff_getElem?.mpr hget, ?_⟩
    rw [hspecificity, hrule]

lemma map_snd_placedIn (rule : CssRule (List (Declaration F))) :
    (placedIn rule).map Prod.snd = rule.declarations := by
  rw [placedIn, List.map_map]
  exact List.zipIdx_map_fst 0 rule.declarations

lemma mem_matching {rules : List (CssRule α)} {node : Head} {rule : CssRule α} :
    rule ∈ matching rules node ↔ rule ∈ rules ∧ rule.selector.matchesNode node = true := by
  rw [matching, List.mem_insertionSort, List.mem_filter]

lemma Numbered.getElem?_iff {rules : List (CssRule α)} (h : Numbered rules) {i : ℕ} {rule : CssRule α} :
    rules[i]? = some rule ↔ rule ∈ rules ∧ rule.order = i := by
  have horder : ∀ (j : ℕ) (r : CssRule α), rules[j]? = some r → r.order = j := by
    intro j r hget
    have hmap : (rules.map CssRule.order)[j]? = some r.order := by rw [List.getElem?_map, hget]; rfl
    rw [h, List.getElem?_range (List.getElem?_eq_some_iff.mp hget).1] at hmap
    exact (Option.some.inj hmap).symm
  constructor
  · exact fun hget => ⟨List.mem_of_getElem? hget, horder i rule hget⟩
  · rintro ⟨hmem, rfl⟩
    obtain ⟨j, hget⟩ := List.mem_iff_getElem?.mp hmem
    rwa [horder j rule hget]

lemma mem_placed {sheet : Sheet F} (h : Numbered sheet) {node : Head} {place : Place} {d : Declaration F} :
    (place, d) ∈ placed (matching sheet node) ↔ Occurs sheet node place d := by
  rw [placed, List.mem_flatMap, Occurs]
  refine exists_congr fun rule => ?_
  rw [mem_matching, mem_placedIn, h.getElem?_iff]
  constructor
  · exact fun ⟨⟨hmem, hmatch⟩, hspecificity, hrule, hget⟩ => ⟨⟨hmem, hrule⟩, hmatch, hspecificity, hget⟩
  · exact fun ⟨⟨hmem, hrule⟩, hmatch, hspecificity, hget⟩ => ⟨⟨hmem, hmatch⟩, hspecificity, hrule, hget⟩

/-- The rules of the cascade come one after another. -/
def InCascade (rules : List (CssRule α)) : Prop :=
  rules.Pairwise fun a b => a.selector.specificity < b.selector.specificity ∨
    a.selector.specificity = b.selector.specificity ∧ a.order < b.order

lemma Numbered.inCascade_matching {rules : List (CssRule α)} (h : Numbered rules) (node : Head) :
    InCascade (matching rules node) := by
  let r (a b : CssRule α) : Prop :=
    toLex (a.selector.specificity, a.order) ≤ toLex (b.selector.specificity, b.order)
  have : Std.Total r := ⟨fun a b => le_total _ _⟩
  have : IsTrans (CssRule α) r := ⟨fun a b c => le_trans⟩
  have hsorted : (matching rules node).Pairwise r := List.pairwise_insertionSort r _
  have hnodup : ((rules.filter fun rule => rule.selector.matchesNode node).map CssRule.order).Nodup := by
    refine List.Nodup.sublist (List.filter_sublist.map _) ?_
    rw [h]
    exact List.nodup_range
  have hdistinct : ((matching rules node).map CssRule.order).Nodup :=
    ((List.perm_insertionSort _ _).map _).nodup_iff.mpr hnodup
  rw [List.Nodup, List.pairwise_map] at hdistinct
  refine hsorted.imp₂ (fun a b hle hne => ?_) hdistinct
  rcases Prod.Lex.toLex_le_toLex.mp hle with hlt | ⟨heq, hle⟩
  · exact .inl hlt
  · exact .inr ⟨heq, Nat.lt_of_le_of_ne hle hne⟩

lemma InCascade.placed {rules : Sheet F} (h : InCascade rules) :
    (placed rules).Pairwise fun x y => x.1.Before y.1 := by
  rw [Compiler.placed, List.pairwise_flatMap]
  refine ⟨fun rule _ => ?_, h.imp fun hbefore x hx y hy => ?_⟩
  · have hpositions : (rule.declarations.zipIdx.map Prod.snd).Pairwise (· < ·) := by
      rw [List.zipIdx_map_snd]
      exact List.pairwise_lt_range' 1
    rw [placedIn, List.pairwise_map]
    exact (List.pairwise_map.mp hpositions).imp fun hlt => .inr ⟨rfl, rfl, hlt⟩
  · obtain ⟨hx, hx', -⟩ := mem_placedIn.mp hx
    obtain ⟨hy, hy', -⟩ := mem_placedIn.mp hy
    rw [hx, hx', hy, hy'] at hbefore
    exact .inl hbefore

/-! ### The last declaration -/

/-- What the last declaration of a property gives. -/
def last (p : Property) (ds : List (Declaration F)) : Option (p.Value F) := (ds.filterMap (·.value p)).getLast?

lemma last_append (p : Property) (ds ds' : List (Declaration F)) :
    last p (ds ++ ds') = (last p ds').or (last p ds) := by
  rw [last, List.filterMap_append, List.getLast?_append]
  rfl

lemma last_concat (p : Property) (ds : List (Declaration F)) (d : Declaration F) :
    last p (ds ++ [d]) = (d.value p).or (last p ds) := by
  rw [last_append]
  cases h : d.value p <;> simp [last, h]

lemma last_eq_none_iff {p : Property} {ds : List (Declaration F)} :
    last p ds = none ↔ ∀ d ∈ ds, d.value p = none := by
  rw [last, List.getLast?_eq_none_iff, List.filterMap_eq_nil_iff]

/-- The declarations of a sheet, one rule after another. -/
def flat (rules : Sheet F) : List (Declaration F) := rules.flatMap CssRule.declarations

lemma map_snd_placed (rules : Sheet F) : (placed rules).map Prod.snd = flat rules := by
  rw [placed, List.map_flatMap, flat]
  exact congrArg (List.flatMap · rules) (funext map_snd_placedIn)

/-- The last declaration of the property in a list is at the place. -/
def WinsIn (l : List (Place × Declaration F)) (p : Property) (place : Place) (v : p.Value F) : Prop :=
  (∃ d, (place, d) ∈ l ∧ d.value p = some v) ∧
    ∀ place' d, (place', d) ∈ l → d.value p ≠ none → ¬ place.Before place'

lemma wins_iff {sheet : Sheet F} (h : Numbered sheet) {node : Head} {p : Property} {place : Place}
    {v : p.Value F} : Wins sheet node p place v ↔ WinsIn (placed (matching sheet node)) p place v := by
  simp only [Wins, WinsIn, mem_placed h]

lemma InCascade.last_eq_some_iff {rules : Sheet F} (h : InCascade rules) {p : Property} {v : p.Value F} :
    last p (flat rules) = some v ↔ ∃ place, WinsIn (Compiler.placed rules) p place v := by
  have hlast := getLast?_filterMap_iff (r := Place.Before) (f := fun d : Declaration F => d.value p)
    (v := v) (fun _ _ => Place.Before.asymm) h.placed
  rw [last, ← map_snd_placed, List.filterMap_map]
  exact hlast

/-- The cascade gives the last declaration of the rules that match. -/
lemma cascaded_iff {sheet : Sheet F} (h : Numbered sheet) {node : Head} {p : Property}
    {v : Option (p.Value F)} :
    Cascaded sheet node p v ↔ v = (last p (flat (matching sheet node))).or ((initialStyle node).value p) := by
  have hcascade := h.inCascade_matching node
  rw [Cascaded]
  cases hlast : last p (flat (matching sheet node)) with
  | none =>
    have hnone : ∀ place d, Occurs sheet node place d → d.value p = none := by
      intro place d hoccurs
      refine last_eq_none_iff.mp hlast d ?_
      rw [← map_snd_placed]
      exact List.mem_map_of_mem ((mem_placed h).mpr hoccurs)
    rw [Option.none_or, and_iff_right hnone]
    refine or_iff_right ?_
    rintro ⟨place, w, ⟨⟨d, hoccurs, hd⟩, -⟩, -⟩
    rw [hnone place d hoccurs] at hd
    cases hd
  | some w =>
    obtain ⟨place, hwins⟩ := hcascade.last_eq_some_iff.mp hlast
    rw [Option.some_or]
    constructor
    · rintro (⟨place', w', hwins', rfl⟩ | ⟨hnone, -⟩)
      · rw [← hlast]
        exact (hcascade.last_eq_some_iff.mpr ⟨place', (wins_iff h).mp hwins'⟩).symm
      · obtain ⟨⟨d, hmem, hd⟩, -⟩ := hwins
        rw [hnone place d ((mem_placed h).mp hmem)] at hd
        cases hd
    · rintro rfl
      exact .inl ⟨place, w, (wins_iff h).mpr hwins, rfl⟩

/-! ### Merging -/

lemma field_apply (style : Style F) (d : Declaration F) (f : Field) :
    (d.apply style).value (.field f) = (d.value (.field f)).or (style.value (.field f)) := by
  cases d with
  | field g v =>
    rw [Declaration.value]
    by_cases h : g = f
    · subst h
      rw [dif_pos rfl, Option.some_or]
      exact Function.update_self g (some v) style.field
    · rw [dif_neg h, Option.none_or]
      exact Function.update_of_ne (Ne.symm h) (some v) style.field
  | padding p => rfl
  | side s px => rfl

lemma side_apply (style : Style F) (d : Declaration F) (s : Side) :
    (((d.apply style).padding).getD .zero).side s =
      (d.value (.side s)).getD ((style.padding.getD .zero).side s) := by
  cases d with
  | field g v => rfl
  | padding p => rfl
  | side t px => cases t <;> cases s <;> rfl

lemma padding_apply (style : Style F) (d : Declaration F) :
    (d.apply style).padding.isSome = (d.ofPadding || style.padding.isSome) := by
  cases d <;> rfl

lemma field_styleOf (ds : List (Declaration F)) (f : Field) :
    (styleOf ds).value (.field f) = last (.field f) ds := by
  induction ds using List.reverseRecOn with
  | nil => rfl
  | append_singleton ds d ih =>
    rw [styleOf, List.foldl_concat, field_apply, ← styleOf, ih, last_concat]

/-- The last width that is declared for a side. -/
def lastSide (s : Side) (ds : List (Declaration F)) : Option ℕ := last (.side s) ds

lemma lastSide_append (s : Side) (ds ds' : List (Declaration F)) :
    lastSide s (ds ++ ds') = (lastSide s ds').or (lastSide s ds) := last_append (.side s) ds ds'

lemma side_styleOf (ds : List (Declaration F)) (s : Side) :
    ((styleOf ds).padding.getD .zero).side s = (lastSide s ds).getD 0 := by
  induction ds using List.reverseRecOn with
  | nil => cases s <;> rfl
  | append_singleton ds d ih =>
    rw [styleOf, List.foldl_concat, side_apply, ← styleOf, ih, lastSide, lastSide, last_concat]
    cases d.value (.side s) <;> rfl

lemma padding_styleOf (ds : List (Declaration F)) :
    (styleOf ds).padding.isSome = ds.any Declaration.ofPadding := by
  induction ds using List.reverseRecOn with
  | nil => rfl
  | append_singleton ds d ih =>
    rw [styleOf, List.foldl_concat, padding_apply, ← styleOf, ih, List.any_append, List.any_cons, List.any_nil,
      Bool.or_false, Bool.or_comm]

/-- What the compiler makes of the rules that match. -/
def merged (style : Style F) (rules : Sheet F) : Style F :=
  rules.foldl (fun style rule => style.mergeFrom (styleOf rule.declarations)) style

lemma merged_concat (style : Style F) (rules : Sheet F) (rule : CssRule (List (Declaration F))) :
    merged style (rules ++ [rule]) = (merged style rules).mergeFrom (styleOf rule.declarations) := by
  rw [merged, List.foldl_concat]
  rfl

lemma applyStylesToNode_map (sheet : Sheet F) (node : Head) :
    applyStylesToNode (sheet.map (CssRule.map styleOf)) node =
      merged (initialStyle node) (matching sheet node) := by
  have hfilter : (sheet.map (CssRule.map styleOf)).filter (fun rule => rule.selector.matchesNode node) =
      (sheet.filter fun rule => rule.selector.matchesNode node).map (CssRule.map styleOf) := by
    rw [List.filter_map]
    rfl
  rw [applyStylesToNode, matching, hfilter, ← List.map_insertionSort
    (fun a b : CssRule (List (Declaration F)) =>
      toLex (a.selector.specificity, a.order) ≤ toLex (b.selector.specificity, b.order)), List.foldl_map]
  · rfl
  · exact fun _ _ _ _ => Iff.rfl

lemma flat_concat (rules : Sheet F) (rule : CssRule (List (Declaration F))) :
    flat (rules ++ [rule]) = flat rules ++ rule.declarations := by
  rw [flat, List.flatMap_append, List.flatMap_singleton]
  rfl

lemma field_merged (style : Style F) (rules : Sheet F) (f : Field) :
    (merged style rules).value (.field f) = (last (.field f) (flat rules)).or (style.value (.field f)) := by
  induction rules using List.reverseRecOn with
  | nil => rfl
  | append_singleton rules rule ih =>
    have hmerge : ((merged style rules).mergeFrom (styleOf rule.declarations)).value (.field f) =
        ((styleOf rule.declarations).value (.field f)).or ((merged style rules).value (.field f)) := rfl
    rw [merged_concat, hmerge, field_styleOf, ih, flat_concat, last_append, Option.or_assoc]

/-! ### The padding -/

lemma value_side_of_not_padding {d : Declaration F} (h : d.ofPadding = false) (s : Side) :
    d.value (.side s) = none := by
  cases d with
  | field f v => rfl
  | padding p => cases h
  | side t px => cases h

lemma winsIn_append_iff {l l' : List (Place × Declaration F)} {p : Property} (h : ∀ x ∈ l', x.2.value p = none)
    {place : Place} {v : p.Value F} : WinsIn (l ++ l') p place v ↔ WinsIn l p place v := by
  have hmem : ∀ place d, d.value p ≠ none → ((place, d) ∈ l ++ l' ↔ (place, d) ∈ l) := by
    intro place d hd
    rw [List.mem_append]
    exact or_iff_left fun hin => hd (h (place, d) hin)
  refine and_congr (exists_congr fun d => and_congr_left fun hd => hmem place d (by simp [hd])) ?_
  exact forall_congr' fun place' => forall_congr' fun d =>
    ⟨fun hall hin hd => hall ((hmem place' d hd).mpr hin) hd, fun hall hin hd => hall ((hmem place' d hd).mp hin) hd⟩

/-- No padding of a later rule takes the place of a side that is not zero. -/
def SideKept (s : Side) (l : List (Place × Declaration F)) : Prop :=
  ∀ (place : Place) (px : ℕ), WinsIn l (.side s) place px → px ≠ 0 →
    ∀ place' d, (place', d) ∈ l → d.ofPadding = true → ¬ place.RuleBefore place'

lemma keepsPadding_iff {sheet : Sheet F} (h : Numbered sheet) (node : Head) :
    KeepsPadding sheet node ↔ ∀ s, SideKept s (placed (matching sheet node)) := by
  refine forall_congr' fun s => forall_congr' fun place => forall_congr' fun px => imp_congr (wins_iff h) ?_
  simp only [mem_placed h]

lemma placed_concat (rules : Sheet F) (rule : CssRule (List (Declaration F))) :
    placed (rules ++ [rule]) = placed rules ++ placedIn rule := by
  rw [placed, List.flatMap_append, List.flatMap_singleton]
  rfl

lemma mem_declarations {rule : CssRule (List (Declaration F))} {d : Declaration F} :
    d ∈ rule.declarations ↔ ∃ place, (place, d) ∈ placedIn rule := by
  rw [← map_snd_placedIn, List.mem_map]
  constructor
  · rintro ⟨x, hmem, rfl⟩
    exact ⟨x.1, hmem⟩
  · rintro ⟨place, hmem⟩
    exact ⟨_, hmem, rfl⟩

/-- The sides of a rule that declares any take the place of those before. -/
lemma side_merged_concat (style : Style F) (rules : Sheet F) (rule : CssRule (List (Declaration F))) (s : Side) :
    ((merged style (rules ++ [rule])).padding.getD .zero).side s =
      if rule.declarations.any Declaration.ofPadding then (lastSide s rule.declarations).getD 0
      else ((merged style rules).padding.getD .zero).side s := by
  rw [merged_concat, ← padding_styleOf, ← side_styleOf, Style.mergeFrom]
  cases (styleOf rule.declarations).padding <;> rfl

lemma ruleBefore_of_concat {rules : Sheet F} {rule : CssRule (List (Declaration F))}
    (h : InCascade (rules ++ [rule])) {x y : Place × Declaration F} (hx : x ∈ placed rules)
    (hy : y ∈ placedIn rule) : x.1.RuleBefore y.1 := by
  obtain ⟨earlier, hmem, hx⟩ := List.mem_flatMap.mp hx
  obtain ⟨hx, hx', -⟩ := mem_placedIn.mp hx
  obtain ⟨hy, hy', -⟩ := mem_placedIn.mp hy
  have hrules := (List.pairwise_append.mp h).2.2 earlier hmem rule (List.mem_singleton.mpr rfl)
  rw [hx, hx', hy, hy'] at hrules
  exact hrules

/-- A side that the last rule declares is kept. -/
lemma sideKept_of_declared {rules : Sheet F} {rule : CssRule (List (Declaration F))}
    (h : InCascade (rules ++ [rule])) {s : Side} {place : Place} {d : Declaration F}
    (hd : (place, d) ∈ placedIn rule) (hvalue : d.value (.side s) ≠ none) :
    SideKept s (placed (rules ++ [rule])) := by
  rw [placed_concat]
  rintro winner px ⟨⟨dw, hwinner, -⟩, hlast⟩ - place' d' hin - hafter
  rcases List.mem_append.mp hwinner with hwinner | hwinner
  · exact hlast place d (List.mem_append_right _ hd) hvalue (.inl (ruleBefore_of_concat h hwinner hd))
  · rcases List.mem_append.mp hin with hin | hin
    · exact (ruleBefore_of_concat h hin hwinner).asymm hafter
    · obtain ⟨hwinner, hwinner', -⟩ := mem_placedIn.mp hwinner
      obtain ⟨hin, hin', -⟩ := mem_placedIn.mp hin
      simp only [Place.RuleBefore] at hafter
      omega

/-- A rule that declares a side declares it as some of the padding. -/
lemma declares_of_lastSide {ds : List (Declaration F)} {s : Side} {px : ℕ} (h : lastSide s ds = some px) :
    ∃ d ∈ ds, d.value (.side s) ≠ none ∧ d.ofPadding = true := by
  by_contra hno
  have hnone : lastSide s ds = none := by
    refine last_eq_none_iff.mpr fun d hd => ?_
    by_contra hvalue
    refine hno ⟨d, hd, hvalue, ?_⟩
    by_contra hpadding
    exact hvalue (value_side_of_not_padding (Bool.eq_false_of_not_eq_true hpadding) s)
  rw [h] at hnone
  cases hnone

lemma side_merged_iff {rules : Sheet F} (h : InCascade rules) {style : Style F} (hstyle : style.padding = none)
    (s : Side) :
    ((merged style rules).padding.getD .zero).side s = (lastSide s (flat rules)).getD 0 ↔
      SideKept s (placed rules) := by
  induction rules using List.reverseRecOn with
  | nil =>
    refine iff_of_true ?_ ?_
    · rw [merged, List.foldl_nil, hstyle]
      cases s <;> rfl
    · rintro place px ⟨⟨d, hmem, -⟩, -⟩
      cases hmem
  | append_singleton rules rule ih =>
    have hrules : InCascade rules := (List.pairwise_append.mp h).1
    rw [side_merged_concat, flat_concat, lastSide_append]
    cases hlast : lastSide s rule.declarations with
    | some px =>
      -- the rule declares the side
      obtain ⟨d, hd, hvalue, hpadding⟩ := declares_of_lastSide hlast
      obtain ⟨place, hplace⟩ := mem_declarations.mp hd
      rw [if_pos (List.any_eq_true.mpr ⟨d, hd, hpadding⟩), Option.some_or]
      exact iff_of_true rfl (sideKept_of_declared h hplace hvalue)
    | none =>
      have hnone : ∀ x ∈ placedIn rule, x.2.value (.side s) = none := fun x hx =>
        last_eq_none_iff.mp hlast x.2 (mem_declarations.mpr ⟨x.1, hx⟩)
      rw [Option.none_or, placed_concat]
      by_cases hany : rule.declarations.any Declaration.ofPadding = true
      · -- the rule declares other sides, and this one becomes zero
        obtain ⟨d, hd, hpadding⟩ := List.any_eq_true.mp hany
        obtain ⟨place, hplace⟩ := mem_declarations.mp hd
        rw [if_pos hany, Option.getD_none]
        constructor
        · intro hzero winner px hwins hpx
          have hsome : lastSide s (flat rules) = some px :=
            hrules.last_eq_some_iff.mpr ⟨winner, (winsIn_append_iff hnone).mp hwins⟩
          rw [hsome] at hzero
          exact absurd hzero.symm hpx
        · intro hkept
          cases hflat : lastSide s (flat rules) with
          | none => rfl
          | some px =>
            obtain ⟨winner, hwins⟩ := hrules.last_eq_some_iff.mp hflat
            by_contra hpx
            obtain ⟨dw, hwinner, -⟩ := hwins.1
            refine hkept winner px ((winsIn_append_iff hnone).mpr hwins) (Ne.symm hpx) place d
              (List.mem_append_right _ hplace) hpadding ?_
            exact ruleBefore_of_concat h hwinner hplace
      · have hno : ∀ x ∈ placedIn rule, x.2.ofPadding = false := fun x hx =>
          Bool.eq_false_of_not_eq_true fun htrue =>
            hany (List.any_eq_true.mpr ⟨x.2, mem_declarations.mpr ⟨x.1, hx⟩, htrue⟩)
        rw [if_neg hany, ih hrules]
        refine forall_congr' fun winner => forall_congr' fun px => imp_congr (winsIn_append_iff hnone).symm ?_
        refine imp_congr_right fun _ => forall_congr' fun place => forall_congr' fun d => ?_
        rw [List.mem_append]
        exact ⟨fun hall hin hpadding => hall (hin.resolve_right fun hin =>
            absurd hpadding (by simp [hno (place, d) hin])) hpadding,
          fun hall hin => hall (.inl hin)⟩

/-! ### The sheets that are accepted -/

lemma value_side_initialStyle (node : Head) (s : Side) :
    (initialStyle node : Style F).value (.side s) = some (0 : ℕ) := by
  cases s <;> rfl

lemma side_cascaded_iff (style : Style F) (node : Head) (ds : List (Declaration F)) (s : Side) :
    style.value (.side s) = (last (.side s) ds).or ((initialStyle node).value (.side s)) ↔
      (style.padding.getD .zero).side s = (lastSide s ds).getD 0 := by
  rw [value_side_initialStyle, lastSide]
  cases last (.side s) ds with
  | none => exact Option.some_inj
  | some px => exact Option.some_inj

lemma parseCss_eq_ok {floats : Floats F} {css : Text} {rules : List (CssRule (Style F))}
    (h : parseCss floats css = .ok rules) :
    ∃ sheet, sheetOf floats css = .ok sheet ∧ Numbered sheet ∧ rules = sheet.map (CssRule.map styleOf) := by
  rw [parseCss_eq] at h
  cases hsheet : sheetOf floats css with
  | error e =>
    rw [hsheet] at h
    cases h
  | ok sheet =>
    rw [hsheet] at h
    exact ⟨sheet, rfl, parseRules_numbered (show Numbered [] from rfl) hsheet, (Except.ok.inj h).symm⟩

/-- A sheet that is accepted gives to a node what its declarations say in the order of the cascade exactly if it
keeps the padding. -/
theorem cascaded_all_iff {floats : Floats F} {css : Text} {rules : List (CssRule (Style F))}
    (h : parseCss floats css = .ok rules) :
    ∃ sheet, sheetOf floats css = .ok sheet ∧ ∀ node,
      (∀ p, Cascaded sheet node p ((applyStylesToNode rules node).value p)) ↔ KeepsPadding sheet node := by
  obtain ⟨sheet, hsheet, hnumbered, rfl⟩ := parseCss_eq_ok h
  refine ⟨sheet, hsheet, fun node => ?_⟩
  have hfield : ∀ f, Cascaded sheet node (.field f)
      ((applyStylesToNode (sheet.map (CssRule.map styleOf)) node).value (.field f)) := by
    intro f
    rw [cascaded_iff hnumbered, applyStylesToNode_map, field_merged]
  have hside : ∀ s, Cascaded sheet node (.side s)
      ((applyStylesToNode (sheet.map (CssRule.map styleOf)) node).value (.side s)) ↔
        SideKept s (placed (matching sheet node)) := by
    intro s
    rw [cascaded_iff hnumbered, applyStylesToNode_map, side_cascaded_iff]
    exact side_merged_iff (hnumbered.inCascade_matching node) rfl s
  rw [keepsPadding_iff hnumbered]
  constructor
  · exact fun hall s => (hside s).mp (hall (.side s))
  · rintro hkept (f | s)
    · exact hfield f
    · exact (hside s).mpr (hkept s)

/-- Nothing is a number with a fraction. -/
def noFloats : Floats Unit := ⟨fun _ => .error "invalid float literal", id⟩

def label : Head := ⟨.label, some "b", ["a"], []⟩

def twoPaddings : Text := ".a \x7b padding: 10px \x7d #b \x7b padding-top: 4px \x7d".toList

lemma twoPaddings_accepted : ∃ rules, parseCss noFloats twoPaddings = .ok rules := by
  have haccepted : (parseCss noFloats twoPaddings).toOption.isSome = true := by decide +kernel
  cases hparse : parseCss noFloats twoPaddings with
  | error e =>
    rw [hparse] at haccepted
    cases haccepted
  | ok rules => exact ⟨rules, rfl⟩

theorem cascaded_all_label :
    ∃ rules sheet, parseCss noFloats twoPaddings = .ok rules ∧ sheetOf noFloats twoPaddings = .ok sheet ∧
      ((∀ p, Cascaded sheet label p ((applyStylesToNode rules label).value p)) ↔ KeepsPadding sheet label) := by
  obtain ⟨rules, hparse⟩ := twoPaddings_accepted
  obtain ⟨sheet, hsheet, hall⟩ := cascaded_all_iff hparse
  exact ⟨rules, sheet, hparse, hsheet, hall label⟩

/-- The padding of the second rule takes the place of the right side that the first one gives. -/
theorem two_paddings_not_cascaded :
    ∃ rules sheet, parseCss noFloats twoPaddings = .ok rules ∧ sheetOf noFloats twoPaddings = .ok sheet ∧
      ¬ ∀ p, Cascaded sheet label p ((applyStylesToNode rules label).value p) := by
  obtain ⟨rules, hparse⟩ := twoPaddings_accepted
  obtain ⟨sheet, hsheet, hnumbered, -⟩ := parseCss_eq_ok hparse
  refine ⟨rules, sheet, hparse, hsheet, fun hall => ?_⟩
  have hstyle : (parseCss noFloats twoPaddings).map (fun rules => (applyStylesToNode rules label).padding) =
      .ok (some ⟨4, 0, 0, 0⟩) := by decide +kernel
  have hlast : (sheetOf noFloats twoPaddings).map (fun sheet => lastSide .right (flat (matching sheet label))) =
      .ok (some 10) := by decide +kernel
  rw [hparse] at hstyle
  rw [hsheet] at hlast
  have hpadding : (applyStylesToNode rules label).padding = some ⟨4, 0, 0, 0⟩ := Except.ok.inj hstyle
  have hten : lastSide .right (flat (matching sheet label)) = some 10 := Except.ok.inj hlast
  have hright := (side_cascaded_iff _ _ _ _).mp ((cascaded_iff hnumbered).mp (hall (.side .right)))
  rw [hpadding, hten] at hright
  cases hright

end ThistleOS.Toolkit.Compiler
