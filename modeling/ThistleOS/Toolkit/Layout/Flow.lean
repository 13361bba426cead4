import Mathlib
import ThistleOS.Toolkit.Layout.Percent

/-!
# Children in the flow

The children follow one another along the axis with at least the gap between two of them. What is given to the
children that grow is no more than what remains, so that all lie inside the container if the fixed ones do.
-/

namespace ThistleOS.Toolkit.Layout

/-- As many children a widget can have. -/
def maxChildren : ℕ := 32

namespace Widget

/-- Where a widget begins along an axis. -/
def mainStart (direction : Direction) (w : Widget) : ℤ :=
  match direction with
  | .row => w.pos.x.toInt
  | .column => w.pos.y.toInt

def mainEnd (direction : Direction) (w : Widget) : ℤ :=
  w.mainStart direction + (mainSize direction w.size.w w.size.h).toNat

/-- The widget begins at least the gap after the end of another one. -/
def After (c : ContainerWidget) (w other : Widget) : Prop :=
  other.mainEnd c.direction + c.gap.toNat ≤ w.mainStart c.direction

end Widget

namespace Rect

def mainStart (direction : Direction) (r : Rect) : ℤ :=
  match direction with
  | .row => r.x.toInt
  | .column => r.y.toInt

def mainLength (direction : Direction) (r : Rect) : ℕ := (mainSize direction r.w r.h).toNat

def mainEnd (direction : Direction) (r : Rect) : ℤ := r.mainStart direction + r.mainLength direction

end Rect

/-- A hint that is no percentage, with a positive weight if the child grows. -/
def Plain : SizeHint → Prop
  | .fixed _ => True
  | .percent _ => False
  | .flex weight => 0 < weight
  | .auto => True

def fixedSize : SizeHint → ℕ
  | .fixed px => px.toNat
  | _ => 0

/-- What the fixed children and the gaps take of the axis. -/
def fixedTotal (c : ContainerWidget) (children : List Widget) : ℕ :=
  (children.map fun child => fixedSize (child.mainHint c.direction)).sum + c.gap.toNat * (children.length - 1)

/-- The children in the flow, as they are after the layout or before. -/
def flowOf (children : List UiNode) : List UiNode := children.filter fun child => child.widget.inFlow

/-- Nothing leaves the range of the coordinates. -/
structure InRange (c : ContainerWidget) (content : Rect) (children : List Widget) : Prop where
  length : content.mainLength c.direction < 2147483648
  fixed : fixedTotal c children < 2147483648
  contentEnd : content.mainStart c.direction + content.mainLength c.direction < 2147483648
  fixedEnd : content.mainStart c.direction + fixedTotal c children < 2147483648

/-! ### Machine integers -/

lemma toInt_add_of_mem {a b : Int32} (h : -2147483648 ≤ a.toInt + b.toInt) (h' : a.toInt + b.toInt < 2147483648) :
    (a + b).toInt = a.toInt + b.toInt := by
  rw [Int32.toInt_add]
  exact Int.bmod_eq_of_le (by simpa using h) (by simpa using h')

lemma toInt_toInt32 {a : UInt32} (h : a.toNat < 2147483648) : a.toInt32.toInt = a.toNat :=
  BitVec.toInt_eq_toNat_of_lt (x := a.toBitVec) (by change 2 * a.toNat < _; omega)

lemma toInt_gap (gap : UInt16) : gap.toUInt32.toInt32.toInt = gap.toNat := by
  have hlt : gap.toUInt32.toNat < 2147483648 := by
    rw [UInt16.toNat_toUInt32]
    exact gap.toNat_lt.trans (by decide)
  rw [toInt_toInt32 hlt, UInt16.toNat_toUInt32]

lemma toNat_saturatingSub (a b : UInt32) : (saturatingSub a b).toNat = a.toNat - b.toNat := by
  rw [saturatingSub]
  by_cases h : b ≤ a
  · rw [if_pos h, UInt32.toNat_sub_of_le _ _ h]
  · rw [if_neg h]
    have hlt : a.toNat < b.toNat := by simpa [UInt32.le_iff_toNat_le] using h
    exact (Nat.sub_eq_zero_of_le hlt.le).symm

lemma toNat_foldl_main (infos : List ChildInfo) (start : UInt32)
    (h : start.toNat + (infos.map fun info => info.main.toNat).sum < 4294967296) :
    (infos.foldl (fun sum info => sum + info.main) start).toNat =
      start.toNat + (infos.map fun info => info.main.toNat).sum := by
  induction infos generalizing start with
  | nil => rfl
  | cons info infos ih =>
    rw [List.map_cons, List.sum_cons] at h
    have hadd : (start + info.main).toNat = start.toNat + info.main.toNat := by
      rw [UInt32.toNat_add]
      exact Nat.mod_eq_of_lt (by omega)
    rw [List.foldl_cons, ih _ (by omega), hadd, List.map_cons, List.sum_cons, Nat.add_assoc]

lemma toNat_sumMain {infos : List ChildInfo} (h : (infos.map fun info => info.main.toNat).sum < 4294967296) :
    (sumMain infos).toNat = (infos.map fun info => info.main.toNat).sum := by
  rw [sumMain, toNat_foldl_main infos 0 (by simpa using h)]
  simp

lemma sumFlex_eq (infos : List ChildInfo) : sumFlex infos = (infos.map ChildInfo.flex).sum := by
  rw [List.sum_eq_foldl, List.foldl_map]
  rfl

/-! ### The sizes along the axis -/

section Sizes

variable {c : ContainerWidget} {content : Rect} {children : List Widget}

lemma toNat_ofNat_sub_one {childCount : ℕ} (hone : 1 < childCount) (hcount : childCount ≤ maxChildren) :
    (UInt32.ofNat childCount - 1).toNat = childCount - 1 := by
  have hofNat : (UInt32.ofNat childCount).toNat = childCount := by
    rw [UInt32.toNat_ofNat']
    exact Nat.mod_eq_of_lt (hcount.trans_lt (by decide))
  rw [UInt32.toNat_sub_of_le _ _ (by rw [UInt32.le_iff_toNat_le, hofNat]; exact hone.le), hofNat]
  rfl

lemma toNat_totalGap {childCount : ℕ} (h : childCount ≤ maxChildren) :
    (totalGap c childCount).toNat = c.gap.toNat * (childCount - 1) := by
  have hgap := c.gap.toNat_lt
  rw [totalGap]
  by_cases hone : 1 < childCount
  · rw [if_pos hone, UInt32.toNat_mul, UInt16.toNat_toUInt32, toNat_ofNat_sub_one hone h]
    refine Nat.mod_eq_of_lt ?_
    have hle : c.gap.toNat * (childCount - 1) ≤ 65536 * 32 :=
      Nat.mul_le_mul hgap.le ((Nat.sub_le _ _).trans h)
    omega
  · rw [if_neg hone, Nat.sub_eq_zero_of_le (Nat.not_lt.mp hone), Nat.mul_zero]
    rfl

/-- What the shares of growing children come to. -/
lemma sum_shares_le (remaining : ℕ) {flexTotal : ℚ} (hpos : 0 < flexTotal) (weights : List ℚ)
    (hweights : ∀ f ∈ weights, 0 ≤ f) :
    (((weights.map fun f => ⌊remaining * (f / flexTotal)⌋.toNat).sum : ℕ) : ℚ) ≤
      remaining * (weights.sum / flexTotal) := by
  induction weights with
  | nil => simp
  | cons f weights ih =>
    have hf : 0 ≤ (remaining : ℚ) * (f / flexTotal) :=
      mul_nonneg (Nat.cast_nonneg _) (div_nonneg (hweights f (by simp)) hpos.le)
    have hshare : ((⌊(remaining : ℚ) * (f / flexTotal)⌋.toNat : ℕ) : ℚ) ≤ remaining * (f / flexTotal) := by
      have hfloor := Int.floor_le ((remaining : ℚ) * (f / flexTotal))
      have hcast : ((⌊(remaining : ℚ) * (f / flexTotal)⌋.toNat : ℕ) : ℤ) = ⌊(remaining : ℚ) * (f / flexTotal)⌋ :=
        Int.toNat_of_nonneg (Int.floor_nonneg.mpr hf)
      calc ((⌊(remaining : ℚ) * (f / flexTotal)⌋.toNat : ℕ) : ℚ)
          = ((⌊(remaining : ℚ) * (f / flexTotal)⌋.toNat : ℤ) : ℚ) := by push_cast; rfl
        _ = ⌊(remaining : ℚ) * (f / flexTotal)⌋ := by rw [hcast]
        _ ≤ _ := hfloor
    have hrest := ih fun g hg => hweights g (by simp [hg])
    rw [List.map_cons, List.sum_cons, List.sum_cons, Nat.cast_add, add_div, mul_add]
    exact add_le_add hshare hrest

/-- A plain child has its fixed size and its share of what remains. -/
lemma toNat_main_grow {direction : Direction} {mainTotal crossTotal remaining : UInt32} {flexTotal : ℚ}
    {child : Widget} (hplain : Plain (child.mainHint direction))
    (hflex : (measure direction mainTotal crossTotal child).flex ≤ flexTotal) :
    (grow remaining flexTotal (measure direction mainTotal crossTotal child)).main.toNat =
      fixedSize (child.mainHint direction) +
        ⌊(remaining.toNat : ℚ) * ((measure direction mainTotal crossTotal child).flex / flexTotal)⌋.toNat := by
  rw [measure] at hflex ⊢
  cases hhint : child.mainHint direction with
  | fixed px => simp [grow, fixedSize]
  | auto => simp [grow, fixedSize]
  | percent pct =>
    rw [hhint] at hplain
    exact hplain.elim
  | flex weight =>
    rw [hhint] at hplain hflex
    have hweight : 0 < weight := hplain
    have hle : weight ≤ flexTotal := hflex
    have htotal : 0 < flexTotal := hweight.trans_le hle
    have hnonneg : (0 : ℚ) ≤ remaining.toNat * (weight / flexTotal) :=
      mul_nonneg (Nat.cast_nonneg _) (div_nonneg hweight.le htotal.le)
    have hlt : (remaining.toNat : ℚ) * (weight / flexTotal) < 4294967296 := by
      have hremaining : (remaining.toNat : ℚ) < 4294967296 := by exact_mod_cast remaining.toNat_lt
      exact (mul_le_of_le_one_right (Nat.cast_nonneg _) ((div_le_one htotal).mpr hle)).trans_lt hremaining
    have hshare := toNat_toU32 hnonneg hlt
    have hgrow : (grow remaining flexTotal ⟨0, resolveHint (child.crossHint direction) crossTotal, weight⟩).main =
        toU32 (remaining.toNat * (weight / flexTotal)) := by
      rw [grow, if_pos ⟨htotal, hweight⟩]
    change (grow remaining flexTotal ⟨0, _, weight⟩).main.toNat = fixedSize (.flex weight) +
      ⌊(remaining.toNat : ℚ) * (weight / flexTotal)⌋.toNat
    have hfixed : fixedSize (.flex weight) = 0 := rfl
    rw [hgrow, hfixed, Nat.zero_add, ← hshare, Int.toNat_natCast]

lemma flex_measure_nonneg {direction : Direction} {mainTotal crossTotal : UInt32} {child : Widget}
    (hplain : Plain (child.mainHint direction)) : 0 ≤ (measure direction mainTotal crossTotal child).flex := by
  rw [measure]
  cases hhint : child.mainHint direction with
  | flex weight =>
    rw [hhint] at hplain
    exact le_of_lt hplain
  | fixed px => exact le_rfl
  | percent pct => exact le_rfl
  | auto => exact le_rfl

lemma toNat_main_measure {direction : Direction} {mainTotal crossTotal : UInt32} {child : Widget}
    (hplain : Plain (child.mainHint direction)) :
    (measure direction mainTotal crossTotal child).main.toNat = fixedSize (child.mainHint direction) := by
  rw [measure]
  cases hhint : child.mainHint direction with
  | percent pct =>
    rw [hhint] at hplain
    exact hplain.elim
  | fixed px => rfl
  | flex weight => rfl
  | auto => rfl

/-- The sizes come to what the fixed ones take and at most what remains. -/
lemma sum_main_le {direction : Direction} (mainTotal crossTotal remaining : UInt32) {children : List Widget}
    (hplain : ∀ child ∈ children, Plain (child.mainHint direction)) :
    ((children.map fun child => (grow remaining
      (sumFlex (children.map (measure direction mainTotal crossTotal)))
        (measure direction mainTotal crossTotal child)).main.toNat)).sum ≤
      (children.map fun child => fixedSize (child.mainHint direction)).sum + remaining.toNat := by
  rw [sumFlex_eq]
  set weights := (children.map (measure direction mainTotal crossTotal)).map ChildInfo.flex
  have hweights : ∀ f ∈ weights, 0 ≤ f := by
    intro f hf
    obtain ⟨info, hinfo, rfl⟩ := List.mem_map.mp hf
    obtain ⟨child, hchild, rfl⟩ := List.mem_map.mp hinfo
    exact flex_measure_nonneg (hplain child hchild)
  have hmain : (children.map fun child => (grow remaining weights.sum
      (measure direction mainTotal crossTotal child)).main.toNat) =
      children.map fun child => fixedSize (child.mainHint direction) +
        ⌊(remaining.toNat : ℚ) * ((measure direction mainTotal crossTotal child).flex / weights.sum)⌋.toNat := by
    refine List.map_congr_left fun child hchild => toNat_main_grow (hplain child hchild) ?_
    refine List.single_le_sum hweights _ ?_
    exact List.mem_map_of_mem (List.mem_map_of_mem hchild)
  have hshares : (children.map fun child =>
      ⌊(remaining.toNat : ℚ) * ((measure direction mainTotal crossTotal child).flex / weights.sum)⌋.toNat) =
      weights.map fun f => ⌊(remaining.toNat : ℚ) * (f / weights.sum)⌋.toNat := by
    rw [List.map_map, List.map_map]
    rfl
  rw [hmain, List.sum_map_add, hshares]
  refine Nat.add_le_add_left ?_ _
  rcases (List.sum_nonneg hweights).lt_or_eq with hpos | hzero
  · have hle := sum_shares_le remaining.toNat hpos weights hweights
    rw [div_self hpos.ne', mul_one] at hle
    exact_mod_cast hle
  · rw [← hzero]
    simp

end Sizes

/-! ### The running cursor -/

lemma startAndSpace_le (align : Align) {extra : UInt32} {childCount : ℕ} (hextra : extra.toNat < 2147483648)
    (hcount : childCount ≤ maxChildren) :
    0 ≤ (startAndSpace align extra childCount).1.toInt ∧
      (startAndSpace align extra childCount).1.toInt +
        ((childCount - 1) * (startAndSpace align extra childCount).2.toNat : ℕ) ≤ extra.toNat := by
  have hcast := toInt_toInt32 hextra
  cases align with
  | start => simp [startAndSpace]
  | center =>
    have hhalf : (extra.toInt32 / 2).toInt = extra.toNat / 2 := by
      rw [Int32.toInt_div, hcast, show (2 : Int32).toInt = 2 from rfl,
        Int.tdiv_eq_ediv_of_nonneg (Int.natCast_nonneg _)]
      exact Int.bmod_eq_of_le (by norm_num; omega) (by norm_num; omega)
    refine ⟨?_, ?_⟩ <;> simp only [startAndSpace, hhalf, UInt32.toNat_zero, Nat.mul_zero] <;> omega
  | «end» =>
    refine ⟨?_, ?_⟩ <;> simp only [startAndSpace, hcast, UInt32.toNat_zero, Nat.mul_zero] <;> omega
  | spaceBetween =>
    rw [startAndSpace]
    by_cases hone : 1 < childCount
    · have hpred : (UInt32.ofNat childCount - 1).toNat = childCount - 1 := toNat_ofNat_sub_one hone hcount
      rw [if_pos hone, UInt32.toNat_div, hpred]
      have hdiv := Nat.mul_div_le extra.toNat (childCount - 1)
      exact ⟨le_rfl, by simpa using Int.ofNat_le.mpr hdiv⟩
    · rw [if_neg hone, Nat.sub_eq_zero_of_le (Nat.not_lt.mp hone)]
      simp

/-- What the cursor passes over in all. -/
def reach (spaced : ℕ) (infos : List ChildInfo) : ℕ :=
  (infos.map fun info => info.main.toNat).sum + (infos.length - 1) * spaced

lemma reach_cons (spaced : ℕ) (info next : ChildInfo) (infos : List ChildInfo) :
    reach spaced (info :: next :: infos) = info.main.toNat + spaced + reach spaced (next :: infos) := by
  simp only [reach, List.map_cons, List.sum_cons, List.length_cons, Nat.add_sub_cancel]
  ring

/-- One rectangle follows another with at least the gap between them. -/
def Apart (c : ContainerWidget) (a b : Rect) : Prop :=
  a.mainStart c.direction + a.mainLength c.direction + c.gap.toNat ≤ b.mainStart c.direction

section Place

variable {c : ContainerWidget} {content : Rect} {bound : ℕ}

lemma mainStart_childRect {cursor : Int32} {info : ChildInfo} (hcursor : 0 ≤ cursor.toInt)
    (hend : content.mainStart c.direction + cursor.toInt < 2147483648) :
    (childRect c content cursor info).mainStart c.direction = content.mainStart c.direction + cursor.toInt := by
  rw [childRect]
  cases hdirection : c.direction with
  | row =>
    rw [hdirection] at hend
    exact toInt_add_of_mem (by have := content.x.le_toInt; change -2147483648 ≤ _ at this; omega) hend
  | column =>
    rw [hdirection] at hend
    exact toInt_add_of_mem (by have := content.y.le_toInt; change -2147483648 ≤ _ at this; omega) hend

variable (c content) in
lemma mainLength_childRect (cursor : Int32) (info : ChildInfo) :
    (childRect c content cursor info).mainLength c.direction = info.main.toNat := by
  rw [childRect]
  cases c.direction <;> rfl

/-- The cursor after a child, unless it leaves the range. -/
lemma toInt_cursor {cursor : Int32} (main spaceBetween : UInt32) (hcursor : 0 ≤ cursor.toInt)
    (h : cursor.toInt + main.toNat + c.gap.toNat + spaceBetween.toNat < 2147483648) :
    (cursor + (main.toInt32 + c.gap.toUInt32.toInt32 + spaceBetween.toInt32)).toInt =
      cursor.toInt + main.toNat + c.gap.toNat + spaceBetween.toNat := by
  have hmain : main.toInt32.toInt = main.toNat := toInt_toInt32 (by omega)
  have hspace : spaceBetween.toInt32.toInt = spaceBetween.toNat := toInt_toInt32 (by omega)
  have hgap := toInt_gap c.gap
  have hfirst : (main.toInt32 + c.gap.toUInt32.toInt32).toInt = main.toNat + c.gap.toNat := by
    rw [toInt_add_of_mem] <;> rw [hmain, hgap] <;> omega
  have hsecond : (main.toInt32 + c.gap.toUInt32.toInt32 + spaceBetween.toInt32).toInt =
      main.toNat + c.gap.toNat + spaceBetween.toNat := by
    rw [toInt_add_of_mem] <;> rw [hfirst, hspace] <;> omega
  rw [toInt_add_of_mem] <;> rw [hsecond] <;> omega

/-- The children lie one after another between the cursor and the bound. -/
lemma place_apart (spaceBetween : UInt32) (hbound : bound < 2147483648) (hend : content.mainStart c.direction + bound < 2147483648)
    (infos : List ChildInfo) (cursor : Int32) (hcursor : 0 ≤ cursor.toInt)
    (hreach : cursor.toInt + reach (c.gap.toNat + spaceBetween.toNat) infos ≤ bound) :
    (place c content spaceBetween cursor infos).Pairwise (Apart c) ∧
      ∀ r ∈ place c content spaceBetween cursor infos,
        content.mainStart c.direction + cursor.toInt ≤ r.mainStart c.direction ∧
          r.mainStart c.direction + r.mainLength c.direction ≤ content.mainStart c.direction + bound := by
  induction infos generalizing cursor with
  | nil => exact ⟨.nil, nofun⟩
  | cons info infos ih =>
    have hmain : cursor.toInt + info.main.toNat ≤ bound := by
      rw [reach, List.map_cons, List.sum_cons] at hreach
      push_cast at hreach
      have : (0 : ℤ) ≤ ((infos.map fun info => info.main.toNat).sum : ℕ) := Int.natCast_nonneg _
      have : (0 : ℤ) ≤ (((info :: infos).length - 1) * (c.gap.toNat + spaceBetween.toNat) : ℕ) :=
        Int.natCast_nonneg _
      push_cast at *
      omega
    have hstart : (childRect c content cursor info).mainStart c.direction =
        content.mainStart c.direction + cursor.toInt := mainStart_childRect hcursor (by omega)
    have hlength := mainLength_childRect c content cursor info
    have hself : content.mainStart c.direction + cursor.toInt ≤
        (childRect c content cursor info).mainStart c.direction ∧
        (childRect c content cursor info).mainStart c.direction +
          (childRect c content cursor info).mainLength c.direction ≤ content.mainStart c.direction + bound := by
      rw [hstart, hlength]
      omega
    rw [place]
    cases infos with
    | nil => exact ⟨List.pairwise_singleton _ _, by simpa [place] using hself⟩
    | cons next infos =>
      have hnext : cursor.toInt + info.main.toNat + c.gap.toNat + spaceBetween.toNat +
          reach (c.gap.toNat + spaceBetween.toNat) (next :: infos) ≤ bound := by
        rw [reach_cons] at hreach
        push_cast at hreach
        omega
      have hcursor' := toInt_cursor (c := c) info.main spaceBetween hcursor (by omega)
      obtain ⟨hpairs, hall⟩ := ih _ (by rw [hcursor']; omega) (by rw [hcursor']; exact hnext)
      refine ⟨List.pairwise_cons.mpr ⟨fun r hr => ?_, hpairs⟩, List.forall_mem_cons.mpr ⟨hself, fun r hr => ?_⟩⟩
      · have hr := (hall r hr).1
        rw [hcursor'] at hr
        rw [Apart, hstart, hlength]
        omega
      · have hr := hall r hr
        rw [hcursor'] at hr
        exact ⟨by omega, hr.2⟩

end Place

/-! ### All children -/

section All

variable {c : ContainerWidget} {content : Rect} {children : List Widget}

variable (content) in
/-- The sizes with the gaps come to no more than what the fixed children take, or the container has. -/
lemma used_le (hplain : ∀ child ∈ children, Plain (child.mainHint c.direction))
    (hcount : children.length ≤ maxChildren) (hfixed : fixedTotal c children < 2147483648) :
    ((childInfos c content children).map fun info => info.main.toNat).sum +
        c.gap.toNat * (children.length - 1) ≤ max (content.mainLength c.direction) (fixedTotal c children) := by
  set mainTotal := mainSize c.direction content.w content.h
  set crossTotal := crossSize c.direction content.w content.h
  have hmeasured : ((children.map (measure c.direction mainTotal crossTotal)).map fun info => info.main.toNat) =
      children.map fun child => fixedSize (child.mainHint c.direction) := by
    rw [List.map_map]
    exact List.map_congr_left fun child hchild => toNat_main_measure (hplain child hchild)
  have hgap := toNat_totalGap (c := c) hcount
  have hsum : (sumMain (children.map (measure c.direction mainTotal crossTotal))).toNat =
      (children.map fun child => fixedSize (child.mainHint c.direction)).sum := by
    rw [toNat_sumMain, hmeasured]
    rw [hmeasured]
    rw [fixedTotal] at hfixed
    omega
  have htaken : (sumMain (children.map (measure c.direction mainTotal crossTotal)) +
      totalGap c children.length).toNat = fixedTotal c children := by
    rw [UInt32.toNat_add, hsum, hgap]
    exact Nat.mod_eq_of_lt (lt_trans hfixed (by norm_num))
  have hle := sum_main_le mainTotal crossTotal (saturatingSub mainTotal
    (sumMain (children.map (measure c.direction mainTotal crossTotal)) + totalGap c children.length)) hplain
  rw [toNat_saturatingSub, htaken] at hle
  have hinfos : ((childInfos c content children).map fun info => info.main.toNat) = children.map fun child =>
      (grow (saturatingSub mainTotal (sumMain (children.map (measure c.direction mainTotal crossTotal)) +
        totalGap c children.length)) (sumFlex (children.map (measure c.direction mainTotal crossTotal)))
          (measure c.direction mainTotal crossTotal child)).main.toNat := by
    rw [childInfos, List.map_map, List.map_map]
    rfl
  rw [hinfos]
  have hlength : content.mainLength c.direction = mainTotal.toNat := rfl
  rw [fixedTotal] at *
  omega

lemma length_childInfos : (childInfos c content children).length = children.length := by
  rw [childInfos, List.length_map, List.length_map]

theorem layoutChildren_apart (hplain : ∀ child ∈ children, Plain (child.mainHint c.direction))
    (hcount : children.length ≤ maxChildren) (hrange : InRange c content children) :
    (layoutChildren c content children).Pairwise (Apart c) ∧
      ∀ r ∈ layoutChildren c content children,
        content.mainStart c.direction ≤ r.mainStart c.direction ∧
          r.mainStart c.direction + r.mainLength c.direction ≤
            content.mainStart c.direction + (max (content.mainLength c.direction) (fixedTotal c children) : ℕ) := by
  have hused := used_le content hplain hcount hrange.fixed
  have hbound : max (content.mainLength c.direction) (fixedTotal c children) < 2147483648 :=
    max_lt hrange.length hrange.fixed
  have hend : content.mainStart c.direction +
      (max (content.mainLength c.direction) (fixedTotal c children) : ℕ) < 2147483648 := by
    have := hrange.contentEnd
    have := hrange.fixedEnd
    omega
  set bound := max (content.mainLength c.direction) (fixedTotal c children)
  set infos := childInfos c content children
  have hsum : (sumMain infos + totalGap c children.length).toNat =
      (infos.map fun info => info.main.toNat).sum + c.gap.toNat * (children.length - 1) := by
    rw [UInt32.toNat_add, toNat_sumMain (by omega), toNat_totalGap hcount]
    exact Nat.mod_eq_of_lt (by omega)
  set used := (infos.map fun info => info.main.toNat).sum + c.gap.toNat * (children.length - 1)
  set extra := saturatingSub (mainSize c.direction content.w content.h) (sumMain infos + totalGap c children.length)
  have hextra : extra.toNat = content.mainLength c.direction - used := by
    rw [toNat_saturatingSub, hsum]
    rfl
  have hlt : extra.toNat < 2147483648 := by
    have := hrange.length
    omega
  obtain ⟨hstart, hspace⟩ := startAndSpace_le c.align hlt hcount
  set start := startAndSpace c.align extra children.length
  have hreach : reach (c.gap.toNat + start.2.toNat) infos = used + (children.length - 1) * start.2.toNat := by
    rw [reach, length_childInfos, Nat.mul_add, ← Nat.add_assoc, Nat.mul_comm _ c.gap.toNat]
  obtain ⟨hpairs, hinside⟩ := place_apart start.2 hbound hend infos start.1 hstart (by
    rw [hreach]
    push_cast at hspace ⊢
    omega)
  refine ⟨hpairs, fun r hr => ⟨?_, (hinside r hr).2⟩⟩
  have := (hinside r hr).1
  omega

end All

/-! ### After the layout -/

lemma inFlow_layoutNode (t : UiNode) (rect : Rect) : (layoutNode t rect).widget.inFlow = t.widget.inFlow := by
  rw [widget_layoutNode]
  rfl

lemma flowOf_cons_of_pos {child : UiNode} (children : List UiNode) (h : child.widget.inFlow = true) :
    flowOf (child :: children) = child :: flowOf children := List.filter_cons_of_pos h

lemma flowOf_cons_of_neg {child : UiNode} (children : List UiNode) (h : child.widget.inFlow = false) :
    flowOf (child :: children) = flowOf children := List.filter_cons_of_neg (by simp [h])

/-- The children in the flow are laid out in the rectangles of the list. -/
lemma flowOf_layoutEach (content : Rect) {rects : List Rect} {children : List UiNode}
    (h : rects.length = (flowOf children).length) :
    flowOf (layoutEach (assign content rects (children.map UiNode.widget)) children) =
      List.zipWith layoutNode (flowOf children) rects := by
  induction children generalizing rects with
  | nil => simp [flowOf, layoutEach, assign]
  | cons child children ih =>
    rw [List.map_cons, assign]
    by_cases hvisible : child.widget.visible = true
    · rw [if_pos hvisible]
      cases hpos : child.widget.absolutePos with
      | some offset =>
        have hflow : child.widget.inFlow = false := by simp [Widget.inFlow, hpos]
        rw [flowOf_cons_of_neg _ hflow] at h ⊢
        rw [layoutEach, flowOf_cons_of_neg _ ((inFlow_layoutNode _ _).trans hflow), ih h]
      | none =>
        have hflow : child.widget.inFlow = true := by simp [Widget.inFlow, hpos, hvisible]
        rw [flowOf_cons_of_pos _ hflow] at h ⊢
        cases rects with
        | nil => cases h
        | cons rect rects =>
          rw [List.head?_cons, List.tail_cons, layoutEach,
            flowOf_cons_of_pos _ ((inFlow_layoutNode _ _).trans hflow), ih (Nat.succ.inj h), List.zipWith_cons_cons]
    · have hflow : child.widget.inFlow = false := by simp [Widget.inFlow, hvisible]
      rw [if_neg hvisible]
      rw [flowOf_cons_of_neg _ hflow] at h ⊢
      rw [layoutEach, flowOf_cons_of_neg _ hflow, ih h]

lemma flowOf_flowOf (children : List UiNode) : flowOf (flowOf children) = flowOf children := by
  rw [flowOf, flowOf, List.filter_filter]
  simp only [Bool.and_self]

lemma filter_inFlow (children : List UiNode) :
    (children.map UiNode.widget).filter Widget.inFlow = (flowOf children).map UiNode.widget := by
  rw [List.filter_map]
  rfl

section Laid

variable {w : Widget} {children : List UiNode} {c : ContainerWidget}

/-- What is in the flow of a container depends on nothing else. -/
lemma flowOf_layoutNode (hc : w.container = some c) (available : Rect) :
    flowOf (layoutNode (.node w children) available).children = List.zipWith layoutNode (flowOf children)
      (layoutChildren c (w.contentIn (w.rectIn available)) ((flowOf children).map UiNode.widget)) := by
  rw [layoutNode_some hc, UiNode.children, childRects, filter_inFlow]
  refine flowOf_layoutEach _ ?_
  have hlength := (givenRect_layoutChildren c (w.contentIn (w.rectIn available))
    ((flowOf children).map UiNode.widget)).length_eq
  rw [← hlength, List.length_map]

/-- The ends of a child along the axis are those of its rectangle. -/
lemma span_layoutNode {content : Rect} {t : UiNode} {rect : Rect} (hgiven : GivenRect content t.widget rect)
    (hplain : Plain (t.widget.mainHint c.direction)) :
    ((layoutNode t rect).widget.mainStart c.direction, (layoutNode t rect).widget.mainEnd c.direction) =
      (rect.mainStart c.direction, rect.mainEnd c.direction) := by
  have htrivial : ∀ parent, Trivial (t.widget.mainHint c.direction) parent := by
    intro parent pct hpct
    rw [hpct] at hplain
    exact hplain.elim
  rw [widget_layoutNode]
  cases hdirection : c.direction with
  | row =>
    rw [hdirection] at htrivial
    have hwidth : resolveHint t.widget.widthHint rect.w = rect.w := hgiven.1.resolveHint_eq (htrivial _)
    simp only [Widget.mainEnd, Widget.mainStart, Rect.mainEnd, Rect.mainStart, Rect.mainLength, Widget.placed, mainSize, hwidth]
  | column =>
    rw [hdirection] at htrivial
    have hheight : resolveHint t.widget.heightHint rect.h = rect.h := hgiven.2.resolveHint_eq (htrivial _)
    simp only [Widget.mainEnd, Widget.mainStart, Rect.mainEnd, Rect.mainStart, Rect.mainLength, Widget.placed, mainSize, hheight]

lemma map_span {content : Rect} {rects : List Rect}
    (hgiven : List.Forall₂ (GivenRect content) (children.map UiNode.widget) rects)
    (hplain : ∀ child ∈ children, Plain (child.widget.mainHint c.direction)) :
    (List.zipWith layoutNode children rects).map (fun t => (t.widget.mainStart c.direction, t.widget.mainEnd c.direction)) =
      rects.map fun r => (r.mainStart c.direction, r.mainEnd c.direction) := by
  induction children generalizing rects with
  | nil =>
    cases hgiven
    rfl
  | cons child children ih =>
    obtain ⟨rect, rest, hchild, hrest, rfl⟩ := List.forall₂_cons_left_iff.mp hgiven
    simp only [List.zipWith_cons_cons, List.map_cons]
    rw [span_layoutNode hchild (hplain child (by simp)), ih hrest fun child hmem => hplain child (by simp [hmem])]

lemma forall₂_zipWith {rects : List Rect} (h : children.length = rects.length) :
    List.Forall₂ (fun child laid => ∃ rect, laid = layoutNode child rect) children
      (List.zipWith layoutNode children rects) := by
  induction children generalizing rects with
  | nil => exact .nil
  | cons child children ih =>
    cases rects with
    | nil => cases h
    | cons rect rects => exact .cons ⟨rect, rfl⟩ (ih (Nat.succ.inj h))

/-- The children in the flow of a container keep their order and are at least the gap apart. If the fixed ones fit
into the container, all lie inside. The other children make no difference. -/
theorem flow_laid_out (hc : w.container = some c) (hcount : children.length ≤ maxChildren) (available : Rect)
    (hplain : ∀ child ∈ flowOf children, Plain (child.widget.mainHint c.direction))
    (hrange : InRange c (w.contentIn (w.rectIn available)) ((flowOf children).map UiNode.widget)) :
    List.Forall₂ (fun child laid => ∃ rect, laid = layoutNode child rect) (flowOf children)
        (flowOf (layoutNode (.node w children) available).children) ∧
      (flowOf (layoutNode (.node w children) available).children).Pairwise
        (fun child next => next.widget.After c child.widget) ∧
      (fixedTotal c ((flowOf children).map UiNode.widget) ≤
          (w.contentIn (w.rectIn available)).mainLength c.direction →
        ∀ child ∈ flowOf (layoutNode (.node w children) available).children,
          (w.contentIn (w.rectIn available)).mainStart c.direction ≤ child.widget.mainStart c.direction ∧
            child.widget.mainEnd c.direction ≤ (w.contentIn (w.rectIn available)).mainStart c.direction +
              (w.contentIn (w.rectIn available)).mainLength c.direction) ∧
      flowOf (layoutNode (.node w (flowOf children)) available).children =
        flowOf (layoutNode (.node w children) available).children := by
  have hwidgets : ∀ child ∈ (flowOf children).map UiNode.widget, Plain (child.mainHint c.direction) := by
    intro child hmem
    obtain ⟨t, ht, rfl⟩ := List.mem_map.mp hmem
    exact hplain t ht
  have hcount' : ((flowOf children).map UiNode.widget).length ≤ maxChildren := by
    rw [List.length_map]
    exact (List.length_filter_le _ _).trans hcount
  obtain ⟨hpairs, hinside⟩ := layoutChildren_apart hwidgets hcount' hrange
  have hgiven := givenRect_layoutChildren c (w.contentIn (w.rectIn available)) ((flowOf children).map UiNode.widget)
  have hspan := map_span hgiven hplain
  rw [flowOf_layoutNode hc, flowOf_layoutNode hc, flowOf_flowOf]
  set rects := layoutChildren c (w.contentIn (w.rectIn available)) ((flowOf children).map UiNode.widget)
  refine ⟨?_, ?_, fun hfits child hmem => ?_, rfl⟩
  · exact forall₂_zipWith (by rw [← hgiven.length_eq, List.length_map])
  · have hpairs' : (rects.map fun r => (r.mainStart c.direction, r.mainEnd c.direction)).Pairwise
        fun a b => a.2 + (c.gap.toNat : ℤ) ≤ b.1 := List.pairwise_map.mpr hpairs
    rw [← hspan] at hpairs'
    exact List.pairwise_map.mp hpairs'
  · have hmem' := List.mem_map_of_mem (f := fun t : UiNode =>
      (t.widget.mainStart c.direction, t.widget.mainEnd c.direction)) hmem
    rw [hspan] at hmem'
    obtain ⟨r, hr, heq⟩ := List.mem_map.mp hmem'
    obtain ⟨hstart, hend⟩ := Prod.mk.inj heq
    rw [← hstart, ← hend]
    have hr := hinside r hr
    rw [max_eq_left hfits] at hr
    exact hr

end Laid

def spacedBox : ContainerWidget := ⟨.column, 4, .spaceBetween, .start⟩

/-- A fixed child, a hidden one and one that grows. -/
def threeBoxes : List UiNode :=
  [.node (emptyBox (.fixed 20)) [], .node { emptyBox (.fixed 30) with visible := false } [],
    .node (emptyBox (.flex 1)) []]

theorem flow_laid_out_threeBoxes :
    (flowOf (layoutNode (.node { emptyBox .auto with container := some spacedBox } threeBoxes)
      ⟨0, 24, 100, 200⟩).children).Pairwise (fun child next => next.widget.After spacedBox child.widget) := by
  refine (flow_laid_out (c := spacedBox) rfl (by decide) _ ?_ ⟨?_, ?_, ?_, ?_⟩).2.1
  · intro child hmem
    have hflow : flowOf threeBoxes = [.node (emptyBox (.fixed 20)) [], .node (emptyBox (.flex 1)) []] := rfl
    rw [hflow] at hmem
    rcases List.mem_cons.mp hmem with rfl | hmem
    · trivial
    · obtain rfl := List.mem_singleton.mp hmem
      exact zero_lt_one
  all_goals decide +kernel

end ThistleOS.Toolkit.Layout
