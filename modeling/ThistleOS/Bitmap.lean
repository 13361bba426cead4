import Mathlib.Data.List.Basic
import Mathlib.Tactic.Common

/-!
# Bitmaps

Pictures of one bit a pixel that are packed in a buffer of bytes. A layout gives each pixel a bit of its own, so a
rectangle that is drawn pixel by pixel changes the picture there and nowhere else.
-/

/-- A picture by column and row. -/
abbrev Picture := ℕ → ℕ → Bool

namespace Bitmap

/-! ### Bits of a byte -/

/-- The byte with the bits of the mask set or cleared. -/
def putBits (mask : UInt8) (on : Bool) (b : UInt8) : UInt8 := if on then b ||| mask else b &&& ~~~mask

def bitMask (bit : ℕ) : UInt8 := ⟨BitVec.twoPow 8 bit⟩

def testBit (b : UInt8) (bit : ℕ) : Bool := b.toBitVec.getLsbD bit

lemma testBit_putBits (b : UInt8) (on : Bool) {bit bit' : ℕ} (hbit' : bit' < 8) :
    testBit (putBits (bitMask bit) on b) bit' = if bit' = bit then on else testBit b bit' := by
  have hmask : (bitMask bit).toBitVec.getLsbD bit' = decide (bit = bit') := by
    rw [bitMask, BitVec.getLsbD_twoPow]
    by_cases h : bit = bit'
    · simp [h, hbit']
    · simp [h]
  cases on with
  | true =>
    rw [putBits, if_pos rfl, testBit, UInt8.toBitVec_or, BitVec.getLsbD_or, hmask]
    by_cases h : bit = bit'
    · simp [h]
    · simp [h, Ne.symm h, testBit]
  | false =>
    rw [putBits, if_neg Bool.false_ne_true, testBit, UInt8.toBitVec_and, BitVec.getLsbD_and, UInt8.toBitVec_not,
      BitVec.getLsbD_not, hmask]
    by_cases h : bit = bit'
    · simp [h]
    · simp [h, Ne.symm h, hbit', testBit]

/-! ### Layouts -/

/-- Where the pixels of a picture stand in a buffer of `size` bytes. -/
structure Layout (width height size : ℕ) where
  byte : ℕ → ℕ → ℕ
  bit : ℕ → ℕ → ℕ
  byte_lt : ∀ {x y}, x < width → y < height → byte x y < size
  bit_lt : ∀ x y, bit x y < 8
  inj : ∀ {x y x' y'}, x < width → y < height → x' < width → y' < height →
    byte x y = byte x' y' → bit x y = bit x' y' → x = x' ∧ y = y'

/-- The places from the first to the last one. -/
def span (first last : ℕ) : List ℕ := List.range' first (last + 1 - first)

lemma mem_span {first last i : ℕ} : i ∈ span first last ↔ first ≤ i ∧ i ≤ last := by
  rw [span, List.mem_range'_1]
  omega

namespace Layout

variable {width height size : ℕ} (L : Layout width height size)

/-- The picture in a buffer. -/
def read (fb : List UInt8) : Picture := fun x y => testBit (fb.getD (L.byte x y) 0) (L.bit x y)

def put (x y : ℕ) (on : Bool) (fb : List UInt8) : List UInt8 :=
  fb.modify (L.byte x y) (putBits (bitMask (L.bit x y)) on)

def drawRow (image : Picture) (x1 x2 y : ℕ) (fb : List UInt8) : List UInt8 :=
  (span x1 x2).foldl (fun fb x => L.put x y (image x y) fb) fb

/-- Draws the image over a rectangle, row by row. -/
def draw (image : Picture) (x1 y1 x2 y2 : ℕ) (fb : List UInt8) : List UInt8 :=
  (span y1 y2).foldl (fun fb y => L.drawRow image x1 x2 y fb) fb

variable {L} {fb : List UInt8} {x y x' y' : ℕ}

@[simp] lemma length_put (on : Bool) : (L.put x y on fb).length = fb.length := List.length_modify ..

lemma read_put (hfb : fb.length = size) (on : Bool) (hx : x < width) (hy : y < height) (hx' : x' < width)
    (hy' : y' < height) :
    L.read (L.put x y on fb) x' y' = if x' = x ∧ y' = y then on else L.read fb x' y' := by
  have hlt : L.byte x' y' < fb.length := hfb ▸ L.byte_lt hx' hy'
  have hget : (L.put x y on fb).getD (L.byte x' y') 0 =
      if L.byte x y = L.byte x' y' then putBits (bitMask (L.bit x y)) on (fb.getD (L.byte x' y') 0)
      else fb.getD (L.byte x' y') 0 := by
    rw [put, List.getD_eq_getElem?_getD, List.getElem?_modify, List.getD_eq_getElem?_getD,
      List.getElem?_eq_getElem hlt]
    rfl
  rw [read, hget]
  by_cases hbyte : L.byte x y = L.byte x' y'
  · rw [if_pos hbyte, testBit_putBits _ _ (L.bit_lt x' y')]
    by_cases hbit : L.bit x' y' = L.bit x y
    · rw [if_pos hbit, if_pos (L.inj hx' hy' hx hy hbyte.symm hbit)]
    · rw [if_neg hbit, if_neg fun h => hbit (by rw [h.1, h.2])]
      rfl
  · rw [if_neg hbyte, if_neg fun h => hbyte (by rw [h.1, h.2])]
    rfl

section Row

variable {image : Picture}

/-- A list of columns that is drawn in one row. -/
lemma read_foldl_put (xs : List ℕ) (hxs : ∀ x ∈ xs, x < width) (hfb : fb.length = size) (hy : y < height)
    (hx' : x' < width) (hy' : y' < height) :
    (xs.foldl (fun fb x => L.put x y (image x y) fb) fb).length = size ∧
      L.read (xs.foldl (fun fb x => L.put x y (image x y) fb) fb) x' y' =
        if x' ∈ xs ∧ y' = y then image x' y' else L.read fb x' y' := by
  induction xs generalizing fb with
  | nil => exact ⟨hfb, by simp⟩
  | cons x xs ih =>
    have hx : x < width := hxs x List.mem_cons_self
    have hput : (L.put x y (image x y) fb).length = size := (length_put _).trans hfb
    rw [List.foldl_cons]
    obtain ⟨hlength, hread⟩ := ih (fun x h => hxs x (List.mem_cons_of_mem _ h)) hput
    refine ⟨hlength, ?_⟩
    rw [hread, read_put hfb _ hx hy hx' hy']
    simp only [List.mem_cons]
    by_cases hlater : x' ∈ xs ∧ y' = y
    · rw [if_pos hlater, if_pos ⟨.inr hlater.1, hlater.2⟩]
    · rw [if_neg hlater]
      by_cases hnow : x' = x ∧ y' = y
      · obtain ⟨rfl, rfl⟩ := hnow
        rw [if_pos ⟨rfl, rfl⟩, if_pos ⟨.inl rfl, rfl⟩]
      · rw [if_neg hnow, if_neg]
        rintro ⟨rfl | hmem, rfl⟩
        · exact hnow ⟨rfl, rfl⟩
        · exact hlater ⟨hmem, rfl⟩

lemma read_drawRow {x1 x2 : ℕ} (hx2 : x2 < width) (hfb : fb.length = size) (hy : y < height) (hx' : x' < width)
    (hy' : y' < height) :
    (L.drawRow image x1 x2 y fb).length = size ∧
      L.read (L.drawRow image x1 x2 y fb) x' y' =
        if (x1 ≤ x' ∧ x' ≤ x2) ∧ y' = y then image x' y' else L.read fb x' y' := by
  have hspan : ∀ x ∈ span x1 x2, x < width := fun x hx => Nat.lt_of_le_of_lt (mem_span.mp hx).2 hx2
  have hrow : (L.drawRow image x1 x2 y fb).length = size ∧ L.read (L.drawRow image x1 x2 y fb) x' y' =
      if x' ∈ span x1 x2 ∧ y' = y then image x' y' else L.read fb x' y' :=
    read_foldl_put (span x1 x2) hspan hfb hy hx' hy'
  simpa only [mem_span] using hrow

/-- A list of rows that is drawn between the same columns. -/
lemma read_foldl_drawRow {x1 x2 : ℕ} (hx2 : x2 < width) (ys : List ℕ) (hys : ∀ y ∈ ys, y < height)
    (hfb : fb.length = size) (hx' : x' < width) (hy' : y' < height) :
    (ys.foldl (fun fb y => L.drawRow image x1 x2 y fb) fb).length = size ∧
      L.read (ys.foldl (fun fb y => L.drawRow image x1 x2 y fb) fb) x' y' =
        if (x1 ≤ x' ∧ x' ≤ x2) ∧ y' ∈ ys then image x' y' else L.read fb x' y' := by
  induction ys generalizing fb with
  | nil => exact ⟨hfb, by simp⟩
  | cons y ys ih =>
    have hy : y < height := hys y List.mem_cons_self
    obtain ⟨hrow, hreadRow⟩ : (L.drawRow image x1 x2 y fb).length = size ∧ L.read (L.drawRow image x1 x2 y fb) x' y' =
      if (x1 ≤ x' ∧ x' ≤ x2) ∧ y' = y then image x' y' else L.read fb x' y' := read_drawRow hx2 hfb hy hx' hy'
    rw [List.foldl_cons]
    obtain ⟨hlength, hread⟩ := ih (fun y h => hys y (List.mem_cons_of_mem _ h)) hrow
    refine ⟨hlength, ?_⟩
    rw [hread, hreadRow]
    simp only [List.mem_cons]
    by_cases hcolumn : x1 ≤ x' ∧ x' ≤ x2
    · by_cases hlater : y' ∈ ys
      · rw [if_pos ⟨hcolumn, hlater⟩, if_pos ⟨hcolumn, .inr hlater⟩]
      · rw [if_neg fun h => hlater h.2]
        by_cases hnow : y' = y
        · rw [if_pos ⟨hcolumn, hnow⟩, if_pos ⟨hcolumn, .inl hnow⟩]
        · rw [if_neg fun h => hnow h.2, if_neg fun h => h.2.elim hnow hlater]
    · rw [if_neg fun h => hcolumn h.1, if_neg fun h => hcolumn h.1, if_neg fun h => hcolumn h.1]

end Row

variable {image : Picture} {x1 y1 x2 y2 : ℕ}

/-- What is drawn is the image inside the rectangle and what was there before outside of it. -/
theorem read_draw (hx2 : x2 < width) (hy2 : y2 < height) (hfb : fb.length = size) (hx : x < width) (hy : y < height) :
    L.read (L.draw image x1 y1 x2 y2 fb) x y =
      if (x1 ≤ x ∧ x ≤ x2) ∧ y1 ≤ y ∧ y ≤ y2 then image x y else L.read fb x y := by
  have hspan : ∀ y ∈ span y1 y2, y < height := fun y hy => Nat.lt_of_le_of_lt (mem_span.mp hy).2 hy2
  rw [draw, (read_foldl_drawRow hx2 (span y1 y2) hspan hfb hx hy).2]
  simp only [mem_span]

lemma length_draw (fb : List UInt8) : (L.draw image x1 y1 x2 y2 fb).length = fb.length := by
  have hrow (y : ℕ) (fb : List UInt8) : (L.drawRow image x1 x2 y fb).length = fb.length := by
    rw [drawRow]
    induction span x1 x2 generalizing fb with
    | nil => rfl
    | cons x xs ih => rw [List.foldl_cons, ih, length_put]
  rw [draw]
  induction span y1 y2 generalizing fb with
  | nil => rfl
  | cons y ys ih => rw [List.foldl_cons, ih, hrow]

end Layout

end Bitmap
