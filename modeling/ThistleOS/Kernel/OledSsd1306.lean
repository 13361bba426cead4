import Mathlib.Algebra.Order.Group.Nat
import Mathlib.Data.List.Induction
import ThistleOS.Bitmap
import ThistleOS.Bus
import ThistleOS.Component
import ThistleOS.Kernel.DisplayServer

/-!
# The driver of the OLED display

The display has a memory of eight rows to a page. A flush thresholds the colors of its rectangle into a buffer of that
form and sends the whole buffer, so a flush that fails is made up for by the next one.
-/

open Bitmap (Layout span testBit bitMask putBits)
open ThistleOS.Bus (call transmit tells_call tells_transmit)
open ThistleOS.Display (HalArea)

namespace ThistleOS.Oled

/-! ### The driver -/

def oledWidth : ℕ := 128
def oledHeight : ℕ := 64
def oledFbSize : ℕ := oledWidth * oledHeight / 8

def ssd1306CmdDisplayOff : UInt8 := 0xAE
def ssd1306CmdDisplayOn : UInt8 := 0xAF
def ssd1306CmdSetContrast : UInt8 := 0x81
def ssd1306CmdEntireDisplayOn : UInt8 := 0xA4
def ssd1306CmdNormalDisplay : UInt8 := 0xA6
def ssd1306CmdSetAddrMode : UInt8 := 0x20
def ssd1306AddrModeHorizontal : UInt8 := 0x00
def ssd1306CmdSetMuxRatio : UInt8 := 0xA8
def ssd1306CmdSetDispOffset : UInt8 := 0xD3
def ssd1306CmdSetStartLine : UInt8 := 0x40
def ssd1306CmdSetSegRemap : UInt8 := 0xA1
def ssd1306CmdSetComScanDir : UInt8 := 0xC8
def ssd1306CmdSetComPins : UInt8 := 0xDA
def ssd1306CmdComPinsAlt : UInt8 := 0x12
def ssd1306CmdSetDispClk : UInt8 := 0xD5
def ssd1306CmdDispClkDefault : UInt8 := 0x80
def ssd1306CmdSetPrecharge : UInt8 := 0xD9
def ssd1306CmdPrechargeDefault : UInt8 := 0x22
def ssd1306CmdSetVcomDesel : UInt8 := 0xDB
def ssd1306CmdVcomDeselDefault : UInt8 := 0x30
def ssd1306CmdChargePump : UInt8 := 0x8D
def ssd1306CmdChargePumpOn : UInt8 := 0x14
def ssd1306CmdPrefix : UInt8 := 0x00
def ssd1306DataPrefix : UInt8 := 0x40

/-- What is sent in one transfer. -/
abbrev Message := List UInt8

structure OledState where
  fb : List UInt8
  initialized : Bool

def OledState.new : OledState := ⟨List.replicate oledFbSize 0, false⟩

def ssd1306SendCmd (cmd : UInt8) : BusM Message Unit := transmit [ssd1306CmdPrefix, cmd]

def ssd1306SendCmd2 (cmd arg : UInt8) : BusM Message Unit := transmit [ssd1306CmdPrefix, cmd, arg]

def ssd1306SendFramebuffer (fb : List UInt8) : BusM Message Unit := transmit (ssd1306DataPrefix :: fb)

def ssd1306InitSequence : BusM Message Unit := do
  ssd1306SendCmd ssd1306CmdDisplayOff
  ssd1306SendCmd2 ssd1306CmdSetDispClk ssd1306CmdDispClkDefault
  ssd1306SendCmd2 ssd1306CmdSetMuxRatio 63
  ssd1306SendCmd2 ssd1306CmdSetDispOffset 0
  ssd1306SendCmd (ssd1306CmdSetStartLine ||| 0)
  ssd1306SendCmd2 ssd1306CmdChargePump ssd1306CmdChargePumpOn
  ssd1306SendCmd2 ssd1306CmdSetAddrMode ssd1306AddrModeHorizontal
  ssd1306SendCmd ssd1306CmdSetSegRemap
  ssd1306SendCmd ssd1306CmdSetComScanDir
  ssd1306SendCmd2 ssd1306CmdSetComPins ssd1306CmdComPinsAlt
  ssd1306SendCmd2 ssd1306CmdSetContrast 0xCF
  ssd1306SendCmd2 ssd1306CmdSetPrecharge ssd1306CmdPrechargeDefault
  ssd1306SendCmd2 ssd1306CmdSetVcomDesel ssd1306CmdVcomDeselDefault
  ssd1306SendCmd ssd1306CmdEntireDisplayOn
  ssd1306SendCmd ssd1306CmdNormalDisplay
  ssd1306SendCmd ssd1306CmdDisplayOn

/-- The code of a program that has been run. -/
def codeOf : Except EspErr Unit → EspErr
  | .ok () => espOk
  | .error rc => rc

/-- The device is added to the bus and set up, and shown a blank buffer. What takes it off again after a failure has no
result. -/
def startDisplay (fb : List UInt8) : BusM Message Unit := do
  call
  ssd1306InitSequence
  ssd1306SendFramebuffer fb

def ssd1306Init (config : Option Unit) (s : OledState) (bus : Bus Message) : EspErr × OledState × Bus Message :=
  if config = none then (espErrInvalidArg, s, bus)
  else if s.initialized then (espOk, s, bus)
  else
    let s := { s with fb := List.replicate oledFbSize 0 }
    match (startDisplay s.fb).run bus with
    | (.error ret, bus) => (ret, s, bus)
    | (.ok (), bus) => (espOk, { s with initialized := true }, bus)

def ssd1306Deinit (s : OledState) (bus : Bus Message) : OledState × Bus Message :=
  if s.initialized then ({ s with initialized := false }, ((ssd1306SendCmd ssd1306CmdDisplayOff).run bus).2)
  else (s, bus)

/-- The pixels of a rectangle, each by its red channel. -/
def packPixels (x1 y1 x2 y2 : ℕ) (colorData : ℕ → UInt8) (fb : List UInt8) : List UInt8 :=
  let srcW := x2 - x1 + 1
  (span y1 y2).foldl (fun fb py =>
    let page := py / 8
    let bit := py % 8
    (span x1 x2).foldl (fun fb px =>
      let pixelIdx := (py - y1) * srcW + (px - x1)
      let byteLo : UInt16 := (colorData (pixelIdx * 2)).toUInt16
      let byteHi : UInt16 := (colorData (pixelIdx * 2 + 1)).toUInt16
      let rgb565 := byteLo ||| (byteHi <<< 8)
      let r5 := ((rgb565 >>> 11) &&& 0x1F).toUInt8
      let fbIdx := page * oledWidth + px
      if r5 > 8 then fb.modify fbIdx (· ||| (1 <<< UInt8.ofNat bit))
      else fb.modify fbIdx (· &&& ~~~(1 <<< UInt8.ofNat bit))) fb) fb

def ssd1306Flush (area : Option HalArea) (colorData : Option (ℕ → UInt8)) (s : OledState) (bus : Bus Message) :
    EspErr × OledState × Bus Message :=
  if s.initialized = false then (espErrInvalidState, s, bus)
  else
    match area, colorData with
    | some a, some colorData =>
      let x1 := a.x1.toNat
      let y1 := a.y1.toNat
      let x2 := min a.x2.toNat (oledWidth - 1)
      let y2 := min a.y2.toNat (oledHeight - 1)
      let s := { s with fb := packPixels x1 y1 x2 y2 colorData s.fb }
      let (r, bus) := (ssd1306SendFramebuffer s.fb).run bus
      (codeOf r, s, bus)
    | _, _ => (espErrInvalidArg, s, bus)

def ssd1306SetBrightness (percent : UInt8) (s : OledState) (bus : Bus Message) : EspErr × Bus Message :=
  if s.initialized = false then (espErrInvalidState, bus)
  else
    let clamped : UInt32 := if percent > 100 then 100 else percent.toUInt32
    let contrast := (clamped * 255 / 100).toUInt8
    let (r, bus) := (ssd1306SendCmd2 ssd1306CmdSetContrast contrast).run bus
    (codeOf r, bus)

def ssd1306Sleep (enter : Bool) (s : OledState) (bus : Bus Message) : EspErr × Bus Message :=
  if s.initialized = false then (espErrInvalidState, bus)
  else
    let cmd := if enter then ssd1306CmdDisplayOff else ssd1306CmdDisplayOn
    let (r, bus) := (ssd1306SendCmd cmd).run bus
    (codeOf r, bus)

/-! ### Pictures -/

def layout : Layout oledWidth oledHeight oledFbSize where
  byte x y := y / 8 * oledWidth + x
  bit _ y := y % 8
  byte_lt {x y} hx hy := by
    simp only [oledWidth, oledHeight, oledFbSize] at hx hy ⊢
    omega
  bit_lt x y := Nat.mod_lt y (by decide)
  inj {x y x' y'} hx hy hx' hy' hbyte hbit := by
    simp only [oledWidth, oledHeight] at hx hy hx' hy' hbyte
    omega

/-- The red channel of a color of sixteen bits. -/
def red (lo hi : UInt8) : ℕ := (lo.toNat + 256 * hi.toNat) / 2048

/-- The pixels that are lit: rows from the corner on, two bytes a pixel. -/
def imageOf (x1 y1 x2 : ℕ) (colorData : ℕ → UInt8) : Picture := fun x y =>
  let i := (y - y1) * (x2 - x1 + 1) + (x - x1)
  decide (8 < red (colorData (i * 2)) (colorData (i * 2 + 1)))

lemma toNat_rgb565 (lo hi : UInt8) : (lo.toUInt16 ||| (hi.toUInt16 <<< 8)).toNat = lo.toNat + 256 * hi.toNat := by
  have hlo : lo.toNat < 2 ^ 8 := lo.toNat_lt
  have hhi : hi.toNat < 2 ^ 8 := hi.toNat_lt
  have hshift : (hi.toUInt16 <<< 8).toNat = hi.toNat <<< 8 := by
    rw [UInt16.toNat_shiftLeft, UInt8.toNat_toUInt16]
    have hlt : hi.toNat <<< 8 < 2 ^ 16 := by
      rw [Nat.shiftLeft_eq]
      omega
    exact Nat.mod_eq_of_lt hlt
  rw [UInt16.toNat_or, hshift, UInt8.toNat_toUInt16, Nat.or_comm, ← Nat.shiftLeft_add_eq_or_of_lt hlo,
    Nat.shiftLeft_eq]
  omega

lemma toNat_r5 (lo hi : UInt8) :
    (((lo.toUInt16 ||| (hi.toUInt16 <<< 8)) >>> 11 &&& 0x1F).toUInt8).toNat = red lo hi := by
  have hlo : lo.toNat < 2 ^ 8 := lo.toNat_lt
  have hhi : hi.toNat < 2 ^ 8 := hi.toNat_lt
  have hshift : ((lo.toUInt16 ||| (hi.toUInt16 <<< 8)) >>> 11).toNat = red lo hi := by
    rw [UInt16.toNat_shiftRight, toNat_rgb565, red]
    exact Nat.shiftRight_eq_div_pow _ 11
  have hred : red lo hi < 32 := by
    rw [red]
    omega
  have hmask : ((lo.toUInt16 ||| (hi.toUInt16 <<< 8)) >>> 11 &&& 0x1F).toNat = red lo hi := by
    rw [UInt16.toNat_and, hshift]
    exact (Nat.and_two_pow_sub_one_eq_mod _ 5).trans (Nat.mod_eq_of_lt hred)
  rw [UInt16.toNat_toUInt8, hmask]
  exact Nat.mod_eq_of_lt (hred.trans (by decide))

lemma shifted_one : ∀ k < 8, (1 : UInt8) <<< UInt8.ofNat k = bitMask k := by decide

/-- The packing of a flush draws its picture. -/
lemma packPixels_eq (x1 y1 x2 y2 : ℕ) (colorData : ℕ → UInt8) (fb : List UInt8) :
    packPixels x1 y1 x2 y2 colorData fb = layout.draw (imageOf x1 y1 x2 colorData) x1 y1 x2 y2 fb := by
  rw [packPixels, Layout.draw]
  congr 1
  funext fb py
  rw [Layout.drawRow]
  dsimp only
  congr 1
  funext fb px
  have hlit (lo hi : UInt8) :
      ((lo.toUInt16 ||| (hi.toUInt16 <<< 8)) >>> 11 &&& 0x1F).toUInt8 > 8 ↔ 8 < red lo hi := by
    rw [gt_iff_lt, UInt8.lt_iff_toNat_lt, toNat_r5]
    rfl
  simp only [shifted_one _ (Nat.mod_lt py (by decide : 0 < 8)), hlit]
  rw [Layout.put]
  by_cases hon : imageOf x1 y1 x2 colorData px py = true
  · rw [if_pos (of_decide_eq_true hon), hon]
    rfl
  · rw [if_neg fun h => hon (decide_eq_true h), Bool.eq_false_iff.mpr hon]
    rfl

/-- A buffer has the bits of a picture. -/
def Shows (frame : List UInt8) (picture : Picture) : Prop :=
  frame.length = oledFbSize ∧ ∀ x y, x < oledWidth → y < oledHeight → layout.read frame x y = picture x y

def blank : Picture := fun _ _ => false

lemma shows_blank : Shows (List.replicate oledFbSize 0) blank := by
  refine ⟨List.length_replicate, fun x y hx hy => ?_⟩
  have hlt : layout.byte x y < oledFbSize := layout.byte_lt hx hy
  have hzero : (List.replicate oledFbSize (0 : UInt8)).getD (layout.byte x y) 0 = 0 := by
    rw [List.getD_eq_getElem?_getD, List.getElem?_replicate, if_pos hlt, Option.getD_some]
  rw [Layout.read, hzero]
  exact BitVec.getLsbD_zero

/-- The picture with the part of a flush that is on the display drawn over it. -/
def drawn (area : HalArea) (colorData : ℕ → UInt8) (picture : Picture) : Picture := fun x y =>
  if area.x1.toNat ≤ x ∧ x ≤ area.x2.toNat ∧ area.y1.toNat ≤ y ∧ y ≤ area.y2.toNat then
    imageOf area.x1.toNat area.y1.toNat (min area.x2.toNat (oledWidth - 1)) colorData x y
  else picture x y

/-- A flush draws its pixels, as far as they are on the display. -/
lemma shows_packPixels {fb : List UInt8} {picture : Picture} (h : Shows fb picture) (area : HalArea)
    (colorData : ℕ → UInt8) :
    Shows (packPixels area.x1.toNat area.y1.toNat (min area.x2.toNat (oledWidth - 1))
      (min area.y2.toNat (oledHeight - 1)) colorData fb) (drawn area colorData picture) := by
  obtain ⟨hlength, hread⟩ := h
  rw [packPixels_eq]
  refine ⟨(Layout.length_draw fb).trans hlength, fun x y hx hy => ?_⟩
  have hx2 : min area.x2.toNat (oledWidth - 1) < oledWidth := Nat.lt_of_le_of_lt (Nat.min_le_right _ _) (by decide)
  have hy2 : min area.y2.toNat (oledHeight - 1) < oledHeight := Nat.lt_of_le_of_lt (Nat.min_le_right _ _) (by decide)
  have hinside : (area.x1.toNat ≤ x ∧ x ≤ min area.x2.toNat (oledWidth - 1)) ∧
      area.y1.toNat ≤ y ∧ y ≤ min area.y2.toNat (oledHeight - 1) ↔
      area.x1.toNat ≤ x ∧ x ≤ area.x2.toNat ∧ area.y1.toNat ≤ y ∧ y ≤ area.y2.toNat := by
    simp only [oledWidth, oledHeight] at hx hy ⊢
    omega
  rw [Layout.read_draw hx2 hy2 hlength hx hy, hread x y hx hy, drawn]
  simp only [hinside]

/-! ### Runs -/

inductive Op
  | init (config : Option Unit) (answers : List EspErr)
  | deinit (answers : List EspErr)
  | flush (area : Option HalArea) (colorData : Option (ℕ → UInt8)) (answers : List EspErr)
  | setBrightness (percent : UInt8) (answers : List EspErr)
  | sleep (enter : Bool) (answers : List EspErr)

/-- The driver and all that the display has received. -/
structure State where
  driver : OledState
  sent : List Message

def State.start : State := ⟨.new, []⟩

/-- The driver and the display. A deinitialisation has no result. -/
def oled : Component Op (fun _ => EspErr) State where
  step
    | .init config answers, s =>
      let r := ssd1306Init config s.driver ⟨answers, s.sent⟩
      (r.1, ⟨r.2.1, r.2.2.sent⟩)
    | .deinit answers, s =>
      let r := ssd1306Deinit s.driver ⟨answers, s.sent⟩
      (espOk, ⟨r.1, r.2.sent⟩)
    | .flush area colorData answers, s =>
      let r := ssd1306Flush area colorData s.driver ⟨answers, s.sent⟩
      (r.1, ⟨r.2.1, r.2.2.sent⟩)
    | .setBrightness percent answers, s =>
      let r := ssd1306SetBrightness percent s.driver ⟨answers, s.sent⟩
      (r.1, { s with sent := r.2.sent })
    | .sleep enter answers, s =>
      let r := ssd1306Sleep enter s.driver ⟨answers, s.sent⟩
      (r.1, { s with sent := r.2.sent })

/-- A flush without an area or without colors draws nothing. -/
def drawnBy (area : Option HalArea) (colorData : Option (ℕ → UInt8)) (picture : Picture) : Picture :=
  match area, colorData with
  | some area, some colorData => drawn area colorData picture
  | _, _ => picture

/-- What the calls have drawn since the display was set up. A flush draws whether it reaches the display or not. -/
def record (o : Op) (rc : EspErr) (picture : Option Picture) : Option Picture :=
  match o with
  | .init _ _ => if rc = espOk then some (picture.getD blank) else picture
  | .deinit _ => none
  | .flush area colorData _ => picture.map (drawnBy area colorData)
  | _ => picture

/-- The buffer has what has been drawn. -/
structure Sound (s : OledState) (picture : Option Picture) : Prop where
  initialized : s.initialized = picture.isSome
  shows : ∀ p, picture = some p → Shows s.fb p

/-- The message that the display has received last is a picture. -/
def Received (sent : List Message) (picture : Option Picture) : Prop :=
  ∃ p frame, picture = some p ∧ sent.getLast? = some (ssd1306DataPrefix :: frame) ∧ Shows frame p

lemma sound_none {s : OledState} (h : s.initialized = false) : Sound s none := ⟨h, fun _ hp => nomatch hp⟩

lemma sound_some {s : OledState} {p : Picture} (hinit : s.initialized = true) (hfb : Shows s.fb p) :
    Sound s (some p) where
  initialized := hinit
  shows p' hp' := by
    obtain rfl := Option.some.inj hp'
    exact hfb

section Steps

variable {s : OledState} {picture : Option Picture}

lemma Sound.eq_some (h : Sound s picture) (hinit : s.initialized = true) : ∃ p, picture = some p ∧ Shows s.fb p := by
  obtain ⟨p, rfl⟩ := Option.isSome_iff_exists.mp (h.initialized.symm.trans hinit)
  exact ⟨p, rfl, h.shows p rfl⟩

lemma Sound.eq_none (h : Sound s picture) (hinit : s.initialized = false) : picture = none :=
  Option.not_isSome_iff_eq_none.mp (by rw [← h.initialized, hinit]; decide)

/-- The last message. -/
abbrev Tells := Bus.Tells (fun (_ : Option Message) (m : Message) => some m)

lemma foldl_last (sent : List Message) :
    sent.foldl (fun (_ : Option Message) (m : Message) => some m) none = sent.getLast? := by
  induction sent using List.reverseRecOn with
  | nil => rfl
  | append_singleton sent m ih => rw [List.foldl_append, List.getLast?_concat]; rfl

lemma tells_sendFramebuffer (fb : List UInt8) :
    Tells (ssd1306SendFramebuffer fb) (fun _ => some (ssd1306DataPrefix :: fb)) :=
  tells_transmit (ssd1306DataPrefix :: fb)

lemma tells_initSequence : ∃ f, Tells ssd1306InitSequence f := by
  have hcmd (cmd : UInt8) : Tells (ssd1306SendCmd cmd) _ := tells_transmit [ssd1306CmdPrefix, cmd]
  have hcmd2 (cmd arg : UInt8) : Tells (ssd1306SendCmd2 cmd arg) _ := tells_transmit [ssd1306CmdPrefix, cmd, arg]
  exact ⟨_, (hcmd _).bind ((hcmd2 _ _).bind ((hcmd2 _ _).bind ((hcmd2 _ _).bind ((hcmd _).bind ((hcmd2 _ _).bind
    ((hcmd2 _ _).bind ((hcmd _).bind ((hcmd _).bind ((hcmd2 _ _).bind ((hcmd2 _ _).bind ((hcmd2 _ _).bind
    ((hcmd2 _ _).bind ((hcmd _).bind ((hcmd _).bind (hcmd _)))))))))))))))⟩

lemma tells_startDisplay (fb : List UInt8) :
    Tells (startDisplay fb) (fun _ => some (ssd1306DataPrefix :: fb)) := by
  obtain ⟨f, hf⟩ := tells_initSequence
  exact tells_call.bind (hf.bind (tells_sendFramebuffer fb))

/-- The first call that sets the display up shows a blank picture. -/
lemma init_spec (h : Sound s picture) (config : Option Unit) (answers : List EspErr) (bus : Bus Message) :
    let r := ssd1306Init config s bus
    Sound r.2.1 (record (.init config answers) r.1 picture) ∧
      (picture = none → r.1 = espOk → Received r.2.2.sent (record (.init config answers) r.1 picture)) := by
  intro r
  have hr : r = ssd1306Init config s bus := rfl
  have harg : espErrInvalidArg ≠ espOk := by decide
  rw [ssd1306Init] at hr
  split_ifs at hr with hconfig hinit
  · rw [hr]
    exact ⟨h, fun _ hok => absurd hok harg⟩
  · obtain ⟨p, rfl, -⟩ := h.eq_some hinit
    rw [hr]
    exact ⟨h, fun hnone => nomatch hnone⟩
  · have hoff : s.initialized = false := Bool.eq_false_iff.mpr hinit
    obtain rfl := h.eq_none hoff
    have hstart := tells_startDisplay (List.replicate oledFbSize 0)
    rcases hrun : (startDisplay (List.replicate oledFbSize 0)).run bus with ⟨e, bus'⟩
    dsimp only at hr
    rw [hrun] at hr
    cases e with
    | error rc =>
      have hrc := hstart.error hrun
      rw [hr, record, if_neg hrc]
      exact ⟨sound_none hoff, fun _ hok => absurd hok hrc⟩
    | ok u =>
      have hlast := hstart.ok none hrun
      rw [foldl_last] at hlast
      rw [hr, record, if_pos rfl, Option.getD_none]
      exact ⟨sound_some rfl shows_blank, fun _ _ => ⟨blank, _, rfl, hlast, shows_blank⟩⟩

/-- A flush draws, and shows what has been drawn if it succeeds. -/
lemma flush_spec (h : Sound s picture) (area : Option HalArea) (colorData : Option (ℕ → UInt8))
    (answers : List EspErr) (bus : Bus Message) :
    let r := ssd1306Flush area colorData s bus
    Sound r.2.1 (record (.flush area colorData answers) r.1 picture) ∧
      (r.1 = espOk → Received r.2.2.sent (record (.flush area colorData answers) r.1 picture)) := by
  have hstate : espErrInvalidState ≠ espOk := by decide
  have harg : espErrInvalidArg ≠ espOk := by decide
  by_cases hinit : s.initialized = false
  · obtain rfl := h.eq_none hinit
    have hr : ssd1306Flush area colorData s bus = (espErrInvalidState, s, bus) := if_pos hinit
    rw [hr]
    exact ⟨h, fun hok => absurd hok hstate⟩
  · have hon : s.initialized = true := Bool.eq_true_of_not_eq_false hinit
    obtain ⟨p, rfl, hfb⟩ := h.eq_some hon
    match area, colorData with
    | some a, some colorData =>
      let fb := packPixels a.x1.toNat a.y1.toNat (min a.x2.toNat (oledWidth - 1)) (min a.y2.toNat (oledHeight - 1))
        colorData s.fb
      have hdrawn : Shows fb (drawn a colorData p) := shows_packPixels hfb a colorData
      have hr : ssd1306Flush (some a) (some colorData) s bus =
          (codeOf ((ssd1306SendFramebuffer fb).run bus).1, { s with fb := fb },
            ((ssd1306SendFramebuffer fb).run bus).2) := if_neg hinit
      have hsend := tells_sendFramebuffer fb
      rw [hr]
      refine ⟨sound_some hon hdrawn, fun hok => ?_⟩
      rcases hrun : (ssd1306SendFramebuffer fb).run bus with ⟨e, bus'⟩
      rw [hrun] at hok
      cases e with
      | error rc => exact absurd hok (hsend.error hrun)
      | ok u =>
        have hlast := hsend.ok none hrun
        rw [foldl_last] at hlast
        exact ⟨_, _, rfl, hlast, hdrawn⟩
    | none, colorData =>
      have hr : ssd1306Flush none colorData s bus = (espErrInvalidArg, s, bus) := if_neg hinit
      rw [hr]
      exact ⟨h, fun hok => absurd hok harg⟩
    | some a, none =>
      have hr : ssd1306Flush (some a) none s bus = (espErrInvalidArg, s, bus) := if_neg hinit
      rw [hr]
      exact ⟨h, fun hok => absurd hok harg⟩

end Steps

/-- Every call keeps the buffer and the picture together. -/
lemma sound_next (o : Op) (w : State × Option Picture) (h : Sound w.1.driver w.2) :
    Sound ((oled.watch record).next o w).1.driver ((oled.watch record).next o w).2 := by
  obtain ⟨s, picture⟩ := w
  cases o with
  | init config answers => exact (init_spec h config answers _).1
  | deinit answers =>
    refine sound_none ?_
    change (ssd1306Deinit s.driver ⟨answers, s.sent⟩).1.initialized = false
    rw [ssd1306Deinit]
    split_ifs with hinit
    · rfl
    · exact Bool.eq_false_iff.mpr hinit
  | flush area colorData answers => exact (flush_spec h area colorData answers _).1
  | setBrightness percent answers => exact h
  | sleep enter answers => exact h

/-- The call sends a picture if it succeeds: a flush, or what sets up a display that is not set up. -/
def Draws (o : Op) (w : State × Option Picture) : Prop :=
  match o with
  | .flush _ _ _ => True
  | .init _ _ => w.2 = none
  | _ => False

/-- In every run of the driver, whatever happens to its transfers, a flush that succeeds has sent the display all that
has been drawn since it was set up, with the flushes that did not reach it. -/
theorem received_along (ops : List Op) :
    (oled.watch record).Along (fun o w => Draws o w → oled.reply o w.1 = espOk →
      Received ((oled.watch record).next o w).1.sent ((oled.watch record).next o w).2) (.start, none) ops := by
  have hsound : (oled.watch record).Along (fun _ w => Sound w.1.driver w.2 ∧ True) (.start, none) ops :=
    (Component.along_of_preserved (I := fun w => Sound w.1.driver w.2) (P := fun _ _ => True)
      (fun o w h _ => sound_next o w h) (sound_none rfl) (fun _ _ _ _ => trivial)).1
  refine hsound.mono fun o w h hdraws hok => ?_
  cases o with
  | init config answers => exact (init_spec h.1 config answers _).2 hdraws hok
  | flush area colorData answers => exact (flush_spec h.1 area colorData answers _).2 hok
  | deinit _ | setBrightness _ _ | sleep _ _ => exact absurd hdraws id

end ThistleOS.Oled
