import Mathlib.Algebra.Order.Group.Nat
import ThistleOS.Bitmap
import ThistleOS.Bus
import ThistleOS.Component
import ThistleOS.Kernel.DisplayServer

/-!
# The driver of the e-paper panel

The driver keeps the picture in a buffer and sends it when it is told to refresh. A fast refresh is a difference: the
panel is told which picture it shows and which one it is to show, so the driver keeps the picture of the last refresh.
-/

open Bitmap (Layout span testBit bitMask putBits)
open ThistleOS.Bus (call transmit sendAll tells_call tells_transmit tells_pure tells_sendAll)
open ThistleOS.Display (HalArea)

namespace ThistleOS.Epaper

/-! ### The bus -/

/-- What the panel receives. -/
inductive Transaction
  | cmd (c : UInt8)
  | data (chunk : List UInt8)
  deriving DecidableEq

/-- The pieces in which a buffer is sent. -/
def chunks (data : List UInt8) : List Transaction :=
  if data = [] then []
  else .data (data.take 4096) :: chunks (data.drop 4096)
termination_by data.length
decreasing_by
  have hpos : 0 < data.length := List.length_pos_of_ne_nil ‹_›
  rw [List.length_drop]
  exact Nat.sub_lt hpos (by decide)

def epaperSpiData (data : List UInt8) : BusM Transaction Unit := sendAll (chunks data)

def epaperSendCmd (cmd : UInt8) : BusM Transaction Unit := transmit (.cmd cmd)

def epaperSendData (data : List UInt8) : BusM Transaction Unit := epaperSpiData data

def epaperSendDataByte (val : UInt8) : BusM Transaction Unit := epaperSpiData [val]

def epaperWaitBusy : BusM Transaction Unit := call

/-! ### The driver -/

def epdWidth : ℕ := 240
def epdHeight : ℕ := 320
def epdFbBytes : ℕ := epdWidth * epdHeight / 8

def cmdPanelSetting : UInt8 := 0x00
def cmdPowerSetting : UInt8 := 0x01
def cmdPowerOff : UInt8 := 0x02
def cmdPowerOn : UInt8 := 0x04
def cmdBoosterSoftStart : UInt8 := 0x06
def cmdResolutionSetting : UInt8 := 0x61
def cmdDeepSleep : UInt8 := 0x07
def cmdDataStartTransmission : UInt8 := 0x10
def cmdNewDataTransmission : UInt8 := 0x13
def cmdDisplayRefresh : UInt8 := 0x12
def cmdVcomDataInterval : UInt8 := 0x50
def cmdCascade : UInt8 := 0xE0
def cmdTemperatureForced : UInt8 := 0xE5

inductive HalDisplayRefreshMode
  | full
  | part
  | fast
  deriving DecidableEq

structure EpaperState where
  refreshMode : HalDisplayRefreshMode
  initialized : Bool
  firstRefreshDone : Bool
  fb : List UInt8
  fbOld : List UInt8

def EpaperState.new : EpaperState where
  refreshMode := .full
  initialized := false
  firstRefreshDone := false
  fb := List.replicate epdFbBytes 0
  fbOld := List.replicate epdFbBytes 0

def initSequence : BusM Transaction Unit := do
  epaperSendCmd cmdPanelSetting
  epaperSendDataByte 0x1E
  epaperSendDataByte 0x0D
  epaperSendCmd cmdPowerSetting
  epaperSendDataByte 0x07
  epaperSendDataByte 0x17
  epaperSendDataByte 0x3F
  epaperSendDataByte 0x3F
  epaperSendDataByte 0xF1
  epaperSendCmd cmdBoosterSoftStart
  epaperSendDataByte 0x17
  epaperSendDataByte 0x17
  epaperSendDataByte 0x17
  epaperSendCmd cmdPanelSetting
  epaperSendDataByte 0x1F
  epaperSendDataByte 0x0D
  epaperSendCmd cmdResolutionSetting
  epaperSendDataByte 0xF0
  epaperSendDataByte 0x01
  epaperSendDataByte 0x40
  epaperSendCmd cmdVcomDataInterval
  epaperSendDataByte 0x97

/-- The stripes that are loaded when the driver starts. -/
def testPattern : List UInt8 :=
  (List.range epdFbBytes).map fun i => if i / 30 % 2 = 0 then 0x00 else 0xFF

/-- The pins and the device on the bus. -/
def attach : BusM Transaction Unit := do
  call
  call
  call

def gdeq031t10Init (config : Option Unit) (s : EpaperState) (spi : Bus Transaction) :
    EspErr × EpaperState × Bus Transaction :=
  if config = none then (espErrInvalidArg, s, spi)
  else if s.initialized then (espOk, s, spi)
  else
    let s := { s with
      refreshMode := .full
      fb := List.replicate epdFbBytes 0xFF
      fbOld := List.replicate epdFbBytes 0xFF }
    match attach.run spi with
    | (.error rc, spi) => (rc, s, spi)
    | (.ok (), spi) =>
      match initSequence.run spi with
      | (.error _, spi) => (espFail, s, spi)
      | (.ok (), spi) => (espOk, { s with initialized := true, firstRefreshDone := false, fb := testPattern }, spi)

def gdeq031t10Deinit (s : EpaperState) (spi : Bus Transaction) : EpaperState × Bus Transaction :=
  if s.initialized then
    let spi := ((epaperSendCmd cmdDeepSleep).run spi).2
    let spi := ((epaperSendDataByte 0xA5).run spi).2
    ({ s with initialized := false }, spi)
  else (s, spi)

/-- The copy of the pixels between two corners. The rows of the data are padded to bytes, those of the panel are the
other way up. -/
def copyPixels (x1 y1 x2 y2 : ℕ) (colorData : ℕ → UInt8) (fb : List UInt8) : List UInt8 :=
  let srcW := x2 - x1 + 1
  let srcRowBytes := (srcW + 7) / 8
  (span y1 y2).foldl (fun fb row =>
    (span x1 x2).foldl (fun fb col =>
      let srcBitIdx := col - x1
      let srcByte := colorData ((row - y1) * srcRowBytes + srcBitIdx / 8)
      let srcBit := (srcByte >>> UInt8.ofNat (7 - (srcBitIdx &&& 7))) &&& 1
      let dstRow := epdHeight - 1 - row
      let dstCol := col
      let dstBitIdx := dstRow * epdWidth + dstCol
      let dstByteIdx := dstBitIdx / 8
      let dstMask := (0x80 : UInt8) >>> UInt8.ofNat (dstBitIdx &&& 7)
      if srcBit ≠ 0 then fb.modify dstByteIdx (· ||| dstMask)
      else fb.modify dstByteIdx (· &&& ~~~dstMask)) fb) fb

/-- The last place in a panel of `size` that is not behind `n`. -/
def clip (n size : ℕ) : ℕ := if n ≥ size then size - 1 else n

def gdeq031t10Flush (area : Option HalArea) (colorData : Option (ℕ → UInt8)) (s : EpaperState) :
    EspErr × EpaperState :=
  if s.initialized = false then (espErrInvalidState, s)
  else
    match area, colorData with
    | some area, some colorData =>
      let x1 := area.x1.toNat
      let y1 := area.y1.toNat
      let x2 := clip area.x2.toNat epdWidth
      let y2 := clip area.y2.toNat epdHeight
      if x1 > x2 ∨ y1 > y2 then (espErrInvalidArg, s)
      else (espOk, { s with fb := copyPixels x1 y1 x2 y2 colorData s.fb })
    | _, _ => (espErrInvalidArg, s)

def refreshPanelSoftReset : BusM Transaction Unit := do
  epaperSendCmd cmdPanelSetting
  epaperSendDataByte 0x1E
  epaperSendDataByte 0x0D

def refreshPanelConfig : BusM Transaction Unit := do
  epaperSendCmd cmdPanelSetting
  epaperSendDataByte 0x1F
  epaperSendDataByte 0x0D

def refreshSendOldFb (s : EpaperState) : BusM Transaction Unit := do
  epaperSendCmd cmdDataStartTransmission
  epaperSendData s.fbOld

def refreshSendCurrentAsOldFb (s : EpaperState) : BusM Transaction Unit := do
  epaperSendCmd cmdDataStartTransmission
  epaperSendData s.fb

def refreshSendNewFb (s : EpaperState) : BusM Transaction Unit := do
  epaperSendCmd cmdNewDataTransmission
  epaperSendData s.fb

def refreshVcomAndFast (fast : Bool) : BusM Transaction Unit := do
  epaperSendCmd cmdVcomDataInterval
  epaperSendDataByte (if fast then 0xD7 else 0x97)
  if fast then
    epaperSendCmd cmdCascade
    epaperSendDataByte 0x02
    epaperSendCmd cmdTemperatureForced
    epaperSendDataByte 0x79

def refreshPowerOn : BusM Transaction Unit := epaperSendCmd cmdPowerOn

def refreshDisplayAndWait : BusM Transaction Unit := epaperSendCmd cmdDisplayRefresh

/-- What a refresh sends. How long it waits between the commands, and that a wait has run out, does not change it. -/
def refreshSequence (fast : Bool) (s : EpaperState) : BusM Transaction Unit := do
  refreshPanelSoftReset
  refreshPanelConfig
  if fast then refreshSendOldFb s else refreshSendCurrentAsOldFb s
  refreshSendNewFb s
  refreshVcomAndFast fast
  refreshPowerOn
  refreshDisplayAndWait
  epaperSendCmd cmdPowerOff

def EpaperState.isFast (s : EpaperState) : Bool := s.firstRefreshDone && s.refreshMode != .full

def gdeq031t10Refresh (s : EpaperState) (spi : Bus Transaction) : EspErr × EpaperState × Bus Transaction :=
  if s.initialized = false then (espErrInvalidState, s, spi)
  else
    let fast := s.isFast
    match (refreshSequence fast s).run spi with
    | (.error err, spi) => (err, s, spi)
    | (.ok (), spi) =>
      (espOk, { s with
        fbOld := s.fb
        firstRefreshDone := true
        refreshMode := if fast then s.refreshMode else .fast }, spi)

def enterSleep : BusM Transaction Unit := do
  epaperSendCmd cmdPowerOff
  epaperWaitBusy
  epaperSendCmd cmdDeepSleep
  epaperSendDataByte 0xA5

def wakeUp : BusM Transaction Unit := do
  epaperWaitBusy
  epaperSendCmd cmdPowerOn
  epaperWaitBusy

def gdeq031t10Sleep (enter : Bool) (s : EpaperState) (spi : Bus Transaction) : EspErr × Bus Transaction :=
  if s.initialized = false then (espErrInvalidState, spi)
  else
    match (if enter then enterSleep else wakeUp).run spi with
    | (.error err, spi) => (err, spi)
    | (.ok (), spi) => (espOk, spi)

def gdeq031t10SetRefreshMode (mode : HalDisplayRefreshMode) (s : EpaperState) : EspErr × EpaperState :=
  (espOk, { s with refreshMode := mode })

/-! ### The panel -/

/-- The two planes of the panel, the command whose data it takes, and the planes of the last picture it was told to
show. -/
structure Panel where
  cmd : UInt8
  oldPlane : List UInt8
  newPlane : List UInt8
  displayed : Option (List UInt8 × List UInt8)

namespace Panel

def start : Panel := ⟨0, [], [], none⟩

/-- A plane is written from its start after its command. -/
def command (c : UInt8) (p : Panel) : Panel where
  cmd := c
  oldPlane := if c = cmdDataStartTransmission then [] else p.oldPlane
  newPlane := if c = cmdNewDataTransmission then [] else p.newPlane
  displayed := if c = cmdDisplayRefresh then some (p.oldPlane, p.newPlane) else p.displayed

def write (data : List UInt8) (p : Panel) : Panel :=
  { p with
    oldPlane := if p.cmd = cmdDataStartTransmission then p.oldPlane ++ data else p.oldPlane
    newPlane := if p.cmd = cmdNewDataTransmission then p.newPlane ++ data else p.newPlane }

def receive (p : Panel) : Transaction → Panel
  | .cmd c => p.command c
  | .data chunk => p.write chunk

lemma write_nil (p : Panel) : p.write [] = p := by
  simp [write]

lemma write_append (data data' : List UInt8) (p : Panel) : p.write (data ++ data') = (p.write data).write data' := by
  simp only [write, mk.injEq, true_and, and_true]
  split_ifs
  · exact ⟨(List.append_assoc ..).symm, (List.append_assoc ..).symm⟩
  · exact ⟨(List.append_assoc ..).symm, rfl⟩
  · exact ⟨rfl, (List.append_assoc ..).symm⟩
  · exact ⟨rfl, rfl⟩

/-- The pieces of a buffer are as good as the buffer. -/
lemma foldl_chunks (data : List UInt8) (p : Panel) : (chunks data).foldl receive p = p.write data := by
  induction data using chunks.induct generalizing p with
  | case1 => rw [chunks, if_pos rfl, write_nil, List.foldl_nil]
  | case2 data hmore ih =>
    rw [chunks, if_neg hmore, List.foldl_cons, ih]
    exact (write_append _ _ p).symm.trans (by rw [List.take_append_drop])

end Panel

abbrev Tells := Bus.Tells Panel.receive

lemma tells_cmd (c : UInt8) : Tells (epaperSendCmd c) (Panel.command c) :=
  tells_transmit (Transaction.cmd c)

lemma tells_data (data : List UInt8) : Tells (epaperSendData data) (Panel.write data) := by
  have hchunks : (fun p => (chunks data).foldl Panel.receive p) = Panel.write data :=
    funext fun p => p.foldl_chunks data
  exact hchunks ▸ tells_sendAll (chunks data)

lemma tells_byte (val : UInt8) : Tells (epaperSendDataByte val) (Panel.write [val]) := tells_data [val]

/-- A refresh that goes through shows the picture of the buffer, with the picture before it as the other plane where
it is fast. -/
lemma tells_refreshSequence (fast : Bool) (s : EpaperState) :
    ∃ f, Tells (refreshSequence fast s) f ∧
      ∀ p : Panel, (f p).displayed = some (if fast then s.fbOld else s.fb, s.fb) := by
  have hreset : Tells refreshPanelSoftReset _ := (tells_cmd _).bind ((tells_byte _).bind (tells_byte _))
  have hconfig : Tells refreshPanelConfig _ := (tells_cmd _).bind ((tells_byte _).bind (tells_byte _))
  have hnew : Tells (refreshSendNewFb s) _ := (tells_cmd _).bind (tells_data _)
  have hon : Tells refreshPowerOn _ := tells_cmd _
  have hdisplay : Tells refreshDisplayAndWait _ := tells_cmd _
  cases fast with
  | true =>
    have hold : Tells (refreshSendOldFb s) _ := (tells_cmd _).bind (tells_data _)
    have hvcom : Tells (refreshVcomAndFast true) _ :=
      (tells_cmd _).bind ((tells_byte _).bind ((tells_cmd _).bind ((tells_byte _).bind
        ((tells_cmd _).bind (tells_byte _)))))
    refine ⟨_, hreset.bind (hconfig.bind (hold.bind (hnew.bind (hvcom.bind (hon.bind (hdisplay.bind
      (tells_cmd _))))))), fun p => ?_⟩
    simp [Panel.command, Panel.write, cmdDisplayRefresh, cmdPowerOff, cmdPowerOn, cmdTemperatureForced, cmdCascade,
      cmdVcomDataInterval, cmdNewDataTransmission, cmdDataStartTransmission, cmdPanelSetting]
  | false =>
    have hold : Tells (refreshSendCurrentAsOldFb s) _ := (tells_cmd _).bind (tells_data _)
    have hvcom : Tells (refreshVcomAndFast false) _ := (tells_cmd _).bind ((tells_byte _).bind tells_pure)
    refine ⟨_, hreset.bind (hconfig.bind (hold.bind (hnew.bind (hvcom.bind (hon.bind (hdisplay.bind
      (tells_cmd _))))))), fun p => ?_⟩
    simp [Panel.command, Panel.write, cmdDisplayRefresh, cmdPowerOff, cmdPowerOn,
      cmdVcomDataInterval, cmdNewDataTransmission, cmdDataStartTransmission, cmdPanelSetting]

/-! ### Pictures -/

def layout : Layout epdWidth epdHeight epdFbBytes where
  byte x y := ((epdHeight - 1 - y) * epdWidth + x) / 8
  bit x y := 7 - ((epdHeight - 1 - y) * epdWidth + x) % 8
  byte_lt {x y} hx hy := by
    simp only [epdWidth, epdHeight, epdFbBytes] at hx hy ⊢
    omega
  bit_lt x y := by omega
  inj {x y x' y'} hx hy hx' hy' hbyte hbit := by
    simp only [epdWidth, epdHeight] at hx hy hx' hy' hbyte hbit
    omega

/-- The picture that the bytes of a flush stand for: rows from the corner on, each padded to whole bytes. -/
def imageOf (x1 y1 x2 : ℕ) (colorData : ℕ → UInt8) : Picture := fun x y =>
  testBit (colorData ((y - y1) * ((x2 - x1 + 1 + 7) / 8) + (x - x1) / 8)) (7 - (x - x1) % 8)

lemma and_seven (i : ℕ) : i &&& 7 = i % 8 := Nat.and_two_pow_sub_one_eq_mod i 3

lemma shifted_bit (b : UInt8) {k : ℕ} (hk : k < 8) : (b >>> UInt8.ofNat k) &&& 1 ≠ 0 ↔ testBit b k = true := by
  have hshift : ((b >>> UInt8.ofNat k) &&& 1).toNat = b.toNat / 2 ^ k % 2 := by
    rw [UInt8.toNat_and, UInt8.toNat_shiftRight, UInt8.toNat_ofNat', Nat.shiftRight_eq_div_pow]
    have hmod : k % 2 ^ 8 % 8 = k := by omega
    rw [hmod]
    exact Nat.and_one_is_mod _
  have hbit : testBit b k = decide (b.toNat / 2 ^ k % 2 = 1) := Nat.testBit_eq_decide_div_mod_eq
  rw [hbit, decide_eq_true_iff, ← hshift, ne_eq, ← UInt8.toNat_inj]
  have hlt : ((b >>> UInt8.ofNat k) &&& 1).toNat < 2 := hshift ▸ Nat.mod_lt _ (by decide)
  have hzero : (0 : UInt8).toNat = 0 := rfl
  omega

lemma shifted_mask : ∀ k < 8, (0x80 : UInt8) >>> UInt8.ofNat k = bitMask (7 - k) := by decide

/-- The copy of a flush draws its picture. -/
lemma copyPixels_eq (x1 y1 x2 y2 : ℕ) (colorData : ℕ → UInt8) (fb : List UInt8) :
    copyPixels x1 y1 x2 y2 colorData fb = layout.draw (imageOf x1 y1 x2 colorData) x1 y1 x2 y2 fb := by
  rw [copyPixels, Layout.draw]
  congr 1
  funext fb row
  rw [Layout.drawRow]
  congr 1
  funext fb col
  have hmask := shifted_mask _ (Nat.mod_lt ((epdHeight - 1 - row) * epdWidth + col) (by decide : 0 < 8))
  have hsrc := shifted_bit (colorData ((row - y1) * ((x2 - x1 + 1 + 7) / 8) + (col - x1) / 8))
    (show 7 - (col - x1) % 8 < 8 by omega)
  simp only [and_seven, hmask]
  rw [Layout.put]
  by_cases hon : imageOf x1 y1 x2 colorData col row = true
  · rw [if_pos (hsrc.mpr hon), hon]
    rfl
  · rw [if_neg fun h => hon (hsrc.mp h), Bool.eq_false_iff.mpr hon]
    rfl

/-- A buffer has the bits of a picture. -/
def Shows (frame : List UInt8) (picture : Picture) : Prop :=
  frame.length = epdFbBytes ∧ ∀ x y, x < epdWidth → y < epdHeight → layout.read frame x y = picture x y

/-! ### Runs -/

inductive Op
  | init (config : Option Unit) (answers : List EspErr)
  | deinit (answers : List EspErr)
  | flush (area : Option HalArea) (colorData : Option (ℕ → UInt8))
  | refresh (answers : List EspErr)
  | sleep (enter : Bool) (answers : List EspErr)
  | setRefreshMode (mode : HalDisplayRefreshMode)

/-- The driver and all that the panel has received. -/
structure State where
  driver : EpaperState
  sent : List Transaction

def State.start : State := ⟨.new, []⟩

/-- The driver and the panel. A deinitialisation has no result. -/
def epaper : Component Op (fun _ => EspErr) State where
  step
    | .init config answers, s =>
      let r := gdeq031t10Init config s.driver ⟨answers, s.sent⟩
      (r.1, ⟨r.2.1, r.2.2.sent⟩)
    | .deinit answers, s =>
      let r := gdeq031t10Deinit s.driver ⟨answers, s.sent⟩
      (espOk, ⟨r.1, r.2.sent⟩)
    | .flush area colorData, s =>
      let r := gdeq031t10Flush area colorData s.driver
      (r.1, { s with driver := r.2 })
    | .refresh answers, s =>
      let r := gdeq031t10Refresh s.driver ⟨answers, s.sent⟩
      (r.1, ⟨r.2.1, r.2.2.sent⟩)
    | .sleep enter answers, s =>
      let r := gdeq031t10Sleep enter s.driver ⟨answers, s.sent⟩
      (r.1, { s with sent := r.2.sent })
    | .setRefreshMode mode, s =>
      let r := gdeq031t10SetRefreshMode mode s.driver
      (r.1, { s with driver := r.2 })

/-- The picture that has been drawn since the driver was started, and the one of the last refresh. -/
structure Canvas where
  picture : Picture
  refreshed : Option Picture

/-- The picture with the part of a flush that is on the panel drawn over it. -/
def drawn (area : HalArea) (colorData : ℕ → UInt8) (picture : Picture) : Picture := fun x y =>
  if area.x1.toNat ≤ x ∧ x ≤ area.x2.toNat ∧ area.y1.toNat ≤ y ∧ y ≤ area.y2.toNat then
    imageOf area.x1.toNat area.y1.toNat (clip area.x2.toNat epdWidth) colorData x y
  else picture x y

/-- Rows in black and white by turns. -/
def stripes : Picture := fun _ y => (epdHeight - 1 - y) % 2 = 1

/-- What a call that succeeds has drawn. -/
def drawnBy : Op → Option Canvas → Option Canvas
  | .init _ _, canvas => some (canvas.getD ⟨stripes, none⟩)
  | .deinit _, _ => none
  | .flush (some area) (some colorData), canvas =>
    canvas.map fun c => { c with picture := drawn area colorData c.picture }
  | .refresh _, canvas => canvas.map fun c => { c with refreshed := some c.picture }
  | _, canvas => canvas

def record (o : Op) (rc : EspErr) (canvas : Option Canvas) : Option Canvas :=
  if rc = espOk then drawnBy o canvas else canvas

lemma record_ok (o : Op) (canvas : Option Canvas) : record o espOk canvas = drawnBy o canvas := if_pos rfl

lemma record_error (o : Op) {rc : EspErr} (h : rc ≠ espOk) (canvas : Option Canvas) : record o rc canvas = canvas :=
  if_neg h

lemma record_sleep (enter : Bool) (answers : List EspErr) (rc : EspErr) (canvas : Option Canvas) :
    record (.sleep enter answers) rc canvas = canvas := ite_self _

/-- The buffers have the pictures that have been drawn. -/
structure Sound (s : EpaperState) (canvas : Option Canvas) : Prop where
  initialized : s.initialized = canvas.isSome
  shows : ∀ c, canvas = some c → Shows s.fb c.picture
  first : ∀ c, canvas = some c → s.firstRefreshDone = c.refreshed.isSome
  refreshed : ∀ c p, canvas = some c → c.refreshed = some p → Shows s.fbOld p

lemma sound_none {s : EpaperState} (h : s.initialized = false) : Sound s none where
  initialized := h
  shows := by simp
  first := by simp
  refreshed := by simp

lemma sound_some {s : EpaperState} {c : Canvas} (hinit : s.initialized = true) (hfb : Shows s.fb c.picture)
    (hfirst : s.firstRefreshDone = c.refreshed.isSome)
    (hold : ∀ p, c.refreshed = some p → Shows s.fbOld p) : Sound s (some c) where
  initialized := hinit
  shows c' hc' := by
    obtain rfl := Option.some.inj hc'
    exact hfb
  first c' hc' := by
    obtain rfl := Option.some.inj hc'
    exact hfirst
  refreshed c' p hc' hp := by
    obtain rfl := Option.some.inj hc'
    exact hold p hp

lemma Sound.eq_some {s : EpaperState} {canvas : Option Canvas} (h : Sound s canvas) (hinit : s.initialized = true) :
    ∃ c, canvas = some c ∧ Shows s.fb c.picture ∧ s.firstRefreshDone = c.refreshed.isSome ∧
      ∀ p, c.refreshed = some p → Shows s.fbOld p := by
  obtain ⟨c, rfl⟩ := Option.isSome_iff_exists.mp (h.initialized.symm.trans hinit)
  exact ⟨c, rfl, h.shows c rfl, h.first c rfl, fun p => h.refreshed c p rfl⟩

lemma Sound.eq_none {s : EpaperState} {canvas : Option Canvas} (h : Sound s canvas) (hinit : s.initialized = false) :
    canvas = none :=
  Option.not_isSome_iff_eq_none.mp (by rw [← h.initialized, hinit]; decide)

lemma clip_lt (n : ℕ) {size : ℕ} (h : 0 < size) : clip n size < size := by
  rw [clip]
  split_ifs <;> omega

lemma le_clip_iff {n size i : ℕ} (hi : i < size) : i ≤ clip n size ↔ i ≤ n := by
  rw [clip]
  split_ifs <;> omega

lemma shows_testPattern : Shows testPattern stripes := by
  refine ⟨by rw [testPattern, List.length_map, List.length_range], fun x y hx hy => ?_⟩
  have hlt : layout.byte x y < epdFbBytes := layout.byte_lt hx hy
  have hrow : layout.byte x y / 30 = epdHeight - 1 - y := by
    simp only [layout, epdWidth, epdHeight] at hx hy ⊢
    omega
  have hbyte : testPattern.getD (layout.byte x y) 0 =
      if (epdHeight - 1 - y) % 2 = 0 then (0x00 : UInt8) else 0xFF := by
    rw [testPattern, List.getD_eq_getElem?_getD, List.getElem?_map, List.getElem?_range hlt, Option.map_some,
      Option.getD_some, hrow]
  have hlit : ∀ k < 8, testBit 0x00 k = false ∧ testBit 0xFF k = true := by decide
  rw [Layout.read, hbyte, stripes]
  rcases Nat.mod_two_eq_zero_or_one (epdHeight - 1 - y) with h | h
  · rw [if_pos h, h, (hlit _ (layout.bit_lt x y)).1]
    rfl
  · rw [if_neg (by rw [h]; decide), h, (hlit _ (layout.bit_lt x y)).2]
    rfl

/-- A flush draws its pixels, as far as they are on the panel. -/
lemma shows_copyPixels {fb : List UInt8} {picture : Picture} (h : Shows fb picture) (area : HalArea)
    (colorData : ℕ → UInt8) :
    Shows (copyPixels area.x1.toNat area.y1.toNat (clip area.x2.toNat epdWidth)
      (clip area.y2.toNat epdHeight) colorData fb) (drawn area colorData picture) := by
  obtain ⟨hlength, hread⟩ := h
  rw [copyPixels_eq]
  refine ⟨(Layout.length_draw fb).trans hlength, fun x y hx hy => ?_⟩
  have hx2 : clip area.x2.toNat epdWidth < epdWidth := clip_lt _ (by decide)
  have hy2 : clip area.y2.toNat epdHeight < epdHeight := clip_lt _ (by decide)
  have hinside : (area.x1.toNat ≤ x ∧ x ≤ clip area.x2.toNat epdWidth) ∧
      area.y1.toNat ≤ y ∧ y ≤ clip area.y2.toNat epdHeight ↔
      area.x1.toNat ≤ x ∧ x ≤ area.x2.toNat ∧ area.y1.toNat ≤ y ∧ y ≤ area.y2.toNat := by
    rw [le_clip_iff hx, le_clip_iff hy, and_assoc]
  rw [Layout.read_draw hx2 hy2 hlength hx hy, hread x y hx hy, drawn]
  simp only [hinside]

/-- A refresh fails and leaves the driver as it was, or it shows the picture of the buffer and remembers it. -/
lemma gdeq031t10Refresh_cases (s : EpaperState) (spi : Bus Transaction) :
    (∃ rc spi', rc ≠ espOk ∧ gdeq031t10Refresh s spi = (rc, s, spi')) ∨
    s.initialized = true ∧ ∃ spi' : Bus Transaction, (∀ p : Panel,
        (spi'.sent.foldl Panel.receive p).displayed = some (if s.isFast then s.fbOld else s.fb, s.fb)) ∧
      gdeq031t10Refresh s spi = (espOk, { s with
        fbOld := s.fb
        firstRefreshDone := true
        refreshMode := if s.isFast then s.refreshMode else .fast }, spi') := by
  obtain ⟨f, hf, hdisplayed⟩ := tells_refreshSequence s.isFast s
  by_cases hinit : s.initialized = false
  · exact .inl ⟨espErrInvalidState, spi, by decide, if_pos hinit⟩
  · rcases hrun : (refreshSequence s.isFast s).run spi with ⟨r, spi'⟩
    have hrefresh : gdeq031t10Refresh s spi = match (refreshSequence s.isFast s).run spi with
        | (.error err, spi) => (err, s, spi)
        | (.ok (), spi) => (espOk, { s with
            fbOld := s.fb
            firstRefreshDone := true
            refreshMode := if s.isFast then s.refreshMode else .fast }, spi) := if_neg hinit
    rw [hrun] at hrefresh
    cases r with
    | error rc => exact .inl ⟨rc, spi', hf.error hrun, hrefresh⟩
    | ok u =>
      refine .inr ⟨Bool.eq_true_of_not_eq_false hinit, spi', fun p => ?_, hrefresh⟩
      rw [hf.ok p hrun, hdisplayed]

section Steps

variable {s : EpaperState} {canvas : Option Canvas}

lemma Sound.init (h : Sound s canvas) (config : Option Unit) (answers : List EspErr) (spi : Bus Transaction) :
    Sound (gdeq031t10Init config s spi).2.1
      (record (.init config answers) (gdeq031t10Init config s spi).1 canvas) := by
  have hattach : Tells attach _ := tells_call.bind (tells_call.bind tells_call)
  unfold gdeq031t10Init
  split_ifs with hconfig hinit
  · exact h
  · obtain ⟨c, rfl, -⟩ := h.eq_some hinit
    rw [record_ok]
    exact h
  · have hoff : s.initialized = false := Bool.eq_false_iff.mpr hinit
    obtain rfl := h.eq_none hoff
    dsimp only
    split
    · rename_i rc spi' hrun
      rw [record_error _ (hattach.error hrun)]
      exact sound_none hoff
    · split
      · exact sound_none hoff
      · rw [record_ok]
        rw [drawnBy, Option.getD_none]
        refine sound_some rfl ?_ rfl ?_
        · dsimp only
          exact shows_testPattern
        · simp

lemma sound_deinit (answers : List EspErr) (spi : Bus Transaction) :
    Sound (gdeq031t10Deinit s spi).1 (record (.deinit answers) espOk canvas) := by
  unfold gdeq031t10Deinit
  rw [record_ok]
  split_ifs with hinit
  · exact sound_none rfl
  · exact sound_none (Bool.eq_false_iff.mpr hinit)

lemma Sound.flush (h : Sound s canvas) (area : Option HalArea) (colorData : Option (ℕ → UInt8)) :
    Sound (gdeq031t10Flush area colorData s).2
      (record (.flush area colorData) (gdeq031t10Flush area colorData s).1 canvas) := by
  unfold gdeq031t10Flush
  split_ifs with hinit
  · exact h
  · obtain ⟨c, rfl, hfb, hfirst, hold⟩ := h.eq_some (Bool.eq_true_of_not_eq_false hinit)
    split
    · rename_i area colorData
      dsimp only
      split_ifs with hempty
      · exact h
      · rw [record_ok]
        exact sound_some (Bool.eq_true_of_not_eq_false hinit) (shows_copyPixels hfb area colorData) hfirst hold
    · exact h

lemma Sound.refresh (h : Sound s canvas) (answers : List EspErr) (spi : Bus Transaction) :
    Sound (gdeq031t10Refresh s spi).2.1 (record (.refresh answers) (gdeq031t10Refresh s spi).1 canvas) := by
  rcases gdeq031t10Refresh_cases s spi with ⟨rc, spi', hrc, heq⟩ | ⟨hinit, spi', -, heq⟩
  · rw [heq, record_error _ hrc]
    exact h
  · obtain ⟨c, rfl, hfb, -, -⟩ := h.eq_some hinit
    rw [heq, record_ok]
    refine sound_some hinit hfb rfl fun p hp => ?_
    obtain rfl := Option.some.inj hp
    exact hfb

end Steps

/-- Every call keeps the buffers and the pictures together. -/
lemma sound_next (o : Op) (w : State × Option Canvas) (h : Sound w.1.driver w.2) :
    Sound ((epaper.watch record).next o w).1.driver ((epaper.watch record).next o w).2 := by
  obtain ⟨s, canvas⟩ := w
  cases o with
  | init config answers => exact h.init config answers _
  | deinit answers => exact @sound_deinit s.driver canvas answers _
  | flush area colorData => exact h.flush area colorData
  | refresh answers => exact h.refresh answers _
  | sleep enter answers =>
    rw [Component.watch_next, record_sleep]
    exact h
  | setRefreshMode mode => exact ⟨h.initialized, h.shows, h.first, h.refreshed⟩

/-- A refresh that succeeds has told the panel to show what has been drawn. The other plane has the picture of the
refresh before it, or the same picture if there is none or the refresh is a full one. A refresh that fails leaves the
driver as it was. -/
def Refreshes (answers : List EspErr) (w : State × Option Canvas) : Prop :=
  let rc := epaper.reply (.refresh answers) w.1
  let s' := epaper.next (.refresh answers) w.1
  (rc = espOk → ∃ c old new, w.2 = some c ∧ (s'.sent.foldl Panel.receive .start).displayed = some (old, new) ∧
    Shows new c.picture ∧
    Shows old (if w.1.driver.refreshMode = .full then c.picture else c.refreshed.getD c.picture)) ∧
  (rc ≠ espOk → s'.driver = w.1.driver)

lemma refreshes_of_sound {w : State × Option Canvas} (h : Sound w.1.driver w.2) (answers : List EspErr) :
    Refreshes answers w := by
  obtain ⟨s, canvas⟩ := w
  have h : Sound s.driver canvas := h
  have hreply : epaper.reply (.refresh answers) s = (gdeq031t10Refresh s.driver ⟨answers, s.sent⟩).1 := rfl
  have hnext : epaper.next (.refresh answers) s = ⟨(gdeq031t10Refresh s.driver ⟨answers, s.sent⟩).2.1,
      (gdeq031t10Refresh s.driver ⟨answers, s.sent⟩).2.2.sent⟩ := rfl
  rw [Refreshes]
  dsimp only
  rw [hreply, hnext]
  rcases gdeq031t10Refresh_cases s.driver ⟨answers, s.sent⟩ with ⟨rc, spi', hrc, heq⟩ | ⟨hinit, spi', hshown, heq⟩
  · rw [heq]
    exact ⟨fun h => absurd h hrc, fun _ => rfl⟩
  · obtain ⟨c, rfl, hfb, hfirst, hold⟩ := h.eq_some hinit
    rw [heq]
    refine ⟨fun _ => ⟨c, _, s.driver.fb, rfl, hshown _, hfb, ?_⟩, fun h => absurd rfl h⟩
    rw [EpaperState.isFast, hfirst]
    by_cases hmode : s.driver.refreshMode = .full
    · simpa [hmode] using hfb
    · cases hlast : c.refreshed with
      | none => simpa [hmode] using hfb
      | some p => simpa [hmode] using hold p hlast

/-- In every run of the driver, whatever happens to its transfers, each refresh shows what has been drawn and tells the
panel what it has shown before. -/
theorem refreshes_along (ops : List Op) :
    (epaper.watch record).Along (fun o w => ∀ answers, o = .refresh answers → Refreshes answers w)
      (.start, none) ops := by
  have hsound : (epaper.watch record).Along (fun _ w => Sound w.1.driver w.2 ∧ True) (.start, none) ops :=
    (Component.along_of_preserved (I := fun w => Sound w.1.driver w.2) (P := fun _ _ => True)
      (fun o w h _ => sound_next o w h) (sound_none rfl) (fun _ _ _ _ => trivial)).1
  exact hsound.mono fun o w h answers _ => refreshes_of_sound h.1 answers

end ThistleOS.Epaper
