import Mathlib.Data.Int.Notation
import ThistleOS.Bus
import ThistleOS.Component
import ThistleOS.Kernel.DisplayServer
import ThistleOS.Strokes

/-!
# The drivers of the touch panels

Five controllers are polled for the state of the panel. Each driver remembers whether a finger is down and where it has
been last, and tells the callback what has changed.
-/

open ThistleOS.Bus (call)
open ThistleOS.Display (Address)

namespace ThistleOS.TouchDrivers

def espErrInvalidResponse : EspErr := 0x108

def gpioNumNc : Int32 := -1

inductive HalInputEventType
  | touchDown
  | touchUp
  | touchMove
  deriving DecidableEq

structure HalInputEvent where
  eventType : HalInputEventType
  timestamp : UInt32
  x : UInt16
  y : UInt16
  deriving DecidableEq

/-! ### What the drivers share -/

/-- The state of a driver with a configuration of its own. -/
structure TouchState (κ : Type) where
  cfg : κ
  cb : Option Address
  irqPending : Bool
  touching : Bool
  lastX : UInt16
  lastY : UInt16
  initialized : Bool

/-- An event for the callback, if there is one. -/
def dispatch {κ : Type} (s : TouchState κ) (eventType : HalInputEventType) (nowMs : UInt32) (x y : UInt16) :
    List HalInputEvent :=
  if s.cb.isSome then [⟨eventType, nowMs, x, y⟩] else []

/-- A finger that is seen at a point. -/
def touchAt {κ : Type} (s : TouchState κ) (nowMs : UInt32) (x y : UInt16) : List HalInputEvent × TouchState κ :=
  let evType := if s.touching then HalInputEventType.touchMove else .touchDown
  (dispatch s evType nowMs x y, { s with touching := true, lastX := x, lastY := y })

/-- A finger that is no longer seen. -/
def liftOff {κ : Type} (s : TouchState κ) (nowMs : UInt32) : List HalInputEvent × TouchState κ :=
  if s.touching then (dispatch s .touchUp nowMs s.lastX s.lastY, { s with touching := false })
  else ([], s)

/-- The code of the first call that fails, for calls of the platform without other results. -/
def codeOf (calls : BusM Empty Unit) (answers : List EspErr) : EspErr :=
  match (calls.run ⟨answers, []⟩).1 with
  | .ok () => espOk
  | .error rc => rc

/-- An initialisation: the configuration is taken over and the platform is called. -/
def initWith {κ : Type} (platform : κ → BusM Empty Unit) (takeOver : κ → TouchState κ → TouchState κ)
    (config : Option κ) (answers : List EspErr) (s : TouchState κ) : EspErr × TouchState κ :=
  match config with
  | none => (espErrInvalidArg, s)
  | some config =>
    if s.initialized then (espOk, s)
    else
      let s := takeOver config s
      let rc := codeOf (platform s.cfg) answers
      if rc = espOk then (espOk, { s with touching := false, irqPending := false, initialized := true })
      else (rc, s)

def registerCallback {κ : Type} (cb : Option Address) (s : TouchState κ) : TouchState κ := { s with cb := cb }

def isrHandler {κ : Type} (s : TouchState κ) : TouchState κ := { s with irqPending := true }

/-- The pins and the size of a panel. -/
structure TouchConfig where
  pinInt : Int32
  pinRst : Int32
  maxX : UInt16
  maxY : UInt16

/-! ### CST816 and CST328 -/

namespace Cst816

def new : TouchState TouchConfig := ⟨⟨gpioNumNc, gpioNumNc, 170, 320⟩, none, false, false, 0, 0, false⟩

def platform (cfg : TouchConfig) : BusM Empty Unit := do
  if cfg.pinRst ≠ gpioNumNc then call
  call
  call
  call
  if cfg.pinInt ≠ gpioNumNc then
    call
    call
    call

def init : Option TouchConfig → List EspErr → TouchState TouchConfig → EspErr × TouchState TouchConfig :=
  initWith platform fun config s => { s with cfg := config, irqPending := false, touching := false }

def deinit (s : TouchState TouchConfig) : TouchState TouchConfig :=
  if s.initialized then { s with cb := none, touching := false, initialized := false } else s

/-- The answer to the reading of the six registers from the gesture on. -/
abbrev Reply := Except EspErr (Fin 6 → UInt8)

def poll (reply : Reply) (nowMs : UInt32) (s : TouchState TouchConfig) :
    EspErr × List HalInputEvent × TouchState TouchConfig :=
  if s.initialized = false then (espErrInvalidState, [], s)
  else if s.cfg.pinInt ≠ gpioNumNc ∧ s.irqPending = false ∧ s.touching = false then (espOk, [], s)
  else
    match reply with
    | .error ret => (ret, [], s)
    | .ok buf =>
      let fingerCount := buf 1
      if fingerCount > 0 then
        let x : UInt16 := (((buf 2).toUInt16 &&& 0x0F) <<< 8) ||| (buf 3).toUInt16
        let y : UInt16 := (((buf 4).toUInt16 &&& 0x0F) <<< 8) ||| (buf 5).toUInt16
        let x := if s.cfg.maxX > 0 ∧ x ≥ s.cfg.maxX then s.cfg.maxX - 1 else x
        let y := if s.cfg.maxY > 0 ∧ y ≥ s.cfg.maxY then s.cfg.maxY - 1 else y
        let (events, s) := touchAt s nowMs x y
        (espOk, events, { s with irqPending := false })
      else
        let (events, s) := liftOff s nowMs
        (espOk, events, { s with irqPending := false })

end Cst816

namespace Cst328

def xOffset : ℤ := 0
def xSpan : ℤ := 3600
def yOffset : ℤ := 550
def ySpan : ℤ := 2820

def new : TouchState TouchConfig := ⟨⟨gpioNumNc, gpioNumNc, 320, 240⟩, none, false, false, 0, 0, false⟩

def platform (cfg : TouchConfig) : BusM Empty Unit := do
  if cfg.pinRst ≠ gpioNumNc then call
  call
  call
  call
  if cfg.pinInt ≠ gpioNumNc then
    call
    call
    call

def init : Option TouchConfig → List EspErr → TouchState TouchConfig → EspErr × TouchState TouchConfig :=
  initWith platform fun config s => { s with cfg := config, irqPending := false, touching := false }

def deinit (s : TouchState TouchConfig) : TouchState TouchConfig :=
  if s.initialized then { s with cb := none, touching := false, initialized := false } else s

/-- The answers to the readings of the number of touches and of the first of them. -/
structure Reply where
  touchInfo : Except EspErr UInt8
  touchPt1 : Except EspErr (Fin 7 → UInt8)

/-- A coordinate of the chip as one of the panel. The numbers stay far below 31 bits. -/
def scale (raw : UInt16) (offset span panel : ℤ) : UInt16 :=
  let scaled := max (min (max (raw.toNat - offset) 0 * panel / span) (panel - 1)) 0
  UInt16.ofNat scaled.toNat

def panelW (cfg : TouchConfig) : ℤ := if cfg.maxX > 0 then cfg.maxX.toNat else 240
def panelH (cfg : TouchConfig) : ℤ := if cfg.maxY > 0 then cfg.maxY.toNat else 320

def poll (reply : Reply) (nowMs : UInt32) (s : TouchState TouchConfig) :
    EspErr × List HalInputEvent × TouchState TouchConfig :=
  if s.initialized = false then (espErrInvalidState, [], s)
  else if s.cfg.pinInt ≠ gpioNumNc ∧ s.irqPending = false ∧ s.touching = false then (espOk, [], s)
  else
    match reply.touchInfo with
    | .error ret => (ret, [], s)
    | .ok nTouches =>
      if nTouches &&& 0x0F > 0 then
        match reply.touchPt1 with
        | .error ret => (ret, [], s)
        | .ok pt =>
          let rawX : UInt16 := (((pt 0).toUInt16 &&& 0x0F) <<< 8) ||| (pt 1).toUInt16
          let rawY : UInt16 := (((pt 2).toUInt16 &&& 0x0F) <<< 8) ||| (pt 3).toUInt16
          let x := scale rawX xOffset xSpan (panelW s.cfg)
          let y := scale rawY yOffset ySpan (panelH s.cfg)
          let (events, s) := touchAt s nowMs x y
          (espOk, events, { s with irqPending := false })
      else
        let (events, s) := liftOff s nowMs
        (espOk, events, { s with irqPending := false })

end Cst328

/-! ### CST9217 and FT3x68 -/

/-- A panel that can be turned. -/
structure TurnedConfig extends TouchConfig where
  swapXy : Bool
  invertX : Bool
  invertY : Bool

/-- A finger at a point where it may have been before. -/
def touchMoved {κ : Type} (s : TouchState κ) (nowMs : UInt32) (x y : UInt16) : List HalInputEvent × TouchState κ :=
  if s.touching ∧ x = s.lastX ∧ y = s.lastY then ([], s) else touchAt s nowMs x y

/-- The size of the panel where the configuration leaves it out. -/
def withDefaults (maxX maxY : UInt16) (cfg : TurnedConfig) : TurnedConfig :=
  { cfg with
    maxX := if cfg.maxX = 0 then maxX else cfg.maxX
    maxY := if cfg.maxY = 0 then maxY else cfg.maxY }

/-- A coordinate on an axis of `size` points, which may be turned around. -/
def place (invert : Bool) (size v : UInt16) : UInt16 :=
  let last := size.toNat - 1
  let v := if invert then last - min v.toNat last else v.toNat
  UInt16.ofNat (min v last)

namespace Cst9217

def cst9217Ack : UInt8 := 0xAB

def new : TouchState TurnedConfig :=
  ⟨⟨⟨gpioNumNc, gpioNumNc, 410, 502⟩, false, false, false⟩, none, false, false, 0, 0, false⟩

def transformCoords (cfg : TurnedConfig) (x y : UInt16) : UInt16 × UInt16 :=
  let maxX := max cfg.maxX 1
  let maxY := max cfg.maxY 1
  let (x, y) := if cfg.swapXy then (y, x) else (x, y)
  (place cfg.invertX maxX x, place cfg.invertY maxY y)

def platform (cfg : TurnedConfig) : BusM Empty Unit := do
  if cfg.pinRst ≠ gpioNumNc then call
  call
  call
  call
  call
  call

def init : Option TurnedConfig → List EspErr → TouchState TurnedConfig → EspErr × TouchState TurnedConfig :=
  initWith platform fun config s => { s with cfg := withDefaults 410 502 config }

def deinit (s : TouchState TurnedConfig) : TouchState TurnedConfig := if s.initialized then new else s

/-- The answer to the reading of a report. -/
abbrev Reply := Except EspErr (Fin 10 → UInt8)

def poll (reply : Reply) (nowMs : UInt32) (s : TouchState TurnedConfig) :
    EspErr × List HalInputEvent × TouchState TurnedConfig :=
  if s.initialized = false then (espErrInvalidState, [], s)
  else
    match reply with
    | .error _ => (espFail, [], s)
    | .ok data =>
      if data 6 ≠ cst9217Ack then (espErrInvalidResponse, liftOff s nowMs)
      else
        let points := min (data 5 &&& 0x7F) 1
        let active := points > 0 ∧ data 0 &&& 0x0F = 0x06
        if ¬ active then (espOk, liftOff s nowMs)
        else
          let x : UInt16 := ((data 1).toUInt16 <<< 4) ||| ((data 3).toUInt16 >>> 4)
          let y : UInt16 := ((data 2).toUInt16 <<< 4) ||| ((data 3).toUInt16 &&& 0x0F)
          let (x, y) := transformCoords s.cfg x y
          (espOk, touchMoved s nowMs x y)

end Cst9217

namespace Ft3x68

def new : TouchState TurnedConfig :=
  ⟨⟨⟨gpioNumNc, gpioNumNc, 410, 502⟩, false, false, false⟩, none, false, false, 0, 0, false⟩

def transformCoords (cfg : TurnedConfig) (x y : UInt16) : UInt16 × UInt16 :=
  let maxX := if cfg.maxX = 0 then 410 else cfg.maxX
  let maxY := if cfg.maxY = 0 then 502 else cfg.maxY
  let (x, y) := if cfg.swapXy then (y, x) else (x, y)
  (place cfg.invertX maxX x, place cfg.invertY maxY y)

def platform (cfg : TurnedConfig) : BusM Empty Unit := do
  if cfg.pinRst ≠ gpioNumNc then call
  call
  call
  if cfg.pinInt ≠ gpioNumNc then
    call
    call
    call

def init : Option TurnedConfig → List EspErr → TouchState TurnedConfig → EspErr × TouchState TurnedConfig :=
  initWith platform fun config s => { s with cfg := withDefaults 410 502 config }

/-- The pending interrupt is not a part of what is reset. -/
def deinit (s : TouchState TurnedConfig) : TouchState TurnedConfig :=
  if s.initialized then { new with irqPending := s.irqPending } else s

/-- The answers to the readings of the status and of the first point. -/
structure Reply where
  tdStatus : Except EspErr UInt8
  point1 : Except EspErr (Fin 4 → UInt8)

/-- A poll takes the interrupt away, and it is a finger on the panel for which it waits for the next one. -/
def poll (reply : Reply) (nowMs : UInt32) (s : TouchState TurnedConfig) :
    EspErr × List HalInputEvent × TouchState TurnedConfig :=
  if s.initialized = false then (espErrInvalidState, [], s)
  else
    let pending := s.irqPending
    let s := if s.cfg.pinInt ≠ gpioNumNc then { s with irqPending := false } else s
    if s.cfg.pinInt ≠ gpioNumNc ∧ pending = false ∧ s.touching then (espOk, [], s)
    else
      match reply.tdStatus with
      | .error ret => (ret, [], s)
      | .ok status =>
        let touches := status &&& 0x0F
        if touches = 0 then (espOk, liftOff s nowMs)
        else
          match reply.point1 with
          | .error ret => (ret, [], s)
          | .ok raw =>
            let x : UInt16 := ((raw 0 &&& 0x0F).toUInt16 <<< 8) ||| (raw 1).toUInt16
            let y : UInt16 := ((raw 2 &&& 0x0F).toUInt16 <<< 8) ||| (raw 3).toUInt16
            let (x, y) := transformCoords s.cfg x y
            (espOk, touchMoved s nowMs x y)

end Ft3x68

/-! ### XPT2046 -/

namespace Xpt2046

structure XptConfig where
  pinIrq : Int32
  maxX : Int32
  maxY : Int32
  calXMin : Int32
  calXMax : Int32
  calYMin : Int32
  calYMax : Int32
  pressureThreshold : Int32
  swapXy : Bool
  invertX : Bool
  invertY : Bool

/-- A touch is told about when it has been seen twice. -/
structure XptState extends TouchState XptConfig where
  pendingDown : Bool

def new : XptState where
  cfg := ⟨36, 320, 240, 300, 3800, 200, 3700, 100, false, false, false⟩
  cb := none
  irqPending := false
  touching := false
  lastX := 0
  lastY := 0
  initialized := false
  pendingDown := false

def platform (cfg : XptConfig) : BusM Empty Unit := do
  call
  if cfg.pinIrq ≠ gpioNumNc then
    call
    call
    call

/-- The bus may have been initialised before. -/
def init (config : Option XptConfig) (bus : EspErr) (answers : List EspErr) (s : XptState) : EspErr × XptState :=
  match config with
  | none => (espErrInvalidArg, s)
  | some config =>
    if s.initialized then (espOk, s)
    else
      let s := { s with cfg := config, irqPending := false, touching := false, pendingDown := false }
      if bus ≠ espOk ∧ bus ≠ espErrInvalidState then (bus, s)
      else
        let rc := codeOf (platform s.cfg) answers
        if rc = espOk then (espOk, { s with initialized := true }) else (rc, s)

def deinit (s : XptState) : XptState :=
  if s.initialized then { s with cb := none, touching := false, initialized := false } else s

/-- The two bytes of a reading, if the transfer succeeds. -/
abbrev Channel := Option (UInt8 × UInt8)

def readChannel : Channel → Int32
  | none => -1
  | some (b0, b1) => (((b0.toUInt32.toInt32 <<< 8) ||| b1.toUInt32.toInt32) >>> 3) &&& 0xFFF

/-- The level of the interrupt pin, and the answers to the readings in the order in which they are made. -/
structure Reply where
  irqLow : Bool
  touched : Channel × Channel
  pressure : Channel × Channel
  samples : Fin 4 → Channel × Channel

/-- The sum and the number of the samples that are not at the edges. -/
def addSample (acc : Int32 × Int32) (v : Int32) : Int32 × Int32 :=
  if v ≥ 50 ∧ v ≤ 4045 then (acc.1 + v, acc.2 + 1) else acc

def average (acc : Int32 × Int32) : Int32 := if acc.2 > 0 then acc.1 / acc.2 else -1

def readRawXy (samples : Fin 4 → Channel × Channel) : Int32 × Int32 :=
  let readings := List.ofFn samples
  (average (readings.foldl (fun acc r => addSample acc (readChannel r.1)) (0, 0)),
    average (readings.foldl (fun acc r => addSample acc (readChannel r.2)) (0, 0)))

def readPressure (z : Channel × Channel) : Int32 :=
  let z1 := readChannel z.1
  let z2 := readChannel z.2
  if z1 < 0 ∨ z2 < 0 then 0 else max (z1 + (4095 - z2)) 0

def isTouched (cfg : XptConfig) (reply : Reply) : Bool :=
  if cfg.pinIrq ≠ gpioNumNc then reply.irqLow else readPressure reply.touched > cfg.pressureThreshold

def calibratePoint (raw calMin calMax screenSize : Int32) : Int32 :=
  if calMax ≤ calMin ∨ screenSize ≤ 0 then 0
  else
    let range := calMax - calMin
    let mapped := ((raw - calMin).toInt64 * screenSize.toInt64 / range.toInt64).toInt32
    if mapped < 0 then 0
    else if mapped ≥ screenSize then screenSize - 1
    else mapped

/-- The last step: a coordinate on the screen. -/
def clamp (screenSize v : Int32) : Int32 :=
  let v := if v < 0 then 0 else v
  if v ≥ screenSize then screenSize - 1 else v

def calibrateXy (cfg : XptConfig) (rawX rawY : Int32) : UInt16 × UInt16 :=
  let cx := calibratePoint rawX cfg.calXMin cfg.calXMax cfg.maxX
  let cy := calibratePoint rawY cfg.calYMin cfg.calYMax cfg.maxY
  let (cx, cy) :=
    if cfg.swapXy then
      (if cy ≥ cfg.maxX then cfg.maxX - 1 else cy, if cx ≥ cfg.maxY then cfg.maxY - 1 else cx)
    else (cx, cy)
  let cx := if cfg.invertX then cfg.maxX - 1 - cx else cx
  let cy := if cfg.invertY then cfg.maxY - 1 - cy else cy
  ((clamp cfg.maxX cx).toUInt32.toUInt16, (clamp cfg.maxY cy).toUInt32.toUInt16)

def poll (reply : Reply) (nowMs : UInt32) (s : XptState) : EspErr × List HalInputEvent × XptState :=
  if s.initialized = false then (espErrInvalidState, [], s)
  else if s.cfg.pinIrq ≠ gpioNumNc ∧ s.irqPending = false ∧ s.touching = false then (espOk, [], s)
  else if isTouched s.cfg reply then
    if readPressure reply.pressure < s.cfg.pressureThreshold then
      let (events, base) := liftOff s.toTouchState nowMs
      (espOk, events, { base with irqPending := false, pendingDown := false })
    else
      let (rawX, rawY) := readRawXy reply.samples
      if rawX < 0 ∨ rawY < 0 then (espOk, [], { s with irqPending := false, pendingDown := false })
      else if s.touching = false ∧ s.pendingDown = false then
        (espOk, [], { s with irqPending := false, pendingDown := true })
      else
        let pendingDown := if s.touching then s.pendingDown else false
        let (x, y) := calibrateXy s.cfg rawX rawY
        let (events, base) := touchAt s.toTouchState nowMs x y
        (espOk, events, { base with irqPending := false, pendingDown := pendingDown })
  else
    let (events, base) := liftOff s.toTouchState nowMs
    (espOk, events, { base with irqPending := false, pendingDown := false })

end Xpt2046

end ThistleOS.TouchDrivers
