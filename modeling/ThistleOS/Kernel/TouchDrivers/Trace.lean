import Mathlib
import ThistleOS.Kernel.TouchDrivers

/-!
# What the touch drivers tell

The callback of a touch panel is told about strokes: whatever the controller answers, and whenever it fails to, no
finger moves or goes up that has not gone down, each goes up where it has been last, and all of it is on the panel.
-/

open ThistleOS.Display (Address)

namespace ThistleOS.TouchDrivers

variable {κ ρ σ : Type}

/-- A point of the panel. -/
abbrev Point := UInt16 × UInt16

def HalInputEvent.touch (e : HalInputEvent) : Touch Point :=
  match e.eventType with
  | .touchDown => .down (e.x, e.y)
  | .touchMove => .move (e.x, e.y)
  | .touchUp => .up (e.x, e.y)

/-- Where the driver has the finger. -/
def TouchState.finger (s : TouchState κ) : Option Point := if s.touching then some (s.lastX, s.lastY) else none

/-! ### Polls -/

/-- A poll has found something, has remembered it, and has told the callback. -/
structure Polls (On : κ → Point → Prop) (s s' : TouchState κ) (events : List HalInputEvent) : Prop where
  sight : ∃ sight : Sight Point, (∀ p, sight = .touched p → On s.cfg p) ∧ s'.finger = (sight.track s.finger).2 ∧
    events.map HalInputEvent.touch = if s.cb.isSome then (sight.track s.finger).1 else []
  cfg : s'.cfg = s.cfg
  cb : s'.cb = s.cb
  initialized : s'.initialized = s.initialized
  idle : s.initialized = false → s'.touching = s.touching

section Polls

variable {On : κ → Point → Prop} {s s' : TouchState κ} {events : List HalInputEvent}

lemma polls_nothing (On : κ → Point → Prop) (s : TouchState κ) : Polls On s s [] where
  sight := ⟨.unchanged, (fun _ h => nomatch h), rfl, by simp [Sight.track]⟩
  cfg := rfl
  cb := rfl
  initialized := rfl
  idle _ := rfl

/-- The interrupt does not matter. -/
lemma Polls.irq_after (h : Polls On s s' events) (b : Bool) : Polls On s { s' with irqPending := b } events :=
  ⟨h.sight, h.cfg, h.cb, h.initialized, h.idle⟩

lemma Polls.irq_before {b : Bool} (h : Polls On { s with irqPending := b } s' events) : Polls On s s' events :=
  ⟨h.sight, h.cfg, h.cb, h.initialized, h.idle⟩

lemma map_dispatch (s : TouchState κ) (evType : HalInputEventType) (nowMs : UInt32) (x y : UInt16) :
    (dispatch s evType nowMs x y).map HalInputEvent.touch =
      if s.cb.isSome then [HalInputEvent.touch ⟨evType, nowMs, x, y⟩] else [] := by
  rw [dispatch]
  split_ifs <;> rfl

lemma polls_touchAt (hinit : s.initialized = true) {x y : UInt16} (hon : On s.cfg (x, y)) (nowMs : UInt32) :
    Polls On s (touchAt s nowMs x y).2 (touchAt s nowMs x y).1 where
  sight := by
    refine ⟨.touched (x, y), fun p hp => ?_, ?_, ?_⟩
    · obtain rfl := Sight.touched.inj hp
      exact hon
    · rw [touchAt, TouchState.finger, if_pos rfl, TouchState.finger]
      split_ifs <;> rfl
    · rw [touchAt, map_dispatch, TouchState.finger]
      cases s.touching <;> rfl
  cfg := rfl
  cb := rfl
  initialized := rfl
  idle h := by rw [hinit] at h; cases h

lemma polls_liftOff (hinit : s.initialized = true) (nowMs : UInt32) :
    Polls On s (liftOff s nowMs).2 (liftOff s nowMs).1 := by
  rw [liftOff]
  split_ifs with htouching
  · refine ⟨⟨.lifted, (fun _ h => nomatch h), ?_, ?_⟩, rfl, rfl, rfl, fun h => by rw [hinit] at h; cases h⟩
    · rw [TouchState.finger, TouchState.finger, if_pos htouching]
      rfl
    · rw [map_dispatch, TouchState.finger, if_pos htouching]
      rfl
  · exact polls_nothing On s

lemma polls_touchMoved (hinit : s.initialized = true) {p : Point} (hon : On s.cfg p) (nowMs : UInt32) :
    Polls On s (touchMoved s nowMs p.1 p.2).2 (touchMoved s nowMs p.1 p.2).1 := by
  rw [touchMoved]
  split_ifs
  · exact polls_nothing On s
  · exact polls_touchAt hinit hon nowMs

end Polls

/-! ### Drivers -/

/-- A driver of a touch panel, as the kernel uses it: with a configuration, the replies of its controller, and a state
that has the shared one in it. -/
structure Driver (κ ρ σ : Type) where
  base : σ → TouchState κ
  start : σ
  init : Option κ → List EspErr → σ → EspErr × σ
  deinit : σ → σ
  registerCallback : Option Address → σ → σ
  isrHandler : σ → σ
  poll : ρ → UInt32 → σ → EspErr × List HalInputEvent × σ

inductive Op (κ ρ : Type)
  | init (config : Option κ) (answers : List EspErr)
  | deinit
  | registerCallback (cb : Option Address)
  | isr
  | poll (reply : ρ) (nowMs : UInt32)

/-- What a callback has been told, and where the finger was when it was registered. -/
structure Session where
  start : Option Point
  events : List HalInputEvent

/-- A driver with the session of its callback. A session ends when another callback is registered, and when the driver
is started or stopped. -/
def Driver.component (d : Driver κ ρ σ) : Component (Op κ ρ) (fun _ => EspErr) (σ × Session) where
  step
    | .init config answers, w =>
      let r := d.init config answers w.1
      (r.1, (r.2, ⟨(d.base r.2).finger, []⟩))
    | .deinit, w => (espOk, (d.deinit w.1, ⟨(d.base (d.deinit w.1)).finger, []⟩))
    | .registerCallback cb, w =>
      (espOk, (d.registerCallback cb w.1, ⟨(d.base (d.registerCallback cb w.1)).finger, []⟩))
    | .isr, w => (espOk, (d.isrHandler w.1, w.2))
    | .poll reply nowMs, w =>
      let r := d.poll reply nowMs w.1
      (r.1, (r.2.2, { w.2 with events := w.2.events ++ r.2.1 }))

/-- The callback has been told about strokes that lead to where the finger is, all of them on the panel. -/
def Told (On : κ → Point → Prop) (s : TouchState κ) (session : Session) : Prop :=
  s.cb.isSome = true → Strokes session.start (session.events.map HalInputEvent.touch) s.finger ∧
    ∀ e ∈ session.events, On s.cfg (e.x, e.y)

/-- What the calls of a driver do. -/
structure Tracks (d : Driver κ ρ σ) (On : κ → Point → Prop) : Prop where
  start : (d.base d.start).touching = false
  init : ∀ config answers s, (d.base (d.init config answers s).2).touching = false ∨
    d.base (d.init config answers s).2 = d.base s ∨
    (d.base s).initialized = false ∧ (d.base (d.init config answers s).2).touching = (d.base s).touching
  deinit : ∀ s, (d.base (d.deinit s)).touching = false ∨ d.base (d.deinit s) = d.base s
  registerCallback : ∀ cb s, d.base (d.registerCallback cb s) = { d.base s with cb := cb }
  isrHandler : ∀ s, d.base (d.isrHandler s) = { d.base s with irqPending := true }
  poll : ∀ reply nowMs s, Polls On (d.base s) (d.base (d.poll reply nowMs s).2.2) (d.poll reply nowMs s).2.1

/-- A finger is down only on a panel that is in use, and on it. -/
structure Sound (On : κ → Point → Prop) (s : TouchState κ) (session : Session) : Prop where
  idle : s.initialized = false → s.touching = false
  finger : ∀ p ∈ s.finger, On s.cfg p
  told : Told On s session

section Sound

variable {On : κ → Point → Prop} {s : TouchState κ} {session : Session}

/-- A session that begins. -/
lemma sound_begin (hidle : s.initialized = false → s.touching = false) (hfinger : ∀ p ∈ s.finger, On s.cfg p) :
    Sound On s ⟨s.finger, []⟩ :=
  ⟨hidle, hfinger, fun _ => ⟨.nil _, fun _ h => nomatch h⟩⟩

lemma sound_lifted (h : s.touching = false) : Sound On s ⟨s.finger, []⟩ := by
  have hfinger : s.finger = none := by rw [TouchState.finger, h]; rfl
  exact sound_begin (fun _ => h) (by simp [hfinger])

lemma Sound.begin_same {s' : TouchState κ} (h : Sound On s session) (hsame : s' = s) :
    Sound On s' ⟨s'.finger, []⟩ := by
  rw [hsame]
  exact sound_begin h.idle h.finger

lemma point_touch (e : HalInputEvent) : e.touch.point = (e.x, e.y) := by
  rw [HalInputEvent.touch]
  split <;> rfl

/-- A poll goes on with the session. -/
lemma Sound.poll {s' : TouchState κ} {events : List HalInputEvent} (h : Sound On s session)
    (hpoll : Polls On s s' events) : Sound On s' { session with events := session.events ++ events } := by
  obtain ⟨sight, hsight, hfinger, hevents⟩ := hpoll.sight
  have hall := Sight.forall_track (P := On s.cfg) h.finger hsight
  refine ⟨fun hinit => ?_, ?_, fun hcb => ?_⟩
  · rw [hpoll.initialized] at hinit
    exact (hpoll.idle hinit).trans (h.idle hinit)
  · rw [hpoll.cfg, hfinger]
    exact hall.2
  · rw [hpoll.cb] at hcb
    obtain ⟨hstrokes, hon⟩ := h.told hcb
    rw [if_pos hcb] at hevents
    refine ⟨?_, fun e he => ?_⟩
    · rw [List.map_append, hevents, hfinger]
      exact hstrokes.append (sight.strokes_track _)
    · rw [hpoll.cfg]
      rcases List.mem_append.mp he with he | he
      · exact hon e he
      · have hmem : e.touch ∈ (sight.track s.finger).1 := hevents ▸ List.mem_map_of_mem he
        exact point_touch e ▸ hall.1 _ hmem

end Sound

section Driver

variable {d : Driver κ ρ σ} {On : κ → Point → Prop}

lemma Tracks.sound_next (h : Tracks d On) (o : Op κ ρ) (w : σ × Session) (hw : Sound On (d.base w.1) w.2) :
    Sound On (d.base (d.component.next o w).1) (d.component.next o w).2 := by
  obtain ⟨s, session⟩ := w
  cases o with
  | init config answers =>
    rcases h.init config answers s with hlifted | hsame | ⟨hoff, htouching⟩
    · exact sound_lifted hlifted
    · exact hw.begin_same hsame
    · exact sound_lifted (htouching.trans (hw.idle hoff))
  | deinit =>
    rcases h.deinit s with hlifted | hsame
    · exact sound_lifted hlifted
    · exact hw.begin_same hsame
  | registerCallback cb =>
    have hsound : Sound On { d.base s with cb := cb } ⟨({ d.base s with cb := cb } : TouchState κ).finger, []⟩ :=
      sound_begin hw.idle hw.finger
    rw [← h.registerCallback cb s] at hsound
    exact hsound
  | isr =>
    have hnext : d.base (d.component.next .isr (s, session)).1 = { d.base s with irqPending := true } :=
      h.isrHandler s
    rw [hnext]
    exact ⟨hw.idle, hw.finger, hw.told⟩
  | poll reply nowMs => exact hw.poll (h.poll reply nowMs s)

/-- Whatever is done with the driver, its callback is told about strokes. -/
lemma Tracks.told_run (h : Tracks d On) (ops : List (Op κ ρ)) :
    Told On (d.base (d.component.run (d.start, ⟨none, []⟩) ops).1) (d.component.run (d.start, ⟨none, []⟩) ops).2 := by
  have hfinger : (d.base d.start).finger = none := by rw [TouchState.finger, h.start]; rfl
  have hstart : Sound On (d.base d.start) ⟨none, []⟩ := by
    have hbegin : Sound On (d.base d.start) ⟨(d.base d.start).finger, []⟩ := sound_lifted h.start
    rwa [hfinger] at hbegin
  exact (Component.along_of_preserved (C := d.component) (I := fun w => Sound On (d.base w.1) w.2)
    (P := fun _ _ => True) (fun o w hw _ => h.sound_next o w hw) hstart (fun _ _ _ _ => trivial)).2.told

end Driver

/-! ### The five drivers -/

/-- The points of a panel of this size. -/
def OnPanel (width height : κ → ℕ) (cfg : κ) (p : Point) : Prop := p.1.toNat < width cfg ∧ p.2.toNat < height cfg

/-- An initialisation does not leave a finger on the panel. -/
lemma initWith_lifted {platform : κ → BusM Empty Unit} {takeOver : κ → TouchState κ → TouchState κ}
    (htake : ∀ config s, (takeOver config s).touching = false ∨ (takeOver config s).touching = s.touching)
    (config : Option κ) (answers : List EspErr) (s : TouchState κ) :
    (initWith platform takeOver config answers s).2.touching = false ∨
      (initWith platform takeOver config answers s).2 = s ∨
      s.initialized = false ∧ (initWith platform takeOver config answers s).2.touching = s.touching := by
  unfold initWith
  cases config with
  | none => exact .inr (.inl rfl)
  | some config =>
    dsimp only
    split_ifs with hinit hrc
    · exact .inr (.inl rfl)
    · exact .inl rfl
    · rcases htake config s with hlifted | hsame
      · exact .inl hlifted
      · exact .inr (.inr ⟨Bool.eq_false_iff.mpr hinit, hsame⟩)

namespace Cst816

def driver : Driver TouchConfig Reply (TouchState TouchConfig) where
  base := id
  start := new
  init := init
  deinit := deinit
  registerCallback := registerCallback
  isrHandler := isrHandler
  poll := poll

/-- A panel without a size takes every coordinate. -/
def width (cfg : TouchConfig) : ℕ := if cfg.maxX > 0 then cfg.maxX.toNat else 2 ^ 16

def height (cfg : TouchConfig) : ℕ := if cfg.maxY > 0 then cfg.maxY.toNat else 2 ^ 16

lemma clamped_lt (max v : UInt16) :
    (if max > 0 ∧ v ≥ max then max - 1 else v).toNat < if max > 0 then max.toNat else 2 ^ 16 := by
  by_cases hmax : max > 0
  · have hpos : 0 < max.toNat := UInt16.lt_iff_toNat_lt.mp hmax
    rw [if_pos hmax]
    by_cases hv : v ≥ max
    · have hone : (1 : UInt16) ≤ max := UInt16.le_iff_toNat_le.mpr hpos
      rw [if_pos ⟨hmax, hv⟩, UInt16.toNat_sub_of_le _ _ hone]
      exact Nat.sub_lt hpos (by decide)
    · rw [if_neg fun h => hv h.2]
      exact UInt16.lt_iff_toNat_lt.mp (UInt16.not_le.mp hv)
  · rw [if_neg fun h => hmax h.1, if_neg hmax]
    exact v.toNat_lt

lemma polls_poll (reply : Reply) (nowMs : UInt32) (s : TouchState TouchConfig) :
    Polls (OnPanel width height) s (poll reply nowMs s).2.2 (poll reply nowMs s).2.1 := by
  unfold poll
  split_ifs with hoff hskip
  · exact polls_nothing _ s
  · exact polls_nothing _ s
  · have hinit : s.initialized = true := eq_true_of_ne_false hoff
    cases reply with
    | error ret => exact polls_nothing _ s
    | ok buf =>
      dsimp only
      split
      · exact (polls_touchAt hinit ⟨clamped_lt _ _, clamped_lt _ _⟩ nowMs).irq_after false
      · exact (polls_liftOff hinit nowMs).irq_after false

lemma tracks : Tracks driver (OnPanel width height) where
  start := rfl
  init := initWith_lifted fun _ _ => .inl rfl
  deinit s := by
    change (deinit s).touching = false ∨ deinit s = s
    rw [deinit]
    split_ifs
    · exact .inl rfl
    · exact .inr rfl
  registerCallback _ _ := rfl
  isrHandler _ := rfl
  poll := polls_poll

end Cst816

namespace Cst328

def driver : Driver TouchConfig Reply (TouchState TouchConfig) where
  base := id
  start := new
  init := init
  deinit := deinit
  registerCallback := registerCallback
  isrHandler := isrHandler
  poll := poll

def width (cfg : TouchConfig) : ℕ := (panelW cfg).toNat

def height (cfg : TouchConfig) : ℕ := (panelH cfg).toNat

lemma scale_lt (raw : UInt16) (offset span : ℤ) {panel : ℤ} (hpos : 0 < panel) (hmax : panel ≤ 2 ^ 16) :
    (scale raw offset span panel).toNat < panel.toNat := by
  have hlt : max (min (max (raw.toNat - offset) 0 * panel / span) (panel - 1)) 0 < panel := by omega
  rw [scale, UInt16.toNat_ofNat', Nat.mod_eq_of_lt] <;> omega

lemma panel_bounds (v : UInt16) (d : ℕ) (hd : 0 < d) (hd' : d ≤ 2 ^ 16) :
    0 < (if v > 0 then (v.toNat : ℤ) else d) ∧ (if v > 0 then (v.toNat : ℤ) else d) ≤ 2 ^ 16 := by
  have hlt : v.toNat < 2 ^ 16 := v.toNat_lt
  by_cases hv : v > 0
  · have hpos : 0 < v.toNat := UInt16.lt_iff_toNat_lt.mp hv
    rw [if_pos hv]
    omega
  · rw [if_neg hv]
    omega

lemma polls_poll (reply : Reply) (nowMs : UInt32) (s : TouchState TouchConfig) :
    Polls (OnPanel width height) s (poll reply nowMs s).2.2 (poll reply nowMs s).2.1 := by
  unfold poll
  split_ifs with hoff hskip
  · exact polls_nothing _ s
  · exact polls_nothing _ s
  · have hinit : s.initialized = true := eq_true_of_ne_false hoff
    have hw := panel_bounds s.cfg.maxX 240 (by decide) (by decide)
    have hh := panel_bounds s.cfg.maxY 320 (by decide) (by decide)
    split
    · exact polls_nothing _ s
    · split
      · split
        · exact polls_nothing _ s
        · exact (polls_touchAt hinit ⟨scale_lt _ _ _ hw.1 hw.2, scale_lt _ _ _ hh.1 hh.2⟩ nowMs).irq_after false
      · exact (polls_liftOff hinit nowMs).irq_after false

lemma tracks : Tracks driver (OnPanel width height) where
  start := rfl
  init := initWith_lifted fun _ _ => .inl rfl
  deinit s := by
    change (deinit s).touching = false ∨ deinit s = s
    rw [deinit]
    split_ifs
    · exact .inl rfl
    · exact .inr rfl
  registerCallback _ _ := rfl
  isrHandler _ := rfl
  poll := polls_poll

end Cst328

lemma place_lt (invert : Bool) {size : UInt16} (hsize : 0 < size.toNat) (v : UInt16) :
    (place invert size v).toNat < size.toNat := by
  have hlt : size.toNat < 2 ^ 16 := size.toNat_lt
  rw [place, UInt16.toNat_ofNat', Nat.mod_eq_of_lt] <;> omega

namespace Cst9217

def driver : Driver TurnedConfig Reply (TouchState TurnedConfig) where
  base := id
  start := new
  init := init
  deinit := deinit
  registerCallback := registerCallback
  isrHandler := isrHandler
  poll := poll

def width (cfg : TurnedConfig) : ℕ := (max cfg.maxX 1).toNat

def height (cfg : TurnedConfig) : ℕ := (max cfg.maxY 1).toNat

lemma max_one_pos (v : UInt16) : 0 < (max v 1).toNat := by
  have hmax : max v 1 = if v ≤ 1 then 1 else v := rfl
  rw [hmax]
  split_ifs with hv
  · decide
  · exact Nat.zero_lt_of_lt (UInt16.lt_iff_toNat_lt.mp (UInt16.not_le.mp hv))

lemma onPanel_transformCoords (cfg : TurnedConfig) (x y : UInt16) :
    OnPanel width height cfg (transformCoords cfg x y) := by
  unfold transformCoords
  split
  exact ⟨place_lt _ (max_one_pos _) _, place_lt _ (max_one_pos _) _⟩

lemma polls_poll (reply : Reply) (nowMs : UInt32) (s : TouchState TurnedConfig) :
    Polls (OnPanel width height) s (poll reply nowMs s).2.2 (poll reply nowMs s).2.1 := by
  unfold poll
  split_ifs with hoff
  · exact polls_nothing _ s
  · have hinit : s.initialized = true := eq_true_of_ne_false hoff
    cases reply with
    | error _ => exact polls_nothing _ s
    | ok data =>
      dsimp only
      split_ifs
      · exact polls_liftOff hinit nowMs
      · exact polls_touchMoved (p := transformCoords s.cfg _ _) hinit (onPanel_transformCoords s.cfg _ _) nowMs
      · exact polls_liftOff hinit nowMs

lemma tracks : Tracks driver (OnPanel width height) where
  start := rfl
  init := initWith_lifted fun _ _ => .inr rfl
  deinit s := by
    change (deinit s).touching = false ∨ deinit s = s
    rw [deinit]
    split_ifs
    · exact .inl rfl
    · exact .inr rfl
  registerCallback _ _ := rfl
  isrHandler _ := rfl
  poll := polls_poll

end Cst9217

namespace Ft3x68

def driver : Driver TurnedConfig Reply (TouchState TurnedConfig) where
  base := id
  start := new
  init := init
  deinit := deinit
  registerCallback := registerCallback
  isrHandler := isrHandler
  poll := poll

def width (cfg : TurnedConfig) : ℕ := (if cfg.maxX = 0 then 410 else cfg.maxX).toNat

def height (cfg : TurnedConfig) : ℕ := (if cfg.maxY = 0 then 502 else cfg.maxY).toNat

lemma size_pos (v : UInt16) {d : UInt16} (hd : 0 < d.toNat) : 0 < (if v = 0 then d else v).toNat := by
  split_ifs with hv
  · exact hd
  · exact Nat.pos_of_ne_zero fun h => hv (UInt16.toNat_inj.mp h)

lemma onPanel_transformCoords (cfg : TurnedConfig) (x y : UInt16) :
    OnPanel width height cfg (transformCoords cfg x y) := by
  have hx : 0 < (if cfg.maxX = 0 then 410 else cfg.maxX).toNat := size_pos cfg.maxX (by decide)
  have hy : 0 < (if cfg.maxY = 0 then 502 else cfg.maxY).toNat := size_pos cfg.maxY (by decide)
  rw [transformCoords, OnPanel, width, height]
  generalize (if cfg.maxX = 0 then 410 else cfg.maxX) = maxX at hx ⊢
  generalize (if cfg.maxY = 0 then 502 else cfg.maxY) = maxY at hy ⊢
  exact ⟨place_lt _ hx _, place_lt _ hy _⟩

lemma polls_poll (reply : Reply) (nowMs : UInt32) (s : TouchState TurnedConfig) :
    Polls (OnPanel width height) s (poll reply nowMs s).2.2 (poll reply nowMs s).2.1 := by
  unfold poll
  by_cases hoff : s.initialized = false
  · rw [if_pos hoff]
    exact polls_nothing _ s
  · rw [if_neg hoff]
    have hinit : s.initialized = true := eq_true_of_ne_false hoff
    -- the interrupt is taken away before the panel is looked at
    generalize hs : (if s.cfg.pinInt ≠ gpioNumNc then { s with irqPending := false } else s) = s'
    obtain ⟨b, rfl⟩ : ∃ b, s' = { s with irqPending := b } := by
      rw [← hs]
      split_ifs
      · exact ⟨false, rfl⟩
      · exact ⟨s.irqPending, rfl⟩
    apply Polls.irq_before
    dsimp only
    split_ifs
    · exact polls_nothing _ _
    · split
      · exact polls_nothing _ _
      · split_ifs
        · exact polls_liftOff (s := { s with irqPending := b }) hinit nowMs
        · split
          · exact polls_nothing _ _
          · exact polls_touchMoved (s := { s with irqPending := b }) (p := transformCoords s.cfg _ _) hinit
              (onPanel_transformCoords s.cfg _ _) nowMs

lemma tracks : Tracks driver (OnPanel width height) where
  start := rfl
  init := initWith_lifted fun _ _ => .inr rfl
  deinit s := by
    change (deinit s).touching = false ∨ deinit s = s
    rw [deinit]
    split_ifs
    · exact .inl rfl
    · exact .inr rfl
  registerCallback _ _ := rfl
  isrHandler _ := rfl
  poll := polls_poll

end Ft3x68

namespace Xpt2046

def driver : Driver XptConfig Reply XptState where
  base := XptState.toTouchState
  start := new
  init config answers := init config (answers.headD espOk) answers.tail
  deinit := deinit
  registerCallback cb s := { s with toTouchState := registerCallback cb s.toTouchState }
  isrHandler s := { s with toTouchState := isrHandler s.toTouchState }
  poll := poll

/-- The size of an axis that 16 bits can count. -/
def axis (size : Int32) : ℕ := if 0 < size ∧ size ≤ 65536 then size.toInt.toNat else 2 ^ 16

def width (cfg : XptConfig) : ℕ := axis cfg.maxX

def height (cfg : XptConfig) : ℕ := axis cfg.maxY

/-- What is clamped is on the axis. -/
lemma clamp_mem {size : Int32} (hpos : 0 < size) (v : Int32) : 0 ≤ clamp size v ∧ clamp size v < size := by
  have hpos' : 0 < size.toInt := Int32.lt_iff_toInt_lt.mp hpos
  have hlast : (size - 1).toInt = size.toInt - 1 := by
    have hmax := size.toInt_lt
    rw [Int32.toInt_sub, show (1 : Int32).toInt = 1 from rfl, Int.bmod_eq_of_le] <;> omega
  have hnonneg : 0 ≤ (if v < 0 then 0 else v) := by
    split_ifs with hv
    · exact Int32.le_refl 0
    · exact Int32.not_lt.mp hv
  rw [clamp]
  generalize (if v < 0 then 0 else v) = u at hnonneg ⊢
  split_ifs with hu
  · rw [Int32.le_iff_toInt_le, Int32.lt_iff_toInt_lt, hlast, show (0 : Int32).toInt = 0 from rfl]
    omega
  · exact ⟨hnonneg, Int32.not_le.mp hu⟩

lemma clamp_lt (size v : Int32) : (clamp size v).toUInt32.toUInt16.toNat < axis size := by
  rw [axis]
  split_ifs with hsize
  · obtain ⟨hpos, hlt⟩ := clamp_mem hsize.1 v
    have hmax : size.toInt ≤ 65536 := Int32.le_iff_toInt_le.mp hsize.2
    have hlt' : (clamp size v).toInt < size.toInt := Int32.lt_iff_toInt_lt.mp hlt
    have hpos' : 0 ≤ (clamp size v).toInt := Int32.le_iff_toInt_le.mp hpos
    rw [UInt32.toNat_toUInt16, Int32.toNat_toUInt32_of_le hpos, ← Int32.toNat_toInt]
    omega
  · exact UInt16.toNat_lt _

lemma onPanel_calibrateXy (cfg : XptConfig) (rawX rawY : Int32) :
    OnPanel width height cfg (calibrateXy cfg rawX rawY) :=
  ⟨clamp_lt _ _, clamp_lt _ _⟩

lemma polls_poll (reply : Reply) (nowMs : UInt32) (s : XptState) :
    Polls (OnPanel width height) s.toTouchState (poll reply nowMs s).2.2.toTouchState (poll reply nowMs s).2.1 := by
  unfold poll
  generalize readRawXy reply.samples = raw
  have hcalibrated := onPanel_calibrateXy s.cfg raw.1 raw.2
  dsimp only
  generalize calibrateXy s.cfg raw.1 raw.2 = p at hcalibrated ⊢
  split
  · exact polls_nothing _ _
  · rename_i hoff
    have hinit : s.initialized = true := eq_true_of_ne_false hoff
    split
    · exact polls_nothing _ _
    · split
      · split
        · exact (polls_liftOff hinit nowMs).irq_after false
        · split
          · exact (polls_nothing _ _).irq_after false
          · split
            · exact (polls_nothing _ _).irq_after false
            · exact (polls_touchAt hinit hcalibrated nowMs).irq_after false
      · exact (polls_liftOff hinit nowMs).irq_after false

lemma tracks : Tracks driver (OnPanel width height) where
  start := rfl
  init config answers s := by
    change (init config (answers.headD espOk) answers.tail s).2.touching = false ∨
      (init config (answers.headD espOk) answers.tail s).2.toTouchState = s.toTouchState ∨ _
    unfold init
    cases config with
    | none => exact .inr (.inl rfl)
    | some config =>
      dsimp only
      split_ifs
      · exact .inr (.inl rfl)
      · exact .inl rfl
      · exact .inl rfl
      · exact .inl rfl
  deinit s := by
    change (deinit s).touching = false ∨ (deinit s).toTouchState = s.toTouchState
    rw [deinit]
    split_ifs
    · exact .inl rfl
    · exact .inr rfl
  registerCallback _ _ := rfl
  isrHandler _ := rfl
  poll := polls_poll

end Xpt2046

end ThistleOS.TouchDrivers
