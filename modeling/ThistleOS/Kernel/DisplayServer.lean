import ThistleOS.Component
import ThistleOS.EspErr
import ThistleOS.Slots
import Mathlib.Data.List.Basic
import Mathlib.Logic.Function.Basic

/-!
# The display server

Surfaces live in eight slots. A new surface goes into the first free slot and its id comes from a
counter, while every other call looks for the surface in the slot before its id.
-/

namespace ThistleOS.Display

def maxSurfaces : Nat := 8

structure SurfaceInfo where
  x : UInt16
  y : UInt16
  width : UInt16
  height : UInt16
  role : UInt32
  visible : Bool
  deriving DecidableEq

structure HalArea where
  x1 : UInt16
  y1 : UInt16
  x2 : UInt16
  y2 : UInt16
  deriving DecidableEq

/-- A pointer that the server hands on without following it. -/
abbrev Address := UInt32

structure Surface where
  info : SurfaceInfo
  buffer : List UInt8
  dirty : Bool
  dirtyArea : HalArea
  inputCb : Option Address
  inputUserData : Address
  allocated : Bool
  deriving DecidableEq

namespace Surface

def empty : Surface where
  info := ⟨0, 0, 0, 0, 0, false⟩
  buffer := []
  dirty := false
  dirtyArea := ⟨0, 0, 0, 0⟩
  inputCb := none
  inputUserData := 0
  allocated := false

/-- The surface that is created for `info`. The size is a `usize` of the 32-bit target. -/
def create (info : SurfaceInfo) : Surface where
  info := info
  buffer := List.replicate (info.width.toNat * info.height.toNat * 2 % 0x100000000) 0
  dirty := false
  dirtyArea := ⟨0, 0, 0, 0⟩
  inputCb := none
  inputUserData := 0
  allocated := true

def markDirty (area : HalArea) (s : Surface) : Surface :=
  if s.dirty then
    { s with
      dirtyArea :=
        { x1 := if area.x1 < s.dirtyArea.x1 then area.x1 else s.dirtyArea.x1
          y1 := if area.y1 < s.dirtyArea.y1 then area.y1 else s.dirtyArea.y1
          x2 := if area.x2 > s.dirtyArea.x2 then area.x2 else s.dirtyArea.x2
          y2 := if area.y2 > s.dirtyArea.y2 then area.y2 else s.dirtyArea.y2 } }
  else { s with dirtyArea := area, dirty := true }

def markDirtyFull (s : Surface) : Surface :=
  { s with
    dirty := true
    dirtyArea :=
      ⟨0, 0, UInt16.ofNat (s.info.width.toNat - 1), UInt16.ofNat (s.info.height.toNat - 1)⟩ }

def setVisible (visible : Bool) (s : Surface) : Surface :=
  { s with info := { s.info with visible } }

def setInputCb (cb userData : Address) (s : Surface) : Surface :=
  { s with inputCb := some cb, inputUserData := userData }

end Surface

structure DisplayServer where
  surfaces : List Surface
  surfaces_length : surfaces.length = maxSurfaces
  nextId : UInt32

namespace DisplayServer

def new : DisplayServer := ⟨List.replicate maxSurfaces .empty, List.length_replicate, 1⟩

/-- Change the surface in slot `i`, if there is such a slot. -/
def modify (i : Nat) (f : Surface → Surface) (ds : DisplayServer) : DisplayServer :=
  { ds with
    surfaces := ds.surfaces.modify i f
    surfaces_length := (List.length_modify f ds.surfaces i).trans ds.surfaces_length }

/-- Put a new surface into slot `i`. -/
def fill (i : Nat) (info : SurfaceInfo) (ds : DisplayServer) : DisplayServer :=
  { ds.modify i fun _ => .create info with nextId := ds.nextId + 1 }

end DisplayServer

/-- The server, once it is initialised. -/
abbrev State := Option DisplayServer

/-- The slot in which an id is looked up. -/
def slot (id : UInt32) : Nat := (id - 1).toNat

def createSurface (info : Option SurfaceInfo) (state : State) : UInt32 × State :=
  match info, state with
  | some info, some ds =>
    match ds.surfaces.findIdx? fun s => !s.allocated with
    | some i => (ds.nextId, some (ds.fill i info))
    | none => (0, some ds)
  | _, state => (0, state)

def destroySurface (id : UInt32) (state : State) : State :=
  state.map (·.modify (slot id) fun _ => .empty)

/-- The bytes behind the pointer that is returned. -/
def getBuffer (id : UInt32) (state : State) : Option (List UInt8) := do
  let ds ← state
  let s ← ds.surfaces[slot id]?
  if s.allocated then some s.buffer else none

def getInfo (id : UInt32) (state : State) : Option SurfaceInfo := do
  let ds ← state
  let s ← ds.surfaces[slot id]?
  if s.allocated then some s.info else none

def markDirty (id : UInt32) (area : Option HalArea) (state : State) : State :=
  match area with
  | some area => state.map (·.modify (slot id) (·.markDirty area))
  | none => state

def markDirtyFull (id : UInt32) (state : State) : State :=
  state.map (·.modify (slot id) (·.markDirtyFull))

def setVisible (id : UInt32) (visible : Bool) (state : State) : State :=
  state.map (·.modify (slot id) (·.setVisible visible))

def surfaceInputCb (id : UInt32) (cb userData : Address) (state : State) : EspErr × State :=
  match state with
  | some ds =>
    if slot id < ds.surfaces.length then
      (espOk, some (ds.modify (slot id) (·.setInputCb cb userData)))
    else (espErrNotFound, some ds)
  | none => (espErrNotFound, none)

inductive SurfaceOp
  | init
  | createSurface (info : Option SurfaceInfo)
  | destroySurface (id : UInt32)
  | getBuffer (id : UInt32)
  | getInfo (id : UInt32)
  | markDirty (id : UInt32) (area : Option HalArea)
  | markDirtyFull (id : UInt32)
  | setVisible (id : UInt32) (visible : Bool)
  | surfaceInputCb (id : UInt32) (cb userData : Address)

def SurfaceOp.Reply : SurfaceOp → Type
  | .init => EspErr
  | .createSurface _ => UInt32
  | .getBuffer _ => Option (List UInt8)
  | .getInfo _ => Option SurfaceInfo
  | .surfaceInputCb _ _ _ => EspErr
  | _ => Unit

def server : Component SurfaceOp SurfaceOp.Reply State where
  step
    | .init, _ => (espOk, some .new)
    | .createSurface info, s => createSurface info s
    | .destroySurface id, s => ((), destroySurface id s)
    | .getBuffer id, s => (getBuffer id s, s)
    | .getInfo id, s => (getInfo id s, s)
    | .markDirty id area, s => ((), markDirty id area s)
    | .markDirtyFull id, s => ((), markDirtyFull id s)
    | .setVisible id visible, s => ((), setVisible id visible s)
    | .surfaceInputCb id cb userData, s => surfaceInputCb id cb userData s

/-! ### What the callers see -/

/-- What the calls and their replies say about the surfaces: the surface of every id that a create
has returned and no destroy has taken back, and whether such a surface has been destroyed. -/
structure History where
  live : UInt32 → Option Surface
  destroyed : Bool

def History.start : History := ⟨fun _ => none, false⟩

/-- A create adds a surface, unless it returns 0. -/
def History.create (info : SurfaceInfo) (id : UInt32) (h : History) : History :=
  if id = 0 then h else { h with live := Function.update h.live id (some (.create info)) }

def History.destroy (id : UInt32) (h : History) : History :=
  { live := Function.update h.live id none, destroyed := h.destroyed || (h.live id).isSome }

/-- A call changes the surface of its id, and no other. -/
def History.change (id : UInt32) (f : Surface → Surface) (h : History) : History :=
  { h with live := Function.update h.live id ((h.live id).map f) }

def record : (o : SurfaceOp) → o.Reply → History → History
  | .init, _, _ => .start
  | .createSurface (some info), id, h => h.create info id
  | .createSurface none, _, h => h
  | .destroySurface id, _, h => h.destroy id
  | .getBuffer _, _, h => h
  | .getInfo _, _, h => h
  | .markDirty id (some area), _, h => h.change id (·.markDirty area)
  | .markDirty _ none, _, h => h
  | .markDirtyFull id, _, h => h.change id (·.markDirtyFull)
  | .setVisible id visible, _, h => h.change id (·.setVisible visible)
  | .surfaceInputCb id cb userData, _, h => h.change id (·.setInputCb cb userData)

/-- The surface that an id designates. -/
def surface (id : UInt32) (state : State) : Option Surface :=
  (state.bind fun ds => ds.surfaces[slot id]?).filter (·.allocated)

/-- Every id designates the surface that was created under it. -/
def Designates (s : State × History) : Prop := ∀ id, surface id s.1 = s.2.live id

/-- Every id designates its surface when a call is made, a new id belongs to no surface, and the
replies are about the surface of the id. -/
def Identified (o : SurfaceOp) (s : State × History) : Prop :=
  Designates s ∧
  match o with
  | .createSurface info => (createSurface info s.1).1 ≠ 0 → s.2.live (createSurface info s.1).1 = none
  | .getBuffer id => getBuffer id s.1 = (s.2.live id).map Surface.buffer
  | .getInfo id => getInfo id s.1 = (s.2.live id).map Surface.info
  | _ => True

/-- A surface is created only before any surface has been destroyed. -/
def CreatesFirst (o : SurfaceOp) (s : State × History) : Prop :=
  match o with
  | .createSurface (some _) => s.2.destroyed = false
  | _ => True

lemma change_live (h : History) (id id' : UInt32) (f : Surface → Surface) :
    (h.change id f).live id' = if id' = id then (h.live id).map f else h.live id' := by
  exact Function.update_apply _ _ _ _

lemma destroy_live (h : History) (id id' : UInt32) :
    (h.destroy id).live id' = if id' = id then none else h.live id' := by
  exact Function.update_apply _ _ _ _

lemma create_live (h : History) (info : SurfaceInfo) {id : UInt32} (hid : id ≠ 0) (id' : UInt32) :
    (h.create info id).live id' = if id' = id then some (.create info) else h.live id' := by
  rw [History.create, if_neg hid]
  exact Function.update_apply _ _ _ _

/-! ### Slots and ids -/

lemma slot_injective : Function.Injective slot := fun id id' h => by
  have hsub : id - 1 = id' - 1 := UInt32.toNat_inj.mp h
  rw [← UInt32.sub_add_cancel id 1, hsub, UInt32.sub_add_cancel]

/-- The slot of the id that the counter gives out when it is at `k + 1`. -/
lemma slot_eq_iff {id nextId : UInt32} {k : Nat} (hnext : nextId.toNat = k + 1) :
    slot id = k ↔ id = nextId := by
  have hk : slot nextId = k := by
    rw [slot, UInt32.toNat_sub_of_le _ _ (by rw [UInt32.le_iff_toNat_le, hnext]; simp), hnext]
    rfl
  rw [← hk]
  exact slot_injective.eq_iff

lemma surface_some (id : UInt32) (ds : DisplayServer) :
    surface id (some ds) = ds.surfaces[slot id]?.filter (·.allocated) := rfl

@[simp] lemma surface_none (id : UInt32) : surface id none = none := rfl

lemma surface_modify (id : UInt32) (i : Nat) (f : Surface → Surface) (ds : DisplayServer) :
    surface id (some (ds.modify i f)) =
      if i = slot id then (ds.surfaces[slot id]?.map f).filter (·.allocated)
      else surface id (some ds) := by
  rw [surface_some, surface_some, DisplayServer.modify, List.getElem?_modify]
  split_ifs <;> simp

/-- A call that keeps a surface allocated changes the surface that its id designates. -/
lemma surface_change (id id' : UInt32) {f : Surface → Surface}
    (hf : ∀ s, (f s).allocated = s.allocated) (state : State) :
    surface id' (state.map (·.modify (slot id) f)) =
      if id' = id then (surface id state).map f else surface id' state := by
  cases state with
  | none => simp
  | some ds =>
    rw [Option.map_some, surface_modify]
    by_cases hid : id' = id
    · rw [hid, if_pos rfl, if_pos rfl, surface_some]
      cases ds.surfaces[slot id]? with
      | none => rfl
      | some s => simp [Option.filter, hf, apply_ite]
    · rw [if_neg (fun h => hid (slot_injective h).symm), if_neg hid]

lemma getBuffer_eq (id : UInt32) (state : State) :
    getBuffer id state = (surface id state).map Surface.buffer := by
  cases state with
  | none => rfl
  | some ds =>
    rw [surface_some, getBuffer]
    cases h : ds.surfaces[slot id]? with
    | none => simp [h]
    | some s => by_cases hs : s.allocated <;> simp [h, hs, Option.filter]

lemma getInfo_eq (id : UInt32) (state : State) :
    getInfo id state = (surface id state).map Surface.info := by
  cases state with
  | none => rfl
  | some ds =>
    rw [surface_some, getInfo]
    cases h : ds.surfaces[slot id]? with
    | none => simp [h]
    | some s => by_cases hs : s.allocated <;> simp [h, hs, Option.filter]

lemma surfaceInputCb_snd (id : UInt32) (cb userData : Address) (state : State) :
    (surfaceInputCb id cb userData state).2 =
      state.map (·.modify (slot id) (·.setInputCb cb userData)) := by
  cases state with
  | none => rfl
  | some ds =>
    rw [surfaceInputCb]
    split_ifs with hslot
    · rfl
    · have hsame : ds.surfaces.modify (slot id) (·.setInputCb cb userData) = ds.surfaces :=
        List.modify_eq_self (Nat.le_of_not_lt hslot)
      simp [DisplayServer.modify, hsame]

/-! ### The slots in use -/

/-- Whether slot `i` is in use; `none` when there is no such slot. -/
def inUse (ds : DisplayServer) (i : Nat) : Option Bool := ds.surfaces[i]?.map Surface.allocated

lemma inUse_isSome {ds : DisplayServer} {i : Nat} : (inUse ds i).isSome ↔ i < maxSurfaces := by
  rw [inUse, Option.isSome_map, ← ds.surfaces_length]
  simp

lemma inUse_modify (ds : DisplayServer) (i j : Nat) (f : Surface → Surface) :
    inUse (ds.modify i f) j =
      if i = j then ds.surfaces[j]?.map fun s => (f s).allocated else inUse ds j := by
  rw [inUse, inUse, DisplayServer.modify, List.getElem?_modify]
  split_ifs <;> simp [Function.comp_def]

lemma surface_isSome {id : UInt32} {ds : DisplayServer} :
    (surface id (some ds)).isSome ↔ inUse ds (slot id) = some true := by
  rw [surface_some, inUse]
  cases ds.surfaces[slot id]? with
  | none => simp
  | some s => by_cases h : s.allocated <;> simp [Option.filter, h]

/-- What a create does on a server that is initialised. -/
lemma createSurface_cases (info : SurfaceInfo) (ds : DisplayServer) :
    (∃ i, inUse ds i = some false ∧ (∀ j < i, inUse ds j = some true) ∧
      createSurface (some info) (some ds) = (ds.nextId, some (ds.fill i info))) ∨
    ((∀ i < maxSurfaces, inUse ds i = some true) ∧
      createSurface (some info) (some ds) = (0, some ds)) := by
  rw [createSurface]
  cases hfind : ds.surfaces.findIdx? fun s => !s.allocated with
  | some i =>
    obtain ⟨hi, hfree, hbelow⟩ := List.findIdx?_eq_some_iff_getElem.mp hfind
    refine .inl ⟨i, ?_, fun j hj => ?_, rfl⟩
    · simpa [inUse, hi] using hfree
    · have hlt : j < ds.surfaces.length := Nat.lt_trans hj hi
      simpa [inUse, hlt] using hbelow j hj
  | none =>
    refine .inr ⟨fun i hi => ?_, rfl⟩
    rw [← ds.surfaces_length] at hi
    have hused := List.findIdx?_eq_none_iff.mp hfind _ (List.getElem_mem hi)
    simpa [inUse, hi] using hused

/-- The slots from `k` on have not been used, and the counter has given out the ids of the slots
below; these are all in use as long as no surface has been destroyed. -/
structure Filled (ds : DisplayServer) (destroyed : Bool) (k : Nat) : Prop where
  bound : k ≤ maxSurfaces
  next : ds.nextId.toNat = k + 1
  above : ∀ i, k ≤ i → inUse ds i ≠ some true
  below : destroyed = false ↔ ∀ i < k, inUse ds i = some true

/-- The state of the server agrees with what its callers have seen. -/
def Shape : State × History → Prop
  | (none, h) => h.destroyed = false
  | (some ds, h) => ∃ k, Filled ds h.destroyed k

/-- What holds between two calls. -/
def Inv (s : State × History) : Prop := Designates s ∧ Shape s

lemma filled_new : Filled .new false 0 := by
  refine ⟨Nat.zero_le _, rfl, fun i _ => ?_, by simp⟩
  have hempty : Surface.empty.allocated = false := rfl
  rw [inUse, DisplayServer.new, List.getElem?_replicate]
  split_ifs <;> simp [hempty]

lemma inv_init : Inv (some .new, .start) := by
  refine ⟨fun id => ?_, 0, filled_new⟩
  have hnone : ¬ (surface id (some .new)).isSome := by
    rw [surface_isSome]
    exact filled_new.above _ (Nat.zero_le _)
  exact Option.not_isSome_iff_eq_none.mp hnone

section Calls

variable {state : State} {history : History}

/-- A call that keeps a surface allocated changes the surface of its id. -/
lemma Inv.change (h : Inv (state, history)) (id : UInt32) {f : Surface → Surface}
    (hf : ∀ s, (f s).allocated = s.allocated) :
    Inv (state.map (·.modify (slot id) f), history.change id f) := by
  constructor
  · intro id'
    change surface id' (state.map _) = (history.change id f).live id'
    rw [surface_change id id' hf, change_live, ← h.1 id, ← h.1 id']
  · cases state with
    | none => exact h.2
    | some ds =>
      obtain ⟨k, hk⟩ := h.2
      have huse : inUse (ds.modify (slot id) f) = inUse ds := by
        funext j
        rw [inUse_modify]
        split_ifs <;> simp [hf, inUse]
      exact ⟨k, hk.bound, hk.next, by rw [huse]; exact hk.above, by rw [huse]; exact hk.below⟩

lemma inUse_destroy (ds : DisplayServer) (i j : Nat) :
    inUse (ds.modify i fun _ => .empty) j =
      if i = j then (inUse ds j).map fun _ => false else inUse ds j := by
  have hempty : Surface.empty.allocated = false := rfl
  rw [inUse_modify, inUse, Option.map_map]
  split_ifs <;> simp [hempty, Function.comp_def]

lemma surface_destroy (id id' : UInt32) (state : State) :
    surface id' (destroySurface id state) = if id' = id then none else surface id' state := by
  have hempty : Surface.empty.allocated = false := rfl
  cases state with
  | none => simp [destroySurface]
  | some ds =>
    rw [destroySurface, Option.map_some, surface_modify]
    by_cases hid : id' = id
    · rw [hid, if_pos rfl, if_pos rfl]
      cases ds.surfaces[slot id]? <;> simp [Option.filter, hempty]
    · rw [if_neg (fun heq => hid (slot_injective heq).symm), if_neg hid]

/-- Once a surface has been destroyed, some slot below the counter is free. -/
lemma Filled.destroy {ds : DisplayServer} {destroyed : Bool} {k : Nat}
    (h : Filled ds destroyed k) (i : Nat) :
    Filled (ds.modify i fun _ => .empty) (destroyed || inUse ds i == some true) k := by
  refine ⟨h.bound, h.next, fun j hj => ?_, ?_⟩
  · rw [inUse_destroy]
    split_ifs
    · cases inUse ds j <;> simp
    · exact h.above j hj
  · rw [Bool.or_eq_false_iff, h.below, beq_eq_false_iff_ne]
    constructor
    · rintro ⟨hall, hfree⟩ j hj
      rw [inUse_destroy, if_neg (fun heq : i = j => hfree (heq ▸ hall j hj))]
      exact hall j hj
    · intro hall
      have hne : ∀ j < k, i ≠ j := by
        intro j hj heq
        have hused := hall j hj
        rw [inUse_destroy, if_pos heq] at hused
        cases hu : inUse ds j <;> simp [hu] at hused
      refine ⟨fun j hj => ?_, fun hused => ?_⟩
      · have hused := hall j hj
        rwa [inUse_destroy, if_neg (hne j hj)] at hused
      · exact hne i (Nat.lt_of_not_le fun hle => h.above _ hle hused) rfl

lemma Inv.destroy (h : Inv (state, history)) (id : UInt32) :
    Inv (destroySurface id state, history.destroy id) := by
  refine ⟨fun id' => ?_, ?_⟩
  · change surface id' (destroySurface id state) = (history.destroy id).live id'
    rw [surface_destroy, destroy_live, ← h.1 id']
  · have hlive : (history.live id).isSome = (surface id state).isSome := by rw [← h.1 id]
    cases state with
    | none =>
      have hdestroyed : history.destroyed = false := h.2
      change (history.destroyed || (history.live id).isSome) = false
      rw [hlive, hdestroyed]
      rfl
    | some ds =>
      obtain ⟨k, hk⟩ := h.2
      have hused : (history.live id).isSome = (inUse ds (slot id) == some true) := by
        rw [hlive, Bool.eq_iff_iff, surface_isSome, beq_iff_eq]
      refine ⟨k, ?_⟩
      rw [History.destroy, hused]
      exact hk.destroy (slot id)

/-- Before any surface has been destroyed, a new surface gets the id of its slot. -/
lemma Filled.create {ds : DisplayServer} {k i : Nat} (h : Filled ds false k)
    (hfree : inUse ds i = some false) (hbelow : ∀ j < i, inUse ds j = some true)
    (info : SurfaceInfo) :
    i = k ∧ Filled (ds.fill i info) false (k + 1) := by
  have hall := h.below.mp rfl
  have hik : i = k := by
    rcases Nat.lt_trichotomy i k with hlt | heq | hlt
    · exact absurd (hall i hlt) (by simp [hfree])
    · exact heq
    · exact absurd (hbelow k hlt) (h.above k (Nat.le_refl k))
  subst hik
  have hlt : i < maxSurfaces := inUse_isSome.mp (by rw [hfree]; rfl)
  have huse : ∀ j, inUse (ds.fill i info) j =
      if i = j then ds.surfaces[j]?.map fun _ => true else inUse ds j :=
    fun j => inUse_modify ds i j fun _ => .create info
  have hslot : (ds.surfaces[i]?).map (fun _ => true) = some true := by
    rw [inUse, Option.map_eq_some_iff] at hfree
    obtain ⟨s, hs, -⟩ := hfree
    rw [hs, Option.map_some]
  refine ⟨rfl, hlt, ?_, fun j hj => ?_, iff_of_true rfl fun j hj => ?_⟩
  · change (ds.nextId + 1).toNat = i + 1 + 1
    rw [UInt32.toNat_add, h.next]
    have hbound : maxSurfaces = 8 := rfl
    simp only [UInt32.reduceToNat]
    omega
  · rw [huse, if_neg (by omega)]
    exact h.above j (by omega)
  · rw [huse]
    split_ifs with heq
    · rw [← heq, hslot]
    · exact hall j (by omega)

lemma surface_fill (id : UInt32) {ds : DisplayServer} {i : Nat} (hfree : inUse ds i = some false)
    (info : SurfaceInfo) :
    surface id (some (ds.fill i info)) =
      if slot id = i then some (.create info) else surface id (some ds) := by
  have halloc : (Surface.create info).allocated = true := rfl
  change surface id (some (ds.modify i fun _ => .create info)) = _
  rw [surface_modify]
  by_cases hslot : i = slot id
  · rw [if_pos hslot, if_pos hslot.symm]
    rw [inUse, hslot, Option.map_eq_some_iff] at hfree
    obtain ⟨s, hs, -⟩ := hfree
    simp [hs, Option.filter, halloc]
  · rw [if_neg hslot, if_neg (Ne.symm hslot)]

/-- What a create does before any surface has been destroyed. -/
lemma Inv.create (h : Inv (state, history)) (info : SurfaceInfo)
    (hfirst : history.destroyed = false) :
    ((createSurface (some info) state).1 ≠ 0 →
      history.live (createSurface (some info) state).1 = none) ∧
    Inv ((createSurface (some info) state).2,
      history.create info (createSurface (some info) state).1) := by
  cases state with
  | none => exact ⟨fun hid => absurd rfl hid, h⟩
  | some ds =>
    obtain ⟨k, hk⟩ := h.2
    change Filled ds history.destroyed k at hk
    rw [hfirst] at hk
    rcases createSurface_cases info ds with ⟨i, hfree, hbelow, heq⟩ | ⟨-, heq⟩
    · obtain ⟨rfl, hfill⟩ := hk.create hfree hbelow info
      have hne : ds.nextId ≠ 0 := by
        intro hzero
        have hnext := hk.next
        rw [hzero] at hnext
        exact absurd hnext (Nat.zero_ne_add_one i)
      rw [heq]
      refine ⟨fun _ => ?_, fun id => ?_, i + 1, ?_⟩
      · rw [← h.1, ← Option.not_isSome_iff_eq_none, surface_isSome,
          (slot_eq_iff hk.next).mpr rfl, hfree]
        simp
      · change surface id (some (ds.fill i info)) = (history.create info ds.nextId).live id
        rw [surface_fill id hfree, create_live _ _ hne, ← h.1 id]
        simp only [slot_eq_iff hk.next]
      · change Filled (ds.fill i info) (history.create info ds.nextId).destroyed (i + 1)
        rw [History.create, if_neg hne, hfirst]
        exact hfill
    · rw [heq]
      refine ⟨fun hid => absurd rfl hid, ?_⟩
      rw [History.create, if_pos rfl]
      exact h

/-- After a surface has been destroyed, a new surface is found under another id than its own. -/
lemma Inv.not_create (h : Inv (state, history)) (info : SurfaceInfo)
    (hdestroyed : history.destroyed = true) :
    ¬ Designates ((createSurface (some info) state).2,
      history.create info (createSurface (some info) state).1) := by
  cases state with
  | none => exact absurd h.2 (by rw [Shape, hdestroyed]; simp)
  | some ds =>
    obtain ⟨k, hk⟩ := h.2
    change Filled ds history.destroyed k at hk
    have hhole : ¬ ∀ i < k, inUse ds i = some true := by
      rw [← hk.below, hdestroyed]
      simp
    rcases createSurface_cases info ds with ⟨i, hfree, hbelow, heq⟩ | ⟨hall, -⟩
    · have hik : i < k := by
        by_contra hle
        exact hhole fun j hj => hbelow j (by omega)
      have hne : ds.nextId ≠ 0 := by
        intro hzero
        have hnext := hk.next
        rw [hzero] at hnext
        exact absurd hnext (Nat.zero_ne_add_one k)
      have hi : i < maxSurfaces := Nat.lt_of_lt_of_le hik hk.bound
      have hbound : maxSurfaces = 8 := rfl
      -- the id whose slot has been filled
      have hid : (UInt32.ofNat (i + 1)).toNat = i + 1 := by
        rw [UInt32.toNat_ofNat']
        omega
      have hslot : slot (UInt32.ofNat (i + 1)) = i := (slot_eq_iff hid).mpr rfl
      intro hdes
      have hfound := hdes (UInt32.ofNat (i + 1))
      rw [heq] at hfound
      change surface _ (some (ds.fill i info)) = (history.create info ds.nextId).live _ at hfound
      have hother : UInt32.ofNat (i + 1) ≠ ds.nextId := by
        intro hsame
        have hnext := hk.next
        rw [← hsame, hid] at hnext
        omega
      have hnone : history.live (UInt32.ofNat (i + 1)) = none := by
        rw [← h.1, ← Option.not_isSome_iff_eq_none, surface_isSome, hslot, hfree]
        simp
      rw [surface_fill _ hfree, if_pos hslot, create_live _ _ hne, if_neg hother, hnone] at hfound
      cases hfound
    · exact absurd (fun i hi => hall i (Nat.lt_of_lt_of_le hi hk.bound)) hhole

end Calls

/-! ### Runs -/

/-- The server with a record of what its callers see. -/
def watched : Component SurfaceOp SurfaceOp.Reply (State × History) := server.watch record

def start : State × History := (none, .start)

lemma inv_start : Inv start := ⟨fun _ => rfl, rfl⟩

lemma Inv.step {o : SurfaceOp} {s : State × History} (h : Inv s) (hfirst : CreatesFirst o s) :
    Inv (watched.next o s) := by
  obtain ⟨state, history⟩ := s
  cases o with
  | init => exact inv_init
  | createSurface info =>
    cases info with
    | none => cases state <;> exact h
    | some info => exact (h.create info hfirst).2
  | destroySurface id => exact h.destroy id
  | getBuffer id => exact h
  | getInfo id => exact h
  | markDirty id area =>
    cases area with
    | none => exact h
    | some area => exact h.change id fun s => by rw [Surface.markDirty]; split_ifs <;> rfl
  | markDirtyFull id => exact h.change id fun _ => rfl
  | setVisible id visible => exact h.change id fun _ => rfl
  | surfaceInputCb id cb userData =>
    change Inv ((surfaceInputCb id cb userData state).2, history.change id (·.setInputCb cb userData))
    rw [surfaceInputCb_snd]
    exact h.change id fun _ => rfl

lemma Inv.identified {o : SurfaceOp} {s : State × History} (h : Inv s)
    (hfirst : CreatesFirst o s) : Identified o s := by
  refine ⟨h.1, ?_⟩
  obtain ⟨state, history⟩ := s
  cases o with
  | createSurface info =>
    cases info with
    | none => cases state <;> exact fun hid => absurd rfl hid
    | some info => exact (h.create info hfirst).1
  | getBuffer id => exact (getBuffer_eq id state).trans (by rw [h.1 id])
  | getInfo id => exact (getInfo_eq id state).trans (by rw [h.1 id])
  | _ => trivial

/-- In a run in which every id designates its surface after a call too, no surface is created once
one has been destroyed. -/
lemma Inv.createsFirst {o : SurfaceOp} {s : State × History} (h : Inv s)
    (hnext : Designates (watched.next o s)) : CreatesFirst o s := by
  obtain ⟨state, history⟩ := s
  cases o with
  | createSurface info =>
    cases info with
    | none => trivial
    | some info =>
      rw [CreatesFirst, ← Bool.not_eq_true]
      exact fun hdestroyed => h.not_create info hdestroyed hnext
  | _ => trivial

/-- The id that a create returns designates its surface, in every later call and in no call with
another id, exactly in the runs that create no surface once one has been destroyed. -/
theorem surfaces_identified_iff (ops : List SurfaceOp) :
    (watched.Along Identified start ops ∧ Designates (watched.run start ops)) ↔
      watched.Along CreatesFirst start ops := by
  constructor
  · rintro ⟨halong, hlast⟩
    have hdes := Component.along_next (halong.mono fun _ _ hid => hid.1) hlast
    have hinv := (Component.along_of_preserved
      (fun o s h hnext => h.step (h.createsFirst hnext)) inv_start hdes).1
    exact hinv.mono fun o s hs => hs.1.createsFirst hs.2
  · intro hfirst
    obtain ⟨halong, hlast⟩ := Component.along_of_preserved
      (fun o s h hf => h.step hf) inv_start hfirst
    exact ⟨halong.mono fun o s hs => hs.1.identified hs.2, hlast.1⟩

/-- A surface created after the only other one was destroyed has the id 2 and is found under the
id 1. -/
theorem surface_not_identified :
    ¬ (watched.Along Identified start
        [.init, .createSurface (some ⟨0, 0, 1, 1, 2, true⟩), .destroySurface 1,
          .createSurface (some ⟨0, 0, 1, 1, 2, true⟩)] ∧
      Designates (watched.run start
        [.init, .createSurface (some ⟨0, 0, 1, 1, 2, true⟩), .destroySurface 1,
          .createSurface (some ⟨0, 0, 1, 1, 2, true⟩)])) := by
  rintro ⟨-, hlast⟩
  have hnone : none = some (Surface.create ⟨0, 0, 1, 1, 2, true⟩) := hlast 2
  cases hnone

end ThistleOS.Display
