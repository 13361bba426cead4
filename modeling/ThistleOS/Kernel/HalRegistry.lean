import ThistleOS.Component
import ThistleOS.EspErr
import Mathlib.Data.List.Induction
import Mathlib.Data.Nat.Notation
import Mathlib.Order.Nat

/-!
# The registry of drivers

What the boot code registers and what it finds again. A writer changes a copy of the registry and publishes it; the
state is the registry that is published.
-/

namespace ThistleOS.Hal

/-- An address, 0 if there is nothing. -/
abbrev Ptr := ℕ

def halMaxInputDrivers : ℕ := 4
def halMaxStorageDrivers : ℕ := 2

structure HalRegistry where
  display : Ptr
  displayConfig : Ptr
  inputs : Fin halMaxInputDrivers → Ptr
  inputConfigs : Fin halMaxInputDrivers → Ptr
  inputCount : UInt8
  radio : Ptr
  radioConfig : Ptr
  gps : Ptr
  gpsConfig : Ptr
  audio : Ptr
  audioConfig : Ptr
  power : Ptr
  powerConfig : Ptr
  imu : Ptr
  imuConfig : Ptr
  storage : Fin halMaxStorageDrivers → Ptr
  storageConfigs : Fin halMaxStorageDrivers → Ptr
  storageCount : UInt8
  spiBus : Fin 2 → Ptr
  spiBusCount : UInt8
  i2cBus : Fin 2 → Ptr
  i2cBusCount : UInt8
  crypto : Ptr
  rtc : Ptr
  boardName : Ptr

def HalRegistry.new : HalRegistry where
  display := 0
  displayConfig := 0
  inputs := fun _ => 0
  inputConfigs := fun _ => 0
  inputCount := 0
  radio := 0
  radioConfig := 0
  gps := 0
  gpsConfig := 0
  audio := 0
  audioConfig := 0
  power := 0
  powerConfig := 0
  imu := 0
  imuConfig := 0
  storage := fun _ => 0
  storageConfigs := fun _ => 0
  storageCount := 0
  spiBus := fun _ => 0
  spiBusCount := 0
  i2cBus := fun _ => 0
  i2cBusCount := 0
  crypto := 0
  rtc := 0
  boardName := 0

variable {n : ℕ}

/-- A write at an index that is in range. -/
def setSlot (slots : Fin n → Ptr) (idx : ℕ) (p : Ptr) : Fin n → Ptr := fun i => if i.val = idx then p else slots i

/-- A read, unless the index is out of range. -/
def getSlot (slots : Fin n → Ptr) (idx : ℕ) : Option Ptr := if h : idx < n then some (slots ⟨idx, h⟩) else none

/-! ### Registering -/

/-- What the calls have in common that change one entry. -/
def publish (pointer : Ptr) (change : HalRegistry → HalRegistry) (reg : HalRegistry) : EspErr × HalRegistry :=
  if pointer = 0 then (espErrInvalidArg, reg) else (espOk, change reg)

/-- What the calls have in common that fill the next of `limit` slots. -/
def publishNext (limit : ℕ) (count : HalRegistry → UInt8) (pointer : Ptr) (change : ℕ → HalRegistry → HalRegistry)
    (reg : HalRegistry) : EspErr × HalRegistry :=
  if pointer = 0 then (espErrInvalidArg, reg)
  else if limit ≤ (count reg).toNat then (espErrNoMem, reg)
  else (espOk, change (count reg).toNat reg)

def halDisplayRegister (driver config : Ptr) : HalRegistry → EspErr × HalRegistry :=
  publish driver fun reg => { reg with display := driver, displayConfig := config }

def halInputRegister (driver config : Ptr) : HalRegistry → EspErr × HalRegistry :=
  publishNext halMaxInputDrivers (·.inputCount) driver fun idx reg =>
    { reg with
      inputs := setSlot reg.inputs idx driver
      inputConfigs := setSlot reg.inputConfigs idx config
      inputCount := reg.inputCount + 1 }

def halRadioRegister (driver config : Ptr) : HalRegistry → EspErr × HalRegistry :=
  publish driver fun reg => { reg with radio := driver, radioConfig := config }

def halGpsRegister (driver config : Ptr) : HalRegistry → EspErr × HalRegistry :=
  publish driver fun reg => { reg with gps := driver, gpsConfig := config }

def halAudioRegister (driver config : Ptr) : HalRegistry → EspErr × HalRegistry :=
  publish driver fun reg => { reg with audio := driver, audioConfig := config }

def halPowerRegister (driver config : Ptr) : HalRegistry → EspErr × HalRegistry :=
  publish driver fun reg => { reg with power := driver, powerConfig := config }

def halImuRegister (driver config : Ptr) : HalRegistry → EspErr × HalRegistry :=
  publish driver fun reg => { reg with imu := driver, imuConfig := config }

def halStorageRegister (driver config : Ptr) : HalRegistry → EspErr × HalRegistry :=
  publishNext halMaxStorageDrivers (·.storageCount) driver fun idx reg =>
    { reg with
      storage := setSlot reg.storage idx driver
      storageConfigs := setSlot reg.storageConfigs idx config
      storageCount := reg.storageCount + 1 }

def halCryptoRegister (driver : Ptr) : HalRegistry → EspErr × HalRegistry :=
  publish driver fun reg => { reg with crypto := driver }

def halRtcRegister (driver : Ptr) : HalRegistry → EspErr × HalRegistry :=
  publish driver fun reg => { reg with rtc := driver }

def halSetBoardName (name : Ptr) : HalRegistry → EspErr × HalRegistry :=
  publish name fun reg => { reg with boardName := name }

def halBusRegisterSpi (busHandle : Ptr) : HalRegistry → EspErr × HalRegistry :=
  publishNext 2 (·.spiBusCount) busHandle fun idx reg =>
    { reg with spiBus := setSlot reg.spiBus idx busHandle, spiBusCount := reg.spiBusCount + 1 }

def halBusRegisterI2c (busHandle : Ptr) : HalRegistry → EspErr × HalRegistry :=
  publishNext 2 (·.i2cBusCount) busHandle fun idx reg =>
    { reg with i2cBus := setSlot reg.i2cBus idx busHandle, i2cBusCount := reg.i2cBusCount + 1 }

/-! ### Looking up a bus -/

/-- What the two look-ups have in common: the comparison is that of the lowest eight bits of the index. -/
def busGet (bus : Fin 2 → Ptr) (count : UInt8) (index : Int32) : Option Ptr :=
  if index < 0 ∨ count ≤ UInt8.ofNat index.toInt.toNat then some 0 else getSlot bus index.toInt.toNat

def halBusGetSpi (index : Int32) (reg : HalRegistry) : Option Ptr := busGet reg.spiBus reg.spiBusCount index

def halBusGetI2c (index : Int32) (reg : HalRegistry) : Option Ptr := busGet reg.i2cBus reg.i2cBusCount index

/-! ### Runs -/

inductive Kind where
  | display
  | input
  | radio
  | gps
  | audio
  | power
  | imu
  | storage
  | crypto
  | rtc
  | boardName
  | spi
  | i2c
  deriving DecidableEq

/-- A call that registers a pointer of a kind with its configuration, which some kinds do not have. -/
structure Op where
  kind : Kind
  pointer : Ptr
  config : Ptr

/-- The registry as a component. -/
def registry : Component Op (fun _ => EspErr) HalRegistry where
  step o :=
    match o.kind with
    | .display => halDisplayRegister o.pointer o.config
    | .input => halInputRegister o.pointer o.config
    | .radio => halRadioRegister o.pointer o.config
    | .gps => halGpsRegister o.pointer o.config
    | .audio => halAudioRegister o.pointer o.config
    | .power => halPowerRegister o.pointer o.config
    | .imu => halImuRegister o.pointer o.config
    | .storage => halStorageRegister o.pointer o.config
    | .crypto => halCryptoRegister o.pointer
    | .rtc => halRtcRegister o.pointer
    | .boardName => halSetBoardName o.pointer
    | .spi => halBusRegisterSpi o.pointer
    | .i2c => halBusRegisterI2c o.pointer

/-! ### What a run has registered -/

/-- The pointers of a kind that a run has registered, with their configurations, the first one first. -/
def registered (k : Kind) (ops : List Op) : List (Ptr × Ptr) :=
  ops.filterMap fun o => if o.kind = k ∧ o.pointer ≠ 0 then some (o.pointer, o.config) else none

/-- An entry holds the last pointer of its kind. -/
def Single (all : List (Ptr × Ptr)) (pointer config : Ptr) : Prop := (pointer, config) = all.getLastD (0, 0)

/-- An entry holds the last pointer of its kind, which has no configuration. -/
def Bare (all : List (Ptr × Ptr)) (pointer : Ptr) : Prop := pointer = (all.getLastD (0, 0)).1

/-- Slots hold the first pointers of their kind in their order, and nothing behind them. -/
def Filled (all : List (Ptr × Ptr)) (slots : Fin n → Ptr) (count : UInt8) : Prop :=
  count.toNat = (all.take n).length ∧ ∀ i : Fin n, slots i = ((all.take n).getD i (0, 0)).1

/-- The configurations stand beside their drivers. -/
def Beside (all : List (Ptr × Ptr)) (configs : Fin n → Ptr) : Prop :=
  ∀ i : Fin n, configs i = ((all.take n).getD i (0, 0)).2

/-- The entry of a kind lists what has been registered. -/
def Lists (all : List (Ptr × Ptr)) (reg : HalRegistry) : Kind → Prop
  | .display => Single all reg.display reg.displayConfig
  | .input => Filled all reg.inputs reg.inputCount ∧ Beside all reg.inputConfigs
  | .radio => Single all reg.radio reg.radioConfig
  | .gps => Single all reg.gps reg.gpsConfig
  | .audio => Single all reg.audio reg.audioConfig
  | .power => Single all reg.power reg.powerConfig
  | .imu => Single all reg.imu reg.imuConfig
  | .storage => Filled all reg.storage reg.storageCount ∧ Beside all reg.storageConfigs
  | .crypto => Bare all reg.crypto
  | .rtc => Bare all reg.rtc
  | .boardName => Bare all reg.boardName
  | .spi => Filled all reg.spiBus reg.spiBusCount
  | .i2c => Filled all reg.i2cBus reg.i2cBusCount

/-- Two registries have the same entry of a kind. -/
def SameEntry (reg reg' : HalRegistry) : Kind → Prop
  | .display => reg'.display = reg.display ∧ reg'.displayConfig = reg.displayConfig
  | .input => reg'.inputs = reg.inputs ∧ reg'.inputConfigs = reg.inputConfigs ∧ reg'.inputCount = reg.inputCount
  | .radio => reg'.radio = reg.radio ∧ reg'.radioConfig = reg.radioConfig
  | .gps => reg'.gps = reg.gps ∧ reg'.gpsConfig = reg.gpsConfig
  | .audio => reg'.audio = reg.audio ∧ reg'.audioConfig = reg.audioConfig
  | .power => reg'.power = reg.power ∧ reg'.powerConfig = reg.powerConfig
  | .imu => reg'.imu = reg.imu ∧ reg'.imuConfig = reg.imuConfig
  | .storage =>
    reg'.storage = reg.storage ∧ reg'.storageConfigs = reg.storageConfigs ∧ reg'.storageCount = reg.storageCount
  | .crypto => reg'.crypto = reg.crypto
  | .rtc => reg'.rtc = reg.rtc
  | .boardName => reg'.boardName = reg.boardName
  | .spi => reg'.spiBus = reg.spiBus ∧ reg'.spiBusCount = reg.spiBusCount
  | .i2c => reg'.i2cBus = reg.i2cBus ∧ reg'.i2cBusCount = reg.i2cBusCount

/-- The handle at a position, null if there is none. -/
def handleAt (handles : List (Ptr × Ptr)) (index : Int32) : Ptr :=
  if index < 0 then 0 else (handles.getD index.toInt.toNat (0, 0)).1

/-! ### One call -/

variable {reg : HalRegistry}

lemma publish_cases (pointer : Ptr) (change : HalRegistry → HalRegistry) (reg : HalRegistry) :
    publish pointer change reg = (espErrInvalidArg, reg) ∧ pointer = 0 ∨
      publish pointer change reg = (espOk, change reg) ∧ pointer ≠ 0 := by
  rw [publish]
  split_ifs with h
  · exact .inl ⟨rfl, h⟩
  · exact .inr ⟨rfl, h⟩

lemma publishNext_cases (limit : ℕ) (count : HalRegistry → UInt8) (pointer : Ptr)
    (change : ℕ → HalRegistry → HalRegistry) (reg : HalRegistry) :
    (∃ e, publishNext limit count pointer change reg = (e, reg) ∧ e ≠ espOk ∧
        (pointer = 0 ∨ limit ≤ (count reg).toNat)) ∨
      publishNext limit count pointer change reg = (espOk, change (count reg).toNat reg) ∧ pointer ≠ 0 ∧
        (count reg).toNat < limit := by
  rw [publishNext]
  split_ifs with h hfull
  · exact .inl ⟨_, rfl, by decide, .inl h⟩
  · exact .inl ⟨_, rfl, by decide, .inr hfull⟩
  · exact .inr ⟨rfl, h, Nat.lt_of_not_le hfull⟩

/-- A call that fails changes nothing. -/
lemma next_of_failed (o : Op) (h : registry.reply o reg ≠ espOk) : registry.next o reg = reg := by
  have hpublish {pointer : Ptr} {change : HalRegistry → HalRegistry} (h : (publish pointer change reg).1 ≠ espOk) :
      (publish pointer change reg).2 = reg := by
    rcases publish_cases pointer change reg with ⟨heq, -⟩ | ⟨heq, -⟩
    · rw [heq]
    · rw [heq] at h
      exact absurd rfl h
  have hnext {limit : ℕ} {count : HalRegistry → UInt8} {pointer : Ptr} {change : ℕ → HalRegistry → HalRegistry}
      (h : (publishNext limit count pointer change reg).1 ≠ espOk) :
      (publishNext limit count pointer change reg).2 = reg := by
    rcases publishNext_cases limit count pointer change reg with ⟨e, heq, -⟩ | ⟨heq, -⟩
    · rw [heq]
    · rw [heq] at h
      exact absurd rfl h
  obtain ⟨kind, pointer, config⟩ := o
  cases kind with
  | input | storage | spi | i2c => exact hnext h
  | _ => exact hpublish h

lemma SameEntry.refl (reg : HalRegistry) (k : Kind) : SameEntry reg reg k := by
  cases k <;> simp [SameEntry]

/-- A call changes no entry of another kind. -/
lemma next_sameEntry (o : Op) (reg : HalRegistry) {k : Kind} (hk : k ≠ o.kind) :
    SameEntry reg (registry.next o reg) k := by
  have hpublish {pointer : Ptr} {change : HalRegistry → HalRegistry} (h : SameEntry reg (change reg) k) :
      SameEntry reg (publish pointer change reg).2 k := by
    rcases publish_cases pointer change reg with ⟨heq, -⟩ | ⟨heq, -⟩
    · rw [heq]
      exact .refl reg k
    · rw [heq]
      exact h
  have hnext {limit : ℕ} {count : HalRegistry → UInt8} {pointer : Ptr} {change : ℕ → HalRegistry → HalRegistry}
      (h : SameEntry reg (change (count reg).toNat reg) k) :
      SameEntry reg (publishNext limit count pointer change reg).2 k := by
    rcases publishNext_cases limit count pointer change reg with ⟨e, heq, -⟩ | ⟨heq, -⟩
    · rw [heq]
      exact .refl reg k
    · rw [heq]
      exact h
  obtain ⟨kind, pointer, config⟩ := o
  cases kind with
  | input | storage | spi | i2c =>
    refine hnext ?_
    cases k <;> simp [SameEntry] at hk ⊢
  | _ =>
    refine hpublish ?_
    cases k <;> simp [SameEntry] at hk ⊢

/-! ### The entries of a run -/

lemma registered_append (k : Kind) (ops : List Op) (o : Op) : registered k (ops ++ [o]) =
    registered k ops ++ if o.kind = k ∧ o.pointer ≠ 0 then [(o.pointer, o.config)] else [] := by
  rw [registered, List.filterMap_append]
  congr 1
  split_ifs with h
  · simp [h]
  · simp [h]

lemma Lists.congr {all : List (Ptr × Ptr)} {reg' : HalRegistry} {k : Kind} (h : Lists all reg k)
    (hsame : SameEntry reg reg' k) : Lists all reg' k := by
  cases k <;> simp only [SameEntry] at hsame <;> simpa only [Lists, hsame] using h

section Slots

variable {all : List (Ptr × Ptr)} {slots configs : Fin n → Ptr} {count : UInt8}

/-- Where there is room, everything that was registered is there. -/
lemma Filled.all_room (h : Filled all slots count) (hroom : count.toNat < n) :
    all.length = count.toNat ∧ all.take n = all := by
  have hcount := h.1
  rw [List.length_take] at hcount
  exact ⟨by omega, List.take_of_length_le (by omega)⟩

lemma Filled.take_append (h : Filled all slots count) (hroom : count.toNat < n) (p : Ptr × Ptr) :
    (all ++ [p]).take n = all ++ [p] := by
  have hlength := (h.all_room hroom).1
  refine List.take_of_length_le ?_
  rw [List.length_append, List.length_singleton]
  omega

/-- Where there is no room, nothing is listed any more. -/
lemma Filled.take_full (h : Filled all slots count) (hfull : n ≤ count.toNat) (p : Ptr × Ptr) :
    (all ++ [p]).take n = all.take n := by
  have hcount := h.1
  rw [List.length_take] at hcount
  exact List.take_append_of_le_length (by omega)

lemma getD_concat (all : List (Ptr × Ptr)) (p : Ptr × Ptr) (i : ℕ) :
    (all ++ [p]).getD i (0, 0) = if i = all.length then p else all.getD i (0, 0) := by
  rw [List.getD_eq_getElem?_getD, List.getD_eq_getElem?_getD]
  split_ifs with h
  · rw [h, List.getElem?_concat_length, Option.getD_some]
  · rcases Nat.lt_or_gt_of_ne h with hlt | hgt
    · rw [List.getElem?_append_left hlt]
    · rw [List.getElem?_eq_none (Nat.le_of_lt hgt), List.getElem?_eq_none]
      rw [List.length_append, List.length_singleton]
      omega

lemma Filled.setSlot (h : Filled all slots count) (hroom : count.toNat < n) (hn : n < 256) (pointer config : Ptr) :
    Filled (all ++ [(pointer, config)]) (setSlot slots count.toNat pointer) (count + 1) := by
  obtain ⟨hlength, htake⟩ := h.all_room hroom
  have hsucc : (count + 1).toNat = count.toNat + 1 := by
    rw [UInt8.toNat_add]
    exact Nat.mod_eq_of_lt (by simp; omega)
  rw [Filled, h.take_append hroom, hsucc, List.length_append, hlength]
  refine ⟨rfl, fun i => ?_⟩
  rw [getD_concat, hlength, Hal.setSlot]
  split_ifs
  · rfl
  · have hslot := h.2 i
    rwa [htake] at hslot

lemma Beside.setSlot (h : Filled all slots count) (hconfigs : Beside all configs) (hroom : count.toNat < n)
    (pointer config : Ptr) : Beside (all ++ [(pointer, config)]) (setSlot configs count.toNat config) := by
  obtain ⟨hlength, htake⟩ := h.all_room hroom
  intro i
  rw [h.take_append hroom, getD_concat, hlength, Hal.setSlot]
  split_ifs
  · rfl
  · have hconfig := hconfigs i
    rwa [htake] at hconfig

lemma Filled.full (h : Filled all slots count) (hfull : n ≤ count.toNat) (p : Ptr × Ptr) :
    Filled (all ++ [p]) slots count := by
  rwa [Filled, h.take_full hfull]

lemma Beside.full (h : Filled all slots count) (hconfigs : Beside all configs) (hfull : n ≤ count.toNat)
    (p : Ptr × Ptr) : Beside (all ++ [p]) configs := by
  rwa [Beside, h.take_full hfull]

end Slots

/-- A call lists what it registers of its own kind. -/
lemma lists_own (o : Op) {all : List (Ptr × Ptr)} (h : Lists all reg o.kind) :
    Lists (all ++ if o.pointer ≠ 0 then [(o.pointer, o.config)] else []) (registry.next o reg) o.kind := by
  have hpublish {k : Kind} {pointer config : Ptr} {change : HalRegistry → HalRegistry} (h : Lists all reg k)
      (hchange : Lists (all ++ [(pointer, config)]) (change reg) k) :
      Lists (all ++ if pointer ≠ 0 then [(pointer, config)] else []) (publish pointer change reg).2 k := by
    rcases publish_cases pointer change reg with ⟨heq, hnull⟩ | ⟨heq, hpointer⟩
    · rwa [heq, if_neg (not_not.mpr hnull), List.append_nil]
    · rwa [heq, if_pos hpointer]
  have hnext {k : Kind} {limit : ℕ} {count : HalRegistry → UInt8} {pointer config : Ptr}
      {change : ℕ → HalRegistry → HalRegistry} (h : Lists all reg k)
      (hfull : limit ≤ (count reg).toNat → Lists (all ++ [(pointer, config)]) reg k)
      (hchange : (count reg).toNat < limit → Lists (all ++ [(pointer, config)]) (change (count reg).toNat reg) k) :
      Lists (all ++ if pointer ≠ 0 then [(pointer, config)] else []) (publishNext limit count pointer change reg).2 k := by
    rcases publishNext_cases limit count pointer change reg with ⟨e, heq, -, hwhy⟩ | ⟨heq, hpointer, hroom⟩
    · rw [heq]
      split_ifs with hpointer
      · exact hfull (hwhy.resolve_left hpointer)
      · rwa [List.append_nil]
    · rw [heq, if_pos hpointer]
      exact hchange hroom
  have hsingle (pointer config : Ptr) : Single (all ++ [(pointer, config)]) pointer config := by
    rw [Single, List.getLastD_concat]
  have hbare (pointer config : Ptr) : Bare (all ++ [(pointer, config)]) pointer := by
    rw [Bare, List.getLastD_concat]
  obtain ⟨kind, pointer, config⟩ := o
  cases kind with
  | input =>
    exact hnext h (fun hfull => ⟨h.1.full hfull _, Beside.full h.1 h.2 hfull _⟩)
      (fun hroom => ⟨h.1.setSlot hroom (by decide) _ _, Beside.setSlot h.1 h.2 hroom _ _⟩)
  | storage =>
    exact hnext h (fun hfull => ⟨h.1.full hfull _, Beside.full h.1 h.2 hfull _⟩)
      (fun hroom => ⟨h.1.setSlot hroom (by decide) _ _, Beside.setSlot h.1 h.2 hroom _ _⟩)
  | spi => exact hnext h (fun hfull => Filled.full h hfull _) fun hroom => Filled.setSlot h hroom (by decide) _ _
  | i2c => exact hnext h (fun hfull => Filled.full h hfull _) fun hroom => Filled.setSlot h hroom (by decide) _ _
  | crypto | rtc | boardName => exact hpublish h (hbare _ _)
  | _ => exact hpublish h (hsingle _ _)

/-- A call lists what it registers. -/
lemma lists_step {ops : List Op} (h : ∀ k, Lists (registered k ops) reg k) (o : Op) (k : Kind) :
    Lists (registered k (ops ++ [o])) (registry.next o reg) k := by
  rw [registered_append]
  by_cases hk : k = o.kind
  · subst hk
    simpa only [true_and] using lists_own o (h o.kind)
  · rw [if_neg fun hand => hk hand.1.symm, List.append_nil]
    exact (h k).congr (next_sameEntry o reg hk)

/-- A run lists what it has registered. -/
theorem lists_run (ops : List Op) (k : Kind) : Lists (registered k ops) (registry.run .new ops) k := by
  induction ops using List.reverseRecOn generalizing k with
  | nil => cases k <;> simp [Lists, Single, Bare, Filled, Beside, registered, HalRegistry.new]
  | append_singleton ops o ih =>
    rw [Component.run_append]
    exact lists_step ih o k

/-! ### Looking up a bus -/

/-- A look-up finds the handle unless an index that is out of range ends like one that is in range. -/
lemma busGet_eq_iff {all : List (Ptr × Ptr)} {bus : Fin 2 → Ptr} {count : UInt8} (h : Filled all bus count)
    (index : Int32) : busGet bus count index = some (handleAt (all.take 2) index) ↔
      ¬ (256 ≤ index.toInt ∧ index.toInt % 256 < (all.take 2).length) := by
  obtain ⟨hcount, hbus⟩ := h
  have hlength : (all.take 2).length ≤ 2 := by
    rw [List.length_take]
    exact Nat.min_le_left _ _
  have hneg : index < 0 ↔ index.toInt < 0 := Int32.lt_iff_toInt_lt
  have hbyte : count ≤ UInt8.ofNat index.toInt.toNat ↔ (all.take 2).length ≤ index.toInt.toNat % 256 := by
    rw [UInt8.le_iff_toNat_le, UInt8.toNat_ofNat', hcount]
  rw [busGet, handleAt]
  simp only [hneg, hbyte]
  by_cases hz : index.toInt < 0
  · rw [if_pos (.inl hz), if_pos hz]
    exact iff_of_true rfl (by omega)
  · obtain ⟨m, hm⟩ := Int.eq_ofNat_of_zero_le (Int.not_lt.mp hz)
    simp only [hz, false_or, if_false]
    rw [hm, Int.toNat_natCast]
    by_cases hle : (all.take 2).length ≤ m % 256
    · have hnone : (all.take 2)[m]? = none := List.getElem?_eq_none (hle.trans (Nat.mod_le m 256))
      rw [if_pos hle, List.getD_eq_getElem?_getD, hnone]
      exact iff_of_true rfl (by omega)
    · rw [if_neg hle, getSlot]
      split_ifs with hlt
      · exact iff_of_true (congrArg some (hbus ⟨m, hlt⟩)) (by omega)
      · exact iff_of_false (by simp) (by omega)

/-- After every run the entries list what was registered, a call that fails changes nothing and no call changes an entry
of another kind; a look-up of a bus finds the handle at its index, or null, exactly if the index is no number from 256
on whose lowest eight bits are in range. -/
theorem registry_slots (ops : List Op) (index : Int32) :
    (∀ k, Lists (registered k ops) (registry.run .new ops) k) ∧
      (∀ o, (registry.reply o (registry.run .new ops) ≠ espOk →
          registry.next o (registry.run .new ops) = registry.run .new ops) ∧
        ∀ k ≠ o.kind, SameEntry (registry.run .new ops) (registry.next o (registry.run .new ops)) k) ∧
      (halBusGetSpi index (registry.run .new ops) = some (handleAt ((registered .spi ops).take 2) index) ↔
        ¬ (256 ≤ index.toInt ∧ index.toInt % 256 < ((registered .spi ops).take 2).length)) ∧
      (halBusGetI2c index (registry.run .new ops) = some (handleAt ((registered .i2c ops).take 2) index) ↔
        ¬ (256 ≤ index.toInt ∧ index.toInt % 256 < ((registered .i2c ops).take 2).length)) :=
  ⟨lists_run ops, fun o => ⟨next_of_failed o, fun _ hk => next_sameEntry o _ hk⟩,
    busGet_eq_iff (lists_run ops .spi) index, busGet_eq_iff (lists_run ops .i2c) index⟩

/-- With one bus, the look-up of index 256 reads outside of the array. -/
theorem index_out_of_range : halBusGetSpi 256 (registry.run .new [⟨.spi, 7, 0⟩]) = none := by
  decide +kernel

end ThistleOS.Hal
