import Mathlib.Data.List.ReduceOption
import ThistleOS.Kernel.BleScanner.Fields

/-!
# Runs of the scan table

Next to the table stands a tally of the accepted reports of each address. Every call keeps the table sound, except
a report whose device lists a service twice and is new, one that a counter has no room for, and one that
is new and displaces a device with a stronger signal.
-/

namespace ThistleOS.BleScan

def stored (s : BleScanner) : List BleDevice := s.devices.reduceOption

def addrs (s : BleScanner) : List Addr := (stored s).map BleDevice.addr

/-- The number of accepted reports of each address since it was inserted. -/
abbrev Tally := Addr → ℕ

def tally : Op → BleScanner → Tally → Tally
  | .report r, s, n =>
    if s.accepts r.device then Function.update n r.addr (if r.addr ∈ addrs s then n r.addr + 1 else 1) else n
  | _, _, n => n

def tallied : Component Op (fun _ => EspErr) (BleScanner × Tally) := bleScanner.observe tally

/-- What is to hold of a device with `n` accepted reports. -/
structure Fine (n : ℕ) (dev : BleDevice) : Prop extends Fits dev where
  distinct : dev.services.Nodup
  seen : dev.seenCount.toNat = n

/-- The scan table is sound. -/
structure Sound (s : BleScanner) (n : Tally) : Prop where
  distinct : (addrs s).Nodup
  count : s.deviceCount = (stored s).length
  slots : s.devices.length = maxDevices
  devices : ∀ dev ∈ stored s, Fine (n dev.addr) dev

/-- What is to hold of a call. -/
structure Scans (o : Op) (w : BleScanner × Tally) : Prop where
  sound : Sound (tallied.next o w).1 (tallied.next o w).2
  room : (tallied.next o w).1.deviceCount ≤ maxDevices
  /-- No device is displaced by a report with a weaker signal. -/
  weaker : ∀ r, o = .report r → ∀ dev ∈ stored w.1, dev.addr ∉ addrs (tallied.next o w).1 → dev.rssi ≤ r.rssi

/-- An accepted report of a device that is there finds room in its counter; one of a new device, if there is a
place for it, lists no service twice among the first ones, and takes no place from a stronger device. -/
def Fair : Op → BleScanner → Prop
  | .report r, s => s.accepts r.device →
    (∀ dev ∈ stored s, dev.addr = r.addr → dev.seenCount.toNat < 0xFFFFFFFF) ∧
    (r.addr ∉ addrs s → (stored s).length < maxDevices → r.listed.Nodup) ∧
    (r.addr ∉ addrs s → (stored s).length = maxDevices → (∃ dev ∈ stored s, dev.rssi < 127) →
      r.listed.Nodup ∧ ∃ dev ∈ stored s, dev.rssi ≤ r.rssi)
  | _, _ => True

/-! ### Devices -/

lemma mergeServices_nodup {services : List Uuid} (rest : List Uuid) (h : services.Nodup)
    (hlen : services.length ≤ maxServices) :
    (mergeServices services rest).Nodup ∧ (mergeServices services rest).length ≤ maxServices := by
  induction rest generalizing services with
  | nil => exact ⟨h, hlen⟩
  | cons service rest ih =>
    rw [mergeServices]
    split_ifs with hfull hmem
    · exact ⟨h, hlen⟩
    · exact ih h hlen
    · refine ih ?_ ?_
      · rw [List.contains_iff_mem] at hmem
        rw [← List.concat_eq_append]
        exact List.Nodup.concat hmem h
      · rw [List.length_append, List.length_singleton]
        omega

/-- A device that is there is fine after an update exactly if its counter has room. -/
lemma fine_update {n : ℕ} {newDev dev : BleDevice} (h : Fine n dev) (hnew : Fits newDev) :
    Fine (n + 1) (newDev.update dev) ↔ dev.seenCount.toNat < 0xFFFFFFFF := by
  have hadd := UInt32.toNat_add dev.seenCount 1
  have hlt := dev.seenCount.toNat_lt
  have hseen := h.seen
  have hone : (1 : UInt32).toNat = 1 := rfl
  have hmerge := mergeServices_nodup newDev.services h.distinct h.services
  constructor
  · intro hfine
    have hnext : (dev.seenCount + 1).toNat = n + 1 := hfine.seen
    rw [hadd, hone] at hnext
    omega
  · intro hroom
    refine ⟨⟨hmerge.2, ?_, ?_⟩, hmerge.1, ?_⟩
    · rw [BleDevice.update]
      dsimp only
      split_ifs
      · exact hnew.name
      · exact h.name
    · rw [BleDevice.update]
      dsimp only
      split_ifs
      · exact hnew.mfg
      · exact h.mfg
    · change (dev.seenCount + 1).toNat = n + 1
      rw [hadd, hone]
      omega

/-! ### The slots -/

section

variable {s : BleScanner} {n : Tally} {dev : BleDevice}

lemma findByAddr_none {addr : Addr} (h : s.findByAddr addr = none) : addr ∉ addrs s := by
  rintro hmem
  obtain ⟨dev, hdev, rfl⟩ := List.mem_map.mp hmem
  have hslot := List.reduceOption_mem_iff.mp hdev
  have hno := List.findIdx?_eq_none_iff.mp h (some dev) hslot
  simp at hno

/-- The device of an address splits the table. -/
lemma findByAddr_some {addr : Addr} {idx : ℕ} (h : s.findByAddr addr = some idx) :
    ∃ pre dev post, s.devices = pre ++ some dev :: post ∧ pre.length = idx ∧ dev.addr = addr := by
  obtain ⟨pre, slot, post, hsplit, hlen, -, hslot⟩ := Slots.findIdx?_eq_some_split h
  obtain ⟨dev, rfl, haddr⟩ := (Option.any_eq_true _ _).mp hslot
  exact ⟨pre, dev, post, hsplit, hlen, by simpa using haddr⟩

/-- The weakest device of some slots. -/
structure Weakest (i : ℕ) (slots : List (Option BleDevice)) (weakest result : Option ℕ × Int8) : Prop where
  least : ∀ dev ∈ slots.reduceOption, result.2 ≤ dev.rssi
  le : result.2 ≤ weakest.2
  found : result = weakest ∨ ∃ pre dev post, slots = pre ++ some dev :: post ∧ result = (some (i + pre.length), dev.rssi) ∧
    dev.rssi < weakest.2

lemma Weakest.shift {i : ℕ} {slots : List (Option BleDevice)} {w w' result : Option ℕ × Int8}
    {slot : Option BleDevice} (h : Weakest (i + 1) slots w result) (hw : w.2 ≤ w'.2)
    (hfirst : ∀ dev, slot = some dev → result.2 ≤ dev.rssi)
    (hsame : result = w → result = w' ∨ ∃ dev, slot = some dev ∧ result = (some i, dev.rssi) ∧ dev.rssi < w'.2) :
    Weakest i (slot :: slots) w' result where
  least dev hdev := by
    rw [List.reduceOption_mem_iff, List.mem_cons, ← List.reduceOption_mem_iff] at hdev
    exact hdev.elim (fun heq => hfirst dev heq.symm) (h.least dev)
  le := Int8.le_trans h.le hw
  found := by
    rcases h.found with heq | ⟨pre, dev, post, rfl, hresult, hlt⟩
    · refine (hsame heq).imp_right ?_
      rintro ⟨dev, rfl, hresult, hlt⟩
      exact ⟨[], dev, slots, rfl, hresult, hlt⟩
    · refine .inr ⟨slot :: pre, dev, post, rfl, ?_, ?_⟩
      · rw [hresult, List.length_cons, Nat.add_assoc, Nat.add_comm 1]
      · exact Int8.lt_of_lt_of_le hlt hw

lemma weakest_weakestFrom (i : ℕ) (weakest : Option ℕ × Int8) (slots : List (Option BleDevice)) :
    Weakest i slots weakest (weakestFrom i weakest slots) := by
  induction slots generalizing i weakest with
  | nil => exact ⟨by simp, Int8.le_refl _, .inl rfl⟩
  | cons slot slots ih =>
    cases slot with
    | none =>
      rw [weakestFrom]
      exact (ih (i + 1) weakest).shift (Int8.le_refl _) (by simp) .inl
    | some dev =>
      rw [weakestFrom]
      split_ifs with hlt
      · have hih := ih (i + 1) (some i, dev.rssi)
        refine hih.shift (Int8.le_of_lt hlt) (fun dev' heq => ?_) fun heq => .inr ⟨dev, rfl, heq, hlt⟩
        obtain rfl := Option.some.inj heq
        exact hih.le
      · have hih := ih (i + 1) weakest
        refine hih.shift (Int8.le_refl _) (fun dev' heq => ?_) .inl
        obtain rfl := Option.some.inj heq
        exact Int8.le_trans hih.le (Int8.not_lt.mp hlt)

/-- The weakest device splits the table; there is none only if all signals are the strongest ones. -/
lemma findWeakestRssiIndex_cases (s : BleScanner) :
    (s.findWeakestRssiIndex = none ∧ ∀ dev ∈ stored s, ¬ dev.rssi < 127) ∨
    ∃ pre dev post, s.devices = pre ++ some dev :: post ∧ s.findWeakestRssiIndex = some pre.length ∧
      dev.rssi < 127 ∧ ∀ dev' ∈ stored s, dev.rssi ≤ dev'.rssi := by
  obtain ⟨hleast, -, hfound⟩ := weakest_weakestFrom 0 (none, 127) s.devices
  rw [BleScanner.findWeakestRssiIndex]
  rcases hfound with hresult | ⟨pre, dev, post, hsplit, hresult, hlt⟩
  · rw [hresult] at hleast ⊢
    refine .inl ⟨rfl, fun dev hdev hlt => ?_⟩
    exact absurd hlt (Int8.not_lt.mpr (hleast dev hdev))
  · rw [hresult] at hleast ⊢
    exact .inr ⟨pre, dev, post, hsplit, by rw [Nat.zero_add], hlt, hleast⟩

lemma stored_split {pre post : List (Option BleDevice)} (hsplit : s.devices = pre ++ some dev :: post) :
    stored s = pre.reduceOption ++ dev :: post.reduceOption := by
  rw [stored, hsplit, List.reduceOption_append, List.reduceOption_cons_of_some]

/-! ### What a call keeps -/

/-- One device is changed: the table is sound exactly if it is fine. -/
lemma sound_middle_iff {as bs : List BleDevice} (hstored : stored s = as ++ dev :: bs)
    (hcount : s.deviceCount = (as ++ dev :: bs).length) (hslots : s.devices.length = maxDevices)
    (hdistinct : ((as ++ dev :: bs).map BleDevice.addr).Nodup) (hothers : ∀ x ∈ as ++ bs, Fine (n x.addr) x) :
    Sound s n ↔ Fine (n dev.addr) dev := by
  constructor
  · exact fun h => h.devices dev (by simp [hstored])
  · intro hfine
    refine ⟨by rwa [addrs, hstored], by rw [hstored, hcount], hslots, fun x hx => ?_⟩
    rw [hstored, List.mem_append, List.mem_cons] at hx
    rcases hx with hx | rfl | hx
    · exact hothers x (List.mem_append_left _ hx)
    · exact hfine
    · exact hothers x (List.mem_append_right _ hx)

lemma Sound.room (h : Sound s n) : s.deviceCount ≤ maxDevices := by
  rw [h.count, ← h.slots]
  exact List.reduceOption_length_le _

lemma addr_ne_of_middle {as bs : List BleDevice} (h : ((as ++ dev :: bs).map BleDevice.addr).Nodup) {x : BleDevice}
    (hx : x ∈ as ++ bs) : x.addr ≠ dev.addr := by
  rw [List.map_append, List.map_cons, List.nodup_middle, ← List.map_append] at h
  exact fun heq => (List.nodup_cons.mp h).1 (heq ▸ List.mem_map_of_mem hx)

/-- A report of a device that is there. -/
lemma sound_update_iff (h : Sound s n) {pre post : List (Option BleDevice)} {r : Report}
    (hsplit : s.devices = pre ++ some dev :: post) (haddr : dev.addr = r.addr) {s' : BleScanner}
    (hsplit' : s'.devices = pre ++ some (r.device.update dev) :: post) (hcount : s'.deviceCount = s.deviceCount) :
    Sound s' (Function.update n r.addr (n r.addr + 1)) ↔ dev.seenCount.toNat < 0xFFFFFFFF := by
  have hstored := stored_split hsplit
  have hdistinct := h.distinct
  rw [addrs, hstored] at hdistinct
  have hsame : (r.device.update dev).addr = dev.addr := rfl
  have hslots := h.slots
  have hbefore := h.count
  rw [hsplit] at hslots
  rw [hstored] at hbefore
  rw [sound_middle_iff (stored_split hsplit') ?_ ?_ ?_ ?_, hsame, haddr, Function.update_self]
  · exact fine_update (haddr ▸ h.devices dev (by simp [hstored])) (stored_device r).1
  · rw [hcount, hbefore]
    simp
  · rw [hsplit', ← hslots]
    simp
  · rw [List.map_append, List.map_cons, hsame, ← List.map_cons, ← List.map_append]
    exact hdistinct
  · intro x hx
    have hne := addr_ne_of_middle hdistinct hx
    rw [Function.update_of_ne (haddr ▸ hne)]
    refine h.devices x ?_
    rw [hstored]
    rcases List.mem_append.mp hx with hx | hx
    · exact List.mem_append_left _ hx
    · exact List.mem_append_right _ (List.mem_cons_of_mem _ hx)

/-- A report of a new device, which gets a slot whose device, if it has one, is dropped. -/
lemma sound_insert_iff (h : Sound s n) {pre post : List (Option BleDevice)} {slot : Option BleDevice} {r : Report}
    (hsplit : s.devices = pre ++ slot :: post) (hnew : r.addr ∉ addrs s) {s' : BleScanner}
    (hsplit' : s'.devices = pre ++ some { r.device with seenCount := 1 } :: post)
    (hcount : s'.deviceCount = (pre.reduceOption ++ post.reduceOption).length + 1) :
    Sound s' (Function.update n r.addr 1) ↔ r.listed.Nodup := by
  obtain ⟨hfits, hservices, haddr, -⟩ := stored_device r
  have hsub : (pre.reduceOption ++ post.reduceOption).Sublist (stored s) := by
    rw [stored, hsplit, List.reduceOption_append]
    exact ((List.sublist_cons_self slot post).filterMap id).append_left _
  have hdistinct : ((pre.reduceOption ++ post.reduceOption).map BleDevice.addr).Nodup :=
    h.distinct.sublist (hsub.map _)
  have hslots := h.slots
  rw [hsplit] at hslots
  have hother : ∀ x ∈ pre.reduceOption ++ post.reduceOption, x.addr ≠ r.addr := fun x hx heq =>
    hnew (heq ▸ List.mem_map_of_mem (hsub.subset hx))
  have hsame : ({ r.device with seenCount := 1 } : BleDevice).addr = r.addr := haddr
  rw [sound_middle_iff (stored_split hsplit') ?_ ?_ ?_ ?_, hsame, Function.update_self]
  · constructor
    · exact fun hfine => hservices ▸ hfine.distinct
    · exact fun hnodup => ⟨⟨hfits.services, hfits.name, hfits.mfg⟩, hservices ▸ hnodup, rfl⟩
  · rw [hcount]
    simp [Nat.add_assoc]
  · rw [hsplit', ← hslots]
    simp
  · rw [List.map_append, List.map_cons, hsame, List.nodup_middle, ← List.map_append]
    refine List.nodup_cons.mpr ⟨fun hmem => ?_, hdistinct⟩
    obtain ⟨x, hx, heq⟩ := List.mem_map.mp hmem
    exact hother x hx heq
  · intro x hx
    rw [Function.update_of_ne (hother x hx)]
    exact h.devices x (hsub.subset hx)

/-- No device is displaced where all addresses are still there. -/
lemma weaker_of_sublist {s' : BleScanner} (h : (stored s).Sublist (stored s')) {rssi : Int8} :
    ∀ dev ∈ stored s, dev.addr ∉ addrs s' → dev.rssi ≤ rssi :=
  fun _ hdev hout => absurd (List.mem_map_of_mem (h.subset hdev)) hout

lemma length_stored_lt (h : Sound s n) (hnone : none ∈ s.devices) : (stored s).length < maxDevices := by
  rw [← h.slots]
  exact List.reduceOption_length_lt_iff.mpr hnone

lemma length_stored_eq (h : Sound s n) (hfull : s.findEmptySlot = none) : (stored s).length = maxDevices := by
  rw [← h.slots]
  refine List.reduceOption_length_eq_iff.mpr fun slot hslot => ?_
  have hsome := List.findIdx?_eq_none_iff.mp hfull slot hslot
  simpa using hsome

/-- A new device keeps the table sound and displaces no stronger one exactly if its services are distinct and, in a
full table, another one is not stronger. -/
lemma insertNew_iff (h : Sound s n) {r : Report} (hnew : r.addr ∉ addrs s) :
    (Sound (s.insertNew r.device) (Function.update n r.addr 1) ∧
      ∀ dev ∈ stored s, dev.addr ∉ addrs (s.insertNew r.device) → dev.rssi ≤ r.rssi) ↔
    ((stored s).length < maxDevices → r.listed.Nodup) ∧
      ((stored s).length = maxDevices → (∃ dev ∈ stored s, dev.rssi < 127) →
        r.listed.Nodup ∧ ∃ dev ∈ stored s, dev.rssi ≤ r.rssi) := by
  rw [BleScanner.insertNew]
  cases hempty : s.findEmptySlot with
  | some idx =>
    obtain ⟨pre, slot, post, hsplit, rfl, -, hslot⟩ := Slots.findIdx?_eq_some_split hempty
    obtain rfl := Option.isNone_iff_eq_none.mp hslot
    have hlt := length_stored_lt h (by simp [hsplit])
    have hset : (s.insertAt pre.length r.device).devices = pre ++ some { r.device with seenCount := 1 } :: post := by
      simp [BleScanner.insertAt, hsplit]
    have hstored : stored s = pre.reduceOption ++ post.reduceOption := by
      rw [stored, hsplit, List.reduceOption_append, List.reduceOption_cons_of_none]
    have hsound := sound_insert_iff h hsplit hnew hset (by rw [← hstored, ← h.count]; rfl)
    dsimp only
    rw [hsound]
    constructor
    · exact fun hall => ⟨fun _ => hall.1, fun heq => absurd heq hlt.ne⟩
    · intro hall
      refine ⟨hall.1 hlt, weaker_of_sublist ?_⟩
      rw [hstored, stored_split hset]
      exact (List.sublist_cons_self _ _).append_left _
  | none =>
    have hfull := length_stored_eq h hempty
    dsimp only
    rcases findWeakestRssiIndex_cases s with ⟨hindex, hall⟩ | ⟨pre, dev, post, hsplit, hindex, hlt, hleast⟩
    · rw [hindex]
      dsimp only
      refine iff_of_true ⟨⟨h.distinct, h.count, h.slots, fun x hx => ?_⟩, weaker_of_sublist (.refl _)⟩
        ⟨fun hlt => absurd hfull hlt.ne, fun _ hsome => ?_⟩
      · have hne : x.addr ≠ r.addr := fun heq => hnew (heq ▸ List.mem_map_of_mem hx)
        rw [Function.update_of_ne hne]
        exact h.devices x hx
      · obtain ⟨x, hx, hxlt⟩ := hsome
        exact absurd hxlt (hall x hx)
    · rw [hindex]
      dsimp only
      have hset : ((s.evict pre.length).insertAt pre.length r.device).devices =
          pre ++ some { r.device with seenCount := 1 } :: post := by
        simp [BleScanner.insertAt, BleScanner.evict, hsplit]
      have hstored := stored_split hsplit
      have hcount := h.count
      rw [hstored] at hcount
      have hsound := sound_insert_iff h hsplit hnew hset (by
        change s.deviceCount - 1 + 1 = _
        rw [hcount]
        simp)
      have hdistinct := h.distinct
      rw [addrs, hstored] at hdistinct
      have hmem : dev ∈ stored s := by simp [hstored]
      have haddrs : addrs ((s.evict pre.length).insertAt pre.length r.device) =
          pre.reduceOption.map BleDevice.addr ++ r.addr :: post.reduceOption.map BleDevice.addr := by
        rw [addrs, stored_split hset, List.map_append, List.map_cons]
        congr 2
        exact (stored_device r).2.2.1
      rw [hsound, haddrs]
      constructor
      · rintro ⟨hnodup, hweaker⟩
        refine ⟨fun _ => hnodup, fun _ _ => ⟨hnodup, dev, hmem, hweaker dev hmem fun hin => ?_⟩⟩
        rw [List.mem_append, List.mem_cons, or_left_comm, ← List.mem_append, ← List.map_append] at hin
        rcases hin with heq | hin
        · exact hnew (heq ▸ List.mem_map_of_mem hmem)
        · obtain ⟨x, hx, heq⟩ := List.mem_map.mp hin
          exact addr_ne_of_middle hdistinct hx heq
      · rintro ⟨-, hall⟩
        obtain ⟨hnodup, x, hx, hle⟩ := hall hfull ⟨dev, hmem, hlt⟩
        refine ⟨hnodup, fun y hy hout => ?_⟩
        -- only the weakest device is displaced
        have hy' : y = dev := by
          rw [hstored, List.mem_append, List.mem_cons, or_left_comm] at hy
          refine hy.resolve_right fun hin => hout ?_
          rcases hin with hin | hin
          · exact List.mem_append_left _ (List.mem_map_of_mem hin)
          · exact List.mem_append_right _ (List.mem_cons_of_mem _ (List.mem_map_of_mem hin))
        rw [hy']
        exact Int8.le_trans (hleast x hx) hle

/-- A sort changes the order of the devices only. -/
lemma sound_sort (h : Sound s n) : Sound s.sortByRssi n := by
  have hlen : (StableSort.sortByKey BleScanner.rank (stored s)).length = (stored s).length :=
    (List.perm_insertionSort _ _).length_eq
  have hperm : (stored s.sortByRssi).Perm (stored s) := by
    rw [BleScanner.sortByRssi, stored, List.reduceOption_append, List.reduceOption_replicate_none, List.append_nil]
    have hmap : ((StableSort.sortByKey BleScanner.rank (stored s)).map some).reduceOption =
        StableSort.sortByKey BleScanner.rank (stored s) := by
      rw [List.reduceOption, List.filterMap_map]
      exact List.filterMap_some
    exact (List.Perm.of_eq hmap).trans (List.perm_insertionSort _ _)
  have hroom := h.room
  rw [h.count] at hroom
  refine ⟨?_, ?_, ?_, fun x hx => h.devices x (hperm.mem_iff.mp hx)⟩
  · exact (hperm.map BleDevice.addr).nodup_iff.mpr h.distinct
  · rw [hperm.length_eq, ← h.count]
    rfl
  · change ((StableSort.sortByKey BleScanner.rank (stored s)).map some ++ List.replicate (maxDevices -
      (StableSort.sortByKey BleScanner.rank (stored s)).length) none).length = maxDevices
    rw [List.length_append, List.length_map, List.length_replicate, hlen]
    omega

lemma sound_clear (s : BleScanner) (n : Tally) : Sound s.clearDevices n := by
  have hstored : stored s.clearDevices = [] := List.reduceOption_replicate_none
  refine ⟨?_, ?_, List.length_replicate, ?_⟩
  · rw [addrs, hstored]
    exact .nil
  · rw [hstored]
    rfl
  · rw [hstored]
    exact fun x hx => absurd hx List.not_mem_nil

lemma scans_report_iff (h : Sound s n) (r : Report) : Scans (.report r) (s, n) ↔ Fair (.report r) s := by
  have hnext : tallied.next (.report r) (s, n) = (s.processAdvReport r.device, tally (.report r) s n) := rfl
  have hscans : Scans (.report r) (s, n) ↔ Sound (s.processAdvReport r.device) (tally (.report r) s n) ∧
      ∀ dev ∈ stored s, dev.addr ∉ addrs (s.processAdvReport r.device) → dev.rssi ≤ r.rssi := by
    constructor
    · exact fun hs => ⟨hs.sound, hs.weaker r rfl⟩
    · rintro ⟨hsound, hweaker⟩
      refine ⟨hsound, hsound.room, fun r' heq => ?_⟩
      cases heq
      exact hweaker
  have haddr := (stored_device r).2.2.1
  have haccepts : BleScanner.accepts r.device { s with totalAdvSeen := s.totalAdvSeen + 1 } = s.accepts r.device := rfl
  have hfind : BleScanner.findByAddr r.device.addr { s with totalAdvSeen := s.totalAdvSeen + 1 } =
      s.findByAddr r.addr := by rw [haddr]; rfl
  have hcounted : Sound { s with totalAdvSeen := s.totalAdvSeen + 1 } n := ⟨h.distinct, h.count, h.slots, h.devices⟩
  rw [hscans, tally, Fair, BleScanner.processAdvReport, haccepts, hfind]
  by_cases hacc : s.accepts r.device = true
  · rw [if_pos hacc, if_pos hacc, imp_iff_right hacc]
    cases hidx : s.findByAddr r.addr with
    | some idx =>
      obtain ⟨pre, dev, post, hsplit, rfl, hdev⟩ := findByAddr_some hidx
      have hstored := stored_split hsplit
      have hmem : dev ∈ stored s := by simp [hstored]
      have hthere : r.addr ∈ addrs s := hdev ▸ List.mem_map_of_mem hmem
      have hmodify : s.devices.modify pre.length (Option.map r.device.update) =
          pre ++ some (r.device.update dev) :: post := by
        rw [hsplit, Slots.modify_length_append, Option.map_some]
      have hsound : Sound { s with
          devices := s.devices.modify pre.length (Option.map r.device.update)
          totalAdvSeen := s.totalAdvSeen + 1 } (Function.update n r.addr (n r.addr + 1)) ↔
            dev.seenCount.toNat < 0xFFFFFFFF := sound_update_iff h hsplit hdev hmodify rfl
      have haddrs : addrs { s with
          devices := s.devices.modify pre.length (Option.map r.device.update)
          totalAdvSeen := s.totalAdvSeen + 1 } = addrs s := by
        rw [addrs, stored_split hmodify, addrs, hstored, List.map_append, List.map_append, List.map_cons,
          List.map_cons]
        rfl
      dsimp only
      rw [if_pos hthere, hsound, haddrs]
      constructor
      · rintro ⟨hroom, -⟩
        refine ⟨fun x hx heq => ?_, fun hno => absurd hthere hno, fun hno => absurd hthere hno⟩
        have hsame : x = dev := List.inj_on_of_nodup_map h.distinct hx hmem (heq.trans hdev.symm)
        exact hsame ▸ hroom
      · exact fun hall => ⟨hall.1 dev hmem hdev, fun x hx hout => absurd (List.mem_map_of_mem hx) hout⟩
    | none =>
      have hnew := findByAddr_none hidx
      dsimp only
      rw [if_neg hnew]
      refine (insertNew_iff hcounted hnew).trans ?_
      constructor
      · rintro ⟨hroom, hfull⟩
        refine ⟨fun x hx heq => absurd (heq ▸ List.mem_map_of_mem hx) hnew, fun _ => hroom, fun _ => hfull⟩
      · exact fun hall => ⟨hall.2.1 hnew, hall.2.2 hnew⟩
  · rw [if_neg hacc, if_neg hacc]
    exact iff_of_true ⟨hcounted, weaker_of_sublist (.refl _)⟩ fun hacc' => absurd hacc' hacc

theorem scans_iff (h : Sound s n) (o : Op) : Scans o (s, n) ↔ Fair o s := by
  have hother : ∀ o', (∀ r, o' ≠ .report r) → Sound (tallied.next o' (s, n)).1 (tallied.next o' (s, n)).2 →
      Scans o' (s, n) :=
    fun o' hno hsound => ⟨hsound, hsound.room, fun r heq => absurd heq (hno r)⟩
  cases o with
  | report r => exact scans_report_iff h r
  | setRssiFilter minRssi =>
    exact iff_of_true (hother _ (by simp) ⟨h.distinct, h.count, h.slots, h.devices⟩) trivial
  | setNameFilter pre =>
    refine iff_of_true (hother _ (by simp) ?_) trivial
    have hnext : tallied.next (.setNameFilter pre) (s, n) = ((s.setNameFilter pre).2, n) := rfl
    rw [hnext]
    cases pre with
    | none => exact ⟨h.distinct, h.count, h.slots, h.devices⟩
    | some cstr =>
      rw [BleScanner.setNameFilter]
      cases cstr.toStr with
      | none => exact h
      | some _ => exact ⟨h.distinct, h.count, h.slots, h.devices⟩
  | sortByRssi => exact iff_of_true (hother _ (by simp) (sound_sort h)) trivial
  | clear => exact iff_of_true (hother _ (by simp) (sound_clear s n)) trivial
  | init =>
    obtain ⟨hdistinct, hcount, hslots, hdevices⟩ := sound_clear s n
    exact iff_of_true (hother _ (by simp) ⟨hdistinct, hcount, hslots, hdevices⟩) trivial

end

/-! ### Runs -/

lemma sound_new : Sound .new fun _ => 0 := sound_clear .new _

lemma scans_along (ops : List Op) : tallied.Along Scans (.new, fun _ => 0) ops ↔
    tallied.Along (fun o w => Fair o w.1) (.new, fun _ => 0) ops :=
  Component.along_iff (I := fun w : BleScanner × Tally => Sound w.1 w.2) (fun o w h => scans_iff h o)
    (fun o w h hfair => ((scans_iff h o).mpr hfair).sound) sound_new

/-- In a run of reports, filters, sorts and clears the table is sound, and no report displaces a device with a
stronger signal, exactly if every report is fair. -/
theorem scans_along_iff (ops : List Op) :
    tallied.Along Scans (.new, fun _ => 0) ops ↔ bleScanner.Along Fair .new ops :=
  (scans_along ops).trans (Component.along_map (f := Prod.fst) fun _ _ => rfl)

/-- A device lists a service twice. -/
theorem twice_not_scans : ¬ tallied.Along Scans (.new, fun _ => 0)
    [.report ⟨0, 0, .replicate 6 1, -50, [5, 0x03, 0x0D, 0x18, 0x0D, 0x18]⟩] := by
  intro h
  have hfair := (scans_along _).mp h [] _ [] rfl
  have haccepts : BleScanner.accepts (Report.device ⟨0, 0, .replicate 6 1, -50, [5, 0x03, 0x0D, 0x18, 0x0D, 0x18]⟩)
      .new = true := by
    rw [BleScanner.accepts, (stored_device _).2.2.2]
    rfl
  have hlisted := (hfair haccepts).2.1 List.not_mem_nil (by decide)
  rw [Report.listed, if_pos (by decide), uuids] at hlisted
  have hlisted : ¬ uuid16 [13, 24, 13, 24] = uuid16 [13, 24] := by
    simpa [fields, uuidsIn, uuidsOf, isUuid16, maxServices] using hlisted
  exact hlisted rfl

end ThistleOS.BleScan
