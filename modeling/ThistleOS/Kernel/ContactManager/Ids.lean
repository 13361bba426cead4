import ThistleOS.Kernel.ContactManager.RoundTrip
import ThistleOS.Slots

/-!
# The ids of the contacts

The ids stay different exactly as long as the contacts in the file that is read go together with
those that are there already, and the counter of the ids does not come to its end.
-/

namespace ThistleOS.Contacts

open MsgQueue ContactManager

variable {mgr : ContactManager} {s : AddressBook} {c : Contact}

/-- A call with an id is about one contact only. -/
structure ActsOnOne (mgr : ContactManager) : Prop where
  get : ∀ id c, mgr.get id = some c → ∀ c' ∈ mgr.contacts, c'.id = id → c' = c
  update : ∀ info, (mgr.update info).2.contacts =
    mgr.contacts.map fun c => if c.id = info.id then c.update info else c
  remove : ∀ id, mgr.contacts.length ≤ (mgr.remove id).2.contacts.length + 1

/-- The ids are different and have been passed by the counter, and there are not too many contacts. -/
structure Orderly (mgr : ContactManager) : Prop where
  distinct : (mgr.contacts.map Contact.id).Nodup
  room : mgr.contacts.length ≤ maxContacts
  below : ∀ c ∈ mgr.contacts, c.id.toNat < mgr.nextId.toNat

/-- The contacts in the file that is read, if any, have other ids than those that are there, and are
not too many together with them; a contact that is added does not get the last id. -/
def Careful : ContactOp → AddressBook → Prop
  | .init readable, s => s.mgr.initialized = false → readable = true → ∀ json, s.file = some json →
    ((s.mgr.contacts ++ parsed json).map Contact.id).Nodup ∧
      (s.mgr.contacts ++ parsed json).length ≤ maxContacts
  | .add name _ _ _, s =>
    name ≠ [] → s.mgr.contacts.length < maxContacts → s.mgr.nextId ≠ idMax
  | .importVcard data, s =>
    (Contact.fromVcard data).isSome = true → s.mgr.contacts.length < maxContacts →
      s.mgr.nextId ≠ idMax
  | _, _ => True

/-! ### Acting on one contact -/

lemma Orderly.eq_of_id (h : Orderly mgr) {c c' : Contact} (hc : c ∈ mgr.contacts)
    (hc' : c' ∈ mgr.contacts) (hid : c.id = c'.id) : c = c' :=
  List.inj_on_of_nodup_map h.distinct hc hc' hid

/-- To change the first contact with an id is to change every contact with it. -/
lemma modifyFirst_contacts (h : (mgr.contacts.map Contact.id).Nodup) (id : UInt32)
    (f : Contact → Contact) :
    (mgr.modifyFirst id f).2.contacts = mgr.contacts.map fun c => if c.id = id then f c else c := by
  have hother (cs : List Contact) (hcs : ∀ c ∈ cs, c.id ≠ id) :
      cs.map (fun c => if c.id = id then f c else c) = cs := by
    conv_rhs => rw [← List.map_id cs]
    exact List.map_congr_left fun c hc => if_neg (hcs c hc)
  rw [modifyFirst]
  cases hfind : mgr.contacts.findIdx? (·.id == id) with
  | none =>
    have hne := List.findIdx?_eq_none_iff.mp hfind
    exact (hother mgr.contacts fun c hc => by simpa using hne c hc).symm
  | some i =>
    obtain ⟨pre, c, post, hsplit, rfl, hpre, hc⟩ := Slots.findIdx?_eq_some_split hfind
    have hid : c.id = id := by simpa using hc
    have hpost : ∀ c' ∈ post, c'.id ≠ id := by
      rintro c' hc' heq
      rw [hsplit, List.map_append, List.map_cons] at h
      have hnodup := (List.nodup_cons.mp (List.nodup_append.mp h).2.1).1
      exact hnodup (List.mem_map.mpr ⟨c', hc', heq.trans hid.symm⟩)
    change mgr.contacts.modify pre.length f = _
    rw [hsplit, Slots.modify_length_append, List.map_append, List.map_cons,
      hother pre (fun c' hc' => by simpa using hpre c' hc'), hother post hpost, if_pos hid]

lemma Orderly.sublist (h : Orderly mgr) {mgr' : ContactManager}
    (hsub : (mgr'.contacts.map Contact.id).Sublist (mgr.contacts.map Contact.id))
    (hnext : mgr'.nextId = mgr.nextId) : Orderly mgr' where
  distinct := h.distinct.sublist hsub
  room := by
    have hlength := hsub.length_le
    rw [List.length_map, List.length_map] at hlength
    exact hlength.trans h.room
  below c hc := by
    obtain ⟨c', hc', hid⟩ := List.mem_map.mp (hsub.subset (List.mem_map_of_mem hc))
    rw [← hid, hnext]
    exact h.below c' hc'

/-- At most one contact is removed. -/
lemma length_filter_ne {cs : List Contact} (h : (cs.map Contact.id).Nodup) (id : UInt32) :
    cs.length ≤ (cs.filter (·.id != id)).length + 1 := by
  induction cs with
  | nil => exact Nat.zero_le _
  | cons c cs ih =>
    rw [List.map_cons, List.nodup_cons] at h
    by_cases hid : c.id = id
    · have hall : cs.filter (·.id != id) = cs := by
        refine List.filter_eq_self.mpr fun c' hc' => ?_
        have hne : c'.id ≠ id := fun heq => h.1 (List.mem_map.mpr ⟨c', hc', heq.trans hid.symm⟩)
        simpa using hne
      rw [List.filter_cons_of_neg (by simp [hid]), hall, List.length_cons]
    · rw [List.filter_cons_of_pos (by simpa using hid), List.length_cons, List.length_cons]
      exact Nat.succ_le_succ (ih h.2)

lemma remove_contacts (id : UInt32) (mgr : ContactManager) :
    (mgr.remove id).2.contacts = mgr.contacts.filter (·.id != id) ∧
      (mgr.remove id).2.nextId = mgr.nextId := by
  rw [remove]
  split_ifs
  · exact ⟨rfl, rfl⟩
  · exact ⟨rfl, rfl⟩

theorem Orderly.actsOnOne (h : Orderly mgr) : ActsOnOne mgr where
  get id c hget c' hc' hid := by
    have hc : c.id = id := by simpa using List.find?_some hget
    exact h.eq_of_id hc' (List.mem_of_find?_eq_some hget) (hid.trans hc.symm)
  update info := modifyFirst_contacts h.distinct info.id _
  remove id := by
    rw [(remove_contacts id mgr).1]
    exact length_filter_ne h.distinct id

/-! ### The file -/

/-- The contacts in a file have different ids, none of which is the last one. -/
structure Sound (json : Text) : Prop where
  distinct : ((parsed json).map Contact.id).Nodup
  small : ∀ c ∈ parsed json, c.id ≠ idMax

/-- What is read of a file has ids of the contacts that were written. -/
lemma ids_parsed_toFile (mgr : ContactManager) :
    ((parsed mgr.toFile).map Contact.id).Sublist (mgr.contacts.map Contact.id) := by
  rw [ContactManager.parsed_toFile]
  induction mgr.contacts with
  | nil => exact List.Sublist.slnil
  | cons c cs ih =>
    rw [List.filterMap_cons]
    cases hread : Contact.fromJson c.toJson with
    | none => exact ih.cons c.id
    | some c' =>
      simp only [List.map_cons, Contact.id_of_fromJson hread]
      exact ih.cons_cons c.id

lemma Orderly.sound_toFile (h : Orderly mgr) : Sound mgr.toFile := by
  have hsub := ids_parsed_toFile mgr
  refine ⟨h.distinct.sublist hsub, fun c hc hid => ?_⟩
  obtain ⟨c', hc', heq⟩ := List.mem_map.mp (hsub.subset (List.mem_map_of_mem hc))
  have hlt := h.below c' hc'
  have hnext := mgr.nextId.toNat_lt
  have hmax : idMax.toNat = 2 ^ 32 - 1 := rfl
  rw [heq, hid] at hlt
  omega

/-! ### Calls -/

/-- What holds between two calls. -/
structure Kept (s : AddressBook) : Prop where
  orderly : Orderly s.mgr
  file : ∀ json, s.file = some json → Sound json

/-- A contact is added in order exactly if the counter of the ids has not come to its end. -/
lemma orderly_push (h : Orderly mgr) (hroom : mgr.contacts.length < maxContacts) (c : Contact) :
    Orderly (mgr.push c).2 ↔ mgr.nextId ≠ idMax := by
  constructor
  · intro hpush hmax
    have hlt := hpush.below { c with id := mgr.nextId } (List.mem_append_right _ List.mem_cons_self)
    simp only [push, hmax] at hlt
    exact absurd hlt (by decide)
  · intro hmax
    have hsucc := toNat_succ hmax
    refine ⟨?_, ?_, fun c' hc' => ?_⟩
    · rw [push, List.map_append, List.map_singleton, List.nodup_append_comm, List.singleton_append,
        List.nodup_cons]
      refine ⟨fun hmem => ?_, h.distinct⟩
      obtain ⟨c', hc', heq⟩ := List.mem_map.mp hmem
      have hlt := h.below c' hc'
      rw [heq] at hlt
      exact absurd hlt (lt_irrefl _)
    · rw [push, List.length_append, List.length_singleton]
      exact hroom
    · change c'.id.toNat < (mgr.nextId + 1).toNat
      rw [hsucc]
      rcases List.mem_append.mp hc' with hc' | hc'
      · exact (h.below c' hc').trans (Nat.lt_succ_self _)
      · rw [List.mem_singleton.mp hc']
        exact Nat.lt_succ_self _

/-- The file is read in order exactly if its contacts go together with those that are there. -/
lemma orderly_init (h : Orderly mgr) {file : Option Text}
    (hfile : ∀ json, file = some json → Sound json) :
    Orderly (mgr.init file) ↔ (mgr.initialized = false → ∀ json, file = some json →
      ((mgr.contacts ++ parsed json).map Contact.id).Nodup ∧
        (mgr.contacts ++ parsed json).length ≤ maxContacts) := by
  rw [init]
  split_ifs with hinit
  · exact iff_of_true h fun hnot => absurd (hinit.symm.trans hnot) Bool.noConfusion
  · cases file with
    | none => exact iff_of_true ⟨h.distinct, h.room, h.below⟩ fun _ json hjson => by cases hjson
    | some json =>
      have hcontacts := contacts_load (parsed json) mgr
      constructor
      · intro hload _ json' hjson
        obtain rfl := Option.some.inj hjson
        rw [← hcontacts]
        exact ⟨hload.distinct, hload.room⟩
      · intro hcareful
        obtain ⟨hdistinct, hroom⟩ := hcareful (by simpa using hinit) json rfl
        obtain ⟨hle, hlt⟩ := nextId_load (hfile json rfl).small mgr
        rw [← hcontacts] at hdistinct hroom
        refine ⟨hdistinct, hroom, fun c hc => ?_⟩
        change c ∈ ((parsed json).foldl loadContact mgr).contacts at hc
        rw [hcontacts] at hc
        rcases List.mem_append.mp hc with hc | hc
        · exact (h.below c hc).trans_le hle
        · exact hlt c hc

lemma orderly_modifyFirst (h : Orderly mgr) (id : UInt32) {f : Contact → Contact}
    (hf : ∀ c, (f c).id = c.id) : Orderly (mgr.modifyFirst id f).2 := by
  have hcontacts := modifyFirst_contacts h.distinct id f
  have hids : (mgr.modifyFirst id f).2.contacts.map Contact.id = mgr.contacts.map Contact.id := by
    rw [hcontacts, List.map_map]
    refine List.map_congr_left fun c _ => ?_
    simp only [Function.comp_apply]
    split_ifs
    · exact hf c
    · rfl
  refine h.sublist ?_ ?_
  · rw [hids]
  · rw [modifyFirst]
    cases mgr.contacts.findIdx? (·.id == id) with
    | none => rfl
    | some i => rfl

/-- A call that leaves the file alone keeps what holds exactly if it keeps the ids in order. -/
lemma kept_on (h : Kept s) (result : Int32 × ContactManager) :
    Kept (s.on result).2 ↔ Orderly result.2 :=
  ⟨fun hkept => hkept.orderly, fun horderly => ⟨horderly, h.file⟩⟩

lemma kept_save (h : Kept s) (written : Bool) : Kept (s.save written).2 := by
  have hmgr : (s.mgr.saveToDisk written).2.2.contacts = s.mgr.contacts ∧
      (s.mgr.saveToDisk written).2.2.nextId = s.mgr.nextId := by
    rw [saveToDisk]
    split_ifs
    · exact ⟨rfl, rfl⟩
    · exact ⟨rfl, rfl⟩
    · exact ⟨rfl, rfl⟩
  have hfile : (s.mgr.saveToDisk written).2.1 = none ∨
      (s.mgr.saveToDisk written).2.1 = some s.mgr.toFile := by
    rw [saveToDisk]
    split_ifs
    · exact .inl rfl
    · exact .inr rfl
    · exact .inl rfl
  refine ⟨h.orderly.sublist ?_ hmgr.2, fun json hjson => ?_⟩
  · change ((s.mgr.saveToDisk written).2.2.contacts.map Contact.id).Sublist _
    rw [hmgr.1]
  · change ((s.mgr.saveToDisk written).2.1 <|> s.file) = some json at hjson
    rcases hfile with hnone | hsome
    · rw [hnone] at hjson
      exact h.file json hjson
    · rw [hsome] at hjson
      obtain rfl := Option.some.inj hjson
      exact h.orderly.sound_toFile

lemma orderly_new : Orderly .new where
  distinct := List.nodup_nil
  room := by decide
  below _ h := absurd h List.not_mem_nil

/-- What is in the file is never out of order. -/
lemma Kept.next_iff (h : Kept s) (o : ContactOp) :
    Kept (addressBook.next o s) ↔ Orderly (addressBook.next o s).mgr := by
  cases o with
  | restart => exact iff_of_true ⟨orderly_new, h.file⟩ orderly_new
  | save written => exact iff_of_true (kept_save h written) (kept_save h written).orderly
  | init readable => exact kept_on h (espOk, _)
  | add name callsign deviceId phone => exact kept_on h _
  | importVcard data => exact kept_on h _
  | update info => exact kept_on h _
  | setPubkey id key => exact kept_on h _
  | remove id => exact kept_on h _

/-- A call keeps the ids in order exactly if it is careful. -/
theorem Kept.step (h : Kept s) (o : ContactOp) :
    Orderly (addressBook.next o s).mgr ↔ Careful o s := by
  cases o with
  | restart => exact iff_of_true orderly_new trivial
  | init readable =>
    have hfile : ∀ json, (if readable then s.file else none) = some json → Sound json := by
      intro json hjson
      cases readable with
      | false => cases hjson
      | true => exact h.file json hjson
    refine (orderly_init h.orderly hfile).trans (imp_congr_right fun _ => ?_)
    cases readable with
    | false => exact iff_of_true (fun _ hjson => by cases hjson) fun hreadable => by cases hreadable
    | true => exact ⟨fun hall _ => hall, fun hall => hall rfl⟩
  | save written => exact iff_of_true (kept_save h written).orderly trivial
  | add name callsign deviceId phone =>
    change Orderly (s.mgr.add name callsign deviceId phone).2 ↔ _
    rw [ContactManager.add]
    split_ifs with hname hroom
    · exact iff_of_true h.orderly fun hne => absurd hname hne
    · exact iff_of_true h.orderly fun _ hlt => absurd hlt (not_lt.mpr hroom)
    · rw [orderly_push h.orderly (not_le.mp hroom)]
      exact ⟨fun hmax _ _ => hmax, fun hmax => hmax hname (not_le.mp hroom)⟩
  | importVcard data =>
    change Orderly (s.mgr.importVcard data).2 ↔
      ((Contact.fromVcard data).isSome = true → s.mgr.contacts.length < maxContacts →
        s.mgr.nextId ≠ idMax)
    rw [ContactManager.importVcard]
    split_ifs with hroom
    · exact iff_of_true h.orderly fun _ hlt => absurd hlt (not_lt.mpr hroom)
    · cases Contact.fromVcard data with
      | none => exact iff_of_true h.orderly fun hsome => by cases hsome
      | some c =>
        refine (orderly_push h.orderly (not_le.mp hroom) c).trans ?_
        exact ⟨fun hmax _ _ => hmax, fun hmax => hmax rfl (not_le.mp hroom)⟩
  | update info => exact iff_of_true (orderly_modifyFirst h.orderly info.id fun _ => rfl) trivial
  | setPubkey id key => exact iff_of_true (orderly_modifyFirst h.orderly id fun _ => rfl) trivial
  | remove id =>
    obtain ⟨hcontacts, hnext⟩ := remove_contacts id s.mgr
    refine iff_of_true (h.orderly.sublist ?_ hnext) trivial
    change ((s.mgr.remove id).2.contacts.map Contact.id).Sublist _
    rw [hcontacts]
    exact List.filter_sublist.map _

/-! ### Runs -/

/-- The first run, with no file. -/
def firstRun : AddressBook := ⟨.new, none⟩

lemma kept_firstRun : Kept firstRun where
  orderly := orderly_new
  file _ h := by cases h

/-- The ids are in order in every state of a run, and each call with an id is about one contact, exactly
if every call of the run is careful. -/
theorem ids_orderly_iff (ops : List ContactOp) :
    addressBook.Along (fun o s => Orderly (addressBook.next o s).mgr ∧
        ActsOnOne (addressBook.next o s).mgr) firstRun ops ↔
      addressBook.Along Careful firstRun ops := by
  have hkept : addressBook.Along (fun o s => Kept (addressBook.next o s)) firstRun ops ↔
      addressBook.Along (fun o s => Orderly (addressBook.next o s).mgr) firstRun ops :=
    Component.along_next_iff (fun o s hs => hs.next_iff o) kept_firstRun
  have hcareful : addressBook.Along (fun o s => Kept (addressBook.next o s)) firstRun ops ↔
      addressBook.Along Careful firstRun ops :=
    Component.along_next_iff (fun o s hs => (hs.next_iff o).trans (hs.step o)) kept_firstRun
  rw [← hcareful, hkept]
  constructor
  · exact fun h => h.mono fun o s hs => hs.1
  · exact fun h => h.mono fun o s hs => ⟨hs, hs.actsOnOne⟩

/-- A contact that is added before the file is read has the id of one in the file. -/
theorem ids_not_orderly : ¬ ∀ ops : List ContactOp, Orderly (addressBook.run firstRun ops).mgr := by
  intro hall
  have hids : ((addressBook.run firstRun [.init true, .add ['A'] [] 0 [], .save true, .restart,
      .add ['B'] [] 0 [], .init true]).mgr.contacts.map Contact.id) = [1, 1] := by
    decide +kernel
  have hdistinct := (hall [.init true, .add ['A'] [] 0 [], .save true, .restart,
    .add ['B'] [] 0 [], .init true]).distinct
  rw [hids] at hdistinct
  exact absurd hdistinct (by decide)

end ThistleOS.Contacts
