import ThistleOS.Kernel.ElfLoader

/-!
# The grants of the loaded apps

An app keeps the permissions that its own load computed, as long as no app is loaded under the
identity of another one.
-/

namespace ThistleOS.Permissions

/-! ### The calls that take C strings -/

variable {appId other : CStr} {perms : UInt32} {t : PermTable}

lemma storable_toStr {id : String} (hshort : appId.bytes.length < appIdLen)
    (h : appId.toStr = some id) : Storable id where
  short := by rwa [CStr.utf8_of_toStr h]
  start hnul := CStr.nul_notMem h (List.mem_of_mem_head? hnul)
  finish hnul := CStr.nul_notMem h (List.mem_of_mem_getLast? hnul)

lemma get_ne_of_ne {id id' : String} (hne : appId ≠ other) (h : appId.toStr = some id)
    (h' : other.toStr = some id') : id' ≠ id := by
  rintro rfl
  exact hne (CStr.toStr_inj h h')

/-- What a revocation does to the permissions of every C string. -/
lemma Kept.permissionsRevoke (h : Kept t) (appId : CStr) (perms : UInt32) :
    Kept (permissionsRevoke appId perms t).2 ∧
      permissionsGet appId (permissionsRevoke appId perms t).2 =
        permissionsGet appId t &&& ~~~perms ∧
      ∀ other, other ≠ appId →
        permissionsGet other (Permissions.permissionsRevoke appId perms t).2 =
          permissionsGet other t := by
  simp only [Permissions.permissionsRevoke, permissionsGet]
  cases hid : appId.toStr with
  | none => exact ⟨h, by simp, fun _ _ => rfl⟩
  | some id =>
    obtain ⟨hkept, hsame, hother⟩ := h.revoke id perms
    refine ⟨hkept, hsame, fun other hne => ?_⟩
    cases hid' : other.toStr with
    | none => rfl
    | some id' => exact hother id' (get_ne_of_ne hne.symm hid hid')

/-- What a grant does to the permissions of every C string, if its own one is short. -/
lemma Kept.permissionsGrant (h : Kept t) (perms : UInt32) (hshort : appId.bytes.length < appIdLen) :
    Kept (permissionsGrant appId perms t).2 ∧
      ((permissionsGrant appId perms t).1 = espOk →
        permissionsGet appId (permissionsGrant appId perms t).2 =
          permissionsGet appId t ||| perms) ∧
      ((permissionsGrant appId perms t).1 ≠ espOk → (permissionsGrant appId perms t).2 = t) ∧
      ∀ other, other ≠ appId →
        permissionsGet other (permissionsGrant appId perms t).2 = permissionsGet other t := by
  simp only [Permissions.permissionsGrant, permissionsGet]
  cases hid : appId.toStr with
  | none => exact ⟨h, fun hok => absurd hok (show espErrInvalidArg ≠ espOk by decide), fun _ => rfl,
      fun _ _ => rfl⟩
  | some id =>
    have hfits : Fits (.grant id perms) t := fun _ _ _ => storable_toStr hshort hid
    obtain ⟨hkept, hsame, hother, -⟩ := h.grant hfits
    refine ⟨hkept, hsame, fun hfail => ?_, fun other hne => ?_⟩
    · rcases grant_cases id perms t with ⟨-, heq⟩ | ⟨-, t', -, heq⟩ | ⟨-, -, t', -, heq⟩ |
        ⟨-, -, -, heq⟩
      · simp only [heq]
      · exact absurd (by simp only [heq]) hfail
      · exact absurd (by simp only [heq]) hfail
      · simp only [heq]
    · cases hid' : other.toStr with
      | none => rfl
      | some id' => exact hother id' (get_ne_of_ne hne.symm hid hid')

end ThistleOS.Permissions

namespace ThistleOS.ElfLoader

open Permissions

variable {debug : Bool} {s : ElfLoaderState} {i j : Slot}

/-! ### Loads that were made -/

/-- Whether the load that filled a slot found a signature, and what its manifest asked for. -/
structure LoadRecord where
  signed : Bool
  requested : UInt32
  deriving DecidableEq

/-- The loads that filled the slots, as an observer of the calls and the replies sees them. -/
def record (debug : Bool) :
    (o : LoaderOp) → o.Reply → (Slot → Option LoadRecord) → Slot → Option LoadRecord
  | .load x, (_, some i), loads =>
    match x.check debug with
    | .ok signed => Function.update loads i (some ⟨signed, x.requestedPermissions⟩)
    | .error _ => loads
  | .unload (some i), _, loads => Function.update loads i none
  | _, _, loads => loads

/-- The loader with the loads that filled its slots. -/
def watched (debug : Bool) :
    Component LoaderOp LoaderOp.Reply (ElfLoaderState × (Slot → Option LoadRecord)) :=
  (loader debug).watch (record debug)

/-- Every loaded app has been granted what its own load computed, which is at most IPC if it is
unsigned. -/
def HoldsOwn (w : ElfLoaderState × (Slot → Option LoadRecord)) : Prop :=
  ∀ i, (w.1.apps i).loaded = true → ∃ l : LoadRecord, w.2 i = some l ∧
    (w.1.apps i).grantedPermissions = effectiveAppPermissions l.signed l.requested ∧
    permissionsGet (w.1.apps i).appId w.1.perms = effectiveAppPermissions l.signed l.requested ∧
    (l.signed = false → permissionsGet (w.1.apps i).appId w.1.perms &&& ~~~permIpc = 0)

/-- The slot that a call empties. -/
def LoaderOp.empties : LoaderOp → Option Slot
  | .load _ => none
  | .unload handle => handle

/-- A call changes neither another loaded app nor its permissions. -/
def LeavesOthers (debug : Bool) (o : LoaderOp) (s : ElfLoaderState) : Prop :=
  ∀ i, (s.apps i).loaded = true → o.empties ≠ some i →
    ((loader debug).next o s).apps i = s.apps i ∧
      permissionsGet (s.apps i).appId ((loader debug).next o s).perms =
        permissionsGet (s.apps i).appId s.perms

/-- A load that gets as far as its grant has an identity that is short enough for the slots, and that
no loaded app has. -/
def Unshared (debug : Bool) : LoaderOp → ElfLoaderState → Prop
  | .load x, s => ∀ a, loadChecks debug x s = .ok a → a.permId.bytes.length ≤ appIdMax ∧
    ∀ i, (s.apps i).loaded = true → (s.apps i).appId ≠ a.permId
  | .unload _, _ => True

/-! ### The invariant -/

/-- The loaded apps have different identities, each with its own grant, and no other identity has
any. -/
structure Separate (w : ElfLoaderState × (Slot → Option LoadRecord)) : Prop where
  kept : Kept w.1.perms
  own : ∀ i, (w.1.apps i).loaded = true → ∃ l : LoadRecord, w.2 i = some l ∧
    (w.1.apps i).grantedPermissions = effectiveAppPermissions l.signed l.requested ∧
    permissionsGet (w.1.apps i).appId w.1.perms = (w.1.apps i).grantedPermissions
  distinct : ∀ i j, (w.1.apps i).loaded = true → (w.1.apps j).loaded = true →
    (w.1.apps i).appId = (w.1.apps j).appId → i = j
  free : ∀ i, (w.1.apps i).loaded = false → w.1.apps i = .empty
  absent : ∀ id, (∀ i, (w.1.apps i).loaded = true → (w.1.apps i).appId ≠ id) →
    permissionsGet id w.1.perms = 0

namespace Separate

variable {loads : Slot → Option LoadRecord} {perms : PermTable} {id : CStr}

lemma holdsOwn {w : ElfLoaderState × (Slot → Option LoadRecord)} (h : Separate w) : HoldsOwn w := by
  intro i hi
  obtain ⟨l, hl, hgranted, hget⟩ := h.own i hi
  refine ⟨l, hl, hgranted, hget.trans hgranted, fun hsigned => ?_⟩
  rw [hget, hgranted, hsigned]
  exact (show permIpc &&& ~~~permIpc = 0 by decide)

/-- Permissions of an identity that no app has may change, if it ends up without any. -/
lemma setPerms (h : Separate (s, loads)) (hkept : Kept perms)
    (hnew : ∀ i, (s.apps i).loaded = true → (s.apps i).appId ≠ id)
    (hzero : permissionsGet id perms = 0)
    (hother : ∀ other, other ≠ id → permissionsGet other perms = permissionsGet other s.perms) :
    Separate (s.setPerms perms, loads) := by
  refine ⟨hkept, fun i hi => ?_, h.distinct, h.free, fun id' hid' => ?_⟩
  · obtain ⟨l, hl, hgranted, hget⟩ := h.own i hi
    exact ⟨l, hl, hgranted, (hother _ (hnew i hi)).trans hget⟩
  · by_cases hid : id' = id
    · rw [hid]
      exact hzero
    · exact (hother id' hid).trans (h.absent id' hid')

/-- A new app has its own grant. -/
lemma setApp (h : Separate (s, loads)) (hkept : Kept perms) (hfree : (s.apps i).loaded = false)
    (hnew : ∀ i, (s.apps i).loaded = true → (s.apps i).appId ≠ id) {l : LoadRecord}
    (hown : permissionsGet id perms = effectiveAppPermissions l.signed l.requested)
    (hother : ∀ other, other ≠ id → permissionsGet other perms = permissionsGet other s.perms) :
    Separate ((s.setPerms perms).setApp i
      ⟨true, false, id, effectiveAppPermissions l.signed l.requested⟩,
      Function.update loads i (some l)) := by
  have hslots : ∀ j, j ≠ i → ((s.setPerms perms).setApp i
      ⟨true, false, id, effectiveAppPermissions l.signed l.requested⟩).apps j = s.apps j :=
    fun j hj => ElfLoaderState.apps_setApp_of_ne hj _
  refine ⟨hkept, fun j hj => ?_, fun j k hj hk hid => ?_, fun j hj => ?_, fun id' hid' => ?_⟩
  · by_cases hji : j = i
    · subst hji
      simp only [ElfLoaderState.apps_setApp_self, ElfLoaderState.perms_setApp,
        ElfLoaderState.perms_setPerms]
      exact ⟨l, Function.update_self _ _ _, rfl, hown⟩
    · simp only [hslots j hji, ElfLoaderState.perms_setApp, ElfLoaderState.perms_setPerms] at hj ⊢
      obtain ⟨l', hl', hgranted, hget⟩ := h.own j hj
      refine ⟨l', ?_, hgranted, (hother _ (hnew j hj)).trans hget⟩
      rw [Function.update_of_ne hji]
      exact hl'
  · by_cases hji : j = i
    · by_cases hki : k = i
      · exact hji.trans hki.symm
      · subst hji
        simp only [ElfLoaderState.apps_setApp_self, hslots k hki] at hk hid
        exact absurd hid.symm (hnew k hk)
    · by_cases hki : k = i
      · subst hki
        simp only [ElfLoaderState.apps_setApp_self, hslots j hji] at hj hid
        exact absurd hid (hnew j hj)
      · simp only [hslots j hji, hslots k hki] at hj hk hid
        exact h.distinct j k hj hk hid
  · by_cases hji : j = i
    · subst hji
      rw [ElfLoaderState.apps_setApp_self] at hj
      cases hj
    · simp only [hslots j hji] at hj ⊢
      exact h.free j hj
  · have hne : id' ≠ id := by
      rintro rfl
      exact hid' i (by simp) (by simp)
    refine (hother id' hne).trans (h.absent id' fun j hj => ?_)
    have hji : j ≠ i := by
      rintro rfl
      rw [hfree] at hj
      cases hj
    have hid'j := hid' j
    rw [hslots j hji] at hid'j
    exact hid'j hj

/-! ### Loading -/

lemma and_not_self (x : UInt32) : x &&& ~~~x = 0 := by
  rw [← UInt32.toBitVec_inj]
  simp

lemma install (h : Separate (s, loads)) {x : ElfFile} {a : Admitted} {l : LoadRecord}
    (hfree : (s.apps a.slot).loaded = false) (hshort : a.permId.bytes.length ≤ appIdMax)
    (hnew : ∀ i, (s.apps i).loaded = true → (s.apps i).appId ≠ a.permId)
    (hl : a.granted = effectiveAppPermissions l.signed l.requested) :
    Separate ((ElfLoader.install x a s).2, match (ElfLoader.install x a s).1.2 with
      | some i => Function.update loads i (some l)
      | none => loads) ∧
    ∀ i, (s.apps i).loaded = true → (ElfLoader.install x a s).2.apps i = s.apps i := by
  have hlt : a.permId.bytes.length < appIdLen := Nat.lt_succ_of_le hshort
  -- the grants of the identity are cleared
  obtain ⟨hkept, hclear, hother⟩ := h.kept.permissionsRevoke a.permId permAll
  have hzero := h.absent a.permId hnew
  simp only [hzero, UInt32.zero_and] at hclear
  -- the new permissions are granted
  set cleared := (permissionsRevoke a.permId permAll s.perms).2 with hcleared
  have hgrant : ∃ rc perms, (if a.granted = 0 then (espOk, cleared)
        else permissionsGrant a.permId a.granted cleared) = (rc, perms) ∧ Kept perms ∧
      (rc = espOk → permissionsGet a.permId perms = a.granted) ∧
      (rc ≠ espOk → permissionsGet a.permId perms = 0) ∧
      ∀ other, other ≠ a.permId → permissionsGet other perms = permissionsGet other s.perms := by
    split_ifs with hnone
    · exact ⟨espOk, cleared, rfl, hkept, fun _ => hclear.trans hnone.symm, fun hne => absurd rfl hne,
        hother⟩
    · obtain ⟨hkept', hok, hfail, hother'⟩ := hkept.permissionsGrant a.granted hlt
      refine ⟨(permissionsGrant a.permId a.granted cleared).1,
        (permissionsGrant a.permId a.granted cleared).2, rfl, hkept', fun hrc => ?_, fun hrc => ?_,
        fun other hne => ?_⟩
      · rw [hok hrc, hclear, UInt32.zero_or]
      · rw [hfail hrc, hclear]
      · rw [hother' other hne, hother other hne]
  obtain ⟨rc, perms, heq, hkept', hok, hfail, hother'⟩ := hgrant
  simp only [ElfLoader.install, ← hcleared, heq]
  by_cases hrc : rc = espOk
  · -- what an app loses again if it is refused
    obtain ⟨hkeptR, hrevoked, hotherR⟩ := hkept'.permissionsRevoke a.permId a.granted
    rw [hok hrc, and_not_self] at hrevoked
    have hrefused : Separate (s.setPerms (permissionsRevoke a.permId a.granted perms).2, loads) :=
      h.setPerms hkeptR hnew hrevoked fun other hne => (hotherR other hne).trans (hother' other hne)
    simp only [hrc, ne_eq, not_true_eq_false, if_false]
    split_ifs
    · exact ⟨hrefused, fun _ _ => rfl⟩
    · refine ⟨?_, fun i hi => ElfLoaderState.apps_setApp_of_ne ?_ _⟩
      · simp only [CStr.take_of_length_le hshort, hl]
        exact h.setApp hkept' hfree hnew ((hok hrc).trans hl) hother'
      · rintro rfl
        rw [hfree] at hi
        cases hi
    · exact ⟨hrefused, fun _ _ => rfl⟩
  · simp only [hrc, ne_eq, not_false_eq_true, if_true]
    exact ⟨h.setPerms hkept' hnew (hfail hrc) hother', fun _ _ => rfl⟩

/-- A load either ends without a change, or installs what it has admitted. -/
lemma load (h : Separate (s, loads)) {x : ElfFile} (hx : Unshared debug (.load x) s) :
    Separate ((watched debug).next (.load x) (s, loads)) ∧
      ∀ i, (s.apps i).loaded = true → (elfAppLoad debug x s).2.apps i = s.apps i := by
  change Separate ((elfAppLoad debug x s).2, record debug (.load x) (elfAppLoad debug x s).1 loads) ∧ _
  rw [elfAppLoad]
  cases hadmit : loadChecks debug x s with
  | error rc => exact ⟨h, fun _ _ => rfl⟩
  | ok a =>
    obtain ⟨hcheck, hslot, -, hrequested⟩ := loadChecks_ok hadmit
    obtain ⟨hshort, hnew⟩ := hx a hadmit
    obtain ⟨hsep, hframe⟩ := h.install (x := x) (l := ⟨a.signed, x.requestedPermissions⟩) hslot
      hshort hnew (by rw [Admitted.granted, hrequested])
    refine ⟨?_, hframe⟩
    simp only
    generalize hr : ElfLoader.install x a s = r at hsep ⊢
    obtain ⟨⟨rc, handle⟩, s'⟩ := r
    cases handle with
    | none => exact hsep
    | some i =>
      simp only [record, hcheck]
      exact hsep

/-! ### Unloading -/

/-- A slot is emptied, and its app leaves no permissions behind. -/
lemma clearApp (h : Separate (s, loads)) (hkept : Kept perms)
    (hother : ∀ j, j ≠ i → (s.apps j).loaded = true →
      permissionsGet (s.apps j).appId perms = permissionsGet (s.apps j).appId s.perms)
    (habsent : ∀ id, (∀ j, j ≠ i → (s.apps j).loaded = true → (s.apps j).appId ≠ id) →
      permissionsGet id perms = 0) :
    Separate ((s.setPerms perms).setApp i .empty, Function.update loads i none) := by
  have hslots : ∀ j, j ≠ i → ((s.setPerms perms).setApp i .empty).apps j = s.apps j :=
    fun j hj => ElfLoaderState.apps_setApp_of_ne hj _
  have hloaded : ∀ j, (((s.setPerms perms).setApp i .empty).apps j).loaded = true → j ≠ i := by
    rintro j hj rfl
    rw [ElfLoaderState.apps_setApp_self] at hj
    cases hj
  refine ⟨hkept, fun j hj => ?_, fun j k hj hk hid => ?_, fun j hj => ?_, fun id hid => ?_⟩
  · have hji := hloaded j hj
    simp only [hslots j hji, ElfLoaderState.perms_setApp, ElfLoaderState.perms_setPerms] at hj ⊢
    obtain ⟨l, hl, hgranted, hget⟩ := h.own j hj
    refine ⟨l, ?_, hgranted, (hother j hji hj).trans hget⟩
    rw [Function.update_of_ne hji]
    exact hl
  · have hji := hloaded j hj
    have hki := hloaded k hk
    simp only [hslots j hji, hslots k hki] at hj hk hid
    exact h.distinct j k hj hk hid
  · by_cases hji : j = i
    · rw [hji, ElfLoaderState.apps_setApp_self]
    · simp only [hslots j hji] at hj ⊢
      exact h.free j hj
  · refine habsent id fun j hji hj => ?_
    have hidj := hid j
    rw [hslots j hji] at hidj
    exact hidj hj

lemma permissionsGet_nil (t : PermTable) : permissionsGet ElfAppHandle.empty.appId t = 0 := by
  have hstr : ElfAppHandle.empty.appId.toStr = some "" := fromUTF8?_utf8 ""
  simp only [permissionsGet, hstr, get_empty]

/-- Unloading an app takes away what it was granted, and nothing else. -/
lemma revoked (h : Separate (s, loads)) (hi : (s.apps i).loaded = true) :
    let perms := if (s.apps i).grantedPermissions ≠ 0 ∧ (s.apps i).appId.bytes ≠ [] then
      (permissionsRevoke (s.apps i).appId (s.apps i).grantedPermissions s.perms).2 else s.perms
    Kept perms ∧ permissionsGet (s.apps i).appId perms = 0 ∧
      ∀ other, other ≠ (s.apps i).appId → permissionsGet other perms = permissionsGet other s.perms := by
  obtain ⟨l, -, -, hget⟩ := h.own i hi
  simp only
  split_ifs with hrevoke
  · obtain ⟨hkept, hsame, hother⟩ := h.kept.permissionsRevoke (s.apps i).appId
      (s.apps i).grantedPermissions
    rw [hget, and_not_self] at hsame
    exact ⟨hkept, hsame, hother⟩
  · refine ⟨h.kept, ?_, fun _ _ => rfl⟩
    by_cases hzero : (s.apps i).grantedPermissions = 0
    · exact hget.trans hzero
    · have hnil : (s.apps i).appId.bytes = [] := by
        by_contra hne
        exact hrevoke ⟨hzero, hne⟩
      have hempty : (s.apps i).appId = ElfAppHandle.empty.appId := by
        cases hid : (s.apps i).appId
        rw [hid] at hnil
        subst hnil
        rfl
      rw [hempty]
      exact permissionsGet_nil _

lemma unload (h : Separate (s, loads)) (debug : Bool) (handle : Option Slot) :
    Separate ((watched debug).next (.unload handle) (s, loads)) ∧
      ∀ i, handle ≠ some i → (elfAppUnload handle s).2.apps i = s.apps i := by
  change Separate ((elfAppUnload handle s).2,
    record debug (.unload handle) (elfAppUnload handle s).1 loads) ∧ _
  cases handle with
  | none => exact ⟨h, fun _ _ => rfl⟩
  | some i =>
    simp only [elfAppUnload, record]
    refine ⟨?_, fun j hj => ElfLoaderState.apps_setApp_of_ne ?_ _⟩
    · by_cases hi : (s.apps i).loaded = true
      · obtain ⟨hkept, hzero, hother⟩ := h.revoked hi
        refine h.clearApp hkept (fun j hji hj => hother _ fun hid => hji ?_) fun id hid => ?_
        · exact h.distinct j i hj hi hid
        · by_cases hidi : id = (s.apps i).appId
          · rw [hidi]
            exact hzero
          · refine (hother id hidi).trans (h.absent id fun j hj => ?_)
            by_cases hji : j = i
            · rw [hji]
              exact Ne.symm hidi
            · exact hid j hji hj
      · rw [Bool.not_eq_true] at hi
        have hempty := h.free i hi
        have hnone : (s.apps i).grantedPermissions = 0 := by
          rw [hempty]
          rfl
        simp only [hnone, ne_eq, not_true_eq_false, false_and, if_false]
        refine h.clearApp h.kept (fun _ _ _ => rfl) fun id hid => h.absent id fun j hj => ?_
        refine hid j ?_ hj
        rintro rfl
        rw [hi] at hj
        cases hj
    · rintro rfl
      exact hj rfl

end Separate

/-! ### Runs -/

lemma separate_new : Separate (.new, fun _ => none) where
  kept := kept_init
  own _ h := nomatch h
  distinct _ _ h := nomatch h
  free _ _ := rfl
  absent id _ := by
    simp only [permissionsGet]
    cases id.toStr with
    | none => rfl
    | some id =>
      apply get_eq_zero
      intro b hb
      rw [List.eq_of_mem_replicate hb]
      rfl

/-- Two states with the same app in a slot, filled by the same load. -/
lemma Separate.get_eq {w w' : ElfLoaderState × (Slot → Option LoadRecord)} (h : Separate w)
    (h' : Separate w') (hi : (w.1.apps i).loaded = true) (happ : w'.1.apps i = w.1.apps i) :
    permissionsGet (w.1.apps i).appId w'.1.perms = permissionsGet (w.1.apps i).appId w.1.perms := by
  obtain ⟨-, -, -, hget⟩ := h.own i hi
  obtain ⟨-, -, -, hget'⟩ := h'.own i (happ ▸ hi)
  rw [happ] at hget'
  exact hget'.trans hget.symm

lemma Separate.step {w : ElfLoaderState × (Slot → Option LoadRecord)} (h : Separate w)
    {o : LoaderOp} (ho : Unshared debug o w.1) :
    Separate ((watched debug).next o w) ∧ LeavesOthers debug o w.1 := by
  obtain ⟨s, loads⟩ := w
  cases o with
  | load x =>
    obtain ⟨hsep, hframe⟩ := h.load ho
    exact ⟨hsep, fun i hi _ => ⟨hframe i hi, h.get_eq hsep hi (hframe i hi)⟩⟩
  | unload handle =>
    obtain ⟨hsep, hframe⟩ := h.unload debug handle
    exact ⟨hsep, fun i hi hne => ⟨hframe i hne, h.get_eq hsep hi (hframe i hne)⟩⟩

/-- In every run in which no load that gets as far as its grant has an identity that is too long or
that a loaded app has, every loaded app has what its own load computed, and no call changes what
another app has. -/
theorem grants_separate (debug : Bool) (ops : List LoaderOp)
    (h : (watched debug).Along (fun o w => Unshared debug o w.1) (.new, fun _ => none) ops) :
    (watched debug).Along (fun o w => HoldsOwn w ∧ LeavesOthers debug o w.1)
        (.new, fun _ => none) ops ∧
      HoldsOwn ((watched debug).run (.new, fun _ => none) ops) := by
  obtain ⟨halong, hlast⟩ := Component.along_of_preserved
    (fun o w (hw : Separate w) ho => (hw.step ho).1) separate_new h
  exact ⟨halong.mono fun _ _ hw => ⟨hw.1.holdsOwn, (hw.1.step hw.2).2⟩, hlast.holdsOwn⟩

/-- A file whose manifest has the id "app"; the platform accepts it. -/
def sampleFile (permissions : UInt32) (signature : Option (List UInt8)) : ElfFile where
  path := .ofBuffer [97]
  contents := some [0x7F]
  heapCapsMalloc := true
  manifest := some ⟨utf8 "app", permissions⟩
  signature := signature
  signingVerify _ _ := espOk
  espElfInit := espOk
  espElfRelocate := espOk
  manifestIsCompatible := some true

theorem grants_separate_sample :
    (watched true).Along (fun o w => HoldsOwn w ∧ LeavesOthers true o w.1) (.new, fun _ => none)
        [.load (sampleFile permAll none), .unload (some ⟨0, by decide⟩)] ∧
      HoldsOwn ((watched true).run (.new, fun _ => none)
        [.load (sampleFile permAll none), .unload (some ⟨0, by decide⟩)]) := by
  refine grants_separate true _ (Component.along_cons.mpr ⟨fun a ha => ?_, ?_⟩)
  · rw [(loadChecks_ok ha).2.2.1]
    exact ⟨by decide, fun i hi => nomatch hi⟩
  · exact Component.along_cons.mpr ⟨trivial, Component.along_nil⟩

/-- An unsigned file is loaded, and then a signed one with the same id. -/
def sharedId : List LoaderOp :=
  [.load (sampleFile permAll none), .load (sampleFile permAll (some (List.replicate 64 0)))]

def firstSlot : Slot := ⟨0, by decide⟩

/-- An unsigned app gets the permissions of a signed one that is loaded under the same id. -/
theorem grants_not_separate :
    ¬ ∀ ops : List LoaderOp, HoldsOwn ((watched true).run (.new, fun _ => none) ops) := by
  intro hall
  have hloaded : (((watched true).run (.new, fun _ => none) sharedId).1.apps firstSlot).loaded = true := by
    decide +kernel
  have hunsigned : ((watched true).run (.new, fun _ => none) sharedId).2 firstSlot =
      some ⟨false, permAll⟩ := by
    decide +kernel
  have hget : permissionsGet (((watched true).run (.new, fun _ => none) sharedId).1.apps firstSlot).appId
      ((watched true).run (.new, fun _ => none) sharedId).1.perms = permAll := by
    decide +kernel
  obtain ⟨l, hl, -, -, hipc⟩ := hall sharedId firstSlot hloaded
  rw [hunsigned] at hl
  obtain rfl := Option.some.inj hl
  have hnone := hipc rfl
  rw [hget] at hnone
  exact absurd hnone (by decide)

end ThistleOS.ElfLoader
