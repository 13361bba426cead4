import Mathlib.Data.List.Perm.Lattice
import Mathlib.Data.List.Perm.Subperm
import ThistleOS.Kernel.AppFiles

/-!
# The owners of the streams

Whatever the calls of the slots and the order of their steps, a slot uses and closes only streams that
it has opened and not closed, and every open stream has a place in the table when no call is running.
-/

namespace ThistleOS.AppFiles

open PowerLoss AppStorage

variable {files files' : Table} {slot stream : ℕ}

/-! ### The table -/

lemma mem_owned : stream ∈ owned slot files ↔ some ⟨stream, slot⟩ ∈ files := by
  simp only [owned, List.mem_filterMap, Option.map_eq_some_iff, Option.filter_eq_some_iff, beq_iff_eq]
  constructor
  · rintro ⟨entry, hmem, owner, ⟨rfl, rfl⟩, rfl⟩
    exact hmem
  · exact fun hmem => ⟨_, hmem, _, ⟨rfl, rfl⟩, rfl⟩

lemma owned_append (pre post : Table) : owned slot (pre ++ post) = owned slot pre ++ owned slot post :=
  List.filterMap_append

@[simp] lemma owned_none (post : Table) : owned slot (none :: post) = owned slot post := rfl

lemma owned_some_self (post : Table) :
    owned slot (some ⟨stream, slot⟩ :: post) = stream :: owned slot post := by
  simp [owned]

lemma owned_some_of_ne {k : ℕ} (h : slot ≠ k) (post : Table) :
    owned k (some ⟨stream, slot⟩ :: post) = owned k post := by
  simp [owned, h]

/-- The table has a new entry for a stream of a slot. -/
structure Added (slot stream : ℕ) (files files' : Table) : Prop where
  length : files'.length = files.length
  own : (owned slot files').Perm (stream :: owned slot files)
  others : ∀ k, k ≠ slot → owned k files' = owned k files

lemma Added.of_split (pre post : Table) :
    Added slot stream (pre ++ none :: post) (pre ++ some ⟨stream, slot⟩ :: post) where
  length := by simp
  own := by
    rw [owned_append, owned_append, owned_some_self, owned_none]
    exact List.perm_middle
  others k hk := by rw [owned_append, owned_append, owned_some_of_ne hk.symm, owned_none]

lemma registerAppStream_cases (slot stream : ℕ) (files : Table) :
    ((registerAppStream slot stream files).1 = true ∧
      Added slot stream files (registerAppStream slot stream files).2) ∨
    registerAppStream slot stream files = (false, files) := by
  rw [registerAppStream]
  split_ifs
  · exact .inr rfl
  · cases hfind : files.findIdx? Option.isNone with
    | none => exact .inr rfl
    | some i =>
      obtain ⟨pre, entry, post, rfl, rfl, -, hnone⟩ := Slots.findIdx?_eq_some_split hfind
      obtain rfl : entry = none := by simpa using hnone
      refine .inl ⟨rfl, ?_⟩
      simpa using Added.of_split pre post

lemma ownedBy_iff {entry : Option AppFileOwner} :
    ownedBy slot stream entry = true ↔ entry = some ⟨stream, slot⟩ := by
  simp [ownedBy]

lemma takeOwnedStream_cases (slot stream : ℕ) (files : Table) :
    ((takeOwnedStream slot stream files).1 = true ∧
      Added slot stream (takeOwnedStream slot stream files).2 files) ∨
    takeOwnedStream slot stream files = (false, files) ∧ (stream = 0 ∨ stream ∉ owned slot files) := by
  rw [takeOwnedStream]
  split_ifs with hzero
  · exact .inr ⟨rfl, .inl hzero⟩
  · cases hfind : files.findIdx? (ownedBy slot stream) with
    | none =>
      refine .inr ⟨rfl, .inr fun hmem => ?_⟩
      have := List.findIdx?_eq_none_iff.mp hfind _ (mem_owned.mp hmem)
      rw [ownedBy_iff.mpr rfl] at this
      cases this
    | some i =>
      obtain ⟨pre, entry, post, rfl, rfl, -, hentry⟩ := Slots.findIdx?_eq_some_split hfind
      obtain rfl := ownedBy_iff.mp hentry
      refine .inl ⟨rfl, ?_⟩
      simpa using Added.of_split pre post

lemma appOwnsStream_true (h : appOwnsStream slot stream files = true) : stream ∈ owned slot files := by
  rw [appOwnsStream, Bool.and_eq_true, List.any_eq_true] at h
  obtain ⟨-, entry, hmem, hentry⟩ := h
  rw [ownedBy_iff] at hentry
  exact mem_owned.mpr (hentry ▸ hmem)

lemma owned_takeSlot_self (slot : ℕ) (files : Table) : owned slot (takeSlot slot files).2 = [] := by
  rw [List.eq_nil_iff_forall_not_mem]
  intro stream hmem
  rw [mem_owned, takeSlot, List.mem_map] at hmem
  obtain ⟨entry, -, hentry⟩ := hmem
  rw [Option.filter_eq_some_iff] at hentry
  simp at hentry

lemma owned_takeSlot_of_ne {k : ℕ} (h : k ≠ slot) (files : Table) :
    owned k (takeSlot slot files).2 = owned k files := by
  rw [owned, owned, takeSlot, List.filterMap_map]
  refine List.filterMap_congr fun entry _ => ?_
  cases entry with
  | none => rfl
  | some owner =>
    by_cases hk : owner.slot = k
    · simp [Option.filter_some, hk, h]
    · by_cases hslot : owner.slot = slot <;> simp [Option.filter_some, hk, hslot, h.symm]

/-! ### The log -/

/-- The slot that a stream is open for, after an event. -/
def Event.next (stream : ℕ) (slot : Option ℕ) : Event → Option ℕ
  | .opened k s => if s = stream then some k else slot
  | .used _ _ => slot
  | .closed _ s => if s = stream then none else slot

lemma holder_concat (log : List Event) (event : Event) (stream : ℕ) :
    holder (log ++ [event]) stream = event.next stream (holder log stream) := by
  rw [holder, List.foldl_append]
  cases event <;> rfl

/-- A stream that is opened is not open, and one that is used or closed is open for the slot. -/
def Event.Allowed (log : List Event) : Event → Prop
  | .opened _ stream => holder log stream = none
  | .used slot stream | .closed slot stream => holder log stream = some slot

/-- Every event of the log is allowed where it comes. -/
def WellUsed (log : List Event) : Prop :=
  ∀ pre event post, log = pre ++ event :: post → event.Allowed pre

lemma WellUsed.concat {log : List Event} {event : Event} (h : WellUsed log) (hevent : event.Allowed log) :
    WellUsed (log ++ [event]) := by
  intro pre e post hlog
  rcases List.eq_nil_or_concat post with rfl | ⟨front, last, rfl⟩
  · obtain ⟨rfl, hlast⟩ := List.append_inj' hlog rfl
    cases hlast
    exact hevent
  · rw [List.concat_eq_append, ← List.cons_append, ← List.append_assoc] at hlog
    obtain ⟨rfl, -⟩ := List.append_inj' hlog rfl
    exact h pre e front rfl

/-! ### What a slot holds -/

/-- The streams that the running call of a slot has to close or to register, the stream that it has
found to be its own, and those that it has found not to be. -/
structure Local where
  held : List ℕ
  checked : Option ℕ
  absent : ℕ → Prop

def Local.empty : Local := ⟨[], none, fun _ => False⟩

/-- Every open stream of a slot is in the table or held by the running call of the slot. -/
structure Owned (s : State) (R : ℕ → Local) : Prop where
  length : s.files.length = maxOpenAppFiles
  used : WellUsed s.log
  nonnull : holder s.log 0 = none
  nodup : ∀ k, (owned k s.files ++ (R k).held).Nodup
  open_iff : ∀ k stream, holder s.log stream = some k ↔ stream ∈ owned k s.files ++ (R k).held
  checked_mem : ∀ k stream, (R k).checked = some stream → stream ∈ owned k s.files
  absent : ∀ k stream, (R k).absent stream → stream ∉ owned k s.files

def Pre (slot : ℕ) : Op → Local → Prop
  | .registerAppStream k stream, x => k = slot ∧ stream ∈ x.held
  | .appOwnsStream k _, _ | .takeOwnedStream k _, _ | .takeSlot k, _ => k = slot
  | .fread _ _ stream, x | .fwrite _ _ stream, x => x.checked = some stream
  | .fclose stream, x => stream ∈ x.held
  | .appStorageId _, _ | .createParent _, _ | .fopen .., _ | .clearId _, _ => True

namespace Local

def opened (stream : ℕ) (x : Local) : Local :=
  if stream = 0 then x else { x with held := stream :: x.held }

def registered (stream : ℕ) (done : Bool) (x : Local) : Local :=
  if done then ⟨x.held.erase stream, none, fun _ => False⟩ else x

def found (stream : ℕ) (own : Bool) (x : Local) : Local :=
  if own then { x with checked := some stream } else x

def taken (stream : ℕ) (done : Bool) (x : Local) : Local :=
  ⟨if done then stream :: x.held else x.held, none, fun s => s = stream⟩

def takenAll (streams : List ℕ) (x : Local) : Local := ⟨streams ++ x.held, none, fun _ => True⟩

end Local

def after : (o : Op) → Reply o → Local → Local
  | .fopen _ _, stream, x => x.opened stream
  | .registerAppStream _ stream, done, x => x.registered stream done
  | .appOwnsStream _ stream, own, x => x.found stream own
  | .takeOwnedStream _ stream, done, x => x.taken stream done
  | .takeSlot _, streams, x => x.takenAll streams
  | .fclose stream, _, x => { x with held := x.held.erase stream }
  | .appStorageId _, _, x | .createParent _, _, x | .fread .., _, x | .fwrite .., _, x
  | .clearId _, _, x => x

/-- What a call has done when it returns. -/
def Fin : Call → Local → Prop
  | .open .., x | .read .., x | .write .., x => x.held = []
  | .close stream, x => x.held = [] ∧ x.absent stream
  | .clear, x => x.held = [] ∧ ∀ stream, x.absent stream

def logic : Threads.Logic steps ℕ Call State Local where
  Inv := Owned
  Pre := Pre
  after := after
  empty := .empty
  Fin := Fin

namespace Owned

variable {s : State} {R : ℕ → Local} {x : Local} {log : List Event}

/-- The streams of a slot are moved between the table and the running call. -/
lemma move (h : Owned s R) (hlen : files'.length = s.files.length)
    (hown : (owned slot files' ++ x.held).Perm (owned slot s.files ++ (R slot).held))
    (hothers : ∀ k, k ≠ slot → owned k files' = owned k s.files)
    (hchecked : ∀ stream, x.checked = some stream → stream ∈ owned slot files')
    (habsent : ∀ stream, x.absent stream → stream ∉ owned slot files') :
    Owned { s with files := files' } (Function.update R slot x) := by
  have hperm : ∀ k, (owned k files' ++ (Function.update R slot x k).held).Perm
      (owned k s.files ++ (R k).held) := by
    intro k
    by_cases hk : k = slot
    · subst hk
      rw [Function.update_self]
      exact hown
    · rw [Function.update_of_ne hk, hothers k hk]
  refine ⟨hlen.trans h.length, h.used, h.nonnull, fun k => (hperm k).nodup_iff.mpr (h.nodup k),
    fun k stream => (h.open_iff k stream).trans (hperm k).mem_iff.symm, fun k stream hk => ?_,
    fun k stream hk => ?_⟩
  · by_cases hslot : k = slot
    · subst hslot
      rw [Function.update_self] at hk
      exact hchecked stream hk
    · rw [Function.update_of_ne hslot] at hk
      rw [hothers k hslot]
      exact h.checked_mem k stream hk
  · by_cases hslot : k = slot
    · subst hslot
      rw [Function.update_self] at hk
      exact habsent stream hk
    · rw [Function.update_of_ne hslot] at hk
      rw [hothers k hslot]
      exact h.absent k stream hk

/-- The resource of a slot may be forgotten but for what it has to close. -/
lemma forget (h : Owned s R) (hheld : x.held = (R slot).held)
    (hchecked : ∀ stream, x.checked = some stream → stream ∈ owned slot s.files)
    (habsent : ∀ stream, x.absent stream → stream ∉ owned slot s.files) :
    Owned s (Function.update R slot x) :=
  h.move rfl (by rw [hheld]) (fun _ _ => rfl) hchecked habsent

lemma same (h : Owned s R) : Owned s (Function.update R slot (R slot)) := by
  rw [Function.update_eq_self]
  exact h

/-- A stream is used. -/
lemma use (h : Owned s R) (hopen : holder s.log stream = some slot) :
    Owned { s with log := s.log ++ [.used slot stream] } R where
  length := h.length
  used := h.used.concat hopen
  nonnull := by
    rw [holder_concat]
    exact h.nonnull
  nodup := h.nodup
  open_iff k p := by
    rw [holder_concat]
    exact h.open_iff k p
  checked_mem := h.checked_mem
  absent := h.absent

/-- The streams of the slots after one of a slot has come to it, or gone. -/
lemma log_next (h : Owned s R) {event : Event} (hevent : event.Allowed s.log) (hnonnull : event.next 0 none = none)
    (hnodup : (owned slot s.files ++ x.held).Nodup)
    (hself : ∀ p, event.next p (holder s.log p) = some slot ↔ p ∈ owned slot s.files ++ x.held)
    (hothers : ∀ k, k ≠ slot → ∀ p, event.next p (holder s.log p) = some k ↔ holder s.log p = some k)
    (hchecked : x.checked = (R slot).checked) (habsent : x.absent = (R slot).absent) :
    Owned { s with log := s.log ++ [event] } (Function.update R slot x) := by
  refine ⟨h.length, h.used.concat hevent, ?_, fun k => ?_, fun k p => ?_, fun k p hk => ?_, fun k p hk => ?_⟩
  · rw [holder_concat, h.nonnull, hnonnull]
  all_goals by_cases hslot : k = slot
  · subst hslot
    rw [Function.update_self]
    exact hnodup
  · rw [Function.update_of_ne hslot]
    exact h.nodup k
  · subst hslot
    rw [Function.update_self, holder_concat]
    exact hself p
  · rw [Function.update_of_ne hslot, holder_concat, hothers k hslot p]
    exact h.open_iff k p
  · subst hslot
    rw [Function.update_self, hchecked] at hk
    exact h.checked_mem k p hk
  · rw [Function.update_of_ne hslot] at hk
    exact h.checked_mem k p hk
  · subst hslot
    rw [Function.update_self, habsent] at hk
    exact h.absent k p hk
  · rw [Function.update_of_ne hslot] at hk
    exact h.absent k p hk

/-- A stream is opened. -/
lemma opens (h : Owned s R) (hne : stream ≠ 0) (hfree : holder s.log stream = none) :
    Owned { s with log := s.log ++ [.opened slot stream] }
      (Function.update R slot { R slot with held := stream :: (R slot).held }) := by
  have hnotMem : stream ∉ owned slot s.files ++ (R slot).held := by
    rw [← h.open_iff slot stream, hfree]
    simp
  refine h.log_next hfree (if_neg hne) ?_ (fun p => ?_) (fun k hk p => ?_) rfl rfl
  · exact List.nodup_middle.mpr (List.nodup_cons.mpr ⟨hnotMem, h.nodup slot⟩)
  · rw [Event.next, List.perm_middle.mem_iff, List.mem_cons]
    split_ifs with hp
    · simp [hp]
    · rw [h.open_iff slot p]
      exact ⟨.inr, fun hmem => hmem.resolve_left (Ne.symm hp)⟩
  · rw [Event.next]
    split_ifs with hp
    · rw [← hp, hfree]
      simp [Ne.symm hk]
    · exact Iff.rfl

/-- A stream is closed. -/
lemma closes (h : Owned s R) (hheld : stream ∈ (R slot).held) :
    Owned { s with log := s.log ++ [.closed slot stream] }
      (Function.update R slot { R slot with held := (R slot).held.erase stream }) := by
  have hopen : holder s.log stream = some slot :=
    (h.open_iff slot stream).mpr (List.mem_append_right _ hheld)
  have hperm : (owned slot s.files ++ (R slot).held).Perm
      (stream :: (owned slot s.files ++ (R slot).held.erase stream)) :=
    ((List.perm_cons_erase hheld).append_left _).trans List.perm_middle
  have hnodup := List.nodup_cons.mp (hperm.nodup_iff.mp (h.nodup slot))
  refine h.log_next hopen (by simp [Event.next]) hnodup.2 (fun p => ?_) (fun k hk p => ?_) rfl rfl
  · rw [Event.next]
    split_ifs with hp
    · rw [← hp]
      exact iff_of_false (by simp) hnodup.1
    · rw [h.open_iff slot p, hperm.mem_iff, List.mem_cons]
      exact ⟨fun hmem => hmem.resolve_left (Ne.symm hp), .inr⟩
  · rw [Event.next]
    split_ifs with hp
    · rw [← hp, hopen]
      simp [Ne.symm hk]
    · exact Iff.rfl

/-- The table has room for a stream that a call holds. -/
lemma registers (h : Owned s R) (hheld : stream ∈ (R slot).held) (hadd : Added slot stream s.files files') :
    Owned { s with files := files' }
      (Function.update R slot ⟨(R slot).held.erase stream, none, fun _ => False⟩) := by
  refine h.move hadd.length ?_ hadd.others (fun _ hp => by cases hp) fun _ hp => hp.elim
  refine (hadd.own.append_right _).trans ?_
  exact List.perm_middle.symm.trans ((List.perm_cons_erase hheld).symm.append_left _)

/-- A call takes a stream out of the table. -/
lemma takes (h : Owned s R) (hadd : Added slot stream files' s.files) :
    Owned { s with files := files' }
      (Function.update R slot ⟨stream :: (R slot).held, none, fun p => p = stream⟩) := by
  have hnodup := (List.nodup_append.mp (h.nodup slot)).1
  refine h.move hadd.length.symm ?_ (fun k hk => (hadd.others k hk).symm) (fun _ hp => by cases hp) ?_
  · exact List.perm_middle.trans (hadd.own.symm.append_right (R slot).held)
  · rintro p rfl
    exact (List.nodup_cons.mp (hadd.own.nodup_iff.mp hnodup)).1

/-- A call takes all streams of its slot out of the table. -/
lemma takesSlot (h : Owned s R) :
    Owned { s with files := (takeSlot slot s.files).2 }
      (Function.update R slot ⟨owned slot s.files ++ (R slot).held, none, fun _ => True⟩) := by
  refine h.move (by simp [takeSlot]) ?_ (fun k hk => owned_takeSlot_of_ne hk _)
    (fun _ hp => by cases hp) fun p _ => ?_
  · rw [owned_takeSlot_self, List.nil_append]
  · rw [owned_takeSlot_self]
    exact List.not_mem_nil

end Owned

theorem sound : logic.Sound system where
  call slot o s R r s' h hpre hperform := by
    cases o with
    | appStorageId k =>
      obtain ⟨-, rfl⟩ := hperform
      exact h.same
    | createParent path =>
      obtain rfl := hperform
      exact h.same
    | fopen path mode =>
      rcases hperform with ⟨rfl, rfl⟩ | ⟨hne, hfree, rfl⟩
      · exact h.same
      · have hopened : logic.after (.fopen path mode) r (R slot) =
            { R slot with held := r :: (R slot).held } := if_neg hne
        rw [hopened]
        exact h.opens hne hfree
    | registerAppStream k stream =>
      obtain ⟨rfl, hheld⟩ := hpre
      obtain ⟨rfl, rfl⟩ := hperform
      change Owned _ (Function.update R k ((R k).registered stream _))
      rcases registerAppStream_cases k stream s.files with ⟨hdone, hadd⟩ | hfull
      · rw [hdone]
        exact h.registers hheld hadd
      · rw [hfull]
        exact h.same
    | appOwnsStream k stream =>
      obtain rfl : k = slot := hpre
      obtain ⟨rfl, rfl⟩ := hperform
      change Owned _ (Function.update R k ((R k).found stream _))
      cases hown : appOwnsStream k stream s'.files with
      | true =>
        refine h.forget rfl (fun p hp => ?_) fun p hp => h.absent k p hp
        cases hp
        exact appOwnsStream_true hown
      | false => exact h.same
    | takeOwnedStream k stream =>
      obtain rfl : k = slot := hpre
      obtain ⟨rfl, rfl⟩ := hperform
      change Owned _ (Function.update R k ((R k).taken stream _))
      rcases takeOwnedStream_cases k stream s.files with ⟨hdone, hadd⟩ | ⟨hnone, habsent⟩
      · rw [hdone]
        exact h.takes hadd
      · rw [hnone]
        refine h.forget rfl (fun p hp => by cases hp) ?_
        rintro p rfl
        rcases habsent with rfl | habsent
        · intro hmem
          have hopen := (h.open_iff k 0).mpr (List.mem_append_left _ hmem)
          rw [h.nonnull] at hopen
          cases hopen
        · exact habsent
    | takeSlot k =>
      obtain rfl : k = slot := hpre
      obtain ⟨rfl, rfl⟩ := hperform
      exact h.takesSlot
    | fread size count stream | fwrite size count stream =>
      obtain rfl := hperform
      change Owned _ (Function.update R slot (R slot))
      rw [Function.update_eq_self]
      exact h.use ((h.open_iff slot stream).mpr (List.mem_append_left _ (h.checked_mem slot stream hpre)))
    | fclose stream =>
      obtain rfl := hperform
      exact h.closes hpre
    | clearId k =>
      obtain rfl := hperform
      change Owned _ (Function.update R slot (R slot))
      rw [Function.update_eq_self]
      exact ⟨h.length, h.used, h.nonnull, h.nodup, h.open_iff, h.checked_mem, h.absent⟩
  finish slot q s R h hfin := by
    have hheld : (R slot).held = [] := by
      cases q with
      | «open» | read | write => exact hfin
      | close | clear => exact hfin.1
    exact h.forget hheld.symm (fun p hp => by cases hp) fun p hp => hp.elim

/-! ### The calls -/

lemma safe_closeAll (slot : ℕ) {absent : ℕ → Prop} (streams : List ℕ) {checked : Option ℕ} :
    logic.Safe slot (fun _ y => y.held = [] ∧ y.absent = absent) (closeAll streams)
      ⟨streams, checked, absent⟩ := by
  induction streams with
  | nil => exact ⟨rfl, rfl⟩
  | cons stream streams ih =>
    refine ⟨List.mem_cons_self, fun _ => ?_⟩
    change logic.Safe slot _ (closeAll streams) ⟨(stream :: streams).erase stream, checked, absent⟩
    rw [List.erase_cons_head]
    exact ih

lemma safe_openSink (slot : ℕ) (resolved mode : String) :
    logic.Safe slot (fun stream y => y = Local.empty.opened stream) (openSink resolved mode) .empty := by
  rw [openSink]
  split_ifs
  · refine ⟨trivial, fun created => ?_⟩
    cases created with
    | true => exact ⟨trivial, fun _ => rfl⟩
    | false => rfl
  · exact ⟨trivial, fun _ => rfl⟩

lemma safe_openSandboxedPathWith (slot : ℕ) (appId requested mode base : String) :
    logic.Safe slot (fun stream y => y = Local.empty.opened stream)
      (openSandboxedPathWith appId requested mode base openSink) .empty := by
  rw [openSandboxedPathWith]
  split
  · rfl
  · split
    · exact safe_openSink slot _ mode
    · rfl

/-- A stream that the table has no room for is closed. -/
lemma safe_registerOrClose (slot stream : ℕ) :
    logic.Safe slot (fun _ y => y.held = []) (registerOrClose slot stream) (Local.empty.opened stream) := by
  rw [registerOrClose, Local.opened]
  split_ifs with hzero
  · rfl
  · refine ⟨⟨rfl, List.mem_cons_self⟩, fun registered => ?_⟩
    cases registered with
    | true => exact List.erase_cons_head stream []
    | false => exact ⟨List.mem_cons_self, fun _ => List.erase_cons_head stream []⟩

lemma safe_thistleFsOpenForSlot (slot : ℕ) (path mode : Option CStr) :
    logic.Safe slot (fun _ y => y.held = []) (thistleFsOpenForSlot slot path mode) .empty := by
  rw [thistleFsOpenForSlot]
  split
  · refine ⟨trivial, fun appId => ?_⟩
    cases appId with
    | none => rfl
    | some appId =>
      rw [Threads.Logic.safe_bind]
      refine (safe_openSandboxedPathWith slot _ _ _ _).mono ?_
      rintro stream y rfl
      exact safe_registerOrClose slot stream
  · rfl

lemma safe_thistleFsReadForSlot (slot : ℕ) (bufAllowed : Bool) (size count stream : ℕ) :
    logic.Safe slot (fun _ y => y.held = []) (thistleFsReadForSlot slot bufAllowed size count stream)
      .empty := by
  rw [thistleFsReadForSlot]
  split
  · rfl
  · refine ⟨rfl, fun owns => ?_⟩
    cases owns with
    | true => exact ⟨rfl, fun _ => rfl⟩
    | false => rfl

lemma safe_thistleFsWriteForSlot (slot : ℕ) (bufAllowed : Bool) (size count stream : ℕ) :
    logic.Safe slot (fun _ y => y.held = []) (thistleFsWriteForSlot slot bufAllowed size count stream)
      .empty := by
  rw [thistleFsWriteForSlot]
  split
  · rfl
  · refine ⟨rfl, fun owns => ?_⟩
    cases owns with
    | true => exact ⟨rfl, fun _ => rfl⟩
    | false => rfl

lemma safe_thistleFsCloseForSlot (slot stream : ℕ) :
    logic.Safe slot (fun _ y => y.held = [] ∧ y.absent stream) (thistleFsCloseForSlot slot stream)
      .empty := by
  refine ⟨rfl, fun taken => ?_⟩
  cases taken with
  | true => exact ⟨List.mem_cons_self, fun _ => ⟨List.erase_cons_head stream [], rfl⟩⟩
  | false => exact ⟨rfl, rfl⟩

lemma safe_syscallClearAppStorage (slot : ℕ) :
    logic.Safe slot (fun _ y => y.held = [] ∧ ∀ stream, y.absent stream) (syscallClearAppStorage slot)
      .empty := by
  refine ⟨rfl, fun (streams : List ℕ) => ?_⟩
  rw [Threads.Logic.safe_bind]
  change logic.Safe slot _ (closeAll streams) ⟨streams ++ [], none, fun _ => True⟩
  rw [List.append_nil]
  refine (safe_closeAll slot streams).mono ?_
  rintro - y ⟨hheld, habsent⟩
  exact ⟨trivial, fun _ => ⟨hheld, fun stream => habsent ▸ trivial⟩⟩

theorem safe_body (slot : ℕ) (q : Call) : logic.Safe slot (fun _ => Fin q) (body slot q) .empty := by
  cases q with
  | «open» path mode =>
    rw [body, Threads.Logic.safe_bind]
    exact (safe_thistleFsOpenForSlot slot path mode).mono fun _ _ h => h
  | read bufAllowed size count stream =>
    rw [body, Threads.Logic.safe_bind]
    exact (safe_thistleFsReadForSlot slot bufAllowed size count stream).mono fun _ _ h => h
  | write bufAllowed size count stream =>
    rw [body, Threads.Logic.safe_bind]
    exact (safe_thistleFsWriteForSlot slot bufAllowed size count stream).mono fun _ _ h => h
  | close stream =>
    rw [body, Threads.Logic.safe_bind]
    exact (safe_thistleFsCloseForSlot slot stream).mono fun _ _ h => h
  | clear => exact safe_syscallClearAppStorage slot

lemma owned_start (ids : List (List UInt8)) (slot : ℕ) : owned slot (start ids).files = [] := by
  rw [start, maxOpenAppFiles, owned, List.filterMap_replicate_of_none rfl]

lemma owned_empty (ids : List (List UInt8)) : Owned (start ids) fun _ => Local.empty where
  length := List.length_replicate
  used pre event post h := by
    have := congrArg List.length h
    simp [start] at this
  nonnull := rfl
  nodup k := by
    rw [owned_start]
    exact .nil
  open_iff k stream := by
    rw [owned_start]
    exact iff_of_false (by simp [start, holder]) (by simp [Local.empty])
  checked_mem k stream h := by cases h
  absent k stream h := h.elim

/-- Whatever the order of the steps, every slot has what its running call needs. -/
theorem exists_holds {ids : List (List UInt8)} {c : Config} (hc : Reachable ids c) :
    ∃ R, logic.Holds c R :=
  Threads.Logic.holds_of_reachable sound safe_body (owned_empty ids) hc

/-! ### Any order of the steps -/

/-- A step of one slot leaves the entries of the others. -/
lemma owned_others {k : ℕ} (hk : k ≠ slot) {o : Op} {x : Local} {s s' : State} {r : Reply o}
    (hpre : Pre slot o x) (hperform : system.Perform slot o s r s') :
    owned k s'.files = owned k s.files := by
  cases o with
  | appStorageId | appOwnsStream =>
    obtain ⟨-, rfl⟩ := hperform
    rfl
  | createParent | fread | fwrite | fclose | clearId =>
    obtain rfl := hperform
    rfl
  | fopen path mode =>
    rcases hperform with ⟨-, rfl⟩ | ⟨-, -, rfl⟩
    · rfl
    · rfl
  | registerAppStream k' stream =>
    obtain ⟨rfl, -⟩ := hpre
    obtain ⟨rfl, -⟩ := hperform
    rcases registerAppStream_cases k' stream s.files with ⟨-, hadd⟩ | hfull
    · exact hadd.others k hk
    · rw [hfull]
  | takeOwnedStream k' stream =>
    obtain rfl : k' = slot := hpre
    obtain ⟨rfl, -⟩ := hperform
    rcases takeOwnedStream_cases k' stream s.files with ⟨-, hadd⟩ | ⟨hnone, -⟩
    · exact (hadd.others k hk).symm
    · rw [hnone]
  | takeSlot k' =>
    obtain rfl : k' = slot := hpre
    obtain ⟨rfl, -⟩ := hperform
    exact owned_takeSlot_of_ne hk s.files

/-- What holds of the streams, in whatever order the slots take their steps. -/
structure StreamsOwned (c : Config) : Prop where
  /-- A slot uses and closes only what it has opened and not closed since. -/
  used : WellUsed c.state.log
  nodup : ∀ slot, (owned slot c.state.files).Nodup
  /-- Between its calls, the open streams of a slot are those that the table has for it. -/
  idle : ∀ slot, c.running slot = none →
    ∀ stream, holder c.state.log stream = some slot ↔ stream ∈ owned slot c.state.files
  /-- A call that closes a stream of the slot has closed it when it returns. -/
  closed : ∀ slot stream, c.running slot = some (.close stream, .pure ()) →
    holder c.state.log stream ≠ some slot
  cleared : ∀ slot, c.running slot = some (.clear, .pure ()) →
    owned slot c.state.files = [] ∧ ∀ stream, holder c.state.log stream ≠ some slot
  /-- No more streams are open than the table has places. -/
  room : (∀ slot, c.running slot = none) → ∀ streams : List ℕ, streams.Nodup →
    (∀ stream ∈ streams, holder c.state.log stream ≠ none) → streams.length ≤ maxOpenAppFiles

namespace StreamsOwned

variable {c : Config} {R : ℕ → Local}

lemma length_le (h : Owned c.state R) (hidle : ∀ slot, R slot = .empty) {streams : List ℕ}
    (hnodup : streams.Nodup) (hopen : ∀ stream ∈ streams, holder c.state.log stream ≠ none) :
    streams.length ≤ maxOpenAppFiles := by
  have hsub : streams ⊆ c.state.files.filterMap fun entry => entry.map AppFileOwner.stream := by
    intro stream hmem
    obtain ⟨slot, hslot⟩ := Option.ne_none_iff_exists'.mp (hopen stream hmem)
    rw [h.open_iff, hidle] at hslot
    have hentry := mem_owned.mp (by simpa [Local.empty] using hslot)
    exact List.mem_filterMap.mpr ⟨_, hentry, rfl⟩
  calc streams.length
      ≤ (c.state.files.filterMap fun entry => entry.map AppFileOwner.stream).length :=
        (hnodup.subperm hsub).length_le
    _ ≤ c.state.files.length := List.length_filterMap_le _ _
    _ = maxOpenAppFiles := h.length

/-- A stream that a returning call neither holds nor left in the table is not open. -/
lemma not_open (h : Owned c.state R) (hheld : (R slot).held = []) (habsent : (R slot).absent stream) :
    holder c.state.log stream ≠ some slot := by
  rw [ne_eq, h.open_iff, hheld, List.append_nil]
  exact h.absent slot stream habsent

lemma of_holds (h : logic.Holds c R) : StreamsOwned c where
  used := h.inv.used
  nodup slot := (List.nodup_append.mp (h.inv.nodup slot)).1
  idle slot hslot stream := by
    rw [h.inv.open_iff, h.idle slot hslot]
    exact (List.append_nil (owned slot c.state.files)).symm ▸ Iff.rfl
  closed slot stream hrun := by
    obtain ⟨hheld, habsent⟩ := h.safe slot _ _ hrun
    exact not_open h.inv hheld habsent
  cleared slot hrun := by
    obtain ⟨hheld, habsent⟩ := h.safe slot _ _ hrun
    refine ⟨List.eq_nil_iff_forall_not_mem.mpr fun stream => h.inv.absent slot stream (habsent stream), ?_⟩
    exact fun stream => not_open h.inv hheld (habsent stream)
  room hidle _ hnodup hopen := length_le h.inv (fun slot => h.idle slot (hidle slot)) hnodup hopen

/-- A step of one slot changes nothing for the others. -/
lemma others (h : logic.Holds c R) {c' : Config} (hstep : Step slot c c') {k : ℕ} (hk : k ≠ slot) :
    owned k c'.state.files = owned k c.state.files ∧
      ∀ stream, holder c'.state.log stream = some k ↔ holder c.state.log stream = some k := by
  cases hstep with
  | start | finish => exact ⟨rfl, fun _ => Iff.rfl⟩
  | call _ _ q o prog r s' hrun hperform =>
    have hpre := (h.safe slot q _ hrun).1
    have hinv : Owned s' _ := sound.call slot o c.state R r s' h.inv hpre hperform
    have howned := owned_others hk hpre hperform
    refine ⟨howned, fun stream => ?_⟩
    rw [hinv.open_iff, h.inv.open_iff, Function.update_of_ne hk, howned]

end StreamsOwned

/-- The streams of every slot are its own, whatever the slots do. -/
theorem streamsOwned {ids : List (List UInt8)} {c : Config} (hc : Reachable ids c) :
    StreamsOwned c ∧ ∀ slot c', Step slot c c' → ∀ k, k ≠ slot →
      owned k c'.state.files = owned k c.state.files ∧
        ∀ stream, holder c'.state.log stream = some k ↔ holder c.state.log stream = some k := by
  obtain ⟨R, h⟩ := exists_holds hc
  exact ⟨.of_holds h, fun slot c' hstep k hk => StreamsOwned.others h hstep hk⟩

/-- A slot closes a stream that it does not own. -/
theorem streamsOwned_close :
    ∃ c : Config, c.running 0 = some (.close 7, .pure ()) ∧ c.state = start [] ∧ StreamsOwned c := by
  have hbegin : Reachable [] _ := .step .init (.start _ 0 (.close 7) rfl)
  have hperform : system.Perform 0 (Op.takeOwnedStream 0 7) (start []) (false : Bool) (start []) :=
    ⟨rfl, rfl⟩
  have hcall : Reachable [] _ := .step hbegin (.call _ 0 (.close 7) _ _ _ _ rfl hperform)
  exact ⟨_, rfl, rfl, (streamsOwned hcall).1⟩

end ThistleOS.AppFiles
