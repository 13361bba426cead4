import ThistleOS.PowerLoss.Logic
import Mathlib.Order.Defs.LinearOrder

/-!
# Anti-rollback

The firmware security floor and the order in which it moves: a new version is stored and read back
before the image that carries it is activated.
-/

open PowerLoss

namespace ThistleOS.AntiRollback

variable {S : Sig} {σ : Type}

/-! ### The policy -/

/-- A missing value is a fresh device. -/
def currentVersion (load : Act String S (Option UInt32)) : Act String S UInt32 := do
  match ← load.attempt with
  | .ok value => return value.getD 0
  | .error error => throw s!"anti-rollback state unavailable: {error}"

def requireNewer (candidate : UInt32) (load : Act String S (Option UInt32)) :
    Act String S UInt32 := do
  if candidate = 0 then
    throw "firmware security version must be greater than zero"
  let current ← currentVersion load
  if candidate ≤ current then
    throw s!"firmware security version {candidate} is not newer than device version {current}"
  return current

def advanceBeforeActivation (candidate : UInt32) (load : Act String S (Option UInt32))
    (store : UInt32 → Act String S Unit) (activate : Act String S Unit) : Act String S Unit := do
  let _ ← requireNewer candidate load
  match ← (store candidate).attempt with
  | .ok () => pure ()
  | .error error => throw s!"anti-rollback commit failed: {error}"
  let persisted ← currentVersion load
  if persisted ≠ candidate then
    throw s!"anti-rollback readback mismatch: wrote {candidate}, read {persisted}"
  activate

/-! ### Rules -/

section Rules

variable {M : Machine S σ} {err : String → σ → Prop} {cut : σ → Prop} {s : σ}
  {floor : Option UInt32} {candidate : UInt32} {At : Option UInt32 → σ → Prop}
  {load : Act String S (Option UInt32)} {store : UInt32 → Act String S Unit}
  {activate : Act String S Unit}

/-- Loading tells the floor or fails; `At f` says that the stored floor is `f`. -/
def LoadsFloor (M : Machine S σ) (At : Option UInt32 → σ → Prop)
    (load : Act String S (Option UInt32)) : Prop :=
  ∀ f s, At f s → Act.wp M load (fun value s' => value = f ∧ At f s') (fun _ => At f) (At f) s

/-- Storing a newer value keeps the old floor or sets the new one, whatever it reports. -/
def StoresFloor (M : Machine S σ) (At : Option UInt32 → σ → Prop)
    (store : UInt32 → Act String S Unit) : Prop :=
  ∀ f v s, f.getD 0 < v → At f s → Act.wp M (store v) (fun _ s' => At f s' ∨ At (some v) s')
    (fun _ s' => At f s' ∨ At (some v) s') (fun s' => At f s' ∨ At (some v) s') s

lemma wp_currentVersion {ok : UInt32 → σ → Prop} (hload : LoadsFloor M At load)
    (hs : At floor s) (hcut : ∀ s', At floor s' → cut s')
    (herr : ∀ e s', At floor s' → err e s') (hok : ∀ s', At floor s' → ok (floor.getD 0) s') :
    Act.wp M (currentVersion load) ok err cut s := by
  rw [currentVersion, Act.wp_bind, Act.wp_attempt]
  apply Act.wp_mono _ _ hcut (hload floor s hs)
  · rintro value s' ⟨rfl, hs'⟩
    exact hok s' hs'
  · intro e s' hs'
    exact herr _ s' hs'

lemma wp_requireNewer {ok : UInt32 → σ → Prop} (hload : LoadsFloor M At load)
    (hs : At floor s) (hcut : ∀ s', At floor s' → cut s')
    (herr : ∀ e s', At floor s' → err e s')
    (hok : floor.getD 0 < candidate → ∀ s', At floor s' → ok (floor.getD 0) s') :
    Act.wp M (requireNewer candidate load) ok err cut s := by
  rw [requireNewer]
  split_ifs with hzero
  · exact herr _ s hs
  · rw [Act.wp_bind]
    apply wp_currentVersion hload hs hcut herr
    intro s' hs'
    by_cases hle : candidate ≤ floor.getD 0
    · simp only [hle, if_true]
      exact herr _ s' hs'
    · simp only [hle, if_false]
      exact hok (UInt32.not_le.mp hle) s' hs'

/-- The floor moves to a newer candidate only, and the activation happens at the new floor. -/
lemma wp_advanceBeforeActivation {ok : Unit → σ → Prop} (hload : LoadsFloor M At load)
    (hstore : StoresFloor M At store) (hs : At floor s)
    (hcut : ∀ s', At floor s' ∨ floor.getD 0 < candidate ∧ At (some candidate) s' → cut s')
    (herr : ∀ e s', At floor s' ∨ floor.getD 0 < candidate ∧ At (some candidate) s' → err e s')
    (hactivate : floor.getD 0 < candidate → ∀ s', At (some candidate) s' →
      Act.wp M activate ok err cut s') :
    Act.wp M (advanceBeforeActivation candidate load store activate) ok err cut s := by
  rw [advanceBeforeActivation, Act.wp_bind]
  apply wp_requireNewer hload hs (fun s' h => hcut s' (.inl h)) (fun e s' h => herr e s' (.inl h))
  intro hnewer s₁ hs₁
  have hmoved : ∀ {s'}, At floor s' ∨ At (some candidate) s' →
      At floor s' ∨ floor.getD 0 < candidate ∧ At (some candidate) s' :=
    fun h => h.imp id fun h => ⟨hnewer, h⟩
  rw [Act.wp_bind, Act.wp_attempt]
  apply Act.wp_mono _ _ (fun s' h => hcut s' (hmoved h)) (hstore floor candidate s₁ hnewer hs₁)
  · rintro ⟨⟩ s₂ hs₂
    rw [Act.wp_bind]
    -- the readback tells which of the two floors is there
    rcases hs₂ with hs₂ | hs₂
    · apply wp_currentVersion hload hs₂ (fun s' h => hcut s' (.inl h))
        (fun e s' h => herr e s' (.inl h))
      intro s₃ hs₃
      have hne : floor.getD 0 ≠ candidate := (UInt32.lt_iff_le_and_ne.mp hnewer).2
      simp only [ne_eq, hne, not_false_eq_true, if_true]
      exact herr _ s₃ (.inl hs₃)
    · apply wp_currentVersion hload hs₂ (fun s' h => hcut s' (.inr ⟨hnewer, h⟩))
        (fun e s' h => herr e s' (.inr ⟨hnewer, h⟩))
      intro s₃ hs₃
      simp only [Option.getD_some, ne_eq, not_true_eq_false, if_false]
      exact hactivate hnewer s₃ hs₃
  · intro e s₂ hs₂
    exact herr _ s₂ (hmoved hs₂)

end Rules

/-! ### Runs of calls -/

inductive FloorOp
  | load
  | store (value : UInt32)
  | activate (candidate : UInt32)

def floorSig : Sig where
  Op := FloorOp
  Reply
    | .load => Except String (Option UInt32)
    | .store _ => Except String Unit
    | .activate _ => Except String Unit

/-- A call of the activation: for which candidate, the floor before the call of
`advanceBeforeActivation`, and the floor at that moment. -/
structure Activation where
  candidate : UInt32
  before : Option UInt32
  floor : Option UInt32
  deriving DecidableEq, Repr

/-- The stored floor, with the floor at the start of the current call and all that has happened: the
earlier floors, the last of them first, and the activations in their order. -/
structure Counter where
  floor : Option UInt32
  before : Option UInt32
  past : List (Option UInt32)
  activations : List Activation
  deriving DecidableEq, Repr

/-- A disturbed operation reports an error or cuts the power; a store may have persisted its value,
and may even report success. -/
structure Disturbance where
  cutsPower : Bool
  error : Option String
  persists : Bool

def Disturbance.reply (d : Disturbance) : Option (Except String Unit) :=
  if d.cutsPower then none else some (d.error.elim (.ok ()) .error)

def Counter.persist (s : Counter) (value : UInt32) : Counter :=
  { s with floor := some value, past := s.floor :: s.past }

def Counter.activate (s : Counter) (candidate : UInt32) : Counter :=
  { s with activations := s.activations ++ [⟨candidate, s.before, s.floor⟩] }

def counter : Machine floorSig Counter where
  Fault := Disturbance
  perform
    | .load, s => (.ok s.floor, s)
    | .store value, s => (.ok (), s.persist value)
    | .activate candidate, s => (.ok (), s.activate candidate)
  disturb
    | .load, d, s => (if d.cutsPower then none else some (.error (d.error.getD "")), s)
    | .store value, d, s => (d.reply, if d.persists then s.persist value else s)
    | .activate candidate, d, s => (d.reply, s.activate candidate)

def loadFloor : Act String floorSig (Option UInt32) :=
  ExceptT.mk (Prog.op (S := floorSig) .load)

def storeFloor (value : UInt32) : Act String floorSig Unit :=
  ExceptT.mk (Prog.op (S := floorSig) (.store value))

def activateImage (candidate : UInt32) : Act String floorSig Unit :=
  ExceptT.mk (Prog.op (S := floorSig) (.activate candidate))

/-- One call for a candidate, with what the environment does to it. -/
def call (s : Counter) (request : UInt32 × List (Option Disturbance)) : Counter :=
  (Act.run counter (advanceBeforeActivation request.1 loadFloor storeFloor (activateImage request.1))
    request.2 { s with before := s.floor }).2

/-- A floor is below every floor that is not smaller; an absent one is below all. -/
def FloorLe : Option UInt32 → Option UInt32 → Prop
  | none, _ => True
  | some _, none => False
  | some a, some b => a ≤ b

/-- The law of a whole run. -/
structure Lawful (s : Counter) : Prop where
  monotone : (s.floor :: s.past).Pairwise fun f g => FloorLe g f
  lawful : ∀ a ∈ s.activations, a.before.getD 0 < a.candidate ∧ a.floor = some a.candidate
  increasing : (s.activations.map Activation.candidate).Pairwise (· < ·)
  reached : ∀ a ∈ s.activations, FloorLe (some a.candidate) s.floor

lemma FloorLe.trans {f g h : Option UInt32} (hfg : FloorLe f g) (hgh : FloorLe g h) :
    FloorLe f h := by
  cases f with
  | none => trivial
  | some a =>
    cases g with
    | none => exact hfg.elim
    | some b =>
      cases h with
      | none => exact hgh.elim
      | some c => exact UInt32.le_trans hfg hgh

lemma floorLe_of_lt {f : Option UInt32} {v : UInt32} (h : f.getD 0 < v) : FloorLe f (some v) := by
  cases f with
  | none => trivial
  | some a => exact UInt32.le_of_lt h

lemma lt_of_floorLe {a v : UInt32} {f : Option UInt32} (h : FloorLe (some a) f)
    (hv : f.getD 0 < v) : a < v := by
  cases f with
  | none => exact h.elim
  | some b => exact UInt32.lt_of_le_of_lt h hv

lemma Lawful.persist {s : Counter} (h : Lawful s) {v : UInt32} (hv : s.floor.getD 0 < v) :
    Lawful (s.persist v) where
  monotone := by
    refine List.pairwise_cons.mpr ⟨fun g hg => ?_, h.monotone⟩
    have hle : FloorLe g s.floor := by
      rcases List.mem_cons.mp hg with rfl | hg
      · cases hf : s.floor with
        | none => trivial
        | some a => exact UInt32.le_refl a
      · exact (List.pairwise_cons.mp h.monotone).1 g hg
    exact hle.trans (floorLe_of_lt hv)
  lawful := h.lawful
  increasing := h.increasing
  reached a ha := (h.reached a ha).trans (floorLe_of_lt hv)

/-- The states of one call that began at a lawful state. -/
structure During (s₀ : Counter) (f : Option UInt32) (s : Counter) : Prop where
  floor : s.floor = f
  before : s.before = s₀.floor
  activations : s.activations = s₀.activations
  lawful : Lawful s

lemma During.activate {s₀ s : Counter} {c : UInt32} (h₀ : Lawful s₀) (h : During s₀ (some c) s)
    (hc : s₀.floor.getD 0 < c) : Lawful (s.activate c) where
  monotone := h.lawful.monotone
  lawful a ha := by
    rcases List.mem_append.mp ha with ha | ha
    · exact h.lawful.lawful a ha
    · rw [List.mem_singleton.mp ha]
      exact ⟨h.before ▸ hc, h.floor⟩
  increasing := by
    simp only [Counter.activate, List.map_append, List.map_cons, List.map_nil]
    rw [List.pairwise_append]
    refine ⟨h.lawful.increasing, List.pairwise_singleton _ _, ?_⟩
    intro v hv w hw
    obtain ⟨a, ha, rfl⟩ := List.mem_map.mp hv
    rw [List.mem_singleton.mp hw]
    exact lt_of_floorLe (h₀.reached a (h.activations ▸ ha)) hc
  reached a ha := by
    rcases List.mem_append.mp ha with ha | ha
    · exact h.lawful.reached a ha
    · rw [List.mem_singleton.mp ha]
      simp only [Counter.activate, h.floor]
      exact UInt32.le_refl c

lemma loadsFloor_counter (s₀ : Counter) : LoadsFloor counter (During s₀) loadFloor := by
  intro f s hs
  refine (Prog.wp_call _ _ s).mpr ⟨hs, fun d => ?_⟩
  cases d with
  | none => exact ⟨hs.floor, hs⟩
  | some d =>
    cases hd : d.cutsPower with
    | true =>
      simp only [Machine.exec, counter, hd, if_true]
      exact hs
    | false =>
      simp only [Machine.exec, counter, hd, Bool.false_eq_true, if_false]
      exact hs

lemma During.persist {s₀ s : Counter} {f : Option UInt32} (h : During s₀ f s) {v : UInt32}
    (hv : f.getD 0 < v) : During s₀ (some v) (s.persist v) where
  floor := rfl
  before := h.before
  activations := h.activations
  lawful := h.lawful.persist (h.floor ▸ hv)

lemma storesFloor_counter (s₀ : Counter) : StoresFloor counter (During s₀) storeFloor := by
  intro f v s hv hs
  refine (Prog.wp_call _ _ s).mpr ⟨.inl hs, fun d => ?_⟩
  cases d with
  | none => exact .inr (hs.persist hv)
  | some d =>
    have hafter : During s₀ f (if d.persists then s.persist v else s) ∨
        During s₀ (some v) (if d.persists then s.persist v else s) := by
      split_ifs
      · exact .inr (hs.persist hv)
      · exact .inl hs
    simp only [Machine.exec, counter]
    rcases d.reply with _ | _ | ⟨⟩
    · exact hafter
    · exact hafter
    · exact hafter

/-- One call keeps the law, wherever it ends. -/
lemma Lawful.call {s : Counter} (h : Lawful s) (request : UInt32 × List (Option Disturbance)) :
    Lawful (call s request) := by
  set s₀ : Counter := { s with before := s.floor } with hs₀
  have h₀ : Lawful s₀ := ⟨h.monotone, h.lawful, h.increasing, h.reached⟩
  have hduring : During s₀ s.floor s₀ := ⟨rfl, rfl, rfl, h₀⟩
  apply Act.run_state
  apply wp_advanceBeforeActivation (loadsFloor_counter s₀) (storesFloor_counter s₀) hduring
  · rintro s' (hs' | ⟨-, hs'⟩)
    · exact hs'.lawful
    · exact hs'.lawful
  · rintro e s' (hs' | ⟨-, hs'⟩)
    · exact hs'.lawful
    · exact hs'.lawful
  · intro hnewer s' hs'
    refine (Prog.wp_call _ _ s').mpr ⟨hs'.lawful, fun d => ?_⟩
    have hactivated := hs'.activate h₀ hnewer
    cases d with
    | none => exact hactivated
    | some d =>
      simp only [Machine.exec, counter]
      rcases d.reply with _ | _ | ⟨⟩
      · exact hactivated
      · exact hactivated
      · exact hactivated

/-- The floor never decreases, an activation happens for a candidate above the floor before its call
and while the floor is that candidate, and the versions of the activations increase. -/
theorem calls_lawful (requests : List (UInt32 × List (Option Disturbance)))
    (floor before : Option UInt32) : Lawful (requests.foldl call ⟨floor, before, [], []⟩) := by
  have hfold : ∀ s, Lawful s → Lawful (requests.foldl call s) := by
    induction requests with
    | nil => exact fun s hs => hs
    | cons r requests ih => exact fun s hs => ih _ (hs.call r)
  apply hfold
  constructor
  · simp
  · simp
  · simp
  · simp

/-- The store of the first call reports an error after persisting; its retry is refused. -/
example : (([(5, [none, some ⟨false, some "io", true⟩]), (5, [none]), (6, [none, none, none, none])].foldl
    call ⟨some 4, none, [], []⟩).activations) = [⟨6, some 5, some 6⟩] := by decide

end ThistleOS.AntiRollback
