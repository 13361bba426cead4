import ThistleOS.FileTree.Frame

/-!
# Requests to the file machine

The file operations as actions on the file machine alone, in an environment in which any of them may
fail and the power may be lost at any time. `err` is what an action makes of an error.
-/

open PowerLoss

namespace FileTree

variable {ν β ε : Type} [DecidableEq ν]

def request (err : IoError → ε) (u : FsUpdate ν β) : Act ε (fsSig ν β) Unit :=
  ExceptT.mk (.call (.update u) fun r => .pure (Except.mapError err r))

def requestRead (err : IoError → ε) (p : List ν) : Act ε (fsSig ν β) (List β) :=
  ExceptT.mk (.call (.read p) fun r => .pure (Except.mapError err r))

def requestExists (p : List ν) : Act ε (fsSig ν β) Bool :=
  ExceptT.mk (.call (.exists? p) fun r => .pure (.ok r))

variable {toErr : IoError → ε} {err : ε → FileTree ν β → Prop} {cut : FileTree ν β → Prop}
  {t t' : FileTree ν β} {u : FsUpdate ν β} {p : List ν} {d : List β}

/-! ### Any environment -/

lemma wp_request {ok : Unit → FileTree ν β → Prop} (hcut : ∀ t', t.Left u t' → cut t')
    (herr : ∀ e t', t.Left u t' → err e t') (hok : ∀ t', t.effect u = .ok t' → ok () t') :
    Act.wp (machine ν β) (request toErr u) ok err cut t := by
  refine Prog.wp_call_of (hcut t (.refl t u)) ?_ ?_ ?_
  · cases heff : t.effect u with
    | ok t' =>
      rw [perform_update_ok heff]
      exact hok t' heff
    | error kind =>
      rw [perform_update_error heff]
      exact herr _ t (.refl t u)
  · intro f t' hd
    exact hcut t' (.inr ⟨f, (congrArg Prod.snd hd).symm⟩)
  · intro f r t' hd
    obtain ⟨hr, rfl⟩ := Prod.mk.inj hd
    split at hr <;> cases hr
    exact herr _ _ (.inr ⟨f, rfl⟩)

/-- A request of an action that works below the paths of `R` only. -/
lemma wp_request_within {R : Set (List ν)} {t₀ : FileTree ν β} {ok : Unit → FileTree ν β → Prop}
    (ht : ChangesBelow R t₀ t) (hu : u.Within R) (hcut : ∀ t', ChangesBelow R t₀ t' → cut t')
    (herr : ∀ e t', ChangesBelow R t₀ t' → err e t')
    (hok : ∀ t', t.effect u = .ok t' → ChangesBelow R t₀ t' → ok () t') :
    Act.wp (machine ν β) (request toErr u) ok err cut t := by
  refine wp_request ?_ ?_ ?_
  · exact fun t' hl => hcut t' (ht.trans (hl.changesBelow hu))
  · exact fun e t' hl => herr e t' (ht.trans (hl.changesBelow hu))
  · exact fun t' heff => hok t' heff (ht.trans (effect_changesBelow heff hu))

lemma wp_requestRead {ok : List β → FileTree ν β → Prop} (hcut : cut t) (herr : ∀ e, err e t)
    (hok : ∀ d, t.readFile p = .ok d → ok d t) :
    Act.wp (machine ν β) (requestRead toErr p) ok err cut t := by
  refine Prog.wp_call_of hcut ?_ ?_ ?_
  · cases hr : t.readFile p with
    | ok d =>
      rw [perform_read_ok hr]
      exact hok d hr
    | error kind =>
      rw [perform_read_error hr]
      exact herr _
  · intro f t' hd
    obtain rfl := congrArg Prod.snd hd
    exact hcut
  · intro f r t' hd
    obtain ⟨hr, rfl⟩ := Prod.mk.inj hd
    split at hr <;> cases hr
    exact herr _

lemma wp_requestExists {ok : Bool → FileTree ν β → Prop} (hcut : cut t) (hok : ok (t.exists? p) t) :
    Act.wp (machine ν β) (requestExists p) ok err cut t := by
  refine Prog.wp_call_of hcut hok ?_ ?_
  · intro f t' hd
    obtain rfl := congrArg Prod.snd hd
    exact hcut
  · intro f r t' hd
    obtain ⟨hr, rfl⟩ := Prod.mk.inj hd
    split at hr <;> cases hr
    exact hok

/-! ### No disturbance -/

lemma perform_request_eq (u : FsUpdate ν β) (t : FileTree ν β) :
    Act.perform (machine ν β) (request toErr u) t =
      (Except.mapError toErr ((machine ν β).perform (.update u) t).1,
        ((machine ν β).perform (.update u) t).2) := rfl

lemma perform_request (h : t.effect u = .ok t') :
    Act.perform (machine ν β) (request toErr u) t = (.ok (), t') := by
  rw [perform_request_eq, perform_update_ok h]
  rfl

lemma perform_requestRead (h : t.readFile p = .ok d) :
    Act.perform (machine ν β) (requestRead toErr p) t = (.ok d, t) := by
  have heq : Act.perform (machine ν β) (requestRead toErr p) t =
      (Except.mapError toErr ((machine ν β).perform (.read p) t).1,
        ((machine ν β).perform (.read p) t).2) := rfl
  rw [heq, perform_read_ok h]
  rfl

lemma perform_requestExists (t : FileTree ν β) (p : List ν) :
    Act.perform (ε := ε) (machine ν β) (requestExists p) t = (.ok (t.exists? p), t) := rfl

end FileTree
