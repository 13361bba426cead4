import Mathlib.Data.List.Forall2
import ThistleOS.Component

/-!
# Broadcasts

Parties put packets on the air. A packet may reach any party, any number of times, in any order or not at all, and so
may packets that no party has sent. What a party says is a packet that carries it, and the packets on the air keep
carrying what has been said while the parties go on.
-/

/-- A party answers calls, which may put a packet on the air, and tells what it hears when a packet reaches it. -/
structure Party (Op π μ σ : Type) where
  call : Op → σ → Option π × σ
  hear : π → σ → μ

namespace Party

variable {Op π μ σ ι M : Type}

inductive Event (ι Op π : Type) where
  | call (i : ι) (o : Op)
  | deliver (j : ι) (k : ℕ)
  | foreign (j : ι) (p : π)

structure Air (ι π σ : Type) where
  parties : ι → σ
  packets : List π

section Air

variable [DecidableEq ι]

/-- The air with some parties around it, which answers with what is heard. -/
def air (P : Party Op π μ σ) : Component (Event ι Op π) (fun _ => Option μ) (Air ι π σ) where
  step
    | .call i o, w =>
      (none, ⟨Function.update w.parties i (P.call o (w.parties i)).2, w.packets ++ (P.call o (w.parties i)).1.toList⟩)
    | .deliver j k, w => (w.packets[k]?.map fun p => P.hear p (w.parties j), w)
    | .foreign j p, w => (some (P.hear p (w.parties j)), w)

/-- A record of what the parties say, for `message`, what a call says. -/
def record (message : Op → Option M) (o : Event ι Op π) (_ : Option μ) (said : List (ι × M)) : List (ι × M) :=
  match o with
  | .call i o => said ++ (message o).toList.map (i, ·)
  | _ => said

/-- A call that says something puts a packet on the air that carries it, and the packets of a party go on carrying what
they did while the party answers calls. -/
structure Speaks (P : Party Op π μ σ) (message : Op → Option M) (Carries : σ → M → π → Prop) : Prop where
  sends : ∀ o s, Option.Rel (Carries (P.call o s).2) (message o) (P.call o s).1
  keeps : ∀ o {s m p}, Carries s m p → Carries (P.call o s).2 m p

variable {P : Party Op π μ σ} {message : Op → Option M} {Carries : σ → M → π → Prop}

/-- The packets on the air carry what has been said, one by one. -/
def Carried (Carries : σ → M → π → Prop) (w : Air ι π σ × List (ι × M)) : Prop :=
  List.Forall₂ (fun m p => Carries (w.1.parties m.1) m.2 p) w.2 w.1.packets

lemma Speaks.carried_next (h : P.Speaks message Carries) (o : Event ι Op π) (w : Air ι π σ × List (ι × M))
    (hw : Carried Carries w) : Carried Carries ((P.air.watch (record message)).next o w) := by
  cases o with
  | call i o =>
    have hkept : List.Forall₂
        (fun (m : ι × M) p => Carries (Function.update w.1.parties i (P.call o (w.1.parties i)).2 m.1) m.2 p)
        w.2 w.1.packets := by
      refine hw.imp fun m p hm => ?_
      by_cases hi : m.1 = i
      · subst hi
        rw [Function.update_self]
        exact h.keeps o hm
      · rwa [Function.update_of_ne hi]
    have hsent := h.sends o (w.1.parties i)
    refine List.rel_append hkept ?_
    generalize message o = said, (P.call o (w.1.parties i)).1 = sent at hsent
    cases hsent with
    | none => exact .nil
    | some hm =>
      refine .cons ?_ .nil
      rw [Function.update_self]
      exact hm
  | deliver j k => exact hw
  | foreign j p => exact hw

/-- A packet that reaches a party carries what has been said where the record has its place. -/
theorem Speaks.delivered_along (h : P.Speaks message Carries) (start : ι → σ) (ops : List (Event ι Op π)) :
    (P.air.watch (record message)).Along (fun o w => ∀ j k i m, o = .deliver j k → w.2[k]? = some (i, m) →
      ∃ p, Carries (w.1.parties i) m p ∧ P.air.reply o w.1 = some (P.hear p (w.1.parties j)))
      (⟨start, []⟩, []) ops := by
  have hall : (P.air.watch (record message)).Along (fun _ _ => True) (⟨start, []⟩, []) ops := fun _ _ _ _ => trivial
  have hstart : Carried Carries (⟨start, []⟩, []) := List.Forall₂.nil
  have hcarried := (Component.along_of_preserved (fun o w hw _ => h.carried_next o w hw) hstart hall).1
  refine hcarried.mono fun o w hw j k i m ho hm => ?_
  subst ho
  obtain ⟨hk, hget⟩ := List.getElem?_eq_some_iff.mp hm
  have hk' : k < w.1.packets.length := hw.1.length_eq ▸ hk
  have hmk := hw.1.get hk hk'
  rw [List.get_eq_getElem, List.get_eq_getElem, hget] at hmk
  refine ⟨w.1.packets[k], hmk, ?_⟩
  change w.1.packets[k]?.map _ = _
  rw [List.getElem?_eq_getElem hk', Option.map_some]

end Air

end Party
