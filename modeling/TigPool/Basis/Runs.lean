/-
# `Basis.Runs` — what holds in every state a system can reach

A system is a relation `step s a s'` between states, labelled by actions.  A run
from `init` takes finitely many steps, each by an action that `allowed` admits in the
state at hand; that is where a result says which actions its runs consist of and
what it takes for granted about the world they come from.  Two rules
are all that is ever used: a property of the initial state that every allowed
step preserves holds in every reachable state, and a reflexive, transitive
relation that every step respects relates any two states of one run.
-/
import Mathlib.Init

namespace Basis

variable {σ α : Type*} {step : σ → α → σ → Prop} {allowed : σ → α → Prop}

/-- `Leads step allowed s t`: allowed actions lead from `s` to `t`. -/
inductive Leads (step : σ → α → σ → Prop) (allowed : σ → α → Prop) (s : σ) : σ → Prop
  | refl : Leads step allowed s s
  | step {t u : σ} {a : α} : Leads step allowed s t → allowed t a → step t a u →
      Leads step allowed s u

theorem Leads.one {s t : σ} {a : α} (ha : allowed s a) (h : step s a t) : Leads step allowed s t :=
  .step .refl ha h

theorem Leads.trans {s t u : σ} (h : Leads step allowed s t) (h' : Leads step allowed t u) :
    Leads step allowed s u := by
  induction h' with
  | refl => exact h
  | step _ ha hs ih => exact .step ih ha hs

/-- Fewer actions, fewer runs. -/
theorem Leads.mono {allowed' : σ → α → Prop} {s t : σ} (h : Leads step allowed s t)
    (hsub : ∀ s a, allowed s a → allowed' s a) : Leads step allowed' s t := by
  induction h with
  | refl => exact .refl
  | step _ ha hs ih => exact .step ih (hsub _ _ ha) hs

/-- The invariant rule. -/
theorem Leads.invariant {I : σ → Prop} {s t : σ} (h : Leads step allowed s t) (h0 : I s)
    (hstep : ∀ s a s', allowed s a → I s → step s a s' → I s') : I t := by
  induction h with
  | refl => exact h0
  | step _ ha hs ih => exact hstep _ _ _ ha ih hs

/-- The rule for two states of one run, under an invariant. -/
theorem Leads.relates {I : σ → Prop} {R : σ → σ → Prop} {s t : σ}
    (h : Leads step allowed s t) (h0 : I s) (hrefl : ∀ s, R s s)
    (htrans : ∀ {s t u}, R s t → R t u → R s u)
    (hinv : ∀ s a s', allowed s a → I s → step s a s' → I s')
    (hstep : ∀ s a s', allowed s a → I s → step s a s' → R s s') : R s t := by
  induction h with
  | refl => exact hrefl s
  | step hl ha hs ih => exact htrans ih (hstep _ _ _ ha (hl.invariant h0 hinv) hs)

/-! ## Runs that keep notes

A condition on a run can depend on what happened earlier in it.  `watch` says what is noted
at a step, from the state before and the action; a condition may then speak of the notes. -/

variable {β : Type*} {watch : σ → α → List β}

/-- A step, and the notes taken at it. -/
inductive Watched (step : σ → α → σ → Prop) (watch : σ → α → List β) :
    σ × List β → α → σ × List β → Prop
  | step {s s' : σ} {a : α} {notes : List β} : step s a s' →
      Watched step watch (s, notes) a (s', watch s a ++ notes)

/-- The invariant rule for runs with notes; the states are those of a run without. -/
theorem Leads.watched {I : σ → List β → Prop} {allowed : σ × List β → α → Prop}
    {t t' : σ × List β} (h : Leads (Watched step watch) allowed t t') (h0 : I t.1 t.2)
    (hstep : ∀ s notes a s', Leads step (fun _ _ => True) t.1 s → allowed (s, notes) a →
      I s notes → step s a s' → I s' (watch s a ++ notes)) :
    Leads step (fun _ _ => True) t.1 t'.1 ∧ I t'.1 t'.2 := by
  refine h.invariant (I := fun u => Leads step (fun _ _ => True) t.1 u.1 ∧ I u.1 u.2)
    ⟨.refl, h0⟩ ?_
  rintro u a u' ha ⟨hrun, hi⟩ hu
  cases hu with
  | step hu => exact ⟨hrun.step trivial hu, hstep _ _ _ _ hrun ha hi hu⟩

end Basis
