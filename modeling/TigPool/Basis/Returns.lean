/-
# `Basis.Returns` — what a computation that may fail returns

`Returns Q x` says that whatever `x` returns satisfies `Q`; nothing is said of its errors.
The rules follow a sequence line by line: a line whose result does not matter is passed over
with `after`, a line of which something is known with `step`.
-/
import TigPool.Basis.Checked

namespace Basis

universe u

variable {ε : Type*} {α β : Type u} {P Q : α → Prop}

def Returns (Q : α → Prop) (x : Except ε α) : Prop :=
  ∀ a, x = .ok a → Q a

namespace Returns

theorem ok {a : α} (h : Q a) : Returns Q (.ok a : Except ε α) := by
  rintro _ ⟨⟩
  exact h

theorem error {e : ε} : Returns Q (.error e : Except ε α) := nofun

theorem mono {x : Except ε α} (h : Returns P x) (hPQ : ∀ a, P a → Q a) : Returns Q x :=
  fun a ha => hPQ a (h a ha)

theorem step {R : β → Prop} {x : Except ε β} {f : β → Except ε α} (hx : Returns R x)
    (hf : ∀ b, R b → Returns Q (f b)) : Returns Q (x >>= f) := by
  intro a h
  obtain ⟨b, hb, ha⟩ := bind_eq_ok.mp h
  exact hf b (hx b hb) a ha

theorem after {x : Except ε β} {f : β → Except ε α} (hf : ∀ b, Returns Q (f b)) :
    Returns Q (x >>= f) :=
  step (R := fun _ => True) (fun _ _ => trivial) fun b _ => hf b

theorem ite {p : Prop} [Decidable p] {x y : Except ε α} (hx : Returns Q x) (hy : Returns Q y) :
    Returns Q (if p then x else y) := by
  split
  · exact hx
  · exact hy

/-- A conditional line whose result does not matter. -/
theorem afterIf {p : Prop} [Decidable p] {x y : Except ε β} {f : β → Except ε α}
    (hf : ∀ b, Returns Q (f b)) : Returns Q (if p then x >>= f else y >>= f) :=
  ite (after hf) (after hf)

theorem map {f : β → α} {x : Except ε β} (h : Returns (fun b => Q (f b)) x) :
    Returns Q (x.map f) := by
  cases x with
  | error e => exact error
  | ok b => exact ok (h b rfl)

theorem elim {γ : Type*} {o : Option γ} {x : Except ε α} {f : γ → Except ε α} (hx : Returns Q x)
    (hf : ∀ c, Returns Q (f c)) : Returns Q (o.elim x f) := by
  cases o with
  | none => exact hx
  | some c => exact hf c

end Returns

end Basis
