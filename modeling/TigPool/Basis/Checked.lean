/-
# `Basis.Checked` — reading back what a run of checks has established

A transaction is a sequence of checks and lookups that either fails with an
error or returns a value.  `require` is a check, `fetch` a lookup that must
find something.  The lemmas turn "the whole sequence returned" into the
conjunction of what each of its lines established, which is the only way this
development ever looks inside such a sequence.
-/
import Mathlib.Init

namespace Basis

universe u

variable {ε : Type*} {α β : Type u} {e : ε}

/-- Go on if the condition holds, otherwise fail with the error. -/
def require (p : Prop) [Decidable p] (e : ε) : Except ε Unit :=
  if p then .ok () else .error e

/-- Go on with the value if there is one, otherwise fail with the error. -/
def fetch (o : Option α) (e : ε) : Except ε α :=
  match o with
  | some a => .ok a
  | none => .error e

@[simp] theorem require_eq_ok {p : Prop} [Decidable p] {u : Unit} :
    require p e = .ok u ↔ p := by
  unfold require
  split <;> simp_all

@[simp] theorem fetch_eq_ok {o : Option α} {a : α} : fetch o e = .ok a ↔ o = some a := by
  cases o <;> simp [fetch]

@[simp] theorem bind_eq_ok {x : Except ε α} {f : α → Except ε β} {b : β} :
    (x >>= f) = .ok b ↔ ∃ a, x = .ok a ∧ f a = .ok b := by
  cases x <;> simp [bind, Except.bind]

/-- A conditional line in the middle of a sequence. -/
@[simp] theorem ite_bind_eq_ok {p : Prop} [Decidable p] {x y : Except ε α}
    {f : α → Except ε β} {b : β} :
    (if p then x >>= f else y >>= f) = .ok b ↔
      ∃ a, (if p then x else y) = .ok a ∧ f a = .ok b := by
  split <;> exact bind_eq_ok

@[simp] theorem pure_eq_ok {a b : α} : (pure a : Except ε α) = .ok b ↔ a = b := by
  simp [pure, Except.pure]

/-- Every result of a traversal comes from an element. -/
theorem mem_of_mapM_ok {β : Type*} {f : α → Except ε β} {xs : List α} : ∀ {ys : List β},
    xs.mapM f = .ok ys → ∀ y ∈ ys, ∃ x ∈ xs, f x = .ok y := by
  induction xs with
  | nil =>
      intro ys h y hy
      rw [List.mapM_nil, pure_eq_ok] at h
      rw [← h] at hy
      cases hy
  | cons x xs ih =>
      intro ys h y hy
      simp only [List.mapM_cons, bind_eq_ok, pure_eq_ok] at h
      obtain ⟨z, hz, zs, hzs, rfl⟩ := h
      rcases List.mem_cons.mp hy with rfl | hy
      · exact ⟨x, List.mem_cons_self .., hz⟩
      · obtain ⟨x', hx', hy'⟩ := ih hzs y hy
        exact ⟨x', List.mem_cons_of_mem _ hx', hy'⟩

/-- A traversal goes through its list in step with its results. -/
theorem map_of_mapM_ok {β γ : Type*} {f : α → Except ε β} {g : α → γ} {g' : β → γ}
    (hf : ∀ x y, f x = .ok y → g' y = g x) {xs : List α} : ∀ {ys : List β},
    xs.mapM f = .ok ys → ys.map g' = xs.map g := by
  induction xs with
  | nil =>
      intro ys h
      rw [List.mapM_nil, pure_eq_ok] at h
      rw [← h]
      rfl
  | cons x xs ih =>
      intro ys h
      simp only [List.mapM_cons, bind_eq_ok, pure_eq_ok] at h
      obtain ⟨z, hz, zs, hzs, rfl⟩ := h
      rw [List.map_cons, List.map_cons, hf x z hz, ih hzs]

/-- A list of checks passes if each does. -/
theorem forM_eq_ok {β : Type*} {f : β → Except ε PUnit} {xs : List β} {u : PUnit} :
    xs.forM f = .ok u ↔ ∀ x ∈ xs, f x = .ok u := by
  induction xs with
  | nil => simp
  | cons x xs ih =>
      rw [List.forall_mem_cons, ← ih]
      exact bind_eq_ok.trans ⟨fun ⟨_, hx, hxs⟩ => ⟨hx, hxs⟩, fun ⟨hx, hxs⟩ => ⟨_, hx, hxs⟩⟩

/-- A test that was made and said yes. -/
def saysYes : Except ε Bool → Bool
  | .ok b => b
  | .error _ => false

theorem filterAuxM_eq_ok {β : Type} {f : β → Except ε Bool} {xs : List β} :
    ∀ {acc ys : List β}, List.filterAuxM f xs acc = .ok ys ↔
      (∀ x ∈ xs, ∃ b, f x = .ok b) ∧ ys = (xs.filter fun x => saysYes (f x)).reverse ++ acc := by
  induction xs with
  | nil =>
      intro acc ys
      rw [List.filterAuxM, pure_eq_ok, eq_comm]
      simp
  | cons x xs ih =>
      intro acc ys
      rw [List.filterAuxM, bind_eq_ok]
      cases hx : f x with
      | error e => simp [hx]
      | ok b => cases b <;> simp [ih, hx, saysYes]

/-- A filter whose test may fail goes by the answers of its test. -/
theorem filterM_eq_ok {β : Type} {f : β → Except ε Bool} {xs ys : List β} :
    xs.filterM f = .ok ys ↔
      (∀ x ∈ xs, ∃ b, f x = .ok b) ∧ ys = xs.filter fun x => saysYes (f x) := by
  change (List.filterAuxM f xs [] >>= fun ys => pure ys.reverse) = .ok ys ↔ _
  simp only [bind_eq_ok, filterAuxM_eq_ok, pure_eq_ok, List.append_nil]
  constructor
  · rintro ⟨_, ⟨hx, rfl⟩, rfl⟩
    exact ⟨hx, List.reverse_reverse _⟩
  · rintro ⟨hx, rfl⟩
    exact ⟨_, ⟨hx, rfl⟩, List.reverse_reverse _⟩

theorem eq_ok_of_toOption {x : Except ε α} {a : α} (h : x.toOption = some a) : x = .ok a := by
  cases x with
  | ok value => exact congrArg Except.ok (Option.some.inj h)
  | error e => cases h

/-- A computation that is seen to succeed returns what it returns. -/
theorem eq_ok_getD {x : Except ε α} {a : α} (h : x.toOption.isSome = true) :
    x = .ok (x.toOption.getD a) := by
  cases x with
  | ok value => rfl
  | error e => cases h

@[simp] theorem throw_ne_ok {a : α} : (throw e : Except ε α) ≠ .ok a := by
  simp [throw, throwThe, MonadExceptOf.throw]

end Basis
