/-
# `Basis.Evolution` — how the row under a key changes

A table is never rewritten as a whole.  Between two states of a system the row
under a key stays, is made, or turns into another row; `Evolves` says which
rows can be made and how a row can turn.  A property of rows that made rows have
and turning preserves is then a property of all rows of all reachable states, and
a relation between rows that turning respects relates the rows of any two states
of one run — in particular, rows are never lost.
-/
import TigPool.Basis.Table

namespace Basis

variable {κ α : Type*} {made : α → Prop} {turns : α → α → Prop}

/-- The row under a key stays, is made, or turns into another. -/
inductive Evolves (made : α → Prop) (turns : α → α → Prop) : Option α → Option α → Prop
  | same {o : Option α} : Evolves made turns o o
  | made {a : α} : made a → Evolves made turns none (some a)
  | turned {a b : α} : turns a b → Evolves made turns (some a) (some b)

namespace Evolves

/-- Writing one row leaves the others. -/
theorem insert [DecidableEq κ] {t : Table κ α} {k : κ} {a : α}
    (h : Evolves made turns (t.lookup k) (some a)) (k' : κ) :
    Evolves made turns (t.lookup k') ((AList.insert k a t).lookup k') := by
  rw [Table.lookup_insert_eq]
  split
  next heq => rw [heq]; exact h
  next => exact .same

/-- A property of rows is kept. -/
theorem keeps {P : α → Prop} {o o' : Option α} (h : Evolves made turns o o')
    (hold : ∀ a, o = some a → P a) (hmade : ∀ a, made a → P a)
    (hturns : ∀ a b, P a → turns a b → P b) : ∀ a, o' = some a → P a := by
  cases h with
  | same => exact hold
  | made ha =>
      rintro _ ⟨⟩
      exact hmade _ ha
  | turned hab =>
      rintro _ ⟨⟩
      exact hturns _ _ (hold _ rfl) hab

/-- Rows are never lost, and what turning respects relates the old row to the new. -/
theorem relates {R : α → α → Prop} {o o' : Option α} (h : Evolves made turns o o') {a : α}
    (hrefl : R a a) (hturns : ∀ b, turns a b → R a b) (ha : o = some a) :
    ∃ b, o' = some b ∧ R a b := by
  cases h with
  | same => exact ⟨a, ha, hrefl⟩
  | made => cases ha
  | turned hab =>
      obtain rfl := Option.some.inj ha
      exact ⟨_, rfl, hturns _ hab⟩

/-- Where no row is made, every row has an old version. -/
theorem back {R : α → α → Prop} {o o' : Option α} (h : Evolves (fun _ => False) turns o o') {b : α}
    (hrefl : R b b) (hturns : ∀ a, turns a b → R a b) (hb : o' = some b) :
    ∃ a, o = some a ∧ R a b := by
  cases h with
  | same => exact ⟨b, hb, hrefl⟩
  | made hfalse => exact hfalse.elim
  | turned hab =>
      obtain rfl := Option.some.inj hb
      exact ⟨_, rfl, hturns _ hab⟩

theorem mono {made' : α → Prop} {turns' : α → α → Prop} {o o' : Option α}
    (h : Evolves made turns o o') (hm : ∀ a, made a → made' a)
    (ht : ∀ a b, turns a b → turns' a b) : Evolves made' turns' o o' := by
  cases h with
  | same => exact .same
  | made ha => exact .made (hm _ ha)
  | turned hab => exact .turned (ht _ _ hab)

end Evolves

/-! ## Columns that are filled in once -/

/-- What is known stays known. -/
def Stays (o o' : Option α) : Prop :=
  ∀ a, o = some a → o' = some a

namespace Stays

variable {o o' o'' : Option α}

theorem refl (o : Option α) : Stays o o := fun _ h => h

theorem trans (h : Stays o o') (h' : Stays o' o'') : Stays o o'' := fun a ha => h' a (h a ha)

theorem of_none (h : o = none) : Stays o o' := fun a ha => by
  rw [h] at ha
  cases ha

/-- What is unknown was not known before. -/
theorem eq_none (h : Stays o o') (ho : o' = none) : o = none := by
  cases o with
  | none => rfl
  | some a =>
      rw [h a rfl] at ho
      cases ho

theorem isSome (h : Stays o o') (ho : o.isSome) : o'.isSome := by
  obtain ⟨a, ha⟩ := Option.isSome_iff_exists.mp ho
  rw [h a ha]
  rfl

end Stays

/-! ## Tables that only grow -/

section Tables

variable [DecidableEq κ] {R : α → α → Prop} {t t' t'' : Table κ α}

/-- Every row has a later version under the same key. -/
def Extends (R : α → α → Prop) (t t' : Table κ α) : Prop :=
  ∀ ⦃k a⦄, t.lookup k = some a → ∃ a', t'.lookup k = some a' ∧ R a a'

theorem Extends.refl (hrefl : ∀ a, R a a) : Extends R t t := fun _ a h => ⟨a, h, hrefl a⟩

theorem Extends.trans (h : Extends R t t') (h' : Extends R t' t'')
    (htrans : ∀ a b c, R a b → R b c → R a c) : Extends R t t'' := fun k a ha => by
  obtain ⟨b, hb, hab⟩ := h ha
  obtain ⟨c, hc, hbc⟩ := h' hb
  exact ⟨c, hc, htrans _ _ _ hab hbc⟩

theorem Extends.fresh {k : κ} {a : α} (hrefl : ∀ a, R a a) (h : t.lookup k = none) :
    Extends R t (AList.insert k a t) := fun k' b hb => by
  refine ⟨b, ?_, hrefl b⟩
  rw [Table.lookup_insert_eq, if_neg, hb]
  rintro rfl
  rw [h] at hb
  cases hb

theorem Extends.of_evolves (hrefl : ∀ a, R a a)
    (hturns : ∀ {k a b}, t.lookup k = some a → turns a b → R a b)
    (h : ∀ k, Evolves made turns (t.lookup k) (t'.lookup k)) : Extends R t t' :=
  fun k a ha => (h k).relates (hrefl a) (fun _ => hturns ha) ha

/-- Rows that never change. -/
theorem Extends.lookup {k : κ} {a : α} (h : Extends Eq t t') (ha : t.lookup k = some a) :
    t'.lookup k = some a := by
  obtain ⟨a', ha', rfl⟩ := h ha
  exact ha'

/-- Rows with the property are later versions of rows. -/
def Backs (P : α → Prop) (R : α → α → Prop) (t t' : Table κ α) : Prop :=
  ∀ ⦃k b⦄, t'.lookup k = some b → P b → ∃ a, t.lookup k = some a ∧ R a b

namespace Backs

variable {P : α → Prop}

theorem of_eq (hrefl : ∀ a, R a a) (h : t' = t) : Backs P R t t' := fun _ b hb _ =>
  ⟨b, by rw [← h]; exact hb, hrefl b⟩

theorem trans (h : Backs P R t t') (h' : Backs P R t' t'') (hold : ∀ a b, R a b → P b → P a)
    (htrans : ∀ a b c, R a b → R b c → R a c) : Backs P R t t'' := fun _ c hc hP => by
  obtain ⟨b, hb, hbc⟩ := h' hc hP
  obtain ⟨a, ha, hab⟩ := h hb (hold _ _ hbc hP)
  exact ⟨a, ha, htrans _ _ _ hab hbc⟩

/-- One row is written. -/
theorem put {k : κ} {b : α} (hrefl : ∀ a, R a a) (hput : t' = AList.insert k b t)
    (h : P b → ∃ a, t.lookup k = some a ∧ R a b) : Backs P R t t' := fun k' c hc hP => by
  rw [hput] at hc
  rcases Table.lookup_insert_cases hc with ⟨rfl, rfl⟩ | ⟨-, hc⟩
  · exact h hP
  · exact ⟨c, hc, hrefl c⟩

end Backs

end Tables

end Basis
