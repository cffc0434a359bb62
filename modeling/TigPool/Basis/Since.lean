/-
# `Basis.Since` — what notes say about now

A run keeps notes, the newest first.  Two things are asked of them.  `Since starts ends` says
that something was started and has not been ended since; it speaks of the present.  `Throughout
ok` says that each note was in order when it was taken, in view of those before it; it speaks
of the past, and what it says is never undone by later notes.
-/
import Mathlib.Data.List.Basic

namespace Basis

variable {β : Type*}

/-! ## Since -/

/-- A note started it, and no note has ended it since. -/
inductive Since (starts ends : β → Prop) : List β → Prop
  | here {n : β} {notes : List β} : starts n → Since starts ends (n :: notes)
  | later {n : β} {notes : List β} : Since starts ends notes → ¬ ends n →
      Since starts ends (n :: notes)

namespace Since

variable {starts ends : β → Prop} {n : β} {notes : List β}

/-- It was started. -/
theorem once (h : Since starts ends notes) : ∃ n ∈ notes, starts n := by
  induction h with
  | @here n notes hn => exact ⟨n, List.mem_cons_self .., hn⟩
  | @later m notes _ _ ih =>
      obtain ⟨n, hmem, hn⟩ := ih
      exact ⟨n, List.mem_cons_of_mem _ hmem, hn⟩

theorem cons_iff : Since starts ends (n :: notes) ↔
    starts n ∨ Since starts ends notes ∧ ¬ ends n := by
  constructor
  · intro h
    cases h with
    | here hn => exact .inl hn
    | later h hn => exact .inr ⟨h, hn⟩
  · rintro (hn | ⟨h, hn⟩)
    · exact .here hn
    · exact .later h hn

/-- A note that has nothing to do with it. -/
theorem skip (hs : ¬ starts n) (he : ¬ ends n) :
    Since starts ends (n :: notes) ↔ Since starts ends notes := by
  rw [cons_iff]
  simp [hs, he]

/-- What was ended and not started again does not stand. -/
theorem ended {behind before : List β} (he : ends n) (hn : ¬ starts n)
    (hbehind : ∀ m ∈ behind, ¬ starts m) : ¬ Since starts ends (behind ++ n :: before) := by
  induction behind with
  | nil =>
      intro h
      rcases cons_iff.mp h with h | ⟨-, h⟩
      · exact hn h
      · exact h he
  | cons m behind ih =>
      intro h
      rcases cons_iff.mp h with h | ⟨h, -⟩
      · exact hbehind m (List.mem_cons_self ..) h
      · exact ih (fun k hk => hbehind k (List.mem_cons_of_mem _ hk)) h

end Since

/-! ## Throughout -/

/-- Each note was in order in view of those before it. -/
inductive Throughout (ok : List β → β → Prop) : List β → Prop
  | nil : Throughout ok []
  | cons {n : β} {notes : List β} : Throughout ok notes → ok notes n →
      Throughout ok (n :: notes)

namespace Throughout

variable {ok ok' : List β → β → Prop} {n : β} {notes behind before : List β}

theorem mono (h : Throughout ok notes) (hok : ∀ notes n, ok notes n → ok' notes n) :
    Throughout ok' notes := by
  induction h with
  | nil => exact .nil
  | cons _ hn ih => exact .cons ih (hok _ _ hn)

/-- A part of the past is in order too. -/
theorem suffix (h : Throughout ok notes) (hsub : before <:+ notes) : Throughout ok before := by
  obtain ⟨behind, rfl⟩ := hsub
  induction behind with
  | nil => exact h
  | cons m behind ih =>
      cases h with
      | cons h _ => exact ih h

/-- Whichever note it is. -/
theorem at_note (h : Throughout ok (behind ++ n :: before)) : ok before n := by
  have hsuffix : Throughout ok (n :: before) := h.suffix ⟨behind, rfl⟩
  cases hsuffix with
  | cons _ hn => exact hn

theorem of_mem (h : Throughout ok notes) (hn : n ∈ notes) :
    ∃ behind before, notes = behind ++ n :: before ∧ ok before n := by
  obtain ⟨behind, before, rfl⟩ := List.append_of_mem hn
  exact ⟨behind, before, rfl, h.at_note⟩

/-- What rules itself out among earlier notes happens once. -/
theorem once {p : β → Bool} (h : Throughout ok notes)
    (hok : ∀ before n, ok before n → p n = true → ∀ k ∈ before, p k = false) :
    notes.countP p ≤ 1 := by
  induction h with
  | nil => simp
  | @cons n notes _ hn ih =>
      rw [List.countP_cons]
      split
      next hp =>
        have hnone : notes.countP p = 0 :=
          List.countP_eq_zero.mpr fun k hk => by simp [hok _ _ hn hp k hk]
        omega
      next => omega

end Throughout

end Basis
