/-
# `TigPool.Invariant` — everything that holds of the funds, together

`Funds.Lawful` collects the invariants of the preceding modules; every step
preserves it, and so does every path.  That the ledger agrees with the books
(`Reconciled`) is kept apart, because an operator's correction is the one step that
may break it.
-/
import TigPool.Credits

namespace TigPool

open Basis

namespace Funds

structure Lawful (f : Funds) : Prop where
  rows : f.LawfulRows
  sound : f.ledger.Sound
  explained : f.Explained
  paid : f.Paid
  evidenced : f.Evidenced
  linked : f.LinkedBalance
  slots : ∀ m, f.slots m ≤ 2
  pending : OnePending f.withdrawals
  priced : f.Priced
  weekly : f.Weekly
  credits : f.Credits

theorem Lawful.empty : empty.Lawful where
  rows := .empty
  sound := .empty
  explained := .empty
  paid := .empty
  evidenced := .empty
  linked := rfl
  slots _ := Nat.zero_le _
  pending _ _ _ _ h := by cases h
  priced := .empty
  weekly := .empty
  credits := .empty

variable {f f' : Funds} {c : Change} {L : Change → Prop}

theorem Step.sound (hs : f.ledger.Sound) (h : Step f c f') : f'.ledger.Sound := by
  cases h with
  | opened hnone => exact hs.opened hnone
  | corrected hpost hbalanced => exact hs.posted hpost hbalanced
  | nativeFunded _ _ hr => exact hs.recorded hr
  | received _ _ hr => exact hs.recorded hr
  | attributed _ _ _ _ hr => exact hs.recorded hr
  | rewarded _ _ _ _ _ _ _ _ hr => exact hs.recorded hr
  | reserved _ _ _ _ _ _ hr => exact hs.recorded hr
  | accepted _ _ _ _ hr => exact hs.recorded hr
  | unstarted _ _ _ hr hr' => exact (hs.recorded hr).recorded hr'
  | unhanded _ _ _ hr => exact hs.recorded hr
  | finalized _ _ _ _ _ hr => exact hs.recorded hr
  | reimbursed _ _ _ hr => exact hs.recorded hr
  | settled _ _ _ _ _ _ _ _ hr => exact hs.recorded hr
  | requested _ _ _ _ _ _ _ _ hr => exact hs.recorded hr
  | released _ _ _ hr => exact hs.recorded hr
  | begun _ _ _ _ _ _ _ _ _ _ _ hr => exact hs.recorded hr
  | unpaid _ _ _ _ _ _ _ _ _ hr => exact hs.recorded hr
  | paid _ _ _ _ _ _ _ _ _ _ _ _ _ _ _ _ _ hr => exact hs.recorded hr
  | topupBegun _ _ _ _ hr => exact hs.recorded hr
  | topupReconciled _ _ _ _ _ hr => exact hs.recorded hr
  | topupCredited _ _ _ _ _ _ _ _ _ _ _ hr => exact hs.recorded hr
  | streamOpened _ hr => exact hs.recorded hr
  | protocolOpened _ hr => exact hs.recorded hr
  | mainnetOpened _ _ _ _ _ _ hr => exact hs.recorded hr
  | _ => exact hs

theorem Lawful.step (hf : f.Lawful) (h : Step f c f') : f'.Lawful where
  rows := hf.rows.step h
  sound := h.sound hf.sound
  explained := hf.explained.step hf.rows h
  paid := hf.paid.step h
  evidenced := hf.evidenced.step hf.rows h
  linked := hf.linked.step hf.rows hf.evidenced h
  slots := slots_step hf.slots h
  pending := hf.pending.step h
  priced := hf.priced.step hf.rows h
  weekly := hf.weekly.step hf.rows hf.paid hf.evidenced hf.pending h
  credits := hf.credits.step hf.rows h

theorem Path.lawful (h : Path L f f') (hf : f.Lawful) : f'.Lawful :=
  Leads.invariant h hf fun _ _ _ _ hs => hs.step

theorem Path.extends (h : Path L f f') (hf : f.Lawful) : f.Extends f' :=
  Leads.relates h hf .refl .trans (fun _ _ _ _ hs => hs.step) fun _ _ _ _ hs ht =>
    ht.extends hs.rows

theorem Path.reconciled (h : Path L f f') (hf : f.Lawful) (hr : f.Reconciled)
    (hL : ¬ L .corrected) : f'.Reconciled := by
  have hboth : f'.Lawful ∧ f'.Reconciled := by
    refine Leads.invariant (I := fun g => Funds.Lawful g ∧ g.Reconciled) h ⟨hf, hr⟩ ?_
    rintro g c g' hc ⟨hg, hgr⟩ hs
    refine ⟨hg.step hs, hgr.step hg.rows hg.explained hs ?_⟩
    rintro rfl
    exact hL hc
  exact hboth.2

theorem Path.mono {L' : Change → Prop} (h : Path L f f') (hL : ∀ c, L c → L' c) : Path L' f f' :=
  Leads.mono h fun _ => hL

end Funds

end TigPool
