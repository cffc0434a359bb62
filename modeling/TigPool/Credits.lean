/-
# `TigPool.Credits` — what TIG has confirmed, and who was credited for it

Protocol balance is credited on TIG's word: for the starter grant, for a top-up made
before the pool ran, and for each top-up the pool has sent.  TIG's word is on record
in `topupFacts`, and as long as TIG has not contradicted itself every capture agrees
with it.  `Credits` says that each credit rests on such a fact, and that no two
top-ups of the pool are credited for the same one.
-/
import TigPool.Limits

namespace TigPool

open Basis

namespace Funds

variable {f f' : Funds} {c : Change}

/-- TIG has confirmed the top-up as this event of this transaction. -/
def Confirmed (f : Funds) (topupId txHash : String) (logIndex : ℕ) : Prop :=
  ∃ row, f.topupFacts.lookup topupId = some row ∧ row.facts.txHash = txHash ∧
    row.facts.logIndex = logIndex

theorem Confirmed.mono (h : f.Extends f') {topupId txHash : String} {logIndex : ℕ}
    (hc : f.Confirmed topupId txHash logIndex) : f'.Confirmed topupId txHash logIndex := by
  obtain ⟨row, hrow, hfacts⟩ := hc
  exact ⟨row, h.topupFact.lookup hrow, hfacts⟩

/-- A top-up is one event of one transaction. -/
theorem Confirmed.unique {topupId txHash txHash' : String} {logIndex logIndex' : ℕ}
    (h : f.Confirmed topupId txHash logIndex) (h' : f.Confirmed topupId txHash' logIndex') :
    txHash = txHash' ∧ logIndex = logIndex' := by
  obtain ⟨row, hrow, rfl, rfl⟩ := h
  obtain ⟨row', hrow', rfl, rfl⟩ := h'
  obtain rfl := Option.some.inj (hrow.symm.trans hrow')
  exact ⟨rfl, rfl⟩

theorem Confirmed.of_map {topupId txHash : String} {logIndex : ℕ} {topup : ConfirmedTopup}
    (h : (f.topupFacts.lookup topupId).map (·.facts) = some topup) (htx : topup.txHash = txHash)
    (hlog : topup.logIndex = logIndex) : f.Confirmed topupId txHash logIndex := by
  obtain ⟨row, hrow, rfl⟩ := Option.map_eq_some_iff.mp h
  exact ⟨row, hrow, htx, hlog⟩

structure Credits (f : Funds) : Prop where
  known : f.fundingAlerts = [] → CapturesKnown f.fundingCaptures f.topupFacts
  opening : ∀ {topupId credit}, f.mainnetOpeningCredits.lookup topupId = some credit →
    f.Confirmed topupId credit.txHash credit.logIndex
  credit : ∀ {id u credit}, f.protocolTopups.lookup id = some u → u.credit = some credit →
    f.Confirmed credit.topupId credit.transferEvent.txHash credit.transferEvent.logIndex ∧
      ∃ s p, f.custodySends.lookup id = some s ∧ s.payment = some p ∧
        p.transferEvent = some credit.transferEvent
  once : ∀ {id id' u u' credit credit'}, f.protocolTopups.lookup id = some u →
    f.protocolTopups.lookup id' = some u' → u.credit = some credit → u'.credit = some credit' →
      (credit.topupId = credit'.topupId ∨ credit.transferEvent = credit'.transferEvent) → id = id'

theorem Credits.empty : empty.Credits where
  known _ _ _ _ h := by cases h
  opening h := by cases h
  credit h := by cases h
  once h := by cases h

theorem Credits.step (hl : f.LawfulRows) (hc : f.Credits) (h : Step f c f') : f'.Credits := by
  have hext := h.extends hl
  refine ⟨?_, ?_, ?_, ?_⟩
  · cases h with
    | fundingRecorded halerts _ _ hknown =>
        exact fun hnone => hknown hnone (hc.known (halerts hnone))
    | _ => exact hc.known
  · intro topupId credit hrow
    have hold : f.mainnetOpeningCredits.lookup topupId = some credit →
        f'.Confirmed topupId credit.txHash credit.logIndex :=
      fun hrow => (hc.opening hrow).mono hext
    cases h with
    | mainnetOpened _ _ halerts hfact htx hlog =>
        rcases Table.lookup_insert_cases hrow with ⟨rfl, rfl⟩ | ⟨-, hrow⟩
        · exact (Confirmed.of_map (hfact (hc.known halerts)) htx hlog).mono hext
        · exact hold hrow
    | _ => exact hold hrow
  · intro id u credit hu hcredit
    have hold : ∀ {u₀}, f.protocolTopups.lookup id = some u₀ → u₀.credit = some credit →
        f'.Confirmed credit.topupId credit.transferEvent.txHash credit.transferEvent.logIndex ∧
          ∃ s p, f'.custodySends.lookup id = some s ∧ s.payment = some p ∧
            p.transferEvent = some credit.transferEvent := by
      intro u₀ hu₀ hcredit₀
      obtain ⟨hconfirmed, s, p, hs, hp, hevent⟩ := hc.credit hu₀ hcredit₀
      obtain ⟨s', hs', hx⟩ := hext.send hs
      exact ⟨hconfirmed.mono hext, s', p, hs', hx.payment p hp, hevent⟩
    cases h with
    | topupBegun _ _ hnone =>
        rcases Table.lookup_insert_cases hu with ⟨rfl, rfl⟩ | ⟨-, hu⟩
        · rw [hnone] at hcredit
          cases hcredit
        · exact hold hu hcredit
    | topupReconciled hu₀ =>
        rcases Table.lookup_insert_cases hu with ⟨rfl, rfl⟩ | ⟨-, hu⟩
        · exact hold hu₀ hcredit
        · exact hold hu hcredit
    | topupCredited hu₀ _ _ hs hp hevent _ halerts hfact htx hlog =>
        rcases Table.lookup_insert_cases hu with ⟨rfl, rfl⟩ | ⟨-, hu⟩
        · obtain rfl := Option.some.inj hcredit
          exact ⟨(Confirmed.of_map (hfact (hc.known halerts)) htx hlog).mono hext, _, _, hs, hp,
            hevent⟩
        · exact hold hu hcredit
    | _ => exact hold hu hcredit
  · intro id id' u u' credit credit' hu hu' hcredit hcredit' hsame
    cases h with
    | topupBegun _ _ hnone =>
        rcases Table.lookup_insert_cases hu with ⟨rfl, rfl⟩ | ⟨-, hold⟩
        · rw [hnone] at hcredit
          cases hcredit
        · rcases Table.lookup_insert_cases hu' with ⟨rfl, rfl⟩ | ⟨-, hold'⟩
          · rw [hnone] at hcredit'
            cases hcredit'
          · exact hc.once hold hold' hcredit hcredit' hsame
    | topupReconciled hu₀ =>
        rcases Table.lookup_insert_cases hu with ⟨rfl, rfl⟩ | ⟨-, hold⟩ <;>
          rcases Table.lookup_insert_cases hu' with ⟨rfl, rfl⟩ | ⟨-, hold'⟩
        · rfl
        · exact hc.once hu₀ hold' hcredit hcredit' hsame
        · exact hc.once hold hu₀ hcredit hcredit' hsame
        · exact hc.once hold hold' hcredit hcredit' hsame
    | topupCredited _ _ _ _ _ _ hfresh =>
        rcases Table.lookup_insert_cases hu with ⟨rfl, rfl⟩ | ⟨-, hold⟩ <;>
          rcases Table.lookup_insert_cases hu' with ⟨rfl, rfl⟩ | ⟨-, hold'⟩
        · rfl
        · obtain rfl := Option.some.inj hcredit
          obtain ⟨htopup, hevent⟩ := hfresh hold' hcredit'
          exact absurd hsame.symm (not_or.mpr ⟨hevent ∘ Eq.symm, htopup ∘ Eq.symm⟩)
        · obtain rfl := Option.some.inj hcredit'
          obtain ⟨htopup, hevent⟩ := hfresh hold hcredit
          exact absurd hsame (not_or.mpr ⟨htopup, hevent⟩)
        · exact hc.once hold hold' hcredit hcredit' hsame
    | _ => exact hc.once hu hu' hcredit hcredit' hsame

end Funds

end TigPool
