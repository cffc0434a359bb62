/-
# `TigPool.Conservation` — the ledger conserves every asset at every location

`ledger.post` balances a journal for each asset only.  That no journal moves value
between custody and the protocol is a property of the lists that the operations post,
and it is what the reconciliation of wallets and fee balances rests on.
-/
import TigPool.Service

namespace TigPool

open Basis

namespace Ledger

/-- What the amounts of a journal come to at an asset and location. -/
def across (journal : Journal) (place : Asset × Location) : ℤ :=
  ((journal.amounts.filter fun m => m.1.place = place).map (·.2)).sum

/-- Conservation, for each account, asset and location. -/
structure Conserves (ledger : Ledger) : Prop where
  entries : ∀ a, ledger.balance a = ledger.reconstructed a
  nonneg : ∀ a row, ledger.accounts.lookup a = some row → row.kind ≠ .external → 0 ≤ row.balance
  closed : ∀ asset location, (ledger.accounts.total fun _ row =>
    if row.asset = asset ∧ row.location = location then row.balance else 0) = 0
  backing : ∀ asset location,
    ledger.backing asset location = -ledger.balance (.external location asset)
  journals : ∀ key journal, ledger.journals.lookup key = some journal →
    ∀ place, across journal place = 0

theorem across_eq {journal : Journal} {place : Asset × Location} :
    across journal place = shifted AccountId.place journal.amounts place := by
  unfold across
  induction journal.amounts with
  | nil => rfl
  | cons m rest ih =>
      rw [shifted_cons, List.filter_cons]
      by_cases h : m.1.place = place
      · simp [h, ih]
      · simp [h, ih]

theorem Sound.conserves {ledger : Ledger} (h : ledger.Sound) : ledger.Conserves where
  entries := h.entries
  nonneg _ _ hrow hkind := h.covered hrow hkind
  closed asset location := by
    refine Eq.trans (Table.total_congr fun a row hrow => ?_) (h.closed (asset, location))
    have hnamed := h.named hrow
    have hplace : (row.asset = asset ∧ row.location = location) ↔ a.place = (asset, location) := by
      rw [AccountId.place, ← hnamed, Prod.mk.injEq]
    simp only [hplace]
  backing := h.backing_eq
  journals _ _ hjournal place := across_eq.trans (h.balanced hjournal place)

end Ledger

/-- In every reachable state, corrections included. -/
theorem ledger_conserves {s : Sys} (h : Sys.Reachable Sys.Any s) : s.db.funds.ledger.Conserves :=
  h.lawful.funds.sound.conserves

theorem ledger_conserves_evening : FirstDay.evening.db.funds.ledger.Conserves :=
  ledger_conserves (FirstDay.reachable fun _ _ _ _ _ => trivial)

end TigPool
