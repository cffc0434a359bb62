/-
# `TigPool.Positions` — which rows book on which accounts

Each kind of row books on few kinds of accounts.  What the books say of one account
is then a sum over the rows that can book on it, and everything else drops out.
-/
import TigPool.Service

namespace TigPool

open Basis

/-! ## The accounts of each kind of row -/

def Reservation.books : AccountId → Bool
  | .available _ | .collateral _ | .round _ | .commitment _ | .operator .protocol .TIG
  | .external .protocol .TIG => true
  | _ => false

def Transfer.books : AccountId → Bool
  | .external .custody .TIG | .unattributed | .available _ | .operator .custody .TIG
  | .round _ => true
  | _ => false

def RoundEarnings.books : AccountId → Bool
  | .operator .custody .TIG | .round _ | .available _ => true
  | _ => false

def Withdrawal.books : AccountId → Bool
  | .available _ | .operator .custody .TIG | .withdrawal _ | .external .custody .TIG => true
  | _ => false

def WithdrawalAttempt.books : AccountId → Bool
  | .withdrawalGas _ => true
  | _ => false

def ProtocolTopup.books : AccountId → Bool
  | .operator .custody .TIG | .topup _ _ | .external .custody .TIG | .external .protocol .TIG
  | .operator .protocol .TIG => true
  | _ => false

/-- The accounts of opening balances and opening credits. -/
def openingBooks : AccountId → Bool
  | .external .custody .TIG | .operator .custody .TIG | .external .protocol .TIG
  | .operator .protocol .TIG => true
  | _ => false

namespace Funds

variable {f : Funds} {a : AccountId}

/-- Movements on other accounts do not move this one. -/
theorem moved_elsewhere {books : AccountId → Bool} {m : Movements AccountId}
    (hm : ∀ p ∈ m, books p.1 = true) (ha : books a = false) : moved m a = 0 := by
  refine moved_eq_zero fun p hp hpa => ?_
  rw [← hpa, hm p hp] at ha
  cases ha

theorem bookedReservations_zero (ha : Reservation.books a = false) : f.bookedReservations a = 0 := by
  refine Table.total_eq_zero fun id r _ => moved_elsewhere ?_ ha
  simp [Reservation.position, Reservation.collateralPosition, Reservation.feePosition,
    Reservation.books, operatorFees]

theorem bookedTransfers_zero (hf : f.LawfulRows) (ha : Transfer.books a = false) :
    f.bookedTransfers a = 0 := by
  refine Table.total_eq_zero fun e t ht => moved_elsewhere ?_ ha
  intro p hp
  rcases List.mem_append.mp hp with hp | hp
  · split at hp
    · simp only [receiptMovements, List.mem_cons, List.not_mem_nil, or_false] at hp
      rcases hp with rfl | rfl <;> rfl
    · cases hp
  · cases hb : t.attribution with
    | none =>
        rw [hb] at hp
        cases hp
    | some b =>
        rw [hb] at hp
        simp only [Option.elim, attributionMovements, List.mem_cons, List.not_mem_nil,
          or_false] at hp
        rcases hp with rfl | rfl
        · rfl
        · -- A deposit goes to a member or to the operator, a reward to its round.
          rcases (hf.transfer ht).destination b hb with ⟨hdeposit, -⟩ | ⟨r, -, hdest, -⟩
          · revert hdeposit
            cases b.destination with
            | operator location asset =>
              cases location <;> cases asset <;> simp [depositDestination, Transfer.books]
            | _ => simp [depositDestination, Transfer.books]
          · rw [hdest]
            rfl

theorem bookedEarnings_zero (ha : RoundEarnings.books a = false) : f.bookedEarnings a = 0 := by
  refine Table.total_eq_zero fun n e _ => moved_elsewhere ?_ ha
  cases hs : e.settlement with
  | none => simp [RoundEarnings.position, hs, RoundEarnings.books]
  | some s =>
      simp only [RoundEarnings.position, hs, Option.elim, RoundSettlement.shares, List.mem_append,
        List.mem_cons, List.mem_map, List.not_mem_nil, or_false]
      rintro p ((rfl | rfl) | rfl | rfl | ⟨share, -, rfl⟩) <;> rfl

theorem bookedWithdrawals_zero (ha : Withdrawal.books a = false) : f.bookedWithdrawals a = 0 := by
  refine Table.total_eq_zero fun id w _ => moved_elsewhere ?_ ha
  have hsource : Withdrawal.books (Withdrawals.source w) = true := by
    unfold Withdrawals.source
    split <;> rfl
  simp only [Withdrawal.position, List.mem_cons, List.not_mem_nil, or_false]
  rintro p (rfl | rfl | rfl)
  · exact hsource
  · rfl
  · rfl

theorem bookedAttempts_zero (ha : WithdrawalAttempt.books a = false) : f.bookedAttempts a = 0 := by
  refine Table.total_eq_zero fun id w _ => moved_elsewhere ?_ ha
  simp [WithdrawalAttempt.position, WithdrawalAttempt.books]

theorem bookedTopups_zero (ha : ProtocolTopup.books a = false) : f.bookedTopups a = 0 := by
  refine Table.total_eq_zero fun id t _ => moved_elsewhere ?_ ha
  simp [ProtocolTopup.position, ProtocolTopup.books, operatorFees]

theorem openingPosition_zero {n : ℕ} (ha : openingBooks a = false) :
    moved (openingPosition n) a = 0 :=
  moved_elsewhere (by simp [openingPosition, openingBooks, operatorFees]) ha

theorem bookedOpenings_zero (ha : openingBooks a = false) : f.bookedOpenings a = 0 := by
  have hbaseline : moved (f.openingBaseline.elim [] (·.position)) a = 0 := by
    refine moved_elsewhere ?_ ha
    cases f.openingBaseline <;> simp [OpeningBaseline.position, openingBooks]
  rw [bookedOpenings, hbaseline, Table.total_eq_zero fun _ _ _ => openingPosition_zero ha,
    Table.total_eq_zero fun _ _ _ => openingPosition_zero ha]
  rfl

end Funds

end TigPool
