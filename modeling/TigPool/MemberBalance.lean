/-
# `TigPool.MemberBalance` — what a member can spend, and who can change it

A member's available balance is what the rows say it is: deposits and reward shares,
less collateral that is held or lost and withdrawals that are pending or paid.  It is
never negative, and only a transaction on the member moves it.
-/
import TigPool.Positions

namespace TigPool

open Basis

namespace Funds

/-! ## The four parts -/

/-- The transfers attributed to a member. -/
def depositedBy (f : Funds) (m : Uuid) : ℤ :=
  f.transfers.total fun _ t => t.attribution.elim 0 fun a =>
    if a.destination = available m then (t.amount : ℤ) else 0

/-- The member's shares in settled rounds. -/
def rewardedTo (f : Funds) (m : Uuid) : ℤ :=
  f.roundEarnings.total fun _ e => e.settlement.elim 0 fun s =>
    ((s.memberAllocations.filter fun share => share.1 = m).map (·.2)).sum

/-- The collateral of the member's reservations that is unresolved or forfeited. -/
def stakedBy (f : Funds) (m : Uuid) : ℤ :=
  f.reservations.total fun _ r =>
    if r.memberId = m ∧ (r.collateralOutcome = none ∨ r.collateralOutcome = some .forfeited)
    then (r.amount : ℤ) else 0

/-- The member's withdrawals that are requested, approved, uncertain or paid. -/
def withdrawnBy (f : Funds) (m : Uuid) : ℤ :=
  f.withdrawals.total fun _ w =>
    if w.memberId = some m ∧ (w.state = .requested ∨ w.state = .approved ∨ w.state = .uncertain ∨
      w.state = .paid) then (w.amount : ℤ) else 0

variable {f f' : Funds} {m : Uuid}

theorem mark_available {m' : Uuid} :
    mark (available m') (available m) = if m' = m then 1 else 0 := by
  by_cases h : m' = m
  · rw [h, mark_self, if_pos rfl]
  · rw [mark_of_ne, if_neg h]
    intro heq
    exact h (AccountId.available.inj heq)

theorem booked_reservations : f.bookedReservations (available m) = -f.stakedBy m := by
  rw [bookedReservations, stakedBy, ← Table.total_neg]
  refine Table.total_congr fun id r _ => ?_
  rw [Reservation.position_moved]
  have hother : ∀ a, (∀ m', a ≠ available m') → mark a (available m) = 0 :=
    fun a ha => mark_of_ne (ha m)
  rw [mark_available, hother (held id) (by simp), hother (pot _) (by simp),
    hother operatorFees (by simp [operatorFees]), hother (committedFee id) (by simp),
    hother (.external .protocol .TIG) (by simp)]
  by_cases hm : r.memberId = m
  · cases ho : r.collateralOutcome with
    | none => simp [hm]
    | some o => cases o <;> simp [hm]
  · simp [hm]

theorem booked_transfers : f.bookedTransfers (available m) = f.depositedBy m := by
  refine Table.total_congr fun e t ht => ?_
  have hreceipt : moved (if f.ledger.received e then receiptMovements t.amount else [])
      (available m) = 0 := by
    split <;> simp [receiptMovements]
  rw [Transfer.position, moved_append, hreceipt, zero_add]
  cases t.attribution with
  | none => rfl
  | some a => simp [attributionMovements]

theorem booked_earnings : f.bookedEarnings (available m) = f.rewardedTo m := by
  refine Table.total_congr fun n e _ => ?_
  rw [RoundEarnings.position, moved_append]
  have hcost : ∀ x : ℤ, moved [(AccountId.operator .custody .TIG, -x), (pot n, x)] (available m)
      = 0 := by
    intro x
    simp
  rw [hcost, zero_add]
  cases e.settlement with
  | none => rfl
  | some s =>
      show moved ((pot n, -s.pot) :: s.shares) (available m) = _
      rw [RoundSettlement.shares, moved_cons, moved_cons, if_neg (by simp), if_neg (by simp),
        zero_add, zero_add]
      show moved (s.memberAllocations.map fun a => (available a.1, a.2)) (available m)
        = ((s.memberAllocations.filter fun share => share.1 = m).map (·.2)).sum
      induction s.memberAllocations with
      | nil => rfl
      | cons share rest ih =>
          rw [List.map_cons, moved_cons, List.filter_cons, ih]
          by_cases hm : share.1 = m
          · simp [hm]
          · simp [hm]

theorem booked_withdrawals : f.bookedWithdrawals (available m) = -f.withdrawnBy m := by
  rw [bookedWithdrawals, withdrawnBy, ← Table.total_neg]
  refine Table.total_congr fun id w _ => ?_
  have hsource : Withdrawals.source w = available m ↔ w.memberId = some m := by
    unfold Withdrawals.source
    cases w.memberId <;> simp
  simp only [Withdrawal.position, moved_cons, moved_nil, hsource]
  by_cases hm : w.memberId = some m
  · cases hs : w.state <;> simp [hm, WithdrawalState.isPending]
  · simp [hm]

/-- What the books say a member can spend. -/
theorem booked_available : f.booked (available m) =
    f.depositedBy m + f.rewardedTo m - f.stakedBy m - f.withdrawnBy m := by
  rw [booked, booked_reservations, booked_transfers, booked_earnings, booked_withdrawals,
    bookedAttempts_zero rfl, bookedTopups_zero rfl, bookedOpenings_zero rfl]
  ring

/-! ## Isolation -/

/-- The change may move what the member can spend; `f` is a later state. -/
def Touches (f : Funds) (m : Uuid) : Change → Prop
  | .attributed e a => a = available m ∧
      ∃ t b, f.transfers.lookup e = some t ∧ t.attribution = some b ∧ b.destination = available m
  | .reserved id m' _ => m' = m ∧ ∃ r, f.reservations.lookup id = some r ∧ r.memberId = m
  | .unstarted id _ | .unhanded id _ | .finalized id _ =>
      ∃ r, f.reservations.lookup id = some r ∧ r.memberId = m
  | .settled _ members => m ∈ members
  | .requested _ a | .released _ a => a = available m
  | .corrected => True
  | _ => False

theorem Step.isolated {c : Change} {g g' : Funds} (hl : g.LawfulRows) (h : Step g c g')
    (hext : g'.Extends f) (hm : ¬ f.Touches m c) :
    g'.ledger.balance (available m) = g.ledger.balance (available m) := by
  have hstill : ∀ {key movements ledger}, g.ledger.Recorded key movements ledger →
      moved movements (available m) = 0 →
      ledger.balance (available m) = g.ledger.balance (available m) := by
    intro key movements ledger hr hzero
    rw [hr.balance, hzero, add_zero]
  -- Whose reservation it is can be told from any later state.
  have howner : ∀ {id r}, g.reservations.lookup id = some r →
      (¬ ∃ r, f.reservations.lookup id = some r ∧ r.memberId = m) → r.memberId ≠ m := by
    intro id r hr hnot heq
    obtain ⟨r', hr', hx⟩ := ((h.extends hl).trans hext).reservation hr
    exact hnot ⟨r', hr', hx.memberId.trans heq⟩
  cases h with
  | opened hnone => exact Ledger.balance_opened hnone
  | corrected => exact absurd trivial hm
  | nativeFunded _ _ hr => exact hstill hr (by simp [nativeMovements])
  | received _ _ hr => exact hstill hr (by simp [receiptMovements])
  | @attributed e t a ledger _ _ _ _ hr =>
      refine hstill hr ?_
      obtain ⟨t', ht', hx⟩ := hext.transfer (AList.lookup_insert _)
      have hne : a.destination ≠ available m :=
        fun heq => hm ⟨heq, t', a, ht', hx.attribution a rfl, heq⟩
      simp [attributionMovements, hne]
  | rewarded _ _ _ _ _ _ _ _ hr => exact hstill hr (by simp [attributionMovements])
  | @reserved id r _ _ _ _ _ _ _ _ hr =>
      have hne : r.memberId ≠ m := fun heq => by
        obtain ⟨r', hr', hx⟩ := hext.reservation (AList.lookup_insert _)
        exact hm ⟨heq, r', hr', hx.memberId.trans heq⟩
      exact hstill hr (by simp [reserveMovements, operatorFees, hne])
  | accepted _ _ _ _ hr => exact hstill hr (by simp [feeMovements, operatorFees])
  | unstarted hrow _ _ hr hr' =>
      have hne := howner hrow hm
      rw [hr'.balance, hr.balance]
      simp [feeMovements, resolveMovements, operatorFees, hne]
  | unhanded hrow _ _ hr =>
      have hne := howner hrow hm
      exact hstill hr (by simp [resolveMovements, hne])
  | finalized hrow _ _ _ hdestination hr =>
      have hne := howner hrow hm
      refine hstill hr ?_
      rcases hdestination with ⟨-, rfl⟩ | ⟨-, rfl⟩
      · simp [resolveMovements, hne]
      · simp [resolveMovements]
  | reimbursed _ _ _ hr => exact hstill hr (by simp [reimburseMovements])
  | @settled n e s ledger _ _ _ _ _ _ _ _ hr =>
      refine hstill hr (moved_eq_zero fun p hp heq => hm ?_)
      simp only [settleMovements, RoundSettlement.shares, List.mem_cons, List.mem_map] at hp
      rcases hp with rfl | rfl | ⟨share, hshare, rfl⟩
      · cases heq
      · cases heq
      · exact List.mem_map.mpr ⟨share, hshare, AccountId.available.inj heq⟩
  | requested _ _ _ _ _ _ _ _ hr =>
      have hne := hm
      simp only [Touches] at hne
      exact hstill hr (by simp [requestMovements, hne])
  | released _ _ _ hr =>
      have hne := hm
      simp only [Touches] at hne
      exact hstill hr (by simp [releaseMovements, hne])
  | begun _ _ _ _ _ _ _ _ _ _ _ hr => exact hstill hr (by simp [gasMovements])
  | unpaid _ _ _ _ _ _ _ _ _ hr => exact hstill hr (by simp [reconcileMovements])
  | paid _ _ _ _ _ _ _ _ _ _ _ _ _ _ _ _ _ hr => exact hstill hr (by simp [reconcileMovements])
  | topupBegun _ _ _ _ hr => exact hstill hr (by simp [topupMovements])
  | topupReconciled _ _ _ _ _ hr =>
      exact hstill hr (by simp only [topupCashMovements]; split_ifs <;> simp)
  | topupCredited _ _ _ _ _ _ _ _ _ _ _ hr =>
      exact hstill hr (by simp [openingPosition, operatorFees])
  | @streamOpened _ baseline _ _ _ hr =>
      exact hstill hr (by cases baseline <;> simp [OpeningBaseline.position])
  | protocolOpened _ hr => exact hstill hr (by simp [openingPosition, operatorFees])
  | mainnetOpened _ _ _ _ _ _ hr => exact hstill hr (by simp [openingPosition, operatorFees])
  | _ => rfl

/-- A path of changes that do not touch the member leaves the balance. -/
theorem Path.isolated {L : Change → Prop} {g g' : Funds} (h : Path L g g') (hg : g.Lawful)
    (hext : g'.Extends f) (hL : ∀ c, L c → ¬ f.Touches m c) :
    g'.ledger.balance (available m) = g.ledger.balance (available m) := by
  induction h with
  | refl => rfl
  | step hpath hc hs ih =>
      have hlawful := Path.lawful hpath hg
      rw [hs.isolated hlawful.rows hext (hL _ hc), ih ((hs.extends hlawful.rows).trans hext)]

end Funds

/-! ## Every transaction -/

/-- The transaction is one on this member: its reservation, its withdrawal, a deposit
attributed to it, or a settlement that gives it a share.  `f` is the state after. -/
def FundsAction.Concerns (f : Funds) (m : Uuid) : FundsAction → Prop
  | .reserve _ m' _ | .request _ m' => m' = m
  | .releaseUnstarted id | .releaseUnhanded id | .finalizeCollateral id =>
      ∃ r, f.reservations.lookup id = some r ∧ r.memberId = m
  | .release id => ∃ w, f.withdrawals.lookup id = some w ∧ w.memberId = some m
  | .receive e _ | .attributeReviewed e _ | .recordTransfer e =>
      ∃ t a, f.transfers.lookup e = some t ∧ t.attribution = some a ∧ a.destination = available m
  | .allocate _ members => m ∈ members
  | _ => False

/-- `db` is the state before, `db'` the state after. -/
def WorkAction.Concerns (db db' : Db) (m : Uuid) : WorkAction → Prop
  | .reserveNext id => ∃ r, db'.funds.reservations.lookup id = some r ∧ r.memberId = m
  | .cancelUnsent i | .definitiveRejection i => ∃ intent r,
      db.work.protocolOutbox.lookup i = some intent ∧
      db.funds.reservations.lookup intent.reservationId = some r ∧ r.memberId = m
  | _ => False

def Action.Concerns (db db' : Db) (m : Uuid) : Action → Prop
  | .funds a => a.Concerns db'.funds m
  | .work a => a.Concerns db db' m
  | _ => False

/-- A transaction that can touch what the member can spend is one on the member. -/
theorem Action.concerns_of_touches {s s' : Sys} {a : Action} (hs : s.Lawful) (h : Sys.Step s a s')
    (ha : a ≠ .funds .correct) {m : Uuid} {c : Change} (hc : a.does s.db c)
    (hm : s'.db.funds.Touches m c) : a.Concerns s.db s'.db m := by
  have hquiet : ¬ c.Quiet := fun hq => by cases c <;> simp_all [Change.Quiet, Funds.Touches]
  cases a with
  | funds a =>
      have hdoes := hc.resolve_left hquiet
      cases a with
      | correct => exact absurd rfl ha
      | release id =>
          obtain ⟨w, hw, rfl⟩ := hdoes
          obtain ⟨w', hw', hx⟩ := (h.extends hs).withdrawal hw
          refine ⟨w', hw', hx.memberId.trans ?_⟩
          have hsource : Withdrawals.source w = available m := hm
          unfold Withdrawals.source at hsource
          cases hmember : w.memberId <;> simp_all
      | releaseUnstarted id =>
          obtain ⟨_, rfl, -⟩ := hdoes
          exact hm
      | releaseUnhanded id =>
          obtain ⟨_, rfl, -⟩ := hdoes
          exact hm
      | finalizeCollateral id =>
          obtain ⟨_, rfl⟩ := hdoes
          exact hm
      | recordTransfer e =>
          rcases hdoes with rfl | ⟨b, rfl⟩
          · exact absurd hm (by simp [Funds.Touches])
          · exact hm.2
      | receive e b =>
          rcases hdoes with rfl | rfl
          · exact absurd hm (by simp [Funds.Touches])
          · exact hm.2
      | attributeReviewed e b =>
          obtain rfl : c = .attributed e b := hdoes
          exact hm.2
      | reserve id m' n =>
          obtain rfl : c = .reserved id m' n := hdoes
          exact hm.1
      | request id m' =>
          obtain rfl : c = .requested id (available m') := hdoes
          exact AccountId.available.inj hm
      | allocate n members =>
          obtain rfl : c = .settled n members := hdoes
          exact hm
      | reconcile aid out =>
          obtain ⟨_, rfl⟩ := hdoes
          exact absurd hm id
      | reconcileSponsored aid =>
          obtain ⟨_, rfl⟩ := hdoes
          exact absurd hm id
      | initializeCredit =>
          obtain ⟨_, rfl⟩ := hdoes
          exact absurd hm id
      | creditMainnetTopup =>
          obtain ⟨_, rfl⟩ := hdoes
          exact absurd hm id
      | initializeStream =>
          rcases hdoes with rfl | rfl <;> exact absurd hm id
      | _ => simp_all [FundsAction.does, Funds.Touches]
  | work a =>
      have hdoes := hc.resolve_left hquiet
      have hcancel : ∀ {i}, (∃ row intent, Submissions.locked s.db i = .ok (row, intent) ∧
          c = .unstarted intent.reservationId row.memberId) →
          ∃ intent r, s.db.work.protocolOutbox.lookup i = some intent ∧
            s.db.funds.reservations.lookup intent.reservationId = some r ∧ r.memberId = m := by
        rintro i ⟨row, intent, hlocked, rfl⟩
        obtain ⟨hintent, hrow⟩ := Submissions.locked_spec hlocked
        obtain ⟨r, hr, howner⟩ := hm
        obtain ⟨r', hr', hx⟩ := (h.extends hs).reservation hrow
        obtain rfl := Option.some.inj (hr.symm.trans hr')
        exact ⟨intent, row, hintent, hrow, hx.memberId.symm.trans howner⟩
      cases a with
      | reserveNext id =>
          obtain ⟨_, _, _, -, rfl⟩ := hdoes
          exact hm.2
      | cancelUnsent i => exact hcancel hdoes
      | definitiveRejection i => exact hcancel hdoes
      | begin i =>
          obtain ⟨_, rfl⟩ := hdoes
          exact absurd hm id
      | _ => simp_all [WorkAction.does, Funds.Touches]
  | hold => exact absurd hc hquiet
  | _ => exact absurd hc id

/-! ## The member's balance -/

/-- In every state that transactions other than corrections reach, a member's available
balance is what the rows make it, it is not negative, and only transactions on the
member change it. -/
theorem member_balance {s : Sys} (h : Sys.Reachable Sys.Uncorrected s) (m : Uuid) :
    s.db.funds.ledger.balance (available m)
      = s.db.funds.depositedBy m + s.db.funds.rewardedTo m - s.db.funds.stakedBy m
        - s.db.funds.withdrawnBy m ∧
    0 ≤ s.db.funds.ledger.balance (available m) ∧
    ∀ a s', a ≠ .funds .correct → Sys.Step s a s' → ¬ a.Concerns s.db s'.db m →
      s'.db.funds.ledger.balance (available m) = s.db.funds.ledger.balance (available m) := by
  have hf := h.lawful.funds
  refine ⟨?_, hf.sound.balance_nonneg (by simp [AccountId.identity]), ?_⟩
  · have htracked : Funds.Tracked (available m) := ⟨by simp, by simp⟩
    rw [h.reconciled _ htracked, Funds.booked_available]
  · intro a s' ha hs hm
    exact Funds.Path.isolated (hs.path h.lawful) hf (.refl _) fun c hc htouch =>
      hm (Action.concerns_of_touches h.lawful hs ha hc htouch)

/-- The member of the first day has deposited 1000 TIG, staked 10 and asked for 3. -/
theorem member_balance_evening :
    FirstDay.evening.db.funds.ledger.balance (available "member") = 987 * tig ∧
    (FirstDay.evening.db.funds.ledger.balance (available "member")
      = FirstDay.evening.db.funds.depositedBy "member" + FirstDay.evening.db.funds.rewardedTo "member"
        - FirstDay.evening.db.funds.stakedBy "member"
        - FirstDay.evening.db.funds.withdrawnBy "member") :=
  ⟨by decide +kernel,
    (member_balance (FirstDay.reachable fun _ _ ha _ _ => ha) "member").1⟩

end TigPool
