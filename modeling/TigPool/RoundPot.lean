/-
# `TigPool.RoundPot` — a round's pot holds what was put into it, until it is settled

Receipts, the operator's reimbursement and forfeited collateral feed a pot; one
settlement empties it.  Nothing reaches a pot after its settlement: receipts and
reimbursements are refused, all collateral of the round is resolved, and new work is
reserved in the round of the newest block, which is at least three rounds later.
-/
import TigPool.Blocks
import TigPool.Dispatch
import TigPool.Positions
import TigPool.SettledCredit

namespace TigPool

open Basis

namespace Funds

variable {f f' : Funds} {c : Change} {n : ℕ}

/-! ## What the rows say is in a pot -/

/-- What a settlement took out of the pot. -/
def settledFrom (f : Funds) (n : ℕ) : ℤ :=
  (f.roundEarnings.lookup n).elim 0 fun e => e.settlement.elim 0 (·.pot)

theorem mark_pot {n' : ℕ} : mark (pot n') (pot n) = if n' = n then 1 else 0 := by
  by_cases h : n' = n
  · rw [h, mark_self, if_pos rfl]
  · rw [mark_of_ne, if_neg h]
    intro heq
    exact h (AccountId.round.inj heq)

theorem bookedReservations_pot (hf : f.LawfulRows) :
    f.bookedReservations (pot n) = f.forfeitedTo n := by
  rw [bookedReservations, forfeitedTo, Table.total_natCast]
  refine Table.total_congr fun id r hr => ?_
  have hlawful := hf.reservation hr
  rw [Reservation.position_moved, mark_pot]
  have hother : ∀ a, a ≠ pot n → mark a (pot n) = 0 := fun a ha => mark_of_ne ha
  rw [hother (available _) (by simp), hother (held id) (by simp),
    hother operatorFees (by simp [operatorFees]), hother (committedFee id) (by simp),
    hother (.external .protocol .TIG) (by simp)]
  cases hc : r.finalization with
  | some c =>
      rw [hlawful.shape.finalization_iff hc]
      have hamount := hlawful.finalization c hc
      by_cases hn : r.creationRound = n
      · cases ho : c.outcome <;> simp [hn, hamount, ho]
      · simp [hn]
  | none =>
      have hnot : r.collateralOutcome ≠ some .forfeited := by
        intro ho
        rcases hlawful.shape.outcome_cases ho with ⟨h, -⟩ | ⟨c, h, -⟩
        · cases h
        · rw [hc] at h
          cases h
      simp [hnot]

theorem bookedTransfers_pot (hf : f.LawfulRows) : f.bookedTransfers (pot n) = f.receivedBy n := by
  rw [bookedTransfers, receivedBy, Table.total_natCast]
  refine Table.total_congr fun e t ht => ?_
  have hlawful := hf.transfer ht
  have hreceipt : moved (if f.ledger.received e then receiptMovements t.amount else [])
      (pot n) = 0 := by
    split <;> simp [receiptMovements]
  rw [Transfer.position, moved_append, hreceipt, zero_add]
  cases ha : t.attribution with
  | none => simp [hlawful.receipt ha]
  | some a =>
      rcases hlawful.destination a ha with ⟨hdeposit, hnone⟩ | ⟨r, hr, hdest, hamount⟩
      · have hne : a.destination ≠ pot n := by
          intro heq
          rw [heq] at hdeposit
          cases hdeposit
        simp [hnone, attributionMovements, hne]
      · by_cases hn : r.round = n <;> simp [hr, hdest, attributionMovements, hn, hamount]

theorem bookedEarnings_pot : f.bookedEarnings (pot n) = f.reimbursedTo n - f.settledFrom n := by
  have hterm : ∀ n' e, moved (RoundEarnings.position n' e) (pot n)
      = if n' = n then (e.reimbursement.elim 0 fun r => (r.amount : ℤ)) - e.settlement.elim 0 (·.pot)
        else 0 := by
    intro n' e
    rw [RoundEarnings.position, moved_append]
    have hshares : ∀ s : RoundSettlement, moved s.shares (pot n) = 0 := by
      intro s
      refine moved_eq_zero fun p hp => ?_
      simp only [RoundSettlement.shares, List.mem_cons, List.mem_map] at hp
      rcases hp with rfl | ⟨share, -, rfl⟩ <;> simp
    cases hs : e.settlement <;> cases hr : e.reimbursement <;> by_cases hn : n' = n <;>
      simp [hshares, hn, sub_eq_add_neg]
  rw [bookedEarnings, Table.total_congr fun n' e _ => hterm n' e]
  cases he : f.roundEarnings.lookup n with
  | none =>
      rw [Table.total_eq_zero, reimbursedTo, settledFrom, he]
      · rfl
      · intro n' e he'
        rw [if_neg]
        rintro rfl
        rw [he] at he'
        cases he'
  | some e =>
      rw [Table.total_eq_single he, if_pos rfl, reimbursedTo, settledFrom, he]
      · cases hr : e.reimbursement <;> simp [hr]
      · intro n' e' hne _
        rw [if_neg hne]

/-- What the books say is in a pot. -/
theorem booked_pot (hf : f.LawfulRows) : f.booked (pot n) =
    (f.receivedBy n + f.reimbursedTo n + f.forfeitedTo n : ℕ) - f.settledFrom n := by
  rw [booked, bookedReservations_pot hf, bookedTransfers_pot hf, bookedEarnings_pot,
    bookedWithdrawals_zero rfl, bookedAttempts_zero rfl, bookedTopups_zero rfl,
    bookedOpenings_zero rfl]
  push_cast
  ring

/-! ## A settled pot is closed -/

/-- A settlement took exactly what the pot had received, and nothing more can come. -/
def PotsClosed (f : Funds) : Prop :=
  ∀ ⦃n e s⦄, f.roundEarnings.lookup n = some e → e.settlement = some s →
    s.pot = (f.receivedBy n + f.reimbursedTo n + f.forfeitedTo n : ℕ) ∧
    ∀ id r, f.reservations.lookup id = some r → r.creationRound = n → r.collateralOutcome ≠ none

section

variable {e : RoundEarnings} {s : RoundSettlement}

/-- A settled round receives nothing more. -/
theorem Step.settled_receivedBy (hl : f.LawfulRows) (h : Step f c f')
    (he : f.roundEarnings.lookup n = some e) (hs : e.settlement = some s) :
    f'.receivedBy n = f.receivedBy n := by
  cases h with
  | transferSaved hnone _ _ hreceipt =>
      refine (Table.total_insert_fresh hnone).trans ?_
      simp [receivedBy, hreceipt]
  | attributed ht => exact Table.total_insert_same ht rfl
  | @rewarded _ t _ r _ _ ht _ hnone _ _ he' hopen =>
      refine Table.total_insert_same ht ?_
      have hne : r.round ≠ n := by
        rintro rfl
        obtain rfl := Option.some.inj (he.symm.trans he')
        rw [hs] at hopen
        cases hopen
      simp [(hl.transfer ht).receipt hnone, hne]
  | _ => rfl

/-- Reservations of a settled round are resolved, and stay as they are. -/
theorem Step.settled_forfeitedTo (h : Step f c f')
    (hresolved : ∀ id r, f.reservations.lookup id = some r → r.creationRound = n →
      r.collateralOutcome ≠ none) : f'.forfeitedTo n = f.forfeitedTo n := by
  cases h with
  | reserved hnone hfresh =>
      refine (Table.total_insert_fresh hnone).trans ?_
      simp [forfeitedTo, hfresh.finalization]
  | progressed hr hp => exact Table.total_insert_same hr (by cases hp <;> rfl)
  | accepted hr => exact Table.total_insert_same hr rfl
  | unstarted hr => exact Table.total_insert_same hr rfl
  | unhanded hr => exact Table.total_insert_same hr rfl
  | @finalized id r _ _ _ hr _ hnone =>
      refine Table.total_insert_same hr ?_
      have hne : r.creationRound ≠ n := fun hn => hresolved id r hr hn hnone
      cases r.finalization <;> simp [hne]
  | _ => rfl

end

/-- Every step but a reservation in a settled round keeps the pots closed. -/
theorem PotsClosed.step (hl : f.LawfulRows) (hp : f.PotsClosed) (h : Step f c f')
    (hopen : ∀ id m n, c = .reserved id m n →
      ∀ e, f.roundEarnings.lookup n = some e → e.settlement = none) : f'.PotsClosed := by
  intro n e s he hs
  -- Either the round was settled before, or this step settles it.
  have hcases : (f.roundEarnings.lookup n = some e) ∨
      (s.pot = (f'.receivedBy n + f'.reimbursedTo n + f'.forfeitedTo n : ℕ) ∧
        ∀ id r, f'.reservations.lookup id = some r → r.creationRound = n →
          r.collateralOutcome ≠ none) := by
    cases h with
    | @settled n' e' s' _ he' _ hresolved hpot =>
        rcases Table.lookup_insert_cases he with ⟨rfl, rfl⟩ | ⟨-, he⟩
        · obtain rfl := Option.some.inj hs
          refine Or.inr ⟨?_, fun id r hr hn => hresolved hr hn⟩
          rw [hpot]
          simp only [receivedBy, reimbursedTo, forfeitedTo, AList.lookup_insert, he', Option.elim]
        · exact Or.inl he
    | declared hnone _ hnot =>
        rcases Table.lookup_insert_cases he with ⟨rfl, rfl⟩ | ⟨-, he⟩
        · rw [hnot] at hs
          cases hs
        · exact Or.inl he
    | reimbursed _ _ hnot =>
        rcases Table.lookup_insert_cases he with ⟨rfl, rfl⟩ | ⟨-, he⟩
        · rw [hnot] at hs
          cases hs
        · exact Or.inl he
    | _ => exact Or.inl he
  rcases hcases with he₀ | hnew
  · obtain ⟨hpot, hresolved⟩ := hp he₀ hs
    have hreimbursed : f'.reimbursedTo n = f.reimbursedTo n := by
      rw [reimbursedTo, reimbursedTo, he, he₀]
    refine ⟨?_, fun id r hr hn => ?_⟩
    · rw [h.settled_receivedBy hl he₀ hs, hreimbursed, h.settled_forfeitedTo hresolved]
      exact hpot
    · rcases h.reservation_back hl hr with ⟨r₀, hr₀, hx⟩ | hreserved
      · have hdone := hresolved id r₀ hr₀ (hx.creationRound.symm.trans hn)
        obtain ⟨o, ho⟩ := Option.ne_none_iff_exists'.mp hdone
        rw [hx.outcome o ho]
        exact Option.some_ne_none o
      · rw [hopen id _ _ hreserved e (hn ▸ he₀)] at hs
        cases hs
  · exact hnew

/-- Where the earnings of a round come from. -/
theorem Step.earnings_back (h : Step f c f') {e : RoundEarnings}
    (he : f'.roundEarnings.lookup n = some e) :
    (∃ e₀, f.roundEarnings.lookup n = some e₀) ∨ c = .declared n := by
  cases h with
  | declared =>
      rcases Table.lookup_insert_cases he with ⟨rfl, -⟩ | ⟨-, he⟩
      · exact Or.inr rfl
      · exact Or.inl ⟨e, he⟩
  | reimbursed hx =>
      rcases Table.lookup_insert_cases he with ⟨rfl, -⟩ | ⟨-, he⟩
      · exact Or.inl ⟨_, hx⟩
      · exact Or.inl ⟨e, he⟩
  | settled hx =>
      rcases Table.lookup_insert_cases he with ⟨rfl, -⟩ | ⟨-, he⟩
      · exact Or.inl ⟨_, hx⟩
      · exact Or.inl ⟨e, he⟩
  | _ => exact Or.inl ⟨e, he⟩

/-- Along a path that declares only rounds that are over and reserves only in rounds
that are not. -/
theorem Path.potsClosed {L : Change → Prop} {past : ℕ → Prop} (h : Path L f f') (hf : f.Lawful)
    (hp : f.PotsClosed) (hover : ∀ n e, f.roundEarnings.lookup n = some e → past n)
    (hdeclared : ∀ n, L (.declared n) → past n)
    (hreserved : ∀ id m n, L (.reserved id m n) → ¬ past n) :
    f'.PotsClosed ∧ ∀ n e, f'.roundEarnings.lookup n = some e → past n := by
  have hall : f'.Lawful ∧ f'.PotsClosed ∧ ∀ n e, f'.roundEarnings.lookup n = some e → past n := by
    refine Leads.invariant (I := fun g : Funds => g.Lawful ∧ g.PotsClosed ∧
      ∀ n e, g.roundEarnings.lookup n = some e → past n) h ⟨hf, hp, hover⟩ ?_
    rintro g c g' hc ⟨hg, hp, hover⟩ hs
    refine ⟨hg.step hs, hp.step hg.rows hs ?_, fun n e he => ?_⟩
    · rintro id m n rfl e he
      exact absurd (hover n e he) (hreserved id m n hc)
    · rcases hs.earnings_back he with ⟨e₀, he₀⟩ | rfl
      · exact hover n e₀ he₀
      · exact hdeclared n hc
  exact hall.2

end Funds

/-! ## Rounds that are over -/

/-- A block at least three rounds later has been observed. -/
def RoundOver (db : Db) (n : ℕ) : Prop :=
  ∃ id b, db.observation.blocks.lookup id = some b ∧ n + 3 ≤ b.round

/-- All observed blocks agree on the length of a round. -/
def RoundLength (db : Db) (length : ℕ) : Prop :=
  ∀ id b, db.observation.blocks.lookup id = some b → b.blocksPerRound = length

theorem Settlement.declareEarnings_over {db db' : Db} {round net cost : ℤ} {blockId : String}
    {evidence : Json} {out : RoundEarnings}
    (h : declareEarnings db round net cost blockId evidence = .ok (db', out)) :
    RoundOver db round.toNat := by
  simp only [declareEarnings, Reports.deadline, bind_eq_ok, require_eq_ok, exists_const,
    units_eq_ok, fetch_eq_ok] at h
  obtain ⟨_, ⟨rfl, -⟩, _, -, _, -, -, ⟨b, hb, hover⟩, -⟩ := h
  exact ⟨blockId, b, hb, hover⟩

/-- The newest block is in the latest round. -/
theorem WorkRequests.newestBlock_round {db : Db} {length : ℕ} {id : String} {b : ObservedBlock}
    (hlength : RoundLength db length)
    (hlawful : ∀ {id b}, db.observation.blocks.lookup id = some b → b.Lawful)
    (hnewest : newestBlock db = some (id, b)) : ¬ RoundOver db b.round := by
  rintro ⟨id', b', hb', hover⟩
  obtain ⟨hb, hmax⟩ := newestBlock_spec hnewest
  have hle : b'.height ≤ b.height := hmax id' b' hb'
  have hround := (hlawful hb).round
  have hround' := (hlawful hb').round
  rw [hlength _ _ hb] at hround
  rw [hlength _ _ hb'] at hround'
  have hdiv : b'.height / length ≤ b.height / length := Nat.div_le_div_right (c := length) hle
  omega

namespace Sys

variable {s s' : Sys} {a : Action}

/-- All transactions, but no corrections, and reservations only from the queue. -/
def Queued (_ : Sys) (a : Action) : Prop :=
  a ≠ .funds .correct ∧ ∀ id m n, a ≠ .funds (.reserve id m n)

theorem Step.roundOver (hs : s.Lawful) (h : Step s a s') {n : ℕ} (hn : RoundOver s.db n) :
    RoundOver s'.db n := by
  obtain ⟨id, b, hb, hover⟩ := hn
  obtain ⟨b', hb', hx⟩ := h.blocks_extend hs hb
  exact ⟨id, b', hb', by rw [hx.round]; exact hover⟩

theorem Step.roundLength (hs : s.Lawful) (h : Step s a s') {length : ℕ}
    (hlength : RoundLength s'.db length) : RoundLength s.db length := by
  intro id b hb
  obtain ⟨b', hb', hx⟩ := h.blocks_extend hs hb
  rw [← hx.blocksPerRound]
  exact hlength id b' hb'

theorem Reachable.potsClosed {length : ℕ} (h : Reachable Queued s)
    (hlength : RoundLength s.db length) :
    s.db.funds.PotsClosed ∧ ∀ n e, s.db.funds.roundEarnings.lookup n = some e → RoundOver s.db n := by
  refine Reachable.invariant (I := fun s : Sys => RoundLength s.db length →
    s.db.funds.PotsClosed ∧
      ∀ n e, s.db.funds.roundEarnings.lookup n = some e → RoundOver s.db n) h ?_ ?_ hlength
  · intro s hs _
    refine ⟨fun n e _ he => ?_, fun n e he => ?_⟩
    · rw [hs.funds] at he
      cases he
    · rw [hs.funds] at he
      cases he
  · rintro s a s' ⟨-, hqueued⟩ hs hI hstep hlength'
    have hlength₀ := hstep.roundLength hs.lawful hlength'
    obtain ⟨hclosed, hover⟩ := hI hlength₀
    have hdeclared : ∀ n, a.does s.db (.declared n) → RoundOver s.db n := by
      intro n hdoes
      cases a with
      | funds a =>
          cases a with
          | declareEarnings n' =>
              obtain rfl : n = n' := by
                simpa [Action.does, FundsAction.does, Change.Quiet] using hdoes
              cases hstep with
              | funds hstep =>
                  cases hstep with
                  | declareEarnings hdeclare => exact Settlement.declareEarnings_over hdeclare
          | _ => simp [Action.does, FundsAction.does, Change.Quiet] at hdoes
      | work a => cases a <;> simp [Action.does, WorkAction.does, Change.Quiet] at hdoes
      | _ => simp [Action.does, Change.Quiet] at hdoes
    have hreserved : ∀ id m n, a.does s.db (.reserved id m n) → ¬ RoundOver s.db n := by
      intro id m n hdoes
      cases a with
      | funds a =>
          cases a with
          | reserve id' m' n' => exact absurd rfl (hqueued id' m' n')
          | _ => simp [Action.does, FundsAction.does, Change.Quiet] at hdoes
      | work a =>
          cases a with
          | reserveNext id' =>
              rcases hdoes with hquiet | ⟨_, blockId, block, hnewest, heq⟩
              · exact hquiet.elim
              · obtain ⟨-, -, rfl⟩ := Change.reserved.inj heq
                exact WorkRequests.newestBlock_round hlength₀ hs.block_lawful hnewest
          | _ => simp [Action.does, WorkAction.does, Change.Quiet] at hdoes
      | _ => simp [Action.does, Change.Quiet] at hdoes
    obtain ⟨hclosed', hover'⟩ := Funds.Path.potsClosed (hstep.path hs.lawful) hs.lawful.funds
      hclosed hover hdeclared hreserved
    exact ⟨hclosed', fun n e he => hstep.roundOver hs.lawful (hover' n e he)⟩

theorem Reachable.uncorrected (h : Reachable Queued s) : Reachable Uncorrected s := by
  obtain ⟨s₀, hi, hrun⟩ := h
  exact ⟨s₀, hi, hrun.mono fun _ _ ha => ha.1⟩

end Sys

/-! ## The pot of a round -/

/-- What holds of the pot of a round at any time. -/
structure PotFunded (f : Funds) (n : ℕ) : Prop where
  /-- Until the round settles, the pot holds all that was put into it. -/
  unsettled : (∀ e, f.roundEarnings.lookup n = some e → e.settlement = none) →
    f.ledger.balance (pot n) = (f.receivedBy n + f.reimbursedTo n + f.forfeitedTo n : ℕ)
  settled : ∀ e s, f.roundEarnings.lookup n = some e → e.settlement = some s →
    f.ledger.balance (pot n) = 0
  /-- All that was ever put into a settled pot went to the operator or to a member. -/
  distributed : ∀ e s, f.roundEarnings.lookup n = some e → e.settlement = some s →
    ((f.receivedBy n + f.reimbursedTo n + f.forfeitedTo n : ℕ) : ℤ)
      = s.operatorAllocation + (s.memberAllocations.map (·.2)).sum

/-- In every state that transactions other than corrections reach, if reservations come
from the queue and all rounds are equally long: what is in each pot, that the funding
check of a settlement cannot fail, and that a settlement is for ever. -/
theorem round_pot {s : Sys} {length : ℕ} (h : Sys.Reachable Sys.Queued s)
    (hlength : RoundLength s.db length) (n : ℕ) :
    PotFunded s.db.funds n ∧
    (∀ e account, s.db.funds.roundEarnings.lookup n = some e → e.settlement = none →
      s.db.funds.ledger.accounts.lookup (pot n) = some account →
      account.balance = (((Settlement.receiptsOf s.db n).map (·.2)).sum
        + e.reimbursement.elim 0 (·.amount)
        + ((Settlement.forfeituresOf s.db n).map (·.2)).sum : ℕ)) ∧
    ∀ s', Leads Sys.Step Sys.Any s s' → ∀ e x, s.db.funds.roundEarnings.lookup n = some e →
      e.settlement = some x → ∃ e', s'.db.funds.roundEarnings.lookup n = some e' ∧
        e'.settlement = some x := by
  have hf := h.lawful.funds
  have hbalance : s.db.funds.ledger.balance (pot n)
      = (s.db.funds.receivedBy n + s.db.funds.reimbursedTo n + s.db.funds.forfeitedTo n : ℕ)
        - s.db.funds.settledFrom n := by
    rw [h.uncorrected.reconciled _ ⟨by simp, by simp⟩, Funds.booked_pot hf.rows]
  have hunsettled : (∀ e, s.db.funds.roundEarnings.lookup n = some e → e.settlement = none) →
      s.db.funds.ledger.balance (pot n)
        = (s.db.funds.receivedBy n + s.db.funds.reimbursedTo n + s.db.funds.forfeitedTo n : ℕ) := by
    intro hnone
    rw [hbalance, Funds.settledFrom]
    cases he : s.db.funds.roundEarnings.lookup n with
    | none => simp
    | some e => simp [hnone e he]
  refine ⟨⟨hunsettled, fun e x he hx => ?_, fun e x he hx => ?_⟩,
    fun e account he hnone haccount => ?_,
    fun s' hrun e x he hx => ?_⟩
  · obtain ⟨hpot, -⟩ := (h.potsClosed hlength).1 he hx
    rw [hbalance, Funds.settledFrom, he]
    simp [hx, hpot]
  · obtain ⟨hpot, -⟩ := (h.potsClosed hlength).1 he hx
    have hshares := (hf.rows.earnings he).shares x hx
    rw [← hpot, hshares, RoundSettlement.shares, List.map_cons, List.sum_cons, List.map_map]
    rfl
  · have hrow : s.db.funds.ledger.balance (pot n) = account.balance := by
      rw [Ledger.balance, haccount]
      rfl
    rw [← hrow, hunsettled, Settlement.receiptsOf_sum, Settlement.forfeituresOf_sum,
      Funds.reimbursedTo, he]
    · rfl
    · intro e' he'
      rw [← Option.some.inj (he.symm.trans he')]
      exact hnone
  · obtain ⟨e', he', hext⟩ := (Sys.run_extends h.lawful hrun).earnings he
    exact ⟨e', he', hext.settlement x hx⟩

/-! ## A settled round -/

namespace SettledDay

/-- The reward of a round is received; with its late block credited, the round is settled. -/
def run : Result (Db × BlockSnapshot × Db × RoundSettlement) := do
  let db ← LateDay.worked
  let (funded, snapshot) ← LateDay.rewarded db
  let (db, _) ← LateDay.credited funded
  let _ ← Qualifiers.requireCoverage db 2
  let (settled, out) ← Settlement.allocate db 2 "seal" (Qualifiers.roundCredits db 2) none
  return (funded, snapshot, settled, out)

theorem acts_queued {s : Sys} {a : Action} (h : LateDay.acts a = true) : Sys.Queued s a := by
  constructor
  · rintro rfl
    cases h
  · rintro _ _ _ rfl
    cases h

theorem acts_length {db : Db} (h : db.observation.blocks.entries.all
    (fun e => e.2.blocksPerRound = 2) = true) : RoundLength db 2 := by
  intro id b hb
  simpa using List.all_eq_true.mp h _ (Table.mem_entries_iff.mpr hb)

/-- The round before and after its settlement. -/
theorem run_spec : ∃ (funded settled : Sys) (e : RoundEarnings) (x : RoundSettlement),
    Sys.Reachable Sys.Queued funded ∧ RoundLength funded.db 2 ∧
      funded.db.funds.roundEarnings.lookup 2 = some { e with settlement := none } ∧
      funded.db.funds.receivedBy 2 = 100 * tig ∧
    Leads Sys.Step Sys.Queued funded settled ∧ RoundLength settled.db 2 ∧
      settled.db.funds.roundEarnings.lookup 2 = some e ∧ e.settlement = some x ∧
      x.memberAllocations.map (·.1) = ["member"] ∧ 0 < (x.memberAllocations.map (·.2)).sum := by
  have hfacts : run.toOption.any (fun (funded, _, settled, out) =>
      funded.observation.blocks.entries.all (fun e => e.2.blocksPerRound = 2) ∧
      settled.observation.blocks.entries.all (fun e => e.2.blocksPerRound = 2) ∧
      (funded.funds.roundEarnings.lookup 2) = (settled.funds.roundEarnings.lookup 2).map
        (fun e => { e with settlement := none }) ∧
      funded.funds.receivedBy 2 = 100 * tig ∧
      (settled.funds.roundEarnings.lookup 2).bind (·.settlement) = some out ∧
      out.memberAllocations.map (·.1) = ["member"] ∧
      0 < (out.memberAllocations.map (·.2)).sum) = true := by decide +kernel
  obtain ⟨⟨funded, snapshot, settled, out⟩, hrun, hfacts⟩ := (Option.any_eq_true _ _).mp hfacts
  obtain ⟨hbefore, hafter, hearnings, hreceived, hsettled, hmember, hpositive⟩ :=
    of_decide_eq_true hfacts
  have hrun := eq_ok_of_toOption hrun
  simp only [run, bind_eq_ok, pure_eq_ok, Prod.mk.injEq] at hrun
  obtain ⟨db₁, hworked, ⟨_, _⟩, hrewarded, ⟨db₃, _⟩, hcredited, _, hcovered, ⟨_, _⟩, hallocate,
    rfl, rfl, rfl, rfl⟩ := hrun
  obtain ⟨e, he, hx⟩ := Option.bind_eq_some_iff.mp hsettled
  obtain ⟨held, hlate, -⟩ := @LateDay.credited_leads Sys.Queued (fun _ _ => acts_queued) _ _ _
    (LateDay.held _ _) hcredited
  have hlooked := (hlate.step (a := .hold .coverage) (acts_queued rfl)
    (.hold (.coverage hcovered))).step (acts_queued rfl) (.hold (.credits (List.mem_cons_self ..)))
  have hdone := hlooked.step (by simp [Sys.Queued])
    (.funds (.allocate (List.mem_cons_self ..) hallocate))
  refine ⟨_, _, e, _, ⟨_, Sys.initial_migrated, ?_⟩, acts_length hbefore, ?_, hreceived, hdone,
    acts_length hafter, he, hx, hmember, hpositive⟩
  · exact (LateDay.worked_leads (fun _ _ ha _ _ => acts_queued ha) hworked).trans
      (LateDay.rewarded_leads (fun _ _ ha _ => acts_queued ha) hrewarded)
  · rw [hearnings, he]
    rfl

end SettledDay

/-- A round of 100 TIG: the pot holds them, and all of them go out once. -/
theorem round_pot_settled : ∃ (funded settled : Sys) (e : RoundEarnings) (x : RoundSettlement),
    PotFunded funded.db.funds 2 ∧ funded.db.funds.receivedBy 2 = 100 * tig ∧
    funded.db.funds.roundEarnings.lookup 2 = some { e with settlement := none } ∧
    PotFunded settled.db.funds 2 ∧ settled.db.funds.roundEarnings.lookup 2 = some e ∧
    e.settlement = some x ∧ 0 < (x.memberAllocations.map (·.2)).sum ∧
    ∀ s', Leads Sys.Step Sys.Any settled s' → ∃ e',
      s'.db.funds.roundEarnings.lookup 2 = some e' ∧ e'.settlement = some x := by
  obtain ⟨funded, settled, e, x, hreach, hlength, hopen, hreceived, hdone, hafter, he, hx, -,
    hpositive⟩ := SettledDay.run_spec
  obtain ⟨s₀, h₀, hrun⟩ := hreach
  obtain ⟨hpot, -, hforever⟩ := round_pot ⟨s₀, h₀, hrun.trans hdone⟩ hafter 2
  exact ⟨funded, settled, e, x, (round_pot ⟨s₀, h₀, hrun⟩ hlength 2).1, hreceived, hopen, hpot,
    he, hx, hpositive, fun s' hs' => hforever s' hs' e x he hx⟩

end TigPool
