/-
# `TigPool.Service` — what one transaction can do, and what holds in every run

The refinement of each operation, put together: every step of the service is a path
of the abstract machine by changes that its label names, and touches only the tables
of its group.  The invariants of the funds then hold in every reachable state, and so
does what a process may take for granted about evidence it has saved and rows it has
read: the rows it saw are there, in a version that extends what it saw.
-/
import TigPool.System

namespace TigPool

open Basis

/-! ## What a label promises -/

/-- The changes of the funds that a transaction can make, besides quiet ones. -/
def FundsAction.does (f : Funds) : FundsAction → Change → Prop
  | .reserve id m n, c => c = .reserved id m n
  | .markSubmitting id, c | .acknowledge id, c | .recordOutcome id, c => c = .progressed id
  | .accept id, c => c = .accepted id
  | .releaseUnstarted id, c => ∃ m, c = .unstarted id m ∧
      ∀ r, f.reservations.lookup id = some r → r.memberId = m
  | .releaseUnhanded id, c => ∃ m, c = .unhanded id m ∧
      ∀ r, f.reservations.lookup id = some r → r.memberId = m
  | .finalizeCollateral id, c => ∃ a, c = .finalized id a
  | .receive e a, c => c = .received e ∨ c = .attributed e a
  | .recordTransfer e, c => c = .received e ∨ ∃ a, c = .attributed e a
  | .attributeReviewed e a, c => c = .attributed e a
  | .attributeReceipt e n, c => c = .rewarded e n
  | .receiveNative, c | .receiveInternalNative, c => c = .nativeFunded
  | .declareEarnings n, c => c = .declared n
  | .reimburseOperatingCost n, c => c = .reimbursed n
  | .allocate n members, c => c = .settled n members
  | .request id m, c => c = .requested id (available m)
  | .requestOperator id, c => c = .requested id (.operator .custody .TIG)
  | .approve id, c => c = .approved id
  | .release id, c => ∃ w, f.withdrawals.lookup id = some w ∧
      c = .released id (Withdrawals.source w)
  | .begin id aid, c => c = .begun id aid
  | .reconcile aid out, c => ∃ id, c = .reconciled id aid out
  | .reconcileSponsored aid, c => ∃ id, c = .reconciled id aid .paid
  | .beginTopup id, c => c = .topupBegun id
  | .reconcileTopup id state, c => c = .topupReconciled id state
  | .creditTopup id, c => c = .topupCredited id
  | .initializeStream, c => c = .streamOpened ∨ c = .nativeFunded
  | .initializeCredit, c => ∃ source, c = .protocolOpened source
  | .creditMainnetTopup, c => ∃ topup, c = .mainnetOpened topup
  | .correct, c => c = .corrected
  | .initializeAccounts, _ | .registerVerified, _ | .setMultiplier, _ | .setWithdrawalWallet, _
  | .recordFunding, _ | .advance, _ | .preview _, _ => False

/-- The changes of the funds that a transaction about work can make. -/
def WorkAction.does (db : Db) : WorkAction → Change → Prop
  | .reserveNext id, c => ∃ m blockId block, WorkRequests.newestBlock db = some (blockId, block) ∧
      c = .reserved id m block.round
  | .begin _, c => ∃ id, c = .progressed id
  | .cancelUnsent i, c | .definitiveRejection i, c => ∃ row intent,
      Submissions.locked db i = .ok (row, intent) ∧
      c = .unstarted intent.reservationId row.memberId
  | .publishAssignment id, c => c = .accepted id
  | .expireUnsentResults id, c | .expireRejectedResults id, c => c = .progressed id
  | _, _ => False

def Action.does (db : Db) : Action → Change → Prop
  | .funds a, c => c.Quiet ∨ a.does db.funds c
  | .work a, c => c.Quiet ∨ a.does db c
  | .hold _, c => c.Quiet
  | _, _ => False

/-! ## Every transaction is a path -/

/-- What a process holds fits the database. -/
structure Held.Fits (held : Held) (db : Db) : Prop where
  attempts : ∀ {aid transaction transfer}, (aid, transaction, transfer) ∈ held.attempts →
    (∃ tx, db.funds.chainTransactions.lookup (transaction.network.chainId, transaction.txHash)
        = some tx ∧ Custody.Records tx transaction) ∧
      ∃ a, db.funds.withdrawalAttempts.lookup aid = some a ∧
        a.sentAt ≤ transaction.blockTimestamp + seconds 5
  topups : ∀ {id transaction}, (id, transaction) ∈ held.topups →
    ∃ tx, db.funds.chainTransactions.lookup (transaction.network.chainId, transaction.txHash)
      = some tx ∧ Custody.Records tx transaction
  instructions : ∀ {id value}, (id, value) ∈ held.instructions →
    (∃ t, db.funds.protocolTopups.lookup id = some t ∧ value.row.Extends t) ∧
      ∃ s, db.funds.custodySends.lookup id = some s ∧ value.send.Extends s

/-- What holds in every reachable state. -/
structure Sys.Lawful (s : Sys) : Prop where
  funds : s.db.funds.Lawful
  /-- No withdrawal was requested in the future. -/
  created : ∀ {id w}, s.db.funds.withdrawals.lookup id = some w → w.createdAt ≤ s.db.clock
  held : s.held.Fits s.db

theorem Held.Fits.mono {held : Held} {db db' : Db} (h : held.Fits db)
    (hext : db.funds.Extends db'.funds) : held.Fits db' where
  attempts hmem := by
    obtain ⟨⟨tx, htx, hrecords⟩, a, ha, htime⟩ := h.attempts hmem
    obtain ⟨a', ha', hx⟩ := hext.attempt ha
    exact ⟨⟨tx, hext.transaction.lookup htx, hrecords⟩, a', ha', by rw [hx.sentAt]; exact htime⟩
  topups hmem := by
    obtain ⟨tx, htx, hrecords⟩ := h.topups hmem
    exact ⟨tx, hext.transaction.lookup htx, hrecords⟩
  instructions hmem := by
    obtain ⟨⟨t, ht, hx⟩, send, hsend, hy⟩ := h.instructions hmem
    obtain ⟨t', ht', hx'⟩ := hext.topup ht
    obtain ⟨send', hsend', hy'⟩ := hext.send hsend
    exact ⟨⟨t', ht', hx.trans hx'⟩, send', hsend', hy.trans hy'⟩

theorem reverse_moves {db : Db} (hf : db.funds.Lawful)
    {journal : EventKey} {text actor reason : String}
    {ledger : Ledger}
    (h : db.funds.ledger.reverse journal (.correction text) actor reason = .ok ledger) :
    db.Moves (Only [.corrected]) (db.withLedger ledger) := by
  simp only [Ledger.reverse, bind_eq_ok, require_eq_ok, exists_const] at h
  obtain ⟨-, hne, hpost⟩ := h
  rcases hj : db.funds.ledger.journals.lookup journal with _ | j
  · rw [hj] at hne
    exact absurd rfl hne
  · rw [hj] at hpost
    rcases Ledger.post_cases hpost with ⟨-, -, rfl⟩ | ⟨hpostable, rfl⟩
    · exact .refl db
    · exact .of_step .refl .change (.corrected hpostable (hf.sound.balanced hj).opposite)

section

variable {held : Held} {db db' : Db}

theorem Db.Moves.label {cs : List Change} {L : Change → Prop} (h : db.Moves (Only cs) db')
    (hL : ∀ c ∈ cs, L c) : db.Moves (fun c => c.Quiet ∨ L c) db' :=
  h.mono fun c hc => hc.imp id (hL c)

theorem Db.Moves.label_one {c : Change} {L : Change → Prop} (h : db.Moves (Only [c]) db') (hL : L c) :
    db.Moves (fun c => c.Quiet ∨ L c) db' :=
  h.label fun _ hc => by
    rw [List.mem_singleton.mp hc]
    exact hL

theorem Db.Moves.label_quiet {L : Change → Prop} (h : db.Moves Change.Quiet db') :
    db.Moves (fun c => c.Quiet ∨ L c) db' :=
  h.mono fun _ => Or.inl

theorem FundsStep.moves {a : FundsAction} (hf : db.funds.Lawful) (hheld : held.Fits db)
    (hcreated : ∀ {id w}, db.funds.withdrawals.lookup id = some w → w.createdAt ≤ db.clock)
    (h : FundsStep held db a db') : db.Moves (fun c => c.Quiet ∨ a.does db.funds c) db' := by
  cases h with
  | initializeAccounts h => exact (initializeAccounts_moves h).label_quiet
  | registerVerified h => exact (registerVerified_moves h).label_quiet
  | setMultiplier h => exact (setMultiplier_moves h).label_quiet
  | setWithdrawalWallet h => exact (setWithdrawalWallet_moves h).label_quiet
  | reserve h => exact (reserve_moves hf h).label_one rfl
  | markSubmitting h => exact (markSubmitting_moves h).label_one rfl
  | accept h => exact (accept_moves hf h).label_one rfl
  | releaseUnstarted h =>
      obtain ⟨m, hm, howner⟩ := releaseUnstarted_moves hf h
      exact hm.label_one ⟨m, rfl, howner⟩
  | releaseUnhanded h =>
      obtain ⟨m, hm, howner⟩ := releaseUnhanded_moves hf h
      exact hm.label_one ⟨m, rfl, howner⟩
  | acknowledge h => exact (acknowledge_moves h).label_one rfl
  | recordOutcome h => exact (recordOutcome_moves h).label_one rfl
  | finalizeCollateral h =>
      obtain ⟨a, hm⟩ := Settlement.finalizeCollateral_moves hf h
      exact hm.label_one ⟨a, rfl⟩
  | receive h => exact (Deposits.receive_moves hf h).label (by simp [FundsAction.does])
  | attributeReviewed h => exact (Deposits.attributeReviewed_moves hf h).label_one rfl
  | attributeReceipt h => exact (Settlement.attributeReceipt_moves hf h).label_one rfl
  | receiveNative h => exact (Custody.receiveNative_moves h).label_one rfl
  | receiveInternalNative h => exact (receiveInternalNative_moves h).label_one rfl
  | declareEarnings h => exact (Settlement.declareEarnings_moves h).label_one rfl
  | reimburseOperatingCost h => exact (Settlement.reimburseOperatingCost_moves hf h).label_one rfl
  | preview => exact .refl db
  | allocate _ h => exact (Settlement.allocate_moves hf h).label_one rfl
  | request h => exact (Withdrawals.request_moves hf h).label_one rfl
  | requestOperator h => exact (Withdrawals.requestOperator_moves hf h).label_one rfl
  | approve h => exact (Withdrawals.approve_moves h).label_one rfl
  | release h =>
      obtain ⟨w, hw, -, hm⟩ := Withdrawals.release_moves hf h
      exact hm.label_one ⟨w, hw, rfl⟩
  | begin _ h => exact (Withdrawals.begin_moves hf hcreated h).label_one rfl
  | reconcile hmem h =>
      obtain ⟨hsaved, a, ha, htime⟩ := hheld.attempts hmem
      obtain ⟨a', -, hm⟩ := Withdrawals.reconcile_moves hf hsaved (fun ha' => by
        obtain rfl := Option.some.inj (ha.symm.trans ha')
        exact htime) h
      exact hm.label_one ⟨a'.withdrawalId, rfl⟩
  | reconcileSponsored h =>
      obtain ⟨a, -, hm⟩ := Withdrawals.reconcileSponsored_moves hf h
      exact hm.label_one ⟨a.withdrawalId, rfl⟩
  | recordFunding h => exact (Funding.record_moves h).label_quiet
  | beginTopup _ h => exact (Topups.begin_moves hf h).label_one rfl
  | reconcileTopup hmem h => exact (Topups.reconcile_moves hf (hheld.topups hmem) h).label_one rfl
  | creditTopup hmem h =>
      obtain ⟨hrow, hsend⟩ := hheld.instructions hmem
      exact (Topups.credit_moves hf hrow hsend h).label_one rfl
  | initializeStream h =>
      exact (ChainObserver.initializeStream_moves hf h).label (by simp [FundsAction.does])
  | recordTransfer h =>
      obtain ⟨a, hm⟩ := ChainObserver.recordTransfer_moves hf h
      exact hm.label (by simp [FundsAction.does])
  | advance h => exact (ChainObserver.advance_moves h).label_quiet
  | initializeCredit h => exact (StarterCredit.initializeCredit_moves hf h).label_one ⟨_, rfl⟩
  | creditMainnetTopup h =>
      obtain ⟨topup, hm⟩ := Prelaunch.creditMainnetTopup_moves hf h
      exact hm.label_one ⟨topup, rfl⟩
  | correct h => exact (reverse_moves hf h).label_one rfl

theorem WorkStep.pays {a : WorkAction} (hf : db.funds.Lawful) (h : WorkStep db a db') :
    db.Pays (fun c => c.Quiet ∨ a.does db c) db' := by
  cases h with
  | create h =>
      obtain ⟨_, rfl⟩ := WorkRequests.create_asks h
      exact .of_work _ rfl rfl
  | refresh h =>
      obtain ⟨_, rfl⟩ := WorkRequests.refresh_asks h
      exact .of_work _ rfl rfl
  | get h =>
      obtain ⟨_, rfl⟩ := WorkRequests.get_asks h
      exact .of_work _ rfl rfl
  | hasQueued => exact .of_work _ rfl rfl
  | setPause => exact .of_work _ rfl rfl
  | setCap h =>
      rcases setCap_cases h with rfl | ⟨cap, -, hfresh, rfl⟩
      · exact .refl _
      · exact ⟨.refl, rfl, rfl, rfl, .of_eq rfl,
          .fresh (fun _ => rfl) (AList.lookup_eq_none.mpr hfresh)⟩
  | reserveNext hchoose h =>
      rcases WorkRequests.reserveNext_pays hf hchoose h with hquiet | ⟨blockId, block, hnewest, hpays⟩
      · exact hquiet.mono fun _ => Or.inl
      · refine hpays.mono fun c hc => hc.imp id ?_
        rintro ⟨m, rfl⟩
        exact ⟨m, blockId, block, hnewest, rfl⟩
  | recordBinary h => exact Submissions.recordBinary_pays h
  | begin h => exact Submissions.begin_pays h
  | cancelUnsent h =>
      obtain ⟨row, intent, hlocked, hpays⟩ := Submissions.cancelUnsent_pays hf h
      exact hpays.mono fun c hc => hc.imp id fun hmem =>
        ⟨row, intent, hlocked, List.mem_singleton.mp hmem⟩
  | recordResponse h => exact Submissions.recordResponse_pays h
  | definitiveRejection h =>
      obtain ⟨row, intent, hlocked, hpays⟩ := Submissions.definitiveRejection_pays hf h
      exact hpays.mono fun c hc => hc.imp id fun hmem =>
        ⟨row, intent, hlocked, List.mem_singleton.mp hmem⟩
  | recoverPrecommit h => exact Submissions.recoverPrecommit_pays h
  | publishAssignment h =>
      exact (Submissions.publishAssignment_moves hf h).pays.mono fun c hc =>
        hc.imp id List.mem_singleton.mp
  | confirmPayload h => exact Submissions.confirmPayload_pays h
  | retireUnsentPayload h => exact Submissions.retireUnsentPayload_pays h
  | results h => exact MemberProtocol.results_pays h
  | sampled h => exact MemberProtocol.sampled_pays h
  | proofs h => exact MemberProtocol.proofs_pays h
  | expireUnsentResults h =>
      exact (Reconciliation.expireUnsentResults_pays h).mono fun c hc =>
        hc.imp id List.mem_singleton.mp
  | expireRejectedResults h =>
      exact (Reconciliation.expireRejectedResults_pays h).mono fun c hc =>
        hc.imp id List.mem_singleton.mp

theorem Reports.archive_frame {round height : ℕ} {blockId : String} {payload metadata : Json}
    {error : Option String} {identity out : Uuid}
    (h : Reports.archive db round height blockId payload metadata error identity = .ok (db', out)) :
    ∃ reports, db' = { db with reports := reports } := by
  simp only [Reports.archive] at h
  split at h
  next =>
    obtain ⟨rfl, -⟩ := Prod.mk.inj (Except.ok.inj h)
    exact ⟨_, rfl⟩
  next =>
    simp only [bind_eq_ok, require_eq_ok, exists_const, pure_eq_ok, Prod.mk.injEq] at h
    obtain ⟨-, rfl, -⟩ := h
    exact ⟨_, rfl⟩

theorem Reports.archiveIndex_frame {round : ℕ} {blockId playerId challengeId : String}
    {payload metadata : Json} {error : Option String} {identity out : Uuid}
    (h : Reports.archiveIndex db round blockId playerId challengeId payload metadata error identity
      = .ok (db', out)) : ∃ reports, db' = { db with reports := reports } := by
  simp only [Reports.archiveIndex] at h
  split at h
  next =>
    obtain ⟨rfl, -⟩ := Prod.mk.inj (Except.ok.inj h)
    exact ⟨_, rfl⟩
  next =>
    simp only [bind_eq_ok, require_eq_ok, exists_const, pure_eq_ok, Prod.mk.injEq] at h
    obtain ⟨-, rfl, -⟩ := h
    exact ⟨_, rfl⟩

/-- A transaction about reports writes only tables about reports. -/
theorem ReportStep.frame {a : ReportAction} (h : ReportStep db a db') :
    ∃ reports, db' = { db with reports := reports } := by
  cases h with
  | record h =>
      simp only [Reports.record, bind_eq_ok, units_eq_ok] at h
      obtain ⟨round, -, height, -, h⟩ := h
      exact Reports.archive_frame h
  | archive _ _ h => exact Reports.archive_frame h
  | expire h =>
      simp only [Reports.expire, bind_eq_ok, require_eq_ok, exists_const, fetch_eq_ok,
        pure_eq_ok] at h
      obtain ⟨_, -, -, rfl⟩ := h
      exact ⟨_, rfl⟩
  | recordIndex h =>
      simp only [Reports.recordIndex, bind_eq_ok, units_eq_ok] at h
      obtain ⟨round, -, height, -, h⟩ := h
      exact Reports.archiveIndex_frame h
  | archiveIndex _ _ h => exact Reports.archiveIndex_frame h
  | scope h =>
      simp only [Reports.scope, bind_eq_ok, require_eq_ok, exists_const, units_eq_ok] at h
      obtain ⟨round, -, -, -, _, -, h⟩ := h
      split at h
      next =>
        simp only [bind_eq_ok, require_eq_ok, exists_const, pure_eq_ok] at h
        obtain ⟨-, rfl⟩ := h
        exact ⟨_, rfl⟩
      next =>
        obtain rfl := Except.ok.inj h
        exact ⟨_, rfl⟩
  | sealRound h =>
      simp only [Reports.sealRound, bind_eq_ok, require_eq_ok, exists_const, fetch_eq_ok] at h
      obtain ⟨_, -, -, _, -, scope, -, _, -, -, combined, -, h⟩ := h
      split at h
      next =>
        obtain ⟨rfl, -⟩ := Prod.mk.inj (Except.ok.inj h)
        exact ⟨_, rfl⟩
      next =>
        simp only [bind_eq_ok, require_eq_ok, exists_const, pure_eq_ok, Prod.mk.injEq] at h
        obtain ⟨-, rfl, -⟩ := h
        exact ⟨_, rfl⟩

/-- Retention and compaction write nothing but evidence. -/
theorem ObservationStep.archived {a : ObservationAction} (h : ObservationStep held db a db')
    (ha : a.archives = true) : ∃ archive, db' = db.putArchive archive := by
  cases h with
  | backfill _ h =>
      rcases Compaction.backfill_cases h with rfl | ⟨_, _, -, -, -, -, -, rfl⟩ <;> exact ⟨_, rfl⟩
  | markReconciled h =>
      simp only [Reconciliation.markReconciled, bind_eq_ok, require_eq_ok, exists_const,
        pure_eq_ok] at h
      exact ⟨_, h.2.symm⟩
  | advanceFloors _ _ h =>
      simp only [Retention.advanceFloors, bind_eq_ok, require_eq_ok, exists_const, pure_eq_ok] at h
      exact ⟨_, h.2.symm⟩
  | expireCaptures _ h =>
      simp only [Retention.expireCaptures, bind_eq_ok, require_eq_ok, exists_const,
        pure_eq_ok] at h
      exact ⟨_, h.2.symm⟩
  | removeChunks _ h =>
      simp only [Retention.removeChunks, bind_eq_ok, require_eq_ok, exists_const, pure_eq_ok] at h
      exact ⟨_, h.2.symm⟩
  | expireCopies => exact ⟨_, rfl⟩
  | prune h =>
      simp only [Compaction.prune, bind_eq_ok, require_eq_ok, exists_const, pure_eq_ok] at h
      exact ⟨_, h.2.symm⟩
  | collectUnusedChunks h =>
      simp only [Compaction.collectUnusedChunks, bind_eq_ok, require_eq_ok, exists_const,
        pure_eq_ok] at h
      exact ⟨_, h.2.2.symm⟩
  | initializeChunkIndex h =>
      unfold Retention.initializeChunkIndex at h
      split at h
      next =>
        obtain rfl := Except.ok.inj h
        exact ⟨_, rfl⟩
      next =>
        simp only [bind_eq_ok, require_eq_ok, exists_const, pure_eq_ok] at h
        exact ⟨_, h.2.symm⟩
  | _ => cases ha

/-- A transaction about observed blocks writes only tables about observed blocks. -/
theorem ObservationStep.frame {a : ObservationAction} (h : ObservationStep held db a db') :
    ∃ observation, db' = { db with observation := observation } := by
  by_cases ha : a.archives = true
  · obtain ⟨_, rfl⟩ := h.archived ha
    exact ⟨_, rfl⟩
  cases h with
  | initializeStore h =>
      rcases BlockStore.initializeStore_cases h with rfl | ⟨-, rfl⟩ <;> exact ⟨_, rfl⟩
  | record h => exact BlockStore.record_frame h
  | resolve h =>
      rcases BlockStore.resolve_cases h with rfl | ⟨_, _, -, rfl⟩
      · exact ⟨_, rfl⟩
      · obtain ⟨_, heq⟩ := BlockStore.advance_frame (BlockStore.settle db _ _)
        exact ⟨_, heq⟩
  | setGapPolicy h =>
      rcases BlockStore.setGapPolicy_cases h with rfl | ⟨_, rfl⟩ <;> exact ⟨_, rfl⟩
  | waivePrelaunchGap h =>
      rcases BlockStore.waivePrelaunchGap_cases h with rfl | ⟨_, rfl⟩ <;> exact ⟨_, rfl⟩
  | creditBlock _ _ h =>
      rcases Qualifiers.creditBlock_cases h with rfl | ⟨_, -, -, -, -, -, -, rfl⟩ <;> exact ⟨_, rfl⟩
  | _ => exact absurd rfl ha

theorem Withdrawals.request_created {member identity out : Uuid} {key : String} {amount : ℤ}
    (h : request db member key amount identity = .ok (db', out)) {id : Uuid} {w : Withdrawal}
    (hw : db'.funds.withdrawals.lookup id = some w) :
    db.funds.withdrawals.lookup id = some w ∨ w.createdAt = db.clock := by
  simp only [request, bind_eq_ok, require_eq_ok, exists_const] at h
  obtain ⟨amount, -, -, row, -, h⟩ := h
  split at h
  next =>
    simp only [bind_eq_ok, require_eq_ok, exists_const, pure_eq_ok, Prod.mk.injEq] at h
    obtain ⟨-, rfl, -⟩ := h
    exact Or.inl hw
  next =>
    simp only [bind_eq_ok, require_eq_ok, exists_const, pure_eq_ok, Prod.mk.injEq] at h
    obtain ⟨-, -, _, -, _, -, -, rfl, -⟩ := h
    rcases Table.lookup_insert_cases hw with ⟨-, rfl⟩ | ⟨-, hw⟩
    · exact Or.inr rfl
    · exact Or.inl hw

theorem Withdrawals.requestOperator_created {key : String} {amount reserve : ℤ} {network : Network}
    {recipient actor reason : String} {identity out : Uuid}
    (h : requestOperator db key amount network recipient reserve actor reason identity
      = .ok (db', out)) {id : Uuid} {w : Withdrawal}
    (hw : db'.funds.withdrawals.lookup id = some w) :
    db.funds.withdrawals.lookup id = some w ∨ w.createdAt = db.clock := by
  simp only [requestOperator, bind_eq_ok, require_eq_ok, exists_const] at h
  obtain ⟨amount, -, reserve, -, recipient, -, -, -, db₁, hbind, h⟩ := h
  obtain ⟨rfl, -⟩ := Custody.bind_spec hbind
  split at h
  next =>
    simp only [bind_eq_ok, require_eq_ok, exists_const, pure_eq_ok, Prod.mk.injEq] at h
    obtain ⟨-, db₂, hevent, rfl, -⟩ := h
    rw [(event_frame hevent).1] at hw
    exact Or.inl hw
  next =>
    simp only [bind_eq_ok, require_eq_ok, exists_const, pure_eq_ok, Prod.mk.injEq] at h
    obtain ⟨-, _, -, -, _, -, -, db₂, hevent, rfl, -⟩ := h
    rw [(event_frame hevent).1] at hw
    rcases Table.lookup_insert_cases hw with ⟨-, rfl⟩ | ⟨-, hw⟩
    · exact Or.inr rfl
    · exact Or.inl hw

/-- A withdrawal that was not just requested was on record before. -/
theorem Funds.Path.withdrawal_back {L : Change → Prop} {f f' : Funds} (h : Funds.Path L f f')
    (hf : f.Lawful) {id : Uuid} (hL : ∀ a, ¬ L (.requested id a)) {w : Withdrawal}
    (hw : f'.withdrawals.lookup id = some w) :
    ∃ w₀, f.withdrawals.lookup id = some w₀ ∧ w₀.Extends w := by
  induction h generalizing w with
  | refl => exact ⟨w, hw, .refl w⟩
  | step hpath hc hs ih =>
      rcases hs.withdrawal_back (Funds.Path.lawful hpath hf).rows hw
        with ⟨w₁, hw₁, hx, -⟩ | ⟨⟨a, rfl⟩, -⟩
      · obtain ⟨w₀, hw₀, hx₀⟩ := ih hw₁
        exact ⟨w₀, hw₀, hx₀.trans hx⟩
      · exact absurd hc (hL a)

end

/-! ## Every step of the service -/

namespace Sys

variable {s s' : Sys} {a : Action}

theorem HoldStep.moves {a : HoldAction} (h : HoldStep s a s') :
    s.db.Moves Change.Quiet s'.db := by
  cases h with
  | reconcileEvidence h => exact (Withdrawals.reconcileEvidence_spec h).1
  | topupEvidence h => exact (Topups.reconcileEvidence_spec h).1
  | _ => exact .refl _

/-- The funds follow a path of changes that the label names. -/
theorem Step.path (hs : s.Lawful) (h : Step s a s') :
    Funds.Path (a.does s.db) s.db.funds s'.db.funds := by
  cases h with
  | funds h => exact (h.moves hs.funds hs.held hs.created).path
  | report h =>
      obtain ⟨_, rfl⟩ := h.frame
      exact .refl
  | observe h =>
      obtain ⟨_, rfl⟩ := h.frame
      exact .refl
  | work h => exact (h.pays hs.funds).path
  | hold h => exact (HoldStep.moves h).path
  | tick => exact .refl

/-- Work is marked as sent only where the label says so. -/
theorem Step.sends (hs : s.Lawful) (h : Step s a s') :
    s.db.work.Sends (a.does s.db) s'.db.work := by
  cases h with
  | funds h => exact (h.moves hs.funds hs.held hs.created).sends
  | report h =>
      obtain ⟨_, rfl⟩ := h.frame
      exact .of_eq rfl
  | observe h =>
      obtain ⟨_, rfl⟩ := h.frame
      exact .of_eq rfl
  | work h => exact (h.pays hs.funds).sends
  | hold h => exact (HoldStep.moves h).sends
  | tick => exact .of_eq rfl

/-- Spending caps stay. -/
theorem Step.caps (hs : s.Lawful) (h : Step s a s') :
    Basis.Extends Eq s.db.work.spendingCaps s'.db.work.spendingCaps := by
  cases h with
  | funds h =>
      rw [(h.moves hs.funds hs.held hs.created).caps]
      exact .refl fun _ => rfl
  | report h =>
      obtain ⟨_, rfl⟩ := h.frame
      exact .refl fun _ => rfl
  | observe h =>
      obtain ⟨_, rfl⟩ := h.frame
      exact .refl fun _ => rfl
  | work h => exact (h.pays hs.funds).caps
  | hold h =>
      rw [(HoldStep.moves h).caps]
      exact .refl fun _ => rfl
  | tick => exact .refl fun _ => rfl

/-- Only transactions about reports write tables about reports. -/
theorem Step.reports (hs : s.Lawful) (h : Step s a s') (ha : ∀ r, a ≠ .report r) :
    s'.db.reports = s.db.reports := by
  cases h with
  | funds h => exact (h.moves hs.funds hs.held hs.created).reports
  | report => exact absurd rfl (ha _)
  | observe h =>
      obtain ⟨_, rfl⟩ := h.frame
      rfl
  | work h => exact (h.pays hs.funds).reports
  | hold h => exact (HoldStep.moves h).reports
  | tick => rfl

/-- Only transactions about observed blocks write tables about observed blocks. -/
theorem Step.observation (hs : s.Lawful) (h : Step s a s') (ha : ∀ o, a ≠ .observe o) :
    s'.db.observation = s.db.observation := by
  cases h with
  | funds h => exact (h.moves hs.funds hs.held hs.created).observation
  | report h =>
      obtain ⟨_, rfl⟩ := h.frame
      rfl
  | observe => exact absurd rfl (ha _)
  | work h => exact (h.pays hs.funds).observation
  | hold h => exact (HoldStep.moves h).observation
  | tick => rfl

/-- Time does not run backwards. -/
theorem Step.clock (hs : s.Lawful) (h : Step s a s') : s.db.clock ≤ s'.db.clock := by
  cases h with
  | funds h => exact (h.moves hs.funds hs.held hs.created).clock.ge
  | report h =>
      obtain ⟨_, rfl⟩ := h.frame
      exact le_rfl
  | observe h =>
      obtain ⟨_, rfl⟩ := h.frame
      exact le_rfl
  | work h => exact (h.pays hs.funds).clock.ge
  | hold h => exact (HoldStep.moves h).clock.ge
  | tick h => exact h

theorem Step.extends (hs : s.Lawful) (h : Step s a s') : s.db.funds.Extends s'.db.funds :=
  Funds.Path.extends (h.path hs) hs.funds

/-- Withdrawals on record were requested in the past. -/
theorem Step.created (hs : s.Lawful) (h : Step s a s') {id : Uuid} {w : Withdrawal}
    (hw : s'.db.funds.withdrawals.lookup id = some w) : w.createdAt ≤ s'.db.clock := by
  have hold : (∀ b, ¬ a.does s.db (.requested id b)) → w.createdAt ≤ s'.db.clock := by
    intro hnot
    obtain ⟨w₀, hw₀, hx⟩ := Funds.Path.withdrawal_back (h.path hs) hs.funds hnot hw
    rw [hx.createdAt]
    exact (hs.created hw₀).trans (h.clock hs)
  have hclock := h.clock hs
  cases h with
  | funds h =>
      cases h with
      | request h =>
          rcases Withdrawals.request_created h hw with hw | hnow
          · exact (hs.created hw).trans hclock
          · rw [hnow]
            exact hclock
      | requestOperator h =>
          rcases Withdrawals.requestOperator_created h hw with hw | hnow
          · exact (hs.created hw).trans hclock
          · rw [hnow]
            exact hclock
      | _ => exact hold (by simp [Action.does, FundsAction.does, Change.Quiet])
  | work h => cases h <;> exact hold (by simp [Action.does, WorkAction.does, Change.Quiet])
  | _ => exact hold (by simp [Action.does, Change.Quiet])

/-- What a process holds stays true, and what it adds is true. -/
theorem Step.held (hs : s.Lawful) (h : Step s a s') : s'.held.Fits s'.db := by
  have hold := hs.held.mono (h.extends hs)
  cases h with
  | hold h =>
      cases h with
      | reconcileEvidence h =>
          obtain ⟨hmoves, hsaved, a, ha, htime⟩ := Withdrawals.reconcileEvidence_spec h
          refine ⟨?_, hold.topups, hold.instructions⟩
          intro aid transaction transfer hmem
          rcases List.mem_cons.mp hmem with heq | hmem
          · obtain ⟨rfl, rfl, rfl⟩ : _ ∧ _ ∧ _ := by simpa using heq
            obtain ⟨a', ha', hx⟩ := (hmoves.path.extends hs.funds).attempt ha
            exact ⟨hsaved, a', ha', by rw [hx.sentAt]; exact htime⟩
          · exact hold.attempts hmem
      | topupEvidence h =>
          obtain ⟨-, hsaved⟩ := Topups.reconcileEvidence_spec h
          refine ⟨hold.attempts, ?_, hold.instructions⟩
          intro id transaction hmem
          rcases List.mem_cons.mp hmem with heq | hmem
          · obtain ⟨rfl, rfl⟩ := Prod.mk.inj heq
            exact hsaved
          · exact hold.topups hmem
      | instructions h =>
          obtain ⟨hrow, hsend⟩ := Topups.instructions_spec h
          refine ⟨hold.attempts, hold.topups, ?_⟩
          intro id value hmem
          rcases List.mem_cons.mp hmem with heq | hmem
          · obtain ⟨rfl, rfl⟩ := Prod.mk.inj heq
            exact ⟨⟨_, hrow, .refl _⟩, _, hsend, .refl _⟩
          · exact hold.instructions hmem
      | _ => exact ⟨hold.attempts, hold.topups, hold.instructions⟩
  | funds => exact ⟨hold.attempts, hold.topups, hold.instructions⟩
  | report => exact ⟨hold.attempts, hold.topups, hold.instructions⟩
  | observe => exact ⟨hold.attempts, hold.topups, hold.instructions⟩
  | work => exact ⟨hold.attempts, hold.topups, hold.instructions⟩
  | tick => exact ⟨hold.attempts, hold.topups, hold.instructions⟩

theorem Lawful.step (hs : s.Lawful) (h : Step s a s') : s'.Lawful where
  funds := Funds.Path.lawful (h.path hs) hs.funds
  created hw := h.created hs hw
  held := h.held hs

/-! ## Every run -/

/-- A migrated database before anything happened: no rows, apart from the policies. -/
structure Initial (s : Sys) : Prop where
  funds : s.db.funds = Funds.empty
  reports : s.db.reports = ⟨∅, ∅, ∅, ∅, ∅, ∅⟩
  blocks : s.db.observation.blocks = ∅
  waivers : s.db.observation.gapWaivers = ∅
  stream : s.db.observation.stream = none
  conflicts : s.db.observation.conflicts = []
  archive : s.db.observation.archive = Archive.empty
  outbox : s.db.work.protocolOutbox = ∅
  receipts : s.db.work.precommitReceipts = ∅
  requests : s.db.work.workRequests = ∅
  events : s.db.work.reservationEvents = ∅
  caps : s.db.work.spendingCaps = ∅
  held : s.held = Held.empty

theorem Initial.lawful (h : s.Initial) : s.Lawful where
  funds := by
    rw [h.funds]
    exact .empty
  created hw := by
    rw [h.funds] at hw
    cases hw
  held := by
    rw [h.held]
    exact ⟨fun hmem => (by cases hmem), fun hmem => (by cases hmem), fun hmem => (by cases hmem)⟩

variable {allowed : Sys → Action → Prop}

theorem Lawful.run (hs : s.Lawful) (h : Leads Step allowed s s') : s'.Lawful :=
  h.invariant hs fun _ _ _ _ ht => ht.step

theorem run_extends (hs : s.Lawful) (h : Leads Step allowed s s') :
    s.db.funds.Extends s'.db.funds :=
  Leads.relates (R := fun s t : Sys => s.db.funds.Extends t.db.funds) h hs
    (fun s => .refl s.db.funds) .trans (fun _ _ _ _ ht => ht.step) fun _ _ _ _ ht h => h.extends ht

/-- The states that runs of allowed transactions reach. -/
def Reachable (allowed : Sys → Action → Prop) (s : Sys) : Prop :=
  ∃ s₀, Initial s₀ ∧ Leads Step allowed s₀ s

/-- All transactions, in any order. -/
def Any (_ : Sys) (_ : Action) : Prop := True

/-- All transactions but an operator's corrections. -/
def Uncorrected (_ : Sys) (a : Action) : Prop := a ≠ .funds .correct

/-- What the service does in transactions about submissions, and never on its own. -/
def FundsPart : FundsAction → Bool
  | .reserve .. | .markSubmitting _ | .accept _ | .releaseUnstarted _ => true
  | _ => false

/-- Whole transactions, and not their parts. -/
def Whole (_ : Sys) (a : Action) : Prop := ∀ part, a = .funds part → FundsPart part = false

/-- Whole transactions but an operator's corrections. -/
def Serves (s : Sys) (a : Action) : Prop := Whole s a ∧ Uncorrected s a

theorem serves_work {action : WorkAction} : s.Serves (.work action) := ⟨nofun, nofun⟩

namespace Reachable

theorem lawful (h : Reachable allowed s) : s.Lawful := by
  obtain ⟨s₀, h₀, hrun⟩ := h
  exact h₀.lawful.run hrun

theorem step (h : Reachable allowed s) (ha : allowed s a) (hs : Step s a s') :
    Reachable allowed s' := by
  obtain ⟨s₀, h₀, hrun⟩ := h
  exact ⟨s₀, h₀, .step hrun ha hs⟩

/-- The rule for invariants of reachable states: what holds at first and is kept by
every allowed step from a reachable state. -/
theorem invariant {I : Sys → Prop} (h : Reachable allowed s) (h0 : ∀ s, Initial s → I s)
    (hstep : ∀ s a s', allowed s a → Reachable allowed s → I s → Step s a s' → I s') : I s := by
  obtain ⟨s₀, hi, hrun⟩ := h
  have hboth : Reachable allowed s ∧ I s := by
    refine Leads.invariant (I := fun t => Reachable allowed t ∧ I t) hrun
      ⟨⟨s₀, hi, .refl⟩, h0 s₀ hi⟩ ?_
    rintro t a t' ha ⟨ht, hI⟩ hs
    exact ⟨ht.step ha hs, hstep t a t' ha ht hI hs⟩
  exact hboth.2

end Reachable

/-- Only a correction corrects. -/
theorem does_corrected {db : Db} (h : a.does db .corrected) : a = .funds .correct := by
  cases a with
  | funds a => cases a <;> simp_all [Action.does, FundsAction.does, Change.Quiet]
  | work a => cases a <;> simp_all [Action.does, WorkAction.does, Change.Quiet]
  | _ => simp_all [Action.does, Change.Quiet]

/-- Without corrections the ledger agrees with the books. -/
theorem Reachable.reconciled (h : Reachable Uncorrected s) : s.db.funds.Reconciled := by
  refine Reachable.invariant (I := fun s => s.db.funds.Reconciled) h (fun s hs => ?_)
    fun s a s' ha hs hr hstep => ?_
  · rw [hs.funds]
    exact Funds.empty_reconciled
  · exact Funds.Path.reconciled (hstep.path hs.lawful) hs.lawful.funds hr
      fun hc => ha (does_corrected hc)

end Sys

/-! ## A first day

One member joins, deposits, takes on work and asks for a withdrawal. -/

/-- The database as its migrations leave it. -/
def migrated : Db where
  funds := Funds.empty
  work := ⟨∅, ∅, ∅, ∅, ∅, ∅, ∅, ∅, ∅, ∅, false⟩
  reports := ⟨∅, ∅, ∅, ∅, ∅, ∅⟩
  observation := ⟨none, ∅, [], ∅, [⟨"bounded-zero-credit-v1", 1, 50, 10⟩], Archive.empty⟩
  clock := 0

theorem Sys.initial_migrated : Sys.Initial ⟨migrated, Held.empty⟩ :=
  ⟨rfl, rfl, rfl, rfl, rfl, rfl, rfl, rfl, rfl, rfl, rfl, rfl, rfl⟩

namespace FirstDay

def wallet : Address := "0x00000000000000000000000000000000000000aa"

def network : Network where
  chainId := 8453
  token := "0x0c03ce270b4826ec62e7dd007f0b716068639f7b"
  custody := "0x00000000000000000000000000000000000000bb"
  confirmations := 12
  decimals := 18
  requireFinalized := true

def deposit : ConfirmedTransfer where
  network := network
  txHash := "0x01"
  logIndex := 0
  blockNumber := 7
  blockHash := "0x07"
  blockTimestamp := 0
  sender := wallet
  recipient := network.custody
  amount := 1000 * tig
  evidence := .null

def payload : Json :=
  WorkRequests.proposal "pool" "block-0" "challenge" "algorithm" "cpu"
    (.obj [("track", .obj [("num_bundles", .int 1)])])

def around : Surroundings where
  custodyInitialized := false
  custodyReady := false
  pilot := .ok ()
  hostClock := 0

def limits : CapLimits where
  tigFeeWindowUnits := 1
  tigFeeAttemptUnits := 1
  nativeFeeWindowUnits := 1
  nativeFeeAttemptUnits := 1

def block : BlockStore.BlockCapture where
  blockId := "block-0"
  height := 0
  previousId := "genesis"
  round := 1
  timestamp := 0
  blocksPerRound := 10
  semanticDigest := "digest"
  snapshot := ⟨[], ∅, ∅, ∅⟩
  accepted := ["digest"]
  valid := ⟨by simp, by simp, fun _ => Nat.zero_le _⟩

def source : BlockStore.Source where
  attemptId := "attempt"
  blockId := some "block-0"
  chunks := ["chunk"]

def capacity : Json :=
  .obj [("workers", .int 1)]

def selection : WorkRequests.Selection where
  creationRound := 1
  payload := payload
  evidence := .obj [("block_id", .str "block-0")]
  baseCollateral := 10 * tig
  maxSubmissionFee := 0

/-- The member waits for work. -/
def queued : Result Db := do
  let db ← initializeAccounts migrated
  let (db, _) ← registerVerified db wallet "member"
  let db ← setCap db 3600 limits "operator" "start" "cap" "cap"
  let (db, _) ← Deposits.receive db deposit
  let db ← BlockStore.initializeStore db 0
  let db ← BlockStore.record db source (some block) none
  let (db, _) ← WorkRequests.create db "member" "work" "CPU" "aws_t3" capacity 60 "request"
  return db

def run : Result Db := do
  let db ← queued
  let (db, _) ← WorkRequests.reserveNext db "block-0" (fun _ => .ok (some selection)) ["request"]
    around (fun _ => .ok ()) ⟨"benchmark", "intent"⟩
  let (db, _) ← Withdrawals.request db "member" "cash" (3 * tig) "withdrawal"
  return db

/-- The evening of the day. -/
def evening : Sys where
  db := run.toOption.getD migrated
  held := Held.empty

theorem queued_round {db : Db} (h : queued = .ok db) {b : ObservedBlock}
    (hb : db.observation.blocks.lookup "block-0" = some b) : b.round = 1 := by
  have hall : queued.toOption.all (fun db =>
      (db.observation.blocks.lookup "block-0").all (·.round = 1)) = true := by decide +kernel
  simpa [h, hb, Except.toOption] using hall

theorem reachable {allowed : Sys → Action → Prop} (hallowed : ∀ s a, a ≠ .funds .correct →
    (∀ id m n, a ≠ .funds (.reserve id m n)) →
    (∀ b p, a = .observe (.creditBlock b p) ∨ a = .observe (.backfill b p) → False) →
    allowed s a) : Sys.Reachable allowed evening := by
  have hrun : run = .ok evening.db := eq_ok_getD (by decide +kernel)
  simp only [run, bind_eq_ok, pure_eq_ok] at hrun
  obtain ⟨db₆, hwaiting, ⟨db₇, _⟩, h₇, ⟨db₈, _⟩, h₈, hend⟩ := hrun
  have hchoice : WorkRequests.Chooses db₆ "block-0" fun _ => .ok (some selection) := by
    rintro request _ ⟨⟩
    exact ⟨fun b hb => (queued_round hwaiting hb).symm, rfl, _, _, _, _, _, rfl⟩
  simp only [queued, bind_eq_ok, pure_eq_ok] at hwaiting
  obtain ⟨db₁, h₁, ⟨db₂, _⟩, h₂, db₂', h₂', ⟨db₃, _⟩, h₃, db₄, h₄, db₅, h₅, ⟨_, _⟩, h₆, rfl⟩ :=
    hwaiting
  have hopened : Leads Sys.Step allowed ⟨migrated, Held.empty⟩ ⟨db₁, Held.empty⟩ :=
    .one (hallowed _ _ (by simp) (by simp) (by simp)) (.funds (.initializeAccounts h₁))
  have hjoined := hopened.step (hallowed _ _ (by simp) (by simp) (by simp))
    (.funds (.registerVerified h₂))
  have hcapped := hjoined.step (hallowed _ _ (by simp) (by simp) (by simp)) (.work (.setCap h₂'))
  have hfunded := hcapped.step (hallowed _ _ (by simp) (by simp) (by simp)) (.funds (.receive h₃))
  have hwatching := hfunded.step (hallowed _ _ (by simp) (by simp) (by simp))
    (.observe (.initializeStore h₄))
  have hseen := hwatching.step (hallowed _ _ (by simp) (by simp) (by simp)) (.observe (.record h₅))
  have hqueued := hseen.step (hallowed _ _ (by simp) (by simp) (by simp)) (.work (.create h₆))
  have hworking := hqueued.step (hallowed _ _ (by simp) (by simp) (by simp))
    (.work (.reserveNext hchoice h₇))
  have hasked := hworking.step (hallowed _ _ (by simp) (by simp) (by simp)) (.funds (.request h₈))
  refine ⟨⟨migrated, Held.empty⟩, Sys.initial_migrated, ?_⟩
  have hevening : evening = ⟨db₈, Held.empty⟩ := congrArg (Sys.mk · Held.empty) hend.symm
  rw [hevening]
  exact hasked

end FirstDay

end TigPool
