/-
# `TigPool.Refinement.Topups` — the protocol fee balance

What the operations of `funding.py` and `topups.py` do to the funds.  As with
withdrawals, `reconcile` and `credit` rest on what an earlier transaction read or
saved; that is a hypothesis here.
-/
import TigPool.Refinement.Withdrawals

namespace TigPool

open Basis

variable {db db' : Db} {identity : Uuid}

/-! ## Funding captures -/

namespace Funding

/-- What a capture's top-ups add to the facts: nothing is lost, and without a
conflict every top-up listed is on record. -/
structure Remembers (items : List (String × ConfirmedTopup))
    (known known' : Table String TopupFact × Bool) :
    Prop where
  keeps : ∀ {k t}, known.1.lookup k = some t → known'.1.lookup k = some t
  conflict : known'.2 = false → known.2 = false
  listed : known'.2 = false → ∀ item ∈ items,
    (known'.1.lookup item.1).map (·.facts) = some item.2

theorem rememberTopup_spec {playerId : Address} {known : Table String TopupFact × Bool}
    {item : String × ConfirmedTopup} : Remembers [item] known (rememberTopup playerId known item) := by
  obtain ⟨facts, conflict⟩ := known
  simp only [rememberTopup]
  split
  next k row hfind =>
    obtain ⟨hrow, -⟩ := Table.find_eq_some hfind
    split
    next hsame =>
      obtain ⟨rfl, -, hfacts⟩ := hsame
      refine ⟨id, id, fun _ i hi => ?_⟩
      obtain rfl := List.mem_singleton.mp hi
      rw [hrow, Option.map_some, hfacts]
    next => exact ⟨id, (fun h => by cases h), (fun h => by cases h)⟩
  next hnone =>
    have hfresh : facts.lookup item.1 = none := by
      cases hrow : facts.lookup item.1 with
      | none => rfl
      | some row =>
          have := Table.find_eq_none.mp hnone item.1 row hrow
          simp at this
    refine ⟨fun {k t} hk => ?_, id, fun _ i hi => ?_⟩
    · show (AList.insert item.1 _ facts).lookup k = some t
      have hold : facts.lookup k = some t := hk
      rw [AList.lookup_insert_ne, hold]
      rintro rfl
      rw [hfresh] at hold
      cases hold
    · obtain rfl := List.mem_singleton.mp hi
      rw [AList.lookup_insert, Option.map_some]

theorem remember_spec {playerId : Address} {items : List (String × ConfirmedTopup)}
    {known : Table String TopupFact × Bool} :
    Remembers items known (items.foldl (rememberTopup playerId) known) := by
  induction items generalizing known with
  | nil => exact ⟨id, id, fun _ _ h => by cases h⟩
  | cons item items ih =>
      have hone : Remembers [item] known (rememberTopup playerId known item) := rememberTopup_spec
      have hrest := @ih (rememberTopup playerId known item)
      refine ⟨fun hk => hrest.keeps (hone.keeps hk), fun h => hone.conflict (hrest.conflict h),
        fun h i hi => ?_⟩
      rcases List.mem_cons.mp hi with rfl | hi
      · have hfact := hone.listed (hrest.conflict h) i (List.mem_singleton.mpr rfl)
        obtain ⟨row, hrow, hfacts⟩ := Option.map_eq_some_iff.mp hfact
        simp only [List.foldl_cons]
        rw [hrest.keeps hrow, Option.map_some, hfacts]
      · exact hrest.listed h i hi

theorem record_moves {identity : String} {capture : FundingCapture}
    (h : Funding.record db identity capture = .ok db') : db.Moves Change.Quiet db' := by
  simp only [Funding.record, bind_eq_ok, require_eq_ok, exists_const] at h
  obtain ⟨playerId, -, -, -, h⟩ := h
  have hcaptures {k : String} {c : FundingCapture} (hk : db.funds.fundingCaptures.lookup k = some c) :
      (if identity ∈ db.funds.fundingCaptures then db.funds.fundingCaptures
        else AList.insert identity { capture with playerId, createdAt := db.clock }
          db.funds.fundingCaptures).lookup k = some c := by
    split
    next => exact hk
    next hfresh =>
      rw [AList.lookup_insert_ne, hk]
      rintro rfl
      exact hfresh (AList.lookup_isSome.mp (by rw [hk]; rfl))
  -- a capture on record afterwards was there before or is the new one
  have hnew {k : String} {c : FundingCapture}
      (hk : (if identity ∈ db.funds.fundingCaptures then db.funds.fundingCaptures
        else AList.insert identity { capture with playerId, createdAt := db.clock }
          db.funds.fundingCaptures).lookup k = some c) :
      db.funds.fundingCaptures.lookup k = some c ∨ c.snapshot = capture.snapshot := by
    split at hk
    next => exact .inl hk
    next =>
      rcases Table.lookup_insert_cases hk with ⟨-, rfl⟩ | ⟨-, hk⟩
      · exact .inr rfl
      · exact .inl hk
  split at h
  next hnone =>
    obtain rfl := Except.ok.inj h
    refine .of_step (c := .fundingRecorded) .refl trivial (.fundingRecorded id hcaptures id ?_)
    intro _ hknown k c s hk hs
    rcases hnew hk with hk | hsame
    · exact hknown hk hs
    · rw [hsame, hnone] at hs
      cases hs
  next snapshot hsome =>
    obtain rfl := Except.ok.inj h
    have hremember := @remember_spec playerId
      (snapshot.topups.entries.map fun e => (e.1, e.2)) (db.funds.topupFacts, false)
    refine .of_step (c := .fundingRecorded) .refl trivial
      (.fundingRecorded ?_ hcaptures hremember.keeps ?_)
    · intro hnil
      split at hnil
      next => cases hnil
      next => exact hnil
    · intro hnil hknown k c s hk hs topupId t ht
      have hquiet : ((snapshot.topups.entries.map fun e => (e.1, e.2)).foldl
          (rememberTopup playerId) (db.funds.topupFacts, false)).2 = false := by
        by_contra htrue
        rw [Bool.not_eq_false] at htrue
        split at hnil
        next => cases hnil
        next hcond => simp [hnil, htrue] at hcond
      rcases hnew hk with hk | hsame
      · obtain ⟨row, hrow, hfacts⟩ := Option.map_eq_some_iff.mp (hknown hk hs ht)
        rw [hremember.keeps hrow, Option.map_some, hfacts]
      · rw [hsame, hsome] at hs
        obtain rfl := Option.some.inj hs
        exact hremember.listed hquiet (topupId, t)
          (List.mem_map.mpr ⟨⟨topupId, t⟩, Table.mem_entries_iff.mpr ht, rfl⟩)

theorem read_spec {identity : String} {capture : FundingCapture} {snapshot : FundingSnapshot}
    (h : Funding.read db identity = .ok (capture, snapshot)) :
    db.funds.fundingCaptures.lookup identity = some capture ∧ capture.snapshot = some snapshot := by
  simp only [Funding.read, bind_eq_ok, fetch_eq_ok, pure_eq_ok, Prod.mk.injEq] at h
  obtain ⟨c, hc, s, hs, rfl, rfl⟩ := h
  exact ⟨hc, hs⟩

end Funding

/-! ## Top-ups -/

namespace Topups

theorem begin_moves (hf : db.funds.Lawful) {requestKey : String} {preflight : CustodyPreflight}
    {policyCapture : String} {amount feeLimit : ℤ} {feeModel actor : String}
    {around : Surroundings} {out : Uuid} {cap : Option SpendingCap}
    (h : Topups.begin db requestKey preflight policyCapture amount feeLimit feeModel actor around
      identity cap = .ok (db', out)) :
    db.Moves (Only [.topupBegun identity]) db' := by
  simp only [Topups.begin, bind_eq_ok, require_eq_ok, exists_const, units_eq_ok] at h
  obtain ⟨amount, ⟨rfl, -⟩, feeLimit, ⟨rfl, -⟩, -, ⟨capture, policy⟩, -, db₁, hbind, h⟩ := h
  obtain ⟨-, hbound⟩ := Custody.bind_spec hbind
  refine hbound.only.trans ?_
  split at h
  next =>
    simp only [bind_eq_ok, require_eq_ok, exists_const, pure_eq_ok, Prod.mk.injEq] at h
    obtain ⟨-, rfl, -⟩ := h
    exact .refl _
  next =>
    simp only [bind_eq_ok, require_eq_ok, exists_const, pure_eq_ok, Prod.mk.injEq] at h
    obtain ⟨-, -, -, -, -, -, -, -, -, -, -, db₂, hnonce, l₁, h₁, l₂, h₂, l₃, hpost, hfresh, rfl,
      -⟩ := h
    obtain ⟨db₃, send, hbind', hsend, -, -, rfl⟩ := Custody.reserveNonce_spec hnonce
    obtain ⟨-, hbound'⟩ := Custody.bind_spec hbind'
    refine hbound'.only.trans ?_
    have hnone : db₃.funds.protocolTopups.lookup identity = none := AList.lookup_eq_none.mpr hfresh
    have open₁ : Funds.Path Change.Quiet db₃.funds { db₃.funds with ledger := l₁ } :=
      Ledger.account_path h₁ rfl
    have open₂ : Funds.Path Change.Quiet { db₃.funds with ledger := l₁ }
        { db₃.funds with ledger := l₂ } :=
      Ledger.account_path (f := { db₃.funds with ledger := l₁ }) h₂ rfl
    have hpath : Funds.Path Change.Quiet db₃.funds { db₃.funds with ledger := l₂ } :=
      open₁.trans open₂
    have hkey : EventKey.topupReserve identity ∉ l₂.journals := by
      refine (hpath.lawful (hbound'.lawful (hbound.lawful hf))).explained.fresh ?_
      rintro m ⟨t, ht, -⟩
      rw [hnone] at ht
      cases ht
    refine .of_step hpath.only .change (.topupBegun (f := { db₃.funds with ledger := l₂ }) hnone rfl rfl
      ⟨hsend.fresh, hsend.kind, hsend.payment, hsend.authorization, hsend.route, hsend.nonce⟩ ?_)
    refine .of_post hpost hkey ?_ fun _ => rfl
    have hcash : Balanced AccountId.place
        [(.operator .custody .TIG, -(amount : ℤ)), (held identity .TIG, (amount : ℤ))] :=
      .transfer rfl _
    exact hcash.append (.transfer rfl _)

/-- The only top-up that can be new is checked against the cap, and sent now. -/
theorem begin_gas {requestKey : String} {preflight : CustodyPreflight} {policyCapture : String}
    {amount feeLimit : ℤ} {feeModel actor : String} {around : Surroundings} {out : Uuid}
    {cap : Option SpendingCap}
    (h : Topups.begin db requestKey preflight policyCapture amount feeLimit feeModel actor around
      identity cap = .ok (db', out)) :
    db'.funds.withdrawalAttempts = db.funds.withdrawalAttempts ∧
      (db'.funds.protocolTopups = db.funds.protocolTopups ∨ ∃ t u,
        Spending.checkGas db t.feeLimit cap = .ok u ∧ t.sentAt = db.clock ∧
        db.funds.protocolTopups.lookup identity = none ∧
        db'.funds.protocolTopups = AList.insert identity t db.funds.protocolTopups) := by
  simp only [Topups.begin, bind_eq_ok, require_eq_ok, exists_const, units_eq_ok] at h
  obtain ⟨amount, ⟨rfl, -⟩, feeLimit, ⟨rfl, -⟩, -, ⟨capture, policy⟩, -, db₁, hbind, h⟩ := h
  obtain ⟨rfl, -⟩ := Custody.bind_spec hbind
  split at h
  next =>
    simp only [bind_eq_ok, require_eq_ok, exists_const, pure_eq_ok, Prod.mk.injEq] at h
    obtain ⟨-, rfl, -⟩ := h
    exact ⟨rfl, .inl rfl⟩
  next =>
    simp only [bind_eq_ok, require_eq_ok, exists_const, pure_eq_ok, Prod.mk.injEq] at h
    obtain ⟨-, -, -, -, -, -, -, -, -, u, hcap, db₂, hnonce, l₁, -, l₂, -, l₃, -, hfresh, rfl,
      -⟩ := h
    obtain ⟨db₃, send, hbind', -, -, -, rfl⟩ := Custody.reserveNonce_spec hnonce
    obtain ⟨rfl, -⟩ := Custody.bind_spec hbind'
    refine ⟨rfl, .inr ⟨_, u, ?_, ?_, AList.lookup_eq_none.mpr hfresh, rfl⟩⟩
    · exact hcap
    · rfl

theorem reconcileEvidence_spec {transaction : ConfirmedTransaction}
    (h : Topups.reconcileEvidence db identity transaction = .ok db') :
    db.Moves Change.Quiet db' ∧ ∃ tx, db'.funds.chainTransactions.lookup
        (transaction.network.chainId, transaction.txHash) = some tx ∧
      Custody.Records tx transaction := by
  simp only [Topups.reconcileEvidence, bind_eq_ok] at h
  obtain ⟨value, -, -, -, hsave⟩ := h
  obtain ⟨transactions, tx, rfl, htx, hrecords, hmoves⟩ := Custody.saveTransaction_spec hsave
  exact ⟨hmoves, tx, htx, hrecords⟩

theorem instructions_spec {value : Instructions} (h : instructions db identity = .ok value) :
    db.funds.protocolTopups.lookup identity = some value.row ∧
      db.funds.custodySends.lookup identity = some value.send := by
  simp only [instructions, bind_eq_ok, fetch_eq_ok, pure_eq_ok] at h
  obtain ⟨row, hrow, send, hsend, rfl⟩ := h
  exact ⟨hrow, hsend⟩

/-- What has been checked about the token event of a top-up. -/
theorem checkTransaction_spec {value : Instructions} {transaction : ConfirmedTransaction}
    {transfer : Option ConfirmedTransfer} {u : Unit}
    (h : checkTransaction value transaction transfer = .ok u) :
    value.row.preflightBlock < transaction.blockNumber ∧ ∀ t, transfer = some t →
      t.sender = value.send.sender ∧ t.amount = value.row.amount ∧ t.txHash = transaction.txHash := by
  simp only [checkTransaction, bind_eq_ok, require_eq_ok, exists_const] at h
  obtain ⟨-, -, ⟨hblock, -⟩, h⟩ := h
  refine ⟨hblock, fun t ht => ?_⟩
  subst ht
  simp only [bind_eq_ok, require_eq_ok, exists_const] at h
  obtain ⟨-, -, -, -, hsender, -, hamount, hhash, -⟩ := h
  exact ⟨hsender, hamount, hhash⟩

theorem outcome_cases {row : ProtocolTopup} {transaction : ConfirmedTransaction}
    {transfer : Option ConfirmedTransfer} {state : TopupState}
    (h : outcome row transaction transfer = .ok state) :
    ((state = .failed ∨ state = .cancelled) ∧ transfer = none) ∨
      (state = .awaitingProtocol ∧ ∃ t, transfer = some t) := by
  unfold outcome at h
  split at h
  next =>
    simp only [bind_eq_ok, require_eq_ok, exists_const, pure_eq_ok] at h
    obtain ⟨hnone, rfl⟩ := h
    exact .inl ⟨.inl rfl, hnone⟩
  next =>
    split at h
    next hsome =>
      simp only [bind_eq_ok, require_eq_ok, exists_const, pure_eq_ok] at h
      obtain ⟨-, rfl⟩ := h
      exact .inr ⟨rfl, Option.isSome_iff_exists.mp hsome⟩
    next hsome =>
      simp only [bind_eq_ok, require_eq_ok, exists_const, pure_eq_ok] at h
      obtain ⟨-, rfl⟩ := h
      exact .inl ⟨.inr rfl, by simpa using hsome⟩

/-- The last writes for a send that a transaction has resolved. -/
theorem settle_moves (hf : db.funds.Lawful) {row : ProtocolTopup} {send : CustodySend}
    (hrow : db.funds.protocolTopups.lookup identity = some row)
    (hsend : db.funds.custodySends.lookup identity = some send) (hunpaid : send.payment = none)
    (hstate : row.state = .uncertain) {state : TopupState} {transaction : ConfirmedTransaction}
    {destination : AccountId} {kind : String} {details : Json} {l : Ledger}
    (hdestination : destination
      = if state.sent then .external .custody .TIG else .operator .custody .TIG)
    (hpost : db.funds.ledger.post (.topupCash identity) kind
      [(held identity .TIG, -row.amount), (destination, row.amount),
       (held identity .NATIVE, -row.feeLimit),
       (.operator .custody .NATIVE, row.feeLimit - transaction.fee),
       (.external .custody .NATIVE, transaction.fee)] details none = .ok l)
    {event : Option EventId} {journal : EventKey} {db₁ : Db}
    (hexplained : ∀ {p : CustodyPayment}, p.transferEvent = event →
      p.chainId = transaction.network.chainId → p.txHash = transaction.txHash →
      (state = .failed ∨ state = .cancelled) ∧ p.transferEvent = none ∨
        state = .awaitingProtocol ∧ (∃ e t tx, p.transferEvent = some e ∧ e.txHash = p.txHash ∧
          db.funds.transfers.lookup e = some t ∧ t.amount = row.amount ∧
          some t.sender = db.funds.wallet ∧
          db.funds.chainTransactions.lookup (p.chainId, p.txHash) = some tx ∧
          row.preflightBlock < tx.blockNumber))
    (hpay : Custody.recordPayment (db.withLedger l) identity transaction event journal = .ok db₁) :
    db.Moves (Only [.topupReconciled identity state])
      (db₁.putTopup identity { row with state }) := by
  obtain ⟨s, p, authorization, hs, hexplains, hchain, hhash, hevent, hfee, -, -, -, rfl⟩ :=
    Custody.recordPayment_spec hpay fun hs => by
      obtain rfl := Option.some.inj (hsend.symm.trans hs)
      exact hunpaid
  have hkey : EventKey.topupCash identity ∉ db.funds.ledger.journals := by
    refine hf.explained.fresh ?_
    rintro m ⟨t, _, _, ht, hne, -⟩
    obtain rfl := Option.some.inj (hrow.symm.trans ht)
    exact hne hstate
  have hrecorded : db.funds.ledger.Recorded (.topupCash identity)
      (topupCashMovements identity row state.sent p.fee) l := by
    subst hdestination
    rw [hfee]
    exact .of_post hpost hkey topupCashMovements_balanced fun _ => rfl
  exact .of_step .refl .change (.topupReconciled hrow hstate hs
    ⟨hexplains.unpaid, hexplains.chain, hexplains.saved, hexplains.transaction, hexplains.event⟩
    (hexplained hevent hchain hhash) hrecorded)

theorem reconcile_moves (hf : db.funds.Lawful) {transaction : ConfirmedTransaction}
    {transfer : Option ConfirmedTransfer} {out : TopupState}
    (hsaved : ∃ tx, db.funds.chainTransactions.lookup
        (transaction.network.chainId, transaction.txHash) = some tx ∧
      Custody.Records tx transaction)
    (h : Topups.reconcile db identity transaction transfer = .ok (db', out)) :
    db.Moves (Only [.topupReconciled identity out]) db' := by
  simp only [Topups.reconcile, bind_eq_ok] at h
  obtain ⟨value, hvalue, _, hcheck, db₁, hbind, h⟩ := h
  obtain ⟨hrow, hsend⟩ := instructions_spec hvalue
  obtain ⟨hblock, hevent⟩ := checkTransaction_spec hcheck
  obtain ⟨hdb₁, hbound⟩ := Custody.bind_spec hbind
  refine hbound.only.trans ?_
  split at h
  next =>
    simp only [bind_eq_ok, require_eq_ok, exists_const, pure_eq_ok, Prod.mk.injEq] at h
    obtain ⟨-, rfl, -⟩ := h
    exact .refl _
  next hunpaid =>
    simp only [bind_eq_ok, require_eq_ok, exists_const, pure_eq_ok, Prod.mk.injEq] at h
    obtain ⟨hstate, state, houtcome, db₂, hsave, l, hpost, db₃, hpay, rfl, rfl⟩ := h
    rcases outcome_cases houtcome with ⟨hdead, rfl⟩ | ⟨rfl, t, rfl⟩
    · obtain rfl := Except.ok.inj hsave
      have hrow₁ : db₁.funds.protocolTopups.lookup identity = some value.row := by
        rw [hdb₁]
        exact hrow
      have hsend₁ : db₁.funds.custodySends.lookup identity = some value.send := by
        rw [hdb₁]
        exact hsend
      refine settle_moves (hbound.lawful hf) hrow₁ hsend₁ hunpaid hstate ?_ hpost
        (fun hp _ _ => .inl ⟨hdead, hp⟩) hpay
      rcases hdead with rfl | rfl <;> rfl
    · obtain ⟨transfers, row, hdb₂, ht, hfacts, -, -, hmoves⟩ := Deposits.saveTransfer_spec hsave
      refine hmoves.only.trans ?_
      obtain ⟨tx, htx, hrecords⟩ := hsaved
      obtain ⟨hsender, hamount, hhash⟩ := hevent t rfl
      have hf₂ := hmoves.lawful (hbound.lawful hf)
      have hrow₂ : db₂.funds.protocolTopups.lookup identity = some value.row := by
        rw [hdb₂, hdb₁]
        exact hrow
      have hsend₂ : db₂.funds.custodySends.lookup identity = some value.send := by
        rw [hdb₂, hdb₁]
        exact hsend
      have htx₂ : db₂.funds.chainTransactions.lookup
          (transaction.network.chainId, transaction.txHash) = some tx := by
        rw [hdb₂, hdb₁]
        exact htx
      have hsender₂ : some row.sender = db₂.funds.wallet := by
        rw [hfacts.2.2.2.1, hsender]
        exact hf₂.rows.route hsend₂
      have hblock₂ : value.row.preflightBlock < tx.blockNumber := by
        rw [show tx.blockNumber = transaction.blockNumber from
          congrArg ChainTransaction.blockNumber hrecords]
        exact hblock
      refine settle_moves hf₂ hrow₂ hsend₂ hunpaid hstate ?_ hpost ?_ hpay
      · rfl
      intro p hp hchain hptx
      refine .inr ⟨rfl, t.eventId, row, tx, hp, ?_, by rw [hdb₂]; exact ht,
        hfacts.2.2.2.2.2.trans hamount, hsender₂, ?_, hblock₂⟩
      · rw [hptx]
        exact hhash
      · rw [hchain, hptx]
        exact htx₂

theorem credit_moves (hf : db.funds.Lawful) {value : Instructions} {captureId : String}
    {out : TopupCredit}
    (hrow : ∃ t, db.funds.protocolTopups.lookup identity = some t ∧ value.row.Extends t)
    (hsend : ∃ s, db.funds.custodySends.lookup identity = some s ∧ value.send.Extends s)
    (h : credit db identity value captureId = .ok (db', out)) :
    db.Moves (Only [.topupCredited identity]) db' := by
  simp only [credit, bind_eq_ok, require_eq_ok, exists_const, fetch_eq_ok] at h
  obtain ⟨⟨capture, snapshot⟩, hread, -, db₁, hbind, halerts, row, hlookup, h⟩ := h
  obtain ⟨hcapture, hsnapshot⟩ := Funding.read_spec hread
  obtain ⟨hdb₁, hbound⟩ := Custody.bind_spec hbind
  refine hbound.only.trans ?_
  split at h
  next =>
    obtain ⟨rfl, -⟩ := Prod.mk.inj (Except.ok.inj h)
    exact .refl _
  next hnone =>
    simp only [bind_eq_ok, require_eq_ok, exists_const, fetch_eq_ok] at h
    obtain ⟨hstate, event, hevent, -, h⟩ := h
    split at h
    next topupId topup hconfirmed =>
      simp only [bind_eq_ok, require_eq_ok, exists_const, pure_eq_ok, Prod.mk.injEq] at h
      obtain ⟨hunused, l, hpost, rfl, -⟩ := h
      have hrow₁ : db₁.funds.protocolTopups = db.funds.protocolTopups := by rw [hdb₁]
      have hsends : db₁.funds.custodySends = db.funds.custodySends := by rw [hdb₁]
      have hfunding : db₁.funds.fundingCaptures = db.funds.fundingCaptures := by rw [hdb₁]
      obtain ⟨t, ht, hx⟩ := hrow
      rw [hrow₁, ht] at hlookup
      obtain rfl := Option.some.inj hlookup
      obtain ⟨s, hs, hxs⟩ := hsend
      obtain ⟨p, hp, hpevent⟩ := Option.bind_eq_some_iff.mp hevent
      obtain ⟨hmem, hmatch⟩ : (topupId, topup) ∈ snapshot.topups.entries.map (fun e => (e.1, e.2)) ∧
          topup.txHash = event.txHash ∧ topup.logIndex = event.logIndex := by
        have hone : (topupId, topup) ∈ [(topupId, topup)] := List.mem_singleton.mpr rfl
        rw [← hconfirmed, List.mem_filter] at hone
        refine ⟨hone.1, ?_⟩
        have := of_decide_eq_true hone.2
        exact ⟨this.1, this.2.1⟩
      obtain ⟨entry, hentry, heq⟩ := List.mem_map.mp hmem
      obtain ⟨rfl, rfl⟩ := Prod.mk.inj heq
      have hkey : EventKey.topupProtocol identity ∉ db₁.funds.ledger.journals := by
        refine (hbound.lawful hf).explained.fresh ?_
        rintro m ⟨t', ht', hcredit, -⟩
        rw [hrow₁, ht] at ht'
        obtain rfl := Option.some.inj ht'
        simp [hnone] at hcredit
      refine .of_step .refl .change (.topupCredited (hrow₁ ▸ ht) hstate hnone (hsends ▸ hs)
        (hxs.payment p hp) hpevent ?_ halerts ?_ hmatch.1 hmatch.2
        (.of_post hpost hkey openingPosition_balanced fun a => by rw [hx.amount]; rfl))
      · intro k t' c' ht' hc'
        have := Table.any_eq_false.mp hunused k t' ht'
        simp_all
      · intro hknown
        exact hknown (hfunding ▸ hcapture) hsnapshot (Table.mem_entries_iff.mp hentry)
    next => cases h

end Topups

end TigPool
