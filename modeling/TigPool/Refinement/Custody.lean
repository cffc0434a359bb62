/-
# `TigPool.Refinement.Custody` — the chain's facts and the deposits

What the operations of `custody.py`, `deposits.py` and `internal_native.py` do to
the funds.  Saving a fact is quiet; a receipt is credited and attributed once each.
-/
import TigPool.Refinement.Benchmarks

namespace TigPool

open Basis

variable {db db' : Db}

/-- The custody identity that a network stands for. -/
def Network.identity (network : Network) : CustodyIdentity where
  chainId := network.chainId
  token := network.token
  wallet := network.custody
  decimals := network.decimals

/-! ## Facts of the chain -/

namespace Custody

theorem bind_spec {network : Network} (h : Custody.bind db network = .ok db') :
    db' = { db with funds := { db.funds with custodyIdentity := some network.identity } } ∧
      db.Moves Change.Quiet db' := by
  simp only [Custody.bind, bind_eq_ok, require_eq_ok, exists_const] at h
  obtain ⟨-, h⟩ := h
  split at h
  next existing hex =>
    simp only [bind_eq_ok, require_eq_ok, exists_const, pure_eq_ok] at h
    obtain ⟨rfl, rfl⟩ := h
    refine ⟨?_, .refl db⟩
    rw [show some network.identity = db.funds.custodyIdentity from hex.symm]
  next hnone =>
    simp only [bind_eq_ok, require_eq_ok, exists_const, pure_eq_ok] at h
    obtain ⟨-, rfl⟩ := h
    exact ⟨rfl, .of_step (c := .custodyBound) .refl trivial (.custodyBound hnone)⟩

/-- The row records the transaction, whatever its evidence. -/
def Records (row : ChainTransaction) (transaction : ConfirmedTransaction) : Prop :=
  { row with evidence := transaction.evidence } = transactionRow transaction

theorem saveTransaction_spec {transaction : ConfirmedTransaction}
    (h : saveTransaction db transaction = .ok db') :
    ∃ transactions row,
      db' = { db with funds := { db.funds with
        custodyIdentity := some transaction.network.identity, chainTransactions := transactions } } ∧
      transactions.lookup (transaction.network.chainId, transaction.txHash) = some row ∧
      Records row transaction ∧ db.Moves Change.Quiet db' := by
  simp only [saveTransaction, bind_eq_ok] at h
  obtain ⟨db₁, hbind, h⟩ := h
  obtain ⟨rfl, hmoves⟩ := bind_spec hbind
  split at h
  next previous hprevious =>
    simp only [bind_eq_ok, require_eq_ok, exists_const, pure_eq_ok] at h
    obtain ⟨hsame, rfl⟩ := h
    exact ⟨_, previous, rfl, hprevious, hsame, hmoves⟩
  next hnone =>
    simp only [bind_eq_ok, require_eq_ok, exists_const, pure_eq_ok] at h
    obtain ⟨hunused, rfl⟩ := h
    refine ⟨_, transactionRow transaction, rfl, AList.lookup_insert _, rfl, hmoves.trans ?_⟩
    refine .of_step (c := .transactionSaved) .refl trivial (.transactionSaved hnone ?_)
    intro k r hr
    simpa [transactionRow] using Table.any_eq_false.mp hunused k r hr

theorem reserveNonce_spec {identity : Uuid} {network : Network} {nonce : ℕ} {kind : SendKind}
    (h : reserveNonce db identity network nonce kind = .ok db') :
    ∃ db₁ send, Custody.bind db network = .ok db₁ ∧ db₁.funds.FreshSend identity send kind ∧
      send.sender = network.custody ∧ send.chainId = network.chainId ∧
      db' = db₁.putSend identity send := by
  simp only [reserveNonce, bind_eq_ok, require_eq_ok, exists_const, pure_eq_ok] at h
  obtain ⟨db₁, hbind, hunused, hfresh, rfl⟩ := h
  refine ⟨db₁, _, hbind, ⟨AList.lookup_eq_none.mpr hfresh, rfl, rfl, rfl, ?_, ?_⟩, rfl, rfl, rfl⟩
  · rw [(bind_spec hbind).1]
    rfl
  · intro k s hs
    simpa using Table.any_eq_false.mp hunused k s hs

/-- A payment of a send that had none. -/
theorem recordPayment_spec {identity : Uuid} {transaction : ConfirmedTransaction}
    {transferEvent : Option EventId} {journal : EventKey} {sponsorship : Option Sponsorship}
    (h : recordPayment db identity transaction transferEvent journal sponsorship = .ok db')
    (hunpaid : ∀ {s}, db.funds.custodySends.lookup identity = some s → s.payment = none) :
    ∃ s p authorization, db.funds.custodySends.lookup identity = some s ∧
      db.funds.Explains s p ∧ p.chainId = transaction.network.chainId ∧
      p.txHash = transaction.txHash ∧ p.transferEvent = transferEvent ∧
      p.fee = sponsorship.elim transaction.fee (fun _ => 0) ∧
      authorization = sponsorship.map (fun s =>
        { chainId := transaction.network.chainId, txHash := transaction.txHash
          authority := transaction.network.custody, nonce := s.authorization.custodyNonce
          delegate := s.authorization.delegate, actor := s.actor, reason := s.reason }) ∧
      s.sender = sponsorship.elim transaction.sender (fun _ => transaction.network.custody) ∧
      s.nonce = sponsorship.elim transaction.nonce (·.authorization.custodyNonce) ∧
      db' = db.putSend identity { s with payment := some p, authorization } := by
  simp only [recordPayment, bind_eq_ok, require_eq_ok, exists_const, fetch_eq_ok] at h
  obtain ⟨-, s, hs, ⟨hchain, hsender, hnonce⟩, h⟩ := h
  split at h
  next old send hfind =>
    simp only [bind_eq_ok, require_eq_ok, exists_const, pure_eq_ok] at h
    obtain ⟨⟨rfl, hhash, -⟩, -⟩ := h
    rw [hunpaid (Table.find_eq_some hfind).1] at hhash
    cases hhash
  next hnone =>
    simp only [bind_eq_ok, require_eq_ok, exists_const, pure_eq_ok] at h
    obtain ⟨-, hevent, hsaved, rfl⟩ := h
    refine ⟨s, _, _, hs, ⟨hunpaid hs, hchain.symm, hsaved, ?_, ?_⟩, rfl, rfl, rfl, rfl, ?_, hsender,
      hnonce, rfl⟩
    · intro k s' p' hs' hp'
      have := Table.find_eq_none.mp hnone k s' hs'
      simp_all
    · intro k s' p' e hs' hp' he
      rcases hevent with hevent | hevent
      · rw [hevent] at he
        cases he
      · have := Table.any_eq_false.mp hevent k s' hs'
        simp_all
    · cases sponsorship <;> rfl

theorem receiveNative_moves {transaction : ConfirmedTransaction}
    (h : receiveNative db transaction = .ok db') : db.Moves (Only [.nativeFunded]) db' := by
  simp only [receiveNative, bind_eq_ok, require_eq_ok, exists_const, pure_eq_ok] at h
  obtain ⟨-, db₁, hbind, db₂, hsave, l, hpost, rfl⟩ := h
  obtain ⟨-, hbound⟩ := bind_spec hbind
  obtain ⟨_, _, -, -, -, hsaved⟩ := saveTransaction_spec hsave
  refine (hbound.trans hsaved).only.trans ?_
  by_cases hmem : EventKey.nativeReceipt transaction.network.chainId transaction.txHash
      ∈ db₂.funds.ledger.journals
  · rcases Ledger.post_cases hpost with ⟨-, rfl⟩ | ⟨hp, -⟩
    · exact .refl db₂
    · exact absurd hmem (AList.lookup_eq_none.mp hp.fresh)
  · exact .of_step .refl .change (.nativeFunded rfl (fun _ hc => by cases hc)
      (.of_post hpost hmem nativeMovements_balanced fun _ => rfl))

end Custody

/-! ## Deposits -/

namespace Deposits

theorem saveTransfer_spec {transfer : ConfirmedTransfer} (h : saveTransfer db transfer = .ok db') :
    ∃ transfers row,
      db' = { db with funds := { db.funds with
        custodyIdentity := some transfer.network.identity, transfers := transfers } } ∧
      transfers.lookup transfer.eventId = some row ∧ sameFacts row transfer ∧
      (∀ e, e ≠ transfer.eventId → transfers.lookup e = db.funds.transfers.lookup e) ∧
      (∀ r, db.funds.transfers.lookup transfer.eventId = some r → row = r) ∧
      db.Moves Change.Quiet db' := by
  simp only [saveTransfer, bind_eq_ok] at h
  obtain ⟨db₁, hbind, h⟩ := h
  obtain ⟨rfl, hmoves⟩ := Custody.bind_spec hbind
  split at h
  next previous hprevious =>
    simp only [bind_eq_ok, require_eq_ok, exists_const, pure_eq_ok] at h
    obtain ⟨hsame, rfl⟩ := h
    exact ⟨_, previous, rfl, hprevious, hsame, fun _ _ => rfl,
      fun r hr => Option.some.inj (hprevious.symm.trans hr), hmoves⟩
  next hnone =>
    obtain rfl := Except.ok.inj h
    refine ⟨_, transferRow transfer, rfl, AList.lookup_insert _, ⟨rfl, rfl, rfl, rfl, rfl, rfl⟩,
      fun e he => AList.lookup_insert_ne he, fun r hr => ?_, hmoves.trans ?_⟩
    · cases hnone.symm.trans hr
    · refine .of_step (c := .transferSaved transfer.eventId) .refl trivial
        (.transferSaved hnone ?_ rfl rfl)
      simp [Funds.Bound, Network.identity, ConfirmedTransfer.eventId]

theorem attribution_key (hf : db.funds.Lawful) {e : EventId} {row : Transfer}
    (hrow : db.funds.transfers.lookup e = some row) (hnone : row.attribution = none) :
    EventKey.attribution e ∉ db.funds.ledger.journals := by
  refine hf.explained.fresh ?_
  rintro m ⟨t, a, ht, ha, -⟩
  obtain rfl := Option.some.inj (hrow.symm.trans ht)
  rw [hnone] at ha
  cases ha

/-- The event is given to one destination, now or before. -/
theorem attributeTransfer_spec (hf : db.funds.Lawful) {transfer : ConfirmedTransfer}
    {destination : AccountId} {actor : String} {evidence : Json}
    (h : attributeTransfer db transfer destination actor evidence = .ok db')
    (hplace : destination.place = (.TIG, .custody)) :
    ∃ row, db.funds.transfers.lookup transfer.eventId = some row ∧
      ((∃ a, row.attribution = some a ∧ a.destination = destination ∧ db' = db) ∨
        (row.attribution = none ∧ ∃ l a, a.destination = destination ∧
          db.funds.ledger.Recorded (.attribution transfer.eventId)
            (attributionMovements transfer.amount destination) l ∧
          db' = (db.withLedger l).putTransfer transfer.eventId
            { row with attribution := some a })) := by
  simp only [attributeTransfer, bind_eq_ok, fetch_eq_ok] at h
  obtain ⟨row, hrow, h⟩ := h
  refine ⟨row, hrow, ?_⟩
  split at h
  next previous hprevious =>
    simp only [bind_eq_ok, require_eq_ok, exists_const, pure_eq_ok] at h
    exact .inl ⟨previous, hprevious, h.1, h.2.symm⟩
  next hnone =>
    simp only [bind_eq_ok, require_eq_ok, exists_const, ite_bind_eq_ok, pure_eq_ok] at h
    obtain ⟨l, hpost, -, rfl⟩ := h
    refine .inr ⟨hnone, l, _, rfl, ?_, rfl⟩
    refine .of_post_ite hpost (attribution_key hf hrow hnone) (attributionMovements_balanced hplace)
      fun hzero a => ?_
    simp [attributionMovements, not_ne_iff.mp hzero]

/-- A receipt that is not a round reward. -/
theorem attributeTransfer_moves (hf : db.funds.Lawful) {transfer : ConfirmedTransfer}
    {destination : AccountId} {actor : String} {evidence : Json}
    (h : attributeTransfer db transfer destination actor evidence = .ok db')
    (hdeposit : depositDestination destination) (hplace : destination.place = (.TIG, .custody))
    (hrow : ∀ {row}, db.funds.transfers.lookup transfer.eventId = some row →
      row.amount = transfer.amount ∧ row.incoming db.funds.wallet = true) :
    db.Moves (Only [.attributed transfer.eventId destination]) db' := by
  obtain ⟨row, hlookup, ⟨-, -, -, rfl⟩ | ⟨hnone, l, a, rfl, hrecorded, rfl⟩⟩ :=
    attributeTransfer_spec hf h hplace
  · exact .refl db'
  · obtain ⟨hamount, hincoming⟩ := hrow hlookup
    rw [← hamount] at hrecorded
    exact .of_step .refl .change (.attributed hlookup hincoming hnone hdeposit hrecorded)

/-- The facts that make a transfer an incoming one. -/
theorem incoming_of_facts {transfer : ConfirmedTransfer} {row : Transfer}
    (hfacts : sameFacts row transfer)
    (hbound : db.funds.custodyIdentity = some transfer.network.identity)
    (hin : transfer.recipient = transfer.network.custody ∧
      transfer.sender ≠ transfer.network.custody) : row.incoming db.funds.wallet = true := by
  obtain ⟨-, -, -, hsender, hrecipient, -⟩ := hfacts
  simp [Transfer.incoming, Funds.wallet, hbound, Network.identity, hsender, hrecipient, hin.1, hin.2]

/-- A saved incoming transfer is credited, now or before. -/
theorem credited_moves {e : EventId} {row : Transfer} {l : Ledger}
    (hrow : db.funds.transfers.lookup e = some row) (hin : row.incoming db.funds.wallet = true)
    (hpost : (if row.amount ≠ 0 then
      db.funds.ledger.post (.receipt e) "custody_receipt" (receiptMovements row.amount)
      else .ok db.funds.ledger) = .ok l) :
    db.Moves (Only [.received e]) (db.withLedger l) := by
  by_cases hmem : EventKey.receipt e ∈ db.funds.ledger.journals
  · obtain rfl : l = db.funds.ledger := by
      split at hpost
      · rcases Ledger.post_cases hpost with ⟨-, rfl⟩ | ⟨hp, -⟩
        · rfl
        · exact absurd hmem (AList.lookup_eq_none.mp hp.fresh)
      · exact (Except.ok.inj hpost).symm
    exact .refl db
  · refine .of_step .refl .change (.received hrow hin ?_)
    refine .of_post_ite hpost hmem receiptMovements_balanced fun hzero a => ?_
    simp [receiptMovements, not_ne_iff.mp hzero]

theorem receive_moves (hf : db.funds.Lawful) {transfer : ConfirmedTransfer} {out : AccountId}
    (h : receive db transfer = .ok (db', out)) :
    db.Moves (Only [.received transfer.eventId, .attributed transfer.eventId out]) db' := by
  simp only [receive, bind_eq_ok, require_eq_ok, exists_const, ite_bind_eq_ok] at h
  obtain ⟨hin, db₁, hsave, l, hpost, h⟩ := h
  obtain ⟨transfers, row, hdb, hlookup, hfacts, -, -, hsaved⟩ := saveTransfer_spec hsave
  have hrow : db₁.funds.transfers.lookup transfer.eventId = some row := by rw [hdb]; exact hlookup
  have hincoming : row.incoming db₁.funds.wallet = true := incoming_of_facts hfacts (by rw [hdb]) hin
  have hamount : row.amount = transfer.amount := hfacts.2.2.2.2.2
  have hcredited := credited_moves hrow hincoming (by rw [hamount]; exact hpost)
  have hreceived : db₁.Moves (Only [.received transfer.eventId, .attributed transfer.eventId out])
      (db₁.withLedger l) := hcredited.mono fun _ => Only.mono (by simp)
  have hboth := hsaved.only.trans hreceived
  have hlawful := hboth.lawful hf
  refine hboth.trans ?_
  split at h
  next attributed hattributed =>
    obtain ⟨rfl, -⟩ := Prod.mk.inj (Except.ok.inj h)
    exact .refl _
  next hnone =>
    split at h
    next memberId member hmember =>
      simp only [bind_eq_ok, pure_eq_ok, Prod.mk.injEq] at h
      obtain ⟨db₂, hattribute, rfl, rfl⟩ := h
      refine (attributeTransfer_moves hlawful hattribute rfl rfl ?_).mono fun _ =>
        Only.mono (by simp)
      intro r hr
      obtain rfl := Option.some.inj (hrow.symm.trans hr)
      exact ⟨hamount, hincoming⟩
    next =>
      obtain ⟨rfl, -⟩ := Prod.mk.inj (Except.ok.inj h)
      exact .refl _

/-- The account that an operator's investigation names. -/
def ReviewedDestination.account : ReviewedDestination → AccountId
  | .member memberId => available memberId
  | .operator => .operator .custody .TIG

theorem attributeReviewed_moves (hf : db.funds.Lawful) {transfer : ConfirmedTransfer}
    {actor : String} {evidence : Json} {destination : ReviewedDestination}
    (h : attributeReviewed db transfer actor evidence destination = .ok db') :
    db.Moves (Only [.attributed transfer.eventId destination.account]) db' := by
  simp only [attributeReviewed, bind_eq_ok, require_eq_ok, exists_const] at h
  obtain ⟨-, hin, db₁, hbind, -, db₂, hsave, h⟩ := h
  obtain ⟨-, hbound⟩ := Custody.bind_spec hbind
  obtain ⟨transfers, row, hdb, hlookup, hfacts, -, -, hsaved⟩ := saveTransfer_spec hsave
  have hboth := hbound.trans hsaved
  refine hboth.only.trans ?_
  have hfact : ∀ {r}, db₂.funds.transfers.lookup transfer.eventId = some r →
      r.amount = transfer.amount ∧ r.incoming db₂.funds.wallet = true := by
    intro r hr
    rw [hdb] at hr
    obtain rfl := Option.some.inj (hlookup.symm.trans hr)
    exact ⟨hfacts.2.2.2.2.2, incoming_of_facts hfacts (by rw [hdb]) hin⟩
  cases destination with
  | member memberId =>
      simp only [bind_eq_ok] at h
      obtain ⟨-, -, h⟩ := h
      exact attributeTransfer_moves (hboth.lawful hf) h rfl rfl hfact
  | operator => exact attributeTransfer_moves (hboth.lawful hf) h rfl rfl hfact

end Deposits

theorem receiveInternalNative_moves {receipt : InternalNativeReceipt}
    {actor : String} (h : receiveInternalNative db receipt actor = .ok db') :
    db.Moves (Only [.nativeFunded]) db' := by
  simp only [receiveInternalNative, bind_eq_ok, require_eq_ok, exists_const, units_eq_ok] at h
  obtain ⟨-, -, amount, -, -, db₁, hbind, db₂, hsave, h⟩ := h
  obtain ⟨-, hbound⟩ := Custody.bind_spec hbind
  obtain ⟨_, _, -, -, -, hsaved⟩ := Custody.saveTransaction_spec hsave
  refine (hbound.trans hsaved).only.trans ?_
  split at h
  next previous hprevious =>
    simp only [bind_eq_ok, require_eq_ok, exists_const, pure_eq_ok] at h
    obtain ⟨-, rfl⟩ := h
    exact .refl _
  next hnone =>
    simp only [bind_eq_ok, pure_eq_ok] at h
    obtain ⟨l, hpost, rfl⟩ := h
    rcases Ledger.post_cases hpost with ⟨-, rfl⟩ | ⟨hp, -⟩
    · -- Funded already under this key: only the row is new.
      have hnothing : db₂.funds.ledger.Recorded (.nativeInternalReceipt 0 "" [])
          (nativeMovements 0) db₂.funds.ledger := .inl ⟨rfl, fun a => by simp [nativeMovements]⟩
      exact .of_step .refl .change (.nativeFunded rfl (fun _ hc => by cases hc) hnothing)
    · exact .of_step .refl .change (.nativeFunded rfl (fun _ hc => by cases hc)
        (.of_post hpost (AList.lookup_eq_none.mp hp.fresh) nativeMovements_balanced fun _ => rfl))

end TigPool
