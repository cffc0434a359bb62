/-
# `TigPool.Refinement.Moves` — an operation is a path of the abstract machine

`db.Moves L db'` says what a theorem about an operation says: the funds follow a
path of `Funds.Step`, by changes of the kinds in `L`, and the tables about reports,
observed blocks and submissions are as they were.  The modules of this folder prove
it for each operation of the service that touches the funds, once, from the text of
the operation; nothing later looks into one for what it does to the money.

A change is *quiet* if it neither moves money nor resolves anything: opening an
account, saving a fact of the chain, editing a member.
-/
import TigPool.Invariant

namespace TigPool

open Basis

/-! ## Kinds of changes -/

/-- Nothing moves and nothing is resolved. -/
def Change.Quiet : Change → Prop
  | .opened _ | .custodyBound | .fundingRecorded | .batchRecorded | .memberPut _
  | .transactionSaved | .transferSaved _ => True
  | _ => False

/-- Quiet changes and these. -/
def Only (cs : List Change) (c : Change) : Prop :=
  c.Quiet ∨ c ∈ cs

theorem Only.quiet {cs : List Change} {c : Change} (h : c.Quiet) : Only cs c := Or.inl h

theorem Only.change {c : Change} {cs : List Change} : Only (c :: cs) c := Or.inr List.mem_cons_self

theorem Only.mono {cs cs' : List Change} (h : cs ⊆ cs') {c : Change} (hc : Only cs c) :
    Only cs' c :=
  hc.imp id fun hmem => h hmem

/-- Only work that `L` lets go on is marked as sent. -/
def Work.Sends (L : Change → Prop) (w w' : Work) : Prop :=
  ∀ id, L (.progressed id) ∨ w'.reservationEvents.lookup (id, .potentiallySent)
    = w.reservationEvents.lookup (id, .potentiallySent)

namespace Work.Sends

variable {L L' : Change → Prop} {w w' w'' : Work}

theorem of_eq (h : w'.reservationEvents = w.reservationEvents) : w.Sends L w' :=
  fun _ => .inr (by rw [h])

theorem trans (h : w.Sends L w') (h' : w'.Sends L w'') : w.Sends L w'' := by
  intro id
  rcases h id with hL | h
  · exact .inl hL
  · exact (h' id).imp_right (·.trans h)

theorem mono (h : w.Sends L w') (hL : ∀ c, L c → L' c) : w.Sends L' w' :=
  fun id => (h id).imp_left (hL _)

end Work.Sends

namespace Db

/-- What an operation on the funds does to the database. -/
structure Moves (L : Change → Prop) (db db' : Db) : Prop where
  path : Funds.Path L db.funds db'.funds
  reports : db'.reports = db.reports
  observation : db'.observation = db.observation
  clock : db'.clock = db.clock
  /-- Of the tables about work, only the logs are written. -/
  work : { db'.work with reservationEvents := db.work.reservationEvents,
                         withdrawalEvents := db.work.withdrawalEvents } = db.work
  sends : db.work.Sends L db'.work

namespace Moves

variable {L L' : Change → Prop} {db db' db'' : Db}

theorem outbox (h : db.Moves L db') : db'.work.protocolOutbox = db.work.protocolOutbox := by
  have h := congrArg Work.protocolOutbox h.work
  exact h

theorem receipts (h : db.Moves L db') : db'.work.precommitReceipts = db.work.precommitReceipts := by
  have h := congrArg Work.precommitReceipts h.work
  exact h

theorem requests (h : db.Moves L db') : db'.work.workRequests = db.work.workRequests := by
  have h := congrArg Work.workRequests h.work
  exact h

theorem caps (h : db.Moves L db') : db'.work.spendingCaps = db.work.spendingCaps := by
  have h := congrArg Work.spendingCaps h.work
  exact h

theorem refl (db : Db) : db.Moves L db := ⟨.refl, rfl, rfl, rfl, rfl, .of_eq rfl⟩

theorem trans (h : db.Moves L db') (h' : db'.Moves L db'') : db.Moves L db'' where
  path := h.path.trans h'.path
  reports := h'.reports.trans h.reports
  observation := h'.observation.trans h.observation
  clock := h'.clock.trans h.clock
  work := by rw [← h.work, ← h'.work]
  sends := h.sends.trans h'.sends

theorem mono (h : db.Moves L db') (hL : ∀ c, L c → L' c) : db.Moves L' db' :=
  { h with path := h.path.mono hL, sends := h.sends.mono hL }

/-- A quiet operation may stand where others are allowed. -/
theorem only {cs : List Change} (h : db.Moves Change.Quiet db') : db.Moves (Only cs) db' :=
  h.mono fun _ => .quiet

/-- Only the funds change. -/
theorem of_path {f : Funds} (h : Funds.Path L db.funds f) : db.Moves L { db with funds := f } :=
  ⟨h, rfl, rfl, rfl, rfl, .of_eq rfl⟩

/-- Only the funds change, at the end by one step. -/
theorem of_step {f f' : Funds} {c : Change} (h : Funds.Path L db.funds f) (hc : L c)
    (hs : Funds.Step f c f') : db.Moves L { db with funds := f' } :=
  .of_path (.step h hc hs)

theorem lawful (h : db.Moves L db') (hf : db.funds.Lawful) : db'.funds.Lawful := h.path.lawful hf

end Moves

end Db

/-! ## What every operation is made of -/

theorem Funds.Path.only {cs : List Change} {f f' : Funds} (h : Funds.Path Change.Quiet f f') :
    Funds.Path (Only cs) f f' :=
  h.mono fun _ => .quiet

/-- One step is a path. -/
theorem Funds.Path.one {L : Change → Prop} {f f' : Funds} {c : Change} (hc : L c)
    (h : Funds.Step f c f') : Funds.Path L f f' :=
  .step .refl hc h

/-- Opening an account. -/
theorem Ledger.account_path {f : Funds} {ledger : Ledger} {a : AccountId} {kind : AccountKind}
    {asset : Asset} {location : Location}
    (h : f.ledger.account a kind asset location = .ok ledger)
    (hid : a.identity = (kind, asset, location)) :
    Funds.Path Change.Quiet f { f with ledger := ledger } := by
  have hcases : f.ledger.account a a.identity.1 a.identity.2.1 a.identity.2.2 = .ok ledger := by
    rw [hid]
    exact h
  rcases Ledger.account_cases hcases with rfl | ⟨hnone, rfl⟩
  · exact .refl
  · exact .one (c := .opened a) trivial (.opened hnone)

theorem event_cases {db db' : Db} {identity : Uuid} {kind : ReservationEventKind} {details : Json}
    (h : event db identity kind details = .ok db') :
    db' = db ∨ (db.work.reservationEvents.lookup (identity, kind) = none ∧
      db' = { db with work := { db.work with
        reservationEvents :=
          AList.insert (identity, kind) ⟨details, db.clock⟩ db.work.reservationEvents } }) := by
  unfold event at h
  split at h
  next =>
    simp only [bind_eq_ok, require_eq_ok, exists_const, pure_eq_ok] at h
    exact .inl h.2.symm
  next hnone =>
    exact .inr ⟨hnone, (Except.ok.inj h).symm⟩

theorem event_recorded {db db' : Db} {identity : Uuid} {kind : ReservationEventKind}
    {details : Json} (h : event db identity kind details = .ok db') :
    (identity, kind) ∈ db'.work.reservationEvents := by
  unfold event at h
  split at h
  next hsome =>
    simp only [bind_eq_ok, require_eq_ok, exists_const, pure_eq_ok] at h
    obtain ⟨-, rfl⟩ := h
    exact AList.lookup_isSome.mp (Option.isSome_of_eq_some hsome)
  next =>
    obtain rfl := Except.ok.inj h
    exact AList.mem_insert _ |>.mpr (.inl rfl)

/-- Nothing else is written. -/
theorem event_frame {db db' : Db} {identity : Uuid} {kind : ReservationEventKind} {details : Json}
    (h : event db identity kind details = .ok db') :
    db' = { db with work := { db.work with
      reservationEvents := db'.work.reservationEvents } } := by
  rcases event_cases h with rfl | ⟨-, rfl⟩ <;> rfl

theorem event_funds {db db' : Db} {identity : Uuid} {kind : ReservationEventKind} {details : Json}
    (h : event db identity kind details = .ok db') : db'.funds = db.funds := by
  rw [event_frame h]

/-- Only the event of sending says that work was sent. -/
theorem event_unsent {db db' : Db} {identity : Uuid} {kind : ReservationEventKind} {details : Json}
    (h : event db identity kind details = .ok db') (hkind : kind ≠ .potentiallySent) (id : Uuid) :
    db'.work.reservationEvents.lookup (id, .potentiallySent)
      = db.work.reservationEvents.lookup (id, .potentiallySent) := by
  rcases event_cases h with rfl | ⟨-, rfl⟩
  · rfl
  · refine AList.lookup_insert_ne ?_
    intro heq
    exact hkind (Prod.mk.inj heq).2.symm

theorem event_moves {db db' : Db} {identity : Uuid} {kind : ReservationEventKind} {details : Json}
    {L : Change → Prop} (h : event db identity kind details = .ok db')
    (hkind : kind = .potentiallySent → L (.progressed identity)) : db.Moves L db' := by
  rw [event_frame h]
  refine ⟨.refl, rfl, rfl, rfl, rfl, fun id => ?_⟩
  by_cases hsent : kind = .potentiallySent ∧ id = identity
  · obtain ⟨hsent, rfl⟩ := hsent
    exact .inl (hkind hsent)
  · refine .inr ?_
    rcases event_cases h with rfl | ⟨-, rfl⟩
    · rfl
    · refine AList.lookup_insert_ne ?_
      intro heq
      obtain ⟨rfl, rfl⟩ := Prod.mk.inj heq
      exact hsent ⟨rfl, rfl⟩

/-- An event other than a send moves nothing. -/
theorem event_moves_of_ne {db db' : Db} {identity : Uuid} {kind : ReservationEventKind}
    {details : Json} {L : Change → Prop} (h : event db identity kind details = .ok db')
    (hkind : kind ≠ .potentiallySent) : db.Moves L db' :=
  event_moves h fun heq => absurd heq hkind

/-! ## Every list that is posted balances at each place -/

section Balanced

variable {id : Uuid}

theorem reserveMovements_balanced {r : Reservation} :
    Balanced AccountId.place (reserveMovements id r) :=
  (Balanced.transfer (a := available r.memberId) (b := held id) rfl r.amount).append
    (Balanced.transfer (a := operatorFees) (b := committedFee id) rfl r.feeLimit)

theorem feeMovements_balanced {r : Reservation} {actual : ℕ} :
    Balanced AccountId.place (feeMovements id r actual) :=
  .within (.TIG, .protocol) (by simp [feeMovements, AccountId.place, AccountId.identity, operatorFees])
    (by simp [feeMovements])

theorem resolveMovements_balanced {r : Reservation} {destination : AccountId}
    (h : destination.place = (.TIG, .custody)) :
    Balanced AccountId.place (resolveMovements id r destination) :=
  .transfer (a := held id) h.symm r.amount

theorem receiptMovements_balanced {amount : ℕ} :
    Balanced AccountId.place (receiptMovements amount) :=
  .transfer (a := AccountId.external .custody .TIG) (b := AccountId.unattributed) rfl amount

theorem attributionMovements_balanced {amount : ℕ} {destination : AccountId}
    (h : destination.place = (.TIG, .custody)) :
    Balanced AccountId.place (attributionMovements amount destination) :=
  .transfer (a := AccountId.unattributed) h.symm amount

theorem reimburseMovements_balanced {round amount : ℕ} :
    Balanced AccountId.place (reimburseMovements round amount) :=
  .transfer (a := AccountId.operator .custody .TIG) (b := pot round) rfl amount

theorem source_place (w : Withdrawal) : (Withdrawals.source w).place = (.TIG, .custody) := by
  unfold Withdrawals.source
  split <;> rfl

theorem requestMovements_balanced {w : Withdrawal} :
    Balanced AccountId.place (requestMovements id w) :=
  .transfer (b := Withdrawals.pending id) (source_place w) w.amount

theorem releaseMovements_balanced {w : Withdrawal} :
    Balanced AccountId.place (releaseMovements id w) :=
  .transfer (a := Withdrawals.pending id) (source_place w).symm w.amount

theorem gasMovements_balanced {feeLimit : ℕ} : Balanced AccountId.place (gasMovements id feeLimit) :=
  .transfer (a := AccountId.operator .custody .NATIVE) (b := Withdrawals.gasHold id) rfl feeLimit

theorem topupCashMovements_balanced {t : ProtocolTopup} {sent : Bool} {fee : ℕ} :
    Balanced AccountId.place (topupCashMovements id t sent fee) := by
  have hcash : Balanced AccountId.place
      [(Topups.held id .TIG, -(t.amount : ℤ)),
       (if sent then .external .custody .TIG else .operator .custody .TIG, (t.amount : ℤ))] :=
    .transfer (by cases sent <;> rfl) t.amount
  have hgas : Balanced AccountId.place
      [(Topups.held id .NATIVE, -(t.feeLimit : ℤ)),
       (.operator .custody .NATIVE, (t.feeLimit : ℤ) - fee), (.external .custody .NATIVE, (fee : ℤ))] :=
    .within (.NATIVE, .custody) (by simp [AccountId.place, AccountId.identity]) (by simp)
  exact hcash.append hgas

theorem nativeMovements_balanced {value : ℕ} : Balanced AccountId.place (nativeMovements value) :=
  .transfer (a := AccountId.external .custody .NATIVE) (b := AccountId.operator .custody .NATIVE)
    rfl value

theorem openingPosition_balanced {amount : ℕ} : Balanced AccountId.place (openingPosition amount) :=
  .transfer (a := AccountId.external .protocol .TIG) (b := operatorFees) rfl amount

end Balanced

end TigPool
