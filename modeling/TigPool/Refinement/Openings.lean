/-
# `TigPool.Refinement.Openings` — what was there before the pool

What the observer's transactions and the two opening credits do to the funds.
-/
import TigPool.Refinement.Topups

namespace TigPool

open Basis

variable {db db' : Db}

/-- Opening an account posts nothing. -/
theorem Ledger.account_journals {ledger ledger' : Ledger} {a : AccountId} {kind : AccountKind}
    {asset : Asset} {location : Location} (h : ledger.account a kind asset location = .ok ledger') :
    ledger'.journals = ledger.journals := by
  unfold Ledger.account at h
  split at h
  next =>
    obtain rfl := Except.ok.inj h
    rfl
  next =>
    split at h
    next =>
      obtain rfl := Except.ok.inj h
      rfl
    next => cases h

namespace ChainObserver

theorem openAsset_spec {f : Funds} {ledger' : Ledger} {value : Capture} {asset : Asset} {amount : ℕ}
    {actor reason : String} (h : openAsset f.ledger value asset amount actor reason = .ok ledger')
    (hkey : EventKey.custodyOpening value.identity asset ∉ f.ledger.journals) :
    ∃ ledger, Funds.Path Change.Quiet f { f with ledger := ledger } ∧
      ledger.Recorded (.custodyOpening value.identity asset)
        [(.external .custody asset, -(amount : ℤ)), (.operator .custody asset, (amount : ℤ))] ledger' ∧
      ledger.journals = f.ledger.journals := by
  simp only [openAsset, bind_eq_ok] at h
  obtain ⟨l₁, h₁, l₂, h₂, hpost⟩ := h
  have open₁ : Funds.Path Change.Quiet f { f with ledger := l₁ } := Ledger.account_path h₁ rfl
  have open₂ : Funds.Path Change.Quiet { f with ledger := l₁ } { f with ledger := l₂ } :=
    Ledger.account_path (f := { f with ledger := l₁ }) h₂ rfl
  have hjournals : l₂.journals = f.ledger.journals :=
    (Ledger.account_journals h₂).trans (Ledger.account_journals h₁)
  refine ⟨l₂, open₁.trans open₂, .of_post_ite hpost (hjournals ▸ hkey) ?_ fun hzero a => ?_, hjournals⟩
  · exact .transfer rfl _
  · simp [not_ne_iff.mp hzero]

theorem initializeStream_moves (hf : db.funds.Lawful) {value : Capture} {explicitStart : Bool}
    {actor reason : String}
    (h : initializeStream db value explicitStart actor reason = .ok db') :
    db.Moves (Only [.streamOpened, .nativeFunded]) db' := by
  simp only [initializeStream, bind_eq_ok, require_eq_ok, exists_const, pure_eq_ok] at h
  obtain ⟨hnone, -, -, -, -, -, db₁, hbind, -, l₁, hopen, l₂, hopen', rfl⟩ := h
  obtain ⟨hdb₁, hbound⟩ := Custody.bind_spec hbind
  refine hbound.only.trans ?_
  have hnone₁ : db₁.funds.chainStream = none := by rw [hdb₁]; exact hnone
  have hexplained := (hbound.lawful hf).explained
  have hkey : EventKey.custodyOpening value.identity .TIG ∉ db₁.funds.ledger.journals := by
    refine hexplained.fresh ?_
    rintro m ⟨hsome, -⟩
    simp [hnone₁] at hsome
  have hkey' : EventKey.custodyOpening value.identity .NATIVE ∉ db₁.funds.ledger.journals := by
    refine hexplained.fresh ?_
    intro m hsome
    have hsome' : db₁.funds.chainStream.isSome = true := hsome
    simp [hnone₁] at hsome'
  obtain ⟨l, hpath, hrecorded, hjournals⟩ := openAsset_spec hopen hkey
  have hstream (stream : ChainStream) (baseline : Option OpeningBaseline)
      (hposition : SameMoves [(.external .custody .TIG, -(value.openingTig : ℤ)),
        (.operator .custody .TIG, (value.openingTig : ℤ))] (baseline.elim [] (·.position))) :
      Funds.Path (Only [.streamOpened, .nativeFunded]) db₁.funds { db₁.funds with
        ledger := l₂, chainStream := some stream, openingBaseline := baseline } := by
    have hopened : Funds.Step { db₁.funds with ledger := l } .streamOpened { db₁.funds with
        ledger := l₁, chainStream := some stream, openingBaseline := baseline } :=
      .streamOpened (f := { db₁.funds with ledger := l }) hnone₁ (hrecorded.congr hposition)
    obtain ⟨l', hpath', hrecorded', -⟩ := openAsset_spec (f := { db₁.funds with
        ledger := l₁, chainStream := some stream, openingBaseline := baseline }) hopen'
      (hrecorded.notMem_journals (by simp) (hjournals ▸ hkey'))
    exact .step (.trans (.step (Funds.Path.only hpath) .change hopened) (Funds.Path.only hpath'))
      (Or.inr (by simp))
      (.nativeFunded rfl (fun _ _ => rfl) hrecorded')
  refine .of_path (hstream _ _ ?_)
  split
  next => exact .refl _
  next hbaseline =>
    intro a
    simp only [not_or, ne_eq, not_not, decide_eq_true_eq] at hbaseline
    simp [hbaseline.1]

theorem recordTransfer_moves (hf : db.funds.Lawful) {transfer : ConfirmedTransfer}
    (h : recordTransfer db transfer = .ok db') :
    ∃ a, db.Moves (Only [.received transfer.eventId, .attributed transfer.eventId a]) db' := by
  unfold recordTransfer at h
  split at h
  next =>
    cases hreceive : Deposits.receive db transfer with
    | error e =>
        rw [hreceive] at h
        cases h
    | ok out =>
        rw [hreceive] at h
        obtain rfl := Except.ok.inj h
        exact ⟨out.2, Deposits.receive_moves hf hreceive⟩
  next =>
    obtain ⟨_, _, -, -, -, -, -, hmoves⟩ := Deposits.saveTransfer_spec h
    exact ⟨.unattributed, hmoves.only⟩

theorem advance_moves {value : Capture} (h : advance db value = .ok db') :
    db.Moves Change.Quiet db' := by
  simp only [advance, bind_eq_ok, require_eq_ok, exists_const, fetch_eq_ok, pure_eq_ok] at h
  obtain ⟨batch, -, -, -, db₁, hbind, stream, hstream, rfl⟩ := h
  obtain ⟨-, hbound⟩ := Custody.bind_spec hbind
  exact hbound.trans (.of_step (c := .batchRecorded) .refl trivial
    (.batchRecorded (by rw [hstream]; rfl)))

end ChainObserver

theorem StarterCredit.initializeCredit_moves (hf : db.funds.Lawful)
    {captureId playerId actor : String} {out : ProtocolOpeningCredit}
    (h : StarterCredit.initializeCredit db captureId playerId actor = .ok (db', out)) :
    db.Moves (Only [.protocolOpened StarterCredit.source]) db' := by
  simp only [StarterCredit.initializeCredit, bind_eq_ok, require_eq_ok, exists_const] at h
  obtain ⟨playerId, -, -, h⟩ := h
  split at h
  next =>
    simp only [bind_eq_ok, require_eq_ok, exists_const, pure_eq_ok, Prod.mk.injEq] at h
    obtain ⟨-, rfl, -⟩ := h
    exact .refl _
  next hnone =>
    simp only [bind_eq_ok, require_eq_ok, exists_const, pure_eq_ok, Prod.mk.injEq] at h
    obtain ⟨_, -, -, -, -, -, -, -, -, l, hpost, rfl, -⟩ := h
    have hkey : EventKey.protocolOpening StarterCredit.source ∉ db.funds.ledger.journals := by
      refine hf.explained.fresh ?_
      rintro m ⟨c, hc, -⟩
      rw [hnone] at hc
      cases hc
    refine .of_step .refl .change (.protocolOpened hnone ?_)
    exact .of_post hpost hkey openingPosition_balanced fun _ => rfl

theorem Prelaunch.creditMainnetTopup_moves (hf : db.funds.Lawful) {captureId : String}
    {transaction : ConfirmedTransaction} {transfer : ConfirmedTransfer} {actor reason : String}
    {out : MainnetOpeningCredit}
    (h : Prelaunch.creditMainnetTopup db captureId transaction transfer actor reason
      = .ok (db', out)) :
    ∃ topup, db.Moves (Only [.mainnetOpened topup]) db' := by
  simp only [Prelaunch.creditMainnetTopup, bind_eq_ok, require_eq_ok, exists_const] at h
  obtain ⟨-, -, -, ⟨capture, snapshot⟩, hread, -, -, h⟩ := h
  obtain ⟨hcapture, hsnapshot⟩ := Funding.read_spec hread
  split at h
  next topupId topup htopups =>
    refine ⟨topupId, ?_⟩
    simp only [bind_eq_ok, require_eq_ok, exists_const] at h
    obtain ⟨⟨hhash, hlog, -⟩, db₁, hbind, ⟨halerts, -⟩, h⟩ := h
    obtain ⟨hdb₁, hbound⟩ := Custody.bind_spec hbind
    refine hbound.only.trans ?_
    split at h
    next =>
      simp only [bind_eq_ok, require_eq_ok, exists_const, pure_eq_ok, Prod.mk.injEq] at h
      obtain ⟨-, rfl, -⟩ := h
      exact .refl _
    next hnone =>
      simp only [bind_eq_ok, require_eq_ok, exists_const, pure_eq_ok, Prod.mk.injEq] at h
      obtain ⟨⟨-, htopupsNone, -⟩, -, l, hpost, -, rfl, -⟩ := h
      have hkey : EventKey.mainnetPrelaunch topupId ∉ db₁.funds.ledger.journals := by
        refine (hbound.lawful hf).explained.fresh ?_
        rintro m ⟨c, hc, -⟩
        rw [hnone] at hc
        cases hc
      have hmem : (topupId, topup) ∈ snapshot.topups.entries.map (fun e => (e.1, e.2)) := by
        rw [htopups]
        exact List.mem_singleton.mpr rfl
      obtain ⟨entry, hentry, heq⟩ := List.mem_map.mp hmem
      obtain ⟨rfl, rfl⟩ := Prod.mk.inj heq
      have hfunding : db₁.funds.fundingCaptures = db.funds.fundingCaptures := by rw [hdb₁]
      refine .of_step .refl .change (.mainnetOpened hnone htopupsNone halerts ?_ hhash hlog
        (.of_post hpost hkey openingPosition_balanced fun _ => rfl))
      intro hknown
      exact hknown (hfunding ▸ hcapture) hsnapshot (Table.mem_entries_iff.mp hentry)
  next => cases h

end TigPool
