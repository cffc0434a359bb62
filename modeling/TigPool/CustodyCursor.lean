/-
# `TigPool.CustodyCursor` — nothing that reached custody is passed over

The cursor of the custody stream says up to which block the transfers of the wallet are credited.
Receipts are committed one by one while the cursor still stands where it was; a crash or a failure
in between leaves some of them credited, and the next attempt goes through them again.  So the
cursor may only say less than what is done, never more: the recorded batches tile the blocks from
the start of the stream to the cursor, each rests on a saved archive which is a complete account
of its blocks, and every transfer of that account is in the books, with the receipt posted once.
The books outlive the archive: its payload may expire, as far as the retention cutoff goes.

The invariant is `Sound`.  While a batch is being recorded, every transfer of it is either credited
or still to do.
-/
import TigPool.Basis.Spans
import TigPool.CustodyObserver
import TigPool.Refinement.Archive

namespace TigPool

open Basis

namespace CustodyObserver

open ChainObserver (CaptureData Verified verify)

variable {digest : Digest} {s s' : State} {a : Act} {f f' : Funds}

/-! ## Credited transfers -/

/-- The transfer is in the books: its facts are saved, and what came in from outside is posted. -/
structure Credited (f : Funds) (transfer : ConfirmedTransfer) : Prop where
  saved : ∃ row, f.transfers.lookup transfer.eventId = some row ∧ Deposits.sameFacts row transfer
  posted : transfer.recipient = transfer.network.custody →
    transfer.sender ≠ transfer.network.custody → transfer.amount ≠ 0 →
      ∃ j, f.ledger.journals.lookup (.receipt transfer.eventId) = some j ∧
        SameMoves j.amounts (receiptMovements transfer.amount)

theorem sameFacts_of_extends {row row' : Transfer} {transfer : ConfirmedTransfer}
    (h : row.Extends row') (hfacts : Deposits.sameFacts row transfer) :
    Deposits.sameFacts row' transfer := by
  have hsame := h.facts
  simp only [Transfer.mk.injEq] at hsame
  obtain ⟨hnumber, hhash, htime, hsender, hrecipient, hamount, -⟩ := hsame
  unfold Deposits.sameFacts
  rw [hnumber, hhash, htime, hsender, hrecipient, hamount]
  exact hfacts

theorem Credited.mono {transfer : ConfirmedTransfer} (hext : f.Extends f')
    (h : Credited f transfer) : Credited f' transfer where
  saved := by
    obtain ⟨row, hrow, hfacts⟩ := h.saved
    obtain ⟨row', hrow', hx⟩ := hext.transfer hrow
    exact ⟨row', hrow', sameFacts_of_extends hx hfacts⟩
  posted hin hout hamount := by
    obtain ⟨j, hj, hmoves⟩ := h.posted hin hout hamount
    exact ⟨j, hext.journal.lookup hj, hmoves⟩

/-- A journal of a saved receipt has moved what came in. -/
theorem posted_of_mem (hf : f.Lawful) {transfer : ConfirmedTransfer} {row : Transfer}
    (hrow : f.transfers.lookup transfer.eventId = some row)
    (hfacts : Deposits.sameFacts row transfer)
    (hmem : EventKey.receipt transfer.eventId ∈ f.ledger.journals) :
    ∃ j, f.ledger.journals.lookup (.receipt transfer.eventId) = some j ∧
      SameMoves j.amounts (receiptMovements transfer.amount) := by
  obtain ⟨j, hj⟩ := Option.isSome_iff_exists.mp (AList.lookup_isSome.mpr hmem)
  obtain ⟨t, ht, -, hmoves⟩ := hf.explained hj
  obtain rfl := Option.some.inj (hrow.symm.trans ht)
  refine ⟨j, hj, ?_⟩
  rwa [← hfacts.2.2.2.2.2]

/-- Whatever is posted stays posted. -/
theorem mem_journals_of_post {ledger ledger' : Ledger} {k key : EventKey} {kind : String}
    {movements : Movements AccountId} {details : Json}
    (h : ledger.post key kind movements details = .ok ledger') (hk : k = key ∨ k ∈ ledger.journals) :
    k ∈ ledger'.journals := by
  rcases Ledger.post_cases h with ⟨hmem, rfl⟩ | ⟨-, rfl⟩
  · rcases hk with rfl | hk
    · exact hmem
    · exact hk
  · rw [Ledger.posted, AList.mem_insert]
    exact hk

theorem receive_credited {db db' : Db} (hf : db.funds.Lawful) {transfer : ConfirmedTransfer}
    {out : AccountId} (h : Deposits.receive db transfer = .ok (db', out)) :
    Credited db'.funds transfer := by
  have hf' : db'.funds.Lawful := (Deposits.receive_moves hf h).lawful hf
  simp only [Deposits.receive, bind_eq_ok, require_eq_ok, exists_const, ite_bind_eq_ok] at h
  obtain ⟨hin, db₁, hsave, ledger, hpost, h⟩ := h
  obtain ⟨transfers, row, hdb, hlookup, hfacts, -, -, hsaved⟩ := Deposits.saveTransfer_spec hsave
  have hrow : db₁.funds.transfers.lookup transfer.eventId = some row := by
    rw [hdb]
    exact hlookup
  have hamount : row.amount = transfer.amount := hfacts.2.2.2.2.2
  have hincoming : row.incoming db₁.funds.wallet = true :=
    Deposits.incoming_of_facts hfacts (by rw [hdb]) hin
  have hcredited := Deposits.credited_moves hrow hincoming (by rw [hamount]; exact hpost)
  have hlawful := hcredited.lawful (hsaved.lawful hf)
  -- The rest only adds to what is there once the receipt is posted.
  have hrest : (db₁.withLedger ledger).funds.Extends db'.funds := by
    split at h
    next =>
      obtain ⟨rfl, -⟩ := Prod.mk.inj (Except.ok.inj h)
      exact .refl _
    next =>
      split at h
      next memberId member hmember =>
        simp only [bind_eq_ok, pure_eq_ok, Prod.mk.injEq] at h
        obtain ⟨db₂, hattribute, rfl, -⟩ := h
        have hmoves := Deposits.attributeTransfer_moves hlawful hattribute rfl rfl fun hr => by
          obtain rfl := Option.some.inj (hrow.symm.trans hr)
          exact ⟨hamount, hincoming⟩
        exact hmoves.path.extends hlawful
      next =>
        obtain ⟨rfl, -⟩ := Prod.mk.inj (Except.ok.inj h)
        exact .refl _
  obtain ⟨row', hrow', hx⟩ := hrest.transfer hrow
  have hfacts' := sameFacts_of_extends hx hfacts
  refine ⟨⟨row', hrow', hfacts'⟩, fun _ _ hne => posted_of_mem hf' hrow' hfacts' ?_⟩
  rw [if_pos (by exact_mod_cast hne)] at hpost
  obtain ⟨j, hj⟩ := Option.isSome_iff_exists.mp
    (AList.lookup_isSome.mpr (mem_journals_of_post hpost (.inl rfl)))
  exact AList.lookup_isSome.mp (by rw [hrest.journal.lookup hj]; rfl)

/-- A transfer that is recorded is credited. -/
theorem recordTransfer_credited {db db' : Db} (hf : db.funds.Lawful) {transfer : ConfirmedTransfer}
    (h : ChainObserver.recordTransfer db transfer = .ok db') : Credited db'.funds transfer := by
  unfold ChainObserver.recordTransfer at h
  split at h
  next =>
    cases hreceive : Deposits.receive db transfer with
    | error e =>
        rw [hreceive] at h
        cases h
    | ok out =>
        rw [hreceive] at h
        obtain rfl := Except.ok.inj h
        exact receive_credited hf hreceive
  next houtside =>
    obtain ⟨_, row, rfl, hrow, hfacts, -⟩ := Deposits.saveTransfer_spec h
    exact ⟨⟨row, hrow, hfacts⟩, fun hin hout => absurd ⟨hin, hout⟩ houtside⟩

/-! ## The recorded batches -/

/-- A block, and the hash that the next one must name as its parent's. -/
structure Position where
  height : ℤ
  hash : String

variable (digest) in
/-- What a recorded batch rests on: an archive that was saved, which accounts for the blocks
after the position, up to the next one, and whose transfers are in the books. -/
structure Rests (captures : Table String CaptureRow) (f : Funds) (network : Network)
    (data : CaptureData) (value : Verified) (row : Batch) (p p' : Position) : Prop where
  saved : Saved digest captures data
  verified : verify data = .ok value
  network : value.network = network
  follows : (value.first : ℤ) = p.height + 1
  anchored : value.beforeHash = p.hash
  row : row = ⟨digest data, value.first, value.last, value.blockHash⟩
  moved : p' = ⟨value.last, value.blockHash⟩
  credited : ∀ transfer ∈ value.transfers, Credited f transfer

variable (digest) in
/-- The row of a batch carries the cursor on. -/
def Covers (captures : Table String CaptureRow) (f : Funds) (network : Network) (row : Batch)
    (p p' : Position) : Prop :=
  ∃ data value, Rests digest captures f network data value row p p'

/-- A verified archive is a complete account of its range. -/
theorem verify_complete {data : CaptureData} {value : Verified} (h : verify data = .ok value) :
    value.Complete data.calls := by
  obtain ⟨-, -, _, -, hanswered⟩ := ChainObserver.verify_eq_ok.mp h
  exact (ChainObserver.read_spec hanswered).2.2

variable {captures captures' : Table String CaptureRow} {network : Network} {row : Batch}
  {p p' : Position}

theorem Covers.mono
    (hcaptures : ∀ {data}, Saved digest captures data → Saved digest captures' data)
    (hext : f.Extends f')
    (h : Covers digest captures f network row p p') :
    Covers digest captures' f' network row p p' := by
  obtain ⟨data, value, h⟩ := h
  exact ⟨data, value, { h with
    saved := hcaptures h.saved
    credited := fun transfer htransfer => (h.credited transfer htransfer).mono hext }⟩

/-- The batches tile the blocks. -/
theorem covers_spans : Spans (Covers digest captures f network) (·.height)
    (fun row => row.firstHeight) (fun row => row.lastHeight) where
  begins := by
    rintro row p p' ⟨data, value, h⟩
    rw [h.row]
    exact h.follows
  ends := by
    rintro row p p' ⟨data, value, h⟩
    rw [h.row, h.moved]
  forward := by
    rintro row p p' ⟨data, value, h⟩
    have hnext := (verify_complete h.verified).next
    have hfollows := h.follows
    rw [h.moved]
    dsimp only
    omega

/-! ## The invariant -/

variable (digest) in
/-- The batch that is being recorded is the next one; each transfer is credited or still to do. -/
structure Fits (captures : Table String CaptureRow) (f : Funds) (stream : ChainStream)
    (data : CaptureData) (r : Recording) : Prop where
  identity : r.identity = digest data
  saved : Saved digest captures data
  verified : verify data = .ok r.value
  network : r.value.network = stream.network
  follows : (r.value.first : ℤ) = stream.lastHeight + 1
  anchored : r.value.beforeHash = stream.lastHash
  credited : ∀ transfer ∈ r.value.transfers, transfer ∈ r.todo ∨ Credited f transfer

theorem Fits.mono {stream : ChainStream} {data : CaptureData} {r : Recording}
    (hcaptures : ∀ {data}, Saved digest captures data → Saved digest captures' data)
    (hext : f.Extends f') (h : Fits digest captures f stream data r) :
    Fits digest captures' f' stream data r :=
  { h with
    saved := hcaptures h.saved
    credited := fun transfer htransfer =>
      (h.credited transfer htransfer).imp_right (·.mono hext) }

/-- The cursor of a stream. -/
def position (stream : ChainStream) : Position := ⟨stream.lastHeight, stream.lastHash⟩

variable (digest) in
structure Sound (s : State) : Prop where
  sys : s.sys.Lawful
  /-- Captures are saved under their identities and expire only up to the cutoff. -/
  captures : ∀ {id row}, s.captures.lookup id = some row →
    digest row.data = id ∧ (row.expired = true → row.createdAt ≤ s.captureCutoff)
  bound : ∀ {stream}, s.stream = some stream →
    s.sys.db.funds.custodyIdentity = some stream.network.identity
  unopened : s.stream = none → s.batches = []
  recorded : ∀ {stream}, s.stream = some stream → ∃ anchor,
    Carried (Covers digest s.captures s.sys.db.funds stream.network)
      ⟨stream.startHeight - 1, anchor⟩ s.batches (position stream)
  recording : ∀ {r}, s.recording = some r → ∃ stream data, s.stream = some stream ∧
    Fits digest s.captures s.sys.db.funds stream data r

theorem Initial.sound (h : Initial s) : Sound digest s where
  sys := h.sys.lawful
  captures hrow := by
    rw [h.captures] at hrow
    cases hrow
  bound hstream := by
    rw [h.stream] at hstream
    cases hstream
  unopened _ := h.batches
  recorded hstream := by
    rw [h.stream] at hstream
    cases hstream
  recording hr := by
    rw [h.recording] at hr
    cases hr

/-! ## Steps -/

theorem checkBatch_next {db : Db} {value : ChainObserver.Capture}
    (h : ChainObserver.checkBatch db value = .ok .next) :
    ∃ stream, db.funds.chainStream = some stream ∧ stream.network = value.network ∧
      (value.first : ℤ) = stream.lastHeight + 1 ∧ value.beforeHash = stream.lastHash := by
  simp only [ChainObserver.checkBatch, bind_eq_ok, require_eq_ok, exists_const, fetch_eq_ok] at h
  obtain ⟨stream, hstream, hnetwork, h⟩ := h
  refine ⟨stream, hstream, hnetwork, ?_⟩
  split at h
  next =>
    cases Except.ok.inj h
  next =>
    split at h
    next =>
      simp only [bind_eq_ok, require_eq_ok, exists_const, pure_eq_ok] at h
      obtain ⟨-, -, hbatch⟩ := h
      cases hbatch
    next =>
      simp only [bind_eq_ok, require_eq_ok, exists_const, pure_eq_ok] at h
      exact ⟨h.1, h.2.1⟩

/-- What links to the cursor is the next batch. -/
theorem checkBatch_of_links {db : Db} {stream : ChainStream} {value : ChainObserver.Capture}
    (hstream : db.funds.chainStream = some stream) (hnetwork : stream.network = value.network)
    (hnew : value.identity ∉ db.funds.chainBatches)
    (hfollows : (value.first : ℤ) = stream.lastHeight + 1)
    (hanchored : value.beforeHash = stream.lastHash) :
    ChainObserver.checkBatch db value = .ok .next := by
  simp only [ChainObserver.checkBatch, bind_eq_ok, require_eq_ok, exists_const, fetch_eq_ok]
  refine ⟨stream, hstream, hnetwork, ?_⟩
  have hahead : ¬ ((value.last : ℤ) ≤ stream.lastHeight ∧
      (value.first : ℤ) ≤ stream.lastHeight) := by
    omega
  rw [if_neg hnew, if_neg hahead]
  simp only [bind_eq_ok, require_eq_ok, exists_const, pure_eq_ok]
  exact ⟨hfollows, hanchored, trivial⟩

theorem initializeStream_spec {db db' : Db} {value : ChainObserver.Capture} {explicitStart : Bool}
    {actor why : String}
    (h : ChainObserver.initializeStream db value explicitStart actor why = .ok db') :
    db'.funds.custodyIdentity = some value.network.identity ∧
      db'.funds.chainStream = some
        { network := value.network, startHeight := value.first, lastHeight := value.first - 1,
          lastHash := value.beforeHash, startNonce := value.openingNonce } := by
  simp only [ChainObserver.initializeStream, bind_eq_ok, require_eq_ok, exists_const,
    pure_eq_ok] at h
  obtain ⟨-, -, -, -, -, -, db₁, hbind, -, ledger, -, ledger', -, rfl⟩ := h
  obtain ⟨rfl, -⟩ := Custody.bind_spec hbind
  exact ⟨rfl, rfl⟩

/-- Binding a wallet where one is bound changes nothing. -/
theorem bind_same {db db' : Db} {network : Network} {i : CustodyIdentity}
    (hbound : db.funds.custodyIdentity = some i) (h : Custody.bind db network = .ok db') :
    db' = db := by
  simp only [Custody.bind, hbound, bind_eq_ok, require_eq_ok, exists_const, pure_eq_ok] at h
  exact h.2.2.symm

/-- To the service a step of the observer is a transaction like any other, or none. -/
theorem Step.sys (hs : Sound digest s) (h : Step digest s a s') :
    s'.sys = s.sys ∨ ∃ action, Sys.Step s.sys action s'.sys := by
  cases h with
  | service _ h => exact .inr ⟨_, h⟩
  | start _ _ _ _ h => exact .inr ⟨_, .funds (.initializeStream h)⟩
  | receipt _ h => exact .inr ⟨_, .funds (.recordTransfer h)⟩
  | finish hr hstream hbind =>
      obtain rfl := bind_same (hs.bound hstream) hbind
      exact .inl rfl
  | save | refuse | startFails | take | takeFails | receiptFails | finishFails | note | crash
  | keep | expire => exact .inl rfl

theorem Step.lawful (hs : Sound digest s) (h : Step digest s a s') : s'.sys.Lawful := by
  rcases h.sys hs with hsame | ⟨action, hstep⟩
  · rw [hsame]
    exact hs.sys
  · exact hs.sys.step hstep

theorem Step.extends (hs : Sound digest s) (h : Step digest s a s') :
    s.sys.db.funds.Extends s'.sys.db.funds := by
  rcases h.sys hs with hsame | ⟨action, hstep⟩
  · rw [hsame]
    exact .refl _
  · exact hstep.extends hs.sys

/-- What a step does to the captures. -/
theorem Step.captured (h : Step digest s a s') (id : String) : Evolves
    (fun row => digest row.data = id ∧ row.expired = false)
    (fun row row' => row' = { row with expired := true } ∧ row.createdAt ≤ s.captureCutoff)
    (s.captures.lookup id) (s'.captures.lookup id) := by
  cases h with
  | @save data hfresh =>
      by_cases hid : id = digest data
      · subst hid
        rw [hfresh, AList.lookup_insert]
        exact .made ⟨rfl, rfl⟩
      · rw [AList.lookup_insert_ne hid]
        exact .same
  | @expire run identities _ hexpirable =>
      rw [State.expire, Table.lookup_mapVals]
      cases hrow : s.captures.lookup id with
      | none => exact .same
      | some row =>
          rw [Option.map_some]
          split
          next hmem =>
            obtain ⟨row', hrow', hdue⟩ := (Option.any_eq_true _ _).mp (hexpirable id hmem)
            obtain rfl := Option.some.inj (hrow.symm.trans hrow')
            exact .turned ⟨rfl, (of_decide_eq_true hdue).2.2.2⟩
          next => exact .same
  | _ => exact .same

/-- What was saved stays on record. -/
theorem Step.saved (h : Step digest s a s') {data : CaptureData}
    (hdata : Saved digest s.captures data) : Saved digest s'.captures data := by
  obtain ⟨row, hrow, rfl⟩ := hdata
  exact (h.captured _).relates (R := fun row row' => row'.data = row.data) rfl
    (fun _ hturns => by rw [hturns.1]) hrow

/-- The cutoff does not go back. -/
theorem Step.cutoff (hs : Sound digest s) (h : Step digest s a s') :
    s.captureCutoff ≤ s'.captureCutoff := by
  rcases h.sys hs with hsame | ⟨action, hstep⟩
  · rw [State.captureCutoff, State.captureCutoff, hsame]
  · exact hstep.cutoff hs.sys

/-- Captures stay under their identities, and none has expired that the cutoff protects. -/
theorem Sound.captures_step (hs : Sound digest s) (h : Step digest s a s') {id : String}
    {row : CaptureRow} (hrow : s'.captures.lookup id = some row) :
    digest row.data = id ∧ (row.expired = true → row.createdAt ≤ s'.captureCutoff) := by
  refine (h.captured id).keeps (P := fun row => digest row.data = id ∧
    (row.expired = true → row.createdAt ≤ s'.captureCutoff)) ?_ ?_ ?_ row hrow
  · intro row hrow
    exact ⟨(hs.captures hrow).1, fun he => ((hs.captures hrow).2 he).trans (h.cutoff hs)⟩
  · rintro row ⟨hid, hfresh⟩
    exact ⟨hid, fun he => by cases hfresh.symm.trans he⟩
  · rintro row row' hold ⟨rfl, hle⟩
    exact ⟨hold.1, fun _ => hle.trans (h.cutoff hs)⟩

/-- A capture that the cutoff protects can be read. -/
theorem Sound.readable (hs : Sound digest s) {id : String} {row : CaptureRow}
    (hrow : s.captures.lookup id = some row) (hlater : s.captureCutoff < row.createdAt) :
    s.read digest id = .ok row.data := by
  obtain ⟨hid, hexpired⟩ := hs.captures hrow
  have hfresh : row.expired = false :=
    Bool.eq_false_iff.mpr fun he => absurd (hexpired he) (not_le.mpr hlater)
  simp only [State.read, bind_eq_ok, require_eq_ok, exists_const, fetch_eq_ok, pure_eq_ok]
  exact ⟨row, hrow, hfresh, hid, rfl⟩

theorem read_expired {id : String} {row : CaptureRow} (hrow : s.captures.lookup id = some row)
    (hexpired : row.expired = true) : s.read digest id =
      .error (.funds "custody capture payload expired under the retention policy") := by
  have hgone : ¬ row.expired = false := Bool.eq_false_iff.not.mpr (not_not.mpr hexpired)
  rw [State.read, hrow]
  show (require (row.expired = false) _ >>= fun _ => _) = _
  rw [require, if_neg hgone]
  rfl

/-- What leaves the stream and its batches as they are keeps the invariant. -/
theorem Sound.kept (hs : Sound digest s) (h : Step digest s a s') (hstream : s'.stream = s.stream)
    (hbatches : s'.batches = s.batches)
    (hrecording : ∀ {r}, s'.recording = some r → ∃ stream data, s.stream = some stream ∧
      Fits digest s'.captures s'.sys.db.funds stream data r) : Sound digest s' where
  sys := h.lawful hs
  captures := hs.captures_step h
  bound hsome := (h.extends hs).identity _ (hs.bound (hstream ▸ hsome))
  unopened hnone := hbatches.trans (hs.unopened (hstream ▸ hnone))
  recorded hsome := by
    obtain ⟨anchor, hcarried⟩ := hs.recorded (hstream ▸ hsome)
    rw [hbatches]
    exact ⟨anchor, hcarried.mono fun _ _ _ => .mono h.saved (h.extends hs)⟩
  recording hr := by
    rw [hstream]
    exact hrecording hr

theorem Sound.step (hs : Sound digest s) (h : Step digest s a s') : Sound digest s' := by
  have hstep := h
  -- Whatever goes on being recorded still fits.
  have hfits {r} (hr : s.recording = some r) : ∃ stream data, s.stream = some stream ∧
      Fits digest s'.captures s'.sys.db.funds stream data r := by
    obtain ⟨stream, data, hstream, hfits⟩ := hs.recording hr
    exact ⟨stream, data, hstream, hfits.mono h.saved (h.extends hs)⟩
  cases h with
  | service | save | refuse | note | keep | expire => exact hs.kept hstep rfl rfl hfits
  | startFails | takeFails | receiptFails | finishFails | crash =>
      exact hs.kept hstep rfl rfl fun hr => by cases hr
  | @start data value _ _ _ db hsaved hverify hfree hnone h =>
      obtain ⟨hidentity, hopened⟩ := initializeStream_spec h
      refine ⟨hstep.lawful hs, hs.captures_step hstep, ?_, ?_, ?_, ?_⟩
      · intro stream hstream
        obtain rfl := Option.some.inj (hopened.symm.trans hstream)
        exact hidentity
      · intro hclosed
        cases hopened.symm.trans hclosed
      · intro stream hstream
        obtain rfl := Option.some.inj (hopened.symm.trans hstream)
        refine ⟨value.beforeHash, ?_⟩
        rw [show (s.withDb db).batches = [] from hs.unopened hnone]
        exact .none
      · intro r hr
        cases hfree.symm.trans hr
  | @take data value hsaved hverify hfree hnext =>
      refine hs.kept hstep rfl rfl ?_
      rintro r hr
      obtain rfl := Option.some.inj hr
      obtain ⟨stream, hstream, hnetwork, hfollows, hanchored⟩ := checkBatch_next hnext
      exact ⟨stream, data, hstream, rfl, hsaved, hverify, hnetwork.symm, hfollows, hanchored,
        fun _ htransfer => .inl htransfer⟩
  | @receipt identity value transfer todo db hr h =>
      refine hs.kept hstep rfl rfl ?_
      rintro r hr'
      obtain rfl := Option.some.inj hr'
      obtain ⟨stream, data, hstream, hfits⟩ := hfits hr
      refine ⟨stream, data, hstream, { hfits with credited := fun t ht => ?_ }⟩
      rcases hfits.credited t ht with htodo | hcredited
      · cases htodo with
        | head => exact .inr (recordTransfer_credited hs.sys.funds h)
        | tail _ htodo => exact .inl htodo
      · exact .inr hcredited
  | @finish identity value stream db hr hstream hbind =>
      obtain ⟨stream', data, hsame, hfits⟩ := hfits hr
      obtain rfl := Option.some.inj (hstream.symm.trans hsame)
      refine ⟨hstep.lawful hs, hs.captures_step hstep, ?_, nofun, ?_, nofun⟩
      · intro stream' hstream'
        obtain rfl := Option.some.inj hstream'
        have hbound := (hstep.extends hs).identity _ (hs.bound hstream)
        exact hbound
      · intro stream' hstream'
        obtain rfl := Option.some.inj hstream'
        obtain ⟨anchor, hcarried⟩ := hs.recorded hstream
        have hrows : Carried (Covers digest s.captures db.funds stream.network)
            ⟨stream.startHeight - 1, anchor⟩ s.batches (position stream) :=
          hcarried.mono fun _ _ _ => .mono (fun h => h) (hstep.extends hs)
        refine ⟨anchor, hrows.next ⟨data, value, ?_⟩⟩
        exact ⟨hfits.saved, hfits.verified, hfits.network, hfits.follows, hfits.anchored,
          by rw [show identity = digest data from hfits.identity], rfl,
          fun t ht => (hfits.credited t ht).resolve_left (List.not_mem_nil)⟩

theorem Reached.sound (h : Reached digest s) : Sound digest s := by
  obtain ⟨s₀, hinitial, hrun⟩ := h
  exact hrun.invariant hinitial.sound fun _ _ _ _ hs hstep => hs.step hstep

theorem Reached.step (h : Reached digest s) (hs : Step digest s a s') : Reached digest s' := by
  obtain ⟨s₀, hinitial, hrun⟩ := h
  exact ⟨s₀, hinitial, hrun.step trivial hs⟩

/-- The service goes on. -/
theorem Reached.serve {action : Action} {sys : Sys} (h : Reached digest s)
    (ha : ofService action = true) (hs : Sys.Step s.sys action sys) :
    Reached digest { s with sys } :=
  h.step (.service ha hs)

/-! ## Later states -/

/-- The stream is the same and goes forwards; what is recorded stays. -/
structure Continues (s s' : State) : Prop where
  stream : ∀ {stream}, s.stream = some stream → ∃ stream', s'.stream = some stream' ∧
    stream'.network = stream.network ∧ stream'.startHeight = stream.startHeight ∧
    stream'.startNonce = stream.startNonce ∧ stream.lastHeight ≤ stream'.lastHeight
  batches : s.batches <:+ s'.batches
  checks : s.checks <:+ s'.checks
  alerts : s.alerts <:+ s'.alerts

theorem Continues.refl (s : State) : Continues s s where
  stream h := ⟨_, h, rfl, rfl, rfl, le_rfl⟩
  batches := List.suffix_rfl
  checks := List.suffix_rfl
  alerts := List.suffix_rfl

theorem Continues.trans {s'' : State} (h : Continues s s') (h' : Continues s' s'') :
    Continues s s'' where
  stream hstream := by
    obtain ⟨stream', hstream', hnetwork, hstart, hnonce, hle⟩ := h.stream hstream
    obtain ⟨stream'', hstream'', hnetwork', hstart', hnonce', hle'⟩ := h'.stream hstream'
    exact ⟨stream'', hstream'', hnetwork'.trans hnetwork, hstart'.trans hstart,
      hnonce'.trans hnonce, hle.trans hle'⟩
  batches := h.batches.trans h'.batches
  checks := h.checks.trans h'.checks
  alerts := h.alerts.trans h'.alerts

theorem Step.continues (hs : Sound digest s) (h : Step digest s a s') : Continues s s' := by
  cases h with
  | service | save | refuse | startFails | take | takeFails | receipt | receiptFails | finishFails
  | crash | keep | expire => exact { Continues.refl s with }
  | note => exact { Continues.refl s with
      checks := List.suffix_cons _ _
      alerts := List.suffix_cons _ _ }
  | start _ _ _ hnone => exact { Continues.refl s with
      stream := fun h => by cases hnone.symm.trans h }
  | @finish identity value stream db hr hstream hbind =>
      refine { Continues.refl s with
        checks := List.suffix_cons _ _
        batches := List.suffix_cons _ _
        stream := fun h => ?_ }
      obtain rfl := Option.some.inj (hstream.symm.trans h)
      obtain ⟨stream', data, hsame, hfits⟩ := hs.recording hr
      obtain rfl := Option.some.inj (hstream.symm.trans hsame)
      refine ⟨_, rfl, rfl, rfl, rfl, ?_⟩
      have hnext := (verify_complete hfits.verified).next
      have hfollows := hfits.follows
      dsimp only at hfollows hnext ⊢
      omega

theorem Sound.continues (hs : Sound digest s)
    (h : Leads (Step digest) (fun _ _ => True) s s') : Continues s s' :=
  h.relates hs .refl .trans (fun _ _ _ _ hs hstep => hs.step hstep)
    fun _ _ _ _ hs hstep => hstep.continues hs

end CustodyObserver

open CustodyObserver ChainObserver in
/-- Nothing that reached custody is passed over, whatever runs, fails or stops in between.  The
recorded batches tile the blocks from the start of the stream to its cursor, each anchored at the
end of the one before; each rests on an archive that was saved and verifies, and what the archive
answers to the two log filters is in the books, transfer by transfer.  The archive can be read
unless the retention cutoff has passed the time at which it was saved; the batch and the books stay.
The cursor never goes back, and no batch, check or alert is taken back. -/
theorem nothing_passed_over {digest : CustodyObserver.Digest} {s : CustodyObserver.State}
    {stream : ChainStream} (h : CustodyObserver.Reached digest s) (hstream : s.stream = some stream) :
    (∃ anchor, Carried (Covers digest s.captures s.sys.db.funds stream.network)
      ⟨stream.startHeight - 1, anchor⟩ s.batches (position stream)) ∧
    (∀ height : ℕ,
      s.batches.countP (fun row => row.firstHeight ≤ height ∧ height ≤ row.lastHeight) =
        if stream.startHeight ≤ height ∧ (height : ℤ) ≤ stream.lastHeight then 1 else 0) ∧
    (∀ row ∈ s.batches, row.firstHeight ≤ row.lastHeight → ∀ direction, ∃ capture logs,
      s.captures.lookup row.captureId = some capture ∧
      (s.captureCutoff < capture.createdAt → s.read digest row.captureId = .ok capture.data) ∧
      (logFilter stream.network row.firstHeight row.lastHeight direction, .arr logs) ∈
        capture.data.calls ∧
      ∀ item ∈ logs, ∃ transfer, Names stream.network direction item transfer ∧
        InRange stream.network row.firstHeight row.lastHeight transfer ∧
        Credited s.sys.db.funds transfer) ∧
    ∀ s', Leads (CustodyObserver.Step digest) (fun _ _ => True) s s' → Continues s s' := by
  have hs := h.sound
  obtain ⟨anchor, hcarried⟩ := hs.recorded hstream
  refine ⟨⟨anchor, hcarried⟩, fun height => ?_, fun row hrow hle direction => ?_,
    fun s' hrun => hs.continues hrun⟩
  · have hcount := covers_spans.count hcarried height
    simp only [position, Nat.cast_le] at hcount
    rw [hcount]
    refine if_congr ?_ rfl rfl
    omega
  · obtain ⟨p, p', data, value, hrests⟩ := hcarried.of_mem hrow
    obtain rfl := hrests.row
    have hcomplete := verify_complete hrests.verified
    obtain ⟨logs, hlogs, hlisted⟩ := hcomplete.lists hle direction
    rw [hrests.network] at hlogs
    obtain ⟨capture, hcapture, rfl⟩ := hrests.saved
    refine ⟨capture, logs, hcapture, hs.readable hcapture, hlogs, fun item hitem => ?_⟩
    obtain ⟨transfer, htransfer, hnames⟩ := hlisted item hitem
    rw [hrests.network] at hnames
    have hrange := hcomplete.inRange transfer htransfer
    rw [hrests.network] at hrange
    exact ⟨transfer, hnames, hrange, hrests.credited transfer htransfer⟩

/-! ## The day on record -/

namespace CustodyDay

open CustodyObserver

/-- Two names stand for the SHA-256 of the two captures. -/
def digest : CustodyObserver.Digest := fun data =>
  if data.first = 200 then "a5df837c2462cb84" else "c71e20b4d9a3f605"

def limits : CapLimits where
  tigFeeWindowUnits := 0
  tigFeeAttemptUnits := 0
  nativeFeeWindowUnits := 10
  nativeFeeAttemptUnits := 5

/-- Before the morning: the member is known, and payments have a cap. -/
def opening : Result Db := do
  let db ← initializeAccounts migrated
  let (db, _) ← registerVerified db wallet "member"
  let db ← setCap db 3600 limits "operator" "start" "cap" "cap"
  require (db.clock ≤ seconds 426) (.integrity "time does not run backwards")
  return { db with clock := seconds 426 }

/-- Native units for the operator's gas, in the block of the deposit. -/
def gasFunding : ConfirmedTransaction where
  network := network
  txHash := hash 'd' 200
  sender := stranger
  recipient := some network.custody
  nonce := 0
  successful := true
  value := 10
  fee := 1
  feeModel := "op-isthmus"
  blockNumber := 200
  blockHash := hash 'b' 200
  blockTimestamp := seconds 400
  evidence := .null

/-- The payment as the chain shows it; it costs 2 of the 4 units of gas held for it. -/
def payingTransaction : ConfirmedTransaction :=
  { gasFunding with
    txHash := payment.txHash, sender := network.custody, recipient := some network.token
    value := 0, fee := 2, blockNumber := 215, blockHash := hash 'b' 215
    blockTimestamp := seconds 430 }

def preflight : CustodyPreflight where
  network := network
  nonce := 0
  tokenBalance := 5 * tig
  nativeBalance := 10
  blockNumber := 212
  checkedAt := seconds 426
  evidence := .null

/-- The stream is opened, and the transfer of the morning is recorded. -/
def recording (db : Db) : Result (Db × Db × Db × Db) := do
  let opened ← ChainObserver.initializeStream db (toCapture (digest morning) morningValue) true
    "" ""
  let gas ← Custody.receiveNative opened gasFunding
  let received ← ChainObserver.recordTransfer gas (confirmed 200 212 deposit)
  let bound ← Custody.bind received network
  return (opened, gas, received, bound)

/-- A member's withdrawal is approved. -/
def approving (db : Db) : Result (Db × SpendingCap) := do
  let (db, _) ← Withdrawals.request db "member" "cash" (3 * tig) "withdrawal"
  let db ← Withdrawals.approve db "withdrawal" network "op-isthmus" "operator"
    (.obj [("review", .int 1)])
  let cap ← fetch (Spending.current db) (.conflict "no spending cap")
  return (db, cap)

/-- It may have been sent. -/
def sending (db : Db) (cap : Option SpendingCap) (around : Surroundings) : Result (Db × Uuid) :=
  Withdrawals.begin db "withdrawal" "send" preflight 4 "operator" none around "attempt" cap

/-- The chain shows the payment. -/
def paying (db : Db) : Result Db := do
  let transfer := some (confirmed 219 230 payment)
  let db ← Withdrawals.reconcileEvidence db "attempt" payingTransaction transfer
  let (db, _) ← Withdrawals.reconcile db "attempt" payingTransaction transfer
  require (db.clock ≤ seconds 462) (.integrity "time does not run backwards")
  return { db with clock := seconds 462 }

/-- The transfers of the evening are recorded; one of them is known already. -/
def closing (db : Db) : Result (Db × Db × Db) := do
  let first ← ChainObserver.recordTransfer db (confirmed 219 230 payment)
  let second ← ChainObserver.recordTransfer first (confirmed 219 230 income)
  let bound ← Custody.bind second network
  return (first, second, bound)

/-! ### The states -/

def start : Db := opening.toOption.getD migrated

def recorded : Db × Db × Db × Db := (recording start).toOption.getD (start, start, start, start)

def openedStream : ChainStream where
  network := network
  startHeight := 200
  lastHeight := 199
  lastHash := hash 'b' 199
  startNonce := 0

def movedStream : ChainStream :=
  { openedStream with lastHeight := 200, lastHash := hash 'b' 200 }

/-- Nothing is observed. -/
def dawn (db : Db) : CustodyObserver.State where
  sys := ⟨db, Held.empty⟩
  captures := ∅
  stream := none
  batches := []
  checks := []
  alerts := []
  failures := []
  recording := none
  expiring := []

/-- The first capture is saved, and the stream is opened. -/
def begun (db : Db) (stream : Option ChainStream) : CustodyObserver.State :=
  { dawn db with
    captures := AList.insert (digest morning) ⟨morning, seconds 426, false⟩ ∅
    stream := stream }

/-- The first batch is recorded. -/
def noon : CustodyObserver.State :=
  (begun recorded.2.2.1 (some openedStream)).recorded recorded.2.2.2 openedStream (digest morning)
    morningValue

def cleared : Db × Option SpendingCap :=
  ((approving noon.sys.db).toOption.map fun out => (out.1, some out.2)).getD (migrated, none)

/-- The payment is approved, and the cap is read. -/
def approved : CustodyObserver.State :=
  { noon with sys := ⟨cleared.1, { Held.empty with caps := cleared.2.toList }⟩ }

def sent : Db × Uuid :=
  (sending approved.sys.db cleared.2 (approved.around (.ok ()) (seconds 426))).toOption.getD
    (migrated, "")

def paid : Db := (paying sent.1).toOption.getD migrated

def closed : Db × Db × Db := (closing paid).toOption.getD (paid, paid, paid)

/-- What the service holds since the payment. -/
def held : Held :=
  { Held.empty with
    caps := cleared.2.toList
    attempts := [("attempt", payingTransaction, some (confirmed 219 230 payment))] }

/-- The second capture is saved. -/
def dusk : CustodyObserver.State :=
  { noon with
    sys := ⟨paid, held⟩
    captures := AList.insert (digest evening) ⟨evening, seconds 462, false⟩ noon.captures }

/-- The second batch is recorded. -/
def night : CustodyObserver.State :=
  dusk.recorded closed.2.2 movedStream (digest evening) eveningValue

def autumn : Db := { night.sys.db with clock := seconds 462 + days 40 }

/-- The plan of a retention run, forty days later. -/
def plan : Retention.Plan := Retention.plan autumn {} autumn.clock autumn.clock

def swept : Db := (Retention.advanceFloors autumn plan).toOption.getD autumn

/-- The run has written its floors. -/
def sweeping : CustodyObserver.State :=
  { night with sys := ⟨swept, { held with plan := some plan }.observe .advanceFloors autumn swept⟩ }

def run : Expiry := ⟨min plan.captureCutoff plan.coveredUntil, sweeping.keep⟩

/-- The first capture has expired. -/
def winter : CustodyObserver.State :=
  { sweeping with expiring := [run] }.expire [digest morning]

/-! ### The run -/

/-- What evaluation says of the day. -/
theorem evaluated : opening.toOption.isSome = true ∧ (recording start).toOption.isSome = true ∧
    noon.ready = true ∧
    (approving noon.sys.db).toOption.isSome = true ∧
    (sending approved.sys.db cleared.2 (approved.around (.ok ()) (seconds 426))).toOption.isSome =
      true ∧
    (paying sent.1).toOption.isSome = true ∧ (closing paid).toOption.isSome = true ∧
    night.ready = true ∧ (Retention.advanceFloors autumn plan).toOption.isSome = true ∧
    ((sweeping.captures.lookup (digest morning)).any
      (sweeping.expirable run (digest morning))) = true := by
  refine ⟨?_, ?_, ?_, ?_, ?_, ?_, ?_, ?_, ?_, ?_⟩ <;> decide +kernel

theorem dawn_reached : CustodyObserver.Reached digest (dawn migrated) :=
  ⟨_, ⟨Sys.initial_migrated, rfl, rfl, rfl, rfl, rfl, rfl, rfl, rfl⟩, .refl⟩

theorem opening_reached {db : Db} (h : opening = .ok db) :
    CustodyObserver.Reached digest (begun db none) := by
  simp only [opening, bind_eq_ok, require_eq_ok, exists_const, pure_eq_ok] at h
  obtain ⟨db₁, h₁, ⟨db₂, _⟩, h₂, db₃, h₃, hclock, rfl⟩ := h
  have hopened : CustodyObserver.Reached digest (dawn db₁) :=
    dawn_reached.serve rfl (.funds (.initializeAccounts h₁))
  have hknown : CustodyObserver.Reached digest (dawn db₂) :=
    hopened.serve rfl (.funds (.registerVerified h₂))
  have hcapped : CustodyObserver.Reached digest (dawn db₃) :=
    hknown.serve rfl (.work (.setCap h₃))
  have hwaited : CustodyObserver.Reached digest (dawn { db₃ with clock := seconds 426 }) :=
    hcapped.serve rfl (.tick hclock)
  exact hwaited.step (.save rfl)

theorem recording_reached {db : Db} {out : Db × Db × Db × Db}
    (hdb : CustodyObserver.Reached digest (begun db none)) (h : recording db = .ok out) :
    CustodyObserver.Reached digest ((begun out.2.2.1 (some openedStream)).recorded out.2.2.2
      openedStream (digest morning) morningValue) := by
  simp only [recording, bind_eq_ok, pure_eq_ok] at h
  obtain ⟨opened, h₁, gas, h₂, received, h₃, bound, h₄, rfl⟩ := h
  have hknown : Saved digest (begun db none).captures morning := ⟨_, AList.lookup_insert ∅, rfl⟩
  have hstream : opened.funds.chainStream = some openedStream := (initializeStream_spec h₁).2
  have hstarted := hdb.step (.start hknown verify_morning rfl rfl h₁)
  rw [hstream] at hstarted
  have hfunded : CustodyObserver.Reached digest (begun gas (some openedStream)) :=
    hstarted.serve rfl (.funds (.receiveNative h₂))
  have htaken := hfunded.step (.take hknown verify_morning rfl
    (checkBatch_of_links rfl rfl List.not_mem_nil rfl rfl))
  have hreceived := htaken.step (.receipt rfl h₃)
  exact hreceived.step (.finish rfl rfl h₄)

theorem recorded_eq : recording start = .ok recorded := eq_ok_getD evaluated.2.1

theorem noon_reached : CustodyObserver.Reached digest noon :=
  recording_reached (opening_reached (eq_ok_getD evaluated.1)) recorded_eq

theorem approving_reached {out : Db × SpendingCap} (h : approving noon.sys.db = .ok out) :
    CustodyObserver.Reached digest
      { noon with sys := ⟨out.1, { Held.empty with caps := [out.2] }⟩ } := by
  simp only [approving, bind_eq_ok, fetch_eq_ok, pure_eq_ok] at h
  obtain ⟨⟨db₁, _⟩, h₁, db₂, h₂, cap, hcap, rfl⟩ := h
  have hrequested := noon_reached.serve rfl (.funds (.request h₁))
  have happroved := hrequested.serve rfl (.funds (.approve h₂))
  exact happroved.serve rfl (.hold (.readCap hcap))

theorem cleared_eq : ∃ cap, cleared.2 = some cap ∧
    approving noon.sys.db = .ok (cleared.1, cap) := by
  obtain ⟨⟨db, cap⟩, hout⟩ := Option.isSome_iff_exists.mp evaluated.2.2.2.1
  have hcleared : cleared = (db, some cap) := by
    rw [cleared, hout]
    rfl
  rw [hcleared]
  exact ⟨cap, rfl, eq_ok_of_toOption hout⟩

theorem approved_reached : CustodyObserver.Reached digest approved := by
  obtain ⟨cap, hcap, hout⟩ := cleared_eq
  rw [approved, hcap]
  exact approving_reached hout

/-- The payment goes out while the gate is open. -/
theorem sent_eq : sending approved.sys.db cleared.2 (approved.around (.ok ()) (seconds 426)) =
    .ok sent :=
  eq_ok_getD evaluated.2.2.2.2.1

theorem sent_reached : CustodyObserver.Reached digest
    { noon with sys := ⟨sent.1, { Held.empty with caps := cleared.2.toList }⟩ } := by
  obtain ⟨cap, hcap, -⟩ := cleared_eq
  have hsent := sent_eq
  have hreached := approved_reached
  rw [approved] at hreached
  rw [hcap] at hsent hreached ⊢
  exact hreached.serve rfl (.funds (.begin (List.mem_cons_self ..) hsent))

theorem paying_reached {db db' : Db} {held : Held}
    (hs : CustodyObserver.Reached digest { noon with sys := ⟨db, held⟩ })
    (h : paying db = .ok db') : db'.clock = seconds 462 ∧ CustodyObserver.Reached digest { noon with
      sys := ⟨db', { held with
        attempts := ("attempt", payingTransaction, some (confirmed 219 230 payment)) ::
          held.attempts }⟩ } := by
  simp only [paying, bind_eq_ok, require_eq_ok, exists_const, pure_eq_ok] at h
  obtain ⟨db₁, h₁, ⟨db₂, _⟩, h₂, hclock, rfl⟩ := h
  have hseen := hs.serve rfl (.hold (.reconcileEvidence h₁))
  have hreconciled := hseen.serve rfl (.funds (.reconcile (List.mem_cons_self ..) h₂))
  exact ⟨rfl, hreconciled.serve rfl (.tick hclock)⟩

theorem closing_reached {db : Db} {held : Held} {out : Db × Db × Db}
    (hs : CustodyObserver.Reached digest { dusk with sys := ⟨db, held⟩ })
    (h : closing db = .ok out) : CustodyObserver.Reached digest
      ({ dusk with sys := ⟨out.2.1, held⟩ }.recorded out.2.2 movedStream (digest evening)
        eveningValue) := by
  simp only [closing, bind_eq_ok, pure_eq_ok] at h
  obtain ⟨first, h₁, second, h₂, bound, h₃, rfl⟩ := h
  have hknown : Saved digest dusk.captures evening := ⟨_, AList.lookup_insert _, rfl⟩
  have hnew : digest evening ∉ noon.batches.map (·.captureId) := by decide
  have htaken := hs.step (.take hknown verify_evening rfl
    (checkBatch_of_links rfl rfl hnew rfl rfl))
  have hpaid := htaken.step (.receipt rfl h₁)
  have hreceived := hpaid.step (.receipt rfl h₂)
  exact hreceived.step (.finish rfl rfl h₃)

theorem dusk_reached : CustodyObserver.Reached digest dusk := by
  have hpaid : paying sent.1 = .ok paid := eq_ok_getD evaluated.2.2.2.2.2.1
  obtain ⟨hclock, hafter⟩ := paying_reached sent_reached hpaid
  have hfresh : noon.captures.lookup (digest evening) = none := AList.lookup_insert_ne (by decide)
  have hsaved := hafter.step (.save hfresh)
  rwa [show ({ noon with sys := _ } : CustodyObserver.State).sys.db.clock = _ from hclock] at hsaved

theorem night_reached : CustodyObserver.Reached digest night :=
  closing_reached dusk_reached (eq_ok_getD evaluated.2.2.2.2.2.2.1)

theorem night_ready : night.ready = true := evaluated.2.2.2.2.2.2.2.1

theorem winter_reached : CustodyObserver.Reached digest winter := by
  have hswept : Retention.advanceFloors autumn plan = .ok swept :=
    eq_ok_getD evaluated.2.2.2.2.2.2.2.2.1
  have hwaited : CustodyObserver.Reached digest { night with sys := ⟨autumn, held⟩ } :=
    night_reached.serve rfl (.tick (by decide +kernel))
  have hplanned : CustodyObserver.Reached digest
      { night with sys := ⟨autumn, { held with plan := some plan }⟩ } :=
    hwaited.serve rfl (.hold (.plan rfl))
  have hsweeping : CustodyObserver.Reached digest sweeping :=
    hplanned.serve rfl (.observe (.advanceFloors rfl (by decide +kernel) hswept))
  have hkept := hsweeping.step (.keep (List.mem_cons_self ..))
  refine hkept.step (.expire (List.mem_cons_self ..) fun identity hidentity => ?_)
  obtain rfl := List.mem_singleton.mp hidentity
  exact evaluated.2.2.2.2.2.2.2.2.2

theorem winter_row : winter.captures.lookup (digest morning) =
    some ⟨morning, seconds 426, true⟩ := by
  have hsaved : sweeping.captures.lookup (digest morning) = some ⟨morning, seconds 426, false⟩ :=
    (AList.lookup_insert_ne (by decide)).trans (AList.lookup_insert ∅)
  rw [winter, State.expire, Table.lookup_mapVals]
  refine (congrArg _ hsaved).trans ?_
  exact congrArg some (if_pos (List.mem_singleton_self _))

end CustodyDay

open CustodyObserver CustodyDay in
/-- Forty days on, the archive of the morning cannot be read any more.  Still each block is in
exactly one batch, and the transfers that the two archives answered are in the books. -/
theorem nothing_passed_over_winter :
    winter.read digest (digest morning) =
      .error (.funds "custody capture payload expired under the retention policy") ∧
    (∀ height : ℕ, winter.batches.countP
        (fun row => row.firstHeight ≤ height ∧ height ≤ row.lastHeight) =
      if 200 ≤ height ∧ (height : ℤ) ≤ 219 then 1 else 0) ∧
    ∀ row ∈ winter.batches, ∀ direction, ∃ capture logs,
      winter.captures.lookup row.captureId = some capture ∧
      (ChainObserver.logFilter network row.firstHeight row.lastHeight direction,
        .arr logs) ∈ capture.data.calls ∧
      ∀ item ∈ logs, ∃ transfer, ChainObserver.Names network direction item transfer ∧
        Credited winter.sys.db.funds transfer := by
  have hstream : winter.stream = some { openedStream with
      lastHeight := 219, lastHash := hash 'b' 219 } := rfl
  obtain ⟨-, hcount, hlogs, -⟩ := nothing_passed_over winter_reached hstream
  refine ⟨read_expired winter_row rfl, hcount, fun row hrow direction => ?_⟩
  have hle : ∀ row ∈ winter.batches, row.firstHeight ≤ row.lastHeight := by decide
  obtain ⟨capture, logs, hcapture, -, hmem, hitems⟩ := hlogs row hrow (hle row hrow) direction
  refine ⟨capture, logs, hcapture, hmem, fun item hitem => ?_⟩
  obtain ⟨transfer, hnames, -, hcredited⟩ := hitems item hitem
  exact ⟨transfer, hnames, hcredited⟩

end TigPool
