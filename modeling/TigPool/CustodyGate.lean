/-
# `TigPool.CustodyGate` — when the observer lets money and work go out

Payments, top-ups and new work ask the observer first: once custody is observed, they go on only
if its last check is healthy, recent, and about the balances that the ledger still shows.  So what
stands behind a `ready` is the last check, and with it the archive that was checked: the books agree
with the wallet at the block where the stream ends, the block counted as settled, every send of
the wallet was accounted for, nothing had left it unexplained, and settled history never changed.

A conflict in settled history closes the gate for good.  Alerts are never taken back, the check
that notes one is unhealthy, and so is every later one.
-/
import TigPool.CustodyCursor

namespace TigPool

open Basis

namespace CustodyObserver

open ChainObserver (CaptureData Verified verify)

variable {digest : Digest} {s s' : State} {a : Act} {f f' : Funds}

/-! ## The last check -/

variable (digest) in
/-- A healthy check of the newest batch.  `f` are the books that were checked. -/
structure Checked (s : State) (c : Check) (f : Funds) (stream : ChainStream) (data : CaptureData)
    (value : Verified) : Prop where
  opened : s.stream = some stream
  saved : Saved digest s.captures data
  verified : verify data = .ok value
  network : value.network = stream.network
  cursor : position stream = ⟨value.last, value.blockHash⟩
  batch : s.batches.head? = some ⟨digest data, value.first, value.last, value.blockHash⟩
  figures : c.figures = some (figures f stream value)
  checkedAt : c.checkedAt = value.checkedAt
  healthy : healthy f stream s.alerts value = true
  earlier : f.Extends s.sys.db.funds

variable (digest) in
/-- If the last check is healthy, it is about the newest batch. -/
def LastChecked (s : State) : Prop :=
  ∀ c, s.checks.head? = some c → c.healthy = true →
    ∃ f stream data value, Checked digest s c f stream data value

/-- What leaves the tables of the observer as they are keeps a check. -/
theorem Checked.kept {c : Check} {stream : ChainStream} {data : CaptureData} {value : Verified}
    (h : Checked digest s c f stream data value) (hs : Sound digest s) (hstep : Step digest s a s')
    (hstream : s'.stream = s.stream) (hbatches : s'.batches = s.batches)
    (halerts : s'.alerts = s.alerts) : Checked digest s' c f stream data value :=
  { h with
    opened := hstream.trans h.opened
    saved := hstep.saved h.saved
    batch := hbatches ▸ h.batch
    healthy := halerts ▸ h.healthy
    earlier := h.earlier.trans (hstep.extends hs) }

theorem LastChecked.kept (h : LastChecked digest s) (hs : Sound digest s)
    (hstep : Step digest s a s') (hchecks : s'.checks = s.checks) (hstream : s'.stream = s.stream)
    (hbatches : s'.batches = s.batches) (halerts : s'.alerts = s.alerts) :
    LastChecked digest s' := by
  intro c hc hhealthy
  obtain ⟨f, stream, data, value, hchecked⟩ := h c (hchecks ▸ hc) hhealthy
  exact ⟨f, stream, data, value, hchecked.kept hs hstep hstream hbatches halerts⟩

theorem LastChecked.step (h : LastChecked digest s) (hs : Sound digest s)
    (hstep : Step digest s a s') : LastChecked digest s' := by
  have hone := hstep
  cases hstep with
  | service | save | refuse | startFails | take | takeFails | receipt | receiptFails | finishFails
  | crash | keep | expire => exact h.kept hs hone rfl rfl rfl rfl
  | start _ _ _ hnone =>
      -- Before there is a stream no check was healthy.
      intro c hc hhealthy
      obtain ⟨f, stream, data, value, hchecked⟩ := h c hc hhealthy
      cases hnone.symm.trans hchecked.opened
  | note =>
      intro c hc hhealthy
      obtain rfl := Option.some.inj hc
      cases hhealthy
  | @finish identity value stream db hr hstream hbind =>
      intro c hc hhealthy
      obtain rfl := Option.some.inj hc
      obtain ⟨stream', data, hsame, hfits⟩ := hs.recording hr
      obtain rfl := Option.some.inj (hstream.symm.trans hsame)
      refine ⟨db.funds, _, data, value, rfl, hfits.saved, hfits.verified, hfits.network, rfl, ?_, rfl,
        rfl, hhealthy, .refl _⟩
      rw [← show identity = digest data from hfits.identity]
      rfl

theorem Reached.lastChecked (h : Reached digest s) : LastChecked digest s := by
  obtain ⟨s₀, hinitial, hrun⟩ := h
  have hchecks : LastChecked digest s₀ := by
    intro c hc
    rw [hinitial.checks] at hc
    cases hc
  exact (hrun.invariant (I := fun s => Sound digest s ∧ LastChecked digest s)
    ⟨hinitial.sound, hchecks⟩
    fun _ _ _ _ hs hstep => ⟨hs.1.step hstep, hs.2.step hs.1 hstep⟩).2

/-! ## The gate -/

variable (digest) in
/-- The books of custody agree with the chain, as it was at the end of the stream. -/
structure Agrees (s : State) (stream : ChainStream) (data : CaptureData) (value : Verified) :
    Prop where
  opened : s.stream = some stream
  saved : Saved digest s.captures data
  /-- The archive is there unless the retention cutoff has passed the time it was saved at. -/
  readable : ∀ row, s.captures.lookup (digest data) = some row → s.captureCutoff < row.createdAt →
    s.read digest (digest data) = .ok data
  verified : verify data = .ok value
  network : value.network = stream.network
  cursor : position stream = ⟨value.last, value.blockHash⟩
  settled : (value.last : ℤ) = value.target
  recent : seconds (-5) ≤ s.sys.db.clock - value.checkedAt ∧
    s.sys.db.clock - value.checkedAt ≤ seconds 120
  tig : s.sys.db.funds.ledger.backing .TIG = value.closing.tig
  native : s.sys.db.funds.ledger.backing .NATIVE = value.closing.native
  /-- Seen from the books at the time of the check, of which all is still there. -/
  accounted : ∃ f : Funds, f.Extends s.sys.db.funds ∧
    accounted f stream value = value.closing.nonce ∧ unexplained f stream value = false ∧
    knownCode f value = true
  unchanged : s.alerts.any isConflict = false

theorem agrees_of_ready (h : Reached digest s) (hready : s.ready = true) :
    ∃ stream data value, Agrees digest s stream data value := by
  simp only [State.ready, Option.any_eq_true, decide_eq_true_eq, Bool.decide_and,
    Bool.and_eq_true] at hready
  obtain ⟨-, c, hc, hhealthy, hfrom, hto, shown, hshown, htig, hnative⟩ := hready
  obtain ⟨f, stream, data, value, hchecked⟩ := h.lastChecked c hc hhealthy
  obtain rfl := Option.some.inj (hshown.symm.trans hchecked.figures)
  have hfigures := hchecked.healthy
  simp only [healthy, decide_eq_true_eq] at hfigures
  obtain ⟨hclosing, hgas, hnonce, hexplained, hcalm, hcode, hsettled⟩ := hfigures
  rw [hchecked.checkedAt] at hfrom hto
  have hreadable row (hrow : s.captures.lookup (digest data) = some row)
      (hlater : s.captureCutoff < row.createdAt) : s.read digest (digest data) = .ok data := by
    obtain ⟨row', hrow', rfl⟩ := hchecked.saved
    obtain rfl := Option.some.inj (hrow.symm.trans hrow')
    exact h.sound.readable hrow hlater
  exact ⟨stream, data, value, hchecked.opened, hchecked.saved, hreadable, hchecked.verified,
    hchecked.network, hchecked.cursor, hsettled, ⟨hfrom, hto⟩, htig.symm.trans hclosing,
    hnative.symm.trans hgas,
    ⟨f, hchecked.earlier, hnonce, hexplained, hcode⟩, hcalm⟩

/-- The answer lets a transaction go on. -/
def Opens (around : Surroundings) : Prop :=
  around.custodyInitialized = false ∨ around.custodyReady = true

theorem agrees_of_opens (h : Reached digest s) (hsome : s.stream.isSome = true)
    {pilot : Result Unit} {hostClock : Time} (hopen : Opens (s.around pilot hostClock)) :
    ∃ stream data value, Agrees digest s stream data value := by
  rcases hopen with hclosed | hready
  · cases hsome.symm.trans hclosed
  · exact agrees_of_ready h hready

variable {db db' : Db} {around : Surroundings}

theorem opens_of_unblocked (h : blocked db around = none) : Opens around := by
  unfold blocked at h
  split at h
  next => cases h
  next =>
    split at h
    next => cases h
    next =>
      split at h
      next => cases h
      next hopen =>
        by_cases hinitialized : around.custodyInitialized = true
        · exact .inr (not_not.mp fun hready => hopen ⟨hinitialized, hready⟩)
        · exact .inl (Bool.eq_false_iff.mpr hinitialized)

/-- A payment is begun once, and then the observer has let it; the wallet was seen to hold what the
ledger says. -/
theorem beginWithdrawal_opens {identity attemptId out : Uuid} {requestKey actor : String}
    {preflight : CustodyPreflight} {feeLimit : ℤ} {operatorReserve : Option ℤ}
    {cap : Option SpendingCap} {i : CustodyIdentity} (hbound : db.funds.custodyIdentity = some i)
    (h : Withdrawals.begin db identity requestKey preflight feeLimit actor operatorReserve around
      attemptId cap = .ok (db', out)) :
    db' = db ∨ Opens around ∧ db.funds.ledger.backing .TIG = preflight.tokenBalance ∧
      db.funds.ledger.backing .NATIVE = preflight.nativeBalance := by
  simp only [Withdrawals.begin, bind_eq_ok, require_eq_ok, exists_const, units_eq_ok] at h
  obtain ⟨feeLimit, ⟨rfl, -⟩, retained, -, -, db₁, hbind, row, -, h⟩ := h
  obtain rfl := bind_same hbound hbind
  split at h
  next =>
    simp only [bind_eq_ok, require_eq_ok, exists_const, pure_eq_ok, Prod.mk.injEq] at h
    exact .inl h.2.1.symm
  next =>
    simp only [bind_eq_ok, require_eq_ok, exists_const, fetch_eq_ok, pure_eq_ok] at h
    obtain ⟨-, -, -, review, -, -, -, hbalances, hopen, -⟩ := h
    exact .inr ⟨hopen.imp_left Bool.eq_false_iff.mpr, hbalances⟩

theorem beginTopup_opens {identity out : Uuid} {requestKey policyCapture feeModel actor : String}
    {preflight : CustodyPreflight} {amount feeLimit : ℤ} {cap : Option SpendingCap}
    {i : CustodyIdentity} (hbound : db.funds.custodyIdentity = some i)
    (h : Topups.begin db requestKey preflight policyCapture amount feeLimit feeModel actor around
      identity cap = .ok (db', out)) :
    db' = db ∨ Opens around ∧ db.funds.ledger.backing .TIG = preflight.tokenBalance ∧
      db.funds.ledger.backing .NATIVE = preflight.nativeBalance := by
  simp only [Topups.begin, bind_eq_ok, require_eq_ok, exists_const, units_eq_ok] at h
  obtain ⟨amount, ⟨rfl, -⟩, feeLimit, ⟨rfl, -⟩, -, ⟨capture, policy⟩, -, db₁, hbind, h⟩ := h
  obtain rfl := bind_same hbound hbind
  split at h
  next =>
    simp only [bind_eq_ok, require_eq_ok, exists_const, pure_eq_ok, Prod.mk.injEq] at h
    exact .inl h.2.1.symm
  next =>
    simp only [bind_eq_ok, require_eq_ok, exists_const, pure_eq_ok] at h
    obtain ⟨-, -, -, -, -, hbalances, hopen, -⟩ := h
    exact .inr ⟨hopen.imp_left Bool.eq_false_iff.mpr, hbalances⟩

theorem reserve_opens {member identity out : Uuid} {key : String} {round : ℤ} {resource : Resource}
    {selection payload : Json} {feeLimit : ℤ} {expiresAt : Time}
    (h : reserve db member key round resource selection payload feeLimit expiresAt around identity =
      .ok (db', out)) : db' = db ∨ Opens around := by
  simp only [reserve, bind_eq_ok, require_eq_ok, exists_const, fetch_eq_ok] at h
  obtain ⟨-, _, -, _, -, _, -, _, -, h⟩ := h
  split at h
  next =>
    simp only [bind_eq_ok, require_eq_ok, exists_const, pure_eq_ok, Prod.mk.injEq] at h
    exact .inl h.2.1.symm
  next =>
    rw [bind_eq_ok] at h
    obtain ⟨_, hblocked, -⟩ := h
    exact .inr (opens_of_unblocked (require_eq_ok.mp hblocked))

theorem beginPrecommit_opens {identity : Uuid} {preflight : Option Preflight}
    {out : ProtocolIntent} (hkind : out.kind = .precommit)
    (h : Submissions.begin db identity preflight around = .ok (db', out)) : Opens around := by
  simp only [Submissions.begin, bind_eq_ok, require_eq_ok, exists_const] at h
  obtain ⟨⟨row, intent⟩, -, -, h⟩ := h
  split at h
  next =>
    rw [bind_eq_ok] at h
    obtain ⟨_, hblocked, -⟩ := h
    exact opens_of_unblocked (require_eq_ok.mp hblocked)
  next hother =>
    simp only [bind_eq_ok, require_eq_ok, exists_const, pure_eq_ok, Prod.mk.injEq] at h
    obtain ⟨-, -, -, rfl⟩ := h
    exact absurd hkind hother

end CustodyObserver

open CustodyObserver in
/-- The gate of the custody observer, in every state that is reached.  If it is open, the ledger's
two balances of custody are those of the wallet at the end of the stream, at most two minutes ago,
as a saved archive says, with every send accounted for and nothing unexplained.  Once settled
history was seen to change it is closed for good.  And nothing goes around it: once custody is
observed, a payment or a top-up is begun, work is reserved and a precommit is sent only if the books
agree; for payments and top-ups the preflight has seen the same balances.

All this is said of one observing process, whose last transaction of a batch reads the alerts and
commits in one step.  Two collectors could note a conflict between the two. -/
theorem custody_gate {digest : CustodyObserver.Digest} {s : CustodyObserver.State}
    (h : CustodyObserver.Reached digest s) :
    (s.ready = true → ∃ stream data value, Agrees digest s stream data value) ∧
    (s.alerts.any isConflict = true → ∀ s',
      Leads (CustodyObserver.Step digest) (fun _ _ => True) s s' → s'.ready = false) ∧
    (s.stream.isSome = true → ∀ pilot hostClock,
      (∀ identity key preflight feeLimit actor reserve attempt cap db' out,
        Withdrawals.begin s.sys.db identity key preflight feeLimit actor reserve
          (s.around pilot hostClock) attempt cap = .ok (db', out) → db' = s.sys.db ∨
          ∃ stream data value, Agrees digest s stream data value ∧
            preflight.tokenBalance = value.closing.tig ∧
            preflight.nativeBalance = value.closing.native) ∧
      (∀ key preflight policy amount feeLimit feeModel actor identity cap db' out,
        Topups.begin s.sys.db key preflight policy amount feeLimit feeModel actor
          (s.around pilot hostClock) identity cap = .ok (db', out) → db' = s.sys.db ∨
          ∃ stream data value, Agrees digest s stream data value ∧
            preflight.tokenBalance = value.closing.tig ∧
            preflight.nativeBalance = value.closing.native) ∧
      (∀ member key round resource selection payload feeLimit expires identity db' out,
        reserve s.sys.db member key round resource selection payload feeLimit expires
          (s.around pilot hostClock) identity = .ok (db', out) → db' = s.sys.db ∨
          ∃ stream data value, Agrees digest s stream data value) ∧
      ∀ identity preflight db' out, Submissions.begin s.sys.db identity preflight
          (s.around pilot hostClock) = .ok (db', out) → out.kind = .precommit →
          ∃ stream data value, Agrees digest s stream data value) := by
  have hagrees {pilot : Result Unit} {hostClock : Time} {preflight : CustodyPreflight}
      (hsome : s.stream.isSome = true) (hopen : Opens (s.around pilot hostClock) ∧
        s.sys.db.funds.ledger.backing .TIG = preflight.tokenBalance ∧
        s.sys.db.funds.ledger.backing .NATIVE = preflight.nativeBalance) :
      ∃ stream data value, Agrees digest s stream data value ∧
        preflight.tokenBalance = value.closing.tig ∧
        preflight.nativeBalance = value.closing.native := by
    obtain ⟨hopen, htig, hnative⟩ := hopen
    obtain ⟨stream, data, value, hagree⟩ := agrees_of_opens h hsome hopen
    refine ⟨stream, data, value, hagree, ?_, ?_⟩
    · exact_mod_cast htig.symm.trans hagree.tig
    · exact_mod_cast hnative.symm.trans hagree.native
  refine ⟨agrees_of_ready h, fun hconflict s' hrun => ?_, fun hsome pilot hostClock => ?_⟩
  · have hs' : CustodyObserver.Reached digest s' := by
      obtain ⟨s₀, hinitial, hfirst⟩ := h
      exact ⟨s₀, hinitial, hfirst.trans hrun⟩
    refine Bool.eq_false_iff.mpr fun hready => ?_
    obtain ⟨stream, data, value, hagree⟩ := agrees_of_ready hs' hready
    obtain ⟨alert, halert, hkind⟩ := List.any_eq_true.mp hconflict
    have hlater := (h.sound.continues hrun).alerts.subset halert
    exact absurd hkind (List.any_eq_false.mp hagree.unchanged alert hlater)
  · obtain ⟨stream, hstream⟩ := Option.isSome_iff_exists.mp hsome
    have hbound := h.sound.bound hstream
    refine ⟨?_, ?_, ?_, ?_⟩
    · intro _ _ _ _ _ _ _ _ _ _ hbegin
      exact (beginWithdrawal_opens hbound hbegin).imp_right (hagrees hsome)
    · intro _ _ _ _ _ _ _ _ _ _ _ hbegin
      exact (beginTopup_opens hbound hbegin).imp_right (hagrees hsome)
    · intro _ _ _ _ _ _ _ _ _ _ _ hreserve
      exact (reserve_opens hreserve).imp_right (agrees_of_opens h hsome)
    · intro _ _ _ _ hbegin hkind
      exact agrees_of_opens h hsome (beginPrecommit_opens hkind hbegin)

open CustodyObserver CustodyDay in
/-- The member's payment is begun with the balances of the wallet at block 200; at night, when it
is paid and more has come in, the books agree with the wallet at block 219. -/
theorem custody_gate_night :
    (∃ stream data value, Agrees digest approved stream data value ∧
      preflight.tokenBalance = value.closing.tig ∧
      preflight.nativeBalance = value.closing.native) ∧
    ∃ stream data value, Agrees digest night stream data value ∧
      value.closing.tig = 4 * tig ∧ value.closing.native = 8 := by
  constructor
  · obtain ⟨hbegin, -⟩ := (custody_gate approved_reached).2.2 rfl (.ok ()) (seconds 426)
    have hattempt : (sent.1.funds.withdrawalAttempts.lookup "attempt").isSome = true ∧
        (approved.sys.db.funds.withdrawalAttempts.lookup "attempt").isSome = false := by
      decide +kernel
    have hchanged : sent.1 ≠ approved.sys.db := fun hsame => by
      rw [hsame, hattempt.2] at hattempt
      cases hattempt.1
    exact (hbegin _ _ _ _ _ _ _ _ _ _ sent_eq).resolve_left hchanged
  · obtain ⟨stream, data, value, hagrees⟩ := (custody_gate night_reached).1 night_ready
    have hbacking : night.sys.db.funds.ledger.backing .TIG = 4 * tig ∧
        night.sys.db.funds.ledger.backing .NATIVE = 8 := by
      decide +kernel
    refine ⟨stream, data, value, hagrees, ?_, ?_⟩
    · exact_mod_cast hagrees.tig.symm.trans hbacking.1
    · exact_mod_cast hagrees.native.symm.trans hbacking.2

end TigPool
