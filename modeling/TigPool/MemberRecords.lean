/-
# `TigPool.MemberRecords` — what is on record under a member's name

Each row that the service keeps for a member was asked for by that member: withdrawals and
their cancellation, work requests and so reservations, handovers and uploads.  `OnRecord` says
so in terms of the notes of a run.  A request noted there was made with a token, the token was
opened by a signature, and so every row goes back to a text that the member's wallet has
signed.
-/
import TigPool.MemberApi

namespace TigPool

open Basis

/-! ## Rows that only members write -/

section Rows

variable {db db' : Db} {m identity out : Uuid}

/-- A withdrawal that was not there is the one that was asked for. -/
theorem Withdrawals.request_terms {key : String} {amount : ℤ}
    (h : request db m key amount identity = .ok (db', out)) {id : Uuid} {w : Withdrawal}
    (hnone : db.funds.withdrawals.lookup id = none)
    (hw : db'.funds.withdrawals.lookup id = some w) :
    w.memberId = some m ∧ w.requestKey = key ∧ (w.amount : ℤ) = amount ∧ w.state = .requested := by
  simp only [request, bind_eq_ok, require_eq_ok, exists_const, memberLock, fetch_eq_ok] at h
  obtain ⟨value, hunits, -, row, hrow, h⟩ := h
  split at h
  next =>
    simp only [bind_eq_ok, require_eq_ok, exists_const, pure_eq_ok, Prod.mk.injEq] at h
    obtain ⟨-, rfl, -⟩ := h
    rw [hnone] at hw
    cases hw
  next =>
    simp only [bind_eq_ok, require_eq_ok, exists_const, pure_eq_ok, Prod.mk.injEq] at h
    obtain ⟨-, -, _, -, _, -, -, rfl, -⟩ := h
    rcases Table.lookup_insert_cases hw with ⟨-, rfl⟩ | ⟨-, hw⟩
    · exact ⟨rfl, rfl, (units_eq_ok.mp hunits).1.symm, rfl⟩
    · have hw₀ : db.funds.withdrawals.lookup id = some w := hw
      rw [hnone] at hw₀
      cases hw₀

/-- A release cancels the withdrawal of the member who asks for it, and no other. -/
theorem Withdrawals.release_cancels {actor reason key : String} {owner : Option Uuid}
    (h : release db identity actor reason key owner = .ok (db', out)) {id : Uuid}
    {w' : Withdrawal} (hw' : db'.funds.withdrawals.lookup id = some w')
    (hcancelled : w'.state = .cancelled) :
    (∃ w, db.funds.withdrawals.lookup id = some w ∧ w.state = .cancelled) ∨
      id = identity ∧ ∃ m, owner = some m ∧ w'.memberId = some m := by
  simp only [release, locked, bind_eq_ok, require_eq_ok, exists_const, fetch_eq_ok] at h
  obtain ⟨-, row, hrow, howner, -, db₁, hevent, h⟩ := h
  have hsame := (event_frame hevent).1
  by_cases hdone : row.state = if owner.isSome then .cancelled else .rejected
  · rw [if_pos hdone] at h
    obtain ⟨rfl, -⟩ := Prod.mk.inj (Except.ok.inj h)
    rw [hsame] at hw'
    exact .inl ⟨w', hw', hcancelled⟩
  · simp only [if_neg hdone, bind_eq_ok, pure_eq_ok, Prod.mk.injEq] at h
    obtain ⟨_, -, rfl, -⟩ := h
    rcases Table.lookup_insert_cases hw' with ⟨rfl, rfl⟩ | ⟨-, hw'⟩
    · cases owner with
      | none => cases hcancelled
      | some m =>
          rcases howner with hnone | howner
          · cases hnone
          · exact .inr ⟨rfl, m, rfl, howner⟩
    · have hw : db₁.funds.withdrawals.lookup id = some w' := hw'
      rw [hsame] at hw
      exact .inl ⟨w', hw, hcancelled⟩

end Rows

namespace Funds

variable {f f' : Funds} {c : Change} {L : Change → Prop}

/-- Only a release cancels. -/
theorem Step.cancelled_back (h : Step f c f') {id : Uuid} {w' : Withdrawal}
    (hw' : f'.withdrawals.lookup id = some w') (hcancelled : w'.state = .cancelled) :
    (∃ w, f.withdrawals.lookup id = some w ∧ w.state = .cancelled) ∨ ∃ a, c = .released id a := by
  have hput {k : Uuid} {w : Withdrawal} (hstate : w.state ≠ .cancelled)
      (heq : f'.withdrawals = AList.insert k w f.withdrawals) :
      ∃ w, f.withdrawals.lookup id = some w ∧ w.state = .cancelled := by
    rw [heq] at hw'
    rcases Table.lookup_insert_cases hw' with ⟨-, rfl⟩ | ⟨-, hw'⟩
    · exact absurd hcancelled hstate
    · exact ⟨w', hw', hcancelled⟩
  cases h with
  | requested _ hs => exact .inl (hput (by rw [hs]; decide) rfl)
  | approved => exact .inl (hput (fun h => by cases h) rfl)
  | released =>
      rcases Table.lookup_insert_cases hw' with ⟨rfl, -⟩ | ⟨-, hw'⟩
      · exact .inr ⟨_, rfl⟩
      · exact .inl ⟨w', hw', hcancelled⟩
  | begun => exact .inl (hput (fun h => by cases h) rfl)
  | unpaid => exact .inl (hput (fun h => by cases h) rfl)
  | paid => exact .inl (hput (fun h => by cases h) rfl)
  | _ => exact .inl ⟨w', hw', hcancelled⟩

theorem Path.cancelled_back (h : Path L f f') {id : Uuid} {w' : Withdrawal}
    (hw' : f'.withdrawals.lookup id = some w') (hcancelled : w'.state = .cancelled) :
    (∃ w, f.withdrawals.lookup id = some w ∧ w.state = .cancelled) ∨ ∃ a, L (.released id a) := by
  induction h generalizing w' with
  | refl => exact .inl ⟨w', hw', hcancelled⟩
  | step _ hc hs ih =>
      rcases hs.cancelled_back hw' hcancelled with ⟨w, hw, hold⟩ | ⟨a, rfl⟩
      · exact ih hw hold
      · exact .inr ⟨a, hc⟩

/-- A member's wallet is the one that has signed in. -/
theorem Path.memberWallet (h : Path L f f') {m : Uuid} {row : Member}
    (hrow : f.members.lookup m = some row) :
    ∃ row', f'.members.lookup m = some row' ∧ row'.wallet = row.wallet := by
  induction h with
  | refl => exact ⟨row, hrow, rfl⟩
  | step _ _ hs ih =>
      obtain ⟨row₁, hrow₁, hsame₁⟩ := ih
      obtain ⟨row₂, hrow₂, hsame₂⟩ := (hs.member m).relates (R := fun a b => b.wallet = a.wallet)
        rfl (fun _ ht => by cases ht <;> rfl) hrow₁
      exact ⟨row₂, hrow₂, hsame₂.trans hsame₁⟩

end Funds

/-! ## Requests for work keep their terms -/

/-- Each request on record was there before, with the same terms. -/
def Db.AsksNothing (db db' : Db) : Prop :=
  ∀ ⦃id w'⦄, db'.work.workRequests.lookup id = some w' →
    ∃ w, db.work.workRequests.lookup id = some w ∧ w'.terms = w.terms

namespace Db.AsksNothing

variable {db db' db'' : Db}

theorem of_eq (h : db'.work.workRequests = db.work.workRequests) : db.AsksNothing db' :=
  fun _ w' hw' => ⟨w', by rw [← h]; exact hw', rfl⟩

theorem trans (h : db.AsksNothing db') (h' : db'.AsksNothing db'') : db.AsksNothing db'' := by
  intro id w'' hw''
  obtain ⟨w', hw', hsame'⟩ := h' hw''
  obtain ⟨w, hw, hsame⟩ := h hw'
  exact ⟨w, hw, hsame'.trans hsame⟩

theorem put {id : Uuid} {w w' : WorkRequest} (hw : db.work.workRequests.lookup id = some w)
    (heq : db'.work.workRequests = AList.insert id w' db.work.workRequests)
    (hsame : w'.terms = w.terms) : db.AsksNothing db' := by
  intro k x hx
  rw [heq] at hx
  rcases Table.lookup_insert_cases hx with ⟨rfl, rfl⟩ | ⟨-, hx⟩
  · exact ⟨w, hw, hsame⟩
  · exact ⟨x, hx, rfl⟩

end Db.AsksNothing

namespace WorkRequests

variable {db db' : Db}

theorem expireQueued_asksNothing (db : Db) : db.AsksNothing (expireQueued db) := fun id w' hw' => by
  obtain ⟨w, hw, hwaits⟩ := (expireQueued_waits db id).back (.refl w') (fun _ h => h) hw'
  exact ⟨w, hw, hwaits.terms⟩

theorem reserveNext_asksNothing {blockId : String}
    {choose : WorkRequest → Result (Option Selection)} {queue : List Uuid}
    {around : Surroundings} {pilot : WorkRequest → Result Unit} {fresh : FreshIds}
    {out : Option Uuid} (hf : db.funds.Lawful)
    (h : reserveNext db blockId choose queue around pilot fresh = .ok (db', out)) :
    db.AsksNothing db' := by
  have hexpired : (expireQueued db).funds.Lawful := hf
  rcases reserveNext_spec h with ⟨rfl, -⟩ | ⟨block, -, -, hqueue⟩
  · exact .of_eq rfl
  rcases tryQueue_spec hqueue with ⟨rfl, -⟩ | ⟨requestId, -, reservation, -, hattempt⟩
  · exact expireQueued_asksNothing db
  obtain ⟨w, selection, hw, -, -, htry⟩ := attempt_spec hattempt
  obtain ⟨reserved, hreserve, hhand⟩ := tryReserve_spec htry
  simp only [handOver, bind_eq_ok, pure_eq_ok] at hhand
  obtain ⟨db₁, henqueue, rfl⟩ := hhand
  have hsame : db₁.work.workRequests = (expireQueued db).work.workRequests :=
    (enqueue_steady henqueue).requests.trans (reserve_moves hexpired hreserve).requests
  exact (expireQueued_asksNothing db).trans (.put hw (congrArg (AList.insert requestId _) hsame) rfl)

end WorkRequests

namespace Sys

variable {s s' : Sys} {a : Action}

/-- Only a request asks for work. -/
theorem Step.asksNothing (hs : s.Lawful) (hne : a ≠ .work .create) (h : Step s a s') :
    s.db.AsksNothing s'.db := by
  by_cases hattends : ∀ w, a = .work w → w.attends = false ∨ ∃ i, w = .recordResponse i
  · exact .of_eq (h.requests hs hattends)
  cases h with
  | work h =>
      cases h with
      | create => exact absurd rfl hne
      | refresh h =>
          obtain ⟨w, hw, -, -, -, -, rfl⟩ := WorkRequests.refresh_spec h
          exact .put hw rfl rfl
      | get h =>
          rcases (WorkRequests.get_spec h).1 with rfl | ⟨w, hw, -, rfl⟩
          · exact .of_eq rfl
          · exact .put hw rfl rfl
      | hasQueued => exact WorkRequests.expireQueued_asksNothing _
      | reserveNext _ h => exact WorkRequests.reserveNext_asksNothing hs.funds h
      | recordResponse =>
          refine absurd (fun w heq => ?_) hattends
          obtain rfl := Action.work.inj heq
          exact .inr ⟨_, rfl⟩
      | _ =>
          refine absurd (fun w heq => ?_) hattends
          obtain rfl := Action.work.inj heq
          exact .inl rfl
  | _ => exact absurd (fun w heq => by cases heq) hattends

/-- Only a release cancels a withdrawal. -/
theorem Step.cancelled_back (hs : s.Lawful) (h : Step s a s')
    (hne : ∀ id, a ≠ .funds (.release id)) {id : Uuid} {w' : Withdrawal}
    (hw' : s'.db.funds.withdrawals.lookup id = some w') (hcancelled : w'.state = .cancelled) :
    ∃ w, s.db.funds.withdrawals.lookup id = some w ∧ w.state = .cancelled := by
  rcases Funds.Path.cancelled_back (h.path hs) hw' hcancelled with hold | ⟨c, hdoes⟩
  · exact hold
  cases a with
  | funds a =>
      cases a with
      | release => exact absurd rfl (hne _)
      | _ => simp [Action.does, FundsAction.does, Change.Quiet] at hdoes
  | work a => cases a <;> simp [Action.does, WorkAction.does, Change.Quiet] at hdoes
  | _ => simp [Action.does, Change.Quiet] at hdoes

end Sys

/-! ## What a transaction writes for members -/

namespace MemberApi

section Writes

variable (n : Note) (db db' : Db)

def WritesWithdrawals : Prop :=
  ∀ ⦃id w' m⦄, db'.funds.withdrawals.lookup id = some w' → w'.memberId = some m →
    (∃ w, db.funds.withdrawals.lookup id = some w ∧ w.Extends w') ∨
      n.2 = .acted m (.withdraw w'.requestKey w'.amount)

def WritesCancellations : Prop :=
  ∀ ⦃id w'⦄, db'.funds.withdrawals.lookup id = some w' → w'.state = .cancelled →
    (∃ w, db.funds.withdrawals.lookup id = some w ∧ w.state = .cancelled) ∨
      ∃ m, w'.memberId = some m ∧ n.2 = .acted m (.cancelWithdrawal id)

def WritesRequests : Prop :=
  ∀ ⦃id w'⦄, db'.work.workRequests.lookup id = some w' →
    (∃ w, db.work.workRequests.lookup id = some w ∧ w'.terms = w.terms) ∨
      ∃ resource computeType capacity,
        n.2 = .acted w'.memberId (.requestWork w'.requestKey resource computeType capacity) ∧
        WorkRequests.offer resource computeType capacity = .ok w'.offer

def WritesHandovers : Prop :=
  ∀ ⦃id r'⦄, db'.funds.reservations.lookup id = some r' → r'.handedOverAt.isSome →
    (∃ r, db.funds.reservations.lookup id = some r ∧ r.handedOverAt.isSome) ∨
      ∃ digest, r'.assignmentDigest = some digest ∧
        n.2 = .acted r'.memberId (.acknowledge id digest)

/-- The request that an upload is stored by. -/
inductive HandsIn (benchmarkId : String) : IntentKind → Json → Call → Prop
  | results {merkleRoot : String} {qualities : List ℤ} : HandsIn benchmarkId .results
      (MemberProtocol.resultOf merkleRoot qualities) (.results benchmarkId merkleRoot qualities)
  | proofs {values : List Json} : HandsIn benchmarkId .proofs
      (MemberProtocol.proofOf values) (.proofs benchmarkId values)

def WritesUploads : Prop :=
  ∀ ⦃benchmarkId kind p⦄, db'.work.benchmarkPayloads.lookup (benchmarkId, kind) = some p →
    db.work.benchmarkPayloads.lookup (benchmarkId, kind) = some p ∨
      ∃ id r call, db.funds.reservations.lookup id = some r ∧ r.benchmarkId = some benchmarkId ∧
        n.2 = .acted r.memberId call ∧ HandsIn benchmarkId kind p.payload call

/-- What is on record for members was there before, or the note asks for it. -/
structure Writes : Prop where
  withdrawals : WritesWithdrawals n db db'
  cancellations : WritesCancellations n db db'
  requests : WritesRequests n db db'
  handovers : WritesHandovers n db db'
  uploads : WritesUploads n db db'

end Writes

variable {n : Note}

/-- A transaction writes what it is a request for. -/
theorem writes {s s' : Sys} {a : Action} (hs : s.Lawful) (ha : Sys.Whole s a)
    (h : Sys.Step s a s')
    (hwithdrawals : ∀ id m, a = .funds (.request id m) → WritesWithdrawals n s.db s'.db)
    (hcancellations : ∀ id, a = .funds (.release id) → WritesCancellations n s.db s'.db)
    (hrequests : a = .work .create → WritesRequests n s.db s'.db)
    (hhandovers : ∀ id, a = .funds (.acknowledge id) → WritesHandovers n s.db s'.db)
    (huploads : a = .work .results ∨ (∃ f, a = .work (.proofs f)) → WritesUploads n s.db s'.db) :
    Writes n s.db s'.db where
  withdrawals id w' m hw' hm := by
    by_cases hnone : s.db.funds.withdrawals.lookup id = none
    · obtain ⟨⟨k, rfl⟩, -⟩ := h.requested hs hnone hw' hm
      exact hwithdrawals k m rfl hw' hm
    · obtain ⟨w, hw⟩ := Option.ne_none_iff_exists'.mp hnone
      obtain ⟨w₁, hw₁, hx⟩ := (h.extends hs).withdrawal hw
      obtain rfl := Option.some.inj (hw'.symm.trans hw₁)
      exact .inl ⟨w, hw, hx⟩
  cancellations id w' hw' hcancelled := by
    by_cases hne : ∀ k, a ≠ .funds (.release k)
    · exact .inl (h.cancelled_back hs hne hw' hcancelled)
    · simp only [not_forall, not_not] at hne
      obtain ⟨k, rfl⟩ := hne
      exact hcancellations k rfl hw' hcancelled
  requests id w' hw' := by
    by_cases hne : a = .work .create
    · exact hrequests hne hw'
    · exact .inl (h.asksNothing hs hne hw')
  handovers id r' hr' hsome := by
    by_cases hne : ∀ k, a ≠ .funds (.acknowledge k)
    · exact .inl (h.handsNothing hs ha hne hr' hsome)
    · simp only [not_forall, not_not] at hne
      obtain ⟨k, rfl⟩ := hne
      exact hhandovers k rfl hr' hsome
  uploads benchmarkId kind p hp := by
    by_cases hne : a = .work .results ∨ ∃ f, a = .work (.proofs f)
    · exact huploads hne hp
    · refine .inl ?_
      by_cases hhands : ∀ w, a = .work w → w.handsIn = false
      · rw [← (h.uploads hs hhands).payloads]
        exact hp
      cases h with
      | work h =>
          cases h with
          | sampled h =>
              rcases MemberProtocol.sampled_spec h with heq | ⟨-, progress, heq⟩
              · rw [heq] at hp
                exact hp
              · rw [heq] at hp
                exact hp
          | results => exact absurd (.inl rfl) hne
          | proofs => exact absurd (.inr ⟨_, rfl⟩) hne
          | _ =>
              refine absurd (fun w heq => ?_) hhands
              obtain rfl := Action.work.inj heq
              rfl
      | _ => exact absurd (fun w heq => by cases heq) hhands

/-- What is stored for an upload is what the request brings. -/
theorem writes_upload {db db' : Db} (hf : db.Filed) {identity intent : Uuid} {row : Reservation}
    {benchmarkId : String} {kind : IntentKind} {payload : Json} {call : Call}
    (hkind : kind ≠ .precommit) (hrow : db.funds.reservations.lookup identity = some row)
    (hid : row.benchmarkId = some benchmarkId)
    (h : MemberProtocol.store db identity row benchmarkId kind payload intent = .ok db')
    (hcall : HandsIn benchmarkId kind payload call) (hn : n.2 = .acted row.memberId call) :
    WritesUploads n db db' := by
  intro benchmarkId' kind' p hp
  rcases MemberProtocol.store_spec hf hkind hrow hid h with rfl | hstores
  · exact .inl hp
  · rw [hstores.writes] at hp
    rcases Table.lookup_insert_cases hp with ⟨heq, rfl⟩ | ⟨-, hp⟩
    · obtain ⟨rfl, rfl⟩ := Prod.mk.inj heq
      exact .inr ⟨identity, row, call, hrow, hid, hn, hcall⟩
    · exact .inl hp

variable {auths : Set Auth} {sha : String → String} {s s' : State} {e : Event}
  {notes : List Note}

theorem Writes.refl (db : Db) : Writes n db db where
  withdrawals _ w' _ hw' _ := .inl ⟨w', hw', .refl w'⟩
  cancellations _ w' hw' hcancelled := .inl ⟨w', hw', hcancelled⟩
  requests _ w' hw' := .inl ⟨w', hw', rfl⟩
  handovers _ r' hr' hsome := .inl ⟨r', hr', hsome⟩
  uploads _ _ _ hp := .inl hp

theorem Acts.writes {m : Uuid} {call : Call} {w w' : Wallets.State}
    (hsound : Wallets.Sound auths w) (hworks : w.sys.Works) (h : Acts auths m w call w')
    (hn : n.2 = .acted m call) : Writes n w.sys.db w'.sys.db := by
  have hs := hworks.reachable.lawful
  have hfunds {a : FundsAction} (ha : Sys.FundsPart a = false) : Sys.Whole w.sys (.funds a) :=
    fun _ heq => by cases heq; exact ha
  have hwork {a : WorkAction} : Sys.Whole w.sys (.work a) := fun _ heq => by cases heq
  cases h with
  | @withdraw db db' held _ key amount identity out h =>
      have hstep : Sys.Step ⟨db, held⟩ _ ⟨db', held⟩ := .funds (.request h)
      refine MemberApi.writes hs (hfunds rfl) hstep (fun _ _ _ => ?_) (by simp) (by simp) (by simp)
        (by simp)
      intro id w' m' hw' hm
      by_cases hnone : db.funds.withdrawals.lookup id = none
      · obtain ⟨howner, hkey, hamount, -⟩ := Withdrawals.request_terms h hnone hw'
        obtain rfl := Option.some.inj (howner.symm.trans hm)
        refine .inr ?_
        rw [hn, hkey, hamount]
      · obtain ⟨w, hw⟩ := Option.ne_none_iff_exists'.mp hnone
        obtain ⟨w₁, hw₁, hx⟩ := (hstep.extends hs).withdrawal hw
        obtain rfl := Option.some.inj (hw'.symm.trans hw₁)
        exact .inl ⟨w, hw, hx⟩
  | cancelWithdrawal h =>
      refine MemberApi.writes hs (hfunds rfl) (.funds (.release h)) (by simp) (fun _ _ => ?_)
        (by simp) (by simp) (by simp)
      intro id w' hw' hcancelled
      rcases Withdrawals.release_cancels h hw' hcancelled with hold | ⟨rfl, m', heq, howner⟩
      · exact .inl hold
      · obtain rfl := Option.some.inj heq
        exact .inr ⟨m, howner, hn⟩
  | askWallet => exact .refl _
  | setWallet _ h =>
      exact MemberApi.writes hs (hfunds rfl) (verify_sets hsound h) (by simp) (by simp) (by simp)
        (by simp) (by simp)
  | requestWork h =>
      refine MemberApi.writes hs hwork (.work (.create h)) (by simp) (by simp) (fun _ => ?_)
        (by simp) (by simp)
      intro id w' hw'
      obtain ⟨given, hgiven, ⟨-, -, -, -, rfl⟩ | ⟨-, -, -, rfl⟩⟩ := WorkRequests.create_spec h
      · exact .inl ⟨w', hw', rfl⟩
      · rcases Table.lookup_insert_cases hw' with ⟨rfl, rfl⟩ | ⟨-, hw'⟩
        · exact .inr ⟨_, _, _, hn, hgiven⟩
        · exact .inl ⟨w', hw', rfl⟩
  | workStatus h =>
      exact MemberApi.writes hs hwork (.work (.get h)) (by simp) (by simp) (by simp) (by simp)
        (by simp)
  | refreshWork h =>
      exact MemberApi.writes hs hwork (.work (.refresh h)) (by simp) (by simp) (by simp) (by simp)
        (by simp)
  | acknowledge h =>
      refine MemberApi.writes hs (hfunds rfl) (.funds (.acknowledge h)) (by simp) (by simp)
        (by simp) (fun _ _ => ?_) (by simp)
      intro id r' hr' hsome
      rcases Sys.acknowledge_handsOver h hr' hsome with hold | ⟨rfl, rfl, hdigest⟩
      · exact .inl hold
      · exact .inr ⟨_, hdigest, hn⟩
  | results h =>
      refine MemberApi.writes hs hwork (.work (.results h)) (by simp) (by simp) (by simp) (by simp)
        fun _ => ?_
      obtain ⟨identity, row, hrow, hid, rfl, -, hrun⟩ := MemberProtocol.results_spec h
      exact writes_upload hworks.filed (by decide) hrow hid hrun .results hn
  | proofs h =>
      refine MemberApi.writes hs hwork (.work (.proofs h)) (by simp) (by simp) (by simp) (by simp)
        fun _ => ?_
      obtain ⟨identity, row, -, -, -, hrow, hid, rfl, -, -, -, -, hrun⟩ :=
        MemberProtocol.proofs_spec h
      exact writes_upload hworks.filed (by decide) hrow hid hrun .proofs hn

/-- Whatever happens, what is on record for members was asked for. -/
theorem Step.writes (hsound : Wallets.Sound auths s.wallets) (hworks : s.sys.Works)
    (ha : Whole (s, notes) e) (h : Step auths sha s e s') :
    Writes (s.db.clock, e) s.db s'.db := by
  have hs := hworks.reachable.lawful
  have hfunds {a : FundsAction} (ha : Sys.FundsPart a = false) : Sys.Whole s.sys (.funds a) :=
    fun _ heq => by cases heq; exact ha
  cases h with
  | challenged | issued | revoked | revokedExecution | authenticated => exact .refl _
  | signedIn _ _ _ h =>
      obtain ⟨_, _, hopens⟩ := SignIn.verify_eq_ok.mp h
      exact MemberApi.writes hs (hfunds rfl) (.funds (.registerVerified hopens.registers)) (by simp)
        (by simp) (by simp) (by simp) (by simp)
  | acted _ h => exact h.writes hsound hworks rfl
  | declined h =>
      refine MemberApi.writes hs (hfunds rfl) (.funds (.release h)) (by simp) (fun _ _ => ?_)
        (by simp) (by simp) (by simp)
      intro id w' hw' hcancelled
      rcases Withdrawals.release_cancels h hw' hcancelled with hold | ⟨-, m', heq, -⟩
      · exact .inl hold
      · cases heq
  | @served _ _ _ _ _ a h hnot =>
      have hmembers {b : Action} (hb : byMembers b = true) (heq : a = b) : False := by
        rw [heq, hb] at hnot
        cases hnot
      refine MemberApi.writes hs (fun part heq => ha part (by rw [heq])) h
        (fun _ _ heq => (hmembers rfl heq).elim) (fun _ heq => (hmembers rfl heq).elim)
        (fun heq => (hmembers rfl heq).elim) (fun _ heq => (hmembers rfl heq).elim) ?_
      rintro (heq | ⟨f, heq⟩)
      · exact (hmembers rfl heq).elim
      · exact (hmembers rfl heq).elim

/-! ## What is on record was asked for -/

/-- Each row was asked for by the member whose it is. -/
structure OnRecord (db : Db) (notes : List Note) : Prop where
  withdrawal : ∀ {id w m}, db.funds.withdrawals.lookup id = some w → w.memberId = some m →
    ∃ t, (t, Event.acted m (.withdraw w.requestKey w.amount)) ∈ notes
  cancellation : ∀ {id w}, db.funds.withdrawals.lookup id = some w → w.state = .cancelled →
    ∃ m t, w.memberId = some m ∧ (t, Event.acted m (.cancelWithdrawal id)) ∈ notes
  request : ∀ {id w}, db.work.workRequests.lookup id = some w →
    ∃ t resource computeType capacity,
      (t, Event.acted w.memberId (.requestWork w.requestKey resource computeType capacity))
        ∈ notes ∧ WorkRequests.offer resource computeType capacity = .ok w.offer
  handover : ∀ {id r}, db.funds.reservations.lookup id = some r → r.handedOverAt.isSome →
    ∃ t digest, r.assignmentDigest = some digest ∧
      (t, Event.acted r.memberId (.acknowledge id digest)) ∈ notes
  upload : ∀ {benchmarkId kind p}, db.work.benchmarkPayloads.lookup (benchmarkId, kind) = some p →
    ∃ id r t call, db.funds.reservations.lookup id = some r ∧ r.benchmarkId = some benchmarkId ∧
      (t, Event.acted r.memberId call) ∈ notes ∧ HandsIn benchmarkId kind p.payload call

/-- Work that is handed over has a benchmark. -/
theorem named_of_handed {r : Reservation} (hr : r.Shape) (h : r.handedOverAt.isSome) :
    r.benchmarkId.isSome := by
  unfold Reservation.Shape at hr
  split at hr <;> simp_all

theorem OnRecord.step {db db' : Db} {notes : List Note} (h : OnRecord db notes)
    (hlawful : db.funds.Lawful) (hx : db.funds.Extends db'.funds)
    (hassigned : Basis.Extends Reservation.Assigned db.funds.reservations db'.funds.reservations)
    (hw : Writes n db db') : OnRecord db' (n :: notes) where
  withdrawal hw' hm := by
    rcases hw.withdrawals hw' hm with ⟨w, hw₀, hx⟩ | hn
    · obtain ⟨t, ht⟩ := h.withdrawal hw₀ (hx.memberId.symm.trans hm)
      have hkey := congrArg Withdrawal.requestKey hx.terms
      have hamount := congrArg Withdrawal.amount hx.terms
      simp only [Withdrawal.terms] at hkey hamount
      rw [hkey, hamount]
      exact ⟨t, List.mem_cons_of_mem _ ht⟩
    · exact ⟨n.1, by rw [← hn]; exact List.mem_cons_self ..⟩
  cancellation hw' hcancelled := by
    rcases hw.cancellations hw' hcancelled with ⟨w, hw₀, hold⟩ | ⟨m, howner, hn⟩
    · obtain ⟨m, t, howner, ht⟩ := h.cancellation hw₀ hold
      obtain ⟨w₁, hw₁, hx⟩ := hx.withdrawal hw₀
      obtain rfl := Option.some.inj (hw'.symm.trans hw₁)
      exact ⟨m, t, hx.memberId.trans howner, List.mem_cons_of_mem _ ht⟩
    · exact ⟨m, n.1, howner, by rw [← hn]; exact List.mem_cons_self ..⟩
  request hw' := by
    rcases hw.requests hw' with ⟨w, hw₀, hterms⟩ | ⟨resource, computeType, capacity, hn, hoffer⟩
    · obtain ⟨t, resource, computeType, capacity, ht, hoffer⟩ := h.request hw₀
      have hmember := congrArg Prod.fst hterms
      have hkey := congrArg (fun x => x.2.1) hterms
      have hsame := congrArg (fun x => x.2.2) hterms
      simp only [WorkRequest.terms] at hmember hkey hsame
      rw [hmember, hkey, hsame]
      exact ⟨t, resource, computeType, capacity, List.mem_cons_of_mem _ ht, hoffer⟩
    · exact ⟨n.1, resource, computeType, capacity, by rw [← hn]; exact List.mem_cons_self ..,
        hoffer⟩
  handover hr' hsome := by
    rcases hw.handovers hr' hsome with ⟨r, hr, hold⟩ | ⟨digest, hdigest, hn⟩
    · obtain ⟨t, digest, hdigest, ht⟩ := h.handover hr hold
      obtain ⟨r₁, hr₁, hx⟩ := hx.reservation hr
      obtain ⟨r₂, hr₂, hsame⟩ := hassigned hr
      obtain rfl := Option.some.inj (hr'.symm.trans hr₁)
      obtain rfl := Option.some.inj (hr'.symm.trans hr₂)
      have hnamed := named_of_handed (hlawful.rows.reservation hr).shape hold
      rw [hx.memberId]
      exact ⟨t, digest, (hsame hnamed).2.2.trans hdigest, List.mem_cons_of_mem _ ht⟩
    · exact ⟨n.1, digest, hdigest, by rw [← hn]; exact List.mem_cons_self ..⟩
  upload hp := by
    have hlater {id : Uuid} {r : Reservation} {benchmarkId : String}
        (hr : db.funds.reservations.lookup id = some r) (hid : r.benchmarkId = some benchmarkId) :
        ∃ r', db'.funds.reservations.lookup id = some r' ∧ r'.benchmarkId = some benchmarkId ∧
          r'.memberId = r.memberId := by
      obtain ⟨r₁, hr₁, hx⟩ := hx.reservation hr
      obtain ⟨r₂, hr₂, hsame⟩ := hassigned hr
      obtain rfl := Option.some.inj (hr₁.symm.trans hr₂)
      exact ⟨r₁, hr₁, (hsame (Option.isSome_of_eq_some hid)).1.trans hid, hx.memberId⟩
    rcases hw.uploads hp with hp | ⟨id, r, call, hr, hid, hn, hcall⟩
    · obtain ⟨id, r, t, call, hr, hid, ht, hcall⟩ := h.upload hp
      obtain ⟨r', hr', hid', hmember⟩ := hlater hr hid
      exact ⟨id, r', t, call, hr', hid', by rw [hmember]; exact List.mem_cons_of_mem _ ht, hcall⟩
    · obtain ⟨r', hr', hid', hmember⟩ := hlater hr hid
      exact ⟨id, r', n.1, call, hr', hid', by rw [hmember, ← hn]; exact List.mem_cons_self ..,
        hcall⟩

theorem Initial.onRecord (h : Initial s) : OnRecord s.db [] := by
  have hfunds : s.db.funds = _ := h.wallets.sys.funds
  refine ⟨fun hw => ?_, fun hw => ?_, fun hw => ?_, fun hr => ?_, fun hp => ?_⟩
  · rw [hfunds] at hw
    cases hw
  · rw [hfunds] at hw
    cases hw
  · rw [State.db, Wallets.State.db, h.wallets.sys.requests] at hw
    cases hw
  · rw [hfunds] at hr
    cases hr
  · rw [h.uploads] at hp
    cases hp

theorem Reached.onRecord (h : Reached auths sha s notes) : OnRecord s.db notes := by
  refine h.invariant (I := fun s notes => OnRecord s.db notes) (fun _ hs => hs.onRecord) ?_
  intro s notes e s' hbefore ha hrecord hstep
  obtain ⟨hsound, hworks⟩ := hbefore.below
  have hs := hworks.reachable.lawful
  have hwrites := hstep.writes hsound hworks ha
  rcases hstep.sys hsound ha with heq | ⟨a, hwhole, hsys⟩
  · have hdb : s'.db = s.db := congrArg Sys.db heq
    rw [hdb] at hwrites ⊢
    exact hrecord.step hs.funds (.refl _) (.refl .refl) hwrites
  · exact hrecord.step hs.funds (hsys.extends hs) (hsys.assigned hs) hwrites

/-- The member of a session has the wallet that has signed. -/
theorem Reached.member (h : Reached auths sha s notes) {t : Time} {id m : Uuid}
    {text signature digest : String} {signer : Address}
    (hn : (t, .signedIn id text signature signer m digest) ∈ notes) :
    ∃ row, s.db.funds.members.lookup m = some row ∧ row.wallet = signer.toLower := by
  have hall : ∀ {t id text signature signer m digest},
      (t, Event.signedIn id text signature signer m digest) ∈ notes →
      ∃ row, s.db.funds.members.lookup m = some row ∧ row.wallet = signer.toLower := by
    refine h.invariant (I := fun s notes => ∀ {t id text signature signer m digest},
      (t, Event.signedIn id text signature signer m digest) ∈ notes →
      ∃ row, s.db.funds.members.lookup m = some row ∧ row.wallet = signer.toLower)
      (fun _ _ => by simp) ?_
    intro s notes e s' hbefore ha ih hstep t id text signature signer m digest hn
    obtain ⟨hsound, hworks⟩ := hbefore.below
    rcases List.mem_cons.mp hn with heq | hn
    · obtain ⟨-, rfl⟩ := Prod.mk.inj heq
      cases hstep with
      | signedIn _ hrow hsigner hverify =>
          obtain ⟨row, signer', hopens⟩ := SignIn.verify_eq_ok.mp hverify
          obtain rfl := Option.some.inj (hrow.symm.trans hopens.asked)
          obtain rfl := Option.some.inj (hsigner.symm.trans hopens.signed)
          exact (registerVerified_wallet hopens.registers).2
    · obtain ⟨row, hrow, hwallet⟩ := ih hn
      rcases hstep.sys hsound ha with heq | ⟨a, hwhole, hsys⟩
      · have hdb : s'.db = s.db := congrArg Sys.db heq
        exact ⟨row, by rw [hdb]; exact hrow, hwallet⟩
      · obtain ⟨row', hrow', hsame⟩ :=
          Funds.Path.memberWallet (hsys.path hworks.reachable.lawful) hrow
        exact ⟨row', hrow', hsame.trans hwallet⟩
  exact hall hn

/-- Notes are taken in the order of time. -/
theorem Reached.sorted (h : Reached auths sha s notes) :
    notes.Pairwise (fun later earlier => earlier.1 ≤ later.1) ∧ ∀ n ∈ notes, n.1 ≤ s.db.clock := by
  refine h.invariant (I := fun s notes =>
    notes.Pairwise (fun later earlier => earlier.1 ≤ later.1) ∧ ∀ n ∈ notes, n.1 ≤ s.db.clock)
    (fun _ _ => ⟨.nil, by simp⟩) ?_
  rintro s notes e s' hbefore - ⟨hsorted, hpast⟩ hstep
  obtain ⟨hsound, -⟩ := hbefore.below
  have hclock : s.db.clock ≤ s'.db.clock := by
    rcases hstep.wallets with heq | ⟨_, hw⟩
    · exact le_of_eq (congrArg (fun w : Wallets.State => w.db.clock) heq.symm)
    · exact hw.clock hsound
  refine ⟨hsorted.cons hpast, fun n hn => ?_⟩
  rcases List.mem_cons.mp hn with rfl | hn
  · exact hclock
  · exact (hpast n hn).trans hclock

/-! ## Back to a signature -/

/-- How long after the signature a token is accepted for the request. -/
def Call.within (call : Call) : Time :=
  if call.wallet then TokenKind.wallet.lifetime
  else TokenKind.wallet.lifetime + TokenKind.execution.lifetime

/-- The member made the request, with a token that goes back to a signature of the member's
wallet, on a text that a deployment has written for signing in. -/
def Authorised (auths : Set Auth) (sha : String → String) (db : Db) (m : Uuid) (call : Call)
    (notes : List Note) : Prop :=
  ∃ row, db.funds.members.lookup m = some row ∧ ∃ t asked signed,
    (t, .acted m call) ∈ notes ∧
    (∃ digest, (asked, .authenticated digest m call.wallet) ∈ notes) ∧
    signed ≤ asked ∧ asked ≤ t ∧ asked < signed + call.within ∧
    ∃ id text signature signer digest, (signed, .signedIn id text signature signer m digest) ∈ notes ∧
      signer.toLower = row.wallet ∧
      ∃ auth ∈ auths, auth.recover text signature = some signer ∧
        SignIn.invited ⟨auth, sha⟩ text = true

/-- A session of the wallet was opened by a signature. -/
theorem Stands.signed {digest : String} {m : Uuid} {now : Time} {before : List Note}
    (hall : Throughout (InOrder auths) before)
    (h : Stands digest m .wallet now before) :
    ∃ signed id text signature signer, (signed, .signedIn id text signature signer m digest) ∈ before ∧
      now < signed + TokenKind.wallet.lifetime ∧
      ∃ auth ∈ auths, auth.recover text signature = some signer ∧
        ∀ sha, SignIn.invited ⟨auth, sha⟩ text = true := by
  obtain ⟨opened, hsession, hnow⟩ := h
  obtain ⟨n, hn, hopens⟩ := hsession.once
  cases hopens with
  | wallet =>
      obtain ⟨_, _, _, hsigned, -, -⟩ := hall.of_mem hn
      exact ⟨opened, _, _, _, _, hn, hnow, hsigned⟩

/-- Whatever a member has done goes back to a signature. -/
theorem Reached.authorised (h : Reached auths sha s notes) {t : Time} {m : Uuid} {call : Call}
    (hn : (t, .acted m call) ∈ notes) : Authorised auths sha s.db m call notes := by
  have hsorted := h.sorted.1
  obtain ⟨behind, before, rfl, asked, digest, hasked⟩ := h.inOrder.of_mem hn
  have hbefore : Throughout (InOrder auths) before :=
    h.inOrder.suffix ⟨behind ++ [(t, .acted m call)], by simp⟩
  have hearlier : ∀ n ∈ before, n.1 ≤ t :=
    (List.pairwise_cons.mp (List.pairwise_append.mp hsorted).2.1).1
  have hmem {n : Note} (hn : n ∈ before) : n ∈ behind ++ (t, Event.acted m call) :: before :=
    List.mem_append_right _ (List.mem_cons_of_mem _ hn)
  have hpast := (List.pairwise_cons.mp (List.pairwise_append.mp hsorted).2.1).2
  obtain ⟨behind₁, before₁, rfl, kind, hstands, hkind⟩ := hbefore.of_mem hasked
  have hbefore₁ : Throughout (InOrder auths) before₁ :=
    hbefore.suffix ⟨behind₁ ++ [(asked, .authenticated digest m call.wallet)], by simp⟩
  have hearlier₁ : ∀ n ∈ before₁, n.1 ≤ asked :=
    (List.pairwise_cons.mp (List.pairwise_append.mp hpast).2.1).1
  have hmem₁ {n : Note} (hn : n ∈ before₁) :
      n ∈ behind₁ ++ (asked, Event.authenticated digest m call.wallet) :: before₁ :=
    List.mem_append_right _ (List.mem_cons_of_mem _ hn)
  -- The signature, and when it was given.
  obtain ⟨signed, id, text, signature, signer, digest', hsigned, hwithin, hauth⟩ :
      ∃ signed id text signature signer digest',
        (signed, Event.signedIn id text signature signer m digest') ∈ before₁ ∧
        asked < signed + call.within ∧ ∃ auth ∈ auths, auth.recover text signature = some signer ∧
          ∀ sha, SignIn.invited ⟨auth, sha⟩ text = true := by
    cases kind with
    | wallet =>
        obtain ⟨signed, id, text, signature, signer, hsigned, hnow, hauth⟩ := hstands.signed hbefore₁
        refine ⟨signed, id, text, signature, signer, digest, hsigned, ?_, hauth⟩
        rw [Call.within]
        split
        next => exact hnow
        next =>
          have hpos : (0 : Time) ≤ TokenKind.execution.lifetime := by decide
          linarith
    | execution =>
        have hnot : call.wallet = false := by
          by_contra hwallet
          cases hkind (by simpa using hwallet)
        obtain ⟨opened, hsession, hnow⟩ := hstands
        obtain ⟨n, hn, hopens⟩ := hsession.once
        cases hopens with
        | @execution opened session =>
            obtain ⟨behind₂, before₂, rfl, hwallet⟩ := hbefore₁.of_mem hn
            obtain ⟨signed, id, text, signature, signer, hsigned, hopened, hauth⟩ :=
              Stands.signed (hbefore₁.suffix ⟨behind₂ ++ [(opened, .issued session digest m)],
                by simp⟩) hwallet
            refine ⟨signed, id, text, signature, signer, session,
              List.mem_append_right _ (List.mem_cons_of_mem _ hsigned), ?_, hauth⟩
            rw [Call.within, hnot]
            simp only [Bool.false_eq_true, if_false]
            linarith
  obtain ⟨row, hrow, hwallet⟩ := h.member (hmem (hmem₁ hsigned))
  obtain ⟨auth, hmember, hrecover, hinvited⟩ := hauth
  exact ⟨row, hrow, t, asked, signed, hn, ⟨digest, hmem hasked⟩, hearlier₁ _ hsigned,
    hearlier _ hasked, hwithin, id, text, signature, signer, digest', hmem (hmem₁ hsigned),
    hwallet.symm, auth, hmember, hrecover, hinvited sha⟩

/-- In every run of the service, with any requests and any other transactions in between: what is
on record for a member (a withdrawal and its cancellation, a work request and the reservation made
for it, a handover, an upload) was asked for by that member, with a token that was accepted
within its time and goes back to a signature of the member's wallet.  A request acts once. -/
theorem members_authorise (h : Reached auths sha s notes) :
    (∀ id w m, s.db.funds.withdrawals.lookup id = some w → w.memberId = some m →
      Authorised auths sha s.db m (.withdraw w.requestKey w.amount) notes) ∧
    (∀ id w, s.db.funds.withdrawals.lookup id = some w → w.state = .cancelled →
      ∃ m, w.memberId = some m ∧ Authorised auths sha s.db m (.cancelWithdrawal id) notes) ∧
    (∀ id r, s.db.funds.reservations.lookup id = some r →
      ∃ w, s.db.work.workRequests.lookup r.requestKey = some w ∧ w.memberId = r.memberId ∧
        ∃ resource computeType capacity,
          WorkRequests.offer resource computeType capacity = .ok w.offer ∧
          Authorised auths sha s.db r.memberId
            (.requestWork w.requestKey resource computeType capacity) notes) ∧
    (∀ id r, s.db.funds.reservations.lookup id = some r → r.handedOverAt.isSome →
      ∃ digest, r.assignmentDigest = some digest ∧
        Authorised auths sha s.db r.memberId (.acknowledge id digest) notes) ∧
    (∀ benchmarkId kind p, s.db.work.benchmarkPayloads.lookup (benchmarkId, kind) = some p →
      ∃ id r call, s.db.funds.reservations.lookup id = some r ∧
        r.benchmarkId = some benchmarkId ∧ HandsIn benchmarkId kind p.payload call ∧
        Authorised auths sha s.db r.memberId call notes) ∧
    ∀ g, notes.countP (uses g) ≤ notes.countP (finds g) := by
  have hrecord := h.onRecord
  refine ⟨fun id w m hw hm => ?_, fun id w hw hcancelled => ?_, fun id r hr => ?_,
    fun id r hr hsome => ?_, fun benchmarkId kind p hp => ?_, fun g => ?_⟩
  · obtain ⟨t, ht⟩ := hrecord.withdrawal hw hm
    exact h.authorised ht
  · obtain ⟨m, t, howner, ht⟩ := hrecord.cancellation hw hcancelled
    exact ⟨m, howner, h.authorised ht⟩
  · obtain ⟨w, hw, hmember, -⟩ := h.below.2.reachable.booked.request hr
    obtain ⟨t, resource, computeType, capacity, ht, hoffer⟩ := hrecord.request hw
    rw [hmember] at ht
    exact ⟨w, hw, hmember, resource, computeType, capacity, hoffer, h.authorised ht⟩
  · obtain ⟨t, digest, hdigest, ht⟩ := hrecord.handover hr hsome
    exact ⟨digest, hdigest, h.authorised ht⟩
  · obtain ⟨id, r, t, call, hr, hid, ht, hcall⟩ := hrecord.upload hp
    exact ⟨id, r, call, hr, hid, hcall, h.authorised ht⟩
  · exact (Nat.le_add_left _ _).trans (h.granted g)

namespace MemberDay

open WalletDay (auth)

/-- The member has paid in. -/
def endowed : Db :=
  ((Deposits.receive joined FirstDay.deposit).toOption.getD (migrated, available "")).1

/-- The member asks for a withdrawal. -/
def asking : Db :=
  ((Withdrawals.request endowed "member" "cash" (3 * tig) "withdrawal").toOption.getD
    (migrated, "")).1

def withdrawing : State := ⟨⟨⟨asking, Held.empty⟩, .empty⟩, sessions, []⟩

theorem reached_withdrawing : ∃ notes, Reached {auth} mark withdrawing notes := by
  have hdeposit : ∃ account, Deposits.receive joined FirstDay.deposit = .ok (endowed, account) :=
    ⟨_, @eq_ok_getD _ _ _ (migrated, available "") (by decide +kernel)⟩
  have hrequest : ∃ out, Withdrawals.request endowed "member" "cash" (3 * tig) "withdrawal"
      = .ok (asking, out) := ⟨_, @eq_ok_getD _ _ _ (migrated, "") (by decide +kernel)⟩
  obtain ⟨account, hdeposit⟩ := hdeposit
  obtain ⟨out, hrequest⟩ := hrequest
  have hpaid := reached_between.step (e := .served (.funds (.receive _ account)))
    (by simp [Whole, Sys.FundsPart]) (.served (.funds (.receive hdeposit)) rfl)
  have hasked := hpaid.step (whole_of (by simp))
    (.acted (List.mem_cons_self ..) (.withdraw hrequest))
  exact ⟨_, hasked⟩

end MemberDay

/-- The withdrawal goes back to a signature. -/
theorem members_authorise_withdrawing : ∃ notes,
    Reached {WalletDay.auth} MemberDay.mark MemberDay.withdrawing notes ∧ ∃ w,
      MemberDay.withdrawing.db.funds.withdrawals.lookup "withdrawal" = some w ∧
      w.memberId = some "member" ∧ Authorised {WalletDay.auth} MemberDay.mark
        MemberDay.withdrawing.db "member" (.withdraw w.requestKey w.amount) notes := by
  obtain ⟨notes, hreached⟩ := MemberDay.reached_withdrawing
  have hthere : (MemberDay.withdrawing.db.funds.withdrawals.lookup "withdrawal").any
      (fun w => w.memberId = some "member") = true := by decide +kernel
  obtain ⟨w, hw, howner⟩ := (Option.any_eq_true _ _).mp hthere
  exact ⟨notes, hreached, w, hw, of_decide_eq_true howner,
    (members_authorise hreached).1 _ w "member" hw (of_decide_eq_true howner)⟩

end MemberApi

end TigPool
