/-
# `TigPool.WalletChanges` — which wallet a withdrawal pays

The service with its challenges: a step issues a challenge, verifies an answer to one, or is
any other transaction of the service.  A verified answer is the step `setWithdrawalWallet`
of the machine in `TigPool.System`, so what holds of its runs holds here.

A challenge is superseded by comparing wallets, not revisions.  So it is dead after another
change unless the wallet is again the one it was issued under; `NoReturn` says of a step that
it does not set such a wallet.
-/
import TigPool.Wallets
import TigPool.WalletKeeping
import TigPool.WithdrawalCycle

namespace TigPool

open Basis

namespace Wallets

structure State where
  sys : Sys
  book : WalletBook

namespace State

abbrev db (s : State) : Db := s.sys.db

/-- The row of a member. -/
abbrev member (s : State) (m : Uuid) : Option Member := s.db.funds.members.lookup m

abbrev challenge (s : State) (id : Uuid) : Option WalletChallenge := s.book.challenges.lookup id

abbrev withdrawal (s : State) (id : Uuid) : Option Withdrawal := s.db.funds.withdrawals.lookup id

end State

inductive Event where
  | challenged (challenge member : Uuid)
  | verified (challenge member : Uuid)
  | served (action : Action)

/-- One transaction; `auths` are the deployments that run. -/
inductive Step (auths : Set Auth) : State → Event → State → Prop
  | challenged {sys : Sys} {book book' : WalletBook} {auth : Auth} {member identity : Uuid}
      {wallet nonce : String} {row : WalletChallenge} : auth ∈ auths →
      auth.withdrawalWalletChallenge sys.db book member wallet identity nonce
        = .ok (book', row) →
      Step auths ⟨sys, book⟩ (.challenged identity member) ⟨sys, book'⟩
  | verified {db db' : Db} {held : Held} {book book' : WalletBook} {auth : Auth}
      {member challenge : Uuid} {signature : String} : auth ∈ auths →
      auth.verifyWithdrawalWallet db book member challenge signature = .ok (db', book') →
      Step auths ⟨⟨db, held⟩, book⟩ (.verified challenge member) ⟨⟨db', held⟩, book'⟩
  | served {sys sys' : Sys} {book : WalletBook} {a : Action} : Sys.Step sys a sys' →
      a ≠ .funds .setWithdrawalWallet → Step auths ⟨sys, book⟩ (.served a) ⟨sys', book⟩

/-- A migrated service without challenges. -/
structure Initial (s : State) : Prop where
  sys : Sys.Initial s.sys
  book : s.book = WalletBook.empty

/-- The states that runs of allowed steps reach. -/
def Reachable (auths : Set Auth) (allowed : State → Event → Prop) (s : State) : Prop :=
  ∃ s₀, Initial s₀ ∧ Leads (Step auths) allowed s₀ s

/-- All steps, in any order. -/
def Any (_ : State) (_ : Event) : Prop := True

/-- The change does not set a wallet under which another challenge of the member, still open,
was issued. -/
def NoReturn (s : State) : Event → Prop
  | .verified id m => ∀ change, s.challenge id = some change →
      ∀ id' other, id' ≠ id → s.challenge id' = some other →
        other.isOpen m s.db.clock = true → other.oldWallet ≠ change.newWallet
  | _ => True

/-! ## Challenges on record -/

/-- The same challenge, perhaps used by now. -/
structure Stamped (c c' : WalletChallenge) : Prop where
  terms : { c' with usedAt := c.usedAt } = c
  used : c.usedAt.isSome → c'.usedAt = c.usedAt

namespace Stamped

variable {c c' c'' : WalletChallenge}

theorem refl (c : WalletChallenge) : Stamped c c := ⟨rfl, fun _ => rfl⟩

theorem owner (h : Stamped c c') : c'.memberId = c.memberId := by
  have h := congrArg WalletChallenge.memberId h.terms
  exact h

theorem oldWallet (h : Stamped c c') : c'.oldWallet = c.oldWallet := by
  have h := congrArg WalletChallenge.oldWallet h.terms
  exact h

theorem newWallet (h : Stamped c c') : c'.newWallet = c.newWallet := by
  have h := congrArg WalletChallenge.newWallet h.terms
  exact h

theorem expiresAt (h : Stamped c c') : c'.expiresAt = c.expiresAt := by
  have h := congrArg WalletChallenge.expiresAt h.terms
  exact h

theorem trans (h : Stamped c c') (h' : Stamped c' c'') : Stamped c c'' where
  terms := by
    rw [← h.terms, ← h'.terms]
  used hused := by
    have heq := h.used hused
    rw [h'.used (by rw [heq]; exact hused), heq]

/-- A challenge that is open has been open. -/
theorem isOpen (h : Stamped c c') {m : Uuid} {now now' : Time} (hnow : now ≤ now')
    (hopen : c'.isOpen m now' = true) : c.isOpen m now = true := by
  simp only [WalletChallenge.isOpen, decide_eq_true_eq] at hopen ⊢
  obtain ⟨howner, hunused, hexpires⟩ := hopen
  refine ⟨h.owner.symm.trans howner, ?_, ?_⟩
  · by_contra hused
    have hsome := Option.isSome_iff_ne_none.mpr hused
    exact hused ((h.used hsome).symm.trans hunused)
  · rw [h.expiresAt] at hexpires
    exact lt_of_le_of_lt hnow hexpires

end Stamped

/-! ## Every run -/

/-- What holds in every reachable state. -/
structure Sound (auths : Set Auth) (s : State) : Prop where
  sys : s.sys.Lawful
  /-- A challenge is to an address. -/
  wallet : ∀ {id c}, s.challenge id = some c → ∃ value, address value = .ok c.newWallet
  /-- A challenge was written by a deployment that runs. -/
  wrote : ∀ {id c}, s.challenge id = some c → ∃ auth ∈ auths, auth.wrote c.message = true
  /-- A change is recorded for used challenges only. -/
  used : ∀ {id}, id ∈ s.book.changes → ∃ c, s.challenge id = some c ∧ c.usedAt.isSome

variable {auths : Set Auth} {allowed : State → Event → Prop} {s s' : State} {e : Event}

theorem Initial.sound (h : Initial s) : Sound auths s where
  sys := h.sys.lawful
  wallet hc := by
    rw [State.challenge, h.book] at hc
    cases hc
  wrote hc := by
    rw [State.challenge, h.book] at hc
    cases hc
  used hid := by
    rw [h.book] at hid
    cases hid

/-- A verified answer sets the wallet and does nothing else to the service. -/
theorem Step.sys (hs : Sound auths s) (h : Step auths s e s') :
    s'.sys = s.sys ∨ ∃ a, Sys.Step s.sys a s'.sys := by
  cases h with
  | challenged => exact .inl rfl
  | @verified db db' held book book' auth member challenge signature _ h =>
      obtain ⟨row, c, hchanges⟩ := Auth.verifyWithdrawalWallet_eq_ok.mp h
      obtain ⟨value, hvalue⟩ := hs.wallet hchanges.issued
      have hset : setWithdrawalWallet db member c.newWallet = .ok db' := by
        simp only [setWithdrawalWallet, bind_eq_ok, memberLock, fetch_eq_ok, pure_eq_ok]
        exact ⟨_, address_address hvalue, row, hchanges.known, hchanges.writes.symm⟩
      exact .inr ⟨_, .funds (.setWithdrawalWallet hset)⟩
  | served h => exact .inr ⟨_, h⟩

theorem Step.lawful (hs : Sound auths s) (h : Step auths s e s') : s'.sys.Lawful := by
  rcases h.sys hs with heq | ⟨a, hstep⟩
  · rw [heq]
    exact hs.sys
  · exact hs.sys.step hstep

theorem Step.clock (hs : Sound auths s) (h : Step auths s e s') : s.db.clock ≤ s'.db.clock := by
  rcases h.sys hs with heq | ⟨a, hstep⟩
  · rw [State.db, State.db, heq]
  · exact hstep.clock hs.sys

theorem Step.extends (hs : Sound auths s) (h : Step auths s e s') :
    s.db.funds.Extends s'.db.funds := by
  rcases h.sys hs with heq | ⟨a, hstep⟩
  · rw [State.db, State.db, heq]
    exact .refl _
  · exact hstep.extends hs.sys

/-- Challenges stay, and are used at most once. -/
theorem Step.challenges (h : Step auths s e s') :
    Basis.Extends Stamped s.book.challenges s'.book.challenges := by
  cases h with
  | challenged _ h =>
      have hissues := Auth.withdrawalWalletChallenge_spec h
      rw [hissues.records]
      exact Basis.Extends.fresh Stamped.refl hissues.fresh
  | @verified db _ _ _ _ _ m id _ _ h =>
      obtain ⟨row, c, hchanges⟩ := Auth.verifyWithdrawalWallet_eq_ok.mp h
      rw [hchanges.records]
      intro k c' hc'
      rcases eq_or_ne k id with rfl | hne
      · obtain rfl := Option.some.inj (hchanges.issued.symm.trans hc')
        have hopen := hchanges.isOpen
        simp only [WalletChallenge.isOpen, decide_eq_true_eq] at hopen
        refine ⟨_, AList.lookup_insert _, rfl, fun hused => ?_⟩
        rw [hopen.2.1] at hused
        cases hused
      · exact ⟨c', (AList.lookup_insert_ne hne).trans hc', .refl c'⟩
  | served => exact Basis.Extends.refl Stamped.refl

theorem Sound.step (hs : Sound auths s) (h : Step auths s e s') : Sound auths s' where
  sys := h.lawful hs
  wallet {id c} hc := by
    cases h with
    | challenged _ h =>
        have hissues := Auth.withdrawalWalletChallenge_spec h
        rw [State.challenge, hissues.records] at hc
        rcases Table.lookup_insert_cases hc with ⟨rfl, rfl⟩ | ⟨-, hc⟩
        · exact hissues.wallet
        · exact hs.wallet hc
    | verified _ h =>
        obtain ⟨row, c', hchanges⟩ := Auth.verifyWithdrawalWallet_eq_ok.mp h
        rw [State.challenge, hchanges.records] at hc
        rcases Table.lookup_insert_cases hc with ⟨rfl, rfl⟩ | ⟨-, hc⟩
        · obtain ⟨value, hvalue⟩ := hs.wallet hchanges.issued
          exact ⟨value, hvalue⟩
        · exact hs.wallet hc
    | served => exact hs.wallet hc
  wrote {id c} hc := by
    cases h with
    | challenged hauth h =>
        have hissues := Auth.withdrawalWalletChallenge_spec h
        rw [State.challenge, hissues.records] at hc
        rcases Table.lookup_insert_cases hc with ⟨rfl, rfl⟩ | ⟨-, hc⟩
        · exact ⟨_, hauth, hissues.wrote⟩
        · exact hs.wrote hc
    | verified _ h =>
        obtain ⟨row, c', hchanges⟩ := Auth.verifyWithdrawalWallet_eq_ok.mp h
        rw [State.challenge, hchanges.records] at hc
        rcases Table.lookup_insert_cases hc with ⟨rfl, rfl⟩ | ⟨-, hc⟩
        · obtain ⟨auth, hauth, hwrote⟩ := hs.wrote hchanges.issued
          exact ⟨auth, hauth, hwrote⟩
        · exact hs.wrote hc
    | served => exact hs.wrote hc
  used {id} hid := by
    have hkept : id ∈ s.book.changes → ∃ c, s'.challenge id = some c ∧ c.usedAt.isSome := by
      intro hid
      obtain ⟨c, hc, hused⟩ := hs.used hid
      obtain ⟨c', hc', hstamped⟩ := h.challenges hc
      exact ⟨c', hc', by rw [hstamped.used hused]; exact hused⟩
    cases h with
    | challenged _ h =>
        rw [(Auth.withdrawalWalletChallenge_spec h).records] at hid
        exact hkept hid
    | verified _ h =>
        obtain ⟨row, c, hchanges⟩ := Auth.verifyWithdrawalWallet_eq_ok.mp h
        rw [hchanges.records] at hid
        rcases (AList.mem_insert _).mp hid with rfl | hid
        · exact ⟨_, by rw [State.challenge, hchanges.records]; exact AList.lookup_insert _, rfl⟩
        · exact hkept hid
    | served => exact hkept hid

theorem Sound.run (hs : Sound auths s) (h : Leads (Step auths) allowed s s') : Sound auths s' :=
  h.invariant hs fun _ _ _ _ ht => ht.step

theorem Reachable.sound (h : Reachable auths allowed s) : Sound auths s := by
  obtain ⟨s₀, h₀, hrun⟩ := h
  exact h₀.sound.run hrun

theorem run_challenges (h : Leads (Step auths) allowed s s') :
    Basis.Extends Stamped s.book.challenges s'.book.challenges :=
  Leads.relates (I := fun _ => True)
    (R := fun s t : State => Basis.Extends Stamped s.book.challenges t.book.challenges) h trivial
    (fun _ => Basis.Extends.refl Stamped.refl)
    (fun h h' => Basis.Extends.trans h h' fun _ _ _ => Stamped.trans)
    (fun _ _ _ _ _ _ => trivial) fun _ _ _ _ _ h => h.challenges

theorem run_extends (hs : Sound auths s) (h : Leads (Step auths) allowed s s') :
    s.db.funds.Extends s'.db.funds :=
  Leads.relates (R := fun s t : State => s.db.funds.Extends t.db.funds) h hs
    (fun s => .refl s.db.funds) .trans (fun _ _ _ _ ht => ht.step) fun _ _ _ _ ht h => h.extends ht

/-! ## Who changes a wallet -/

/-- A member who is there stays, with the same wallet unless a verified answer set another. -/
theorem Step.member (h : Step auths s e s') {m : Uuid} {row : Member}
    (hrow : s.member m = some row) : ∃ row', s'.member m = some row' ∧
      (row'.withdrawalWallet = row.withdrawalWallet ∨ ∃ id, e = .verified id m) := by
  cases h with
  | challenged => exact ⟨row, hrow, .inl rfl⟩
  | @verified db _ _ _ _ _ m' id _ _ h =>
      obtain ⟨row₀, c, hchanges⟩ := Auth.verifyWithdrawalWallet_eq_ok.mp h
      rcases eq_or_ne m m' with rfl | hne
      · exact ⟨_, by rw [State.member, hchanges.writes]; exact AList.lookup_insert _,
          .inr ⟨id, rfl⟩⟩
      · refine ⟨row, ?_, .inl rfl⟩
        rw [State.member, hchanges.writes]
        exact (AList.lookup_insert_ne hne).trans hrow
  | served h ha =>
      obtain ⟨row', hrow', hsame⟩ := h.keepsWallets ha hrow
      exact ⟨row', hrow', .inl hsame⟩

/-- What a verified answer has found and what it leaves, in terms of states. -/
structure Verified (auths : Set Auth) (s : State) (id m : Uuid) (s' : State) (row : Member)
    (c : WalletChallenge) : Prop where
  known : s.member m = some row
  issued : s.challenge id = some c
  isOpen : c.isOpen m s.db.clock = true
  inForce : row.withdrawalWallet = c.oldWallet
  signed : ∃ auth ∈ auths, ∃ signature signer, auth.recover c.message signature = some signer ∧
    signer.toLower = c.newWallet
  writes : s'.member m = some { row with withdrawalWallet := c.newWallet }
  stamps : s'.challenge id = some { c with usedAt := some s.db.clock }
  others : ∀ {id'}, id' ≠ id → s'.challenge id' = s.challenge id'
  clock : s'.db.clock = s.db.clock

theorem Step.verified_spec {id m : Uuid} (h : Step auths s (.verified id m) s') :
    ∃ row c, Verified auths s id m s' row c := by
  cases h with
  | @verified db db' held book book' auth _ _ signature hauth h =>
      obtain ⟨row, c, hchanges⟩ := Auth.verifyWithdrawalWallet_eq_ok.mp h
      obtain ⟨signer, hsigner, hnew⟩ := hchanges.signed
      refine ⟨row, c, hchanges.known, hchanges.issued, hchanges.isOpen, hchanges.inForce,
        ⟨auth, hauth, signature, signer, hsigner, hnew⟩, ?_, ?_, ?_, ?_⟩
      · rw [State.member, hchanges.writes]
        exact AList.lookup_insert _
      · rw [State.challenge, hchanges.records]
        exact AList.lookup_insert _
      · intro id' hne
        rw [State.challenge, hchanges.records]
        exact AList.lookup_insert_ne hne
      · rw [State.db, hchanges.writes]
        rfl

/-- An open challenge of the wallet in force is accepted with the signature it asks for. -/
theorem Sound.accepts (hs : Sound auths s) {auth : Auth} (hauth : auth ∈ auths) {id m : Uuid}
    {row : Member} {c : WalletChallenge} (hrow : s.member m = some row)
    (hc : s.challenge id = some c) (hopen : c.isOpen m s.db.clock = true)
    (hforce : row.withdrawalWallet = c.oldWallet) (hwrote : auth.wrote c.message = true)
    {signature : String} {signer : Address}
    (hsigner : auth.recover c.message signature = some signer)
    (hnew : signer.toLower = c.newWallet) : ∃ s', Step auths s (.verified id m) s' := by
  have hfirst : id ∉ s.book.changes := by
    intro hid
    obtain ⟨c', hc', hused⟩ := hs.used hid
    obtain rfl := Option.some.inj (hc.symm.trans hc')
    simp only [WalletChallenge.isOpen, decide_eq_true_eq] at hopen
    rw [hopen.2.1] at hused
    cases hused
  have hchanges : Auth.Changes auth s.db s.book m id signature _ _ row c :=
    { known := hrow, issued := hc, isOpen := hopen, inForce := hforce, wrote := hwrote
      signed := ⟨signer, hsigner, hnew⟩, first := hfirst, writes := rfl, records := rfl }
  exact ⟨_, .verified hauth (Auth.verifyWithdrawalWallet_eq_ok.mpr ⟨row, c, hchanges⟩)⟩

/-! ## Dead challenges -/

/-- A used challenge is not accepted. -/
theorem not_verified_of_used {id m : Uuid} {c : WalletChallenge} (hc : s.challenge id = some c)
    (hused : c.usedAt.isSome) : ¬ Step auths s (.verified id m) s' := by
  intro h
  obtain ⟨row, c', hverified⟩ := h.verified_spec
  obtain rfl := Option.some.inj (hc.symm.trans hverified.issued)
  have hopen := hverified.isOpen
  simp only [WalletChallenge.isOpen, decide_eq_true_eq] at hopen
  rw [hopen.2.1] at hused
  cases hused

/-- The challenge is no longer open, or was issued under a wallet that is not in force. -/
def Superseded (s : State) (id m : Uuid) : Prop :=
  ∃ c row, s.challenge id = some c ∧ s.member m = some row ∧ c.memberId = m ∧
    (c.isOpen m s.db.clock = true → row.withdrawalWallet ≠ c.oldWallet)

theorem Superseded.not_verified {id m m' : Uuid} (h : Superseded s id m) :
    ¬ Step auths s (.verified id m') s' := by
  intro hstep
  obtain ⟨c, row, hc, hrow, howner, hdead⟩ := h
  obtain ⟨row', c', hverified⟩ := hstep.verified_spec
  obtain rfl := Option.some.inj (hc.symm.trans hverified.issued)
  have hopen := hverified.isOpen
  simp only [WalletChallenge.isOpen, decide_eq_true_eq] at hopen
  obtain rfl : m = m' := howner.symm.trans hopen.1
  obtain rfl := Option.some.inj (hrow.symm.trans hverified.known)
  exact hdead hverified.isOpen hverified.inForce

/-- A verified change supersedes the other challenges of the member. -/
theorem Step.supersedes {id id' m : Uuid} {c : WalletChallenge}
    (h : Step auths s (.verified id' m) s') (hreturn : NoReturn s (.verified id' m))
    (hne : id ≠ id') (hc : s.challenge id = some c) (howner : c.memberId = m) :
    Superseded s' id m := by
  obtain ⟨row, change, hverified⟩ := h.verified_spec
  refine ⟨c, _, (hverified.others hne).trans hc, hverified.writes, howner, fun hopen => ?_⟩
  rw [hverified.clock] at hopen
  exact (hreturn change hverified.issued id c hne hc hopen).symm

/-- A superseded challenge stays so, as long as no wallet is set again. -/
theorem Superseded.step {id m : Uuid} (h : Superseded s id m) (hs : Sound auths s)
    (hreturn : NoReturn s e) (hstep : Step auths s e s') : Superseded s' id m := by
  have hbefore := h
  obtain ⟨c, row, hc, hrow, howner, hdead⟩ := h
  obtain ⟨c', hc', hstamped⟩ := hstep.challenges hc
  obtain ⟨row', hrow', hwallet⟩ := hstep.member hrow
  refine ⟨c', row', hc', hrow', hstamped.owner.trans howner, fun hopen => ?_⟩
  have hopen₀ := hstamped.isOpen (hstep.clock hs) hopen
  rw [hstamped.oldWallet]
  rcases hwallet with hsame | ⟨id', rfl⟩
  · rw [hsame]
    exact hdead hopen₀
  · obtain ⟨row₀, change, hverified⟩ := hstep.verified_spec
    obtain rfl := Option.some.inj (hrow'.symm.trans hverified.writes)
    have hne : id ≠ id' := by
      rintro rfl
      exact hbefore.not_verified hstep
    exact (hreturn change hverified.issued id c hne hc hopen₀).symm

theorem Superseded.run {id m : Uuid} (h : Superseded s id m) (hs : Sound auths s)
    (hrun : Leads (Step auths) NoReturn s s') : Superseded s' id m := by
  have hboth := hrun.invariant (I := fun t => Sound auths t ∧ Superseded t id m) ⟨hs, h⟩
    fun _ _ _ ha ht hstep => ⟨ht.1.step hstep, ht.2.step ht.1 ha hstep⟩
  exact hboth.2

/-! ## Withdrawals -/

end Wallets

/-- A withdrawal that a member has just requested is to the wallet in force. -/
theorem Withdrawals.request_recipient {db db' : Db} {m identity out : Uuid} {key : String}
    {amount : ℤ} (h : request db m key amount identity = .ok (db', out)) {id : Uuid}
    {w : Withdrawal} (hnone : db.funds.withdrawals.lookup id = none)
    (hw : db'.funds.withdrawals.lookup id = some w) :
    ∃ row, db.funds.members.lookup m = some row ∧ w.memberId = some m ∧
      w.recipient = row.withdrawalWallet := by
  simp only [request, bind_eq_ok, require_eq_ok, exists_const, memberLock, fetch_eq_ok] at h
  obtain ⟨_, -, -, row, hrow, h⟩ := h
  split at h
  next =>
    simp only [bind_eq_ok, require_eq_ok, exists_const, pure_eq_ok, Prod.mk.injEq] at h
    obtain ⟨-, rfl, -⟩ := h
    rw [hnone] at hw
    cases hw
  next =>
    simp only [bind_eq_ok, require_eq_ok, exists_const, pure_eq_ok, Prod.mk.injEq] at h
    obtain ⟨-, -, _, -, _, -, -, rfl, -⟩ := h
    rcases Table.lookup_insert_cases hw with ⟨-, rfl⟩ | ⟨-, hw⟩
    · exact ⟨row, hrow, rfl, rfl⟩
    · have hw₀ : db.funds.withdrawals.lookup id = some w := hw
      rw [hnone] at hw₀
      cases hw₀

/-- An operator's withdrawal belongs to no member. -/
theorem Withdrawals.requestOperator_owner {db db' : Db} {key : String} {amount reserve : ℤ}
    {network : Network} {recipient actor reason : String} {identity out : Uuid}
    (h : requestOperator db key amount network recipient reserve actor reason identity
      = .ok (db', out)) {id : Uuid} {w : Withdrawal}
    (hnone : db.funds.withdrawals.lookup id = none)
    (hw : db'.funds.withdrawals.lookup id = some w) : w.memberId = none := by
  simp only [requestOperator, bind_eq_ok, require_eq_ok, exists_const] at h
  obtain ⟨amount, -, reserve, -, recipient, -, -, -, db₁, hbind, h⟩ := h
  obtain ⟨rfl, -⟩ := Custody.bind_spec hbind
  split at h
  next =>
    simp only [bind_eq_ok, require_eq_ok, exists_const, pure_eq_ok, Prod.mk.injEq] at h
    obtain ⟨-, db₂, hevent, rfl, -⟩ := h
    rw [(event_frame hevent).1] at hw
    rw [hnone] at hw
    cases hw
  next =>
    simp only [bind_eq_ok, require_eq_ok, exists_const, pure_eq_ok, Prod.mk.injEq] at h
    obtain ⟨-, _, -, -, _, -, -, db₂, hevent, rfl, -⟩ := h
    rw [(event_frame hevent).1] at hw
    rcases Table.lookup_insert_cases hw with ⟨-, rfl⟩ | ⟨-, hw⟩
    · rfl
    · have hw₀ : db.funds.withdrawals.lookup id = some w := hw
      rw [hnone] at hw₀
      cases hw₀

/-- A member's withdrawal comes from a request of the member. -/
theorem Sys.Step.requested {s s' : Sys} {a : Action} (hs : s.Lawful) (h : Sys.Step s a s')
    {id m : Uuid} {w : Withdrawal} (hnone : s.db.funds.withdrawals.lookup id = none)
    (hw : s'.db.funds.withdrawals.lookup id = some w) (hm : w.memberId = some m) :
    (∃ k, a = .funds (.request k m)) ∧
      ∃ row, s.db.funds.members.lookup m = some row ∧ w.recipient = row.withdrawalWallet := by
  have hold : ¬ ∀ b, ¬ a.does s.db (.requested id b) := by
    intro hnot
    obtain ⟨w₀, hw₀, -⟩ := Funds.Path.withdrawal_back (h.path hs) hs.funds hnot hw
    rw [hnone] at hw₀
    cases hw₀
  cases h with
  | funds h =>
      cases h with
      | request h =>
          obtain ⟨row, hrow, howner, hrecipient⟩ := Withdrawals.request_recipient h hnone hw
          obtain rfl := Option.some.inj (howner.symm.trans hm)
          exact ⟨⟨_, rfl⟩, row, hrow, hrecipient⟩
      | requestOperator h =>
          have hnobody := Withdrawals.requestOperator_owner h hnone hw
          rw [hnobody] at hm
          cases hm
      | _ => exact absurd (by simp [Action.does, FundsAction.does, Change.Quiet]) hold
  | work h => cases h <;> exact absurd (by simp [Action.does, WorkAction.does, Change.Quiet]) hold
  | _ => exact absurd (by simp [Action.does, Change.Quiet]) hold

namespace Wallets

variable {auths : Set Auth} {s s' : State} {e : Event}

theorem Step.requested (hs : Sound auths s) (h : Step auths s e s') {id m : Uuid} {w : Withdrawal}
    (hnone : s.withdrawal id = none) (hw : s'.withdrawal id = some w) (hm : w.memberId = some m) :
    ∃ row, s.member m = some row ∧ w.recipient = row.withdrawalWallet := by
  rcases h.sys hs with heq | ⟨a, hstep⟩
  · rw [State.withdrawal, State.db, heq] at hw
    rw [State.withdrawal, State.db, hw] at hnone
    cases hnone
  · exact (hstep.requested hs.sys hnone hw hm).2

/-! ## The law -/

/-- A change is to a wallet that has signed an open challenge of the member. -/
theorem Step.signs {signed : Address → String → Prop}
    (hsigned : ∀ auth ∈ auths, ∀ text signature signer,
      auth.recover text signature = some signer → signed signer.toLower text)
    (h : Step auths s e s') {m : Uuid} {row : Member} (hrow : s.member m = some row) :
    ∃ row', s'.member m = some row' ∧ (row'.withdrawalWallet ≠ row.withdrawalWallet →
      ∃ id c, e = .verified id m ∧ s.challenge id = some c ∧ c.isOpen m s.db.clock = true ∧
        row'.withdrawalWallet = c.newWallet ∧ signed c.newWallet c.message) := by
  obtain ⟨row', hrow', hwallet⟩ := h.member hrow
  refine ⟨row', hrow', fun hne => ?_⟩
  rcases hwallet with hsame | ⟨id, rfl⟩
  · exact absurd hsame hne
  · obtain ⟨row₀, c, hverified⟩ := h.verified_spec
    obtain ⟨auth, hauth, signature, signer, hsigner, hnew⟩ := hverified.signed
    obtain rfl := Option.some.inj (hrow'.symm.trans hverified.writes)
    refine ⟨id, c, rfl, hverified.issued, hverified.isOpen, rfl, ?_⟩
    rw [← hnew]
    exact hsigned auth hauth _ _ _ hsigner

/-- What has been accepted is not accepted again. -/
theorem Step.verified_once {id m : Uuid} (h : Step auths s (.verified id m) s') {t : State}
    (hrun : Leads (Step auths) Any s' t) {m' : Uuid} {t' : State} :
    ¬ Step auths t (.verified id m') t' := by
  obtain ⟨row, c, hverified⟩ := h.verified_spec
  obtain ⟨c', hc', hstamped⟩ := run_challenges hrun hverified.stamps
  refine not_verified_of_used hc' ?_
  rw [hstamped.used rfl]
  rfl

/-- A withdrawal pays the wallet that was in force when it was requested. -/
theorem Step.pays (hs : Sound auths s) (h : Step auths s e s') {id m : Uuid} {w : Withdrawal}
    (hnone : s.withdrawal id = none) (hw : s'.withdrawal id = some w) (hm : w.memberId = some m) :
    ∃ row, s.member m = some row ∧ ∀ {t : State}, Leads (Step auths) Any s' t →
      ∃ w', t.withdrawal id = some w' ∧ w'.recipient = row.withdrawalWallet ∧
        ∀ event, w'.paidEvent = some event → ∃ transfer,
          t.db.funds.transfers.lookup event = some transfer ∧
          transfer.recipient = row.withdrawalWallet ∧ transfer.amount = w'.amount := by
  obtain ⟨row, hrow, hrecipient⟩ := h.requested hs hnone hw hm
  refine ⟨row, hrow, fun {t} hrun => ?_⟩
  have hs' := hs.step h
  obtain ⟨w', hw', hextends⟩ := (run_extends hs' hrun).withdrawal hw
  have hsame : w'.recipient = row.withdrawalWallet := hextends.recipient.trans hrecipient
  refine ⟨w', hw', hsame, fun event hevent => ?_⟩
  obtain ⟨_, _, _, _, _, -, -, -, -, -, -, -, transfer, htransfer, hamount, hto⟩ :=
    (hs'.run hrun).sys.funds.paid_send hw' hevent
  exact ⟨transfer, htransfer, hto.trans hsame, hamount⟩

/-- After a change that sets such a wallet again, the other challenge is accepted: all it needs
is the signature that it asks for. -/
theorem Step.revives {id m : Uuid} (hs : Sound auths s) (h : Step auths s (.verified id m) s')
    (hreturn : ¬ NoReturn s (.verified id m)) :
    ∃ id' c, id' ≠ id ∧ s.challenge id' = some c ∧ ∀ auth ∈ auths, auth.wrote c.message = true →
      ∀ signature signer, auth.recover c.message signature = some signer →
        signer.toLower = c.newWallet → ∃ t, Step auths s' (.verified id' m) t := by
  simp only [NoReturn, not_forall, not_not] at hreturn
  obtain ⟨change, hchange, id', c, hne, hc, hopen, hold⟩ := hreturn
  obtain ⟨row, change', hverified⟩ := h.verified_spec
  obtain rfl := Option.some.inj (hchange.symm.trans hverified.issued)
  refine ⟨id', c, hne, hc, fun auth hauth hwrote signature signer hsigner hnew => ?_⟩
  have hc' : s'.challenge id' = some c := (hverified.others hne).trans hc
  have hopen' : c.isOpen m s'.db.clock = true := by
    rw [hverified.clock]
    exact hopen
  exact (hs.step h).accepts hauth hverified.writes hc' hopen' hold.symm hwrote hsigner hnew

/-- Every interleaving of challenges, answers, requests and all else that the service does.
A wallet changes only to one whose key signed an open challenge of the member; a challenge is
accepted at most once; a withdrawal pays the wallet in force at its request.  A verified change
puts an end to the challenges issued before, in runs where no change sets the wallet of an open
one again. -/
theorem withdrawal_wallets {signed : Address → String → Prop}
    (hsigned : ∀ auth ∈ auths, ∀ text signature signer,
      auth.recover text signature = some signer → signed signer.toLower text)
    (hs : Reachable auths Any s) (h : Step auths s e s') :
    (∀ m row, s.member m = some row → ∃ row', s'.member m = some row' ∧
      (row'.withdrawalWallet ≠ row.withdrawalWallet →
        ∃ id c, e = .verified id m ∧ s.challenge id = some c ∧ c.isOpen m s.db.clock = true ∧
          row'.withdrawalWallet = c.newWallet ∧ signed c.newWallet c.message)) ∧
    (∀ id m, e = .verified id m → ∀ t, Leads (Step auths) Any s' t →
      ∀ m' t', ¬ Step auths t (.verified id m') t') ∧
    (NoReturn s e → ∀ id' m, e = .verified id' m →
      ∀ id c, id ≠ id' → s.challenge id = some c → c.memberId = m →
        ∀ t, Leads (Step auths) NoReturn s' t → ∀ m' t', ¬ Step auths t (.verified id m') t') ∧
    (∀ id m w, s.withdrawal id = none → s'.withdrawal id = some w → w.memberId = some m →
      ∃ row, s.member m = some row ∧ ∀ t, Leads (Step auths) Any s' t →
        ∃ w', t.withdrawal id = some w' ∧ w'.recipient = row.withdrawalWallet ∧
          ∀ event, w'.paidEvent = some event → ∃ transfer,
            t.db.funds.transfers.lookup event = some transfer ∧
            transfer.recipient = row.withdrawalWallet ∧ transfer.amount = w'.amount) := by
  have hsound := hs.sound
  refine ⟨fun m row hrow => h.signs hsigned hrow, ?_, ?_, ?_⟩
  · rintro id m rfl t hrun m' t'
    exact h.verified_once hrun
  · rintro hreturn id' m rfl id c hne hc howner t hrun m' t'
    have hdead := h.supersedes hreturn hne hc howner
    exact (hdead.run (hsound.step h) hrun).not_verified
  · intro id m w hnone hw hm
    obtain ⟨row, hrow, hpays⟩ := h.pays hsound hnone hw hm
    exact ⟨row, hrow, fun t hrun => hpays hrun⟩

end Wallets

/-! ## A wallet that comes back -/

namespace WalletDay

open Wallets

def home : Address := "0x00000000000000000000000000000000000000aa"
def other : Address := "0x00000000000000000000000000000000000000cc"
def target : Address := "0x00000000000000000000000000000000000000dd"

def holders : List Address := [home, other, target]

/-- The holder of a key signs a text by putting the wallet before it. -/
def sign (wallet : Address) (text : String) : String := wallet ++ text

def auth : Auth where
  domain := "pool.invalid"
  origin := "https://pool.invalid"
  chainId := 8453
  checksum := id
  isoformat := toString
  recover text signature := holders.find? fun wallet => sign wallet text = signature

/-- A new member asks for two challenges. -/
def issues : Result (Db × WalletBook) := do
  let db ← initializeAccounts migrated
  let (db, _) ← registerVerified db home "member"
  let (book, _) ← auth.withdrawalWalletChallenge db .empty "member" target "first" "nonce"
  let (book, _) ← auth.withdrawalWalletChallenge db book "member" other "second" "nonce"
  return (db, book)

def issued : State :=
  let (db, book) := issues.toOption.getD (migrated, .empty)
  ⟨⟨db, Held.empty⟩, book⟩

/-- The member's wallet. -/
def Holds (s : State) (wallet : Address) : Prop :=
  ∃ row, s.member "member" = some row ∧ row.withdrawalWallet = wallet

/-- The member may answer the challenge, which is from one wallet to another. -/
def Asks (s : State) (id : Uuid) (old new : Address) : Prop :=
  ∃ c, s.challenge id = some c ∧ c.isOpen "member" s.db.clock = true ∧ c.oldWallet = old ∧
    c.newWallet = new

/-- What evaluation says of the holders and of what was issued. -/
theorem evaluated : (∀ wallet ∈ holders, address wallet = .ok wallet) ∧
    (∀ wallet ∈ holders, holders.find? (fun w => w = wallet) = some wallet) ∧
    issues.toOption.isSome = true ∧
    (issued.member "member").map (·.withdrawalWallet) = some home ∧
    (issued.challenge "first").any (fun c => c.isOpen "member" issued.db.clock ∧
      c.oldWallet = home ∧ c.newWallet = target) = true ∧
    (issued.challenge "second").any (fun c => c.isOpen "member" issued.db.clock ∧
      c.oldWallet = home ∧ c.newWallet = other) = true ∧
    issued.challenge "third" = none ∧
    issued.book.challenges.entries.all (fun e => e.2.oldWallet = home) = true := by
  refine ⟨?_, ?_, ?_, ?_, ?_, ?_, ?_, ?_⟩ <;> decide +kernel

theorem holder_address : ∀ wallet ∈ holders, address wallet = .ok wallet := evaluated.1

theorem holder_toLower {wallet : Address} (h : wallet ∈ holders) : wallet.toLower = wallet := by
  have hwallet := holder_address wallet h
  simp only [address, bind_eq_ok, require_eq_ok, exists_const, pure_eq_ok] at hwallet
  exact hwallet.2.2

theorem recover_eq (text signature : String) :
    auth.recover text signature = holders.find? fun wallet => sign wallet text = signature := rfl

theorem recover_sign {wallet : Address} (h : wallet ∈ holders) (text : String) :
    auth.recover text (sign wallet text) = some wallet := by
  have hsame : ∀ w, sign w text = sign wallet text ↔ w = wallet := by
    intro w
    simp only [sign, String.append_left_inj]
  simp only [recover_eq, hsame]
  exact evaluated.2.1 wallet h

theorem reachable : Reachable {auth} Any issued := by
  have hrun : issues = .ok (issued.db, issued.book) := by
    have hout := @eq_ok_getD _ _ issues (migrated, .empty) evaluated.2.2.1
    exact hout
  simp only [issues, bind_eq_ok, pure_eq_ok, Prod.mk.injEq] at hrun
  obtain ⟨db₁, h₁, ⟨db₂, _⟩, h₂, ⟨book₁, _⟩, h₃, ⟨book₂, _⟩, h₄, hdb, hbook⟩ := hrun
  have hstate : issued = ⟨⟨db₂, Held.empty⟩, book₂⟩ := by
    have hdb : db₂ = issued.db := hdb
    have hbook : book₂ = issued.book := hbook
    rw [hdb, hbook]
    rfl
  have hopened : Step {auth} ⟨⟨migrated, Held.empty⟩, .empty⟩ _ ⟨⟨db₁, Held.empty⟩, .empty⟩ :=
    .served (.funds (.initializeAccounts h₁)) (by simp)
  have hmember : Step {auth} ⟨⟨db₁, Held.empty⟩, .empty⟩ _ ⟨⟨db₂, Held.empty⟩, .empty⟩ :=
    .served (.funds (.registerVerified h₂)) (by simp)
  have hfirst : Step {auth} ⟨⟨db₂, Held.empty⟩, .empty⟩ _ ⟨⟨db₂, Held.empty⟩, book₁⟩ :=
    .challenged rfl h₃
  have hsecond : Step {auth} ⟨⟨db₂, Held.empty⟩, book₁⟩ _ ⟨⟨db₂, Held.empty⟩, book₂⟩ :=
    .challenged rfl h₄
  rw [hstate]
  refine ⟨⟨⟨migrated, Held.empty⟩, .empty⟩, ⟨Sys.initial_migrated, rfl⟩, ?_⟩
  exact (((Leads.one trivial hopened).step trivial hmember).step trivial hfirst).step trivial
    hsecond

theorem Asks.kept {s s' : State} {id : Uuid} {old new : Address} (h : Asks s id old new)
    (hchallenge : s'.challenge id = s.challenge id) (hclock : s'.db.clock = s.db.clock) :
    Asks s' id old new := by
  obtain ⟨c, hc, hopen, hterms⟩ := h
  refine ⟨c, hchallenge.trans hc, ?_, hterms⟩
  rw [hclock]
  exact hopen

/-- The member asks for a challenge. -/
theorem ask {s : State} {id : Uuid} {old wallet : Address} (h : Holds s old)
    (hwallet : wallet ∈ holders) (hfresh : s.challenge id = none) :
    ∃ s', Step {auth} s (.challenged id "member") s' ∧ Holds s' old ∧ Asks s' id old wallet ∧
      ∀ id' o n, id' ≠ id → Asks s id' o n → Asks s' id' o n := by
  obtain ⟨row, hrow, rfl⟩ := h
  obtain ⟨book, c, hrun, hnew⟩ : ∃ book c,
      auth.withdrawalWalletChallenge s.db s.book "member" wallet id "nonce" = .ok (book, c) ∧
        c.newWallet = wallet := by
    simp only [Auth.withdrawalWalletChallenge, bind_eq_ok, memberLock, fetch_eq_ok, require_eq_ok,
      exists_const, pure_eq_ok, Prod.mk.injEq]
    exact ⟨_, _, ⟨wallet, holder_address wallet hwallet, row, hrow, AList.lookup_eq_none.mp hfresh,
      rfl, rfl⟩, rfl⟩
  have hissues := Auth.withdrawalWalletChallenge_spec hrun
  obtain ⟨row', hrow', hold⟩ := hissues.known
  obtain rfl := Option.some.inj (hrow.symm.trans hrow')
  refine ⟨⟨s.sys, book⟩, .challenged rfl hrun, ⟨row, hrow, rfl⟩, ⟨c, ?_, ?_, hold, hnew⟩, ?_⟩
  · rw [State.challenge, hissues.records]
    exact AList.lookup_insert _
  · simp only [WalletChallenge.isOpen, decide_eq_true_eq]
    refine ⟨hissues.owner, hissues.unused, ?_⟩
    rw [hissues.expiresAt]
    exact lt_add_of_pos_right _ (by decide)
  · intro id' o n hne hasks
    refine hasks.kept ?_ rfl
    rw [State.challenge, hissues.records]
    exact AList.lookup_insert_ne hne

/-- The member answers a challenge. -/
theorem answer {s : State} (hs : Sound {auth} s) {id : Uuid} {old new : Address} (h : Holds s old)
    (hc : Asks s id old new) (hnew : new ∈ holders) :
    ∃ s', Step {auth} s (.verified id "member") s' ∧ Holds s' new ∧
      s'.db.clock = s.db.clock ∧ ∀ id', id' ≠ id → s'.challenge id' = s.challenge id' := by
  obtain ⟨row, hrow, hold⟩ := h
  obtain ⟨c, hc, hopen, hfrom, hto⟩ := hc
  obtain ⟨_, rfl, hwrote⟩ := hs.wrote hc
  obtain ⟨s', hstep⟩ := hs.accepts rfl hrow hc hopen (hold.trans hfrom.symm) hwrote
    (recover_sign hnew c.message) ((holder_toLower hnew).trans hto.symm)
  obtain ⟨row', c', hverified⟩ := hstep.verified_spec
  obtain rfl := Option.some.inj (hc.symm.trans hverified.issued)
  exact ⟨s', hstep, ⟨_, hverified.writes, hto⟩, hverified.clock, fun _ => hverified.others⟩

theorem issued_holds : Holds issued home := by
  exact Option.map_eq_some_iff.mp evaluated.2.2.2.1

theorem issued_asks : Asks issued "first" home target ∧ Asks issued "second" home other := by
  have hasks : ∀ id old new, (issued.challenge id).any (fun c =>
      c.isOpen "member" issued.db.clock ∧ c.oldWallet = old ∧ c.newWallet = new) = true →
      Asks issued id old new := by
    intro id old new h
    obtain ⟨c, hc, hterms⟩ := (Option.any_eq_true _ _).mp h
    exact ⟨c, hc, of_decide_eq_true hterms⟩
  obtain ⟨-, -, -, -, hfirst, hsecond, -, -⟩ := evaluated
  exact ⟨hasks _ _ _ hfirst, hasks _ _ _ hsecond⟩

/-- The first challenge is accepted after two changes, of which the second sets the wallet that
it was issued under. -/
theorem superseded_accepted : ∃ s' t t' c, Reachable {auth} Any issued ∧
    issued.challenge "first" = some c ∧ c.memberId = "member" ∧
    Step {auth} issued (.verified "second" "member") s' ∧ Leads (Step {auth}) Any s' t ∧
    Step {auth} t (.verified "first" "member") t' := by
  have hs := reachable.sound
  obtain ⟨hfirst, hsecond⟩ := issued_asks
  have hunused := evaluated.2.2.2.2.2.2.1
  -- to the second wallet, a challenge to the first one, and back
  obtain ⟨s₁, h₁, hholds₁, hclock₁, hkept₁⟩ := answer hs issued_holds hsecond (by decide)
  have hfirst₁ := hfirst.kept (hkept₁ "first" (by decide)) hclock₁
  have hs₁ := hs.step h₁
  have hunused₁ := (hkept₁ "third" (by decide)).trans hunused
  have hhome : home ∈ holders := by decide
  obtain ⟨s₂, h₂, hholds₂, hthird, hkept₂⟩ := ask hholds₁ hhome hunused₁
  have hfirst₂ := hkept₂ "first" _ _ (by decide) hfirst₁
  have hs₂ := hs₁.step h₂
  obtain ⟨s₃, h₃, hholds₃, hclock₃, hkept₃⟩ := answer hs₂ hholds₂ hthird hhome
  have hfirst₃ := hfirst₂.kept (hkept₃ "first" (by decide)) hclock₃
  obtain ⟨s₄, h₄, -⟩ := answer (hs₂.step h₃) hholds₃ hfirst₃ (by decide)
  obtain ⟨c, hc, hopen, -, -⟩ := hfirst
  simp only [WalletChallenge.isOpen, decide_eq_true_eq] at hopen
  exact ⟨s₁, s₃, s₄, c, reachable, hc, hopen.1, h₁, (Leads.one trivial h₂).step trivial h₃, h₄⟩

/-- All who hold a key sign. -/
theorem recover_holder : ∀ a ∈ ({auth} : Set Auth), ∀ text signature signer,
    a.recover text signature = some signer → signer.toLower ∈ holders := by
  rintro _ rfl text signature signer hsigner
  rw [recover_eq] at hsigner
  have hmem := List.mem_of_find?_eq_some hsigner
  rw [holder_toLower hmem]
  exact hmem

theorem issued_noReturn : NoReturn issued (.verified "second" "member") := by
  intro change hchange id' c hne hc hopen
  have hall := evaluated.2.2.2.2.2.2.2
  have hold : c.oldWallet = home := by
    have hentry := List.all_eq_true.mp hall _ (Table.mem_entries_iff.mpr hc)
    exact of_decide_eq_true hentry
  obtain ⟨c', hc', -, -, hto⟩ := issued_asks.2
  obtain rfl := Option.some.inj (hchange.symm.trans hc')
  rw [hold, hto]
  decide

/-- The answer to the second challenge sets its wallet.  The first challenge is not accepted
after it, unless a change sets the first wallet again. -/
theorem withdrawal_wallets_second : ∃ s', Step {auth} issued (.verified "second" "member") s' ∧
    (∃ row', s'.member "member" = some row' ∧ row'.withdrawalWallet ≠ home ∧
      ∃ c, issued.challenge "second" = some c ∧ row'.withdrawalWallet = c.newWallet ∧
        c.newWallet ∈ holders) ∧
    ∀ t, Leads (Step {auth}) NoReturn s' t →
      ∀ m t', ¬ Step {auth} t (.verified "first" m) t' := by
  obtain ⟨hfirst, hsecond⟩ := issued_asks
  obtain ⟨s', hstep, ⟨row₁, hrow₁, hother⟩, -⟩ :=
    answer reachable.sound issued_holds hsecond (by decide)
  obtain ⟨hsigns, -, hdead, -⟩ := @withdrawal_wallets {auth} issued s' _
    (fun wallet _ => wallet ∈ holders) recover_holder reachable hstep
  obtain ⟨row, hrow, hhome⟩ := issued_holds
  obtain ⟨row', hrow', hchange⟩ := hsigns "member" row hrow
  obtain rfl := Option.some.inj (hrow₁.symm.trans hrow')
  have hne : row₁.withdrawalWallet ≠ home := by
    rw [hother]
    decide
  obtain ⟨id, c, hid, hc, -, hset, hsigned⟩ := hchange (by rw [hhome]; exact hne)
  obtain ⟨rfl, -⟩ := Event.verified.inj hid
  refine ⟨s', hstep, ⟨row₁, hrow₁, hne, c, hc, hset, hsigned⟩, ?_⟩
  obtain ⟨first, hfirst, hopen, -⟩ := hfirst
  simp only [WalletChallenge.isOpen, decide_eq_true_eq] at hopen
  exact hdead issued_noReturn "second" "member" rfl "first" first (by decide) hfirst hopen.1

end WalletDay

end TigPool
