/-
# `TigPool.MemberApi` — requests of members, and what they rest on

A request carries a token.  One transaction finds the member whose token it is, and another
does what is asked in the name of that member; what lies between them is kept in `grants`.
Other requests, the operator's and the service's own transactions come in any order with these.

The machine notes what happens, with the time.  `Session` reads from the notes whether a token
was opened and not revoked since, and the first result is that the service needs no more than
its table of digests to tell: a token is accepted exactly when the notes have an open session
for it.  The second part is about what is on record under a member's name, and goes back from
there, request by request, to a signature of the member's wallet.
-/
import TigPool.Sessions
import TigPool.WalletChanges
import TigPool.Uploads
import TigPool.Basis.Since

namespace TigPool

open Basis

namespace MemberApi

/-! ## Requests -/

/-- What a member can ask for. -/
inductive Call where
  | withdraw (key : String) (amount : ℤ)
  | cancelWithdrawal (withdrawal : Uuid)
  | askWallet (wallet : String)
  | setWallet (challenge : Uuid)
  | requestWork (key resource computeType : String) (capacity : Json)
  | workStatus (request : Uuid)
  | refreshWork (request : Uuid)
  | acknowledge (reservation : Uuid) (digest : Json)
  | results (benchmark : String) (merkleRoot : String) (qualities : List ℤ)
  | proofs (benchmark : String) (values : List Json)

/-- Does it take a session of the wallet? -/
def Call.wallet : Call → Bool
  | .withdraw .. | .cancelWithdrawal _ | .askWallet _ | .setWallet _ => true
  | _ => false

structure State where
  wallets : Wallets.State
  sessions : SessionBook
  /-- Members found for requests that are under way, and whether by a wallet's session. -/
  grants : List (Uuid × Bool)

namespace State

abbrev sys (s : State) : Sys := s.wallets.sys

abbrev db (s : State) : Db := s.wallets.db

abbrev token (s : State) (digest : String) : Option AccessToken := s.sessions.tokens.lookup digest

abbrev challenge (s : State) (id : Uuid) : Option AuthChallenge := s.sessions.challenges.lookup id

end State

inductive Event where
  | challenged (challenge : Uuid) (wallet : Address) (text : String)
  | signedIn (challenge : Uuid) (text signature : String) (signer : Address) (member : Uuid)
      (digest : String)
  | issued (session digest : String) (member : Uuid)
  | revoked (member : Uuid) (digest : String)
  | authenticated (digest : String) (member : Uuid) (wallet : Bool)
  | acted (member : Uuid) (call : Call)
  /-- An operator rejects a withdrawal. -/
  | declined (withdrawal : Uuid)
  | served (action : Action)

/-- What only members do, by the requests above. -/
def byMembers : Action → Bool
  | .funds .registerVerified | .funds .setWithdrawalWallet | .funds (.request ..)
  | .funds (.release _) | .funds (.acknowledge _) | .work .create | .work .refresh | .work .get
  | .work .results | .work (.proofs _) => true
  | _ => false

/-- The transaction of a request, in the name of a member.  The reservation of a benchmark that
is acknowledged has been looked up in a transaction before. -/
inductive Acts (auths : Set Auth) (m : Uuid) : Wallets.State → Call → Wallets.State → Prop
  | withdraw {db db' : Db} {held : Held} {book : WalletBook} {key : String} {amount : ℤ}
      {identity out : Uuid} : Withdrawals.request db m key amount identity = .ok (db', out) →
      Acts auths m ⟨⟨db, held⟩, book⟩ (.withdraw key amount) ⟨⟨db', held⟩, book⟩
  | cancelWithdrawal {db db' : Db} {held : Held} {book : WalletBook} {identity out : Uuid}
      {reason key : String} :
      Withdrawals.release db identity ("member:" ++ m) reason key (some m) = .ok (db', out) →
      Acts auths m ⟨⟨db, held⟩, book⟩ (.cancelWithdrawal identity) ⟨⟨db', held⟩, book⟩
  | askWallet {sys : Sys} {book book' : WalletBook} {auth : Auth} {wallet nonce : String}
      {identity : Uuid} {row : WalletChallenge} : auth ∈ auths →
      auth.withdrawalWalletChallenge sys.db book m wallet identity nonce = .ok (book', row) →
      Acts auths m ⟨sys, book⟩ (.askWallet wallet) ⟨sys, book'⟩
  | setWallet {db db' : Db} {held : Held} {book book' : WalletBook} {auth : Auth}
      {challenge : Uuid} {signature : String} : auth ∈ auths →
      auth.verifyWithdrawalWallet db book m challenge signature = .ok (db', book') →
      Acts auths m ⟨⟨db, held⟩, book⟩ (.setWallet challenge) ⟨⟨db', held⟩, book'⟩
  | requestWork {db db' : Db} {held : Held} {book : WalletBook}
      {key resource computeType : String} {capacity : Json} {ttl : ℤ} {identity out : Uuid} :
      WorkRequests.create db m key resource computeType capacity ttl identity = .ok (db', out) →
      Acts auths m ⟨⟨db, held⟩, book⟩ (.requestWork key resource computeType capacity)
        ⟨⟨db', held⟩, book⟩
  | workStatus {db db' : Db} {held : Held} {book : WalletBook} {identity : Uuid}
      {out : WorkRequests.View} : WorkRequests.get db identity m = .ok (db', out) →
      Acts auths m ⟨⟨db, held⟩, book⟩ (.workStatus identity) ⟨⟨db', held⟩, book⟩
  | refreshWork {db db' : Db} {held : Held} {book : WalletBook} {identity : Uuid} {ttl : ℤ} :
      WorkRequests.refresh db identity m ttl = .ok db' →
      Acts auths m ⟨⟨db, held⟩, book⟩ (.refreshWork identity) ⟨⟨db', held⟩, book⟩
  | acknowledge {db db' : Db} {held : Held} {book : WalletBook} {identity out : Uuid}
      {digest : Json} : TigPool.acknowledge db identity m digest = .ok (db', out) →
      Acts auths m ⟨⟨db, held⟩, book⟩ (.acknowledge identity digest) ⟨⟨db', held⟩, book⟩
  | results {db db' : Db} {held : Held} {book : WalletBook} {benchmarkId merkleRoot : String}
      {qualities : List ℤ} {intent : Uuid} :
      MemberProtocol.results db benchmarkId m merkleRoot qualities intent = .ok db' →
      Acts auths m ⟨⟨db, held⟩, book⟩ (.results benchmarkId merkleRoot qualities)
        ⟨⟨db', held⟩, book⟩
  | proofs {blake3 : Blake3} {db db' : Db} {held : Held} {book : WalletBook} {benchmarkId : String}
      {values : List Json} {intent : Uuid} :
      MemberProtocol.proofs blake3 db benchmarkId m values intent = .ok db' →
      Acts auths m ⟨⟨db, held⟩, book⟩ (.proofs benchmarkId values) ⟨⟨db', held⟩, book⟩

/-- One transaction.  `auths` are the deployments that run, `sha` gives the digest of a token. -/
inductive Step (auths : Set Auth) (sha : String → String) : State → Event → State → Prop
  | challenged {w : Wallets.State} {book book' : SessionBook} {grants : List (Uuid × Bool)}
      {auth : Auth} {wallet nonce : String} {identity : Uuid} {row : AuthChallenge} :
      auth ∈ auths →
      SignIn.challenge ⟨auth, sha⟩ w.db book wallet identity nonce = .ok (book', row) →
      Step auths sha ⟨w, book, grants⟩ (.challenged identity row.wallet row.message)
        ⟨w, book', grants⟩
  | signedIn {db db' : Db} {held : Held} {wallets : WalletBook} {book book' : SessionBook}
      {grants : List (Uuid × Bool)} {auth : Auth} {challenge identity m : Uuid}
      {signature token : String} {row : AuthChallenge} {signer : Address} : auth ∈ auths →
      book.challenges.lookup challenge = some row →
      auth.recover row.message signature = some signer →
      SignIn.verify ⟨auth, sha⟩ db book challenge signature identity token
        = .ok (db', book', m) →
      Step auths sha ⟨⟨⟨db, held⟩, wallets⟩, book, grants⟩
        (.signedIn challenge row.message signature signer m (sha token))
        ⟨⟨⟨db', held⟩, wallets⟩, book', grants⟩
  | issued {w : Wallets.State} {book book' : SessionBook} {grants : List (Uuid × Bool)}
      {auth : Auth} {walletToken token : String} {m : Uuid} : auth ∈ auths →
      SignIn.issueExecutionToken ⟨auth, sha⟩ w.db book walletToken token = .ok (book', m) →
      Step auths sha ⟨w, book, grants⟩ (.issued (sha walletToken) (sha token) m)
        ⟨w, book', grants⟩
  | revoked {w : Wallets.State} {book book' : SessionBook} {grants : List (Uuid × Bool)}
      {auth : Auth} {walletToken token : String} {m : Uuid} : auth ∈ auths →
      SignIn.authenticate ⟨auth, sha⟩ w.db book walletToken true = .ok m →
      SignIn.revoke ⟨auth, sha⟩ w.db book walletToken token = .ok book' →
      Step auths sha ⟨w, book, grants⟩ (.revoked m (sha token)) ⟨w, book', grants⟩
  | revokedExecution {w : Wallets.State} {book book' : SessionBook} {grants : List (Uuid × Bool)}
      {digest : String} {m : Uuid} : (m, true) ∈ grants →
      revokeExecutionToken w.db book m digest = some book' →
      Step auths sha ⟨w, book, grants⟩ (.revoked m digest)
        ⟨w, book', grants.erase (m, true)⟩
  | authenticated {w : Wallets.State} {book : SessionBook} {grants : List (Uuid × Bool)}
      {auth : Auth} {token : String} {wallet : Bool} {m : Uuid} : auth ∈ auths →
      SignIn.authenticate ⟨auth, sha⟩ w.db book token wallet = .ok m →
      Step auths sha ⟨w, book, grants⟩ (.authenticated (sha token) m wallet)
        ⟨w, book, (m, wallet) :: grants⟩
  | acted {w w' : Wallets.State} {book : SessionBook} {grants : List (Uuid × Bool)}
      {m : Uuid} {call : Call} : (m, call.wallet) ∈ grants → Acts auths m w call w' →
      Step auths sha ⟨w, book, grants⟩ (.acted m call) ⟨w', book, grants.erase (m, call.wallet)⟩
  | declined {db db' : Db} {held : Held} {wallets : WalletBook} {book : SessionBook}
      {grants : List (Uuid × Bool)} {identity out : Uuid} {actor reason key : String} :
      Withdrawals.release db identity actor reason key none = .ok (db', out) →
      Step auths sha ⟨⟨⟨db, held⟩, wallets⟩, book, grants⟩ (.declined identity)
        ⟨⟨⟨db', held⟩, wallets⟩, book, grants⟩
  | served {sys sys' : Sys} {wallets : WalletBook} {book : SessionBook}
      {grants : List (Uuid × Bool)} {a : Action} : Sys.Step sys a sys' → byMembers a = false →
      Step auths sha ⟨⟨sys, wallets⟩, book, grants⟩ (.served a) ⟨⟨sys', wallets⟩, book, grants⟩

/-- A migrated service that nobody has signed in to. -/
structure Initial (s : State) : Prop where
  wallets : Wallets.Initial s.wallets
  sessions : s.sessions = SessionBook.empty
  grants : s.grants = []
  uploads : s.db.work.benchmarkPayloads = ∅

/-- Whole transactions, and not their parts. -/
def Whole (_ : State × List (Time × Event)) (e : Event) : Prop :=
  ∀ part, e = .served (.funds part) → Sys.FundsPart part = false

/-! ## Notes -/

abbrev Note := Time × Event

/-- What happens is noted with the time. -/
def watch (s : State) (e : Event) : List Note := [(s.db.clock, e)]

/-- The state that a run reaches, and the notes taken on it. -/
def Reached (auths : Set Auth) (sha : String → String) (s : State) (notes : List Note) : Prop :=
  ∃ s₀, Initial s₀ ∧ Leads (Watched (Step auths sha) watch) Whole (s₀, []) (s, notes)

/-- The note opens the token, for the member. -/
inductive Opens (digest : String) (m : Uuid) : TokenKind → Time → Note → Prop
  | wallet {opened : Time} {challenge : Uuid} {text signature : String} {signer : Address} :
      Opens digest m .wallet opened (opened, .signedIn challenge text signature signer m digest)
  | execution {opened : Time} {session : String} :
      Opens digest m .execution opened (opened, .issued session digest m)

def Ends (digest : String) (m : Uuid) (n : Note) : Prop :=
  n.2 = .revoked m digest

/-- A session of the member was opened and not revoked since. -/
def Session (digest : String) (m : Uuid) (kind : TokenKind) (opened : Time) (notes : List Note) :
    Prop :=
  Since (Opens digest m kind opened) (Ends digest m) notes

/-- Such a session is not over yet. -/
def Stands (digest : String) (m : Uuid) (kind : TokenKind) (now : Time) (notes : List Note) :
    Prop :=
  ∃ opened, Session digest m kind opened notes ∧ now < opened + kind.lifetime

variable {auths : Set Auth} {sha : String → String} {s s' : State} {e : Event}
  {notes : List Note}

/-! ## The service below -/

/-- A request is a transaction of the service below. -/
theorem Acts.wallets {m : Uuid} {call : Call} {w w' : Wallets.State}
    (h : Acts auths m w call w') : ∃ e, Wallets.Step auths w e w' := by
  cases h with
  | withdraw h => exact ⟨_, .served (.funds (.request h)) (by simp)⟩
  | cancelWithdrawal h => exact ⟨_, .served (.funds (.release h)) (by simp)⟩
  | askWallet hauth h => exact ⟨_, .challenged hauth h⟩
  | setWallet hauth h => exact ⟨_, .verified hauth h⟩
  | requestWork h => exact ⟨_, .served (.work (.create h)) (by simp)⟩
  | workStatus h => exact ⟨_, .served (.work (.get h)) (by simp)⟩
  | refreshWork h => exact ⟨_, .served (.work (.refresh h)) (by simp)⟩
  | acknowledge h => exact ⟨_, .served (.funds (.acknowledge h)) (by simp)⟩
  | results h => exact ⟨_, .served (.work (.results h)) (by simp)⟩
  | proofs h => exact ⟨_, .served (.work (.proofs h)) (by simp)⟩

theorem Step.wallets (h : Step auths sha s e s') :
    s'.wallets = s.wallets ∨ ∃ e, Wallets.Step auths s.wallets e s'.wallets := by
  cases h with
  | challenged | issued | revoked | revokedExecution | authenticated => exact .inl rfl
  | signedIn _ _ _ h =>
      obtain ⟨_, _, hopens⟩ := SignIn.verify_eq_ok.mp h
      exact .inr ⟨_, .served (.funds (.registerVerified hopens.registers)) (by simp)⟩
  | acted _ h => exact .inr h.wallets
  | declined h => exact .inr ⟨_, .served (.funds (.release h)) (by simp)⟩
  | served h hnot =>
      refine .inr ⟨_, .served h ?_⟩
      rintro rfl
      cases hnot

/-- A verified answer sets the wallet. -/
theorem verify_sets {db db' : Db} {held : Held} {book book' : WalletBook} {auth : Auth}
    {m challenge : Uuid} {signature : String} (hs : Wallets.Sound auths ⟨⟨db, held⟩, book⟩)
    (h : auth.verifyWithdrawalWallet db book m challenge signature = .ok (db', book')) :
    Sys.Step ⟨db, held⟩ (.funds .setWithdrawalWallet) ⟨db', held⟩ := by
  obtain ⟨row, c, hchanges⟩ := Auth.verifyWithdrawalWallet_eq_ok.mp h
  obtain ⟨value, hvalue⟩ := hs.wallet hchanges.issued
  have hset : setWithdrawalWallet db m c.newWallet = .ok db' := by
    simp only [setWithdrawalWallet, bind_eq_ok, memberLock, fetch_eq_ok, pure_eq_ok]
    exact ⟨_, address_address hvalue, row, hchanges.known, hchanges.writes.symm⟩
  exact .funds (.setWithdrawalWallet hset)

/-- It is a whole one. -/
theorem Step.sys (hs : Wallets.Sound auths s.wallets) (ha : Whole (s, notes) e)
    (h : Step auths sha s e s') :
    s'.sys = s.sys ∨ ∃ a, Sys.Whole s.sys a ∧ Sys.Step s.sys a s'.sys := by
  have hfunds {a : FundsAction} (ha : Sys.FundsPart a = false) : Sys.Whole s.sys (.funds a) :=
    fun _ heq => by cases heq; exact ha
  have hwork {a : WorkAction} : Sys.Whole s.sys (.work a) := fun _ heq => by cases heq
  cases h with
  | challenged | issued | revoked | revokedExecution | authenticated => exact .inl rfl
  | signedIn _ _ _ h =>
      obtain ⟨_, _, hopens⟩ := SignIn.verify_eq_ok.mp h
      exact .inr ⟨_, hfunds rfl, .funds (.registerVerified hopens.registers)⟩
  | acted _ h =>
      cases h with
      | withdraw h => exact .inr ⟨_, hfunds rfl, .funds (.request h)⟩
      | cancelWithdrawal h => exact .inr ⟨_, hfunds rfl, .funds (.release h)⟩
      | askWallet => exact .inl rfl
      | setWallet _ h => exact .inr ⟨_, hfunds rfl, verify_sets hs h⟩
      | requestWork h => exact .inr ⟨_, hwork, .work (.create h)⟩
      | workStatus h => exact .inr ⟨_, hwork, .work (.get h)⟩
      | refreshWork h => exact .inr ⟨_, hwork, .work (.refresh h)⟩
      | acknowledge h => exact .inr ⟨_, hfunds rfl, .funds (.acknowledge h)⟩
      | results h => exact .inr ⟨_, hwork, .work (.results h)⟩
      | proofs h => exact .inr ⟨_, hwork, .work (.proofs h)⟩
  | declined h => exact .inr ⟨_, hfunds rfl, .funds (.release h)⟩
  | served h =>
      refine .inr ⟨_, fun part heq => ha part ?_, h⟩
      rw [heq]

/-! ## Runs -/

/-- The invariant rule, for a state and the notes. -/
theorem Reached.invariant {I : State → List Note → Prop} (h : Reached auths sha s notes)
    (h0 : ∀ s, Initial s → I s [])
    (hstep : ∀ s notes e s', Reached auths sha s notes → Whole (s, notes) e → I s notes →
      Step auths sha s e s' → I s' ((s.db.clock, e) :: notes)) : I s notes := by
  obtain ⟨s₀, h₀, hrun⟩ := h
  have hall : ∀ {t : State × List Note}, Leads (Watched (Step auths sha) watch) Whole (s₀, []) t →
      I t.1 t.2 := by
    intro t hrun
    induction hrun with
    | refl => exact h0 s₀ h₀
    | step hbefore ha hs ih =>
        cases hs with
        | step hs => exact hstep _ _ _ _ ⟨s₀, h₀, hbefore⟩ ha ih hs
  exact hall hrun

theorem Reached.step (h : Reached auths sha s notes) (ha : Whole (s, notes) e)
    (hs : Step auths sha s e s') : Reached auths sha s' ((s.db.clock, e) :: notes) := by
  obtain ⟨s₀, h₀, hrun⟩ := h
  exact ⟨s₀, h₀, hrun.step ha (.step hs)⟩

theorem Reached.below (h : Reached auths sha s notes) :
    Wallets.Sound auths s.wallets ∧ s.sys.Works := by
  refine h.invariant (I := fun s _ => Wallets.Sound auths s.wallets ∧ s.sys.Works)
    (fun s hs => ⟨hs.wallets.sound, _, ⟨hs.wallets.sys, hs.uploads⟩, .refl⟩) ?_
  rintro s notes e s' - ha ⟨hsound, hworks⟩ hstep
  constructor
  · rcases hstep.wallets with heq | ⟨_, hw⟩
    · rw [heq]
      exact hsound
    · exact hsound.step hw
  · rcases hstep.sys hsound ha with heq | ⟨a, hwhole, hsys⟩
    · rw [heq]
      exact hworks
    · exact hworks.step hwhole hsys

/-! ## Tokens -/

namespace Opens

variable {digest digest' : String} {m m' : Uuid} {kind kind' : TokenKind} {opened opened' : Time}
  {n : Note}

/-- A note opens one token. -/
theorem unique (h : Opens digest m kind opened n) (h' : Opens digest' m' kind' opened' n) :
    digest' = digest ∧ m' = m ∧ kind' = kind ∧ opened' = opened := by
  cases h with
  | wallet =>
      cases h' with
      | wallet => exact ⟨rfl, rfl, rfl, rfl⟩
  | execution =>
      cases h' with
      | execution => exact ⟨rfl, rfl, rfl, rfl⟩

theorem not_ends (h : Opens digest m kind opened n) : ¬ Ends digest' m' n := fun hends => by
  cases h with
  | wallet => cases hends
  | execution => cases hends

theorem noted (h : Opens digest m kind opened n) : n.1 = opened := by
  cases h with
  | wallet => rfl
  | execution => rfl

end Opens

/-- What a step does to the tokens, by its note. -/
inductive Turns (n : Note) (book book' : SessionBook) : Prop
  | rests : book'.tokens = book.tokens →
      (∀ digest m kind opened, ¬ Opens digest m kind opened n) →
      (∀ digest m, ¬ Ends digest m n) → Turns n book book'
  | opens {digest : String} {row : AccessToken} : book.tokens.lookup digest = none →
      Opens digest row.memberId row.kind n.1 n →
      row.expiresAt = n.1 + row.kind.lifetime → row.revokedAt = none →
      book'.tokens = AList.insert digest row book.tokens → Turns n book book'
  | revokes {digest : String} {m : Uuid} : n.2 = .revoked m digest →
      SignIn.Revokes book m digest book' → Turns n book book'

theorem Step.turns (h : Step auths sha s e s') :
    Turns (s.db.clock, e) s.sessions s'.sessions := by
  cases h with
  | challenged _ h =>
      refine .rests ?_ (fun _ _ _ _ h => by cases h) (fun _ _ h => by cases h)
      rw [(SignIn.challenge_spec h).records]
  | @signedIn db db' _ _ _ _ _ _ _ _ _ _ _ _ _ _ hrow hsigner h =>
      obtain ⟨row, signer, hopens⟩ := SignIn.verify_eq_ok.mp h
      have hclock := (registerVerified_wallet hopens.registers).1
      rw [hopens.records]
      refine .opens hopens.fresh .wallet ?_ rfl rfl
      rw [SignIn.issued, hclock]
  | issued _ h =>
      obtain ⟨-, hfresh, rfl⟩ := SignIn.issueExecutionToken_eq_ok.mp h
      exact .opens hfresh .execution rfl rfl rfl
  | revoked _ hauth h =>
      obtain ⟨m', hauth', hrevokes⟩ := SignIn.revoke_spec h
      obtain rfl := Except.ok.inj (hauth.symm.trans hauth')
      exact .revokes rfl hrevokes
  | revokedExecution _ h => exact .revokes rfl (SignIn.revokeExecutionToken_spec h)
  | _ => exact .rests rfl (fun _ _ _ _ h => by cases h) (fun _ _ h => by cases h)

/-- The table of tokens says of each what the notes say. -/
structure Tracks (book : SessionBook) (notes : List Note) : Prop where
  token : ∀ {digest row}, book.tokens.lookup digest = some row → ∃ opened,
    row.expiresAt = opened + row.kind.lifetime ∧
    (∃ n ∈ notes, Opens digest row.memberId row.kind opened n) ∧
    (row.revokedAt = none ↔ Session digest row.memberId row.kind opened notes)
  opened : ∀ {n digest m kind opened}, n ∈ notes → Opens digest m kind opened n →
    ∃ row, book.tokens.lookup digest = some row ∧ row.memberId = m ∧ row.kind = kind ∧
      row.expiresAt = opened + kind.lifetime

namespace Tracks

variable {book book' : SessionBook} {n : Note}

theorem of_empty (h : book = SessionBook.empty) : Tracks book [] where
  token hrow := by
    rw [h] at hrow
    cases hrow
  opened hn := by cases hn

/-- A token as it was, under a note about another. -/
theorem skip (h : Tracks book notes) {digest : String} {row : AccessToken}
    (hrow : book.tokens.lookup digest = some row)
    (hopens : ∀ opened, ¬ Opens digest row.memberId row.kind opened n)
    (hends : ¬ Ends digest row.memberId n) : ∃ opened,
      row.expiresAt = opened + row.kind.lifetime ∧
      (∃ k ∈ n :: notes, Opens digest row.memberId row.kind opened k) ∧
      (row.revokedAt = none ↔ Session digest row.memberId row.kind opened (n :: notes)) := by
  obtain ⟨opened, hexpires, ⟨k, hk, hopened⟩, hiff⟩ := h.token hrow
  refine ⟨opened, hexpires, ⟨k, List.mem_cons_of_mem _ hk, hopened⟩, ?_⟩
  rw [hiff, Session, Session, Since.skip (hopens opened) hends]

theorem step (h : Tracks book notes) (hturns : Turns n book book') : Tracks book' (n :: notes) := by
  cases hturns with
  | rests heq hopens hends =>
      refine ⟨fun {digest row} hrow => ?_, fun {k digest m kind opened} hk hopened => ?_⟩
      · rw [heq] at hrow
        exact h.skip hrow (fun _ => hopens _ _ _ _) (hends _ _)
      · rw [heq]
        rcases List.mem_cons.mp hk with rfl | hk
        · exact absurd hopened (hopens _ _ _ _)
        · exact h.opened hk hopened
  | @opens digest₀ row₀ hfresh hopens₀ hexpires hunrevoked heq =>
      refine ⟨fun {digest row} hrow => ?_, fun {k digest m kind opened} hk hopened => ?_⟩
      · rw [heq] at hrow
        rcases Table.lookup_insert_cases hrow with ⟨rfl, rfl⟩ | ⟨hne, hrow⟩
        · exact ⟨n.1, hexpires, ⟨n, List.mem_cons_self .., hopens₀⟩,
            iff_of_true hunrevoked (.here hopens₀)⟩
        · refine h.skip hrow (fun _ hopens => hne ?_) hopens₀.not_ends
          exact (hopens₀.unique hopens).1
      · rw [heq]
        rcases List.mem_cons.mp hk with rfl | hk
        · obtain ⟨rfl, rfl, rfl, rfl⟩ := hopens₀.unique hopened
          exact ⟨row₀, AList.lookup_insert _, rfl, rfl, hexpires⟩
        · obtain ⟨row, hrow, hspec⟩ := h.opened hk hopened
          refine ⟨row, ?_, hspec⟩
          rw [← hrow]
          refine AList.lookup_insert_ne ?_
          rintro rfl
          rw [hfresh] at hrow
          cases hrow
  | @revokes digest₀ m₀ hnote hrevokes =>
      have hopens : ∀ digest m kind opened, ¬ Opens digest m kind opened n :=
        fun digest m kind opened hopens => hopens.not_ends (show Ends digest₀ m₀ n from hnote)
      refine ⟨fun {digest row} hrow => ?_, fun {k digest m kind opened} hk hopened => ?_⟩
      · by_cases hends : Ends digest row.memberId n
        · -- The member's token, which is dead now.
          obtain ⟨rfl, rfl⟩ : row.memberId = m₀ ∧ digest = digest₀ := by
            have heq := hends.symm.trans hnote
            exact Event.revoked.inj heq
          obtain ⟨row', hrow', hsame⟩ := (hrevokes.tokens digest).back (.refl row)
            (fun _ ht => ht) hrow
          obtain ⟨opened, hexpires, ⟨k, hk, hopened⟩, -⟩ := h.token hrow'
          rw [hsame.kind, hsame.expiresAt, hsame.memberId]
          refine ⟨opened, hexpires, ⟨k, List.mem_cons_of_mem _ hk, hopened⟩, ?_⟩
          have hdead := hrevokes.revoked hrow rfl
          refine iff_of_false (fun hnone => ?_) fun hstands => ?_
          · rw [hnone] at hdead
            cases hdead
          · rcases Since.cons_iff.mp hstands with hopens' | ⟨-, hnot⟩
            · exact hopens _ _ _ _ hopens'
            · rw [← hsame.memberId] at hnot
              exact hnot hends
        · refine h.skip ?_ (fun _ => hopens _ _ _ _) hends
          cases hrevokes with
          | none => exact hrow
          | one hrow₀ hmember =>
              rcases Table.lookup_insert_cases hrow with ⟨rfl, rfl⟩ | ⟨-, hrow⟩
              · exact absurd (hnote.trans (by rw [← hmember])) hends
              · exact hrow
      · rcases List.mem_cons.mp hk with rfl | hk
        · exact absurd hopened (hopens _ _ _ _)
        · obtain ⟨row, hrow, hmember, hkind, hexpires⟩ := h.opened hk hopened
          obtain ⟨row', hrow', hsame⟩ := (hrevokes.tokens digest).relates (.refl row)
            (fun _ ht => ht) hrow
          exact ⟨row', hrow', hsame.memberId.trans hmember, hsame.kind.trans hkind,
            hsame.expiresAt.trans hexpires⟩

/-- A token on record is open exactly when the notes say so. -/
theorem stands_iff (h : Tracks book notes) {digest : String} {m : Uuid} {kind : TokenKind}
    {now : Time} : Stands digest m kind now notes ↔ ∃ row,
      book.tokens.lookup digest = some row ∧ row.memberId = m ∧ row.kind = kind ∧
        row.isLive now = true := by
  simp only [AccessToken.isLive, decide_eq_true_eq]
  constructor
  · rintro ⟨opened, hsession, hnow⟩
    obtain ⟨n, hn, hopens⟩ := hsession.once
    obtain ⟨row, hrow, rfl, rfl, hexpires⟩ := h.opened hn hopens
    obtain ⟨opened', hexpires', -, hiff⟩ := h.token hrow
    obtain rfl : opened' = opened := add_right_cancel (hexpires'.symm.trans hexpires)
    exact ⟨row, hrow, rfl, rfl, hiff.mpr hsession, by rw [hexpires]; exact hnow⟩
  · rintro ⟨row, hrow, rfl, rfl, hunrevoked, hnow⟩
    obtain ⟨opened, hexpires, -, hiff⟩ := h.token hrow
    rw [hexpires] at hnow
    exact ⟨opened, hiff.mp hunrevoked, hnow⟩

/-- A token is opened once. -/
theorem unique (h : Tracks book notes) {digest : String} {m m' : Uuid} {kind kind' : TokenKind}
    {opened opened' : Time} {n n' : Note} (hn : n ∈ notes) (hn' : n' ∈ notes)
    (hopens : Opens digest m kind opened n) (hopens' : Opens digest m' kind' opened' n') :
    m = m' ∧ kind = kind' ∧ opened = opened' := by
  obtain ⟨row, hrow, rfl, rfl, hexpires⟩ := h.opened hn hopens
  obtain ⟨row', hrow', rfl, rfl, hexpires'⟩ := h.opened hn' hopens'
  obtain rfl := Option.some.inj (hrow.symm.trans hrow')
  exact ⟨rfl, rfl, add_right_cancel (hexpires.symm.trans hexpires')⟩

end Tracks

theorem Reached.tracks (h : Reached auths sha s notes) : Tracks s.sessions notes :=
  h.invariant (I := fun s notes => Tracks s.sessions notes) (fun _ hs => .of_empty hs.sessions)
    fun _ _ _ _ _ _ ht hstep => ht.step hstep.turns

/-- A token is accepted exactly when a session that stands was opened with it. -/
theorem Reached.authenticate_iff (h : Reached auths sha s notes) {auth : Auth} {token : String}
    {wallet : Bool} {m : Uuid} :
    SignIn.authenticate ⟨auth, sha⟩ s.db s.sessions token wallet = .ok m ↔
      (32 ≤ token.length ∧ token.length ≤ 128) ∧ ∃ kind,
        Stands (sha token) m kind s.db.clock notes ∧ (wallet = true → kind = .wallet) := by
  rw [SignIn.authenticate_eq_ok]
  refine and_congr_right fun _ => ?_
  simp only [h.tracks.stands_iff, AccessToken.admits, decide_eq_true_eq]
  constructor
  · rintro ⟨row, hrow, ⟨hlive, hkind⟩, hmember⟩
    exact ⟨row.kind, ⟨row, hrow, hmember, rfl, hlive⟩, hkind⟩
  · rintro ⟨_, ⟨row, hrow, hmember, rfl, hlive⟩, hkind⟩
    exact ⟨row, hrow, ⟨hlive, hkind⟩, hmember⟩

/-! ## Challenges -/

/-- The challenges on record are those of the notes, used once their answer is noted. -/
structure Asked (book : SessionBook) (notes : List Note) : Prop where
  asked : ∀ {id row}, book.challenges.lookup id = some row → ∃ asked,
    (asked, Event.challenged id row.wallet row.message) ∈ notes ∧
    row.expiresAt = asked + seconds 300
  used : ∀ {t id text signature signer m digest},
    (t, Event.signedIn id text signature signer m digest) ∈ notes →
    ∃ row, book.challenges.lookup id = some row ∧ row.usedAt.isSome

namespace Asked

variable {book book' : SessionBook} {n : Note}

theorem of_empty (h : book = SessionBook.empty) : Asked book [] where
  asked hrow := by
    rw [h] at hrow
    cases hrow
  used hn := by cases hn

theorem skip (h : Asked book notes) (heq : book'.challenges = book.challenges)
    (hn : ∀ id text signature signer m digest,
      n.2 ≠ .signedIn id text signature signer m digest) : Asked book' (n :: notes) where
  asked hrow := by
    rw [heq] at hrow
    obtain ⟨asked, hasked, hexpires⟩ := h.asked hrow
    exact ⟨asked, List.mem_cons_of_mem _ hasked, hexpires⟩
  used hmem := by
    rw [heq]
    rcases List.mem_cons.mp hmem with rfl | hmem
    · exact absurd rfl (hn _ _ _ _ _ _)
    · exact h.used hmem

theorem step (h : Asked s.sessions notes) (hstep : Step auths sha s e s') :
    Asked s'.sessions ((s.db.clock, e) :: notes) := by
  cases hstep with
  | challenged _ hchallenge =>
      have hinvites := SignIn.challenge_spec hchallenge
      refine ⟨fun {id row} hrow => ?_, fun {t id text signature signer m digest} hmem => ?_⟩
      · simp only [hinvites.records] at hrow
        rcases Table.lookup_insert_cases hrow with ⟨rfl, rfl⟩ | ⟨-, hrow⟩
        · exact ⟨_, List.mem_cons_self .., hinvites.expiresAt⟩
        · obtain ⟨asked, hasked, hexpires⟩ := h.asked hrow
          exact ⟨asked, List.mem_cons_of_mem _ hasked, hexpires⟩
      · rcases List.mem_cons.mp hmem with heq | hmem
        · cases heq
        · obtain ⟨row, hrow, hused⟩ := h.used hmem
          refine ⟨row, ?_, hused⟩
          simp only [hinvites.records]
          rw [← hrow]
          refine AList.lookup_insert_ne ?_
          rintro rfl
          rw [hinvites.fresh] at hrow
          cases hrow
  | @signedIn _ _ _ _ _ _ _ _ challenge _ _ _ _ row₀ _ _ hrow₀ _ hverify =>
      obtain ⟨row₁, signer, hopens⟩ := SignIn.verify_eq_ok.mp hverify
      obtain rfl := Option.some.inj (hrow₀.symm.trans hopens.asked)
      refine ⟨fun {id row} hrow => ?_, fun {t id text signature signer m digest} hmem => ?_⟩
      · simp only [hopens.records] at hrow
        rcases Table.lookup_insert_cases hrow with ⟨rfl, rfl⟩ | ⟨-, hrow⟩
        · obtain ⟨asked, hasked, hexpires⟩ := h.asked hrow₀
          exact ⟨asked, List.mem_cons_of_mem _ hasked, hexpires⟩
        · obtain ⟨asked, hasked, hexpires⟩ := h.asked hrow
          exact ⟨asked, List.mem_cons_of_mem _ hasked, hexpires⟩
      · simp only [hopens.records]
        by_cases hid : id = challenge
        · rw [hid]
          exact ⟨_, AList.lookup_insert _, rfl⟩
        · rcases List.mem_cons.mp hmem with heq | hmem
          · exact absurd (by cases heq; rfl) hid
          · obtain ⟨row, hrow, hused⟩ := h.used hmem
            exact ⟨row, by rw [← hrow]; exact AList.lookup_insert_ne hid, hused⟩
  | issued _ hissue =>
      obtain ⟨-, -, rfl⟩ := SignIn.issueExecutionToken_eq_ok.mp hissue
      exact h.skip rfl nofun
  | revoked _ _ hrevoke =>
      obtain ⟨_, -, hrevokes⟩ := SignIn.revoke_spec hrevoke
      exact h.skip hrevokes.challenges nofun
  | revokedExecution _ hrevoke =>
      exact h.skip (SignIn.revokeExecutionToken_spec hrevoke).challenges nofun
  | _ => exact h.skip rfl nofun

end Asked

theorem Reached.asked (h : Reached auths sha s notes) : Asked s.sessions notes :=
  h.invariant (I := fun s notes => Asked s.sessions notes) (fun _ hs => .of_empty hs.sessions)
    fun _ _ _ _ _ _ ht hstep => ht.step hstep

/-! ## Grants -/

/-- The note found the member for a request that takes such a session. -/
def finds (g : Uuid × Bool) : Note → Bool
  | (_, .authenticated _ m wallet) => (m, wallet) = g
  | _ => false

/-- The note is the transaction of such a request. -/
def uses (g : Uuid × Bool) : Note → Bool
  | (_, .acted m call) => (m, call.wallet) = g
  | _ => false

/-- A request acts once. -/
theorem Reached.granted (h : Reached auths sha s notes) (g : Uuid × Bool) :
    s.grants.count g + notes.countP (uses g) ≤ notes.countP (finds g) := by
  refine h.invariant
    (I := fun s notes => s.grants.count g + notes.countP (uses g) ≤ notes.countP (finds g)) ?_ ?_
  · intro s hs
    rw [hs.grants]
    exact le_rfl
  rintro s notes e s' - - ih hstep
  cases hstep with
  | authenticated =>
      rename_i w book grants auth token wallet m _ _
      simp only [List.countP_cons, List.count_cons, finds, uses, beq_iff_eq, decide_eq_true_eq]
      change grants.count g + _ ≤ _ at ih
      split <;> simp <;> omega
  | acted hgrant hacts =>
      rename_i w w' book grants m call
      simp only [List.countP_cons, List.count_erase, finds, uses, beq_iff_eq, decide_eq_true_eq]
      change grants.count g + _ ≤ _ at ih
      by_cases heq : (m, call.wallet) = g
      · rw [heq] at hgrant
        have hpos := List.count_pos_iff.mpr hgrant
        simp [heq]
        omega
      · simp [heq]
        omega
  | revokedExecution hgrant hrevoke =>
      rename_i w book book' grants digest m
      have hle := (List.erase_sublist (a := (m, true)) (l := grants)).count_le g
      simp only [List.countP_cons, finds, uses]
      change grants.count g + _ ≤ _ at ih
      simp
      omega
  | _ =>
      simp only [List.countP_cons, finds, uses]
      simpa using ih

/-- A member who is found for a request was found by a token. -/
theorem Reached.found (h : Reached auths sha s notes) {m : Uuid} {wallet : Bool}
    (hgrant : (m, wallet) ∈ s.grants) : ∃ t digest, (t, .authenticated digest m wallet) ∈ notes := by
  have hpos : 0 < notes.countP (finds (m, wallet)) :=
    lt_of_lt_of_le (List.count_pos_iff.mpr hgrant)
      (le_trans (Nat.le_add_right _ _) (h.granted (m, wallet)))
  obtain ⟨⟨t, e⟩, hmem, hfinds⟩ := List.countP_pos_iff.mp hpos
  cases e with
  | authenticated digest m' wallet' =>
      obtain ⟨rfl, rfl⟩ := Prod.mk.inj (of_decide_eq_true hfinds)
      exact ⟨t, digest, hmem⟩
  | _ => cases hfinds

/-! ## Each note is in order -/

/-- What a note rests on, among those before it. -/
def InOrder (auths : Set Auth) (before : List Note) : Note → Prop
  | (t, .signedIn id text signature signer _ _) =>
      (∃ auth ∈ auths, auth.recover text signature = some signer ∧
        ∀ sha, SignIn.invited ⟨auth, sha⟩ text = true) ∧
      (∃ asked, (asked, .challenged id signer.toLower text) ∈ before ∧ t < asked + seconds 300) ∧
      ∀ n ∈ before, ∀ text' signature' signer' m' digest',
        n.2 ≠ .signedIn id text' signature' signer' m' digest'
  | (t, .issued session _ m) => Stands session m .wallet t before
  | (t, .authenticated digest m wallet) =>
      ∃ kind, Stands digest m kind t before ∧ (wallet = true → kind = .wallet)
  | (t, .revoked m _) => (∃ session, Stands session m .wallet t before) ∨
      ∃ t' digest, (t', .authenticated digest m true) ∈ before
  | (_, .acted m call) => ∃ t' digest, (t', .authenticated digest m call.wallet) ∈ before
  | _ => True

theorem Step.inOrder (h : Reached auths sha s notes) (hstep : Step auths sha s e s') :
    InOrder auths notes (s.db.clock, e) := by
  cases hstep with
  | challenged => trivial
  | @signedIn _ _ _ _ _ _ _ auth challenge _ _ _ _ row₀ _ hauth hrow₀ hsigner hverify =>
      obtain ⟨row₁, signer₁, hopens⟩ := SignIn.verify_eq_ok.mp hverify
      obtain rfl := Option.some.inj (hrow₀.symm.trans hopens.asked)
      obtain rfl := Option.some.inj (hsigner.symm.trans hopens.signed)
      have hopen := hopens.isOpen
      simp only [AuthChallenge.isOpen, decide_eq_true_eq] at hopen
      obtain ⟨asked, hasked, hexpires⟩ := h.asked.asked hrow₀
      refine ⟨⟨auth, hauth, hsigner, fun _ => hopens.invited⟩, ⟨asked, ?_, ?_⟩, ?_⟩
      · rw [hopens.wallet]
        exact hasked
      · rw [← hexpires]
        exact hopen.2
      · rintro ⟨t, _⟩ hn text' signature' signer' m' digest' rfl
        obtain ⟨row, hrow, hused⟩ := h.asked.used hn
        obtain rfl := Option.some.inj (hrow₀.symm.trans hrow)
        rw [hopen.1] at hused
        cases hused
  | issued hauth hissue =>
      obtain ⟨hfound, -, -⟩ := SignIn.issueExecutionToken_eq_ok.mp hissue
      obtain ⟨-, kind, hstands, hkind⟩ := h.authenticate_iff.mp hfound
      obtain rfl := hkind rfl
      exact hstands
  | revoked hauth hfound _ =>
      obtain ⟨-, kind, hstands, hkind⟩ := h.authenticate_iff.mp hfound
      obtain rfl := hkind rfl
      exact .inl ⟨_, hstands⟩
  | revokedExecution hgrant _ => exact .inr (h.found hgrant)
  | authenticated hauth hfound => exact (h.authenticate_iff.mp hfound).2
  | acted hgrant _ => exact h.found hgrant
  | declined => trivial
  | served => trivial

theorem Reached.inOrder (h : Reached auths sha s notes) : Throughout (InOrder auths) notes :=
  h.invariant (I := fun _ notes => Throughout (InOrder auths) notes) (fun _ _ => .nil)
    fun _ _ _ _ hbefore _ ht hstep => ht.cons (hstep.inOrder hbefore)

/-! ## What the table of tokens tells -/

/-- The note answers the challenge. -/
def answers (id : Uuid) : Note → Bool
  | (_, .signedIn challenge ..) => challenge = id
  | _ => false

/-- A challenge opens one session at most. -/
theorem Reached.answered_once (h : Reached auths sha s notes) (id : Uuid) :
    notes.countP (answers id) ≤ 1 := by
  refine h.inOrder.once fun before n hn hanswers k hk => ?_
  obtain ⟨t, e⟩ := n
  cases e with
  | signedIn challenge text signature signer m digest =>
      obtain rfl := of_decide_eq_true hanswers
      obtain ⟨-, -, hnot⟩ := hn
      obtain ⟨t', e'⟩ := k
      cases e' with
      | signedIn challenge' text' signature' signer' m' digest' =>
          refine decide_eq_false ?_
          rintro rfl
          exact hnot _ hk _ _ _ _ _ rfl
      | _ => rfl
  | _ => cases hanswers

/-- A token that was opened is not opened again. -/
theorem Reached.opened_once (h : Reached auths sha s notes) :
    Throughout (fun before n => ∀ {digest m kind opened}, Opens digest m kind opened n →
      ∀ k ∈ before, ∀ m' kind' opened', ¬ Opens digest m' kind' opened' k) notes := by
  refine h.invariant (I := fun _ notes => Throughout (fun before n =>
    ∀ {digest m kind opened}, Opens digest m kind opened n →
      ∀ k ∈ before, ∀ m' kind' opened', ¬ Opens digest m' kind' opened' k) notes)
    (fun _ _ => .nil) ?_
  rintro s notes e s' hbefore - ih hstep
  refine ih.cons fun {digest m kind opened} hopens k hk m' kind' opened' hopens' => ?_
  obtain ⟨row, hrow, -⟩ := hbefore.tracks.opened hk hopens'
  cases hstep.turns with
  | rests _ hnot => exact hnot _ _ _ _ hopens
  | opens hfresh hopens₀ =>
      obtain ⟨rfl, -⟩ := hopens₀.unique hopens
      rw [hfresh] at hrow
      cases hrow
  | @revokes digest₀ m₀ hnote => exact hopens.not_ends (show Ends digest₀ m₀ _ from hnote)

/-- A token that its member has revoked is dead. -/
theorem Reached.revoked_dead {behind before : List Note} {t : Time} {m : Uuid} {digest : String}
    (h : Reached auths sha s (behind ++ (t, .revoked m digest) :: before)) {n : Note}
    {kind : TokenKind} {opened : Time} (hn : n ∈ before) (hopens : Opens digest m kind opened n)
    {m' : Uuid} {kind' : TokenKind} {now : Time} :
    ¬ Stands digest m' kind' now (behind ++ (t, .revoked m digest) :: before) := by
  rintro ⟨opened', hsession, -⟩
  refine Since.ended ?_ ?_ (fun k hk hopens' => ?_) hsession
  · obtain ⟨n', hn', hopens'⟩ := hsession.once
    have hmem : n ∈ behind ++ (t, Event.revoked m digest) :: before :=
      List.mem_append_right _ (List.mem_cons_of_mem _ hn)
    obtain ⟨rfl, -⟩ := h.tracks.unique hmem hn' hopens hopens'
    rfl
  · exact fun hopens' => hopens'.not_ends (show Ends digest m _ from rfl)
  · -- A start behind the revocation would open the token again.
    obtain ⟨late, early, rfl⟩ := List.append_of_mem hk
    have honce := h.opened_once
    rw [List.append_assoc, List.cons_append] at honce
    exact honce.at_note hopens' n (List.mem_append_right _ (List.mem_cons_of_mem _ hn)) _ _ _ hopens

/-- In every run of the service: a token is accepted, for a member, exactly when the notes say that
it was opened for the member, is not over and was not revoked since; only one opened by a signature is
a session of the wallet.  A token is opened once, a challenge answered once, and a token that
its member has revoked is never accepted again. -/
theorem tokens_tell (h : Reached auths sha s notes) :
    (∀ auth token wallet m,
      SignIn.authenticate ⟨auth, sha⟩ s.db s.sessions token wallet = .ok m ↔
        (32 ≤ token.length ∧ token.length ≤ 128) ∧ ∃ kind,
          Stands (sha token) m kind s.db.clock notes ∧ (wallet = true → kind = .wallet)) ∧
    Throughout (fun before n => ∀ digest m kind opened, Opens digest m kind opened n →
      ∀ k ∈ before, ∀ m' kind' opened', ¬ Opens digest m' kind' opened' k) notes ∧
    (∀ id, notes.countP (answers id) ≤ 1) ∧
    ∀ behind before t m digest, notes = behind ++ (t, .revoked m digest) :: before →
      (∃ n ∈ before, ∃ kind opened, Opens digest m kind opened n) →
      ∀ auth token wallet m', sha token = digest →
        SignIn.authenticate ⟨auth, sha⟩ s.db s.sessions token wallet ≠ .ok m' := by
  refine ⟨fun _ _ _ _ => h.authenticate_iff, h.opened_once.mono fun _ _ hn _ _ _ _ => hn,
    h.answered_once, ?_⟩
  rintro behind before t m digest rfl ⟨n, hn, kind, opened, hopens⟩ auth token wallet m' rfl hok
  obtain ⟨-, kind', hstands, -⟩ := h.authenticate_iff.mp hok
  exact h.revoked_dead hn hopens hstands

namespace MemberDay

open WalletDay (home auth sign)

/-- Texts with a mark before them. -/
def mark (token : String) : String := "digest of " ++ token

def signIn : SignIn := ⟨auth, mark⟩

def walletToken : String := "wallet-session-token-of-a-member"
def executionToken : String := "execution-token-that-is-revoked."

/-- The accounts are there. -/
def opened : Db := (initializeAccounts migrated).toOption.getD migrated

/-- The member is known. -/
def joined : Db := ((registerVerified opened home "member").toOption.getD (migrated, "")).1

def asked : AuthChallenge where
  wallet := home
  message := signIn.invitation home "nonce" 0 (0 + seconds 300) "challenge"
  expiresAt := 0 + seconds 300
  usedAt := none

def invited : SessionBook := ⟨AList.insert "challenge" asked ∅, ∅⟩

/-- The wallet's session is open. -/
def welcomed : SessionBook where
  challenges := AList.insert "challenge" { asked with usedAt := some 0 } invited.challenges
  tokens := AList.insert (mark walletToken) (SignIn.issued joined "member" .wallet) ∅

def equipped : SessionBook where
  challenges := welcomed.challenges
  tokens := AList.insert (mark executionToken) (SignIn.issued joined "member" .execution)
    welcomed.tokens

/-- The execution token is revoked. -/
def sessions : SessionBook where
  challenges := welcomed.challenges
  tokens := AList.insert (mark executionToken)
    { SignIn.issued joined "member" .execution with revokedAt := some 0 } equipped.tokens

/-- What has happened, the newest first. -/
def found : List Note :=
  [(0, .revoked "member" (mark executionToken)),
   (0, .authenticated (mark walletToken) "member" true),
   (0, .issued (mark walletToken) (mark executionToken) "member"),
   (0, .signedIn "challenge" asked.message (sign home asked.message) home "member"
     (mark walletToken)),
   (0, .challenged "challenge" home asked.message),
   (0, .served (.funds .initializeAccounts))]

def between : State := ⟨⟨⟨joined, Held.empty⟩, .empty⟩, sessions, [("member", true)]⟩

/-- What evaluation says of the day. -/
theorem evaluated : opened.clock = 0 ∧ joined.clock = 0 ∧
    (registerVerified opened home "member").toOption.isSome = true ∧
    ((registerVerified opened home "member").toOption.getD (migrated, "")).2 = "member" ∧
    (initializeAccounts migrated).toOption.isSome = true ∧
    (32 ≤ walletToken.length ∧ walletToken.length ≤ 128) ∧
    mark walletToken ≠ mark executionToken ∧
    asked.isOpen opened.clock = true ∧
    (SignIn.issued joined "member" .wallet).admits true joined.clock = true ∧
    welcomed.tokens.lookup (mark executionToken) = none := by
  refine ⟨?_, ?_, ?_, ?_, ?_, ?_, ?_, ?_, ?_, ?_⟩ <;> decide +kernel

theorem clock_opened : opened.clock = 0 := evaluated.1

theorem clock_joined : joined.clock = 0 := evaluated.2.1

theorem registers : registerVerified opened home "member" = .ok (joined, "member") := by
  obtain ⟨-, -, hsome, hmember, -⟩ := evaluated
  have hout := @eq_ok_getD _ _ (registerVerified opened home "member") (migrated, "") hsome
  rw [hout, ← hmember]
  rfl

theorem whole_of {t : State × List Note} {e : Event} (h : ∀ a, e ≠ .served a) : Whole t e :=
  fun _ heq => absurd heq (h _)

theorem signs_in : SignIn.Opens signIn opened invited "challenge" (sign home asked.message)
    "member" walletToken joined welcomed "member" asked home where
  asked := AList.lookup_insert _
  isOpen := evaluated.2.2.2.2.2.2.2.1
  invited := SignIn.invited_invitation
  signed := WalletDay.recover_sign (by decide) _
  wallet := WalletDay.holder_toLower (by decide)
  registers := registers
  fresh := rfl
  records := by
    rw [clock_joined]
    rfl

/-- The session of the wallet is found. -/
theorem finds_wallet {book : SessionBook}
    (h : book.tokens.lookup (mark walletToken) = some (SignIn.issued joined "member" .wallet)) :
    signIn.authenticate joined book walletToken true = .ok "member" := by
  exact SignIn.authenticate_eq_ok.mpr
    ⟨evaluated.2.2.2.2.2.1, _, h, evaluated.2.2.2.2.2.2.2.2.1, rfl⟩

theorem tokens_differ : mark walletToken ≠ mark executionToken := evaluated.2.2.2.2.2.2.1

/-- The service before the member asks for money. -/
theorem reached_between : Reached {auth} mark between found := by
  have hinitial : Reached {auth} mark ⟨⟨⟨migrated, Held.empty⟩, .empty⟩, .empty, []⟩ [] :=
    ⟨_, ⟨⟨Sys.initial_migrated, rfl⟩, rfl, rfl, rfl⟩, .refl⟩
  have haccounts : initializeAccounts migrated = .ok opened := eq_ok_getD evaluated.2.2.2.2.1
  have hopened := hinitial.step (e := .served (.funds .initializeAccounts))
    (by simp [Whole, Sys.FundsPart]) (.served (.funds (.initializeAccounts haccounts)) rfl)
  have hchallenge : SignIn.challenge signIn opened .empty home "challenge" "nonce"
      = .ok (invited, asked) := by
    simp only [SignIn.challenge, bind_eq_ok, require_eq_ok, exists_const, pure_eq_ok]
    refine ⟨home, WalletDay.holder_address home (by decide), by decide, ?_⟩
    rw [clock_opened]
    rfl
  have hasked := hopened.step (whole_of (by simp)) (.challenged rfl hchallenge)
  have hverified := SignIn.verify_eq_ok.mpr ⟨_, _, signs_in⟩
  have hsigned := hasked.step (whole_of (by simp))
    (.signedIn rfl signs_in.asked signs_in.signed hverified)
  have hissue : SignIn.issueExecutionToken signIn joined welcomed walletToken executionToken
      = .ok (equipped, "member") := SignIn.issueExecutionToken_eq_ok.mpr
    ⟨finds_wallet (AList.lookup_insert _), evaluated.2.2.2.2.2.2.2.2.2, rfl⟩
  have hissued := hsigned.step (whole_of (by simp)) (.issued rfl hissue)
  have hwallet : equipped.tokens.lookup (mark walletToken)
      = some (SignIn.issued joined "member" .wallet) :=
    (AList.lookup_insert_ne tokens_differ).trans (AList.lookup_insert _)
  have hfound := hissued.step (whole_of (by simp)) (.authenticated rfl (finds_wallet hwallet))
  have hrevoke : SignIn.revoke signIn joined equipped walletToken executionToken
      = .ok sessions := by
    have hdigest : signIn.tokenDigest executionToken = mark executionToken := rfl
    simp only [SignIn.revoke, finds_wallet hwallet, hdigest, clock_joined]
    rfl
  have hrevoked := hfound.step (whole_of (by simp))
    (.revoked rfl (finds_wallet hwallet) hrevoke)
  rw [clock_joined, clock_opened] at hrevoked
  exact hrevoked

end MemberDay

/-- The session of the wallet is accepted, and the token that was revoked never is. -/
theorem tokens_tell_between : Reached {WalletDay.auth} MemberDay.mark MemberDay.between
      MemberDay.found ∧
    MemberDay.signIn.authenticate MemberDay.between.db MemberDay.between.sessions
      MemberDay.walletToken true = .ok "member" ∧
    ∀ auth token wallet m, MemberDay.mark token = MemberDay.mark MemberDay.executionToken →
      SignIn.authenticate ⟨auth, MemberDay.mark⟩ MemberDay.between.db MemberDay.between.sessions
        token wallet ≠ .ok m := by
  obtain ⟨haccepts, -, -, hdead⟩ := tokens_tell MemberDay.reached_between
  have hopen : Session (MemberDay.mark MemberDay.walletToken) "member" .wallet 0 MemberDay.found :=
    .later (.later (.later (.here .wallet) nofun) nofun) fun hends =>
      MemberDay.tokens_differ (Event.revoked.inj hends).2.symm
  refine ⟨MemberDay.reached_between, (haccepts _ _ _ _).mpr
    ⟨MemberDay.evaluated.2.2.2.2.2.1, .wallet, ⟨0, hopen, by decide +kernel⟩, fun _ => rfl⟩, ?_⟩
  exact hdead [] _ 0 "member" _ rfl
    ⟨_, List.mem_cons_of_mem _ (List.mem_cons_self ..), .execution, 0, .execution⟩

end MemberApi

end TigPool
