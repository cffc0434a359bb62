/-
# `TigPool.Sessions` — signing in, and the tokens that a signature opens

A wallet answers a challenge with its signature and gets a token: a session of the member whose
wallet it is.  A session issues execution tokens, which last longer and may do less.  The
service keeps no token but its digest, with the member, the kind and the time until which it
is good.

`SignIn` adds the digest of a token to what `Auth` takes from outside.
-/
import TigPool.Wallets
import TigPool.Basis.Evolution

namespace TigPool

open Basis

/-! ## Rows -/

inductive TokenKind where
  | wallet
  | execution
deriving DecidableEq

structure AuthChallenge where
  wallet : Address
  message : String
  expiresAt : Time
  usedAt : Option Time
deriving DecidableEq

/-- A row of `tokens`; its key is the digest. -/
structure AccessToken where
  memberId : Uuid
  kind : TokenKind
  expiresAt : Time
  revokedAt : Option Time
deriving DecidableEq

/-- The tables `auth_challenges` and `tokens`. -/
structure SessionBook where
  challenges : Table Uuid AuthChallenge
  tokens : Table String AccessToken

def SessionBook.empty : SessionBook := ⟨∅, ∅⟩

def AuthChallenge.isOpen (challenge : AuthChallenge) (now : Time) : Bool :=
  challenge.usedAt = none ∧ now < challenge.expiresAt

def AccessToken.isLive (token : AccessToken) (now : Time) : Bool :=
  token.revokedAt = none ∧ now < token.expiresAt

/-- Is it enough for the request, which may ask for a session of the wallet? -/
def AccessToken.admits (token : AccessToken) (wallet : Bool) (now : Time) : Bool :=
  token.isLive now ∧ (wallet = true → token.kind = .wallet)

def TokenKind.lifetime : TokenKind → Time
  | .wallet => seconds 900
  | .execution => days 30

/-! ## Operations -/

structure SignIn extends Auth where
  /-- `token_digest` -/
  tokenDigest : String → String

namespace SignIn

variable (auth : SignIn)

def welcome : String :=
  auth.domain ++ " wants you to sign in"

def invitation (wallet : Address) (nonce : String) (now expiry : Time) (identity : Uuid) :
    String :=
  auth.welcome ++ " with your Ethereum account:\n" ++ auth.checksum wallet ++
    "\n\nSign in to Community Pool to manage your member funds and execution tokens.\n" ++
    auth.deployment ++ "Nonce: " ++ nonce ++ "\nIssued At: " ++ auth.isoformat now ++
    "\nExpiration Time: " ++ auth.isoformat expiry ++ "\nRequest ID: " ++ identity

/-- Was the text written by this deployment, for signing in? -/
def invited (text : String) : Bool :=
  auth.welcome.toList <+: text.toList ∧ auth.deployment.toList <:+: text.toList

def challenge (db : Db) (book : SessionBook) (wallet : String) (identity : Uuid)
    (nonce : String) : Result (SessionBook × AuthChallenge) := do
  let wallet ← address wallet
  let expiry := db.clock + seconds 300
  let row : AuthChallenge :=
    { wallet, message := auth.invitation wallet nonce db.clock expiry identity,
      expiresAt := expiry, usedAt := none }
  require (identity ∉ book.challenges) (.integrity "auth_challenges_pkey")
  return ({ book with challenges := AList.insert identity row book.challenges }, row)

/-- `_issue`; the token is the random text that the caller has drawn. -/
def issue (db : Db) (book : SessionBook) (memberId : Uuid) (kind : TokenKind) (token : String) :
    Result SessionBook := do
  let digest := auth.tokenDigest token
  require (digest ∉ book.tokens) (.integrity "tokens_pkey")
  let row : AccessToken :=
    { memberId, kind, expiresAt := db.clock + kind.lifetime, revokedAt := none }
  return { book with tokens := AList.insert digest row book.tokens }

/-- Answer a challenge; `identity` is for a member who is not known yet. -/
def verify (db : Db) (book : SessionBook) (challengeId : Uuid) (signature : String)
    (identity : Uuid) (token : String) : Result (Db × SessionBook × Uuid) := do
  let challenge ← fetch ((book.challenges.lookup challengeId).filter (·.isOpen db.clock))
    (.value "challenge expired, consumed, or unknown")
  -- An old deployment origin or network opens no session after a change of the configuration.
  require (auth.invited challenge.message) (.value "challenge belongs to another deployment")
  let signer ← fetch (auth.recover challenge.message signature) (.value "invalid wallet signature")
  require (signer.toLower = challenge.wallet)
    (.value "signature does not match the requested wallet")
  let (db, memberId) ← registerVerified db signer identity
  let book := { book with
    challenges := AList.insert challengeId { challenge with usedAt := some db.clock }
      book.challenges }
  let book ← auth.issue db book memberId .wallet token
  return (db, book, memberId)

/-- The member whose token it is. -/
def authenticate (db : Db) (book : SessionBook) (token : String) (wallet : Bool := false) :
    Result Uuid := do
  require (32 ≤ token.length ∧ token.length ≤ 128) (.value "invalid token")
  let principal ← fetch
    ((book.tokens.lookup (auth.tokenDigest token)).filter (·.admits wallet db.clock))
    (.value (if wallet then "a valid wallet session is required" else "invalid or expired token"))
  return principal.memberId

def issueExecutionToken (db : Db) (book : SessionBook) (walletToken token : String) :
    Result (SessionBook × Uuid) := do
  let memberId ← auth.authenticate db book walletToken true
  let book ← auth.issue db book memberId .execution token
  return (book, memberId)

/-- `UPDATE tokens SET revoked_at`: the row is written if it belongs to the member. -/
def revoke (db : Db) (book : SessionBook) (walletToken tokenToRevoke : String) :
    Result SessionBook := do
  let memberId ← auth.authenticate db book walletToken true
  let digest := auth.tokenDigest tokenToRevoke
  match (book.tokens.lookup digest).filter (·.memberId = memberId) with
  | none => return book
  | some row => return { book with
      tokens := AList.insert digest { row with revokedAt := some db.clock } book.tokens }

end SignIn

/-- A hexadecimal SHA-256 digest. -/
def isDigest (text : String) : Bool :=
  text.toList.length = 64 ∧ text.toList.all fun c => ('0' ≤ c ∧ c ≤ '9') ∨ ('a' ≤ c ∧ c ≤ 'f')

/-- The endpoint that revokes an execution token by its digest; the session has been checked
in a transaction before.  Nothing is the answer `404`. -/
def revokeExecutionToken (db : Db) (book : SessionBook) (memberId : Uuid) (identity : String) :
    Option SessionBook := do
  guard (isDigest identity)
  let row ← (book.tokens.lookup identity).filter fun row =>
    row.memberId = memberId ∧ row.kind = .execution
  let row := { row with revokedAt := some (row.revokedAt.getD db.clock) }
  return { book with tokens := AList.insert identity row book.tokens }

/-! ## What they do -/

/-- The same challenge, perhaps used by now. -/
structure AuthChallenge.Turns (c c' : AuthChallenge) : Prop where
  terms : { c' with usedAt := c.usedAt } = c
  used : c.usedAt.isSome → c'.usedAt = c.usedAt

/-- The same token, perhaps revoked by now. -/
structure AccessToken.Turns (t t' : AccessToken) : Prop where
  terms : { t' with revokedAt := t.revokedAt } = t
  revoked : t.revokedAt.isSome → t'.revokedAt.isSome

namespace AccessToken.Turns

variable {t t' : AccessToken}

theorem refl (t : AccessToken) : t.Turns t := ⟨rfl, id⟩

theorem memberId (h : t.Turns t') : t'.memberId = t.memberId := by
  have h := congrArg AccessToken.memberId h.terms
  exact h

theorem kind (h : t.Turns t') : t'.kind = t.kind := by
  have h := congrArg AccessToken.kind h.terms
  exact h

theorem expiresAt (h : t.Turns t') : t'.expiresAt = t.expiresAt := by
  have h := congrArg AccessToken.expiresAt h.terms
  exact h

end AccessToken.Turns

namespace SignIn

variable {auth : SignIn} {db db' : Db} {book book' : SessionBook} {memberId identity : Uuid}
  {token : String}

/-- A deployment knows the texts it has written. -/
theorem invited_invitation {wallet : Address} {nonce : String} {now expiry : Time}
    {identity : Uuid} : auth.invited (auth.invitation wallet nonce now expiry identity) = true := by
  let before := auth.welcome ++ " with your Ethereum account:\n" ++ auth.checksum wallet ++
    "\n\nSign in to Community Pool to manage your member funds and execution tokens.\n"
  let behind := "Nonce: " ++ nonce ++ "\nIssued At: " ++ auth.isoformat now ++
    "\nExpiration Time: " ++ auth.isoformat expiry ++ "\nRequest ID: " ++ identity
  rw [invited, decide_eq_true_eq]
  refine ⟨?_, before.toList, behind.toList, ?_⟩
  · simp only [invitation, String.toList_append, List.append_assoc, List.prefix_append]
  · simp only [invitation, before, behind, String.toList_append, List.append_assoc]

/-- What a challenge is made of. -/
structure Invites (auth : SignIn) (db : Db) (book : SessionBook) (identity : Uuid)
    (book' : SessionBook) (row : AuthChallenge) : Prop where
  wallet : ∃ value, address value = .ok row.wallet
  invited : auth.invited row.message = true
  expiresAt : row.expiresAt = db.clock + seconds 300
  unused : row.usedAt = none
  fresh : book.challenges.lookup identity = none
  records : book' = { book with challenges := AList.insert identity row book.challenges }

theorem challenge_spec {wallet nonce : String} {row : AuthChallenge}
    (h : auth.challenge db book wallet identity nonce = .ok (book', row)) :
    Invites auth db book identity book' row := by
  simp only [challenge, bind_eq_ok, require_eq_ok, exists_const, pure_eq_ok, Prod.mk.injEq] at h
  obtain ⟨new, hnew, hfresh, rfl, rfl⟩ := h
  exact ⟨⟨wallet, hnew⟩, invited_invitation, rfl, rfl, AList.lookup_eq_none.mpr hfresh, rfl⟩

/-- The row that a token gets. -/
def issued (db : Db) (memberId : Uuid) (kind : TokenKind) : AccessToken where
  memberId := memberId
  kind := kind
  expiresAt := db.clock + kind.lifetime
  revokedAt := none

theorem issue_eq_ok {kind : TokenKind} : auth.issue db book memberId kind token = .ok book' ↔
    book.tokens.lookup (auth.tokenDigest token) = none ∧ book' = { book with
      tokens := AList.insert (auth.tokenDigest token) (issued db memberId kind) book.tokens } := by
  simp only [issue, bind_eq_ok, require_eq_ok, exists_const, pure_eq_ok]
  rw [AList.lookup_eq_none, eq_comm (a := book')]
  exact Iff.rfl

theorem authenticate_eq_ok {wallet : Bool} :
    auth.authenticate db book token wallet = .ok memberId ↔
      (32 ≤ token.length ∧ token.length ≤ 128) ∧
      ∃ row, book.tokens.lookup (auth.tokenDigest token) = some row ∧
        row.admits wallet db.clock = true ∧ row.memberId = memberId := by
  simp only [authenticate, bind_eq_ok, require_eq_ok, exists_const, fetch_eq_ok, pure_eq_ok,
    Option.filter_eq_some_iff, and_assoc]

/-- What an accepted answer has found, and what it leaves. -/
structure Opens (auth : SignIn) (db : Db) (book : SessionBook) (challengeId : Uuid)
    (signature : String) (identity : Uuid) (token : String) (db' : Db) (book' : SessionBook)
    (memberId : Uuid) (challenge : AuthChallenge) (signer : Address) : Prop where
  asked : book.challenges.lookup challengeId = some challenge
  isOpen : challenge.isOpen db.clock = true
  invited : auth.invited challenge.message = true
  signed : auth.recover challenge.message signature = some signer
  wallet : signer.toLower = challenge.wallet
  registers : registerVerified db signer identity = .ok (db', memberId)
  fresh : book.tokens.lookup (auth.tokenDigest token) = none
  records : book' =
    { challenges := AList.insert challengeId { challenge with usedAt := some db'.clock }
        book.challenges
      tokens := AList.insert (auth.tokenDigest token) (issued db' memberId .wallet) book.tokens }

theorem verify_eq_ok {challengeId : Uuid} {signature : String} :
    auth.verify db book challengeId signature identity token = .ok (db', book', memberId) ↔
      ∃ challenge signer, Opens auth db book challengeId signature identity token db' book'
        memberId challenge signer := by
  simp only [verify, bind_eq_ok, fetch_eq_ok, require_eq_ok, exists_const, pure_eq_ok,
    Prod.mk.injEq, Prod.exists, Option.filter_eq_some_iff, issue_eq_ok]
  constructor
  · rintro ⟨challenge, ⟨hasked, hopen⟩, hinvited, signer, hsigned, hwallet, db₁, m, hregisters, _,
      ⟨hfresh, rfl⟩, rfl, rfl, rfl⟩
    exact ⟨challenge, signer, hasked, hopen, hinvited, hsigned, hwallet, hregisters, hfresh, rfl⟩
  · rintro ⟨challenge, signer, h⟩
    exact ⟨challenge, ⟨h.asked, h.isOpen⟩, h.invited, signer, h.signed, h.wallet, _, _, h.registers,
      _, ⟨h.fresh, rfl⟩, rfl, h.records.symm, rfl⟩

theorem issueExecutionToken_eq_ok {walletToken : String} :
    auth.issueExecutionToken db book walletToken token = .ok (book', memberId) ↔
      auth.authenticate db book walletToken true = .ok memberId ∧
      book.tokens.lookup (auth.tokenDigest token) = none ∧ book' = { book with
        tokens := AList.insert (auth.tokenDigest token) (issued db memberId .execution)
          book.tokens } := by
  simp only [issueExecutionToken, bind_eq_ok, pure_eq_ok, Prod.mk.injEq, issue_eq_ok]
  constructor
  · rintro ⟨m, hauth, _, ⟨hfresh, rfl⟩, rfl, rfl⟩
    exact ⟨hauth, hfresh, rfl⟩
  · rintro ⟨hauth, hfresh, rfl⟩
    exact ⟨memberId, hauth, _, ⟨hfresh, rfl⟩, rfl, rfl⟩

/-- Of the tokens, one of the member's is revoked, or nothing happens because the member has
no such token. -/
inductive Revokes (book : SessionBook) (memberId : Uuid) (digest : String) : SessionBook → Prop
  | none : (∀ row, book.tokens.lookup digest = some row → row.memberId ≠ memberId) →
      Revokes book memberId digest book
  | one {row : AccessToken} {now : Time} : book.tokens.lookup digest = some row →
      row.memberId = memberId → Revokes book memberId digest { book with
        tokens := AList.insert digest { row with revokedAt := some now } book.tokens }

theorem revoke_spec {walletToken : String}
    (h : auth.revoke db book walletToken token = .ok book') : ∃ memberId,
      auth.authenticate db book walletToken true = .ok memberId ∧
      Revokes book memberId (auth.tokenDigest token) book' := by
  simp only [revoke, bind_eq_ok] at h
  obtain ⟨memberId, hauth, h⟩ := h
  refine ⟨memberId, hauth, ?_⟩
  split at h
  next hnone =>
    obtain rfl := pure_eq_ok.mp h
    refine .none fun row hrow hmember => ?_
    rw [Option.filter_eq_none_iff] at hnone
    exact hnone row hrow (decide_eq_true hmember)
  next row hsome =>
    obtain rfl := pure_eq_ok.mp h
    obtain ⟨hrow, hmember⟩ := Option.filter_eq_some_iff.mp hsome
    exact .one hrow (of_decide_eq_true hmember)

theorem revokeExecutionToken_spec {digest : String}
    (h : revokeExecutionToken db book memberId digest = some book') :
    Revokes book memberId digest book' := by
  simp only [revokeExecutionToken, Option.bind_eq_bind, Option.bind_eq_some_iff,
    Option.filter_eq_some_iff, decide_eq_true_eq] at h
  obtain ⟨_, -, row, ⟨hrow, hmember, -⟩, hbook⟩ := h
  obtain rfl := Option.some.inj hbook
  exact .one hrow hmember

namespace Revokes

variable {digest : String} (h : Revokes book memberId digest book')
include h

theorem challenges : book'.challenges = book.challenges := by
  cases h with
  | none => rfl
  | one => rfl

/-- No token is made, and none is lost. -/
theorem tokens (k : String) : Evolves (fun _ => False) AccessToken.Turns (book.tokens.lookup k)
    (book'.tokens.lookup k) := by
  cases h with
  | none => exact .same
  | one hrow => exact Evolves.insert (by rw [hrow]; exact .turned ⟨rfl, fun _ => rfl⟩) k

/-- The member's token is dead. -/
theorem revoked {row : AccessToken} (hrow : book'.tokens.lookup digest = some row)
    (hmember : row.memberId = memberId) : row.revokedAt.isSome := by
  cases h with
  | none hnot => exact absurd hmember (hnot row hrow)
  | one =>
      rw [AList.lookup_insert] at hrow
      obtain rfl := Option.some.inj hrow
      rfl

/-- The others' tokens are as they were. -/
theorem others {k : String} (hk : k ≠ digest) : book'.tokens.lookup k = book.tokens.lookup k := by
  cases h with
  | none => rfl
  | one => exact AList.lookup_insert_ne hk

end Revokes

end SignIn

/-- A member who signs in is on record with the wallet that signed. -/
theorem registerVerified_wallet {db db' : Db} {wallet : String} {identity m : Uuid}
    (h : registerVerified db wallet identity = .ok (db', m)) :
    db'.clock = db.clock ∧ ∃ row, db'.funds.members.lookup m = some row ∧
      row.wallet = wallet.toLower := by
  simp only [registerVerified, bind_eq_ok] at h
  obtain ⟨value, haddress, h⟩ := h
  have hlower : value = wallet.toLower := by
    simp only [address, bind_eq_ok, require_eq_ok, exists_const, pure_eq_ok] at haddress
    exact haddress.2.2.symm
  split at h
  next existing row hfind =>
    simp only [pure_eq_ok, Prod.mk.injEq] at h
    obtain ⟨rfl, rfl⟩ := h
    obtain ⟨hrow, hsame⟩ := Table.find_eq_some hfind
    exact ⟨rfl, row, hrow, (of_decide_eq_true hsame).trans hlower⟩
  next =>
    simp only [bind_eq_ok, require_eq_ok, exists_const, pure_eq_ok, Prod.mk.injEq] at h
    obtain ⟨-, ledger, -, rfl, rfl⟩ := h
    exact ⟨rfl, _, AList.lookup_insert _, hlower⟩

end TigPool
