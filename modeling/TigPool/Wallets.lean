/-
# `TigPool.Wallets` — changing the withdrawal wallet

A member asks for a challenge to a new wallet and answers it with a signature of that wallet.
The challenge keeps the wallet that is in force when it is issued, and it is accepted only
while that wallet is in force; this is meant to supersede it once another change has been
verified.

`Auth` carries the functions that the code imports: the checksummed form of an address, the
text of a time, and the recovery of a signer.
-/
import TigPool.Members

namespace TigPool

open Basis

/-! ## Rows -/

structure WalletChallenge where
  memberId : Uuid
  oldWallet : Address
  newWallet : Address
  message : String
  expiresAt : Time
  usedAt : Option Time
deriving DecidableEq

structure WalletChange where
  memberId : Uuid
  oldWallet : Address
  newWallet : Address
deriving DecidableEq

/-- The tables `withdrawal_wallet_challenges` and `withdrawal_wallet_changes`. -/
structure WalletBook where
  challenges : Table Uuid WalletChallenge
  changes : Table Uuid WalletChange

def WalletBook.empty : WalletBook := ⟨∅, ∅⟩

/-- May the member still answer the challenge? -/
def WalletChallenge.isOpen (challenge : WalletChallenge) (memberId : Uuid) (now : Time) : Bool :=
  challenge.memberId = memberId ∧ challenge.usedAt = none ∧ now < challenge.expiresAt

/-! ## Addresses -/

/-- Lower case of a hexadecimal digit. -/
theorem toLower_hexDigit {c : Char} (h : isHexDigit c = true) :
    c.toLower.toLower = c.toLower ∧ isHexDigit c.toLower = true ∧ (c.toLower = '0' → c = '0') := by
  have hsmall : c.toNat < 103 := by
    simp only [isHexDigit, Char.le_def, decide_eq_true_eq] at h
    simp only [UInt32.le_iff_toNat_le] at h
    rcases h with ⟨-, h⟩ | ⟨-, h⟩ | ⟨-, h⟩
    · exact lt_of_le_of_lt h (by decide)
    · exact lt_of_le_of_lt h (by decide)
    · exact lt_of_le_of_lt h (by decide)
  have hall : ∀ n < 103, isHexDigit (Char.ofNat n) = true →
      (Char.ofNat n).toLower.toLower = (Char.ofNat n).toLower ∧
      isHexDigit (Char.ofNat n).toLower = true ∧
      ((Char.ofNat n).toLower = '0' → Char.ofNat n = '0') := by decide
  rw [← Char.ofNat_toNat c] at h ⊢
  exact hall _ hsmall h

/-- An address is in its normal form. -/
theorem address_address {value : String} {wallet : Address} (h : address value = .ok wallet) :
    address wallet = .ok wallet := by
  simp only [address, bind_eq_ok, require_eq_ok, exists_const, pure_eq_ok] at h ⊢
  obtain ⟨⟨hzerox, hlength, hdigits⟩, hzero, rfl⟩ := h
  have hlower : value.toLower.toList = value.toList.map Char.toLower := String.toList_map
  have hdrop : value.toLower.toList.drop 2 = (value.toList.drop 2).map Char.toLower := by
    rw [hlower, List.map_drop]
  have htake : value.toLower.toList.take 2 = ['0', 'x'] := by
    rw [hlower, ← List.map_take, hzerox]
    rfl
  rw [List.all_eq_true] at hdigits
  rw [hdrop]
  refine ⟨⟨htake, by rw [List.length_map, hlength], ?_⟩, ?_, ?_⟩
  · rw [List.all_map, List.all_eq_true]
    exact fun c hc => (toLower_hexDigit (hdigits c hc)).2.1
  · intro hall
    refine hzero (List.all_eq_true.mpr fun c hc => ?_)
    rw [List.all_map, List.all_eq_true] at hall
    have hc0 : c.toLower = '0' := of_decide_eq_true (hall c hc)
    exact decide_eq_true ((toLower_hexDigit (hdigits c hc)).2.2 hc0)
  · apply String.toList_inj.mp
    have hsplit := List.take_append_drop 2 value.toLower.toList
    have hlower' : value.toLower.toLower.toList = value.toLower.toList.map Char.toLower :=
      String.toList_map
    rw [hlower', ← hsplit, List.map_append, htake, hdrop, List.map_map]
    congr 1
    exact List.map_congr_left fun c hc => (toLower_hexDigit (hdigits c hc)).1

/-! ## Operations -/

structure Auth where
  domain : String
  origin : String
  chainId : ℕ
  /-- `to_checksum_address` -/
  checksum : Address → String
  /-- `isoformat` -/
  isoformat : Time → String
  /-- `Account.recover_message`: whose key made the signature of the text. -/
  recover : String → String → Option Address

namespace Auth

variable (auth : Auth)

def purpose : String :=
  auth.domain ++ " requests withdrawal wallet verification:"

def deployment : String :=
  "\nURI: " ++ auth.origin ++ "\nVersion: 1\nChain ID: " ++ toString auth.chainId ++ "\n"

def message (memberId : Uuid) (wallet : Address) (nonce : String) (now expiry : Time)
    (identity : Uuid) : String :=
  auth.purpose ++ "\n" ++ auth.checksum wallet ++
    "\n\nSet this wallet for future withdrawals by Community Pool member " ++ memberId ++
    ". Pending requests keep their existing destination.\n" ++ auth.deployment ++
    "Nonce: " ++ nonce ++ "\nIssued At: " ++ auth.isoformat now ++
    "\nExpiration Time: " ++ auth.isoformat expiry ++ "\nRequest ID: " ++ identity

/-- Was the text written by this deployment? -/
def wrote (text : String) : Bool :=
  auth.purpose.toList <+: text.toList ∧ auth.deployment.toList <:+: text.toList

/-- The API requires the existing member's wallet session first. -/
def withdrawalWalletChallenge (db : Db) (book : WalletBook) (memberId : Uuid) (wallet : String)
    (identity : Uuid) (nonce : String) : Result (WalletBook × WalletChallenge) := do
  let wallet ← address wallet
  let member ← memberLock db memberId
  let expiry := db.clock + seconds 300
  let row : WalletChallenge :=
    { memberId, oldWallet := member.withdrawalWallet, newWallet := wallet,
      message := auth.message memberId wallet nonce db.clock expiry identity,
      expiresAt := expiry, usedAt := none }
  require (identity ∉ book.challenges) (.integrity "withdrawal_wallet_challenges_pkey")
  return ({ book with challenges := AList.insert identity row book.challenges }, row)

def verifyWithdrawalWallet (db : Db) (book : WalletBook) (memberId challengeId : Uuid)
    (signature : String) : Result (Db × WalletBook) := do
  let member ← memberLock db memberId
  let challenge ← fetch
    ((book.challenges.lookup challengeId).filter (·.isOpen memberId db.clock))
    (.value "wallet change challenge expired, consumed, or belongs to another member")
  require (member.withdrawalWallet = challenge.oldWallet ∧ auth.wrote challenge.message)
    (.value "wallet change belongs to a different deployment or has been superseded")
  let signer ← fetch (auth.recover challenge.message signature)
    (.value "invalid withdrawal wallet signature")
  require (signer.toLower = challenge.newWallet)
    (.value "signature does not prove control of the new withdrawal wallet")
  require (challengeId ∉ book.changes) (.integrity "withdrawal_wallet_changes_pkey")
  let change : WalletChange :=
    { memberId, oldWallet := challenge.oldWallet, newWallet := challenge.newWallet }
  return (db.putMember memberId { member with withdrawalWallet := challenge.newWallet },
    { challenges := AList.insert challengeId { challenge with usedAt := some db.clock }
        book.challenges
      changes := AList.insert challengeId change book.changes })

/-! ## What they do -/

variable {auth : Auth} {db db' : Db} {book book' : WalletBook} {memberId identity : Uuid}

/-- A deployment knows the texts it has written. -/
theorem wrote_message {memberId identity : Uuid} {wallet : Address} {nonce : String}
    {now expiry : Time} :
    auth.wrote (auth.message memberId wallet nonce now expiry identity) = true := by
  let before := auth.purpose ++ "\n" ++ auth.checksum wallet ++
    "\n\nSet this wallet for future withdrawals by Community Pool member " ++ memberId ++
    ". Pending requests keep their existing destination.\n"
  let behind := "Nonce: " ++ nonce ++ "\nIssued At: " ++ auth.isoformat now ++
    "\nExpiration Time: " ++ auth.isoformat expiry ++ "\nRequest ID: " ++ identity
  rw [wrote, decide_eq_true_eq]
  refine ⟨?_, before.toList, behind.toList, ?_⟩
  · simp only [message, String.toList_append, List.append_assoc, List.prefix_append]
  · simp only [message, before, behind, String.toList_append, List.append_assoc]

/-- What a challenge is made of. -/
structure Issues (auth : Auth) (db : Db) (book : WalletBook) (memberId identity : Uuid)
    (book' : WalletBook) (row : WalletChallenge) : Prop where
  known : ∃ member, db.funds.members.lookup memberId = some member ∧
    row.oldWallet = member.withdrawalWallet
  wallet : ∃ wallet, address wallet = .ok row.newWallet
  owner : row.memberId = memberId
  wrote : auth.wrote row.message = true
  expiresAt : row.expiresAt = db.clock + seconds 300
  unused : row.usedAt = none
  fresh : book.challenges.lookup identity = none
  records : book' = { book with challenges := AList.insert identity row book.challenges }

theorem withdrawalWalletChallenge_spec {wallet nonce : String} {row : WalletChallenge}
    (h : auth.withdrawalWalletChallenge db book memberId wallet identity nonce
      = .ok (book', row)) : Issues auth db book memberId identity book' row := by
  simp only [withdrawalWalletChallenge, bind_eq_ok, memberLock, fetch_eq_ok, require_eq_ok,
    exists_const, pure_eq_ok, Prod.mk.injEq] at h
  obtain ⟨new, hnew, member, hmember, hfresh, rfl, rfl⟩ := h
  exact ⟨⟨member, hmember, rfl⟩, ⟨wallet, hnew⟩, rfl, wrote_message, rfl, rfl,
    AList.lookup_eq_none.mpr hfresh, rfl⟩

/-- What a verified change has found, and what it leaves. -/
structure Changes (auth : Auth) (db : Db) (book : WalletBook) (memberId challengeId : Uuid)
    (signature : String) (db' : Db) (book' : WalletBook) (member : Member)
    (challenge : WalletChallenge) : Prop where
  known : db.funds.members.lookup memberId = some member
  issued : book.challenges.lookup challengeId = some challenge
  isOpen : challenge.isOpen memberId db.clock = true
  inForce : member.withdrawalWallet = challenge.oldWallet
  wrote : auth.wrote challenge.message = true
  signed : ∃ signer, auth.recover challenge.message signature = some signer ∧
    signer.toLower = challenge.newWallet
  first : challengeId ∉ book.changes
  writes : db' = db.putMember memberId { member with withdrawalWallet := challenge.newWallet }
  records : book' =
    { challenges := AList.insert challengeId { challenge with usedAt := some db.clock }
        book.challenges
      changes := AList.insert challengeId
        ⟨memberId, challenge.oldWallet, challenge.newWallet⟩ book.changes }

theorem verifyWithdrawalWallet_eq_ok {challengeId : Uuid} {signature : String} :
    auth.verifyWithdrawalWallet db book memberId challengeId signature = .ok (db', book') ↔
      ∃ member challenge,
        Changes auth db book memberId challengeId signature db' book' member challenge := by
  simp only [verifyWithdrawalWallet, bind_eq_ok, memberLock, fetch_eq_ok, require_eq_ok,
    exists_const, pure_eq_ok, Prod.mk.injEq, Option.filter_eq_some_iff]
  constructor
  · rintro ⟨member, hmember, challenge, ⟨hchallenge, hopen⟩, ⟨hold, hwrote⟩, signer, hsigner,
      hnew, hchange, rfl, rfl⟩
    exact ⟨member, challenge, hmember, hchallenge, hopen, hold, hwrote, ⟨signer, hsigner, hnew⟩,
      hchange, rfl, rfl⟩
  · rintro ⟨member, challenge, h⟩
    obtain ⟨signer, hsigner, hnew⟩ := h.signed
    exact ⟨member, h.known, challenge, ⟨h.issued, h.isOpen⟩, ⟨h.inForce, h.wrote⟩, signer,
      hsigner, hnew, h.first, h.writes.symm, h.records.symm⟩

end Auth

end TigPool
