/-
# `TigPool.Members` — wallet identities and audited collateral settings

The operations take the database as the transaction finds it and return it as
the transaction leaves it; an error leaves nothing behind.  A fresh `uuid4` is
an argument, and a write that would repeat a primary key fails as the database
would make it fail.
-/
import TigPool.Ledger

namespace TigPool

open Basis

/-! ## Writing rows -/

namespace Db

def withLedger (db : Db) (ledger : Ledger) : Db :=
  { db with funds := { db.funds with ledger := ledger } }

def putMember (db : Db) (identity : Uuid) (row : Member) : Db :=
  { db with funds := { db.funds with members := AList.insert identity row db.funds.members } }

def putReservation (db : Db) (identity : Uuid) (row : Reservation) : Db :=
  { db with funds :=
      { db.funds with reservations := AList.insert identity row db.funds.reservations } }

def putTransfer (db : Db) (event : EventId) (row : Transfer) : Db :=
  { db with funds := { db.funds with transfers := AList.insert event row db.funds.transfers } }

def putSend (db : Db) (identity : Uuid) (row : CustodySend) : Db :=
  { db with funds :=
      { db.funds with custodySends := AList.insert identity row db.funds.custodySends } }

def putWithdrawal (db : Db) (identity : Uuid) (row : Withdrawal) : Db :=
  { db with funds :=
      { db.funds with withdrawals := AList.insert identity row db.funds.withdrawals } }

def putAttempt (db : Db) (identity : Uuid) (row : WithdrawalAttempt) : Db :=
  { db with funds :=
      { db.funds with withdrawalAttempts := AList.insert identity row db.funds.withdrawalAttempts } }

def putTopup (db : Db) (identity : Uuid) (row : ProtocolTopup) : Db :=
  { db with funds :=
      { db.funds with protocolTopups := AList.insert identity row db.funds.protocolTopups } }

def putEarnings (db : Db) (round : ℕ) (row : RoundEarnings) : Db :=
  { db with funds :=
      { db.funds with roundEarnings := AList.insert round row db.funds.roundEarnings } }

def putIntent (db : Db) (identity : Uuid) (row : ProtocolIntent) : Db :=
  { db with work :=
      { db.work with protocolOutbox := AList.insert identity row db.work.protocolOutbox } }

def putRequest (db : Db) (identity : Uuid) (row : WorkRequest) : Db :=
  { db with work := { db.work with workRequests := AList.insert identity row db.work.workRequests } }

end Db

/-! ## Operations -/

def isHexDigit (c : Char) : Bool :=
  ('0' ≤ c ∧ c ≤ '9') ∨ ('a' ≤ c ∧ c ≤ 'f') ∨ ('A' ≤ c ∧ c ≤ 'F')

/-- An Ethereum address in lower case. -/
def address (value : String) : Result Address := do
  let digits := value.toList.drop 2
  require (value.toList.take 2 = ['0', 'x'] ∧ digits.length = 40 ∧ digits.all isHexDigit)
    (.funds "invalid Ethereum wallet address")
  require (¬ digits.all (· = '0'))
    (.funds "zero address cannot identify a member or custody wallet")
  return value.toLower

def memberLock (db : Db) (memberId : Uuid) : Result Member :=
  fetch (db.funds.members.lookup memberId) (.funds "unknown member")

def registerVerified (db : Db) (wallet : String) (identity : Uuid) : Result (Db × Uuid) := do
  let wallet ← address wallet
  match db.funds.members.find fun _ row => row.wallet = wallet with
  | some (existing, _) => return (db, existing)
  | none =>
      require (identity ∉ db.funds.members) (.integrity "members_pkey")
      let db := db.putMember identity
        { wallet, withdrawalWallet := wallet, multiplier := .one, multiplierRevision := 0,
          lastPaidAt := none }
      let ledger ← db.funds.ledger.account (.available identity) .member
      return (db.withLedger ledger, identity)

def setMultiplier (db : Db) (memberId : Uuid) (value : DecimalInput)
    (actor reason eventKey : String) : Result Db := do
  let value ← multiplier value
  require (actor ≠ "" ∧ reason ≠ "" ∧ eventKey ≠ "")
    (.funds "multiplier changes require an actor, reason and event key")
  let member ← memberLock db memberId
  match db.funds.multiplierChanges.find fun _ row => row.eventKey = eventKey with
  | some ((previousMember, _), previous) =>
      require (previousMember = memberId ∧ previous.newValue = value ∧ previous.actor = actor ∧
        previous.reason = reason) (.conflict "multiplier event key was reused")
      return db
  | none =>
      let revision := member.multiplierRevision + 1
      require ((memberId, revision) ∉ db.funds.multiplierChanges)
        (.integrity "multiplier_changes_pkey")
      let change : MultiplierChange :=
        { oldValue := member.multiplier, newValue := value, actor, reason, eventKey }
      let db := { db with funds := { db.funds with
        multiplierChanges := AList.insert (memberId, revision) change db.funds.multiplierChanges } }
      return db.putMember memberId { member with multiplier := value, multiplierRevision := revision }

/-- The last write of `verify_withdrawal_wallet`, once the challenge is answered. -/
def setWithdrawalWallet (db : Db) (memberId : Uuid) (newWallet : String) : Result Db := do
  let newWallet ← address newWallet
  let member ← memberLock db memberId
  return db.putMember memberId { member with withdrawalWallet := newWallet }

end TigPool
