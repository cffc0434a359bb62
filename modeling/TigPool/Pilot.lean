/-
# `TigPool.Pilot` — the limits of a test pilot

A pilot is installed before any work: a budget, a fee ceiling for one attempt, and two
members with what each may be funded with.  Later phases raise what the members may do and
stay within the budget.  `check` is asked before work is reserved and again before it is
sent.  It counts what was potentially sent, so nothing that happens to a reservation
afterwards gives an attempt back.
-/
import TigPool.Protocol
import TigPool.Spending

namespace TigPool

open Basis

namespace Pilot

open Protocol

/-! ## Configuration -/

/-- What a member may be funded with and how often its work may be sent, in all phases. -/
structure Allowance where
  wallet : Address
  fundingUnits : ℕ
  attemptLimit : ℕ
deriving DecidableEq

/-- What the members are meant to be funded with. -/
def planned (members : List Allowance) : ℕ :=
  (members.map (·.fundingUnits)).sum

def total (members : List Allowance) : ℕ :=
  (members.map (·.attemptLimit)).sum

/-- The policy that is installed, for two members in the order of their attempts. -/
structure Config where
  poolWallet : Address
  maximumTotalTigUnits : ℕ
  maxFeePerAttemptUnits : ℕ
  members : List (Address × ℕ)
  two : members.length = 2
  distinct : (poolWallet :: members.map (·.1)).Nodup
  within : (members.map (·.2)).sum + 2 * maxFeePerAttemptUnits ≤ maximumTotalTigUnits
deriving DecidableEq

/-- `funding.amount` -/
def fundingAmount : Json → Result ℕ
  | .str value => do
      let digits := value.toList
      require (1 ≤ digits.length ∧ digits.length ≤ 78 ∧ digits.all (·.isDigit))
        (.funds "TIG funding amounts must be exact integer-unit strings")
      return digits.foldl (fun n c => 10 * n + (c.toNat - 48)) 0
  | _ => .error (.funds "TIG funding amounts must be exact integer-unit strings")

def configFields : List String :=
  ["version", "api_origin", "chain_id", "token", "pool_wallet", "maximum_total_tig_units",
    "max_fee_per_attempt_units", "members"]

def readMember (member : Json) : Result (Address × ℕ) := do
  let invalid := Error.funds "each pilot member requires a wallet and exact funding allowance"
  let fields ← membersOf member invalid
  require (hasFields fields ["wallet", "funding_units"]) invalid
  let amount ← fundingAmount (← field member "funding_units")
  require (0 < amount) (.funds "pilot members require positive funding")
  let wallet ← addressOf (← field member "wallet")
  return (wallet, amount)

/-- The two members and the budget make a policy. -/
def configOf (poolWallet : Address) (total fee : ℕ) (first second : Address × ℕ) :
    Result Config :=
  if distinct : (poolWallet :: [first, second].map (·.1)).Nodup then
    if within : ([first, second].map (·.2)).sum + 2 * fee ≤ total then
      .ok ⟨poolWallet, total, fee, [first, second], rfl, distinct, within⟩
    else
      .error (.funds "combined member funding and both fee allowances exceed the pilot budget")
  else .error (.funds "pilot pool and member wallets must be distinct")

def validate (config : Json) : Result Config := do
  let invalid := Error.funds "pilot configuration has missing or unknown fields"
  let fields ← membersOf config invalid
  require (hasFields fields configFields) invalid
  require (config.get? "version" = some (.int 1) ∧
      config.get? "api_origin" = some (.str StarterCredit.apiOrigin) ∧
      config.get? "chain_id" = some (.int StarterCredit.chainId) ∧
      config.get? "token" = some (.str StarterCredit.token))
    (.funds "CPU pilot requires the explicit TIG testnet chain, token and API")
  let wallet ← addressOf (← field config "pool_wallet")
  let total ← fundingAmount (← field config "maximum_total_tig_units")
  let fee ← fundingAmount (← field config "max_fee_per_attempt_units")
  require (0 < total ∧ total ≤ 5 * tig ∧ 0 < fee ∧ fee ≤ total)
    (.funds "pilot maximum must be at most 5 TIG with a positive fee allowance")
  match ← field config "members" with
  | .arr [first, second] => do
      let first ← readMember first
      let second ← readMember second
      configOf wallet total fee first second
  | _ => throw (.funds "pilot requires exactly two members, in execution order")

/-! ## Phases -/

structure PhaseConfig where
  phaseKey : String
  attemptLimit : ℕ
  members : List Allowance
deriving DecidableEq

/-- A row of `pilot_phases`. -/
structure Phase where
  number : ℕ
  config : PhaseConfig
  previousNumber : ℕ
  attemptsBefore : ℕ
  actor : String
  reason : String
deriving DecidableEq

/-- The phase before any other: one attempt a member. -/
def Config.initial (config : Config) : PhaseConfig where
  phaseKey := "initial-cpu-pilot"
  attemptLimit := 2
  members := config.members.map fun m => ⟨m.1, m.2, 1⟩

def readAllowance (item : Json) : Result Allowance := do
  let invalid := Error.funds "each phase member needs a cumulative funding and attempt limit"
  let fields ← membersOf item invalid
  require (hasFields fields ["wallet", "funding_units", "attempt_limit"]) invalid
  match ← field item "attempt_limit" with
  | .int limit => do
      require (1 ≤ limit) invalid
      let amount ← fundingAmount (← field item "funding_units")
      require (0 < amount) (.funds "member funding allowance must be positive")
      let wallet ← addressOf (← field item "wallet")
      return ⟨wallet, amount, limit.toNat⟩
  | _ => throw invalid

/-- `value.strip()` -/
def strip (value : String) : List Char :=
  ((value.toList.dropWhile isSpace).reverse.dropWhile isSpace).reverse

/-- The text has so many characters at most, and is not blank. -/
def named (value : String) (most : ℕ) : Prop :=
  1 ≤ (strip value).length ∧ (strip value).length ≤ most

instance (value : String) (most : ℕ) : Decidable (named value most) :=
  inferInstanceAs (Decidable (_ ∧ _))

def readPhase (value : Json) : Result PhaseConfig := do
  let invalid := Error.funds "invalid cumulative pilot phase"
  let fields ← membersOf value invalid
  require (hasFields fields ["version", "phase_key", "attempt_limit", "members"]) invalid
  require (value.get? "version" = some (.int 2)) invalid
  match value.get? "phase_key", value.get? "attempt_limit", value.get? "members" with
  | some (.str phaseKey), some (.int limit), some (.arr [first, second]) => do
      require (named phaseKey 128 ∧ 2 ≤ limit) invalid
      let first ← readAllowance first
      let second ← readAllowance second
      require (total [first, second] = limit)
        (.funds "member attempt allowances must sum to the total attempt limit")
      return ⟨phaseKey, limit.toNat, [first, second]⟩
  | _, _, _ => throw invalid

end Pilot

/-- The policy and its later phases, the newest first. -/
structure Pilot where
  config : Pilot.Config
  phases : List Pilot.Phase
deriving DecidableEq

namespace Pilot

/-- The number of the phase and what it allows. -/
def phase (pilot : Pilot) : ℕ × PhaseConfig :=
  match pilot.phases with
  | row :: _ => (row.number, row.config)
  | [] => (0, pilot.config.initial)

/-- `pilot.initialize` -/
def install (db : Db) (installed : Option Pilot) (config : Json) (actor : String) :
    Result Pilot := do
  let config ← validate config
  require (strip actor ≠ [] ∧ actor.length ≤ 200)
    (.funds "pilot limits require a named setup operator")
  match installed with
  | some previous => do
      require (previous.config = config)
        (.conflict "recorded pilot limits cannot be changed or reset")
      return previous
  | none => do
      require (db.funds.reservations.entries = [] ∧ db.funds.protocolTopups.entries = [])
        (.conflict "pilot limits must be installed before any work or top-up")
      require (db.funds.custodyIdentity.any fun identity =>
          identity.chainId = StarterCredit.chainId ∧ identity.token = StarterCredit.token ∧
            identity.wallet = config.poolWallet ∧ identity.decimals = 18)
        (.conflict "pilot requires the matching initialized testnet custody identity")
      return ⟨config, []⟩

/-! ## The check -/

/-- What was potentially sent, with the wallets of the members it was sent for. -/
def sent (db : Db) : List (Uuid × Reservation × Address) :=
  db.work.reservationEvents.keys.filterMap fun key =>
    if key.2 = .potentiallySent then
      (db.funds.reservations.lookup key.1).bind fun r =>
        (db.funds.members.lookup r.memberId).map fun member => (key.1, r, member.wallet)
    else none

def sentBy (sent : List (Uuid × Reservation × Address)) (wallet : Address) : ℕ :=
  sent.countP fun row => row.2.2 = wallet

/-- The fee ceilings of what was sent. -/
def sentFees (sent : List (Uuid × Reservation × Address)) : ℕ :=
  (sent.map fun row => row.2.1.feeLimit).sum

/-- What came into custody and was attributed to a member or the operator. -/
def attributedReceipts (db : Db) (config : Config) : ℕ :=
  db.funds.transfers.total fun _ t =>
    if t.attribution.isSome ∧ t.recipient = config.poolWallet ∧ t.sender ≠ t.recipient then t.amount
    else 0

/-- The allowance of the member whose turn it is; in the first phase the members take turns. -/
def turn (number : ℕ) (members : List Allowance) (sent : List (Uuid × Reservation × Address))
    (wallet : Address) : Result Allowance :=
  if number = 0 then do
    let expected ← fetch members[sent.length]? (.malformed "members")
    require (wallet = expected.wallet ∧ sentBy sent wallet = 0)
      (.conflict "pilot permits one attempt per member in the recorded order")
    return expected
  else do
    let used := Error.conflict "member has used its cumulative pilot attempt limit"
    let expected ← fetch (members.find? (·.wallet = wallet)) used
    require (sentBy sent wallet < expected.attemptLimit) used
    return expected

def check (pilot : Pilot) (db : Db) (observed : Bool) (wallet : Address) (resource : Resource)
    (amount : ℕ) (feeLimit : ℤ) (payload : Json) (reservation : Option Uuid) : Result Unit := do
  let (number, allowances) := pilot.phase
  require (observed = true) (.conflict "pilot requires fresh reconciled custody and fee observers")
  require (resource = .CPU ∧ (payload.get? "settings").bind (·.get? "player_id")
      = some (.str pilot.config.poolWallet))
    (.conflict "pilot permits only CPU work for its configured pool account")
  require (0 ≤ feeLimit ∧ feeLimit ≤ pilot.config.maxFeePerAttemptUnits)
    (.conflict "current submission fee exceeds the pilot allowance")
  let sent := sent db
  require (sent.length < allowances.attemptLimit)
    (.conflict (if number = 0 then "pilot has used both precommit attempts"
      else "pilot has used its cumulative precommit attempt limit"))
  require (∀ row ∈ sent, row.2.1.state = .active)
    (.conflict "pilot waits for confirmed activation; failure or uncertainty stops further work")
  let expected ← turn number allowances.members sent wallet
  require (0 < amount ∧ amount ≤ expected.fundingUnits)
    (.conflict "pilot requires positive collateral within the member funding allowance")
  require (db.funds.reservations.any (fun id r => r.state = .reserved ∧ some id ≠ reservation)
      = false)
    (.conflict "pilot permits only one outstanding work reservation")
  -- The whole ceilings count, also of what was rejected or refunded.
  require (planned allowances.members + sentFees sent + feeLimit
      ≤ pilot.config.maximumTotalTigUnits)
    (.conflict "combined pilot funding and submission fees exceed the total budget")
  require (attributedReceipts db pilot.config ≤ planned allowances.members)
    (.conflict "pilot attributed custody receipts exceed the recorded funding allocation")

/-- `check` as `reserve` asks it, with the collateral it has computed. -/
def atReserve (pilot : Pilot) (db : Db) (observed : Bool) (memberId : Uuid) (resource : Resource)
    (payload : Json) (feeLimit : ℤ) : Result Unit := do
  let member ← memberLock db memberId
  let counts ← fetch (proposedBundleCounts payload)
    (.funds "precommit requires all proposed track settings")
  let (_, amount) ← collateral counts member.multiplier
  pilot.check db observed member.wallet resource amount feeLimit payload none

/-- `check` as `mark_submitting` asks it. -/
def atSend (pilot : Pilot) (db : Db) (observed : Bool) (identity : Uuid) : Result Unit := do
  let row ← lockedReservation db identity
  let member ← memberLock db row.memberId
  pilot.check db observed member.wallet row.resource row.amount row.feeLimit row.payload
    (some identity)

/-! ## Extension -/

/-- Work that TIG may still decide on, or that may still be sent. -/
def isOutstanding (state : ReservationState) : Bool :=
  state = .reserved ∨ state = .uncertain ∨ state = .accepted

def extend (pilot : Pilot) (db : Db) (value : Json) (expectedPhase : ℤ) (actor reason : String) :
    Result (Pilot × Phase) := do
  require (0 ≤ expectedPhase ∧ named actor 200 ∧ named reason 1000)
    (.funds "phase extension requires an expected revision, operator and reason")
  let config ← readPhase value
  match pilot.phases.find? (·.config.phaseKey = config.phaseKey) with
  | some old => do
      require (old.config = config ∧ (old.previousNumber : ℤ) = expectedPhase ∧ old.actor = actor ∧
          old.reason = reason)
        (.conflict "phase key was reused with different inputs")
      return (pilot, old)
  | none => do
      let (number, current) := pilot.phase
      require (number = expectedPhase)
        (.conflict "pilot phase changed; review the current cumulative allowances")
      require (paused db = true) (.conflict "pause new work before reviewing a later pilot phase")
      require (db.funds.reservations.any (fun _ r => isOutstanding r.state) = false)
        (.conflict "finish or reconcile in-flight pilot work before extending")
      (current.members.zip config.members).forM fun (before, after) => do
        require (before.wallet = after.wallet)
          (.conflict "later phases must retain both original member identities and order")
        require (before.fundingUnits ≤ after.fundingUnits ∧
            before.attemptLimit ≤ after.attemptLimit)
          (.conflict "cumulative phase allowances cannot decrease or reset")
      require (config.members ≠ current.members)
        (.conflict "phase does not change the existing allowances")
      require (planned config.members + config.attemptLimit * pilot.config.maxFeePerAttemptUnits
          ≤ pilot.config.maximumTotalTigUnits)
        (.funds "cumulative funding and all fee ceilings exceed the original pilot budget")
      require (attributedReceipts db pilot.config ≤ planned config.members)
        (.conflict "existing attributed receipts exceed the proposed phase allocation")
      require (config.phaseKey.length ≤ 128 ∧ actor.length ≤ 200 ∧ reason.length ≤ 1000)
        (.integrity "pilot_phases_check")
      let row : Phase :=
        { number := number + 1, config, previousNumber := number,
          attemptsBefore := db.work.reservationEvents.count fun key _ => key.2 = .potentiallySent,
          actor, reason }
      return ({ pilot with phases := row :: pilot.phases }, row)

end Pilot

end TigPool
