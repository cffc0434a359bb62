/-
# `TigPool.CustodyReading` — capturing what happened to the custody wallet

The custody observer reads a range of finalized blocks through a read-only RPC endpoint: the
balances of the wallet before and after, and every token transfer into and out of it.  What the
endpoint was asked and what it answered is kept; the facts are read again from that archive,
without an endpoint, before anything is credited.

The reading is one computation that asks questions, and there are two ways to run it: `capture`
asks an endpoint and keeps the log, `verify` asks the log.  A capture that succeeded verifies to
the facts it was made with, a capture that failed does not verify, and whatever verifies — also
an archive that no capture of ours has written — is a complete account of its range.
-/
import TigPool.Basis.Asking
import TigPool.Chain
import TigPool.Openings
import TigPool.Wallets

namespace TigPool

open Basis Basis.Asking Protocol

/-! ## Reading the chain -/

/-- A method with its parameters. -/
abbrev Query := String × List Json

abbrev Reading := Asking Query Json Error

/-- What the endpoint answers. -/
def rpc (method : String) (params : List Json) : Reading Json :=
  Asking.query (method, params)

/-- `Network.__post_init__` -/
def Network.postInit (network : Network) : Result Network := do
  let _ ← units network.chainId true
  let _ ← units network.confirmations true
  require (network.decimals = 18) (.funds "this TIG ledger requires a verified 18-decimal token")
  let token ← address network.token
  let custody ← address network.custody
  return { network with token, custody }

/-- `int(hex_bytes(value, 32), 16)` -/
def word (value : Json) : Result ℕ := do
  let text ← hexBytes value 32
  return hexValue (text.toList.drop 2)

/-- A quantity in a field. -/
def quantityAt (value : Json) (key : String) : Result ℕ := do
  let member ← field value key
  quantity member

/-- A hash in a field. -/
def hashAt (value : Json) (key : String) : Result String := do
  let member ← field value key
  hexBytes member 32

namespace Reading

def verifyNetwork (network : Network) : Reading Unit := do
  let chainId ← rpc "eth_chainId" []
  let actual ← quantity chainId
  let answer ← rpc "eth_call"
    [.obj [("data", .str "0x313ce567"), ("to", .str network.token)], .str "latest"]
  let decimals ← quantity answer
  check (actual = network.chainId ∧ decimals = network.decimals)
    (.funds "RPC chain ID/token decimals differ from configured network")

/-- What is kept of a confirmed transaction. -/
structure Receipt where
  receipt : Json
  header : Json
  latest : Json
  finalized : Json

def Receipt.evidence (found : Receipt) : Json :=
  .obj [("finalized", found.finalized), ("header", found.header), ("latest", found.latest),
    ("receipt", found.receipt)]

/-- The finalized block, which a policy may ask for, is not below the height. -/
def finalizedAt (network : Network) (height : ℕ) : Reading Json :=
  if network.requireFinalized then do
    let finalized ← rpc "eth_getBlockByNumber" [.str "finalized", .bool false]
    check (finalized.truthy = true) (.funds "transfer is not finalized")
    let number ← quantityAt finalized "number"
    check (height ≤ number) (.funds "transfer is not finalized")
    return finalized
  else return .null

def confirmedReceipt (network : Network) (txHash : String) : Reading Receipt := do
  let txHash ← hexBytes (.str txHash) 32
  verifyNetwork network
  let receipt ← rpc "eth_getTransactionReceipt" [.str txHash]
  check (receipt.truthy = true) (.funds "transaction has no definitive mined outcome")
  let status ← quantityAt receipt "status"
  check (status = 0 ∨ status = 1) (.funds "transaction has no definitive mined outcome")
  let blockNumber ← quantityAt receipt "blockNumber"
  let blockHash ← hashAt receipt "blockHash"
  let mined ← hashAt receipt "transactionHash"
  check (mined = txHash) (.funds "receipt does not match requested transaction")
  let latest ← rpc "eth_getBlockByNumber" [.str "latest", .bool false]
  let head ← quantityAt latest "number"
  check ((network.confirmations : ℤ) ≤ head - blockNumber + 1)
    (.funds "transfer has insufficient confirmations")
  let finalized ← finalizedAt network blockNumber
  let header ← rpc "eth_getBlockByNumber" [hex blockNumber, .bool false]
  check (header.truthy = true) (.funds "receipt block is not canonical")
  let hash ← hashAt header "hash"
  check (hash = blockHash) (.funds "receipt block is not canonical")
  let number ← quantityAt header "number"
  check (number = blockNumber) (.funds "receipt block is not canonical")
  return { receipt, header, latest, finalized }

/-- Does the log stand at the index? -/
def standsAt (logIndex : ℕ) (log : Json) : Result Bool := do
  let index ← quantityAt log "logIndex"
  return index = logIndex

/-- The one log of a receipt that stands at the index. -/
def uniqueLog (receipt : Json) (logIndex : ℕ) : Result Json := do
  let logs ← field receipt "logs" >>= iterate
  match ← logs.filterM (standsAt logIndex) with
  | [log] => return log
  | _ => throw (.funds "transfer event is missing or ambiguous")

/-- The first log of a receipt that stands at the index. -/
def firstLog (receipt : Json) (logIndex : ℕ) : Result Json := do
  let logs ← field receipt "logs" >>= iterate
  let found ← logs.findM? (standsAt logIndex)
  fetch found (.malformed "StopIteration")

/-- Does a topic hold nothing before an address? -/
def isAddressTopic (value : String) : Bool :=
  (value.toList.drop 2).take 24 = List.replicate 24 '0'

/-- The address in a topic. -/
def topicAddress (value : String) : Address :=
  "0x" ++ String.ofList (value.toList.drop (value.toList.length - 40))

def transferTopic : String :=
  "0xddf252ad1be2c89b69c2b068fc378daa952ba7f163c4a11628f55a4df523b3ef"

/-- The sender, the recipient and the amount in a log, once it is seen to be the one that was
asked for. -/
def readLog (network : Network) (txHash blockHash : String) (blockNumber : ℕ) (log : Json) :
    Result (Address × Address × ℕ) := do
  let mismatch := Error.funds "event token or canonical identity does not match"
  require ((log.get? "removed").any Json.truthy = false) mismatch
  let token ← field log "address" >>= addressOf
  require (token = network.token) mismatch
  let mined ← hashAt log "transactionHash"
  require (mined = txHash) mismatch
  let hash ← hashAt log "blockHash"
  require (hash = blockHash) mismatch
  let number ← quantityAt log "blockNumber"
  require (number = blockNumber) mismatch
  match ← field log "topics" with
  | .arr [topic, sender, recipient] => do
      let kind ← hexBytes topic 32
      require (kind = transferTopic) (.funds "event is not an ERC-20 Transfer")
      let sender ← hexBytes sender 32
      let recipient ← hexBytes recipient 32
      require (isAddressTopic sender ∧ isAddressTopic recipient)
        (.funds "malformed indexed transfer address")
      let amount ← field log "data" >>= word
      return (topicAddress sender, topicAddress recipient, amount)
  | _ => throw (.funds "event is not an ERC-20 Transfer")

/-- The last second that a `datetime` can name. -/
def lastSecond : ℕ := 253402300799

def transfer (network : Network) (txHash : String) (logIndex : ℕ) :
    Reading ConfirmedTransfer := do
  let txHash ← hexBytes (.str txHash) 32
  let evidence ← confirmedReceipt network txHash
  let status ← quantityAt evidence.receipt "status"
  check (status = 1) (.funds "transfer is not successfully mined")
  let blockNumber ← quantityAt evidence.receipt "blockNumber"
  let blockHash ← hashAt evidence.receipt "blockHash"
  let log ← uniqueLog evidence.receipt logIndex
  let (sender, recipient, amount) ← readLog network txHash blockHash blockNumber log
  check (network.custody = sender ∨ network.custody = recipient)
    (.funds "transfer does not involve configured custody")
  let timestamp ← quantityAt evidence.header "timestamp"
  check (timestamp ≤ lastSecond) (.value "year is out of range")
  return { network, txHash, logIndex, blockNumber, blockHash, blockTimestamp := seconds timestamp,
           sender, recipient, amount, evidence := evidence.evidence }

end Reading

/-! ## A range of the custody wallet -/

namespace SponsoredWithdrawals

/-- Whom the code of the wallet delegates to. -/
def delegation (code : Json) : Result (Option Address) := do
  if code = .str "0x" then
    return none
  else
    let value ← hexBytes code 23
    require (value.toList.take 8 = "0xef0100".toList) (.funds "unsupported custody contract code")
    let delegate ← address ("0x" ++ String.ofList (value.toList.drop 8))
    return some delegate

end SponsoredWithdrawals

namespace ChainObserver

def header (value : Json) (height : Option ℕ := none) : Result ℕ := do
  require (value.isObject = true) (.funds "chain header is unavailable")
  let number ← quantityAt value "number"
  require (∀ h ∈ height, number = h) (.funds "chain header height differs from requested height")
  let _ ← hashAt value "hash"
  let _ ← quantityAt value "timestamp"
  return number

/-- The balances and the nonce of the wallet at a height. -/
structure Balances where
  tig : ℕ
  native : ℕ
  nonce : ℕ
deriving DecidableEq

/-- An address as a word of call data. -/
def padded (wallet : Address) : String :=
  String.ofList (List.replicate 24 '0' ++ wallet.toList.drop 2)

def balances (network : Network) (height : ℕ) : Reading Balances := do
  let tag := hex height
  let token ← rpc "eth_call" [.obj [("data", .str ("0x70a08231" ++ padded network.custody)),
    ("to", .str network.token)], tag]
  let native ← rpc "eth_getBalance" [.str network.custody, tag]
  let nonce ← rpc "eth_getTransactionCount" [.str network.custody, tag]
  let tig ← word token
  let native ← quantity native
  let nonce ← quantity nonce
  return { tig, native, nonce }

inductive Direction where
  | incoming
  | outgoing
deriving DecidableEq

/-- Whom the filter of a direction is about. -/
def Direction.party : Direction → ConfirmedTransfer → Address
  | .incoming, value => value.recipient
  | .outgoing, value => value.sender

def Direction.topics (network : Network) : Direction → Json
  | .incoming => .arr [.str Reading.transferTopic, .null, .str ("0x" ++ padded network.custody)]
  | .outgoing => .arr [.str Reading.transferTopic, .str ("0x" ++ padded network.custody)]

/-- What the logs of a direction are asked for with. -/
def logFilter (network : Network) (first last : ℕ) (direction : Direction) : Query :=
  ("eth_getLogs", [.obj [("address", .str network.token), ("fromBlock", hex first),
    ("toBlock", hex last), ("topics", direction.topics network)]])

/-- `value.get(key)`, where a missing member reads as `None`. -/
def member (value : Json) (key : String) : Json := (value.get? key).getD .null

/-- The transaction and the index by which a log answer names its event. -/
def identity (item : Json) : Result (String × ℕ) := do
  let txHash ← hashAt item "transactionHash"
  let logIndex ← quantityAt item "logIndex"
  return (txHash, logIndex)

/-- What the loop over the logs of one direction carries. -/
structure Found where
  seen : List (String × ℕ)
  transfers : Table EventId ConfirmedTransfer

/-- The facts in which two readings of one event must agree. -/
def sameTransfer (a b : ConfirmedTransfer) : Prop :=
  a.sender = b.sender ∧ a.recipient = b.recipient ∧ a.amount = b.amount ∧
    a.blockHash = b.blockHash

instance (a b : ConfirmedTransfer) : Decidable (sameTransfer a b) :=
  inferInstanceAs (Decidable (_ ∧ _))

/-- One log of a direction. -/
def addLog (network : Network) (first last : ℕ) (direction : Direction) (found : Found)
    (item : Json) : Reading Found := do
  let name ← identity item
  check (name ∉ found.seen) (.funds "duplicate transfer in a log response")
  let value ← Reading.transfer network name.1 name.2
  check (first ≤ value.blockNumber ∧ value.blockNumber ≤ last)
    (.funds "transfer falls outside requested finalized range")
  check (direction.party value = network.custody)
    (.funds "transfer does not match its custody filter")
  let receipt ← field value.evidence "receipt"
  let log ← Reading.firstLog receipt value.logIndex
  check (∀ key ∈ ["address", "transactionHash", "logIndex", "blockNumber", "blockHash", "topics",
      "data"], member item key = member log key)
    (.funds "log response differs from its verified receipt")
  check ((item.get? "removed").any Json.truthy = false)
    (.funds "removed transfer cannot be credited")
  check (∀ previous ∈ found.transfers.lookup value.eventId, sameTransfer previous value)
    (.conflict "conflicting custody transfer facts")
  return { seen := name :: found.seen
           transfers := AList.insert value.eventId value found.transfers }

/-- `isinstance(logs, list)` and not too many. -/
def logList : Json → Result (List Json)
  | .arr logs => do
      require (logs.length ≤ 10000) (.funds "invalid or oversized custody log response")
      return logs
  | _ => .error (.funds "invalid or oversized custody log response")

/-- The transfers of one direction. -/
def scan (network : Network) (first last : ℕ) (transfers : Table EventId ConfirmedTransfer)
    (direction : Direction) : Reading (Table EventId ConfirmedTransfer) := do
  let query := logFilter network first last direction
  let answer ← rpc query.1 query.2
  let logs ← logList answer
  let found ← logs.foldlM (addLog network first last direction) ⟨[], transfers⟩
  return found.transfers

/-- What a transfer changes in the wallet's balance. -/
def change (network : Network) (value : ConfirmedTransfer) : ℤ :=
  (if value.recipient = network.custody then (value.amount : ℤ) else 0) -
    if value.sender = network.custody then (value.amount : ℤ) else 0

/-- `(block_number, tx_hash, log_index)` in order. -/
def precedes (a b : ConfirmedTransfer) : Prop :=
  a.blockNumber < b.blockNumber ∨ a.blockNumber = b.blockNumber ∧
    (a.txHash < b.txHash ∨ a.txHash = b.txHash ∧ a.logIndex ≤ b.logIndex)

instance : DecidableRel precedes := fun _ _ => inferInstanceAs (Decidable (_ ∨ _))

/-- What a range is read to. -/
structure Verified where
  network : Network
  first : ℕ
  last : ℕ
  target : ℤ
  beforeHash : String
  blockHash : String
  opening : Balances
  closing : Balances
  transfers : List ConfirmedTransfer
  checkedAt : Time
  custodyCode : Json
deriving DecidableEq

/-- The last block that counts as settled: the finalized one, and deep enough. -/
def target (network : Network) (head final : ℕ) : ℤ :=
  min (final : ℤ) ((head : ℤ) - network.confirmations + 1)

/-- The transfers in both directions, unless the range is empty. -/
def transfersIn (network : Network) (first last : ℕ) :
    Reading (Table EventId ConfirmedTransfer) :=
  if first ≤ last then
    [Direction.incoming, .outgoing].foldlM (scan network first last) ∅
  else return ∅

/-- The block at the end of the range; of an empty range it is the one before. -/
def endBlock (before : Json) (first last : ℕ) : Reading Json :=
  if last + 1 = first then return before
  else rpc "eth_getBlockByNumber" [hex last, .bool false]

/-- Version 1 wants a wallet without code.  Version 2 takes a known form of delegation; whether it
is ours is asked when it is recorded. -/
def checkCode (version : ℤ) (code : Json) : Result Unit := do
  require (version = 1 → code = .str "0x")
    (.funds "custody indexing currently requires an undelegated EOA wallet")
  if version = 2 then
    let _ ← SponsoredWithdrawals.delegation code
    return ()
  else return ()

def read (network : Network) (first count : ℤ) (checkedAt : Time) (version : ℤ) :
    Reading Verified := do
  let first ← units first true
  check (1 ≤ count ∧ count ≤ 1000) (.funds "chain batch size must be 1 to 1000")
  check (network.requireFinalized = true) (.funds "custody indexing requires finalized evidence")
  Reading.verifyNetwork network
  let latest ← rpc "eth_getBlockByNumber" [.str "latest", .bool false]
  let finalized ← rpc "eth_getBlockByNumber" [.str "finalized", .bool false]
  let head ← header latest
  let final ← header finalized
  let timestamp ← quantityAt latest "timestamp"
  check (final ≤ head ∧ seconds (-5) ≤ checkedAt - seconds timestamp ∧
      checkedAt - seconds timestamp ≤ seconds 120) (.funds "chain head is stale or inconsistent")
  let target := target network head final
  check ((first : ℤ) - 1 ≤ min target (first + count - 1))
    (.conflict "chain source is behind the recorded custody cursor")
  let last := (min target (first + count - 1)).toNat
  let before ← rpc "eth_getBlockByNumber" [hex (first - 1), .bool false]
  let _ ← header before (some (first - 1))
  let opening ← balances network (first - 1)
  let closingBlock ← endBlock before first last
  let _ ← header closingBlock (some last)
  let transfers ← transfersIn network first last
  let closing ← balances network last
  let moved := transfers.entries.map (·.2)
  check ((closing.tig : ℤ) - opening.tig = (moved.map (change network)).sum)
    (.conflict "TIG balance change does not match the complete captured transfer range")
  let custodyCode ← rpc "eth_getCode" [.str network.custody, hex last]
  checkCode version custodyCode
  let repeated ← rpc "eth_getBlockByNumber" [hex last, .bool false]
  let _ ← header repeated (some last)
  let again ← hashAt repeated "hash"
  let blockHash ← hashAt closingBlock "hash"
  check (again = blockHash) (.conflict "finalized custody anchor changed during capture")
  let beforeHash ← hashAt before "hash"
  return { network, first, last, target, beforeHash, blockHash, opening, closing,
           transfers := moved.insertionSort precedes, checkedAt, custodyCode }

/-! ## Archives -/

/-- What a capture keeps: the question, when it was asked, and all that was asked and answered. -/
structure CaptureData where
  version : ℤ
  network : Network
  first : ℤ
  count : ℤ
  checkedAt : Time
  /-- Does the time say in which zone it is? -/
  zoned : Bool
  source : String
  calls : List (Query × Json)
  error : Option String
deriving DecidableEq

/-- `type(failure).__name__`, where `malformed` stands for several. -/
def typeName : Error → String
  | .funds _ => "FundsError"
  | .conflict _ => "Conflict"
  | .insufficientFunds _ => "InsufficientFunds"
  | .protocolData _ => "ProtocolDataError"
  | .integrity _ => "IntegrityError"
  | .value _ => "ValueError"
  | .malformed _ => "KeyError"

/-- Read a range from an endpoint, and keep the complete or failed attempt. -/
def capture {S : Type} (answer : S → Query → Result Json × S) (s : S) (network : Network)
    (first count : ℤ) (now : Time) (source : String) : CaptureData :=
  let run := (read network first count now 2).record answer s
  { version := 2, network, first, count, checkedAt := now, zoned := true, source,
    calls := run.2.1
    error := match run.1 with
      | .ok _ => none
      | .error e => some (typeName e) }

/-- Read a range again from what was kept. -/
def verify (data : CaptureData) : Result Verified := do
  require ((data.version = 1 ∨ data.version = 2) ∧ data.error.all (· = "") = true)
    (.funds "custody capture is incomplete or unsupported")
  require (data.zoned = true) (.funds "custody capture time requires an explicit timezone")
  let network ← data.network.postInit
  (read network data.first data.count data.checkedAt data.version).replay
    (.funds "custody archive has missing or reordered RPC evidence")
    (.funds "custody archive has unconsumed RPC evidence") data.calls

theorem verify_eq_ok {data : CaptureData} {v : Verified} : verify data = .ok v ↔
    ((data.version = 1 ∨ data.version = 2) ∧ data.error.all (· = "") = true) ∧
      data.zoned = true ∧ ∃ network, data.network.postInit = .ok network ∧
        Answered (read network data.first data.count data.checkedAt data.version) data.calls v := by
  simp only [verify, bind_eq_ok, require_eq_ok, exists_const, replay_eq_ok]

/-! ## What a reading says -/

variable {network : Network} {first last : ℕ} {direction : Direction} {log : List (Query × Json)}

/-- Lower case of a hexadecimal text. -/
theorem hexDigits_toLower {s : String} {digits : List Char}
    (h : hexDigits (.str s) = some digits) :
    hexDigits (.str s.toLower) = some (digits.map Char.toLower) ∧ s.toLower.toLower = s.toLower := by
  simp only [hexDigits, Option.ite_none_right_eq_some, Option.some.injEq, List.all_eq_true] at h ⊢
  obtain ⟨⟨hzerox, hhex⟩, rfl⟩ := h
  have hlower (t : String) : t.toLower.toList = t.toList.map Char.toLower := String.toList_map
  have htake : s.toLower.toList.take 2 = ['0', 'x'] := by
    rw [hlower, ← List.map_take, hzerox]
    rfl
  have hdrop : s.toLower.toList.drop 2 = (s.toList.drop 2).map Char.toLower := by
    rw [hlower, List.map_drop]
  refine ⟨⟨⟨htake, ?_⟩, hdrop⟩, ?_⟩
  · intro c hc
    rw [hdrop] at hc
    obtain ⟨d, hd, rfl⟩ := List.mem_map.mp hc
    exact (toLower_hexDigit (hhex d hd)).2.1
  · apply String.toList_inj.mp
    rw [hlower s.toLower, ← List.take_append_drop 2 s.toLower.toList, List.map_append, htake, hdrop,
      List.map_map]
    congr 1
    exact List.map_congr_left fun c hc => (toLower_hexDigit (hhex c hc)).1

/-- A hash is in its normal form. -/
theorem hexBytes_hexBytes {value : Json} {n : ℕ} {hash : String}
    (h : hexBytes value n = .ok hash) : hexBytes (.str hash) n = .ok hash := by
  cases value with
  | str s =>
      simp only [hexBytes, bind_eq_ok, require_eq_ok, exists_const, pure_eq_ok,
        Option.any_eq_true, decide_eq_true_eq] at h ⊢
      obtain ⟨⟨digits, hdigits, hlength⟩, rfl⟩ := h
      obtain ⟨hlower, hsame⟩ := hexDigits_toLower hdigits
      exact ⟨⟨_, hlower, by rw [List.length_map, hlength]⟩, hsame⟩
  | _ => cases h

theorem identity_hash {item : Json} {name : String × ℕ} (h : identity item = .ok name) :
    hexBytes (.str name.1) 32 = .ok name.1 := by
  simp only [identity, hashAt, bind_eq_ok, pure_eq_ok] at h
  obtain ⟨hash, ⟨_, -, hhash⟩, _, -, rfl⟩ := h
  exact hexBytes_hexBytes hhash

theorem transfer_spec {hash : String} {index : ℕ} {value : ConfirmedTransfer}
    (hhash : hexBytes (.str hash) 32 = .ok hash)
    (h : Answered (Reading.transfer network hash index) log value) :
    value.network = network ∧ value.txHash = hash ∧ value.logIndex = index ∧
      (value.sender = network.custody ∨ value.recipient = network.custody) := by
  simp only [Reading.transfer, answered_lift_bind, hhash, Except.ok.injEq, exists_eq_left'] at h
  obtain ⟨_, _, -, _, h, -⟩ := answered_bind.mp h
  simp only [answered_lift_bind, answered_check_bind, answered_pure] at h
  obtain ⟨_, -, -, _, -, _, -, _, -, facts, -, hcustody, _, -, -, -, rfl⟩ := h
  exact ⟨rfl, rfl, rfl, hcustody.imp Eq.symm Eq.symm⟩

/-- The transfer involves the wallet, and its block is in the range. -/
structure InRange (network : Network) (first last : ℕ) (value : ConfirmedTransfer) : Prop where
  same : value.network = network
  above : first ≤ value.blockNumber
  below : value.blockNumber ≤ last
  involves : value.sender = network.custody ∨ value.recipient = network.custody

/-- The table holds transfers of the range, each under its event. -/
def Fits (network : Network) (first last : ℕ) (t : Table EventId ConfirmedTransfer) : Prop :=
  ∀ {e value}, t.lookup e = some value → value.eventId = e ∧ InRange network first last value

/-- The log is one of this transfer, in the direction it was asked for. -/
def Names (network : Network) (direction : Direction) (item : Json) (value : ConfirmedTransfer) :
    Prop :=
  identity item = .ok (value.txHash, value.logIndex) ∧ direction.party value = network.custody

/-- The transfer of the log is in the table. -/
def Listed (network : Network) (t : Table EventId ConfirmedTransfer) (direction : Direction)
    (item : Json) : Prop :=
  ∃ e value, t.lookup e = some value ∧ Names network direction item value

/-- What a scan through the logs of a direction makes of the table. -/
structure Scanned (network : Network) (direction : Direction) (t : Table EventId ConfirmedTransfer)
    (items : List Json) (t' : Table EventId ConfirmedTransfer) : Prop where
  keeps : ∀ {d item}, Listed network t d item → Listed network t' d item
  lists : ∀ item ∈ items, Listed network t' direction item
  source : ∀ {e value}, t'.lookup e = some value →
    t.lookup e = some value ∨ ∃ item ∈ items, Names network direction item value

theorem sameTransfer.party {a b : ConfirmedTransfer} (h : sameTransfer a b) :
    direction.party a = direction.party b := by
  cases direction with
  | incoming => exact h.2.1
  | outgoing => exact h.1

theorem addLog_spec {found found' : Found} {item : Json}
    (h : Answered (addLog network first last direction found item) log found') :
    ∃ value, found'.transfers = AList.insert value.eventId value found.transfers ∧
      Names network direction item value ∧ InRange network first last value ∧
      ∀ previous ∈ found.transfers.lookup value.eventId, sameTransfer previous value := by
  simp only [addLog, answered_lift_bind, answered_check_bind] at h
  obtain ⟨name, hname, -, h⟩ := h
  obtain ⟨_, value, htransfer, _, h, -⟩ := answered_bind.mp h
  simp only [answered_lift_bind, answered_check_bind, answered_pure] at h
  obtain ⟨hrange, hparty, _, -, _, -, -, -, hsame, -, rfl⟩ := h
  obtain ⟨hnetwork, hhash, hindex, hinvolves⟩ := transfer_spec (identity_hash hname) htransfer
  refine ⟨value, rfl, ⟨?_, hparty⟩, ⟨hnetwork, hrange.1, hrange.2, hinvolves⟩, hsame⟩
  rw [hname, hhash, hindex]

theorem Listed.insert {t : Table EventId ConfirmedTransfer} {value : ConfirmedTransfer}
    {item : Json} (hfits : Fits network first last t)
    (hsame : ∀ previous ∈ t.lookup value.eventId, sameTransfer previous value)
    (h : Listed network t direction item) :
    Listed network (AList.insert value.eventId value t) direction item := by
  obtain ⟨e, listed, hlookup, hnames, hparty⟩ := h
  by_cases he : e = value.eventId
  · -- The event is read a second time, with the same facts.
    subst he
    have hevent : listed.eventId = value.eventId := (hfits hlookup).1
    simp only [ConfirmedTransfer.eventId, EventId.mk.injEq] at hevent
    refine ⟨value.eventId, value, AList.lookup_insert _, ?_, ?_⟩
    · rw [hnames, hevent.2.2.1, hevent.2.2.2]
    · rw [← (hsame listed hlookup).party, hparty]
  · exact ⟨e, listed, by rw [AList.lookup_insert_ne he]; exact hlookup, hnames, hparty⟩

/-- One round of the loop over the logs. -/
theorem Scanned.round {t : Table EventId ConfirmedTransfer} {items : List Json} {item : Json}
    {found found' : Found} (hfits : Fits network first last found.transfers)
    (hscanned : Scanned network direction t items found.transfers)
    (h : Answered (addLog network first last direction found item) log found') :
    Fits network first last found'.transfers ∧
      Scanned network direction t (items ++ [item]) found'.transfers := by
  obtain ⟨value, htable, hnames, hrange, hsame⟩ := addLog_spec h
  rw [htable]
  refine ⟨?_, ⟨fun hlisted => (hscanned.keeps hlisted).insert hfits hsame, ?_, ?_⟩⟩
  · intro e listed hlookup
    rcases Table.lookup_insert_cases hlookup with ⟨rfl, rfl⟩ | ⟨-, hlookup⟩
    · exact ⟨rfl, hrange⟩
    · exact hfits hlookup
  · intro other hother
    rcases List.mem_append.mp hother with hother | hother
    · exact (hscanned.lists other hother).insert hfits hsame
    · obtain rfl := List.mem_singleton.mp hother
      exact ⟨value.eventId, value, AList.lookup_insert _, hnames⟩
  · intro e listed hlookup
    rcases Table.lookup_insert_cases hlookup with ⟨rfl, rfl⟩ | ⟨-, hlookup⟩
    · exact .inr ⟨item, by simp, hnames⟩
    · refine (hscanned.source hlookup).imp_right ?_
      rintro ⟨other, hother, hnames⟩
      exact ⟨other, List.mem_append_left _ hother, hnames⟩

/-- A scan finds the transfers of all logs that were answered, and no others. -/
theorem scan_spec {t t' : Table EventId ConfirmedTransfer} (hfits : Fits network first last t)
    (h : Answered (scan network first last t direction) log t') :
    Fits network first last t' ∧ ∃ logs,
      (logFilter network first last direction, .arr logs) ∈ log ∧
        Scanned network direction t logs t' := by
  simp only [scan, rpc, answered_query_bind, answered_lift_bind] at h
  obtain ⟨answer, rest, ⟨logs, hlogs, h⟩, rfl⟩ := h
  obtain ⟨part, found, hloop, _, hend, rfl⟩ := answered_bind.mp h
  obtain ⟨rfl, rfl⟩ := answered_pure.mp hend
  obtain rfl : answer = .arr logs := by
    cases answer with
    | arr items =>
        simp only [logList, bind_eq_ok, require_eq_ok, exists_const, pure_eq_ok] at hlogs
        rw [hlogs.2]
    | _ => cases hlogs
  have hstart : Scanned network direction t [] t := ⟨id, List.forall_mem_nil _, .inl⟩
  have hall := @Answered.foldlM _ _ _ _ _ _
    (fun seen found => Fits network first last found.transfers ∧
      Scanned network direction t seen found.transfers)
    (fun seen item _ _ part hI hround => Scanned.round hI.1 hI.2 hround)
    logs [] ⟨[], t⟩ _ _ ⟨hfits, hstart⟩ hloop
  exact ⟨hall.1, logs, List.mem_cons_self .., hall.2⟩

/-- What the two scans of a range find. -/
structure Gathered (network : Network) (first last : ℕ) (log : List (Query × Json))
    (t : Table EventId ConfirmedTransfer) : Prop where
  fits : Fits network first last t
  lists : first ≤ last → ∀ direction, ∃ logs,
    (logFilter network first last direction, .arr logs) ∈ log ∧
      ∀ item ∈ logs, Listed network t direction item
  source : ∀ {e value}, t.lookup e = some value → ∃ direction logs,
    (logFilter network first last direction, .arr logs) ∈ log ∧
      ∃ item ∈ logs, Names network direction item value

theorem transfersIn_spec {t : Table EventId ConfirmedTransfer}
    (h : Answered (transfersIn network first last) log t) : Gathered network first last log t := by
  have hempty : Fits network first last ∅ := fun hlookup => by cases hlookup
  unfold transfersIn at h
  split at h
  next hle =>
    simp only [List.foldlM_cons, List.foldlM_nil] at h
    obtain ⟨log₁, t₁, h₁, _, hrest, rfl⟩ := answered_bind.mp h
    obtain ⟨log₂, t₂, h₂, _, hend, rfl⟩ := answered_bind.mp hrest
    obtain ⟨rfl, rfl⟩ := answered_pure.mp hend
    obtain ⟨hfits₁, incoming, hin, hscanned₁⟩ := scan_spec hempty h₁
    obtain ⟨hfits₂, outgoing, hout, hscanned₂⟩ := scan_spec hfits₁ h₂
    rw [List.append_nil]
    refine ⟨hfits₂, fun _ direction => ?_, fun {e value} hlookup => ?_⟩
    · cases direction with
      | incoming =>
          exact ⟨incoming, List.mem_append_left _ hin, fun item hitem =>
            hscanned₂.keeps (hscanned₁.lists item hitem)⟩
      | outgoing => exact ⟨outgoing, List.mem_append_right _ hout, hscanned₂.lists⟩
    · rcases hscanned₂.source hlookup with hlookup | hnamed
      · rcases hscanned₁.source hlookup with hnone | hnamed
        · cases hnone
        · exact ⟨.incoming, incoming, List.mem_append_left _ hin, hnamed⟩
      · exact ⟨.outgoing, outgoing, List.mem_append_right _ hout, hnamed⟩
  next hlt =>
    obtain ⟨-, rfl⟩ := answered_pure.mp h
    exact ⟨hempty, fun hle => absurd hle hlt, fun hlookup => by cases hlookup⟩

/-- A complete account of what happened to the wallet in a range of settled blocks, as far as
the endpoint told: the answers to the two log filters are spoken for event by event, and add up
to the change of the balance. -/
structure Verified.Complete (v : Verified) (calls : List (Query × Json)) : Prop where
  finalized : v.network.requireFinalized = true
  above : 1 ≤ v.first
  next : v.first ≤ v.last + 1
  settled : (v.last : ℤ) ≤ v.target
  inRange : ∀ value ∈ v.transfers, InRange v.network v.first v.last value
  once : (v.transfers.map (·.eventId)).Nodup
  balance : (v.closing.tig : ℤ) - v.opening.tig = (v.transfers.map (change v.network)).sum
  lists : v.first ≤ v.last → ∀ direction, ∃ logs,
    (logFilter v.network v.first v.last direction, .arr logs) ∈ calls ∧
      ∀ item ∈ logs, ∃ value ∈ v.transfers, Names v.network direction item value
  source : ∀ value ∈ v.transfers, ∃ direction logs,
    (logFilter v.network v.first v.last direction, .arr logs) ∈ calls ∧
      ∃ item ∈ logs, Names v.network direction item value
  unmoved : v.last + 1 = v.first → v.blockHash = v.beforeHash

theorem Gathered.events {t : Table EventId ConfirmedTransfer}
    (h : Gathered network first last log t) :
    (t.entries.map (·.2)).map (·.eventId) = t.keys := by
  rw [List.map_map]
  refine List.map_congr_left fun entry hentry => ?_
  exact (h.fits (Table.mem_entries_iff.mp hentry)).1

theorem read_spec {first count version : ℤ} {checkedAt : Time} {calls : List (Query × Json)}
    {v : Verified} (h : Answered (read network first count checkedAt version) calls v) :
    v.network = network ∧ (v.first : ℤ) = first ∧ v.Complete calls := by
  simp only [read, answered_lift_bind, answered_check_bind] at h
  obtain ⟨start, hstart, hcount, hfinal, h⟩ := h
  obtain ⟨_, _, -, _, hblocks, rfl⟩ := answered_bind.mp h
  simp only [rpc, answered_query_bind, answered_lift_bind, answered_check_bind] at hblocks
  obtain ⟨latest, _, ⟨finalized, _, ⟨head, -, final, -, stamp, -, -, hbehind, before, _,
    ⟨_, -, hwallet⟩, rfl⟩, rfl⟩, rfl⟩ := hblocks
  generalize hlast : (min (target network head final) ((start : ℤ) + count - 1)).toNat = last
    at hwallet
  obtain ⟨_, opening, -, _, hend, rfl⟩ := answered_bind.mp hwallet
  obtain ⟨_, closingBlock, hblock, _, hheader, rfl⟩ := answered_bind.mp hend
  obtain ⟨_, -, hscan⟩ := answered_lift_bind.mp hheader
  obtain ⟨part, t, htransfers, _, hclose, rfl⟩ := answered_bind.mp hscan
  obtain ⟨_, closing, -, _, hcheck, rfl⟩ := answered_bind.mp hclose
  simp only [answered_query_bind, answered_lift_bind, answered_check_bind, answered_pure] at hcheck
  obtain ⟨hbalance, code, _, ⟨_, -, repeated, _, ⟨_, -, again, -, blockHash, hhash, -, beforeHash,
    hbefore, -, rfl⟩, rfl⟩, rfl⟩ := hcheck
  obtain ⟨hunits, hpositive⟩ := units_eq_ok.mp hstart
  have hpositive : 1 ≤ start := hpositive
  have hgathered := transfersIn_spec htransfers
  have hperm := List.perm_insertionSort precedes (t.entries.map (·.2))
  have hmem {value : ConfirmedTransfer} :
      value ∈ (t.entries.map (·.2)).insertionSort precedes ↔ ∃ e, t.lookup e = some value := by
    rw [hperm.mem_iff, List.mem_map]
    constructor
    · rintro ⟨entry, hentry, rfl⟩
      exact ⟨entry.1, Table.mem_entries_iff.mp hentry⟩
    · rintro ⟨e, hlookup⟩
      exact ⟨⟨e, value⟩, Table.mem_entries_iff.mpr hlookup, rfl⟩
  refine ⟨rfl, hunits.symm, hfinal, hpositive, ?_, ?_, ?_, ?_, ?_, ?_, ?_, ?_⟩
  · dsimp only
    omega
  · dsimp only
    omega
  · intro value hvalue
    obtain ⟨e, hlookup⟩ := hmem.mp hvalue
    exact (hgathered.fits hlookup).2
  · refine (hperm.map _).nodup_iff.mpr ?_
    rw [hgathered.events]
    exact t.keys_nodup
  · rw [(hperm.map _).sum_eq]
    exact hbalance
  · intro hle direction
    obtain ⟨logs, hlogs, hlisted⟩ := hgathered.lists hle direction
    refine ⟨logs, by simp [hlogs], fun item hitem => ?_⟩
    obtain ⟨e, value, hlookup, hnames⟩ := hlisted item hitem
    exact ⟨value, hmem.mpr ⟨e, hlookup⟩, hnames⟩
  · intro value hvalue
    obtain ⟨e, hlookup⟩ := hmem.mp hvalue
    obtain ⟨direction, logs, hlogs, hsource⟩ := hgathered.source hlookup
    exact ⟨direction, logs, by simp [hlogs], hsource⟩
  · intro hempty
    dsimp only at hempty
    rw [endBlock, if_pos hempty] at hblock
    obtain ⟨-, rfl⟩ := answered_pure.mp hblock
    exact Except.ok.inj (hhash.symm.trans hbefore)

/-- A network that was checked once passes again unchanged. -/
theorem postInit_postInit {raw network : Network} (h : raw.postInit = .ok network) :
    network.postInit = .ok network := by
  simp only [Network.postInit, bind_eq_ok, require_eq_ok, exists_const, pure_eq_ok] at h ⊢
  obtain ⟨_, hchain, _, hconfirmations, hdecimals, token, htoken, custody, hcustody, rfl⟩ := h
  exact ⟨_, hchain, _, hconfirmations, hdecimals, token, address_address htoken, custody,
    address_address hcustody, rfl⟩

theorem typeName_ne_empty (e : Error) : typeName e ≠ "" := by
  cases e <;> simp [typeName]

/-- A capture verifies to what it has read, and only if it has read everything. -/
theorem verify_capture {S : Type} {answer : S → Query → Result Json × S} {s : S} {first count : ℤ}
    {now : Time} {source : String} {v : Verified} (hnetwork : network.postInit = .ok network) :
    verify (capture answer s network first count now source) = .ok v ↔
      ((read network first count now 2).record answer s).1 = .ok v := by
  rw [verify_eq_ok]
  simp only [capture, or_true, true_and, hnetwork, Except.ok.injEq, exists_eq_left']
  constructor
  · rintro ⟨hcomplete, hanswered⟩
    cases hrun : ((read network first count now 2).record answer s).1 with
    | error e =>
        rw [hrun] at hcomplete
        exact absurd (of_decide_eq_true hcomplete) (typeName_ne_empty e)
    | ok v' =>
        -- The log answers the reading in one way only.
        rcases (answered_record hrun).part hanswered with ⟨-, rfl⟩ | ⟨same, question, x, x', rest,
          rest', hne, hlog, hlog'⟩
        · rfl
        · have heq := List.append_cancel_left (hlog.symm.trans hlog')
          simp only [List.cons.injEq, Prod.mk.injEq] at heq
          exact absurd heq.1.2 hne
  · intro hrun
    rw [hrun]
    exact ⟨rfl, answered_record hrun⟩

end ChainObserver

open ChainObserver in
/-- Archives of custody captures speak for themselves.  A capture verifies to what it has read
from its endpoint, and a failed one does not verify.  Whatever archive verifies is a complete
account of its range; an endpoint that answers from it is captured to the same archive again; and
no other archive of the same question verifies unless it gives another answer somewhere. -/
theorem custody_archives {network : Network} (hnetwork : network.postInit = .ok network) :
    (∀ {S : Type} (answer : S → Query → Result Json × S) (s : S) (first count : ℤ) (now : Time)
      (source : String) (v : Verified),
      verify (capture answer s network first count now source) = .ok v ↔
        ((read network first count now 2).record answer s).1 = .ok v) ∧
    ∀ (data : CaptureData) (v : Verified), verify data = .ok v → data.network = network →
      v.network = network ∧ (v.first : ℤ) = data.first ∧ v.Complete data.calls ∧
      (data.version = 2 → ∀ missing source,
        let again := capture (fromLog missing) data.calls network data.first data.count
          data.checkedAt source
        again.calls = data.calls ∧ verify again = .ok v) ∧
      ∀ calls v', verify { data with calls } = .ok v' → calls = data.calls ∧ v' = v ∨
        ∃ same question answer answer' rest rest', answer ≠ answer' ∧
          data.calls = same ++ (question, answer) :: rest ∧
          calls = same ++ (question, answer') :: rest' := by
  refine ⟨fun answer s first count now source v => verify_capture hnetwork, ?_⟩
  rintro data v hverify rfl
  obtain ⟨hkind, hzoned, network, hinit, hanswered⟩ := verify_eq_ok.mp hverify
  obtain rfl : data.network = network := Except.ok.inj (hnetwork.symm.trans hinit)
  obtain ⟨hsame, hfirst, hcomplete⟩ := read_spec hanswered
  refine ⟨hsame, hfirst, hcomplete, fun hversion missing source => ?_, fun calls v' hother => ?_⟩
  · rw [hversion] at hanswered
    have hrecord : (read data.network data.first data.count data.checkedAt 2).record
        (fromLog missing) data.calls = (.ok v, data.calls, []) := record_fromLog hanswered
    refine ⟨congrArg (·.2.1) hrecord, (verify_capture hnetwork).mpr ?_⟩
    exact congrArg (·.1) hrecord
  · obtain ⟨-, -, network', hinit', hanswered'⟩ := verify_eq_ok.mp hother
    obtain rfl : data.network = network' := Except.ok.inj (hnetwork.symm.trans hinit')
    rcases hanswered.part hanswered' with ⟨hcalls, hv⟩ | hparts
    · exact .inl ⟨hcalls.symm, hv.symm⟩
    · exact .inr hparts

/-! ## A day on the chain

The member pays in at block 200 and is paid at block 215; a stranger pays in at block 216.  One
capture is taken at block 212, where 200 is finalized, and one at block 230, where it is 219. -/

namespace CustodyDay

def network : Network where
  chainId := 8453
  token := "0x0c03ce270b4826ec62e7dd007f0b716068639f7b"
  custody := "0x00000000000000000000000000000000000000bb"
  confirmations := 12
  decimals := 18
  requireFinalized := true

def wallet : Address := "0x00000000000000000000000000000000000000aa"

def stranger : Address := "0x00000000000000000000000000000000000000ee"

/-- The hash of a block or a transaction. -/
@[irreducible] def hash (letter : Char) (number : ℕ) : String :=
  "0x" ++ String.ofList (List.replicate 61 letter ++ Nat.toDigits 10 number)

/-- A number as a word. -/
def padded (n : ℕ) : Json :=
  let digits := Nat.toDigits 16 n
  .str ("0x" ++ String.ofList (List.replicate (64 - digits.length) '0' ++ digits))

/-- A transfer of tokens, the only event of its block. -/
structure Event where
  block : ℕ
  sender : Address
  recipient : Address
  amount : ℕ

def Event.txHash (event : Event) : String := hash 'c' event.block

def deposit : Event := ⟨200, wallet, network.custody, 5 * tig⟩

def payment : Event := ⟨215, network.custody, wallet, 3 * tig⟩

def income : Event := ⟨216, stranger, network.custody, 2 * tig⟩

/-! ### The answers -/

def header (height : ℕ) : Json :=
  .obj [("hash", .str (hash 'b' height)), ("number", hex height), ("timestamp", hex (2 * height))]

def log (event : Event) : Json :=
  .obj [("address", .str network.token), ("blockHash", .str (hash 'b' event.block)),
    ("blockNumber", hex event.block), ("data", padded event.amount), ("logIndex", hex 0),
    ("topics", .arr [.str Reading.transferTopic, .str ("0x" ++ ChainObserver.padded event.sender),
      .str ("0x" ++ ChainObserver.padded event.recipient)]),
    ("transactionHash", .str event.txHash)]

def receipt (event : Event) : Json :=
  .obj [("blockHash", .str (hash 'b' event.block)), ("blockNumber", hex event.block),
    ("logs", .arr [log event]), ("status", hex 1), ("transactionHash", .str event.txHash)]

def blockCall (tag : Json) (height : ℕ) : Query × Json :=
  (("eth_getBlockByNumber", [tag, .bool false]), header height)

def networkCalls : List (Query × Json) :=
  [(("eth_chainId", []), hex network.chainId),
    (("eth_call", [.obj [("data", .str "0x313ce567"), ("to", .str network.token)], .str "latest"]),
      hex network.decimals)]

def transferCalls (final head : ℕ) (event : Event) : List (Query × Json) :=
  networkCalls ++ [(("eth_getTransactionReceipt", [.str event.txHash]), receipt event),
    blockCall (.str "latest") head, blockCall (.str "finalized") final,
    blockCall (hex event.block) event.block]

def balanceCalls (height : ℕ) (found : ChainObserver.Balances) : List (Query × Json) :=
  [(("eth_call", [.obj [("data", .str ("0x70a08231" ++ ChainObserver.padded network.custody)),
      ("to", .str network.token)], hex height]), padded found.tig),
    (("eth_getBalance", [.str network.custody, hex height]), hex found.native),
    (("eth_getTransactionCount", [.str network.custody, hex height]), hex found.nonce)]

def logCalls (first last head : ℕ) (direction : ChainObserver.Direction) (events : List Event) :
    List (Query × Json) :=
  (ChainObserver.logFilter network first last direction, .arr (events.map log)) ::
    events.flatMap (transferCalls last head)

def calls (first last head : ℕ) (opening closing : ChainObserver.Balances)
    (incoming outgoing : List Event) : List (Query × Json) :=
  networkCalls ++
    blockCall (.str "latest") head :: blockCall (.str "finalized") last ::
    blockCall (hex (first - 1)) (first - 1) :: (balanceCalls (first - 1) opening ++
      ([blockCall (hex last) last] ++ ((logCalls first last head .incoming incoming ++
        logCalls first last head .outgoing outgoing) ++ (balanceCalls last closing ++
          [(("eth_getCode", [.str network.custody, hex last]), .str "0x"),
            blockCall (hex last) last]))))

/-- The capture of the blocks up to the finalized one. -/
def captured (first last head : ℕ) (opening closing : ChainObserver.Balances)
    (incoming outgoing : List Event) : ChainObserver.CaptureData where
  version := 2
  network := network
  first := first
  count := 1000
  checkedAt := seconds (2 * head + 1 : ℕ)
  zoned := true
  source := "rpc"
  calls := calls first last head opening closing incoming outgoing
  error := none

/-! ### What is read from them -/

def confirmed (final head : ℕ) (event : Event) : ConfirmedTransfer where
  network := network
  txHash := event.txHash
  logIndex := 0
  blockNumber := event.block
  blockHash := hash 'b' event.block
  blockTimestamp := seconds (2 * event.block : ℕ)
  sender := event.sender
  recipient := event.recipient
  amount := event.amount
  evidence := .obj [("finalized", header final), ("header", header event.block),
    ("latest", header head), ("receipt", receipt event)]

def verified (first last head : ℕ) (opening closing : ChainObserver.Balances)
    (transfers : List Event) : ChainObserver.Verified where
  network := network
  first := first
  last := last
  target := last
  beforeHash := hash 'b' (first - 1)
  blockHash := hash 'b' last
  opening := opening
  closing := closing
  transfers := transfers.map (confirmed last head)
  checkedAt := seconds (2 * head + 1 : ℕ)
  custodyCode := .str "0x"

def heights : List ℕ := [199, 200, 212, 215, 216, 219, 230]

def amounts : List ℕ := [0, 2 * tig, 3 * tig, 4 * tig, 5 * tig]

def parties : List Address := [wallet, stranger, network.custody]

/-- Texts of lower-case digits are what they are read to. -/
theorem hexBytes_lower {digits : List Char} {n : ℕ}
    (hhex : ∀ c ∈ digits, isHexDigit c = true ∧ c.toLower = c) (hlength : digits.length = n * 2) :
    hexBytes (.str ("0x" ++ String.ofList digits)) n = .ok ("0x" ++ String.ofList digits) := by
  have hlist : ("0x" ++ String.ofList digits).toList = '0' :: 'x' :: digits := by
    simp only [String.toList_append, String.toList_ofList]
    rfl
  have hdigits : hexDigits (.str ("0x" ++ String.ofList digits)) = some digits := by
    simp only [hexDigits, hlist]
    exact if_pos ⟨rfl, List.all_eq_true.mpr fun c hc => (hhex c hc).1⟩
  simp only [hexBytes, hdigits, bind_eq_ok, require_eq_ok, exists_const, pure_eq_ok]
  refine ⟨decide_eq_true hlength, String.toList_inj.mp ?_⟩
  rw [show ("0x" ++ String.ofList digits).toLower.toList = _ from String.toList_map, hlist]
  rw [List.map_cons, List.map_cons, List.map_congr_left fun c hc => (hhex c hc).2, List.map_id']
  rfl

theorem lower_of_all {digits : List Char}
    (h : (digits.all fun c => isHexDigit c && c.toLower == c) = true) :
    ∀ c ∈ digits, isHexDigit c = true ∧ c.toLower = c := by
  intro c hc
  simpa using List.all_eq_true.mp h c hc

/-- A letter is repeated before such digits. -/
theorem filled_lower {letter : Char} {k : ℕ} {digits : List Char}
    (hletter : isHexDigit letter = true ∧ letter.toLower = letter)
    (hdigits : ∀ c ∈ digits, isHexDigit c = true ∧ c.toLower = c) :
    ∀ c ∈ List.replicate k letter ++ digits, isHexDigit c = true ∧ c.toLower = c := by
  intro c hc
  rcases List.mem_append.mp hc with hc | hc
  · rw [(List.mem_replicate.mp hc).2]
    exact hletter
  · exact hdigits c hc

theorem hexValue_zeros {k : ℕ} {digits : List Char} :
    hexValue (List.replicate k '0' ++ digits) = hexValue digits := by
  induction k with
  | zero => rfl
  | succ k ih => exact ih

theorem hash_read {letter : Char} {number : ℕ} (hletter : letter ∈ ['b', 'c'])
    (hnumber : number ∈ heights) :
    hexBytes (.str (hash letter number)) 32 = .ok (hash letter number) := by
  have hfill : isHexDigit letter = true ∧ letter.toLower = letter := by
    rcases List.mem_pair.mp hletter with rfl | rfl <;> decide
  have hnumbers : ∀ number ∈ heights,
      ((Nat.toDigits 10 number).all fun c => isHexDigit c && c.toLower == c) = true ∧
        (Nat.toDigits 10 number).length = 3 := by
    decide +kernel
  obtain ⟨hdigits, hlength⟩ := hnumbers number hnumber
  unfold hash
  refine hexBytes_lower (filled_lower hfill (lower_of_all hdigits)) ?_
  rw [List.length_append, List.length_replicate, hlength]

theorem word_read {n : ℕ} (h : n ∈ amounts) : word (padded n) = .ok n := by
  have hamounts : ∀ n ∈ amounts,
      ((Nat.toDigits 16 n).all fun c => isHexDigit c && c.toLower == c) = true ∧
        (Nat.toDigits 16 n).length ≤ 64 := by
    decide +kernel
  obtain ⟨hdigits, hshort⟩ := hamounts n h
  have hlength : (List.replicate (64 - (Nat.toDigits 16 n).length) '0' ++
      Nat.toDigits 16 n).length = 32 * 2 := by
    rw [List.length_append, List.length_replicate]
    omega
  simp only [word, padded,
    hexBytes_lower (filled_lower (by decide) (lower_of_all hdigits)) hlength,
    bind_eq_ok, pure_eq_ok]
  refine ⟨_, rfl, ?_⟩
  simp only [String.toList_append, String.toList_ofList]
  exact hexValue_zeros.trans (toDigits_spec n).1

theorem network_postInit : network.postInit = .ok network :=
  eq_ok_of_toOption (by decide +kernel)

theorem topic_read : hexBytes (.str Reading.transferTopic) 32 = .ok Reading.transferTopic :=
  eq_ok_of_toOption (by decide +kernel)

theorem token_read : addressOf (.str network.token) = .ok network.token :=
  eq_ok_of_toOption (by decide +kernel)

theorem party_read : ∀ party ∈ parties,
    (hexBytes (.str ("0x" ++ ChainObserver.padded party)) 32).toOption =
      some ("0x" ++ ChainObserver.padded party) ∧
    Reading.isAddressTopic ("0x" ++ ChainObserver.padded party) = true ∧
    Reading.topicAddress ("0x" ++ ChainObserver.padded party) = party := by
  decide +kernel

variable {event : Event} {height final head first last : ℕ} {found : ChainObserver.Balances}

theorem header_number (h : height ∈ heights) {asked : Option ℕ} (hasked : ∀ n ∈ asked, height = n) :
    ChainObserver.header (header height) asked = .ok height := by
  have hnumber : quantityAt (header height) "number" = .ok height := quantity_hex height
  have hhash : hashAt (header height) "hash" = .ok (hash 'b' height) := hash_read (by decide) h
  have hstamp : quantityAt (header height) "timestamp" = .ok (2 * height) :=
    quantity_hex (2 * height)
  simp only [ChainObserver.header, bind_eq_ok, require_eq_ok, exists_const, pure_eq_ok, hnumber,
    hhash, hstamp]
  exact ⟨rfl, height, rfl, hasked, _, rfl, _, rfl, rfl⟩

theorem network_answered : Answered (Reading.verifyNetwork network) networkCalls () :=
  .query (.lift (quantity_hex _) (.query (.lift (quantity_hex _)
    (answered_check.mpr ⟨rfl, rfl, rfl⟩))))

theorem balances_answered (h : found.tig ∈ amounts) :
    Answered (ChainObserver.balances network height) (balanceCalls height found) found :=
  .query (.query (.query (.lift (word_read h)
    (.lift (quantity_hex _) (.lift (quantity_hex _) .done)))))

/-- What makes a transfer of the day readable. -/
structure Known (event : Event) (final head : ℕ) : Prop where
  block : event.block ∈ heights
  sender : event.sender ∈ parties
  recipient : event.recipient ∈ parties
  amount : event.amount ∈ amounts
  settled : event.block ≤ final
  deep : event.block + 11 ≤ head

theorem Known.txHash (h : Known event final head) :
    hexBytes (.str event.txHash) 32 = .ok event.txHash :=
  hash_read (by decide) h.block

theorem Known.blockHash (h : Known event final head) :
    hexBytes (.str (hash 'b' event.block)) 32 = .ok (hash 'b' event.block) :=
  hash_read (by decide) h.block

theorem log_index : quantityAt (log event) "logIndex" = .ok 0 := quantity_hex 0

theorem log_found : Reading.uniqueLog (receipt event) 0 = .ok (log event) ∧
    Reading.firstLog (receipt event) 0 = .ok (log event) := by
  have hlogs : (field (receipt event) "logs" >>= iterate) = .ok [log event] := rfl
  have hstands : Reading.standsAt 0 (log event) = .ok true := by
    simp only [Reading.standsAt, log_index, bind_eq_ok, pure_eq_ok]
    exact ⟨0, rfl, rfl⟩
  have hall : [log event].filterM (Reading.standsAt 0) = .ok [log event] := by
    rw [filterM_eq_ok]
    simp [hstands, saysYes]
  have hfirst : [log event].findM? (Reading.standsAt 0) = .ok (some (log event)) := by
    rw [List.findM?, hstands]
    rfl
  simp only [Reading.uniqueLog, Reading.firstLog, ← bind_assoc, hlogs, bind_eq_ok, fetch_eq_ok]
  exact ⟨⟨_, ⟨_, rfl, hall⟩, rfl⟩, _, ⟨_, rfl, hfirst⟩, rfl⟩

theorem Known.log_read (h : Known event final head) :
    Reading.readLog network event.txHash (hash 'b' event.block) event.block (log event) =
      .ok (event.sender, event.recipient, event.amount) := by
  obtain ⟨hsender, hsenderTopic, hsenderIs⟩ := party_read _ h.sender
  obtain ⟨hrecipient, hrecipientTopic, hrecipientIs⟩ := party_read _ h.recipient
  have htoken : (field (log event) "address" >>= addressOf) = .ok network.token := token_read
  have hmined : hashAt (log event) "transactionHash" = .ok event.txHash := h.txHash
  have hblock : hashAt (log event) "blockHash" = .ok (hash 'b' event.block) := h.blockHash
  have hnumber : quantityAt (log event) "blockNumber" = .ok event.block := quantity_hex _
  have hdata : (field (log event) "data" >>= word) = .ok event.amount := word_read h.amount
  simp only [Reading.readLog, htoken, hmined, hblock, hnumber, bind_eq_ok, require_eq_ok,
    exists_const]
  refine ⟨rfl, _, rfl, rfl, _, rfl, rfl, _, rfl, rfl, _, rfl, rfl, _, rfl, ?_⟩
  simp only [topic_read, eq_ok_of_toOption hsender, eq_ok_of_toOption hrecipient, bind_eq_ok,
    require_eq_ok, exists_const, pure_eq_ok, hdata]
  refine ⟨_, rfl, rfl, _, rfl, _, rfl, ⟨hsenderTopic, hrecipientTopic⟩, _, rfl, ?_⟩
  rw [hsenderIs, hrecipientIs]

theorem Known.receipt_answered (h : Known event final head) :
    Answered (Reading.confirmedReceipt network event.txHash) (transferCalls final head event)
      ⟨receipt event, header event.block, header head, header final⟩ := by
  refine .lift h.txHash (.seq network_answered (.query (.check rfl ?_)))
  refine .lift (quantity_hex 1) (.check (.inr rfl) (.lift (quantity_hex _) (.lift h.blockHash ?_)))
  refine .lift h.txHash (.check rfl (.query (.lift (quantity_hex _) (.check ?_ ?_))))
  · have hdeep := h.deep
    show ((12 : ℕ) : ℤ) ≤ (head : ℤ) - event.block + 1
    omega
  have hfinalized : Answered (Reading.finalizedAt network event.block)
      [blockCall (.str "finalized") final] (header final) :=
    .query (.check rfl (.lift (quantity_hex _) (.check h.settled .done)))
  refine .seq hfinalized (.query (.check rfl (.lift h.blockHash (.check rfl ?_))))
  exact .lift (quantity_hex _) (.check rfl .done)

theorem Known.transfer_answered (h : Known event final head)
    (hcustody : network.custody = event.sender ∨ network.custody = event.recipient) :
    Answered (Reading.transfer network event.txHash 0) (transferCalls final head event)
      (confirmed final head event) := by
  have hearly : 2 * event.block ≤ Reading.lastSecond := by
    have hall : ∀ height ∈ heights, 2 * height ≤ Reading.lastSecond := by decide
    exact hall _ h.block
  refine .lift h.txHash ?_
  rw [← List.append_nil (transferCalls final head event)]
  refine .seq h.receipt_answered (.lift (quantity_hex 1) (.check rfl (.lift (quantity_hex _) ?_)))
  refine .lift h.blockHash (.lift log_found.1 (.lift h.log_read (.check hcustody ?_)))
  exact .lift (quantity_hex _) (.check hearly .done)

variable {direction : ChainObserver.Direction} {t : Table EventId ConfirmedTransfer}

theorem scan_none (head : ℕ) : Answered (ChainObserver.scan network first last t direction)
    (logCalls first last head direction []) t :=
  .query (.lift rfl .done)

theorem Known.scan_answered (h : Known event last head) (hfirst : first ≤ event.block)
    (hparty : direction.party (confirmed last head event) = network.custody)
    (hfresh : t.lookup (confirmed last head event).eventId = none) :
    Answered (ChainObserver.scan network first last t direction)
      (logCalls first last head direction [event])
      (AList.insert (confirmed last head event).eventId (confirmed last head event) t) := by
  have hcustody : network.custody = event.sender ∨ network.custody = event.recipient := by
    cases direction with
    | incoming => exact .inr hparty.symm
    | outgoing => exact .inl hparty.symm
  have hname : ChainObserver.identity (log event) = .ok (event.txHash, 0) := by
    have hmined : hashAt (log event) "transactionHash" = .ok event.txHash := h.txHash
    simp only [ChainObserver.identity, hmined, log_index, bind_eq_ok, pure_eq_ok]
    exact ⟨_, rfl, _, rfl, rfl⟩
  have hadd : Answered (ChainObserver.addLog network first last direction ⟨[], t⟩ (log event))
      (transferCalls last head event)
      ⟨[(event.txHash, 0)],
        AList.insert (confirmed last head event).eventId (confirmed last head event) t⟩ := by
    refine .lift hname (.check List.not_mem_nil ?_)
    rw [← List.append_nil (transferCalls last head event)]
    refine .seq (h.transfer_answered hcustody) (.check ⟨hfirst, h.settled⟩ (.check hparty ?_))
    refine .lift (a := receipt event) rfl (.lift log_found.2 (.check (fun _ _ => rfl) ?_))
    refine .check rfl (.check ?_ .done)
    rw [hfresh]
    intro _ hsome
    cases hsome
  refine .query (.lift (a := [log event]) rfl ?_)
  rw [List.foldlM_cons, List.flatMap_singleton]
  refine answered_bind.mpr ⟨_, _, answered_bind.mpr ⟨_, _, hadd, [], .done, rfl⟩, [], .done, ?_⟩
  rw [List.append_nil, List.append_nil]

/-- The capture is answered if its transfers are, and they explain the change. -/
theorem captured_answered {opening closing : ChainObserver.Balances}
    {incoming outgoing transfers : List Event}
    (hheights : first - 1 ∈ heights ∧ last ∈ heights ∧ head ∈ heights)
    (hrange : 1 ≤ first ∧ first ≤ last ∧ last < first + 1000 ∧ last + 11 ≤ head)
    (hopening : opening.tig ∈ amounts) (hclosing : closing.tig ∈ amounts)
    (htransfers : Answered (ChainObserver.transfersIn network first last)
      (logCalls first last head .incoming incoming ++ logCalls first last head .outgoing outgoing)
      t)
    (hchange : (closing.tig : ℤ) - opening.tig =
      ((t.entries.map (·.2)).map (ChainObserver.change network)).sum)
    (hsorted : (t.entries.map (·.2)).insertionSort ChainObserver.precedes =
      transfers.map (confirmed last head)) :
    ChainObserver.verify (captured first last head opening closing incoming outgoing) =
      .ok (verified first last head opening closing transfers) := by
  obtain ⟨hbefore, hlast, hhead⟩ := hheights
  obtain ⟨hone, hle, hcount, hdeep⟩ := hrange
  have hblockHash {height : ℕ} (h : height ∈ heights) :
      hashAt (header height) "hash" = .ok (hash 'b' height) := hash_read (by decide) h
  have htarget : ChainObserver.target network head last = last := by
    show min (last : ℤ) ((head : ℤ) - (12 : ℕ) + 1) = last
    omega
  have hend : (min (ChainObserver.target network head last) ((first : ℤ) + 1000 - 1)).toNat
      = last := by
    rw [htarget]
    omega
  have hfirst : units (first : ℤ) true = .ok first := units_eq_ok.mpr ⟨rfl, hone⟩
  have hread : Answered (ChainObserver.read network first 1000 (seconds (2 * head + 1 : ℕ)) 2)
      (calls first last head opening closing incoming outgoing)
      (verified first last head opening closing transfers) := by
    refine .lift hfirst (.check (by decide) (.check rfl (.seq network_answered ?_)))
    refine .query (.query (.lift (header_number hhead nofun) (.lift (header_number hlast nofun)
      ?_)))
    refine .lift (quantity_hex _) (.check ?_ (.check ?_ ?_))
    · show last ≤ head ∧ (-5 : ℤ) * 1000000 ≤ (2 * head + 1 : ℕ) * 1000000 -
        (2 * head : ℕ) * 1000000 ∧
        ((2 * head + 1 : ℕ) * 1000000 - (2 * head : ℕ) * 1000000 : ℤ) ≤ 120 * 1000000
      omega
    · show (first : ℤ) - 1 ≤ min (ChainObserver.target network head last) ((first : ℤ) + 1000 - 1)
      rw [htarget]
      omega
    simp only [hend]
    refine .query (.lift (header_number hbefore (by simp)) (.seq (balances_answered hopening) ?_))
    have hendBlock : Answered (ChainObserver.endBlock (header (first - 1)) first last)
        [blockCall (hex last) last] (header last) := by
      rw [ChainObserver.endBlock, if_neg (by omega)]
      exact answered_query.mpr rfl
    refine .seq hendBlock (.lift (header_number hlast (by simp)) (.seq htransfers ?_))
    refine .seq (balances_answered hclosing) (.check hchange (.query (.lift rfl (.query ?_))))
    refine .lift (header_number hlast (by simp)) (.lift (hblockHash hlast) ?_)
    refine .lift (hblockHash hlast) (.check rfl (.lift (hblockHash hbefore) ?_))
    rw [htarget, hsorted]
    exact .done
  exact ChainObserver.verify_eq_ok.mpr ⟨⟨.inr rfl, rfl⟩, rfl, network, network_postInit, hread⟩

/-! ### The two captures -/

def funded : ChainObserver.Balances := ⟨5 * tig, 10, 0⟩

def left : ChainObserver.Balances := ⟨4 * tig, 8, 1⟩

def morning : ChainObserver.CaptureData := captured 200 200 212 ⟨0, 0, 0⟩ funded [deposit] []

def morningValue : ChainObserver.Verified := verified 200 200 212 ⟨0, 0, 0⟩ funded [deposit]

def evening : ChainObserver.CaptureData := captured 201 219 230 funded left [income] [payment]

def eveningValue : ChainObserver.Verified := verified 201 219 230 funded left [payment, income]

theorem known_events : Known deposit 200 212 ∧ Known income 219 230 ∧ Known payment 219 230 := by
  refine ⟨⟨?_, ?_, ?_, ?_, ?_, ?_⟩, ⟨?_, ?_, ?_, ?_, ?_, ?_⟩, ?_, ?_, ?_, ?_, ?_, ?_⟩ <;> decide

theorem verify_morning : ChainObserver.verify morning = .ok morningValue := by
  obtain ⟨hdeposit, -⟩ := known_events
  exact captured_answered (by decide) (by decide) (by decide) (by decide)
    (.seq (hdeposit.scan_answered le_rfl rfl rfl) (.seq (scan_none 212) .done)) (by decide +kernel) rfl

theorem verify_evening : ChainObserver.verify evening = .ok eveningValue := by
  obtain ⟨-, hincome, hpayment⟩ := known_events
  have hother : (confirmed 219 230 payment).eventId ≠ (confirmed 219 230 income).eventId := by
    decide +kernel
  let received : Table EventId ConfirmedTransfer :=
    AList.insert (confirmed 219 230 income).eventId (confirmed 219 230 income) ∅
  have hfresh : received.lookup (confirmed 219 230 payment).eventId = none :=
    AList.lookup_insert_ne hother
  refine captured_answered (by decide) (by decide) (by decide) (by decide)
    (.seq (hincome.scan_answered (by decide) rfl rfl)
      (.seq (hpayment.scan_answered (by decide) rfl hfresh) .done)) ?_ ?_
  · decide +kernel
  · decide +kernel

end CustodyDay

/-- The capture of the evening is complete, with a transfer in each direction, and any other
archive of its question differs from it in an answer. -/
theorem custody_archives_evening : CustodyDay.eveningValue.Complete CustodyDay.evening.calls ∧
    CustodyDay.eveningValue.transfers.map (·.amount) = [3 * tig, 2 * tig] ∧
    ∀ calls v, ChainObserver.verify { CustodyDay.evening with calls } = .ok v →
      calls = CustodyDay.evening.calls ∧ v = CustodyDay.eveningValue ∨
        ∃ same question answer answer' rest rest', answer ≠ answer' ∧
          CustodyDay.evening.calls = same ++ (question, answer) :: rest ∧
          calls = same ++ (question, answer') :: rest' := by
  have hall := (custody_archives CustodyDay.network_postInit).2 CustodyDay.evening
    CustodyDay.eveningValue CustodyDay.verify_evening rfl
  exact ⟨hall.2.2.1, rfl, hall.2.2.2.2⟩

end TigPool
