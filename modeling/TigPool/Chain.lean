/-
# `TigPool.Chain` — reading the chain through an RPC endpoint

The adapter asks a JSON-RPC endpoint and believes nothing it cannot read: quantities and
hashes are hexadecimal texts of a fixed form.  The endpoint itself is a parameter; what an
archive node of one chain answers is `Chain.Answers`.

`findNonce` looks for the finalized transaction that consumed a nonce of the custody
wallet.  The count of custody transactions rises with the height, so the block is found by
binary search, and its transactions are then looked through one by one.
-/
import TigPool.Basis.Search
import TigPool.Protocol

namespace TigPool

open Basis

/-! ## Values on the wire -/

/-- What stands after `0x`, if only hexadecimal digits do. -/
def hexDigits (value : Json) : Option (List Char) :=
  match value with
  | .str s =>
      if s.toList.take 2 = ['0', 'x'] ∧ (s.toList.drop 2).all isHexDigit then
        some (s.toList.drop 2)
      else none
  | _ => none

def hexBytes (value : Json) (size : ℕ) : Result String :=
  match value with
  | .str s => do
      require ((hexDigits value).any fun digits => digits.length = size * 2)
        (.funds "malformed chain hash or ABI data")
      return s.toLower
  | _ => .error (.funds "malformed chain hash or ABI data")

def digitValue (c : Char) : ℕ :=
  if c.isDigit then c.toNat - '0'.toNat
  else if 'a' ≤ c then c.toNat - 'a'.toNat + 10
  else c.toNat - 'A'.toNat + 10

/-- The number that hexadecimal digits denote. -/
def hexValue (digits : List Char) : ℕ :=
  digits.foldl (fun n c => 16 * n + digitValue c) 0

def quantity (value : Json) : Result ℕ := do
  let digits ← fetch (hexDigits value) (.funds "malformed chain quantity")
  require (digits ≠ []) (.funds "malformed chain quantity")
  return hexValue digits

/-- `hex(n)` -/
def hex (n : ℕ) : Json :=
  .str (String.ofList ('0' :: 'x' :: Nat.toDigits 16 n))

theorem digit_digitChar : ∀ d < 16, digitValue (Nat.digitChar d) = d ∧
    isHexDigit (Nat.digitChar d) = true := by
  decide

theorem toDigits_spec (n : ℕ) : hexValue (Nat.toDigits 16 n) = n ∧
    (Nat.toDigits 16 n).all isHexDigit = true := by
  induction n using Nat.strong_induction_on with
  | _ n ih =>
    rw [Nat.toDigits_eq_if (by decide)]
    split
    next hlt =>
      obtain ⟨hvalue, hhex⟩ := digit_digitChar n hlt
      simp [hexValue, hvalue, hhex]
    next hge =>
      obtain ⟨hvalue, hhex⟩ := digit_digitChar (n % 16) (Nat.mod_lt _ (by decide))
      obtain ⟨ihvalue, ihhex⟩ := ih (n / 16) (by omega)
      unfold hexValue at ihvalue ⊢
      rw [List.foldl_append, ihvalue, List.all_append, ihhex]
      simp only [List.foldl_cons, List.foldl_nil, List.all_cons, List.all_nil, hvalue, hhex]
      exact ⟨by omega, rfl⟩

/-- What `hex` writes, `quantity` reads. -/
theorem quantity_hex (n : ℕ) : quantity (hex n) = .ok n := by
  obtain ⟨hvalue, hhex⟩ := toDigits_spec n
  have hdigits : hexDigits (hex n) = some (Nat.toDigits 16 n) := by
    simp [hexDigits, hex, hhex]
  simp only [quantity, hdigits, bind_eq_ok, fetch_eq_ok, require_eq_ok, exists_const, pure_eq_ok]
  exact ⟨_, rfl, Nat.toDigits_ne_nil, hvalue⟩

/-- `value.lower()` -/
def lower : Json → Result String
  | .str s => .ok s.toLower
  | _ => .error (.malformed "lower")

/-! ## The adapter -/

/-- What the endpoint answers to a method and its parameters. -/
abbrev Rpc := String → List Json → Result Json

structure Chain where
  network : Network
  rpc : Rpc

namespace Chain

open Protocol

def verifyNetwork (chain : Chain) : Result Unit := do
  let actual ← quantity (← chain.rpc "eth_chainId" [])
  let decimals ← quantity (← chain.rpc "eth_call"
    [.obj [("data", .str "0x313ce567"), ("to", .str chain.network.token)], .str "latest"])
  require (actual = chain.network.chainId ∧ decimals = chain.network.decimals)
    (.funds "RPC chain ID/token decimals differ from configured network")

/-- The height of the finalized block. -/
def finalHeight (chain : Chain) : Result ℕ := do
  let final ← chain.rpc "eth_getBlockByNumber" [.str "finalized", .bool false]
  quantity (← field final "number")

/-- How many transactions custody has sent up to a height. -/
def transactionCount (chain : Chain) (height : ℕ) : Result ℕ := do
  quantity (← chain.rpc "eth_getTransactionCount" [.str chain.network.custody, hex height])

/-- Is it custody's transaction of this nonce? -/
def consumes (custody : Address) (nonce : ℕ) (tx : Json) : Result Bool := do
  if (← lower (← field tx "from")) = custody then
    return (← quantity (← field tx "nonce")) = nonce
  else return false

/-- The one transaction of a block that consumed the nonce. -/
def inspect (chain : Chain) (nonce height : ℕ) : Result String := do
  let block ← chain.rpc "eth_getBlockByNumber" [hex height, .bool true]
  require (block.truthy = true) (.funds "nonce recovery block is unavailable")
  let number ← quantity (← field block "number")
  require (number = height) (.funds "nonce recovery block is unavailable")
  let transactions ← iterate (← field block "transactions")
  match ← transactions.filterM (consumes chain.network.custody nonce) with
  | [tx] => hexBytes (← field tx "hash") 32
  | _ => throw (.funds "finalized nonce has no unique matching transaction")

/-- Find the finalized transaction that consumed a frozen nonce of the custody wallet. -/
def findNonce (chain : Chain) (nonce afterHeight : ℤ) : Result (Option String) := do
  let nonce ← units nonce
  let afterHeight ← units afterHeight
  chain.verifyNetwork
  let last ← chain.finalHeight
  if last ≤ afterHeight then
    return none
  if (← chain.transactionCount last) ≤ nonce then
    return none
  require (¬ nonce < (← chain.transactionCount afterHeight))
    (.funds "reserved nonce was already consumed before the send anchor")
  let first ← firstTrue (fun height => do return nonce < (← chain.transactionCount height))
    (afterHeight + 1) last
  let hash ← chain.inspect nonce first
  return some hash

/-! ## An archive node of one chain -/

/-- The endpoint speaks for the configured network, its chain is final up to `last`, and up to
there custody has sent `count h` transactions at height `h`, which never falls. -/
structure Answers (chain : Chain) (last : ℕ) (count : ℕ → ℕ) : Prop where
  network : chain.verifyNetwork = .ok ()
  final : chain.finalHeight = .ok last
  counts : ∀ height ≤ last, chain.transactionCount height = .ok (count height)
  rises : MonotoneOn count (Set.Iic last)

/-- The block at the height holds exactly one transaction of custody with the nonce, and
this is its hash. -/
def Consumed (chain : Chain) (nonce height : ℕ) (hash : String) : Prop :=
  ∃ block transactions before tx after,
    chain.rpc "eth_getBlockByNumber" [hex height, .bool true] = .ok block ∧
    block.truthy = true ∧
    (field block "number" >>= quantity) = .ok height ∧
    (field block "transactions" >>= iterate) = .ok transactions ∧
    transactions = before ++ tx :: after ∧
    consumes chain.network.custody nonce tx = .ok true ∧
    (∀ other ∈ before ++ after, consumes chain.network.custody nonce other = .ok false) ∧
    (field tx "hash" >>= (hexBytes · 32)) = .ok hash

variable {chain : Chain} {nonce height : ℕ} {hash : String}

/-- A test that can be made and was answered with yes only once. -/
theorem filterM_eq_singleton {xs : List Json} {test : Json → Result Bool} {x : Json} :
    xs.filterM test = .ok [x] ↔ ∃ before after, xs = before ++ x :: after ∧ test x = .ok true ∧
      ∀ other ∈ before ++ after, test other = .ok false := by
  rw [filterM_eq_ok]
  constructor
  · rintro ⟨htest, hfilter⟩
    obtain ⟨before, after, rfl, hbefore, hx, hafter⟩ := List.filter_eq_cons_iff.mp hfilter.symm
    refine ⟨before, after, rfl, ?_, ?_⟩
    · obtain ⟨b, hb⟩ := htest x (by simp)
      rw [hb] at hx ⊢
      exact congrArg _ hx
    · intro other hother
      obtain ⟨b, hb⟩ := htest other (by
        simp only [List.mem_append, List.mem_cons] at hother ⊢
        tauto)
      have hno : ¬ saysYes (test other) = true := by
        rcases List.mem_append.mp hother with hmem | hmem
        · exact hbefore other hmem
        · exact List.filter_eq_nil_iff.mp hafter other hmem
      rw [hb] at hno ⊢
      exact congrArg _ (Bool.eq_false_iff.mpr hno)
  · rintro ⟨before, after, rfl, hx, hothers⟩
    constructor
    · intro other hother
      rcases List.mem_append.mp hother with hmem | hmem
      · exact ⟨false, hothers other (List.mem_append_left _ hmem)⟩
      · rcases List.mem_cons.mp hmem with rfl | hmem
        · exact ⟨true, hx⟩
        · exact ⟨false, hothers other (List.mem_append_right _ hmem)⟩
    · refine (List.filter_eq_cons_iff.mpr ⟨before, after, rfl, ?_, by rw [hx]; rfl, ?_⟩).symm
      · intro other hmem
        rw [hothers other (List.mem_append_left _ hmem)]
        exact Bool.false_ne_true
      · refine List.filter_eq_nil_iff.mpr fun other hmem => ?_
        rw [hothers other (List.mem_append_right _ hmem)]
        exact Bool.false_ne_true

theorem inspect_eq_ok :
    chain.inspect nonce height = .ok hash ↔ chain.Consumed nonce height hash := by
  simp only [inspect, bind_eq_ok, require_eq_ok, exists_const]
  constructor
  · rintro ⟨block, hblock, htruthy, value, hvalue, number, hnumber, rfl, list, hlist,
      transactions, htransactions, found, hfound, h⟩
    split at h
    next tx =>
      obtain ⟨before, after, rfl, htx, hothers⟩ := filterM_eq_singleton.mp hfound
      simp only [bind_eq_ok] at h
      refine ⟨block, _, before, tx, after, hblock, htruthy, ?_, ?_, rfl, htx, hothers, ?_⟩
      · exact bind_eq_ok.mpr ⟨value, hvalue, hnumber⟩
      · exact bind_eq_ok.mpr ⟨list, hlist, htransactions⟩
      · exact bind_eq_ok.mpr h
    next => exact absurd h throw_ne_ok
  · rintro ⟨block, transactions, before, tx, after, hblock, htruthy, hnumber, htransactions,
      hsplit, htx, hothers, hhash⟩
    obtain ⟨value, hvalue, hnumber⟩ := bind_eq_ok.mp hnumber
    obtain ⟨list, hlist, htransactions⟩ := bind_eq_ok.mp htransactions
    refine ⟨block, hblock, htruthy, value, hvalue, height, hnumber, rfl, list, hlist,
      transactions, htransactions, [tx], ?_, ?_⟩
    · exact filterM_eq_singleton.mpr ⟨before, after, hsplit, htx, hothers⟩
    · exact hhash

/-! ## What the search finds -/

section Search

variable {last after : ℕ} {count : ℕ → ℕ}

/-- Is the nonce consumed at the height? -/
def probe (chain : Chain) (nonce height : ℕ) : Result Bool := do
  return nonce < (← chain.transactionCount height)

/-- The search, once the chain has answered. -/
theorem Answers.findNonce (h : chain.Answers last count) :
    chain.findNonce nonce after =
      if last ≤ after then .ok none
      else if count last ≤ nonce then .ok none
      else if nonce < count after then
        .error (.funds "reserved nonce was already consumed before the send anchor")
      else do
        let first ← firstTrue (chain.probe nonce) (after + 1) last
        let hash ← chain.inspect nonce first
        return some hash := by
  have hunits : ∀ n : ℕ, units n = .ok n := fun n => units_eq_ok.mpr ⟨rfl, by simp⟩
  simp only [Chain.findNonce, hunits, h.network, h.final]
  change (if last ≤ after then _ else _) = _
  split
  · rfl
  next hlast =>
    rw [h.counts last le_rfl, h.counts after (le_of_not_ge hlast)]
    change (if count last ≤ nonce then _ else _) = _
    split
    · rfl
    · change (require (¬ nonce < count after) _ >>= _) = _
      unfold require
      by_cases hafter : nonce < count after
      · rw [if_neg (not_not.mpr hafter), if_pos hafter]
        rfl
      · rw [if_pos hafter, if_neg hafter]
        rfl

theorem Answers.probe (h : chain.Answers last count) (hheight : height ≤ last) :
    chain.probe nonce height = .ok (decide (nonce < count height)) := by
  rw [Chain.probe, h.counts height hheight]
  rfl

/-- The first height after the anchor at which the nonce is consumed, and what the search
makes of its block. -/
theorem Answers.search (h : chain.Answers last count) (hlast : after < last)
    (hafter : count after ≤ nonce) (hconsumed : nonce < count last) :
    ∃ first ≤ last, IsLeast {height | after < height ∧ nonce < count height} first ∧
      chain.findNonce nonce after = some <$> chain.inspect nonce first := by
  obtain ⟨first, hfirst, hsearch, hleast⟩ :=
    @firstTrue_spec _ (chain.probe nonce) (fun height => decide (nonce < count height)) _ _
      (fun _ => h.probe)
      (fun hab hb ha => decide_eq_true
        ((of_decide_eq_true ha).trans_le (h.rises (hab.trans hb) hb hab)))
      (Nat.succ_le_of_lt hlast) (decide_eq_true hconsumed)
  refine ⟨first, hfirst, ?_, ?_⟩
  · simpa only [decide_eq_true_eq, Nat.succ_le_iff] using hleast
  · rw [h.findNonce, if_neg (not_le.mpr hlast), if_neg (not_le.mpr hconsumed),
      if_neg (not_lt.mpr hafter), hsearch]
    rfl

end Search

end Chain

/-- Nothing is returned exactly if nothing is final after the anchor or the nonce is not
consumed yet; a nonce consumed at the anchor is an error; otherwise the search ends at the
first height where the nonce is consumed, and returns the hash of the only transaction of
custody with this nonce in the block of that height. -/
theorem find_nonce {chain : Chain} {last : ℕ} {count : ℕ → ℕ} (h : chain.Answers last count)
    (nonce after : ℕ) :
    (chain.findNonce nonce after = .ok none ↔ last ≤ after ∨ count last ≤ nonce) ∧
    (after < last → nonce < count after → chain.findNonce nonce after
      = .error (.funds "reserved nonce was already consumed before the send anchor")) ∧
    (after < last → count after ≤ nonce → nonce < count last →
      ∃ first ≤ last, IsLeast {height | after < height ∧ nonce < count height} first ∧
        chain.findNonce nonce after = some <$> chain.inspect nonce first) ∧
    ∀ hash, chain.findNonce nonce after = .ok (some hash) ↔
      after < last ∧ count after ≤ nonce ∧ nonce < count last ∧ ∃ first ≤ last,
        IsLeast {height | after < height ∧ nonce < count height} first ∧
          chain.Consumed nonce first hash := by
  have hheight := @Chain.Answers.findNonce _ nonce _ after _ h
  by_cases hlast : last ≤ after
  · rw [if_pos hlast] at hheight
    rw [hheight]
    exact ⟨by simp [hlast], fun hlt => absurd hlt (not_lt.mpr hlast),
      fun hlt => absurd hlt (not_lt.mpr hlast),
      fun hash => ⟨nofun, fun hlt => absurd hlt.1 (not_lt.mpr hlast)⟩⟩
  rw [if_neg hlast] at hheight
  by_cases hunused : count last ≤ nonce
  · rw [if_pos hunused] at hheight
    rw [hheight]
    refine ⟨by simp [hunused], fun _ hafter => ?_, fun _ _ hconsumed => ?_, fun hash => ⟨nofun, ?_⟩⟩
    · -- What the anchor has seen, the final block has seen.
      have hrises := h.rises (le_of_not_ge hlast) (Set.mem_Iic.mpr le_rfl) (le_of_not_ge hlast)
      exact absurd (hafter.trans_le hrises) (not_lt.mpr hunused)
    · exact absurd hconsumed (not_lt.mpr hunused)
    · exact fun hconsumed => absurd hconsumed.2.2.1 (not_lt.mpr hunused)
  rw [if_neg hunused] at hheight
  by_cases hafter : nonce < count after
  · rw [if_pos hafter] at hheight
    rw [hheight]
    exact ⟨⟨nofun, fun hor => (hor.elim hlast hunused).elim⟩, fun _ _ => rfl,
      fun _ hle => absurd hafter (not_lt.mpr hle),
      fun hash => ⟨nofun, fun hle => absurd hafter (not_lt.mpr hle.2.1)⟩⟩
  · obtain ⟨first, hfirst, hleast, heq⟩ :=
      h.search (lt_of_not_ge hlast) (le_of_not_gt hafter) (lt_of_not_ge hunused)
    refine ⟨⟨fun hnone => ?_, fun hor => (hor.elim hlast hunused).elim⟩,
      fun _ hlt => absurd hlt hafter, fun _ _ _ => ⟨first, hfirst, hleast, heq⟩, fun hash => ?_⟩
    · rw [heq] at hnone
      cases hinspect : chain.inspect nonce first <;> rw [hinspect] at hnone <;> cases hnone
    · rw [heq]
      constructor
      · intro hsome
        cases hinspect : chain.inspect nonce first with
        | error e => rw [hinspect] at hsome; cases hsome
        | ok found =>
            rw [hinspect] at hsome
            obtain rfl := Option.some.inj (Except.ok.inj hsome)
            exact ⟨lt_of_not_ge hlast, le_of_not_gt hafter, lt_of_not_ge hunused, first, hfirst,
              hleast, Chain.inspect_eq_ok.mp hinspect⟩
      · rintro ⟨-, -, -, other, -, hother, hconsumed⟩
        obtain rfl := hleast.unique hother
        rw [Chain.inspect_eq_ok.mpr hconsumed]
        rfl

/-! ## A chain with one custody transaction a block -/

namespace Chain

def everyBlockTx (height : Json) : Json :=
  .obj [("from", .str "0xAAAAAAAAAAAAAAAAAAAAAAAAAAAAAAAAAAAAAAAA"),
    ("hash", .str (String.ofList ('0' :: 'x' :: List.replicate 64 'C'))),
    ("nonce", if height = hex 5 then .str "0x4" else .str "0x0")]

/-- Custody sends its transaction of nonce `h - 1` in block `h`; block 9 is final. -/
def everyBlock : Chain where
  network := {
    chainId := 8453, token := "0xbbbbbbbbbbbbbbbbbbbbbbbbbbbbbbbbbbbbbbbb",
    custody := "0xaaaaaaaaaaaaaaaaaaaaaaaaaaaaaaaaaaaaaaaa", confirmations := 3, decimals := 18,
    requireFinalized := true }
  rpc method params :=
    match method, params with
    | "eth_chainId", _ => .ok (.str "0x2105")
    | "eth_call", _ => .ok (.str "0x12")
    | "eth_getTransactionCount", [_, height] => .ok height
    | "eth_getBlockByNumber", [_, .bool false] => .ok (.obj [("number", .str "0x9")])
    | "eth_getBlockByNumber", [height, _] =>
        .ok (.obj [("number", height), ("transactions", .arr [everyBlockTx height])])
    | _, _ => .error (.funds "RPC request failed")

theorem everyBlock_answers : everyBlock.Answers 9 fun height => height where
  network := eq_ok_of_toOption (by decide +kernel)
  final := eq_ok_of_toOption (by decide +kernel)
  counts height _ := quantity_hex height
  rises := monotone_id.monotoneOn _

end Chain

/-- Nonce 4, looked for after block 2, is found in block 5. -/
theorem find_nonce_in_fifth : Chain.everyBlock.findNonce 4 2
    = .ok (some (String.ofList ('0' :: 'x' :: List.replicate 64 'c'))) := by
  refine ((find_nonce Chain.everyBlock_answers 4 2).2.2.2 _).mpr
    ⟨by decide, by decide, by decide, 5, by decide, ⟨⟨by decide, by decide⟩, fun h hh => hh.2⟩, ?_⟩
  exact Chain.inspect_eq_ok.mp (eq_ok_of_toOption (by decide +kernel))

end TigPool
