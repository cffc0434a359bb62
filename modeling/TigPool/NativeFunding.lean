/-
# `TigPool.NativeFunding` — internal native receipts are read off a whole trace

Native currency that reaches custody inside a transaction leaves no log.  The service
reads it off the trace of the transaction, a flat list of call frames, and must not be
shown a part of it: a call that succeeded inside a call that reverted moved nothing.
`checkTree` is the test that the list is one whole tree; it compares what each frame says
about its children with the children that are there.
-/
import TigPool.Basis.CallTree
import TigPool.Chain
import TigPool.Custody

namespace TigPool

open Basis

namespace NativeFunding

open Protocol

/-! ## Frames -/

def callIndex (value : Json) : Result ℕ :=
  let invalid := Error.funds "internal transfer path must contain nonnegative integer call indexes"
  match value with
  | .int n => do
      require (0 ≤ n ∧ n < 2 ^ 31) invalid
      return n.toNat
  | _ => .error invalid

/-- A list of call indexes, the way down to a frame. -/
def path (value : Json) (root : Bool := false) : Result (List ℕ) :=
  let invalid := Error.funds "internal transfer path must contain nonnegative integer call indexes"
  match value with
  | .arr items => do
      require ((if root then 0 else 1) ≤ items.length ∧ items.length ≤ 64) invalid
      items.mapM callIndex
  | _ => .error invalid

structure Frame where
  location : List ℕ
  subtraces : ℕ
  value : Json

/-- `except (KeyError, TypeError)` -/
def complete {α : Type} (x : Result α) : Result α :=
  match x with
  | .error (.malformed _) => .error (.funds "transaction trace evidence is incomplete")
  | other => other

def isInt : Json → Bool
  | .int _ => true
  | _ => false

/-- One frame, beside those read before. -/
def readFrame (transaction : ConfirmedTransaction) (receipt : Json) (frames : List Frame)
    (frame : Json) : Result Frame := do
  let mismatch :=
    Error.funds "trace contains duplicate, malformed or mismatched call identities"
  let location ← path (← field frame "traceAddress") true
  require (location ∉ frames.map (·.location)) mismatch
  require ((← field frame "blockNumber") = .int transaction.blockNumber) mismatch
  require ((← hexBytes (← field frame "blockHash") 32) = transaction.blockHash) mismatch
  require ((← hexBytes (← field frame "transactionHash") 32) = transaction.txHash) mismatch
  let position ← field frame "transactionPosition"
  require (isInt position = true) mismatch
  require (position = .int (← quantity (← field receipt "transactionIndex"))) mismatch
  match ← field frame "subtraces" with
  | .int n => do
      require (0 ≤ n ∧ n ≤ 10000) mismatch
      return ⟨location, n.toNat, frame⟩
  | _ => throw mismatch

def readTrace (response : Json) : Result (List Json) :=
  let missing := Error.funds "transaction trace is missing or oversized"
  match response with
  | .arr trace => do
      require (1 ≤ trace.length ∧ trace.length ≤ 10000) missing
      return trace
  | _ => .error missing

def readFrames (transaction : ConfirmedTransaction) (receipt : Json) (trace : List Json) :
    Result (List Frame) :=
  trace.foldlM (fun frames frame => do
    let read ← complete (readFrame transaction receipt frames frame)
    return frames ++ [read]) []

/-! ## The tree -/

/-- The last index of every frame that was called from this one. -/
def childrenOf (frames : List Frame) (location : List ℕ) : List ℕ :=
  (frames.filter fun f => f.location ≠ [] ∧ f.location.dropLast = location).map
    fun f => f.location.getLastD 0

/-- Check tree completeness so a missing failed parent cannot be ignored. -/
def checkTree (frames : List Frame) (selected : List ℕ) : Result Unit := do
  require (∀ f ∈ frames, f.location ≠ [] → f.location.dropLast ∈ frames.map (·.location))
    (.funds "transaction trace is missing an ancestor")
  require ([] ∈ frames.map (·.location) ∧ selected ∈ frames.map (·.location) ∧
      (frames.map (·.subtraces)).sum + 1 = frames.length ∧
      ∀ f ∈ frames, childrenOf frames f.location ⊆ List.range f.subtraces ∧
        List.range f.subtraces ⊆ childrenOf frames f.location)
    (.funds "transaction trace is incomplete or the requested transfer is absent")

/-! ## The transfer -/

def frameAt (frames : List Frame) (location : List ℕ) : Result Frame :=
  fetch (frames.find? (·.location = location)) (.malformed "frame")

def checkRoot (transaction : ConfirmedTransaction) (root : Json) : Result Unit := do
  let differs := Error.funds "root trace differs from the confirmed transaction"
  let action ← field root "action"
  require ((← field root "type") = .str "call") differs
  require ((← field action "callType") = .str "call") differs
  require ((← addressOf (← field action "from")) = transaction.sender) differs
  require (some (← addressOf (← field action "to")) = transaction.recipient) differs
  require ((← quantity (← field action "value")) = transaction.value) differs
  let input ← field action "input"
  require (input = (← field (← field transaction.evidence "transaction") "input")) differs

def isObject : Option Json → Bool
  | some (.obj _) => true
  | _ => false

/-- A call on the way to the transfer must have succeeded. -/
def checkAncestor (frame : Json) : Result Unit := do
  require ((frame.get? "error").all (·.truthy = false) ∧ isObject (frame.get? "result") = true)
    (.funds "internal transfer or its ancestor failed or reverted")
  let ancestry := Error.funds "internal funding requires a successful CALL ancestry"
  require (frame.get? "type" = some (.str "call")) ancestry
  let callType ← field (← field frame "action") "callType"
  require (callType ∈ [.str "call", .str "delegatecall", .str "callcode"]) ancestry

def checkAncestry (frames : List Frame) (selected : List ℕ) : Result Unit :=
  selected.inits.forM fun location => do
    let frame ← frameAt frames location
    checkAncestor frame.value

/-- Sender, recipient and amount of the selected call. -/
def readTransfer (custody : Address) (frame : Json) : Result (Address × Address × ℕ) := do
  let action ← field frame "action"
  let sender ← addressOf (← field action "from")
  let recipient ← addressOf (← field action "to")
  let amount ← quantity (← field action "value")
  require ((← field frame "type") = .str "call" ∧ (← field action "callType") = .str "call" ∧
      0 < amount ∧ sender ≠ custody ∧ recipient = custody)
    (.funds "selected call is not a positive incoming native transfer")
  return (sender, recipient, amount)

/-- What the frames say about the selected call. -/
def readReceipt (network : Network) (transaction : ConfirmedTransaction) (frames : List Frame)
    (selected : List ℕ) : Result InternalNativeReceipt := do
  let root ← frameAt frames []
  checkRoot transaction root.value
  checkAncestry frames selected
  let frame ← frameAt frames selected
  let (sender, recipient, amount) ← readTransfer network.custody frame.value
  return ⟨transaction, selected, sender, recipient, amount⟩

/-- Is it the block of the transaction? -/
def isAnchor (transaction : ConfirmedTransaction) (block : Json) : Result Bool := do
  if (← hexBytes (← field block "hash") 32) = transaction.blockHash then
    return (← quantity (← field block "number")) = transaction.blockNumber
  else return false

/-- Require the configured endpoints to agree on chain, transaction and final block, and
read the selected call off the trace.  The transaction is the one that the chain adapter
has confirmed for the hash. -/
def verify (chain : Chain) (traceRpc : Option Rpc) (transaction : ConfirmedTransaction)
    (traceAddress : Json) : Result InternalNativeReceipt := do
  let selected ← path traceAddress
  let traceRpc ← fetch traceRpc
    (.funds "internal native funding requires a configured trace RPC")
  require (chain.network.requireFinalized = true)
    (.funds "internal native funding requires finalized chain evidence")
  require (transaction.successful = true ∧ transaction.sender ≠ chain.network.custody)
    (.funds "internal funding requires a successful transaction from another wallet")
  require ((← quantity (← traceRpc "eth_chainId" [])) = chain.network.chainId)
    (.funds "trace RPC chain differs from the configured custody network")
  let tag := hex transaction.blockNumber
  let anchor ← traceRpc "eth_getBlockByNumber" [tag, .bool false]
  require ((← quantity (← field anchor "number")) = transaction.blockNumber ∧
      (← hexBytes (← field anchor "hash") 32) = transaction.blockHash)
    (.funds "trace RPC canonical block differs from the confirmed receipt")
  let trace ← readTrace (← traceRpc "trace_transaction" [.str transaction.txHash])
  let receipt ← field transaction.evidence "receipt"
  let frames ← readFrames transaction receipt trace
  checkTree frames selected
  let found ← complete (readReceipt chain.network transaction frames selected)
  require ((← chain.rpc "eth_getCode" [.str chain.network.custody, tag]) = .str "0x")
    (.funds "internal native funding currently requires undelegated EOA custody")
  let repeated ← chain.rpc "eth_getBlockByNumber" [tag, .bool false]
  let traceRepeated ← traceRpc "eth_getBlockByNumber" [tag, .bool false]
  require ((← isAnchor transaction repeated) = true ∧ (← isAnchor transaction traceRepeated) = true)
    (.conflict "internal funding block changed during verification")
  return found

/-! ## What the checks establish -/

variable {transaction : ConfirmedTransaction} {receipt : Json} {frames : List Frame}
  {frame : Frame} {value : Json} {trace : List Json} {selected : List ℕ}

@[simp] theorem complete_eq_ok {α : Type} {x : Result α} {a : α} :
    complete x = .ok a ↔ x = .ok a := by
  unfold complete
  split
  next => exact ⟨nofun, nofun⟩
  next => rfl

theorem readTrace_eq_ok (h : readTrace value = .ok trace) : value = .arr trace := by
  cases value with
  | arr items =>
      simp only [readTrace, bind_eq_ok, require_eq_ok, exists_const, pure_eq_ok] at h
      rw [h.2]
  | _ => cases h

/-- A frame stands where its own address says. -/
theorem readFrame_reads (h : readFrame transaction receipt frames value = .ok frame) :
    frame.value = value ∧ ∃ address, field value "traceAddress" = .ok address ∧
      path address true = .ok frame.location := by
  simp only [readFrame, bind_eq_ok, require_eq_ok, exists_const] at h
  obtain ⟨address, haddress, location, hlocation, -, _, -, -, _, -, _, -, -, _, -, _, -, -, _, -,
    -, _, -, _, -, -, subtraces, -, h⟩ := h
  split at h
  next =>
    simp only [bind_eq_ok, require_eq_ok, exists_const, pure_eq_ok] at h
    obtain ⟨-, rfl⟩ := h
    exact ⟨rfl, address, haddress, hlocation⟩
  next => exact absurd h throw_ne_ok

/-- Beside others a frame is read as it is alone, if its address is new. -/
theorem readFrame_beside : readFrame transaction receipt frames value = .ok frame ↔
    frame.location ∉ frames.map (·.location) ∧
      readFrame transaction receipt [] value = .ok frame := by
  constructor
  · intro h
    obtain ⟨-, address, haddress, hpath⟩ := readFrame_reads h
    simp only [readFrame, bind_eq_ok, require_eq_ok, exists_const] at h ⊢
    obtain ⟨address', haddress', location, hlocation, hfresh, rest⟩ := h
    obtain rfl := Except.ok.inj (haddress.symm.trans haddress')
    obtain rfl := Except.ok.inj (hpath.symm.trans hlocation)
    exact ⟨hfresh, address, haddress, _, hpath, List.not_mem_nil, rest⟩
  · rintro ⟨hfresh, h⟩
    obtain ⟨-, address, haddress, hpath⟩ := readFrame_reads h
    simp only [readFrame, bind_eq_ok, require_eq_ok, exists_const] at h ⊢
    obtain ⟨address', haddress', location, hlocation, -, rest⟩ := h
    obtain rfl := Except.ok.inj (haddress.symm.trans haddress')
    obtain rfl := Except.ok.inj (hpath.symm.trans hlocation)
    exact ⟨address, haddress, _, hpath, hfresh, rest⟩

/-- The frames are those of the trace, each read by itself, at distinct addresses. -/
structure Reads (transaction : ConfirmedTransaction) (receipt : Json) (trace : List Json)
    (frames : List Frame) : Prop where
  values : frames.map (·.value) = trace
  alone : ∀ f ∈ frames, readFrame transaction receipt [] f.value = .ok f
  unique : (frames.map (·.location)).Nodup

/-- A trace is read in one way only. -/
theorem Reads.eq {other : List Frame} (h : Reads transaction receipt trace frames)
    (hother : Reads transaction receipt (other.map (·.value)) other)
    (hvalues : other.map (·.value) = trace) : other = frames := by
  have hread : ∀ {fs : List Frame},
      (∀ f ∈ fs, readFrame transaction receipt [] f.value = .ok f) →
      (fs.map (·.value)).map (readFrame transaction receipt []) = fs.map .ok := by
    intro fs hfs
    rw [List.map_map]
    exact List.map_congr_left hfs
  have hmap : other.map (Except.ok (ε := Error)) = frames.map .ok := by
    rw [← hread hother.alone, ← hread h.alone, hvalues, h.values]
  exact List.map_injective_iff.mpr (fun _ _ => Except.ok.inj) hmap

/-- What is read of a part of a trace is a part of what is read of the trace. -/
theorem Reads.sublist {part : List Json} {other : List Frame}
    (h : Reads transaction receipt trace frames) (hother : Reads transaction receipt part other)
    (hpart : part.Sublist trace) : other.Sublist frames := by
  rw [← h.values, List.sublist_map_iff] at hpart
  obtain ⟨kept, hkept, rfl⟩ := hpart
  have hreads : Reads transaction receipt (kept.map (·.value)) kept :=
    ⟨rfl, fun f hf => h.alone f (hkept.subset hf), (hkept.map _).nodup h.unique⟩
  rwa [← hother.eq hreads rfl]

theorem readFrames_from {before : List Frame} (hbefore : (before.map (·.location)).Nodup) :
    trace.foldlM (fun frames frame => do
        let read ← complete (readFrame transaction receipt frames frame)
        return frames ++ [read]) before = .ok frames ↔
      ∃ rest, frames = before ++ rest ∧ rest.map (·.value) = trace ∧
        (∀ f ∈ rest, readFrame transaction receipt [] f.value = .ok f) ∧
        (frames.map (·.location)).Nodup := by
  induction trace generalizing before with
  | nil =>
      simp only [List.foldlM_nil, pure_eq_ok, List.map_eq_nil_iff]
      constructor
      · rintro rfl
        exact ⟨[], (List.append_nil _).symm, rfl, List.forall_mem_nil _, hbefore⟩
      · rintro ⟨rest, rfl, rfl, -⟩
        exact (List.append_nil _).symm
  | cons value trace ih =>
      simp only [List.foldlM_cons, bind_eq_ok, complete_eq_ok, pure_eq_ok]
      constructor
      · rintro ⟨_, ⟨frame, hframe, rfl⟩, h⟩
        obtain ⟨hvalue, -⟩ := readFrame_reads hframe
        obtain ⟨hfresh, halone⟩ := readFrame_beside.mp hframe
        have hnodup : ((before ++ [frame]).map (·.location)).Nodup := by
          rw [List.map_append, List.nodup_append]
          refine ⟨hbefore, List.nodup_singleton _, ?_⟩
          intro a ha b hb hab
          obtain rfl : b = frame.location := List.mem_singleton.mp hb
          obtain rfl : a = frame.location := hab
          exact hfresh ha
        obtain ⟨rest, rfl, rfl, hrest, hunique⟩ := (ih hnodup).mp h
        refine ⟨frame :: rest, by simp, by simp [hvalue], ?_, hunique⟩
        intro f hf
        rcases List.mem_cons.mp hf with rfl | hf
        · rwa [hvalue]
        · exact hrest f hf
      · rintro ⟨rest, rfl, hvalues, hrest, hunique⟩
        cases rest with
        | nil => cases hvalues
        | cons frame rest =>
            obtain ⟨rfl, rfl⟩ := List.cons.inj hvalues
            have hsplit : before ++ frame :: rest = (before ++ [frame]) ++ rest := by simp
            rw [hsplit, List.map_append, List.nodup_append] at hunique
            have hfirst := hunique.1
            rw [List.map_append, List.nodup_append] at hfirst
            have hfresh : frame.location ∉ before.map (·.location) := fun hmem =>
              hfirst.2.2 _ hmem _ (List.mem_singleton_self _) rfl
            refine ⟨_, ⟨frame, readFrame_beside.mpr ⟨hfresh, hrest frame (by simp)⟩, rfl⟩, ?_⟩
            refine (ih hunique.1).mpr ⟨rest, hsplit, rfl, fun f hf => hrest f (by simp [hf]), ?_⟩
            rw [hsplit, List.map_append, List.nodup_append]
            exact hunique

theorem readFrames_eq_ok :
    readFrames transaction receipt trace = .ok frames ↔ Reads transaction receipt trace frames := by
  have hnil : (([] : List Frame).map (·.location)).Nodup := List.nodup_nil
  rw [readFrames, readFrames_from hnil]
  constructor
  · rintro ⟨rest, rfl, hvalues, halone, hunique⟩
    exact ⟨hvalues, halone, hunique⟩
  · rintro ⟨hvalues, halone, hunique⟩
    exact ⟨frames, rfl, hvalues, halone, hunique⟩

/-! ## The tree of a trace -/

/-- The frames form one complete call tree. -/
abbrev IsTree (frames : List Frame) : Prop :=
  Complete Frame.location Frame.subtraces frames

theorem mem_childrenOf {location : List ℕ} {i : ℕ} :
    i ∈ childrenOf frames location ↔ location ++ [i] ∈ frames.map (·.location) := by
  simp only [childrenOf, List.mem_map, List.mem_filter, decide_eq_true_eq]
  constructor
  · rintro ⟨f, ⟨hf, hne, hparent⟩, rfl⟩
    refine ⟨f, hf, ?_⟩
    rw [← hparent, List.getLastD_eq_getLast?, List.getLast?_eq_getLast_of_ne_nil hne]
    exact (List.dropLast_append_getLast hne).symm
  · rintro ⟨f, hf, heq⟩
    refine ⟨f, ⟨hf, ?_, ?_⟩, ?_⟩
    · simp [heq]
    · simp [heq]
    · simp [heq]

/-- The checks of the tree pass exactly for a complete tree that has the selected frame. -/
theorem checkTree_eq_ok (hunique : (frames.map (·.location)).Nodup) :
    checkTree frames selected = .ok () ↔
      IsTree frames ∧ selected ∈ frames.map (·.location) := by
  simp only [checkTree, bind_eq_ok, require_eq_ok, exists_const]
  have hchildren : (∀ f ∈ frames, childrenOf frames f.location ⊆ List.range f.subtraces ∧
        List.range f.subtraces ⊆ childrenOf frames f.location) ↔
      ∀ f ∈ frames, ∀ i, f.location ++ [i] ∈ frames.map (·.location) ↔ i < f.subtraces := by
    refine forall₂_congr fun f _ => ?_
    simp only [List.subset_def, mem_childrenOf, List.mem_range]
    exact ⟨fun h i => ⟨fun hi => h.1 hi, fun hi => h.2 hi⟩,
      fun h => ⟨fun {i} hi => (h i).mp hi, fun {i} hi => (h i).mpr hi⟩⟩
  rw [hchildren]
  constructor
  · rintro ⟨hparents, hroot, hselected, -, hnumbered⟩
    exact ⟨⟨hunique, hroot, ancestors_of_parents hparents, hnumbered⟩, hselected⟩
  · rintro ⟨htree, hselected⟩
    refine ⟨fun f hf _ => htree.ancestors f hf _ (List.dropLast_prefix _), htree.root, hselected,
      htree.sum_arity, htree.children⟩

/-! ## Calls and transfers -/

theorem field_eq_ok {key : String} {member : Json} :
    field value key = .ok member ↔ value.get? key = some member :=
  fetch_eq_ok

/-- A call that did not fail. -/
structure SuccessfulCall (frame : Json) : Prop where
  noError : (frame.get? "error").all (·.truthy = false)
  result : isObject (frame.get? "result") = true
  call : frame.get? "type" = some (.str "call")
  kind : ∃ action callType, frame.get? "action" = some action ∧
    action.get? "callType" = some callType ∧
    callType ∈ [Json.str "call", .str "delegatecall", .str "callcode"]

theorem checkAncestor_eq_ok : checkAncestor value = .ok () ↔ SuccessfulCall value := by
  simp only [checkAncestor, bind_eq_ok, require_eq_ok, exists_const, field_eq_ok]
  constructor
  · rintro ⟨⟨hnoError, hresult⟩, hcall, action, haction, callType, hcallType, hkind⟩
    exact ⟨hnoError, hresult, hcall, action, callType, haction, hcallType, hkind⟩
  · rintro ⟨hnoError, hresult, hcall, action, callType, haction, hcallType, hkind⟩
    exact ⟨⟨hnoError, hresult⟩, hcall, action, haction, callType, hcallType, hkind⟩

/-- A call that moves a positive amount from outside custody into custody. -/
structure IncomingTransfer (custody : Address) (frame : Json) (sender recipient : Address)
    (amount : ℕ) : Prop where
  call : frame.get? "type" = some (.str "call")
  action : ∃ action, frame.get? "action" = some action ∧
    action.get? "callType" = some (.str "call") ∧
    (∃ source, action.get? "from" = some source ∧ addressOf source = .ok sender) ∧
    (∃ target, action.get? "to" = some target ∧ addressOf target = .ok recipient) ∧
    ∃ value, action.get? "value" = some value ∧ quantity value = .ok amount
  positive : 0 < amount
  outside : sender ≠ custody
  inside : recipient = custody

theorem readTransfer_eq_ok {custody sender recipient : Address} {amount : ℕ} :
    readTransfer custody value = .ok (sender, recipient, amount) ↔
      IncomingTransfer custody value sender recipient amount := by
  simp only [readTransfer, bind_eq_ok, require_eq_ok, exists_const, field_eq_ok, pure_eq_ok,
    Prod.mk.injEq]
  constructor
  · rintro ⟨action, haction, source, hsource, _, hsender, target, htarget, _, hrecipient, paid,
      hpaid, _, hamount, _, htype, _, hkind, ⟨rfl, rfl, hpositive, houtside, hinside⟩, rfl, rfl,
      rfl⟩
    exact ⟨htype, ⟨action, haction, hkind, ⟨source, hsource, hsender⟩,
      ⟨target, htarget, hrecipient⟩, paid, hpaid, hamount⟩, hpositive, houtside, hinside⟩
  · rintro ⟨htype, ⟨action, haction, hkind, ⟨source, hsource, hsender⟩,
      ⟨target, htarget, hrecipient⟩, paid, hpaid, hamount⟩, hpositive, houtside, hinside⟩
    exact ⟨action, haction, source, hsource, _, hsender, target, htarget, _, hrecipient, paid,
      hpaid, _, hamount, _, htype, _, hkind, ⟨rfl, rfl, hpositive, houtside, hinside⟩, rfl, rfl,
      rfl⟩

theorem frameAt_eq_ok (hunique : (frames.map (·.location)).Nodup) {location : List ℕ} :
    frameAt frames location = .ok frame ↔ frame ∈ frames ∧ frame.location = location := by
  rw [frameAt, fetch_eq_ok]
  constructor
  · intro h
    exact ⟨List.mem_of_find?_eq_some h, by simpa using List.find?_some h⟩
  · rintro ⟨hmem, rfl⟩
    have hsome : (frames.find? (·.location = frame.location)).isSome :=
      List.find?_isSome.mpr ⟨frame, hmem, decide_eq_true rfl⟩
    obtain ⟨other, hother⟩ := Option.isSome_iff_exists.mp hsome
    have hsame : other = frame := List.inj_on_of_nodup_map hunique
      (List.mem_of_find?_eq_some hother) hmem (by simpa using List.find?_some hother)
    rw [hother, hsame]

/-- Every call from the root down to the selected one succeeded. -/
theorem checkAncestry_eq_ok (hunique : (frames.map (·.location)).Nodup) :
    checkAncestry frames selected = .ok () ↔ ∀ p, p <+: selected →
      ∃ f ∈ frames, f.location = p ∧ SuccessfulCall f.value := by
  simp only [checkAncestry, forM_eq_ok, List.mem_inits, bind_eq_ok, frameAt_eq_ok hunique,
    checkAncestor_eq_ok]
  refine forall₂_congr fun p _ => ⟨?_, ?_⟩
  · rintro ⟨f, ⟨hf, hlocation⟩, hcall⟩
    exact ⟨f, hf, hlocation, hcall⟩
  · rintro ⟨f, hf, hlocation, hcall⟩
    exact ⟨f, ⟨hf, hlocation⟩, hcall⟩

/-- What the frames showed of a receipt that was read off them. -/
theorem readReceipt_spec {network : Network} {found : InternalNativeReceipt}
    (hunique : (frames.map (·.location)).Nodup)
    (h : readReceipt network transaction frames selected = .ok found) :
    found.transaction = transaction ∧ found.traceAddress = selected ∧
      (∀ p, p <+: selected → ∃ f ∈ frames, f.location = p ∧ SuccessfulCall f.value) ∧
      ∃ f ∈ frames, f.location = selected ∧ ∃ amount : ℕ, found.amount = amount ∧
        IncomingTransfer network.custody f.value found.sender found.recipient amount := by
  simp only [readReceipt, bind_eq_ok, pure_eq_ok] at h
  obtain ⟨root, -, -, -, ⟨⟩, hancestry, f, hframe, ⟨sender, recipient, amount⟩, htransfer, rfl⟩ := h
  obtain ⟨hf, hlocation⟩ := (frameAt_eq_ok hunique).mp hframe
  exact ⟨rfl, rfl, (checkAncestry_eq_ok hunique).mp hancestry, f, hf, hlocation, amount, rfl,
    readTransfer_eq_ok.mp htransfer⟩

theorem verify_spec {chain : Chain} {traceRpc : Option Rpc} {traceAddress : Json}
    {found : InternalNativeReceipt}
    (h : verify chain traceRpc transaction traceAddress = .ok found) :
    ∃ rpc trace receipt frames selected, traceRpc = some rpc ∧ path traceAddress = .ok selected ∧
      rpc "trace_transaction" [.str transaction.txHash] = .ok (.arr trace) ∧
      field transaction.evidence "receipt" = .ok receipt ∧
      Reads transaction receipt trace frames ∧ checkTree frames selected = .ok () ∧
      readReceipt chain.network transaction frames selected = .ok found := by
  simp only [verify, bind_eq_ok, require_eq_ok, exists_const, fetch_eq_ok, complete_eq_ok,
    pure_eq_ok] at h
  obtain ⟨selected, hselected, rpc, hrpc, -, -, _, -, _, -, -, anchor, -, _, -, _, -, _, -, _, -, -,
    response, hresponse, trace, htrace, receipt, hreceipt, frames, hframes, ⟨⟩, htree, _, hfound,
    _, -,
    -, _, -, _, -, _, -, _, -, -, rfl⟩ := h
  obtain rfl := readTrace_eq_ok htrace
  exact ⟨rpc, trace, receipt, frames, selected, hrpc, hselected, hresponse, hreceipt,
    readFrames_eq_ok.mp hframes, htree, hfound⟩

end NativeFunding

open NativeFunding in
/-- A receipt is accepted only off a whole call tree, whose selected frame moves a positive
amount from outside custody into custody and was called through successful calls only;
every whole tree with such a frame passes the checks; and an accepted trace of which
anything is left out is rejected. -/
theorem internal_receipts :
    (∀ {chain : Chain} {traceRpc : Option Rpc} {transaction : ConfirmedTransaction}
        {traceAddress : Json} {found : InternalNativeReceipt},
      verify chain traceRpc transaction traceAddress = .ok found →
      ∃ rpc trace receipt frames, traceRpc = some rpc ∧
        rpc "trace_transaction" [.str transaction.txHash] = .ok (.arr trace) ∧
        Reads transaction receipt trace frames ∧ IsTree frames ∧
        path traceAddress = .ok found.traceAddress ∧
        (∀ p, p <+: found.traceAddress → ∃ f ∈ frames, f.location = p ∧ SuccessfulCall f.value) ∧
        ∃ f ∈ frames, f.location = found.traceAddress ∧ ∃ amount : ℕ, found.amount = amount ∧
          IncomingTransfer chain.network.custody f.value found.sender found.recipient amount) ∧
    (∀ {transaction : ConfirmedTransaction} {receipt : Json} {trace : List Json}
        {frames : List Frame} {custody sender recipient : Address} {amount : ℕ} {frame : Frame},
      Reads transaction receipt trace frames → IsTree frames → frame ∈ frames →
      (∀ p, p <+: frame.location → ∃ f ∈ frames, f.location = p ∧ SuccessfulCall f.value) →
      IncomingTransfer custody frame.value sender recipient amount →
      readFrames transaction receipt trace = .ok frames ∧
        checkTree frames frame.location = .ok () ∧
        checkAncestry frames frame.location = .ok () ∧
        frameAt frames frame.location = .ok frame ∧
        readTransfer custody frame.value = .ok (sender, recipient, amount)) ∧
    ∀ {chain chain' : Chain} {rpc rpc' : Rpc} {transaction : ConfirmedTransaction}
        {traceAddress traceAddress' : Json} {found : InternalNativeReceipt}
        {trace part : List Json},
      verify chain (some rpc) transaction traceAddress = .ok found →
      rpc "trace_transaction" [.str transaction.txHash] = .ok (.arr trace) →
      rpc' "trace_transaction" [.str transaction.txHash] = .ok (.arr part) →
      part.Sublist trace → part ≠ trace →
      ∀ found', verify chain' (some rpc') transaction traceAddress' ≠ .ok found' := by
  refine ⟨?_, ?_, ?_⟩
  · intro chain traceRpc transaction traceAddress found h
    obtain ⟨rpc, trace, receipt, frames, selected, hrpc, hselected, hresponse, -, hreads, hcheck,
      hfound⟩ := verify_spec h
    obtain ⟨htree, -⟩ := (checkTree_eq_ok hreads.unique).mp hcheck
    obtain ⟨-, rfl, hancestry, htransfer⟩ := readReceipt_spec hreads.unique hfound
    exact ⟨rpc, trace, receipt, frames, hrpc, hresponse, hreads, htree, hselected, hancestry,
      htransfer⟩
  · intro transaction receipt trace frames custody sender recipient amount frame hreads htree
      hframe hancestry htransfer
    exact ⟨readFrames_eq_ok.mpr hreads,
      (checkTree_eq_ok hreads.unique).mpr ⟨htree, List.mem_map_of_mem hframe⟩,
      (checkAncestry_eq_ok hreads.unique).mpr hancestry,
      (frameAt_eq_ok hreads.unique).mpr ⟨hframe, rfl⟩, readTransfer_eq_ok.mpr htransfer⟩
  · intro chain chain' rpc rpc' transaction traceAddress traceAddress' found trace part h htrace
      hpart hsub hne found' h'
    obtain ⟨_, _, receipt, frames, _, hrpc, -, hresponse, hreceipt, hreads, hcheck, -⟩ :=
      verify_spec h
    obtain ⟨_, _, receipt', frames', _, hrpc', -, hresponse', hreceipt', hreads', hcheck', -⟩ :=
      verify_spec h'
    obtain rfl := Option.some.inj hrpc
    obtain rfl := Option.some.inj hrpc'
    obtain rfl := Except.ok.inj (hreceipt.symm.trans hreceipt')
    obtain rfl := Json.arr.inj (Except.ok.inj (htrace.symm.trans hresponse))
    obtain rfl := Json.arr.inj (Except.ok.inj (hpart.symm.trans hresponse'))
    obtain ⟨htree, -⟩ := (checkTree_eq_ok hreads.unique).mp hcheck
    obtain ⟨htree', -⟩ := (checkTree_eq_ok hreads'.unique).mp hcheck'
    -- Both are whole trees, and the frames of one are among those of the other.
    have hsame := htree.eq_of_sublist htree' (hreads.sublist hreads' hsub)
    exact hne (by rw [← hreads'.values, hsame, hreads.values])

/-! ## A transaction that pays custody in its second call -/

namespace NativeFunding

def batchHash (c : Char) : String := String.ofList ('0' :: 'x' :: List.replicate 64 c)

def batchWallet (c : Char) : String := String.ofList ('0' :: 'x' :: List.replicate 40 c)

def batchFrame (location : List ℤ) (subtraces : ℤ) (source target : Char) (value : String)
    (result : List (String × Json)) : Json :=
  .obj ([("action", .obj [("callType", .str "call"), ("from", .str (batchWallet source)),
      ("input", .str "0x"), ("to", .str (batchWallet target)), ("value", .str value)]),
    ("blockHash", .str (batchHash 'd')), ("blockNumber", .int 9)] ++ result ++
    [("subtraces", .int subtraces), ("traceAddress", .arr (location.map .int)),
      ("transactionHash", .str (batchHash 'e')), ("transactionPosition", .int 3),
      ("type", .str "call")])

def batchSuccess : List (String × Json) := [("result", .obj [("output", .str "0x")])]

/-- The batch contract `b` is called; its first call fails, its second one pays custody. -/
def batchTrace : List Json :=
  [batchFrame [] 2 'a' 'b' "0x0" batchSuccess,
    batchFrame [0] 0 'b' 'f' "0x1" [("error", .str "Reverted")],
    batchFrame [1] 0 'b' 'c' "0x7" batchSuccess]

def batchNetwork : Network where
  chainId := 1
  token := batchWallet '9'
  custody := batchWallet 'c'
  confirmations := 3
  decimals := 18
  requireFinalized := true

def batchTransaction : ConfirmedTransaction where
  network := batchNetwork
  txHash := batchHash 'e'
  sender := batchWallet 'a'
  recipient := some (batchWallet 'b')
  nonce := 0
  successful := true
  value := 0
  fee := 1
  feeModel := "ethereum"
  blockNumber := 9
  blockHash := batchHash 'd'
  blockTimestamp := 0
  evidence := .obj [("receipt", .obj [("transactionIndex", .str "0x3")]),
    ("transaction", .obj [("input", .str "0x")])]

/-- An endpoint that answers with the trace. -/
def batchRpc (trace : List Json) : Rpc := fun method _ =>
  match method with
  | "eth_chainId" => .ok (.str "0x1")
  | "eth_getCode" => .ok (.str "0x")
  | "eth_getBlockByNumber" =>
      .ok (.obj [("hash", .str (batchHash 'd')), ("number", .str "0x9")])
  | "trace_transaction" => .ok (.arr trace)
  | _ => .error (.funds "RPC request failed")

def batchReceipt : InternalNativeReceipt :=
  ⟨batchTransaction, [1], batchWallet 'b', batchWallet 'c', 7⟩

theorem batch_verified : verify ⟨batchNetwork, batchRpc batchTrace⟩ (some (batchRpc batchTrace))
    batchTransaction (.arr [.int 1]) = .ok batchReceipt := by
  refine eq_ok_of_toOption ?_
  decide +kernel

end NativeFunding

open NativeFunding in
/-- The payment is read off the whole trace, and not off one without the failed call. -/
theorem internal_receipts_batch :
    (∃ rpc trace receipt frames, some (batchRpc batchTrace) = some rpc ∧
      rpc "trace_transaction" [.str batchTransaction.txHash] = .ok (.arr trace) ∧
      Reads batchTransaction receipt trace frames ∧ IsTree frames ∧
      path (.arr [.int 1]) = .ok [1]) ∧
    verify ⟨batchNetwork, batchRpc batchTrace⟩ (some (batchRpc (batchTrace.eraseIdx 1)))
      batchTransaction (.arr [.int 1]) ≠ .ok batchReceipt := by
  refine ⟨?_, ?_⟩
  · obtain ⟨rpc, trace, receipt, frames, hrpc, htrace, hreads, htree, hpath, -⟩ :=
      internal_receipts.1 batch_verified
    exact ⟨rpc, trace, receipt, frames, hrpc, htrace, hreads, htree, hpath⟩
  · exact internal_receipts.2.2 batch_verified rfl rfl (List.eraseIdx_sublist _ _)
      (fun h => absurd (congrArg List.length h) (by decide)) batchReceipt

end TigPool
