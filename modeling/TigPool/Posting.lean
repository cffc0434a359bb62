/-
# `TigPool.Posting` — the journal under any calls

The parts of the service agree on what they post, and `Sound` rests on it.  Here nothing
is assumed about the callers: accounts are opened with any kind, journals are posted under
any key with any movements, and any journal is reversed, in any order.  A refused call
leaves the ledger as it was, since its transaction is rolled back.

What holds of the journal then is what the replays of the service rest on: a journal stays
under its key; a repetition is accepted exactly if it says the same, and changes nothing;
a journal is reversed at most once, and its reversal takes exactly its entries back.
-/
import TigPool.Ledger

namespace TigPool

open Basis

namespace Ledger

/-! ## Entry by entry -/

/-- An inserted entry adds its amount to its account, whose own check must hold then. -/
def applyEntry (accounts : Table AccountId Account) (entry : AccountId × ℤ) :
    Result (Table AccountId Account) :=
  match accounts.lookup entry.1 with
  | none => .error (.integrity "unknown account or asset")
  | some row => do
      require (row.kind = .external ∨ 0 ≤ row.balance + entry.2) (.integrity "accounts_check")
      return AList.insert entry.1 { row with balance := row.balance + entry.2 } accounts

/-- The deferred check of a journal. -/
def balancedJournal (accounts : Table AccountId Account) (amounts : Movements AccountId) : Bool :=
  2 ≤ amounts.length ∧ balancesAssets accounts amounts

/-- The entries that `post` has checked are applied one by one, without a refusal. -/
theorem applyEntry_all {accounts : Table AccountId Account} {amounts : Movements AccountId}
    (hkeys : (amounts.map Prod.fst).Nodup) (hknown : ∀ p ∈ amounts, p.1 ∈ accounts)
    (hcovered : overdrawn accounts amounts = none) :
    ∃ applied, amounts.foldlM applyEntry accounts = .ok applied ∧
      ∀ a, applied.lookup a = (applyEntries accounts amounts).lookup a := by
  induction amounts generalizing accounts with
  | nil =>
      refine ⟨accounts, rfl, fun a => ?_⟩
      rw [applyEntries, Table.lookup_mapVals]
      cases accounts.lookup a <;> simp
  | cons p rest ih =>
      obtain ⟨hp, hkeys⟩ := List.nodup_cons.mp hkeys
      obtain ⟨row, hrow⟩ :=
        Option.isSome_iff_exists.mp (AList.lookup_isSome.mpr (hknown p List.mem_cons_self))
      have hshort := List.findSome?_eq_none_iff.mp hcovered
      have hcheck : row.kind = .external ∨ 0 ≤ row.balance + p.2 := by
        have hnone := hshort p List.mem_cons_self
        simp only [hrow, Option.bind_some, ite_eq_right_iff, reduceCtorEq, imp_false] at hnone
        by_contra hcontra
        obtain ⟨hkind, hnegative⟩ := not_or.mp hcontra
        exact hnone ⟨hkind, not_le.mp hnegative⟩
      -- The other entries meet the accounts as they were.
      have hother : ∀ q ∈ rest, q.1 ≠ p.1 := fun q hq heq =>
        hp (heq ▸ List.mem_map_of_mem hq)
      obtain ⟨applied, hrest, hlookup⟩ :=
        @ih (AList.insert p.1 { row with balance := row.balance + p.2 } accounts) hkeys
          (fun q hq => (AList.mem_insert _).mpr (.inr (hknown q (List.mem_cons_of_mem _ hq))))
          (List.findSome?_eq_none_iff.mpr fun q hq => by
            rw [Table.lookup_insert_eq, if_neg (hother q hq)]
            exact hshort q (List.mem_cons_of_mem _ hq))
      refine ⟨applied, ?_, fun a => ?_⟩
      · simp only [List.foldlM_cons, applyEntry, hrow, bind_eq_ok, require_eq_ok, exists_const,
          pure_eq_ok]
        exact ⟨_, ⟨hcheck, rfl⟩, hrest⟩
      · rw [hlookup, applyEntries, applyEntries, Table.lookup_mapVals, Table.lookup_mapVals,
          Table.lookup_insert_eq]
        by_cases ha : a = p.1
        · have hrest0 : moved rest p.1 = 0 := moved_eq_zero hother
          rw [if_pos ha, ha, hrow, moved_cons, if_pos rfl, Option.map_some, Option.map_some, hrest0]
          simp
        · rw [if_neg ha, moved_cons, if_neg (Ne.symm ha), zero_add]

theorem balancesAssets_iff {accounts : Table AccountId Account} {amounts : Movements AccountId} :
    balancesAssets accounts amounts = true ↔ ∀ asset : Asset,
      shifted (fun a => (accounts.lookup a).map (·.asset)) amounts (some asset) = 0 := by
  simp only [balancesAssets, List.all_cons, List.all_nil, Bool.and_true, Bool.and_eq_true,
    decide_eq_true_eq]
  constructor
  · rintro ⟨htig, hnative⟩ asset
    cases asset with
    | TIG => exact htig
    | NATIVE => exact hnative
  · intro h
    exact ⟨h .TIG, h .NATIVE⟩

/-- One entry alone does not balance. -/
theorem two_le_length {accounts : Table AccountId Account} {m : Movements AccountId}
    (hne : net m ≠ []) (hknown : ∀ p ∈ net m, p.1 ∈ accounts)
    (hbalances : balancesAssets accounts (net m) = true) : 2 ≤ (net m).length := by
  match hnet : net m with
  | [] => exact absurd hnet hne
  | [p] =>
      have hp : p ∈ net m := by rw [hnet]; exact List.mem_singleton_self p
      obtain ⟨row, hrow⟩ := Option.isSome_iff_exists.mp (AList.lookup_isSome.mpr (hknown p hp))
      have hzero := balancesAssets_iff.mp hbalances row.asset
      rw [hnet, shifted_cons, shifted_nil, hrow] at hzero
      simp only [Option.map_some, if_pos, add_zero] at hzero
      exact absurd hzero (mem_net_iff.mp hp).2
  | _ :: _ :: _ => simp

/-! ## What is accepted -/

/-- A new journal with these entries is accepted. -/
structure Accepts (ledger : Ledger) (amounts : Movements AccountId) (reverses : Option EventKey) :
    Prop where
  unreversed : ∀ target, reverses = some target →
    ∀ k j, ledger.journals.lookup k = some j → j.reverses ≠ some target
  recorded : ∀ target, reverses = some target → target ∈ ledger.journals
  known : ∀ p ∈ amounts, p.1 ∈ ledger.accounts
  covered : ∀ p ∈ amounts, ∀ row, ledger.accounts.lookup p.1 = some row → row.kind ≠ .external →
    0 ≤ row.balance + p.2
  balanced : ∀ asset, shifted (fun a => (ledger.accounts.lookup a).map (·.asset)) amounts
    (some asset) = 0

/-- The journal says the same. -/
structure Says (j : Journal) (kind : String) (movements : Movements AccountId) (details : Json)
    (reverses : Option EventKey) : Prop where
  kind : j.kind = kind
  amounts : SameMoves j.amounts movements
  details : j.details = details
  reverses : j.reverses = reverses

variable {ledger ledger' : Ledger} {k : EventKey} {j : Journal} {kind : String}
  {m : Movements AccountId} {details : Json} {reverses : Option EventKey}

theorem overdrawn_eq_none {accounts : Table AccountId Account} {amounts : Movements AccountId} :
    overdrawn accounts amounts = none ↔ ∀ p ∈ amounts, ∀ row, accounts.lookup p.1 = some row →
      row.kind ≠ .external → 0 ≤ row.balance + p.2 := by
  rw [overdrawn, List.findSome?_eq_none_iff]
  refine forall₂_congr fun p _ => ?_
  cases accounts.lookup p.1 with
  | none => simp
  | some row =>
      simp only [Option.bind_some, ite_eq_right_iff, reduceCtorEq, imp_false, not_and, not_lt,
        Option.some.injEq, forall_eq']

/-- A posting under a fresh key. -/
theorem post_new (hk : ledger.journals.lookup k = none) :
    ledger.post k kind m details reverses = .ok ledger' ↔
      (k ≠ .correction "" ∧ kind ≠ "") ∧ net m ≠ [] ∧ ledger.Accepts (net m) reverses ∧
        ledger' = ledger.posted k (journalOf kind m details reverses) := by
  have hunreversed : (reverses = none ∨
      ledger.journals.any (fun _ j => decide (j.reverses = reverses)) = false) ↔
      ∀ target, reverses = some target →
        ∀ k j, ledger.journals.lookup k = some j → j.reverses ≠ some target := by
    cases reverses with
    | none => simp
    | some target => simp [Table.any_eq_false]
  have hrecorded : (reverses.all (fun target => decide (target ∈ ledger.journals)) = true) ↔
      ∀ target, reverses = some target → target ∈ ledger.journals := by
    cases reverses <;> simp
  unfold post
  simp only [bind_eq_ok, require_eq_ok, exists_const, hk, pure_eq_ok, hunreversed, hrecorded,
    overdrawn_eq_none, balancesAssets_iff]
  constructor
  · rintro ⟨hkind, hne, h₁, h₂, h₃, h₄, h₅, rfl⟩
    exact ⟨hkind, hne, ⟨h₁, h₅, h₂, h₃, h₄⟩, rfl⟩
  · rintro ⟨hkind, hne, ⟨h₁, h₅, h₂, h₃, h₄⟩, rfl⟩
    exact ⟨hkind, hne, h₁, h₂, h₃, h₄, h₅, rfl⟩

/-- The triggers apply the entries of an accepted journal one by one, and its deferred check
passes. -/
theorem Accepts.applied (h : ledger.Accepts (net m) reverses) (hne : net m ≠ []) :
    balancedJournal ledger.accounts (net m) = true ∧
      ∃ applied, (net m).foldlM applyEntry ledger.accounts = .ok applied ∧
        ∀ a, applied.lookup a = (applyEntries ledger.accounts (net m)).lookup a := by
  have hbalances := balancesAssets_iff.mpr h.balanced
  refine ⟨?_, applyEntry_all net_keys_nodup h.known (overdrawn_eq_none.mpr h.covered)⟩
  rw [balancedJournal, decide_eq_true_eq]
  exact ⟨two_le_length hne h.known hbalances, hbalances⟩

/-- A posting under a used key. -/
theorem post_recorded (hj : ledger.journals.lookup k = some j) :
    ledger.post k kind m details reverses = .ok ledger' ↔
      (k ≠ .correction "" ∧ kind ≠ "") ∧ net m ≠ [] ∧ (j.kind = kind ∧
        j.amounts.Perm (net m) ∧ j.details = details ∧ j.reverses = reverses) ∧
        ledger' = ledger := by
  unfold post
  simp only [bind_eq_ok, require_eq_ok, exists_const, hj, pure_eq_ok, List.isPerm_iff,
    @eq_comm _ ledger]

/-! ## Calls -/

inductive Call where
  | account (accountId : AccountId) (kind : AccountKind) (asset : Asset) (location : Location)
  | post (eventKey : EventKey) (kind : String) (movements : Movements AccountId) (details : Json)
      (reverses : Option EventKey)
  | reverse (journal eventKey : EventKey) (actor reason : String)

def Call.run (ledger : Ledger) : Call → Result Ledger
  | .account accountId kind asset location => ledger.account accountId kind asset location
  | .post eventKey kind movements details reverses =>
      ledger.post eventKey kind movements details reverses
  | .reverse journal eventKey actor reason => ledger.reverse journal eventKey actor reason

/-- The ledger after a call; a refused one leaves it. -/
def call (ledger : Ledger) (c : Call) : Ledger :=
  (c.run ledger).toOption.getD ledger

def after (ledger : Ledger) (calls : List Call) : Ledger :=
  calls.foldl call ledger

theorem call_of_error {c : Call} {e : Error} (h : c.run ledger = .error e) :
    ledger.call c = ledger := by
  rw [call, h]
  rfl

/-- A reversal finds a journal with entries, and posts them turned around. -/
theorem reverse_eq_ok {journal : EventKey} {actor reason : String} :
    ledger.reverse journal k actor reason = .ok ledger' ↔ (actor ≠ "" ∧ reason ≠ "") ∧
      ∃ j, ledger.journals.lookup journal = some j ∧ j.amounts ≠ [] ∧
        ledger.post k "correction" (opposite j.amounts)
          (.obj [("actor", .str actor), ("reason", .str reason)]) (some journal) = .ok ledger' := by
  simp only [reverse, bind_eq_ok, require_eq_ok, exists_const]
  cases ledger.journals.lookup journal with
  | none => simp
  | some j => simp

/-- What a call can do to the journals: nothing, or one new journal that `post` accepts. -/
theorem call_cases (c : Call) : (ledger.call c).journals = ledger.journals ∨
    ∃ k kind m details reverses, ledger.journals.lookup k = none ∧
      (k ≠ .correction "" ∧ kind ≠ "") ∧ net m ≠ [] ∧ ledger.Accepts (net m) reverses ∧
      ledger.call c = ledger.posted k (journalOf kind m details reverses) := by
  have hpost : ∀ k kind m details reverses ledger',
      ledger.post k kind m details reverses = .ok ledger' → ledger'.journals = ledger.journals ∨
        ∃ k kind m details reverses, ledger.journals.lookup k = none ∧
          (k ≠ .correction "" ∧ kind ≠ "") ∧ net m ≠ [] ∧ ledger.Accepts (net m) reverses ∧
          ledger' = ledger.posted k (journalOf kind m details reverses) := by
    intro k kind m details reverses ledger' h
    cases hk : ledger.journals.lookup k with
    | none =>
        obtain ⟨hkind, hne, haccepts, hledger⟩ := (post_new hk).mp h
        exact .inr ⟨k, kind, m, details, reverses, hk, hkind, hne, haccepts, hledger⟩
    | some j => exact .inl (by rw [((post_recorded hk).mp h).2.2.2])
  cases hrun : c.run ledger with
  | error e => exact .inl (by rw [call_of_error hrun])
  | ok ledger' =>
      have hcall : ledger.call c = ledger' := by
        rw [call, hrun]
        rfl
      rw [hcall]
      cases c with
      | account a kind asset location =>
          left
          change ledger.account a kind asset location = .ok ledger' at hrun
          unfold account at hrun
          split at hrun
          next =>
            obtain rfl := Except.ok.inj hrun
            rfl
          next =>
            split at hrun
            next => rw [Except.ok.inj hrun]
            next => cases hrun
      | post k kind m details reverses => exact hpost _ _ _ _ _ _ hrun
      | reverse journal k actor reason =>
          obtain ⟨-, j, -, -, hj⟩ := reverse_eq_ok.mp hrun
          exact hpost _ _ _ _ _ _ hj

/-- A journal stays under its key. -/
theorem call_lookup (c : Call) (hj : ledger.journals.lookup k = some j) :
    (ledger.call c).journals.lookup k = some j := by
  rcases call_cases c with h | ⟨k', kind, m, details, reverses, hk', -, -, -, h⟩
  · rw [h, hj]
  · rw [h, posted, Table.lookup_insert_eq, if_neg, hj]
    rintro rfl
    rw [hk'] at hj
    cases hj

theorem after_lookup {calls : List Call} (hj : ledger.journals.lookup k = some j) :
    (ledger.after calls).journals.lookup k = some j := by
  induction calls generalizing ledger with
  | nil => exact hj
  | cons c calls ih => exact ih (call_lookup c hj)

/-! ## What holds of the journals -/

/-- Every journal was written with its net entries, and no journal was reversed twice. -/
structure Consistent (ledger : Ledger) : Prop where
  written : ∀ {k j}, ledger.journals.lookup k = some j →
    (k ≠ .correction "" ∧ j.kind ≠ "") ∧ j.amounts ≠ [] ∧ ∃ m, j.amounts = net m
  once : ∀ {k k' j j' target}, ledger.journals.lookup k = some j →
    ledger.journals.lookup k' = some j' → j.reverses = some target → j'.reverses = some target →
    k = k'

theorem Consistent.empty : Consistent ⟨∅, ∅⟩ where
  written h := by cases h
  once h := by cases h

theorem Consistent.call (h : ledger.Consistent) (c : Call) : (ledger.call c).Consistent := by
  rcases call_cases c with heq | ⟨key, kind, m, details, reverses, -, hkind, hne, haccepts, heq⟩
  · exact ⟨fun hj => h.written (heq ▸ hj), fun hj hj' => h.once (heq ▸ hj) (heq ▸ hj')⟩
  · rw [heq]
    constructor
    · intro k j hj
      rw [posted, Table.lookup_insert_eq] at hj
      split at hj
      next hk =>
        obtain rfl := Option.some.inj hj
        exact ⟨hk ▸ hkind, hne, m, rfl⟩
      next => exact h.written hj
    · intro k k' j j' target hj hj' hr hr'
      rw [posted, Table.lookup_insert_eq] at hj hj'
      split at hj <;> split at hj'
      next hk hk' => rw [hk, hk']
      next =>
        -- The new journal reverses a journal that was not reversed.
        obtain rfl := Option.some.inj hj
        exact absurd hr' (haccepts.unreversed target hr k' j' hj')
      next =>
        obtain rfl := Option.some.inj hj'
        exact absurd hr (haccepts.unreversed target hr' k j hj)
      next => exact h.once hj hj' hr hr'

theorem Consistent.after (h : ledger.Consistent) (calls : List Call) :
    (ledger.after calls).Consistent := by
  induction calls generalizing ledger with
  | nil => exact h
  | cons c calls ih => exact ih (h.call c)

/-- A repetition is accepted exactly if it says the same. -/
theorem Consistent.repeated (h : ledger.Consistent) (hj : ledger.journals.lookup k = some j) :
    ledger.post k kind m details reverses = .ok ledger' ↔
      ledger' = ledger ∧ Says j kind m details reverses := by
  obtain ⟨⟨hkey, hkind⟩, hne, m', hm'⟩ := h.written hj
  have hsame : j.amounts.Perm (net m) ↔ SameMoves j.amounts m := by
    rw [hm', perm_net_iff]
    exact forall_congr' fun a => by rw [moved_net]
  rw [post_recorded hj, hsame]
  constructor
  · rintro ⟨-, -, ⟨h₁, h₂, h₃, h₄⟩, rfl⟩
    exact ⟨rfl, h₁, h₂, h₃, h₄⟩
  · rintro ⟨rfl, h₁, h₂, h₃, h₄⟩
    refine ⟨⟨hkey, h₁ ▸ hkind⟩, fun hnil => hne ?_, ⟨h₁, h₂, h₃, h₄⟩, rfl⟩
    have hperm := hsame.mpr h₂
    rw [hnil] at hperm
    exact hperm.eq_nil

/-- A reversal is on the journal with the entries of its target turned around, and has
moved them if it was not there before. -/
theorem Consistent.reversed (h : ledger.Consistent) {journal : EventKey} {actor reason : String}
    (hreverse : ledger.reverse journal k actor reason = .ok ledger') :
    ∃ j c, ledger.journals.lookup journal = some j ∧ ledger'.journals.lookup k = some c ∧
      c.reverses = some journal ∧ (∀ a, moved c.amounts a = -moved j.amounts a) ∧
      ∀ a, ledger'.balance a = ledger.balance a +
        if k ∈ ledger.journals then 0 else moved c.amounts a := by
  obtain ⟨-, j, hj, -, hpost⟩ := reverse_eq_ok.mp hreverse
  cases hk : ledger.journals.lookup k with
  | none =>
      obtain ⟨-, -, haccepts, rfl⟩ := (post_new hk).mp hpost
      refine ⟨j, _, hj, AList.lookup_insert _, rfl, fun a => ?_, fun a => ?_⟩
      · rw [journalOf, moved_net, moved_opposite]
      · rw [balance_posted haccepts.known, if_neg (AList.lookup_eq_none.mp hk)]
  | some c =>
      obtain ⟨rfl, hagrees⟩ := (h.repeated hk).mp hpost
      refine ⟨j, c, hj, hk, hagrees.reverses, fun a => ?_, fun a => ?_⟩
      · rw [hagrees.amounts a, moved_opposite]
      · rw [if_pos (AList.lookup_isSome.mp (by rw [hk]; rfl)), add_zero]

/-! ## Every sequence of calls -/

/-- What every later call meets at a ledger. -/
structure Replayable (ledger : Ledger) : Prop where
  /-- A journal stays under its key, as the only one. -/
  kept : ∀ {k j} (calls : List Call), ledger.journals.lookup k = some j →
    (ledger.after calls).journals.lookup k = some j
  /-- A posting under a used key changes nothing; it is accepted exactly if it says the same. -/
  repeated : ∀ {k j kind m details reverses}, ledger.journals.lookup k = some j →
    (ledger.post k kind m details reverses = .ok ledger ↔ Says j kind m details reverses) ∧
      ∀ ledger', ledger.post k kind m details reverses = .ok ledger' → ledger' = ledger
  /-- A posting under a fresh key is accepted exactly if its checks pass; its net entries are
  then what the triggers apply. -/
  fresh : ∀ {k kind m details reverses}, ledger.journals.lookup k = none →
    ((∃ ledger', ledger.post k kind m details reverses = .ok ledger') ↔
      (k ≠ .correction "" ∧ kind ≠ "") ∧ net m ≠ [] ∧ ledger.Accepts (net m) reverses) ∧
    ∀ ledger', ledger.post k kind m details reverses = .ok ledger' →
      (∀ a, ledger'.balance a = ledger.balance a + moved m a) ∧
      balancedJournal ledger.accounts (net m) = true ∧
      ∃ applied, (net m).foldlM applyEntry ledger.accounts = .ok applied ∧
        ∀ a, applied.lookup a = ledger'.accounts.lookup a
  /-- A refused call changes nothing. -/
  refused : ∀ {c e}, Call.run ledger c = .error e → ledger.call c = ledger
  /-- No two journals reverse the same one. -/
  once : ∀ {k k' j j' target}, ledger.journals.lookup k = some j →
    ledger.journals.lookup k' = some j' → j.reverses = some target → j'.reverses = some target →
    k = k'
  /-- A reversal applies the entries of its target turned around, the first time. -/
  reversed : ∀ {journal k actor reason ledger'},
    ledger.reverse journal k actor reason = .ok ledger' →
    ∃ j c, ledger.journals.lookup journal = some j ∧ ledger'.journals.lookup k = some c ∧
      c.reverses = some journal ∧ (∀ a, moved c.amounts a = -moved j.amounts a) ∧
      ∀ a, ledger'.balance a = ledger.balance a +
        if k ∈ ledger.journals then 0 else moved c.amounts a
  /-- After a journal and its reversal the balances are those before the journal, but for
  what was posted in between. -/
  restored : ∀ {k kind m details reverses posted reversal actor reason reversed}
    (calls : List Call), ledger.journals.lookup k = none →
    ledger.post k kind m details reverses = .ok posted →
    reversal ∉ (posted.after calls).journals →
    (posted.after calls).reverse k reversal actor reason = .ok reversed →
    ∀ a, reversed.balance a
      = ledger.balance a + ((posted.after calls).balance a - posted.balance a)

theorem Consistent.replayable (h : ledger.Consistent) : ledger.Replayable where
  kept _ hj := after_lookup hj
  repeated hj := by
    refine ⟨?_, fun ledger' hpost => ((h.repeated hj).mp hpost).1⟩
    rw [h.repeated hj]
    exact ⟨And.right, fun hagrees => ⟨rfl, hagrees⟩⟩
  fresh hk := by
    refine ⟨?_, fun ledger' hpost => ?_⟩
    · simp only [post_new hk]
      exact ⟨fun ⟨_, h₁, h₂, h₃, _⟩ => ⟨h₁, h₂, h₃⟩, fun ⟨h₁, h₂, h₃⟩ => ⟨_, h₁, h₂, h₃, rfl⟩⟩
    · obtain ⟨-, hne, haccepts, rfl⟩ := (post_new hk).mp hpost
      refine ⟨fun a => ?_, haccepts.applied hne⟩
      rw [balance_posted haccepts.known, journalOf, moved_net]
  refused hrun := call_of_error hrun
  once := h.once
  reversed hreverse := h.reversed hreverse
  restored {k kind m details reverses posted reversal actor reason reversed} calls hk hpost hfresh
      hreverse a := by
    have hcall : ledger.call (.post k kind m details reverses) = posted := by
      rw [Ledger.call, Call.run, hpost]
      rfl
    have hposted : posted.Consistent := hcall ▸ h.call _
    obtain ⟨j, c, hj, -, -, hmoved, hbalance⟩ := (hposted.after calls).reversed hreverse
    obtain ⟨-, -, haccepts, rfl⟩ := (post_new hk).mp hpost
    -- What is reversed is what was posted.
    have hkept := @after_lookup (ledger.posted k (journalOf kind m details reverses)) k _ calls
      (AList.lookup_insert ledger.journals)
    obtain rfl := Option.some.inj (hj.symm.trans hkept)
    rw [hbalance, if_neg hfresh, hmoved, balance_posted haccepts.known]
    ring

end Ledger

open Ledger in
/-- Under any calls, postings are idempotent and reversals exact. -/
theorem postings_replayable (calls : List Ledger.Call) :
    ((⟨∅, ∅⟩ : Ledger).after calls).Replayable :=
  (Consistent.empty.after calls).replayable

end TigPool
