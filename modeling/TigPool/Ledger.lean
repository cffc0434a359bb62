/-
# `TigPool.Ledger` — the append-only, balanced journal

`post` is the only way money moves.  It refuses an unknown account, a balance
that would go below zero and a list of movements that does not balance for each
asset; repeating it with the same movements and metadata changes nothing.

What it does *not* check is that a journal balances at each *location*: a list
that takes TIG out of custody and puts it into the protocol balance is balanced
per asset.  `Sound` is the law the wallet and fee-balance reconciliations rest
on, and it speaks about locations: at each asset and location the balances,
counting what came from outside, add up to zero.  `Posts` is the reason it
holds: every change of the ledger is the opening of an account or a posting that
balances at each location.
-/
import TigPool.Schema

namespace TigPool

open Basis

/-- The kind, asset and location with which every part of the service opens the
account of this name. -/
def AccountId.identity : AccountId → AccountKind × Asset × Location
  | .available _ => (.member, .TIG, .custody)
  | .collateral _ => (.collateral, .TIG, .custody)
  | .commitment _ => (.operatorCommitment, .TIG, .protocol)
  | .withdrawal _ => (.withdrawal, .TIG, .custody)
  | .withdrawalGas _ => (.operatorCommitment, .NATIVE, .custody)
  | .topup _ asset => (.operatorCommitment, asset, .custody)
  | .round _ => (.round, .TIG, .custody)
  | .operator location asset => (.operator, asset, location)
  | .external location asset => (.external, asset, location)
  | .unattributed => (.unattributed, .TIG, .custody)

def Asset.name : Asset → String
  | .TIG => "TIG"
  | .NATIVE => "NATIVE"

/-- The asset and location of an account. -/
def AccountId.place (a : AccountId) : Asset × Location :=
  a.identity.2

/-- The operator's protocol fee balance. -/
def operatorFees : AccountId := .operator .protocol .TIG

namespace Ledger

/-! ## Operations -/

def account (ledger : Ledger) (accountId : AccountId) (kind : AccountKind)
    (asset : Asset := .TIG) (location : Location := .custody) : Result Ledger :=
  match ledger.accounts.lookup accountId with
  | none => .ok { ledger with
      accounts := AList.insert accountId ⟨kind, asset, location, 0⟩ ledger.accounts }
  | some row =>
      if (row.kind, row.asset, row.location) = (kind, asset, location) then .ok ledger
      else .error (.conflict "account identity has a different kind or asset")

/-- The balance of an account; an account that was never opened holds nothing. -/
def balance (ledger : Ledger) (accountId : AccountId) : ℤ :=
  (ledger.accounts.lookup accountId).elim 0 (·.balance)

/-- Each entry of a journal adds its amount to its account. -/
def applyEntries (accounts : Table AccountId Account) (amounts : Movements AccountId) :
    Table AccountId Account :=
  accounts.mapVals fun accountId row =>
    { row with balance := row.balance + moved amounts accountId }

/-- The asset of the first account of the pool an entry would take below zero. -/
def overdrawn (accounts : Table AccountId Account) (amounts : Movements AccountId) : Option Asset :=
  amounts.findSome? fun p => (accounts.lookup p.1).bind fun row =>
    if row.kind ≠ .external ∧ row.balance + p.2 < 0 then some row.asset else none

/-- The movements add up to zero for each asset, by the asset of each account. -/
def balancesAssets (accounts : Table AccountId Account) (amounts : Movements AccountId) : Bool :=
  [Asset.TIG, Asset.NATIVE].all fun asset =>
    shifted (fun accountId => (accounts.lookup accountId).map (·.asset)) amounts (some asset) = 0

/-- Post one immutable, idempotent journal.  A retry must describe the exact same
movement and metadata. -/
def post (ledger : Ledger) (eventKey : EventKey) (kind : String) (movements : Movements AccountId)
    (details : Json := .obj []) (reverses : Option EventKey := none) : Result Ledger := do
  require (eventKey ≠ .correction "" ∧ kind ≠ "") (.funds "journal requires an event key and kind")
  let amounts := net movements
  require (amounts ≠ []) (.funds "a monetary journal requires nonzero entries")
  match ledger.journals.lookup eventKey with
  | some existing =>
      require (existing.kind = kind ∧ existing.amounts.isPerm amounts ∧ existing.details = details ∧
          existing.reverses = reverses)
        (.conflict "journal event key was reused with different inputs")
      return ledger
  | none =>
      require (reverses = none ∨ ledger.journals.any (fun _ j => j.reverses = reverses) = false)
        (.conflict "journal has already been reversed")
      require (∀ p ∈ amounts, p.1 ∈ ledger.accounts) (.funds "unknown journal account")
      let short := overdrawn ledger.accounts amounts
      require (short = none)
        (.insufficientFunds ("insufficient available " ++ short.elim "" Asset.name ++ " funds"))
      require (balancesAssets ledger.accounts amounts = true)
        (.funds "journal must balance for each asset")
      require (reverses.all (· ∈ ledger.journals)) (.integrity "journals_reverses_fkey")
      return { accounts := applyEntries ledger.accounts amounts,
               journals :=
                 AList.insert eventKey ⟨kind, amounts, details, reverses⟩ ledger.journals }

/-- A correction: the journal with all its entries turned around. -/
def reverse (ledger : Ledger) (journal eventKey : EventKey) (actor reason : String) :
    Result Ledger := do
  require (actor ≠ "" ∧ reason ≠ "") (.funds "a correction requires an actor and reason")
  let amounts := (ledger.journals.lookup journal).elim [] (·.amounts)
  require (amounts ≠ []) (.funds "unknown journal to reverse")
  ledger.post eventKey "correction" (opposite amounts)
    (.obj [("actor", .str actor), ("reason", .str reason)]) (some journal)

/-- What all entries say an account should hold. -/
def reconstructed (ledger : Ledger) (accountId : AccountId) : ℤ :=
  ledger.journals.total fun _ journal => moved journal.amounts accountId

/-- The accounts whose stored balance differs from their entries. -/
def audit (ledger : Ledger) : List AccountId :=
  ledger.accounts.keys.filter fun a => ledger.balance a ≠ ledger.reconstructed a

/-- What the pool holds of an asset at a location. -/
def backing (ledger : Ledger) (asset : Asset := .TIG) (location : Location := .custody) : ℤ :=
  ledger.accounts.total fun _ row =>
    if row.asset = asset ∧ row.location = location ∧ row.kind ≠ .external then row.balance else 0

/-! ## What an operation can do to the ledger -/

/-- The ledger with one more account, empty. -/
def opened (ledger : Ledger) (a : AccountId) : Ledger :=
  { ledger with accounts :=
      AList.insert a ⟨a.identity.1, a.identity.2.1, a.identity.2.2, 0⟩ ledger.accounts }

/-- The ledger with one more journal and its entries applied. -/
def posted (ledger : Ledger) (eventKey : EventKey) (journal : Journal) : Ledger where
  accounts := applyEntries ledger.accounts journal.amounts
  journals := AList.insert eventKey journal ledger.journals

/-- What `post` has checked about a new journal. -/
structure Postable (ledger : Ledger) (eventKey : EventKey) (amounts : Movements AccountId) :
    Prop where
  fresh : ledger.journals.lookup eventKey = none
  known : ∀ p ∈ amounts, p.1 ∈ ledger.accounts
  covered : overdrawn ledger.accounts amounts = none

/-- The journal that `post` records for the movements. -/
def journalOf (kind : String) (movements : Movements AccountId) (details : Json)
    (reverses : Option EventKey) : Journal :=
  ⟨kind, net movements, details, reverses⟩

theorem account_cases {ledger ledger' : Ledger} {a : AccountId}
    (h : ledger.account a a.identity.1 a.identity.2.1 a.identity.2.2 = .ok ledger') :
    ledger' = ledger ∨ (ledger.accounts.lookup a = none ∧ ledger' = ledger.opened a) := by
  unfold account at h
  split at h
  next hnone => exact Or.inr ⟨hnone, (Except.ok.inj h).symm⟩
  next row hrow =>
    split at h
    next => exact Or.inl (Except.ok.inj h).symm
    next => cases h

theorem account_mem {ledger ledger' : Ledger} {a : AccountId} {kind : AccountKind} {asset : Asset}
    {location : Location} (h : ledger.account a kind asset location = .ok ledger') :
    a ∈ ledger'.accounts := by
  unfold account at h
  split at h
  next =>
    obtain rfl := Except.ok.inj h
    exact (AList.mem_insert _).mpr (Or.inl rfl)
  next row hrow =>
    split at h
    next =>
      obtain rfl := Except.ok.inj h
      exact AList.lookup_isSome.mp (by simp [hrow])
    next => cases h

theorem post_cases {ledger ledger' : Ledger} {eventKey : EventKey} {kind : String}
    {movements : Movements AccountId} {details : Json} {reverses : Option EventKey}
    (h : ledger.post eventKey kind movements details reverses = .ok ledger') :
    (eventKey ∈ ledger.journals ∧ ledger' = ledger) ∨
      (ledger.Postable eventKey (net movements) ∧
        ledger' = ledger.posted eventKey (journalOf kind movements details reverses)) := by
  unfold post at h
  simp only [bind_eq_ok, require_eq_ok, exists_const] at h
  obtain ⟨-, -, h⟩ := h
  split at h
  next existing hex =>
    simp only [bind_eq_ok, require_eq_ok, exists_const, pure_eq_ok] at h
    exact Or.inl ⟨AList.lookup_isSome.mp (by simp [hex]), h.2.symm⟩
  next hnone =>
    simp only [bind_eq_ok, require_eq_ok, exists_const, pure_eq_ok] at h
    obtain ⟨-, hknown, hcovered, -, -, rfl⟩ := h
    exact Or.inr ⟨⟨hnone, hknown, hcovered⟩, rfl⟩

/-- A posting under a fresh key. -/
theorem post_fresh {ledger ledger' : Ledger} {eventKey : EventKey} {kind : String}
    {movements : Movements AccountId} {details : Json} {reverses : Option EventKey}
    (h : ledger.post eventKey kind movements details reverses = .ok ledger')
    (hkey : eventKey ∉ ledger.journals) :
    ledger.Postable eventKey (net movements) ∧
      ledger' = ledger.posted eventKey (journalOf kind movements details reverses) :=
  (post_cases h).resolve_left fun ⟨hmem, _⟩ => hkey hmem

/-! ## Balances -/

theorem balance_opened {ledger : Ledger} {a b : AccountId} (h : ledger.accounts.lookup a = none) :
    (ledger.opened a).balance b = ledger.balance b := by
  simp only [balance, opened, Table.lookup_insert_eq]
  split
  next hba => rw [hba, h]; rfl
  next => rfl

theorem balance_posted {ledger : Ledger} {eventKey : EventKey} {journal : Journal} {a : AccountId}
    (h : ∀ p ∈ journal.amounts, p.1 ∈ ledger.accounts) :
    (ledger.posted eventKey journal).balance a = ledger.balance a + moved journal.amounts a := by
  simp only [balance, posted, applyEntries, Table.lookup_mapVals]
  cases hrow : ledger.accounts.lookup a with
  | some row => rfl
  | none =>
      have hnot : moved journal.amounts a = 0 := moved_eq_zero fun p hp hpa =>
        AList.lookup_eq_none.mp hrow (hpa ▸ h p hp)
      simp [hnot]

theorem reconstructed_posted {ledger : Ledger} {eventKey : EventKey} {journal : Journal}
    {a : AccountId} (h : ledger.journals.lookup eventKey = none) :
    (ledger.posted eventKey journal).reconstructed a
      = moved journal.amounts a + ledger.reconstructed a :=
  Table.total_insert_fresh h

/-- What the pool and the outside together hold at an asset and location. -/
def sheet (ledger : Ledger) (place : Asset × Location) : ℤ :=
  ledger.accounts.total fun a row => if a.place = place then row.balance else 0

theorem sheet_opened {ledger : Ledger} {a : AccountId} {place : Asset × Location}
    (h : ledger.accounts.lookup a = none) : (ledger.opened a).sheet place = ledger.sheet place := by
  rw [sheet, opened, Table.total_insert_fresh h]
  simp [sheet]

theorem sheet_posted {ledger : Ledger} {eventKey : EventKey} {journal : Journal}
    {place : Asset × Location} (h : ∀ p ∈ journal.amounts, p.1 ∈ ledger.accounts) :
    (ledger.posted eventKey journal).sheet place
      = ledger.sheet place + shifted AccountId.place journal.amounts place := by
  have hmoved : (ledger.accounts.keys.map fun a =>
      if a.place = place then moved journal.amounts a else 0).sum
        = shifted AccountId.place journal.amounts place :=
    sum_moved ledger.accounts.keys_nodup fun p hp => AList.mem_keys.mp (h p hp)
  rw [← hmoved, Table.sum_keys_eq_total fun _ _ _ => rfl, sheet, sheet, posted, applyEntries,
    Table.total_mapVals, ← Table.total_add]
  refine Table.total_congr fun a row _ => ?_
  split <;> simp

/-! ## Soundness -/

/-- The ledger is sound: accounts are what their names say, no account of the
pool is overdrawn, every stored balance is the sum of its entries, every journal
balances at each asset and location, and so do the balances. -/
structure Sound (ledger : Ledger) : Prop where
  named : ∀ {a row}, ledger.accounts.lookup a = some row →
    (row.kind, row.asset, row.location) = a.identity
  covered : ∀ {a row}, ledger.accounts.lookup a = some row → row.kind ≠ .external → 0 ≤ row.balance
  balanced : ∀ {k j}, ledger.journals.lookup k = some j → Balanced AccountId.place j.amounts
  entries : ∀ a, ledger.balance a = ledger.reconstructed a
  closed : ∀ place, ledger.sheet place = 0

/-- One change of the ledger: an account is opened, or a journal is posted whose
movements balance at each asset and location. -/
inductive Posts : Ledger → Ledger → Prop
  | opens {ledger : Ledger} {a : AccountId} : ledger.accounts.lookup a = none →
      Posts ledger (ledger.opened a)
  | posts {ledger : Ledger} {eventKey : EventKey} {kind : String} {m : Movements AccountId}
      {details : Json} {reverses : Option EventKey} : ledger.Postable eventKey (net m) →
      Balanced AccountId.place m →
      Posts ledger (ledger.posted eventKey (journalOf kind m details reverses))

theorem nonneg_of_covered {ledger : Ledger} {m : Movements AccountId}
    (h : overdrawn ledger.accounts (net m) = none) {a : AccountId} {row : Account}
    (hrow : ledger.accounts.lookup a = some row) (hkind : row.kind ≠ .external)
    (hnonneg : 0 ≤ row.balance) : 0 ≤ row.balance + moved m a := by
  by_cases hmem : (a, moved m a) ∈ net m
  · have hnone := List.findSome?_eq_none_iff.mp h _ hmem
    by_contra hneg
    have hcond : row.kind ≠ .external ∧ row.balance + moved m a < 0 := ⟨hkind, by omega⟩
    rw [hrow] at hnone
    simp [hcond] at hnone
  · have h0 : moved m a = 0 := by
      rw [← moved_net]
      refine moved_eq_zero fun p hp hpa => hmem ?_
      obtain ⟨-, hp2, -⟩ := mem_net hp
      rwa [← hpa, ← hp2]
    omega

theorem Sound.empty : Sound ⟨∅, ∅⟩ where
  named h := by cases h
  covered h := by cases h
  balanced h := by cases h
  entries _ := rfl
  closed _ := rfl

theorem Sound.opened {ledger : Ledger} (h : ledger.Sound) {a : AccountId}
    (ha : ledger.accounts.lookup a = none) : (ledger.opened a).Sound where
  named := by
    intro b row hrow
    rw [Ledger.opened, Table.lookup_insert_eq] at hrow
    split at hrow
    next hba =>
      obtain rfl := Option.some.inj hrow
      rw [hba]
    next => exact h.named hrow
  covered := by
    intro b row hrow hkind
    rw [Ledger.opened, Table.lookup_insert_eq] at hrow
    split at hrow
    next =>
      obtain rfl := Option.some.inj hrow
      exact le_rfl
    next => exact h.covered hrow hkind
  balanced hj := h.balanced hj
  entries b := by
    rw [balance_opened ha, h.entries b]
    rfl
  closed place := by rw [sheet_opened ha, h.closed place]

theorem Sound.posted {ledger : Ledger} (h : ledger.Sound) {eventKey : EventKey} {kind : String}
    {m : Movements AccountId} {details : Json} {reverses : Option EventKey}
    (hpost : ledger.Postable eventKey (net m)) (hm : Balanced AccountId.place m) :
    (ledger.posted eventKey (journalOf kind m details reverses)).Sound where
  named := by
    intro a row hrow
    simp only [Ledger.posted, applyEntries, Table.lookup_mapVals, Option.map_eq_some_iff] at hrow
    obtain ⟨row, hrow, rfl⟩ := hrow
    have hnamed := h.named hrow
    exact hnamed
  covered := by
    intro a row hrow hkind
    simp only [Ledger.posted, applyEntries, Table.lookup_mapVals, Option.map_eq_some_iff] at hrow
    obtain ⟨row, hrow, rfl⟩ := hrow
    have := nonneg_of_covered hpost.covered hrow hkind (h.covered hrow hkind)
    simpa [journalOf] using this
  balanced := by
    intro k j hj
    rw [Ledger.posted, Table.lookup_insert_eq] at hj
    split at hj
    next =>
      obtain rfl := Option.some.inj hj
      exact hm.net
    next => exact h.balanced hj
  entries a := by
    rw [balance_posted hpost.known, reconstructed_posted hpost.fresh, h.entries a, add_comm]
  closed place := by
    rw [sheet_posted hpost.known, h.closed place, zero_add]
    exact hm.net place

theorem Sound.step {ledger ledger' : Ledger} (h : ledger.Sound) (hs : Posts ledger ledger') :
    ledger'.Sound := by
  cases hs with
  | opens ha => exact h.opened ha
  | posts hpost hm => exact h.posted hpost hm

/-! ## Recorded movements -/

/-- The movements are on the ledger under a fresh key — or there was nothing to
record, because they cancel out. -/
def Recorded (ledger : Ledger) (eventKey : EventKey) (m : Movements AccountId)
    (ledger' : Ledger) : Prop :=
  (ledger' = ledger ∧ ∀ a, moved m a = 0) ∨
    ∃ kind m' details, (∀ a, moved m' a = moved m a) ∧ ledger.Postable eventKey (net m') ∧
      Balanced AccountId.place m' ∧
      ledger' = ledger.posted eventKey (journalOf kind m' details none)

theorem Recorded.of_post {ledger ledger' : Ledger} {eventKey : EventKey} {kind : String}
    {m m' : Movements AccountId} {details : Json}
    (h : ledger.post eventKey kind m details none = .ok ledger')
    (hkey : eventKey ∉ ledger.journals) (hm : Balanced AccountId.place m)
    (hmoved : ∀ a, moved m a = moved m' a) : Recorded ledger eventKey m' ledger' := by
  obtain ⟨hpost, rfl⟩ := post_fresh h hkey
  exact Or.inr ⟨kind, m, details, hmoved, hpost, hm, rfl⟩

theorem Recorded.congr {ledger ledger' : Ledger} {eventKey : EventKey} {m m' : Movements AccountId}
    (h : Recorded ledger eventKey m ledger') (hm : SameMoves m m') :
    Recorded ledger eventKey m' ledger' := by
  rcases h with ⟨rfl, hzero⟩ | ⟨kind, m₀, details, hmoved, hpost, hbalanced, rfl⟩
  · exact Or.inl ⟨rfl, fun a => (hm a).symm.trans (hzero a)⟩
  · exact Or.inr ⟨kind, m₀, details, fun a => (hmoved a).trans (hm a), hpost, hbalanced, rfl⟩

/-- The usual way to post: only if there is an amount to move. -/
theorem Recorded.of_post_ite {ledger ledger' : Ledger} {eventKey : EventKey} {kind : String}
    {m : Movements AccountId} {details : Json} {p : Prop} [Decidable p]
    (h : (if p then ledger.post eventKey kind m details none else .ok ledger) = .ok ledger')
    (hkey : eventKey ∉ ledger.journals) (hm : Balanced AccountId.place m)
    (hzero : ¬ p → ∀ a, moved m a = 0) : Recorded ledger eventKey m ledger' := by
  split at h
  next => exact Recorded.of_post h hkey hm fun _ => rfl
  next hp => exact Or.inl ⟨(Except.ok.inj h).symm, hzero hp⟩

theorem Recorded.balance {ledger ledger' : Ledger} {eventKey : EventKey}
    {m : Movements AccountId} (h : Recorded ledger eventKey m ledger') (a : AccountId) :
    ledger'.balance a = ledger.balance a + moved m a := by
  rcases h with ⟨rfl, hzero⟩ | ⟨kind, m', details, hmoved, hpost, -, rfl⟩
  · rw [hzero, add_zero]
  · rw [balance_posted hpost.known, journalOf, moved_net, hmoved]

theorem Sound.recorded {ledger ledger' : Ledger} (hs : ledger.Sound) {eventKey : EventKey}
    {m : Movements AccountId} (h : Recorded ledger eventKey m ledger') : ledger'.Sound := by
  rcases h with ⟨rfl, -⟩ | ⟨kind, m', details, -, hpost, hm, rfl⟩
  · exact hs
  · exact hs.posted hpost hm

/-- A journal of the new ledger is an old one or records the movements. -/
theorem Recorded.journal_cases {ledger ledger' : Ledger} {eventKey : EventKey}
    {m : Movements AccountId} (h : Recorded ledger eventKey m ledger') {k : EventKey} {j : Journal}
    (hk : ledger'.journals.lookup k = some j) :
    ledger.journals.lookup k = some j ∨ (k = eventKey ∧ ∀ a, moved j.amounts a = moved m a) := by
  rcases h with ⟨rfl, -⟩ | ⟨kind, m', details, hmoved, -, -, rfl⟩
  · exact Or.inl hk
  · rw [posted, Table.lookup_insert_eq] at hk
    split at hk
    next heq =>
      obtain rfl := Option.some.inj hk
      exact Or.inr ⟨heq, fun a => by rw [journalOf, moved_net, hmoved]⟩
    next => exact Or.inl hk

/-- Journals stay. -/
theorem Recorded.journal_stays {ledger ledger' : Ledger} {eventKey : EventKey}
    {m : Movements AccountId} (h : Recorded ledger eventKey m ledger') {k : EventKey} {j : Journal}
    (hk : ledger.journals.lookup k = some j) : ledger'.journals.lookup k = some j := by
  rcases h with ⟨rfl, -⟩ | ⟨kind, m', details, -, hpost, -, rfl⟩
  · exact hk
  · rw [posted, Table.lookup_insert_eq, if_neg, hk]
    rintro rfl
    rw [hpost.fresh] at hk
    cases hk

/-- Movements that do move something are recorded under their key. -/
theorem Recorded.mem_journals {ledger ledger' : Ledger} {eventKey : EventKey}
    {m : Movements AccountId} (h : Recorded ledger eventKey m ledger') {a : AccountId}
    (ha : moved m a ≠ 0) : eventKey ∈ ledger'.journals := by
  rcases h with ⟨rfl, hzero⟩ | ⟨kind, m', details, -, -, -, rfl⟩
  · exact absurd (hzero a) ha
  · exact (AList.mem_insert _).mpr (Or.inl rfl)

/-- No other key is used. -/
theorem Recorded.notMem_journals {ledger ledger' : Ledger} {eventKey : EventKey}
    {m : Movements AccountId} (h : Recorded ledger eventKey m ledger') {k : EventKey}
    (hne : k ≠ eventKey) (hk : k ∉ ledger.journals) : k ∉ ledger'.journals := fun hmem => by
  obtain ⟨j, hj⟩ := Option.isSome_iff_exists.mp (AList.lookup_isSome.mpr hmem)
  rcases h.journal_cases hj with hold | ⟨heq, -⟩
  · exact hk (AList.lookup_isSome.mp (by rw [hold]; rfl))
  · exact hne heq

/-! ## What soundness says about the reports of the ledger -/

theorem Sound.audit_nil {ledger : Ledger} (h : ledger.Sound) : ledger.audit = [] := by
  rw [audit, List.filter_eq_nil_iff]
  intro a _
  simp [h.entries a]

theorem Sound.balance_nonneg {ledger : Ledger} (h : ledger.Sound) {a : AccountId}
    (ha : a.identity.1 ≠ .external) : 0 ≤ ledger.balance a := by
  unfold balance
  cases hrow : ledger.accounts.lookup a with
  | none => exact le_rfl
  | some row =>
      refine h.covered hrow ?_
      rw [← h.named hrow] at ha
      exact ha

/-- The only account of its asset and location that is not the pool's own. -/
theorem external_of_place {a : AccountId} {asset : Asset} {location : Location}
    (hkind : a.identity.1 = .external) (hplace : a.place = (asset, location)) :
    a = .external location asset := by
  cases a <;> simp_all [AccountId.identity, AccountId.place]

/-- What the pool holds is what came from outside. -/
theorem Sound.backing_eq {ledger : Ledger} (h : ledger.Sound) (asset : Asset)
    (location : Location) :
    ledger.backing asset location = -ledger.balance (.external location asset) := by
  have hsplit : ledger.sheet (asset, location)
      = ledger.backing asset location
        + ledger.accounts.total fun a row =>
            if a = .external location asset then row.balance else 0 := by
    rw [sheet, backing, ← Table.total_add]
    refine Table.total_congr fun a row hrow => ?_
    have hnamed := h.named hrow
    have hplace : a.place = (row.asset, row.location) := by
      rw [AccountId.place, ← hnamed]
    have hkind : a.identity.1 = row.kind := by rw [← hnamed]
    rw [hplace]
    by_cases hexternal : a = .external location asset
    · subst hexternal
      have : row.kind = .external := hkind.symm
      have hp : (row.asset, row.location) = (asset, location) := hplace.symm
      simp [this, Prod.mk.inj hp]
    · by_cases hp : row.asset = asset ∧ row.location = location
      · obtain ⟨rfl, rfl⟩ := hp
        have : row.kind ≠ .external := fun hk =>
          hexternal (external_of_place (hkind.trans hk) hplace)
        simp [this, hexternal]
      · have : ¬ (row.asset = asset ∧ row.location = location ∧ row.kind ≠ .external) :=
          fun ⟨h₁, h₂, _⟩ => hp ⟨h₁, h₂⟩
        simp [hp, this, hexternal]
  have hone : (ledger.accounts.total fun a row =>
      if a = .external location asset then row.balance else 0)
        = ledger.balance (.external location asset) := by
    unfold balance
    cases hrow : ledger.accounts.lookup (.external location asset) with
    | none =>
        refine Table.total_eq_zero fun a row ha => if_neg fun hae => ?_
        rw [hae, hrow] at ha
        cases ha
    | some row =>
        rw [Table.total_eq_single hrow fun b _ hb _ => if_neg hb, if_pos rfl]
        rfl
  have hclosed := h.closed (asset, location)
  rw [hsplit, hone] at hclosed
  omega

end Ledger

end TigPool
