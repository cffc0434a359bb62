/-
# `TigPool.Reading` — what a snapshot is read from

The rows of an index are those of its list, each under the name it bears; so an index does
not show the order of the list.  Setting a member of an object leaves the others as they
are.  `Reads` says what `validateBlock` reads of an observation on its way to a snapshot.
-/
import TigPool.Protocol

namespace TigPool

open Basis

/-! ## Members -/

namespace Json

variable {key name : String} {value member : Json} {members : List (String × Json)}

theorem lookup_insertMember : (insertMember key member members).lookup name
    = if name = key then some member else members.lookup name := by
  induction members with
  | nil =>
      rw [insertMember, List.lookup_cons]
      by_cases h : name = key
      · simp [h]
      · simp [h, beq_false_of_ne h]
  | cons first rest ih =>
      unfold insertMember
      split
      next hlt =>
        rw [List.lookup_cons]
        by_cases h : name = key
        · simp [h]
        · rw [if_neg h, beq_false_of_ne h]
      next hlt =>
        split
        next heq =>
          rw [List.lookup_cons, List.lookup_cons, ← heq]
          by_cases h : name = key
          · simp [h]
          · rw [if_neg h, beq_false_of_ne h]
        next hne =>
          rw [List.lookup_cons, List.lookup_cons, ih]
          by_cases h : name = key
          · subst h
            simp [beq_false_of_ne hne]
          · simp [h]

theorem get?_set : ((obj members).set key member).get? name
    = if name = key then some member else members.lookup name :=
  lookup_insertMember

/-- Setting a member leaves the others as they are. -/
theorem get?_set_ne (h : name ≠ key) : (value.set key member).get? name = value.get? name := by
  cases value with
  | obj members =>
      rw [get?_set, if_neg h]
      rfl
  | _ => rfl

theorem get?_set_self (h : value.isObject = true) :
    (value.set key member).get? key = some member := by
  cases value with
  | obj members => rw [get?_set, if_pos rfl]
  | _ => cases h

theorem isObject_set : (value.set key member).isObject = value.isObject := by
  cases value <;> rfl

theorem isObject_of_get? (h : value.get? key = some member) : value.isObject = true := by
  cases value with
  | obj members => rfl
  | _ => cases h

theorem distinct_of_mem_items : ∀ {items : List Json}, distinctItems items = true →
    ∀ {item}, item ∈ items → distinct item = true
  | [], _, _, h => by cases h
  | first :: rest, hall, item, h => by
      rw [distinctItems, Bool.and_eq_true] at hall
      rcases List.mem_cons.mp h with rfl | h
      · exact hall.1
      · exact distinct_of_mem_items hall.2 h

theorem distinct_of_mem_members : ∀ {members : List (String × Json)},
    distinctMembers members = true → ∀ {name member}, (name, member) ∈ members →
      distinct member = true
  | [], _, _, _, h => by cases h
  | (_, first) :: rest, hall, name, member, h => by
      rw [distinctMembers, Bool.and_eq_true] at hall
      rcases List.mem_cons.mp h with heq | h
      · cases heq
        exact hall.1
      · exact distinct_of_mem_members hall.2 h

end Json

namespace Protocol

/-! ## Rows by identity -/

variable {key label : String} {rows rows' : List Json} {t t' out : Table String Json}

/-- The same rows, in any order. -/
def SameRows {κ α : Type} [DecidableEq κ] (t t' : Table κ α) : Prop :=
  ∀ k, t'.lookup k = t.lookup k

/-- One more row of an index. -/
def addRow (key label : String) (result : Table String Json) (row : Json) :
    Result (Table String Json) := do
  let _ ← object (some row) label
  let identity ← text (row.get? key) (label ++ "." ++ key)
  require (identity ∉ result) (.protocolData (label ++ ": duplicate " ++ identity))
  return AList.insert identity row result

/-- A row of the list that bears the name. -/
def IsRow (rows : List Json) (key identity : String) (row : Json) : Prop :=
  row ∈ rows ∧ row.get? key = some (.str identity)

/-- Every row bears a name, and no two bear the same. -/
structure Indexed (rows : List Json) (key : String) : Prop where
  named : ∀ row ∈ rows, ∃ identity, identity ≠ "" ∧ row.get? key = some (.str identity)
  distinct : (rows.map (·.get? key)).Nodup

theorem text_eq_ok {value : Option Json} {s : String} :
    text value label = .ok s ↔ value = some (.str s) ∧ s ≠ "" := by
  unfold text
  split
  next =>
    simp only [bind_eq_ok, require_eq_ok, exists_const, pure_eq_ok]
    constructor
    · rintro ⟨hne, rfl⟩
      exact ⟨rfl, hne⟩
    · rintro ⟨heq, hne⟩
      cases heq
      exact ⟨hne, rfl⟩
  next hnot =>
    constructor
    · rintro ⟨⟩
    · rintro ⟨rfl, -⟩
      exact absurd rfl (hnot s)

theorem array_eq_ok {value : Option Json} {items : List Json} :
    array value label = .ok items ↔ value = some (.arr items) := by
  unfold array
  split
  next => rw [Except.ok.injEq, Option.some.injEq, Json.arr.injEq]
  next hnot => exact ⟨nofun, fun h => absurd h (hnot items)⟩

theorem object_eq_ok {value : Option Json} {members : List (String × Json)} :
    object value label = .ok members ↔ value = some (.obj members) := by
  unfold object
  split
  next => rw [Except.ok.injEq, Option.some.injEq, Json.obj.injEq]
  next hnot => exact ⟨nofun, fun h => absurd h (hnot members)⟩

theorem addRow_eq_ok {row : Json} : addRow key label t row = .ok t' ↔ ∃ identity,
    row.get? key = some (.str identity) ∧ identity ≠ "" ∧ t.lookup identity = none ∧
      AList.insert identity row t = t' := by
  simp only [addRow, bind_eq_ok, require_eq_ok, exists_const, pure_eq_ok, AList.lookup_eq_none,
    text_eq_ok, object_eq_ok, and_assoc]
  constructor
  · rintro ⟨members, -, h⟩
    exact h
  · rintro ⟨identity, hname, h⟩
    cases row with
    | obj members => exact ⟨members, rfl, identity, hname, h⟩
    | _ => cases hname

/-- The rows are found under their names, beside those that were there. -/
theorem foldlM_addRow_lookup (h : rows.foldlM (addRow key label) t = .ok out) (identity : String)
    (row : Json) :
    out.lookup identity = some row ↔ t.lookup identity = some row ∨ IsRow rows key identity row := by
  induction rows generalizing t with
  | nil =>
      obtain rfl := pure_eq_ok.mp h
      exact ⟨.inl, fun hor => hor.resolve_right fun hrow => List.not_mem_nil hrow.1⟩
  | cons first rows ih =>
      rw [List.foldlM_cons, bind_eq_ok] at h
      obtain ⟨t₁, hfirst, h⟩ := h
      obtain ⟨name, hname, -, hfresh, rfl⟩ := addRow_eq_ok.mp hfirst
      rw [ih h, Table.lookup_insert_eq]
      unfold IsRow
      rw [List.mem_cons]
      by_cases heq : identity = name
      · subst heq
        rw [if_pos rfl, hfresh, Option.some.injEq]
        constructor
        · rintro (rfl | ⟨hmem, hrow⟩)
          · exact .inr ⟨.inl rfl, hname⟩
          · exact .inr ⟨.inr hmem, hrow⟩
        · rintro (hnone | ⟨rfl | hmem, hrow⟩)
          · cases hnone
          · exact .inl rfl
          · exact .inr ⟨hmem, hrow⟩
      · rw [if_neg heq]
        refine or_congr_right ⟨fun hrow => ⟨.inr hrow.1, hrow.2⟩, ?_⟩
        rintro ⟨rfl | hmem, hrow⟩
        · cases hname.symm.trans hrow
          exact absurd rfl heq
        · exact ⟨hmem, hrow⟩

theorem foldlM_addRow_ok : (∃ out, rows.foldlM (addRow key label) t = .ok out) ↔
    Indexed rows key ∧
      ∀ row ∈ rows, ∀ identity, row.get? key = some (.str identity) → t.lookup identity = none := by
  induction rows generalizing t with
  | nil =>
      exact iff_of_true ⟨t, rfl⟩ ⟨⟨nofun, List.nodup_nil⟩, nofun⟩
  | cons first rows ih =>
      simp only [List.foldlM_cons, bind_eq_ok]
      constructor
      · rintro ⟨out, t₁, hfirst, h⟩
        obtain ⟨name, hname, hne, hfresh, rfl⟩ := addRow_eq_ok.mp hfirst
        obtain ⟨hindexed, hnew⟩ := ih.mp ⟨out, h⟩
        refine ⟨⟨?_, ?_⟩, ?_⟩
        · rintro row (- | ⟨_, hmem⟩)
          · exact ⟨name, hne, hname⟩
          · exact hindexed.named row hmem
        · rw [List.map_cons, List.nodup_cons]
          refine ⟨fun hmem => ?_, hindexed.distinct⟩
          obtain ⟨row, hrow, heq⟩ := List.mem_map.mp hmem
          have hnone := hnew row hrow name (heq.trans hname)
          rw [AList.lookup_insert] at hnone
          cases hnone
        · rintro row (- | ⟨_, hmem⟩) identity hidentity
          · cases hname.symm.trans hidentity
            exact hfresh
          · have hnone := hnew row hmem identity hidentity
            rw [Table.lookup_insert_eq] at hnone
            split at hnone
            · cases hnone
            · exact hnone
      · rintro ⟨hindexed, hnew⟩
        obtain ⟨name, hne, hname⟩ := hindexed.named first (List.mem_cons_self ..)
        have hdistinct := hindexed.distinct
        rw [List.map_cons, List.nodup_cons] at hdistinct
        obtain ⟨out, hout⟩ := (@ih (AList.insert name first t)).mpr
          ⟨⟨fun row hrow => hindexed.named row (List.mem_cons_of_mem _ hrow), hdistinct.2⟩,
            fun row hrow identity hidentity => by
              rw [Table.lookup_insert_eq, if_neg]
              · exact hnew row (List.mem_cons_of_mem _ hrow) identity hidentity
              · rintro rfl
                exact hdistinct.1 (List.mem_map.mpr ⟨row, hrow, hidentity.trans hname.symm⟩)⟩
        exact ⟨out, _, addRow_eq_ok.mpr
          ⟨name, hname, hne, hnew first (List.mem_cons_self ..) name hname, rfl⟩, hout⟩

theorem index_ok : (∃ out, index (some (.arr rows)) key label = .ok out) ↔ Indexed rows key := by
  have h := @foldlM_addRow_ok key label rows ∅
  exact h.trans (and_iff_left fun row _ identity _ => AList.lookup_empty identity)

theorem index_lookup (h : index (some (.arr rows)) key label = .ok out) {identity : String}
    {row : Json} : out.lookup identity = some row ↔ IsRow rows key identity row := by
  have hlookup := foldlM_addRow_lookup (show rows.foldlM (addRow key label) ∅ = .ok out from h)
    identity row
  rw [AList.lookup_empty] at hlookup
  exact hlookup.trans (or_iff_right nofun)

/-- What an index is made of is a list. -/
theorem index_eq_ok {value : Option Json} (h : index value key label = .ok out) :
    ∃ rows, value = some (.arr rows) := by
  unfold index at h
  obtain ⟨rows, hrows, -⟩ := bind_eq_ok.mp h
  exact ⟨rows, array_eq_ok.mp hrows⟩

theorem Indexed.perm (h : Indexed rows key) (hp : rows.Perm rows') : Indexed rows' key where
  named row hrow := h.named row (hp.symm.subset hrow)
  distinct := (hp.map _).nodup_iff.mp h.distinct

/-- Rows are indexed alike, in whatever order they come. -/
theorem index_perm (hp : rows.Perm rows') (h : index (some (.arr rows)) key label = .ok out) :
    ∃ out', index (some (.arr rows')) key label = .ok out' ∧ SameRows out out' := by
  obtain ⟨out', hout'⟩ := index_ok.mpr ((index_ok.mp ⟨out, h⟩).perm hp)
  refine ⟨out', hout', fun identity => Option.ext fun row => ?_⟩
  rw [index_lookup h, index_lookup hout']
  exact and_congr_left fun _ => hp.symm.mem_iff

/-! ## Fields -/

theorem integer_eq_ok {value : Option Json} {label : String} {minimum : ℤ} {n : ℕ} :
    integer value label minimum = .ok n ↔
      ∃ i : ℤ, value = some (.int i) ∧ minimum ≤ i ∧ 0 ≤ i ∧ i.toNat = n := by
  unfold integer
  split
  next i =>
    simp only [bind_eq_ok, require_eq_ok, exists_const, pure_eq_ok]
    constructor
    · rintro ⟨⟨hmin, hnonneg⟩, rfl⟩
      exact ⟨i, rfl, hmin, hnonneg, rfl⟩
    · rintro ⟨j, heq, hmin, hnonneg, rfl⟩
      cases heq
      exact ⟨⟨hmin, hnonneg⟩, rfl⟩
  next hnot =>
    constructor
    · rintro ⟨⟩
    · rintro ⟨i, rfl, -⟩
      exact absurd rfl (hnot i)

/-- `value[key₁][key₂]` -/
def member (value : Json) (outer inner : String) : Option Json :=
  (value.get? outer).bind (·.get? inner)

theorem member_eq_some {value inner : Json} {outer key : String}
    (houter : value.get? outer = some inner) : member value outer key = inner.get? key := by
  rw [member, houter, Option.bind_some]

/-! ## What is read -/

/-- What `validateBlock` reads on its way. -/
structure Parts where
  header : Header
  codes : Table String Json
  challenges : Table String Json
  opow : Table String Json
  feeds : List (String × Json)
  records : Records
  bundles : List (List Bundle)

structure Reads (observation : Json) (scope : Option String) (snapshot : Snapshot) (p : Parts) :
    Prop where
  header : readHeader observation scope = .ok p.header
  codes : index (member observation "algorithms" "codes") "id" "codes" = .ok p.codes
  challenges : index (member observation "challenges" "challenges") "id" "challenges"
    = .ok p.challenges
  opow : index (member observation "opow" "opow") "player_id" "opow" = .ok p.opow
  algorithms : activeRecords p.header.code p.codes "code" = .ok snapshot.algorithms
  challenge : activeRecords p.header.challenge p.challenges "challenge" = .ok snapshot.challenges
  feeds : readFeeds observation p.header scope = .ok p.feeds
  records : p.feeds.foldlM addFeed ⟨∅, ∅, ∅, []⟩ = .ok p.records
  benchmarks : ∀ identity ∈ p.header.benchmark, identity ∈ p.records.precommits ∧
    identity ∈ p.records.benchmarks ∧ identity ∈ p.records.proofs
  sound : ∀ identity ∈ p.header.benchmark, identity ∉ p.records.frauds
  bundles : (p.header.benchmark.insertionSort (· ≤ ·)).mapM
    (benchmarkBundles p.header p.records snapshot.algorithms snapshot.challenges) = .ok p.bundles
  qualifiers : ∃ opow, activeRecords p.header.opow p.opow "opow" = .ok opow ∧
    readQualifiers snapshot.algorithms snapshot.challenges opow p.bundles.flatten scope
      = .ok snapshot.qualifiers
  block : snapshot.blockId = p.header.blockId ∧ snapshot.previousBlockId = p.header.previousBlockId ∧
    snapshot.height = p.header.height ∧ snapshot.round = p.header.round ∧
    snapshot.timestamp = p.header.timestamp
  all : snapshot.bundles = p.bundles.flatten
  precommits : snapshot.precommits
    = p.records.precommits.filter fun identity _ => identity ∈ p.header.benchmark
  references : snapshot.selectionReferences = none
  isScoped : snapshot.isScoped = scope.isSome

theorem field_eq_ok {value inner : Json} {key : String} :
    field value key = .ok inner ↔ value.get? key = some inner := by
  rw [field, fetch_eq_ok]

theorem member_of_fields {value outer inner : Json} {key name : String}
    (houter : field value key = .ok outer) (hinner : field outer name = .ok inner) :
    member value key name = some inner :=
  (member_eq_some (field_eq_ok.mp houter)).trans (field_eq_ok.mp hinner)

theorem validateBlock_reads {observation : Json} {scope : Option String} {snapshot : Snapshot}
    (h : validateBlock observation scope = .ok snapshot) :
    ∃ p, Reads observation scope snapshot p := by
  simp only [validateBlock, bind_eq_ok, require_eq_ok, exists_const, pure_eq_ok] at h
  obtain ⟨header, hheader, response, hresponse, value, hvalue, codes, hcodes, response', hresponse',
    value', hvalue', challengeRows, hchallengeRows, response'', hresponse'', value'', hvalue'',
    opowRows, hopowRows, algorithms, halgorithms, challenges, hchallenges, opow, hopow, feeds,
    hfeeds, records, hrecords, hbenchmarks, hsound, bundles, hbundles, qualifiers, hqualifiers,
    rfl⟩ := h
  refine ⟨⟨header, codes, challengeRows, opowRows, feeds, records, bundles⟩,
    { header := hheader
      codes := by rw [member_of_fields hresponse hvalue]; exact hcodes
      challenges := by rw [member_of_fields hresponse' hvalue']; exact hchallengeRows
      opow := by rw [member_of_fields hresponse'' hvalue'']; exact hopowRows
      algorithms := halgorithms
      challenge := hchallenges
      feeds := hfeeds
      records := hrecords
      benchmarks := hbenchmarks
      sound := hsound
      bundles := hbundles
      qualifiers := ⟨opow, hopow, hqualifiers⟩
      block := ⟨rfl, rfl, rfl, rfl, rfl⟩
      all := rfl
      precommits := rfl
      references := rfl
      isScoped := rfl }⟩

end Protocol

end TigPool
