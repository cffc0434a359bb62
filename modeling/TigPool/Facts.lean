/-
# `TigPool.Facts` — what is known about reports, and what seals rest on

Responses about reports arrive in any order: newer ones, older ones that are
replayed, responses that fail.  `Reports.Writes` says once what a transaction about
reports can write.  From it follow the two things that make a seal safe to use:
facts on record only grow, and `Reports.Evidenced` holds at all times — every fact
was shown by a capture of its round at a block no lower than its confirmation,
complete captures show nothing that is not on record, and a seal holds what its
complete captures show, one for each round in scope.
-/
import TigPool.Blocks

namespace TigPool

open Basis Protocol

variable {db db' : Db}

/-! ## Facts and captures over time -/

/-- The later version of a fact: its arbitration may have been confirmed since. -/
structure ConfirmedReport.Extends (r r' : ConfirmedReport) : Prop where
  report : { r' with arbitration := none } = { r with arbitration := none }
  arbitration : Stays r.arbitration r'.arbitration

namespace ConfirmedReport.Extends

variable {r r' r'' : ConfirmedReport}

theorem refl (r : ConfirmedReport) : r.Extends r := ⟨rfl, .refl _⟩

theorem trans (h : r.Extends r') (h' : r'.Extends r'') : r.Extends r'' :=
  ⟨h'.report.trans h.report, h.arbitration.trans h'.arbitration⟩

theorem reportingRound (h : r.Extends r') : r'.reportingRound = r.reportingRound :=
  congrArg (·.reportingRound) h.report

theorem confirmedHeight (h : r.Extends r') : r'.confirmedHeight = r.confirmedHeight :=
  congrArg (·.confirmedHeight) h.report

end ConfirmedReport.Extends

/-- The later version of a capture: its payload may have been dropped since. -/
def ReportCapture.Extends (c c' : ReportCapture) : Prop :=
  { c' with expiredAt := none } = { c with expiredAt := none }

namespace ReportCapture.Extends

variable {c c' : ReportCapture}

theorem refl (c : ReportCapture) : c.Extends c := rfl

theorem reportingRound (h : c.Extends c') : c'.reportingRound = c.reportingRound :=
  congrArg (·.reportingRound) h

theorem blockId (h : c.Extends c') : c'.blockId = c.blockId := congrArg (·.blockId) h

theorem payload (h : c.Extends c') : c'.payload = c.payload := congrArg (·.payload) h

theorem complete (h : c.Extends c') : c'.complete = c.complete := congrArg (·.complete) h

end ReportCapture.Extends

/-! ## Reading a payload -/

namespace Protocol

/-- Only the arbitration of a confirmed report is read as a decision. -/
theorem readDecision_confirmed {arbitration : Json} {confirmed : Option ℕ}
    {decision : Option ConfirmedArbitration} (h : readDecision arbitration confirmed = .ok decision)
    (hdecision : decision.isSome = true) : confirmed.isSome = true := by
  simp only [readDecision, bind_eq_ok] at h
  obtain ⟨result, -, h⟩ := h
  split at h
  next =>
    obtain rfl := Except.ok.inj h
    cases hdecision
  next =>
    simp only [bind_eq_ok, require_eq_ok, exists_const] at h
    obtain ⟨decided, -, hconfirmed, -⟩ := h
    cases confirmed with
    | none => cases hconfirmed
    | some _ => rfl

theorem readReport_decided {report : Json} {arbitration : Option Json} {read : ReadReport}
    (h : readReport report arbitration = .ok read) (hdecision : read.decision.isSome = true) :
    read.fact.isSome = true := by
  cases arbitration with
  | none =>
      simp only [readReport, bind_eq_ok] at h
      obtain ⟨_, -, _, -, _, -, _, -, _, -, h⟩ := h
      split at h
      next =>
        obtain rfl := Except.ok.inj h
        cases hdecision
      next =>
        obtain ⟨confirmed, -, h⟩ := bind_eq_ok.mp h
        obtain rfl := Except.ok.inj h
        cases hdecision
  | some arbitration =>
      have htail : ∃ confirmed, ∃ benchmarkId benchmarker nonce round decision,
          readDecision arbitration confirmed = .ok decision ∧
          ReadReport.mk benchmarkId benchmarker nonce round confirmed decision = read := by
        simp only [readReport, bind_eq_ok] at h
        obtain ⟨_, -, _, -, _, -, _, -, _, -, h⟩ := h
        split at h <;>
          obtain ⟨confirmed, -, h⟩ := bind_eq_ok.mp h <;>
          obtain ⟨decision, hread, h⟩ := bind_eq_ok.mp h <;>
          exact ⟨_, _, _, _, _, decision, hread, Except.ok.inj h⟩
      obtain ⟨confirmed, _, _, _, _, decision, hread, rfl⟩ := htail
      obtain ⟨height, rfl⟩ := Option.isSome_iff_exists.mp (readDecision_confirmed hread hdecision)
      rfl

theorem validateReports_decided {payload : Json} {reads : Table String ReadReport}
    (h : validateReports payload = .ok reads) {id : String} {read : ReadReport}
    (hread : reads.lookup id = some read) (hdecision : read.decision.isSome = true) :
    read.fact.isSome = true := by
  simp only [validateReports, bind_eq_ok, require_eq_ok, exists_const] at h
  obtain ⟨reports, -, arbitrations, -, -, h⟩ := h
  suffices hall : ∀ (rows : List (String × Json)) (acc : Table String ReadReport),
      (∀ id read, acc.lookup id = some read → read.decision.isSome = true →
        read.fact.isSome = true) →
      rows.foldlM (fun (results : Table String ReadReport) row => do
        let read ← readReport row.2 (arbitrations.lookup row.1)
        return AList.insert row.1 read results) acc = .ok reads →
      read.fact.isSome = true from
    hall _ ∅ (fun _ _ hempty => by cases hempty) h
  intro rows
  induction rows with
  | nil =>
      intro acc hacc hend
      obtain rfl := Except.ok.inj hend
      exact hacc id read hread hdecision
  | cons row rows ih =>
      intro acc hacc hrest
      simp only [List.foldlM_cons, bind_eq_ok, pure_eq_ok] at hrest
      obtain ⟨_, ⟨first, hfirst, rfl⟩, hrest⟩ := hrest
      refine ih _ ?_ hrest
      intro id read hread hdecision
      rcases Table.lookup_insert_cases hread with ⟨-, rfl⟩ | ⟨-, hread⟩
      · exact readReport_decided hfirst hdecision
      · exact hacc id read hread hdecision

/-- What reading a confirmed report adds to what is on record under its identity. -/
def ReadReport.learn (known : Option ConfirmedReport) (read : ReadReport) :
    Option ConfirmedReport :=
  match read.fact with
  | none => known
  | some fact => match known with
    | none => some { fact with arbitration := read.decision }
    | some row => some { row with arbitration := row.arbitration <|> read.decision }

/-- All that the report shows as confirmed is on record. -/
structure ReadReport.Learned (read : ReadReport) (known : Option ConfirmedReport) : Prop where
  report : ∀ fact, read.fact = some fact →
    ∃ row, known = some row ∧ { row with arbitration := none } = fact
  arbitration : ∀ a, read.decision = some a → ∃ row, known = some row ∧ row.arbitration = some a

theorem ReadReport.Learned.mono {read : ReadReport} {known known' : Option ConfirmedReport}
    (h : read.Learned known)
    (hknown : ∀ row, known = some row → ∃ row', known' = some row' ∧ row.Extends row') :
    read.Learned known' where
  report fact hfact := by
    obtain ⟨row, hrow, heq⟩ := h.report fact hfact
    obtain ⟨row', hrow', hx⟩ := hknown row hrow
    exact ⟨row', hrow', hx.report.trans heq⟩
  arbitration a ha := by
    obtain ⟨row, hrow, heq⟩ := h.arbitration a ha
    obtain ⟨row', hrow', hx⟩ := hknown row hrow
    exact ⟨row', hrow', hx.arbitration a heq⟩

end Protocol

namespace Reports

/-! ## Facts -/

theorem facts_spec {payload : Json} {reportingRound height : ℕ} {reads : Table String ReadReport}
    (h : facts payload reportingRound height = .ok reads) :
    validateReports payload = .ok reads ∧
      ∀ {id read fact}, reads.lookup id = some read → read.fact = some fact →
        fact.reportingRound = reportingRound ∧ fact.confirmedHeight ≤ height := by
  simp only [facts, bind_eq_ok, require_eq_ok, exists_const, pure_eq_ok] at h
  obtain ⟨_, hreads, hrounds, hheights, -, rfl⟩ := h
  refine ⟨hreads, ?_⟩
  intro id read fact hread hfact
  have hround := Table.any_eq_false.mp hrounds id read hread
  have hheight := Table.any_eq_false.mp hheights id read hread
  obtain ⟨confirmed, hconfirmed, rfl⟩ := Option.map_eq_some_iff.mp hfact
  rw [hconfirmed] at hheight
  exact ⟨by simpa using hround, by simpa using hheight⟩

theorem lookup_remember {known : Table String ConfirmedReport} {reads : Table String ReadReport}
    {id : String} :
    ((reads.entries.map fun e => (e.1, e.2)).foldl remember known).lookup id
      = (reads.lookup id).elim (known.lookup id) (ReadReport.learn (known.lookup id)) := by
  refine Table.lookup_foldl_entries ?_ ?_
  · intro t k read
    unfold remember ReadReport.learn
    cases read.fact with
    | none => rfl
    | some fact => cases t.lookup k <;> exact AList.lookup_insert _
  · intro t k read k' hne
    unfold remember
    cases read.fact with
    | none => rfl
    | some fact => cases t.lookup k <;> exact AList.lookup_insert_ne hne

theorem contradiction_spec {reads : Table String ReadReport} {reportingRound height : ℕ}
    (h : contradiction db reads reportingRound height = none) {id : String} {read : ReadReport}
    {row : ConfirmedReport} (hread : reads.lookup id = some read)
    (hrow : db.reports.confirmed.lookup id = some row) :
    (∀ fact, read.fact = some fact → { row with arbitration := none } = fact) ∧
      ∀ a a', row.arbitration = some a → read.decision = some a' → a = a' := by
  unfold contradiction at h
  split at h
  next => cases h
  next hdecisions =>
    split at h
    next => cases h
    next hfacts =>
      have hfact := Table.any_eq_false.mp (Bool.eq_false_iff.mpr hfacts) id row hrow
      have hdecision := Table.any_eq_false.mp (Bool.eq_false_iff.mpr hdecisions) id row hrow
      constructor
      · intro fact hf
        have := of_decide_eq_false hfact
        simp only [hread, Option.bind_some, hf, Option.isSome_some, or_true, decide_true,
          true_and, not_not] at this
        exact (Option.some.inj this).symm
      · intro a a' ha ha'
        rw [ha, Option.any_some] at hdecision
        have := of_decide_eq_false hdecision
        simp only [hread, Option.bind_some, ha', Option.isSome_some, or_true, decide_true,
          true_and, not_not] at this
        exact (Option.some.inj this).symm

/-- What a complete capture shows is on record afterwards, and what was on record stays. -/
theorem remember_spec {payload : Json} {reads : Table String ReadReport}
    {reportingRound height : ℕ} (hfacts : facts payload reportingRound height = .ok reads)
    (hclear : contradiction db reads reportingRound height = none) :
    let confirmed := (reads.entries.map fun e => (e.1, e.2)).foldl remember db.reports.confirmed
    Basis.Extends ConfirmedReport.Extends db.reports.confirmed confirmed ∧
      (∀ {id read}, reads.lookup id = some read → read.Learned (confirmed.lookup id)) ∧
      ∀ {id row}, confirmed.lookup id = some row →
        (∃ old, db.reports.confirmed.lookup id = some old ∧ old.Extends row) ∨
          row.reportingRound = reportingRound ∧ row.confirmedHeight ≤ height := by
  intro confirmed
  have hlookup (id : String) : confirmed.lookup id = (reads.lookup id).elim
      (db.reports.confirmed.lookup id) (ReadReport.learn (db.reports.confirmed.lookup id)) :=
    lookup_remember
  obtain ⟨hreads, hbounds⟩ := facts_spec hfacts
  refine ⟨?_, ?_, ?_⟩
  · intro id row hrow
    cases hread : reads.lookup id with
    | none => exact ⟨row, by rw [hlookup, hread, Option.elim_none, hrow], .refl row⟩
    | some read =>
        rw [hlookup, hread, Option.elim_some, hrow, ReadReport.learn]
        cases read.fact with
        | none => exact ⟨row, rfl, .refl row⟩
        | some fact => exact ⟨_, rfl, rfl, fun a ha => by rw [ha]; rfl⟩
  · intro id read hread
    rw [hlookup, hread, Option.elim_some, ReadReport.learn]
    constructor
    · intro fact hfact
      rw [hfact]
      cases hrow : db.reports.confirmed.lookup id with
      | none =>
          obtain ⟨_, -, rfl⟩ := Option.map_eq_some_iff.mp hfact
          exact ⟨_, rfl, rfl⟩
      | some row => exact ⟨_, rfl, (contradiction_spec hclear hread hrow).1 fact hfact⟩
    · intro a ha
      obtain ⟨fact, hfact⟩ := Option.isSome_iff_exists.mp
        (validateReports_decided hreads hread (Option.isSome_of_eq_some ha))
      rw [hfact, ha]
      cases hrow : db.reports.confirmed.lookup id with
      | none => exact ⟨_, rfl, rfl⟩
      | some row =>
          refine ⟨_, rfl, ?_⟩
          cases harbitration : row.arbitration with
          | none => rfl
          | some a' =>
              exact congrArg some ((contradiction_spec hclear hread hrow).2 a' a harbitration ha)
  · intro id row hrow
    rw [hlookup] at hrow
    cases hread : reads.lookup id with
    | none =>
        rw [hread, Option.elim_none] at hrow
        exact .inl ⟨row, hrow, .refl row⟩
    | some read =>
        rw [hread, Option.elim_some, ReadReport.learn] at hrow
        cases hfact : read.fact with
        | none =>
            rw [hfact] at hrow
            exact .inl ⟨row, hrow, .refl row⟩
        | some fact =>
            rw [hfact] at hrow
            cases hold : db.reports.confirmed.lookup id with
            | none =>
                rw [hold] at hrow
                obtain rfl := Option.some.inj hrow
                have hbound := hbounds hread hfact
                exact .inr ⟨hbound.1, hbound.2⟩
            | some old =>
                rw [hold] at hrow
                obtain rfl := Option.some.inj hrow
                exact .inl ⟨old, rfl, rfl, fun a ha => by rw [ha]; rfl⟩

end Reports

/-! ## What seals rest on -/

/-- The capture's payload shows the report as a seal freezes it. -/
def ReportCapture.Shows (c : ReportCapture) (e : String × SealedReport) : Prop :=
  ∃ reads read, validateReports c.payload = .ok reads ∧ reads.lookup e.1 = some read ∧
    read.frozen = e.2

theorem ReportCapture.Extends.shows {c c' : ReportCapture} (h : c.Extends c')
    {e : String × SealedReport} : c'.Shows e ↔ c.Shows e := by
  rw [ReportCapture.Shows, ReportCapture.Shows, h.payload]

/-- The captures of a seal are complete, cover the scope, and show what is sealed. -/
structure ReportSeal.Rests (row : ReportSeal) (reports : Reports) (scope : ReportScope) : Prop where
  frozen : reports.scopes.lookup row.creationRound = some scope
  covers : ∀ n ∈ scope.reportingRounds, ∃ id ∈ row.captureIds, ∃ c,
    reports.captures.lookup id = some c ∧ (c.reportingRound : ℤ) = n
  complete : ∀ id ∈ row.captureIds, ∃ c, reports.captures.lookup id = some c ∧
    c.complete = true ∧ ∀ e, c.Shows e → e ∈ row.reports
  shown : ∀ e ∈ row.reports, ∃ id ∈ row.captureIds, ∃ c,
    reports.captures.lookup id = some c ∧ c.Shows e

theorem ReportSeal.Rests.mono {row : ReportSeal} {reports reports' : Reports} {scope : ReportScope}
    (h : row.Rests reports scope)
    (hscopes : Basis.Extends Eq reports.scopes reports'.scopes)
    (hcaptures : Basis.Extends ReportCapture.Extends reports.captures reports'.captures) :
    row.Rests reports' scope where
  frozen := hscopes.lookup h.frozen
  covers n hn := by
    obtain ⟨id, hid, c, hc, hround⟩ := h.covers n hn
    obtain ⟨c', hc', hx⟩ := hcaptures hc
    exact ⟨id, hid, c', hc', by rw [hx.reportingRound, hround]⟩
  complete id hid := by
    obtain ⟨c, hc, hcomplete, hshows⟩ := h.complete id hid
    obtain ⟨c', hc', hx⟩ := hcaptures hc
    exact ⟨c', hc', hx.complete.trans hcomplete, fun e he => hshows e (hx.shows.mp he)⟩
  shown e he := by
    obtain ⟨id, hid, c, hc, hshows⟩ := h.shown e he
    obtain ⟨c', hc', hx⟩ := hcaptures hc
    exact ⟨id, hid, c', hc', hx.shows.mpr hshows⟩

namespace Reports

theorem combine_spec {creationRound : ℕ} {combined combined' : List (String × SealedReport)}
    {item : Uuid × ReportCapture} (h : combine db creationRound combined item = .ok combined') :
    item.2.complete = true ∧ ∀ e, e ∈ combined' ↔ e ∈ combined ∨ item.2.Shows e := by
  simp only [combine, bind_eq_ok, require_eq_ok, exists_const, pure_eq_ok] at h
  obtain ⟨hcomplete, _, -, reads, hreads, -, rfl⟩ := h
  refine ⟨hcomplete, fun e => ?_⟩
  rw [List.mem_append]
  refine or_congr_right ⟨?_, ?_⟩
  · intro he
    obtain ⟨entry, hentry, rfl⟩ := List.mem_map.mp he
    exact ⟨reads, entry.2, hreads, Table.mem_entries_iff.mp hentry, rfl⟩
  · rintro ⟨reads', read, hreads', hread, hfrozen⟩
    obtain rfl := Except.ok.inj (hreads.symm.trans hreads')
    exact List.mem_map.mpr ⟨⟨e.1, read⟩, Table.mem_entries_iff.mpr hread,
      Prod.ext rfl hfrozen⟩

/-- Combining captures gathers what they show. -/
theorem combined_spec {creationRound : ℕ} {items : List (Uuid × ReportCapture)} :
    ∀ {combined combined' : List (String × SealedReport)},
      items.foldlM (combine db creationRound) combined = .ok combined' →
      (∀ item ∈ items, item.2.complete = true) ∧
        ∀ e, e ∈ combined' ↔ e ∈ combined ∨ ∃ item ∈ items, item.2.Shows e := by
  induction items with
  | nil =>
      intro combined combined' h
      obtain rfl := Except.ok.inj h
      simp
  | cons item items ih =>
      intro combined combined' h
      rw [List.foldlM_cons] at h
      obtain ⟨next, hnext, h⟩ := bind_eq_ok.mp h
      obtain ⟨hfirst, hshows⟩ := combine_spec hnext
      obtain ⟨hrest, hall⟩ := ih h
      refine ⟨List.forall_mem_cons.mpr ⟨hfirst, hrest⟩, fun e => ?_⟩
      rw [hall, hshows, or_assoc]
      simp only [List.exists_mem_cons_iff]

/-- The rows of captures, by their identities. -/
theorem mem_captures {captures : Table Uuid ReportCapture} {captureIds : List Uuid}
    {item : Uuid × ReportCapture} :
    item ∈ captureIds.filterMap (fun c => (captures.lookup c).map (c, ·)) ↔
      item.1 ∈ captureIds ∧ captures.lookup item.1 = some item.2 := by
  rw [List.mem_filterMap]
  constructor
  · rintro ⟨id, hid, hitem⟩
    obtain ⟨c, hc, rfl⟩ := Option.map_eq_some_iff.mp hitem
    exact ⟨hid, hc⟩
  · rintro ⟨hid, hc⟩
    exact ⟨item.1, hid, Option.map_eq_some_iff.mpr ⟨item.2, hc, rfl⟩⟩

theorem sealRound_cases {creationRound : ℕ} {captureIds : List Uuid} {blockId : String}
    {identity out : Uuid} (h : sealRound db creationRound captureIds blockId identity
      = .ok (db', out)) :
    db' = db ∨ identity ∉ db.reports.seals ∧ ∃ row scope, ReportSeal.Rests row db.reports scope ∧
      db' = { db with reports :=
        { db.reports with seals := AList.insert identity row db.reports.seals } } := by
  simp only [sealRound, bind_eq_ok, require_eq_ok, exists_const, fetch_eq_ok] at h
  obtain ⟨_, -, -, _, -, scope, hscope, _, -, ⟨hlength, hrounds⟩, combined, hcombined, h⟩ := h
  split at h
  next =>
    obtain ⟨rfl, -⟩ := Prod.mk.inj (Except.ok.inj h)
    exact .inl rfl
  next =>
    simp only [bind_eq_ok, require_eq_ok, exists_const, pure_eq_ok, Prod.mk.injEq] at h
    obtain ⟨hfresh, rfl, -⟩ := h
    obtain ⟨hcomplete, hshows⟩ := combined_spec hcombined
    refine .inr ⟨hfresh, _, scope, ⟨hscope, ?_, ?_, ?_⟩, rfl⟩
    · intro n hn
      rw [← hrounds, List.mem_insertionSort] at hn
      obtain ⟨item, hitem, rfl⟩ := List.mem_map.mp hn
      obtain ⟨hid, hc⟩ := mem_captures.mp hitem
      exact ⟨item.1, (List.mem_insertionSort _).mpr hid, item.2, hc, rfl⟩
    · intro id hid
      replace hid := (List.mem_insertionSort _).mp hid
      obtain ⟨item, hitem⟩ := Option.isSome_iff_exists.mp
        (List.filterMap_length_eq_length.mp hlength id hid)
      obtain ⟨c, hc, rfl⟩ := Option.map_eq_some_iff.mp hitem
      have hmem : (id, c) ∈ captureIds.filterMap
          fun c => (db.reports.captures.lookup c).map (c, ·) := mem_captures.mpr ⟨hid, hc⟩
      exact ⟨c, hc, hcomplete _ hmem, fun e he => (hshows e).mpr (.inr ⟨_, hmem, he⟩)⟩
    · intro e he
      rcases (hshows e).mp he with he | ⟨item, hitem, hshown⟩
      · cases he
      · obtain ⟨hid, hc⟩ := mem_captures.mp hitem
        exact ⟨item.1, (List.mem_insertionSort _).mpr hid, item.2, hc, hshown⟩

/-! ## What using a seal checks -/

/-- The latest capture of a round is at a block no lower than any capture of the round. -/
theorem latestCapture_spec {reportingRound : ℕ} {identity : Uuid}
    (h : latestCapture db reportingRound = some identity) {other : Uuid} {c : ReportCapture}
    {block : ObservedBlock} (hc : db.reports.captures.lookup other = some c)
    (hround : c.reportingRound = reportingRound)
    (hblock : db.observation.blocks.lookup c.blockId = some block) :
    ∃ last lastBlock, db.reports.captures.lookup identity = some last ∧
      db.observation.blocks.lookup last.blockId = some lastBlock ∧
      block.height ≤ lastBlock.height := by
  obtain ⟨⟨id, last⟩, hargmax, rfl⟩ := Option.map_eq_some_iff.mp h
  have hlast := List.argmax_mem hargmax
  obtain ⟨entry, hentry, heq⟩ := List.mem_map.mp (List.mem_filter.mp hlast).1
  obtain ⟨rfl, rfl⟩ := Prod.mk.inj heq
  have hmem : (other, c) ∈ ((db.reports.captures.entries.map fun e => (e.1, e.2)).filter fun e =>
      e.2.reportingRound = reportingRound) :=
    List.mem_filter.mpr ⟨List.mem_map.mpr ⟨⟨other, c⟩, Table.mem_entries_iff.mpr hc, rfl⟩,
      decide_eq_true hround⟩
  have hle := List.le_of_mem_argmax hmem hargmax
  simp only [hblock, Option.elim_some] at hle
  cases hlower : db.observation.blocks.lookup entry.2.blockId with
  | none =>
      rw [hlower] at hle
      exact absurd hle (WithBot.not_coe_le_bot _)
  | some lastBlock =>
      rw [hlower, Option.elim_some, WithBot.coe_le_coe, Prod.Lex.toLex_le_toLex] at hle
      refine ⟨entry.2, lastBlock, Table.mem_entries_iff.mp hentry, hlower, ?_⟩
      rcases hle with hlt | ⟨heq, -⟩
      · exact hlt.le
      · exact heq.le

theorem checkCapture_spec {creationRound : ℕ} {item : Uuid × ReportCapture}
    (h : checkCapture db creationRound item = .ok ()) :
    ∃ block, db.observation.blocks.lookup item.2.blockId = some block ∧
      latestCapture db item.2.reportingRound = some item.1 ∧
      requireKnownFacts db item.2.reportingRound block.height item.2.payload = .ok () := by
  simp only [checkCapture, bind_eq_ok, require_eq_ok, exists_const, fetch_eq_ok] at h
  obtain ⟨block, hblock, _, -, period, -, -, hlatest, -, hfacts⟩ := h
  exact ⟨block, hblock, hlatest, hfacts⟩

/-- A capture that passes shows every report on record that was confirmed by its height. -/
theorem requireKnownFacts_spec {reportingRound height : ℕ} {payload : Json}
    (h : requireKnownFacts db reportingRound height payload = .ok ()) {id : String}
    {row : ConfirmedReport} (hrow : db.reports.confirmed.lookup id = some row)
    (hround : row.reportingRound = reportingRound) (hheight : row.confirmedHeight ≤ height) :
    ∃ reads read, validateReports payload = .ok reads ∧ reads.lookup id = some read ∧
      read.fact = some { row with arbitration := none } := by
  simp only [requireKnownFacts, bind_eq_ok, require_eq_ok, exists_const] at h
  obtain ⟨reads, hfacts, hknown, -⟩ := h
  subst hround
  have hshown := of_decide_eq_false (Table.any_eq_false.mp hknown id row hrow)
  simp only [hheight, and_self, decide_true, true_and, not_not] at hshown
  obtain ⟨read, hread, hfact⟩ := Option.bind_eq_some_iff.mp hshown
  exact ⟨reads, read, (facts_spec hfacts).1, hread, hfact⟩

theorem requireSeal_spec {identity : Uuid} {creationRound : ℕ} {row : ReportSeal}
    (h : requireSeal db identity creationRound = .ok row) :
    db.reports.seals.lookup identity = some row ∧ ∃ scope,
      db.reports.scopes.lookup row.creationRound = some scope ∧
      checkScope db row.creationRound scope.reportingRounds = .ok () ∧
      row.creationRound = creationRound ∧
      ∀ id ∈ row.captureIds, ∀ c, db.reports.captures.lookup id = some c →
        checkCapture db creationRound (id, c) = .ok () := by
  simp only [requireSeal, bind_eq_ok, require_eq_ok, exists_const, fetch_eq_ok, pure_eq_ok] at h
  obtain ⟨row, hrow, rfl, scope, hscope, _, hcheck, _, -, _, hcaptures, rfl⟩ := h
  exact ⟨hrow, scope, hscope, hcheck, rfl, fun id hid c hc =>
    forM_eq_ok.mp hcaptures (id, c) (mem_captures.mpr ⟨hid, hc⟩)⟩

/-- The rounds in which reports on benchmarks of the creation round are on record are in scope. -/
theorem checkScope_spec {creationRound : ℕ} {reportingRounds : List ℤ}
    (h : checkScope db creationRound reportingRounds = .ok ()) {id k : String}
    {report : ConfirmedReport} {row : Reservation}
    (hreport : db.reports.confirmed.lookup id = some report)
    (hrow : db.funds.reservations.lookup k = some row)
    (hbenchmark : row.benchmarkId = some report.benchmarkId)
    (hround : row.creationRound = creationRound) :
    (report.reportingRound : ℤ) ∈ reportingRounds := by
  simp only [checkScope, require_eq_ok] at h
  have hknown := of_decide_eq_false (Table.any_eq_false.mp h.2 id report hreport)
  by_contra hout
  exact hknown ⟨hout, Table.any_iff.mpr ⟨k, row, hrow, decide_eq_true ⟨hbenchmark, hround⟩⟩⟩

/-! ## What is on record about reports -/

/-- What a transaction about reports writes. -/
inductive Writes (db : Db) : TigPool.Reports → Prop
  | same : Writes db db.reports
  | failed {identity : Uuid} {capture : ReportCapture} : identity ∉ db.reports.captures →
      capture.complete = false →
      Writes db { db.reports with captures := AList.insert identity capture db.reports.captures }
  | shown {identity : Uuid} {capture : ReportCapture} {block : ObservedBlock}
      {reads : Table String ReadReport} : identity ∉ db.reports.captures →
      db.observation.blocks.lookup capture.blockId = some block →
      facts capture.payload capture.reportingRound block.height = .ok reads →
      contradiction db reads capture.reportingRound block.height = none →
      Writes db { db.reports with
        captures := AList.insert identity capture db.reports.captures
        confirmed := (reads.entries.map fun e => (e.1, e.2)).foldl remember db.reports.confirmed }
  | expired {identity : Uuid} {capture : ReportCapture} {time : Time} :
      db.reports.captures.lookup identity = some capture →
      Writes db { db.reports with
        captures := AList.insert identity { capture with expiredAt := some time }
          db.reports.captures }
  | indexed {indexCaptures : Table Uuid ReportIndexCapture}
      {reportingRounds : Table String BenchmarkReportingRound} :
      Writes db { db.reports with indexCaptures, reportingRounds }
  | scope {round : ℕ} {row : ReportScope} : round ∉ db.reports.scopes →
      Writes db { db.reports with scopes := AList.insert round row db.reports.scopes }
  | sealed {identity : Uuid} {row : ReportSeal} {scope : ReportScope} :
      identity ∉ db.reports.seals → row.Rests db.reports scope →
      Writes db { db.reports with seals := AList.insert identity row db.reports.seals }

theorem archive_writes {round : ℕ} {blockId : String} {block : ObservedBlock}
    {payload metadata : Json} {error : Option String} {identity out : Uuid}
    (hblock : db.observation.blocks.lookup blockId = some block)
    (h : archive db round block.height blockId payload metadata error identity = .ok (db', out)) :
    ∃ reports, Writes db reports ∧ db' = { db with reports := reports } := by
  simp only [archive] at h
  split at h
  next =>
    obtain ⟨rfl, -⟩ := Prod.mk.inj (Except.ok.inj h)
    exact ⟨_, .same, rfl⟩
  next =>
    simp only [bind_eq_ok, require_eq_ok, exists_const, pure_eq_ok, Prod.mk.injEq] at h
    obtain ⟨hfresh, rfl, -⟩ := h
    refine ⟨_, ?_, rfl⟩
    cases hfacts : facts payload round block.height with
    | error failure =>
        simp only [Option.or_some, Option.isNone_some]
        exact .failed hfresh rfl
    | ok reads =>
        cases hclear : contradiction db reads round block.height with
        | some message => exact .failed hfresh rfl
        | none =>
            cases error with
            | some message => exact .failed hfresh rfl
            | none => exact .shown hfresh hblock hfacts hclear

theorem archiveIndex_writes {round : ℕ} {blockId playerId challengeId : String}
    {payload metadata : Json} {error : Option String} {identity out : Uuid}
    (h : archiveIndex db round blockId playerId challengeId payload metadata error identity
      = .ok (db', out)) : ∃ reports, Writes db reports ∧ db' = { db with reports := reports } := by
  simp only [archiveIndex] at h
  split at h
  next =>
    obtain ⟨rfl, -⟩ := Prod.mk.inj (Except.ok.inj h)
    exact ⟨_, .same, rfl⟩
  next =>
    simp only [bind_eq_ok, require_eq_ok, exists_const, pure_eq_ok, Prod.mk.injEq] at h
    obtain ⟨-, rfl, -⟩ := h
    exact ⟨_, .indexed, rfl⟩

end Reports

/-- Every transaction about reports writes one of these, and nothing else. -/
theorem ReportStep.writes {a : ReportAction} (h : ReportStep db a db') :
    ∃ reports, Reports.Writes db reports ∧ db' = { db with reports := reports } := by
  cases h with
  | record h =>
      simp only [Reports.record, Reports.anchorHeight, bind_eq_ok, fetch_eq_ok, pure_eq_ok] at h
      obtain ⟨round, -, _, ⟨_, -, block, hblock, rfl⟩, h⟩ := h
      exact Reports.archive_writes hblock h
  | archive _ hblock h => exact Reports.archive_writes hblock h
  | expire h =>
      simp only [Reports.expire, bind_eq_ok, require_eq_ok, exists_const, fetch_eq_ok,
        pure_eq_ok] at h
      obtain ⟨_, hcapture, -, rfl⟩ := h
      exact ⟨_, .expired hcapture, rfl⟩
  | recordIndex h =>
      simp only [Reports.recordIndex, bind_eq_ok] at h
      obtain ⟨round, -, _, -, h⟩ := h
      exact Reports.archiveIndex_writes h
  | archiveIndex _ _ h => exact Reports.archiveIndex_writes h
  | scope h =>
      simp only [Reports.scope, bind_eq_ok, require_eq_ok, exists_const] at h
      obtain ⟨round, -, -, -, _, -, h⟩ := h
      split at h
      next =>
        simp only [bind_eq_ok, require_eq_ok, exists_const, pure_eq_ok] at h
        obtain ⟨-, rfl⟩ := h
        exact ⟨_, .same, rfl⟩
      next hfresh =>
        obtain rfl := Except.ok.inj h
        exact ⟨_, .scope (AList.lookup_eq_none.mp hfresh), rfl⟩
  | sealRound h =>
      rcases Reports.sealRound_cases h with rfl | ⟨hfresh, row, scope, hrests, rfl⟩
      · exact ⟨_, .same, rfl⟩
      · exact ⟨_, .sealed hfresh hrests, rfl⟩

namespace Reports.Writes

variable {reports : TigPool.Reports}

theorem captures (h : Writes db reports) :
    Basis.Extends ReportCapture.Extends db.reports.captures reports.captures := by
  cases h with
  | failed hfresh => exact .fresh .refl (AList.lookup_eq_none.mpr hfresh)
  | shown hfresh => exact .fresh .refl (AList.lookup_eq_none.mpr hfresh)
  | @expired identity capture time hcapture =>
      intro id c hc
      rw [Table.lookup_insert_eq]
      split
      next heq =>
        subst heq
        obtain rfl := Option.some.inj (hcapture.symm.trans hc)
        exact ⟨_, rfl, rfl⟩
      next => exact ⟨c, hc, .refl c⟩
  | _ => exact .refl .refl

theorem scopes (h : Writes db reports) : Basis.Extends Eq db.reports.scopes reports.scopes := by
  cases h with
  | scope hfresh => exact .fresh (fun _ => rfl) (AList.lookup_eq_none.mpr hfresh)
  | _ => exact .refl fun _ => rfl

theorem confirmed (h : Writes db reports) :
    Basis.Extends ConfirmedReport.Extends db.reports.confirmed reports.confirmed := by
  cases h with
  | shown _ _ hfacts hclear => exact (remember_spec hfacts hclear).1
  | _ => exact .refl .refl

end Reports.Writes

/-- What is known about reports has been shown by a capture, what complete captures show is
known, and seals rest on complete captures. -/
structure Reports.Evidenced (reports : Reports) (blocks : Table String ObservedBlock) : Prop where
  /-- Every fact was shown by a capture of its round, at a block no lower than it. -/
  source : ∀ {id row}, reports.confirmed.lookup id = some row → ∃ cid c block,
    reports.captures.lookup cid = some c ∧ blocks.lookup c.blockId = some block ∧
      c.reportingRound = row.reportingRound ∧ row.confirmedHeight ≤ block.height
  learned : ∀ {cid c reads id read}, reports.captures.lookup cid = some c → c.complete = true →
    Protocol.validateReports c.payload = .ok reads → reads.lookup id = some read →
    read.Learned (reports.confirmed.lookup id)
  rests : ∀ {sid row}, reports.seals.lookup sid = some row → ∃ scope, row.Rests reports scope

namespace Reports.Evidenced

variable {reports : Reports}

theorem empty {blocks : Table String ObservedBlock} :
    Evidenced ⟨∅, ∅, ∅, ∅, ∅, ∅⟩ blocks where
  source h := by cases h
  learned h := by cases h
  rests h := by cases h

theorem blocks {blocks blocks' : Table String ObservedBlock} (h : reports.Evidenced blocks)
    (hblocks : Basis.Extends ObservedBlock.Extends blocks blocks') : reports.Evidenced blocks' where
  source hrow := by
    obtain ⟨cid, c, block, hc, hblock, hround, hheight⟩ := h.source hrow
    obtain ⟨block', hblock', hx⟩ := hblocks hblock
    exact ⟨cid, c, block', hc, hblock', hround, by rw [hx.height]; exact hheight⟩
  learned := h.learned
  rests := h.rests

/-- Every transaction about reports keeps this. -/
theorem writes (h : db.reports.Evidenced db.observation.blocks) (hw : Writes db reports) :
    reports.Evidenced db.observation.blocks where
  source := by
    intro id row hrow
    have hold {old : ConfirmedReport} (hknown : db.reports.confirmed.lookup id = some old)
        (hx : old.Extends row) : ∃ cid c block, reports.captures.lookup cid = some c ∧
          db.observation.blocks.lookup c.blockId = some block ∧
          c.reportingRound = row.reportingRound ∧ row.confirmedHeight ≤ block.height := by
      obtain ⟨cid, c, block, hc, hblock, hround, hheight⟩ := h.source hknown
      obtain ⟨c', hc', hcx⟩ := hw.captures hc
      refine ⟨cid, c', block, hc', by rw [hcx.blockId, hblock], ?_, ?_⟩
      · rw [hcx.reportingRound, hround, hx.reportingRound]
      · rw [hx.confirmedHeight]
        exact hheight
    cases hw with
    | shown hfresh hblock hfacts hclear =>
        rcases (remember_spec hfacts hclear).2.2 hrow with ⟨old, hknown, hx⟩ | ⟨hround, hheight⟩
        · exact hold hknown hx
        · exact ⟨_, _, _, AList.lookup_insert _, hblock, hround.symm, hheight⟩
    | _ => exact hold hrow (.refl row)
  learned := by
    intro cid c reads id read hc hcomplete hreads hread
    have hold (hknown : db.reports.captures.lookup cid = some c) :
        read.Learned (reports.confirmed.lookup id) :=
      (h.learned hknown hcomplete hreads hread).mono fun _ hrow => hw.confirmed hrow
    cases hw with
    | failed hfresh hfailed =>
        rcases Table.lookup_insert_cases hc with ⟨-, rfl⟩ | ⟨-, hc⟩
        · rw [hfailed] at hcomplete
          cases hcomplete
        · exact hold hc
    | shown hfresh hblock hfacts hclear =>
        rcases Table.lookup_insert_cases hc with ⟨-, rfl⟩ | ⟨-, hc⟩
        · obtain rfl := Except.ok.inj ((facts_spec hfacts).1.symm.trans hreads)
          exact (remember_spec hfacts hclear).2.1 hread
        · exact hold hc
    | expired hcapture =>
        rcases Table.lookup_insert_cases hc with ⟨-, rfl⟩ | ⟨-, hc⟩
        · exact h.learned hcapture hcomplete hreads hread
        · exact hold hc
    | _ => exact hold hc
  rests := by
    intro sid row hrow
    have hold (hknown : db.reports.seals.lookup sid = some row) :
        ∃ scope, row.Rests reports scope := by
      obtain ⟨scope, hrests⟩ := h.rests hknown
      exact ⟨scope, hrests.mono hw.scopes hw.captures⟩
    cases hw with
    | sealed hfresh hrests =>
        rcases Table.lookup_insert_cases hrow with ⟨-, rfl⟩ | ⟨-, hrow⟩
        · exact ⟨_, hrests.mono (.refl fun _ => rfl) (.refl .refl)⟩
        · exact hold hrow
    | _ => exact hold hrow

end Reports.Evidenced

end TigPool
