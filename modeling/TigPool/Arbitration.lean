/-
# `TigPool.Arbitration` — arbitration decides collateral

A seal is a snapshot of several captures, and facts keep arriving after it.  What
makes it safe to use is that four checks interlock.  The scope check says that every
round in which a report on a benchmark of the creation round is known has a capture
in the seal; the check for the latest capture says that this capture is at a block
no lower than any capture of its round, and so no lower than the confirmation of any
fact of the round; the check against known facts then says that the capture shows the
report; and a complete capture only shows facts that are on record.  So a sealed
report with a result is a report on record with its arbitration, and conversely, and
`arbitration_decides` is the law: what a finalization commits is decided by the
arbitrations on record when it commits, and these never change.
-/
import TigPool.Facts
import TigPool.SettledCredit

namespace TigPool

open Basis

variable {db db' : Db}

namespace Reports.Evidenced

variable {blocks : Table String ObservedBlock} {sealId : Uuid} {creationRound : ℕ}
  {row : ReportSeal}

/-- A sealed result is the arbitration of a report on record. -/
theorem decided (h : db.reports.Evidenced blocks)
    (hseal : requireSeal db sealId creationRound = .ok row) {e : String × SealedReport}
    (he : e ∈ row.reports) {result : ArbitrationResult} (hresult : e.2.result = some result) :
    ∃ report a, db.reports.confirmed.lookup e.1 = some report ∧
      report.benchmarkId = e.2.benchmarkId ∧ report.arbitration = some a ∧ a.result = result := by
  obtain ⟨hrow, -⟩ := requireSeal_spec hseal
  obtain ⟨scope, hrests⟩ := h.rests hrow
  obtain ⟨cid, hcid, c, hc, reads, read, hreads, hread, hfrozen⟩ := hrests.shown e he
  obtain ⟨c', hc', hcomplete, -⟩ := hrests.complete cid hcid
  obtain rfl := Option.some.inj (hc.symm.trans hc')
  have hlearned := h.learned hc hcomplete hreads hread
  rw [← hfrozen] at hresult ⊢
  obtain ⟨a, ha, rfl⟩ := Option.map_eq_some_iff.mp hresult
  obtain ⟨report, hreport, harbitration⟩ := hlearned.arbitration a ha
  obtain ⟨fact, hfact⟩ := Option.isSome_iff_exists.mp
    (Protocol.validateReports_decided hreads hread (Option.isSome_of_eq_some ha))
  obtain ⟨report', hreport', hsame⟩ := hlearned.report fact hfact
  obtain rfl := Option.some.inj (hreport.symm.trans hreport')
  obtain ⟨_, -, rfl⟩ := Option.map_eq_some_iff.mp hfact
  exact ⟨report, a, hreport, congrArg (·.benchmarkId) hsame, harbitration, rfl⟩

/-- A seal that may be used holds every report on record about a benchmark of its creation
round, with no other result than the one on record. -/
theorem arbitrated (h : db.reports.Evidenced db.observation.blocks)
    (hseal : requireSeal db sealId creationRound = .ok row) {k id : String}
    {reservation : Reservation} {report : ConfirmedReport}
    (hreservation : db.funds.reservations.lookup k = some reservation)
    (hround : reservation.creationRound = creationRound)
    (hreport : db.reports.confirmed.lookup id = some report)
    (hbenchmark : reservation.benchmarkId = some report.benchmarkId) :
    ∃ e ∈ row.reports, e.2.benchmarkId = report.benchmarkId ∧
      e.2.result.all (fun result => report.arbitration.map (·.result) = some result) = true := by
  obtain ⟨hrow, scope, hscope, hcheck, rfl, hcaptures⟩ := requireSeal_spec hseal
  obtain ⟨scope', hrests⟩ := h.rests hrow
  obtain rfl := Option.some.inj (hscope.symm.trans hrests.frozen)
  -- the round of the report is in scope, so the seal has a capture of it
  obtain ⟨cid, hcid, c, hc, hsame⟩ := hrests.covers _
    (checkScope_spec hcheck hreport hreservation hbenchmark hround)
  obtain ⟨c', hc', hcomplete, hshows⟩ := hrests.complete cid hcid
  obtain rfl := Option.some.inj (hc.symm.trans hc')
  obtain ⟨block, hblock, hlatest, hknown⟩ := checkCapture_spec (hcaptures cid hcid c hc)
  -- no capture of that round is at a higher block, so the report was confirmed by then
  obtain ⟨other, shown, shownBlock, hshown, hshownBlock, hshownRound, hheight⟩ := h.source hreport
  obtain ⟨last, lastBlock, hlast, hlastBlock, hle⟩ := latestCapture_spec hlatest hshown
    (hshownRound.trans (Int.natCast_inj.mp hsame).symm) hshownBlock
  obtain rfl := Option.some.inj (hc.symm.trans hlast)
  obtain rfl := Option.some.inj (hblock.symm.trans hlastBlock)
  obtain ⟨reads, read, hreads, hread, hfact⟩ := requireKnownFacts_spec hknown hreport
    (Int.natCast_inj.mp hsame).symm (hheight.trans hle)
  refine ⟨(id, read.frozen), hshows _ ⟨reads, read, hreads, hread, rfl⟩, ?_, ?_⟩
  · obtain ⟨_, -, heq⟩ := Option.map_eq_some_iff.mp hfact
    exact congrArg (·.benchmarkId) heq
  · cases hdecision : read.decision with
    | none => simp [Protocol.ReadReport.frozen, hdecision]
    | some a =>
        obtain ⟨report', hreport', ha⟩ :=
          (h.learned hc hcomplete hreads hread).arbitration a hdecision
        obtain rfl := Option.some.inj (hreport.symm.trans hreport')
        simp [Protocol.ReadReport.frozen, hdecision, ha]

end Reports.Evidenced

/-! ## Finalizations -/

theorem Settlement.checkReport_decided {row : Reservation} {report : SealedReport} {u : Unit}
    (h : checkReport row report = .ok u) : report.result ≠ none := by
  simp only [checkReport, bind_eq_ok, require_eq_ok, exists_const] at h
  exact h.1

/-- What a finalization decides, and the seal it decides by. -/
theorem Settlement.finalizeCollateral_decides {identity sealId : Uuid}
    {out : Option CollateralFinalization} {row : Reservation} {outcome : CollateralOutcome}
    (h : finalizeCollateral db identity sealId = .ok (db', out))
    (hrow : db.funds.reservations.lookup identity = some row)
    (hopen : row.collateralOutcome = none)
    (houtcome : (db'.funds.reservations.lookup identity).bind (·.collateralOutcome)
      = some outcome) :
    ∃ sealed, Reports.requireSeal db sealId row.creationRound = .ok sealed ∧
      (∀ e ∈ sealed.reports, some e.2.benchmarkId = row.benchmarkId → e.2.result ≠ none) ∧
      (outcome = .forfeited ↔ row.handedOverAt ≠ none ∧ (row.activeAtHeight = none ∨
        ∃ e ∈ sealed.reports, some e.2.benchmarkId = row.benchmarkId ∧
          e.2.result = some .nonreproducible)) := by
  simp only [finalizeCollateral, bind_eq_ok, fetch_eq_ok] at h
  obtain ⟨_, hlocked, h⟩ := h
  obtain rfl := Option.some.inj (hrow.symm.trans hlocked)
  split at h
  next =>
    obtain ⟨rfl, -⟩ := Prod.mk.inj (Except.ok.inj h)
    rw [hrow, Option.bind_some, hopen] at houtcome
    cases houtcome
  next =>
    simp only [bind_eq_ok, require_eq_ok, exists_const] at h
    obtain ⟨sealed, hsealed, -, _, hreports, decision, hdecision, h⟩ := h
    have hcommits : decision = outcome := by
      have hwritten {ledger : Ledger} {details : Json} {final : Option CollateralFinalization}
          (hevent : event ((db.withLedger ledger).putReservation identity
            { row with collateralOutcome := some decision, finalization := final })
            identity .collateralFinalized details = .ok db') : decision = outcome := by
        rw [event_funds hevent] at houtcome
        rw [show ((db.withLedger ledger).putReservation identity _).funds.reservations.lookup
          identity = some _ from AList.lookup_insert _, Option.bind_some] at houtcome
        exact Option.some.inj houtcome
      cases decision with
      | returned =>
          simp only [if_pos, bind_eq_ok, ite_bind_eq_ok, pure_eq_ok, Prod.mk.injEq] at h
          obtain ⟨_, -, _, -, _, hevent, rfl, -⟩ := h
          exact hwritten hevent
      | forfeited =>
          simp only [reduceCtorEq, if_false, bind_eq_ok, ite_bind_eq_ok, pure_eq_ok,
            Prod.mk.injEq] at h
          obtain ⟨_, -, _, -, _, -, _, hevent, rfl, -⟩ := h
          exact hwritten hevent
    subst hcommits
    refine ⟨sealed, hsealed, ?_, ?_⟩
    · intro e he hbenchmark
      exact checkReport_decided (forM_eq_ok.mp hreports e.2 (List.mem_filter.mpr
        ⟨List.mem_map_of_mem he, decide_eq_true hbenchmark⟩))
    · rw [collateralDecision_spec hdecision, List.any_eq_true]
      refine and_congr_right' (or_congr_right ⟨?_, ?_⟩)
      · rintro ⟨r, hr, hlost⟩
        obtain ⟨hmem, hbenchmark⟩ := List.mem_filter.mp hr
        obtain ⟨e, he, rfl⟩ := List.mem_map.mp hmem
        exact ⟨e, he, of_decide_eq_true hbenchmark, of_decide_eq_true hlost⟩
      · rintro ⟨e, he, hbenchmark, hlost⟩
        exact ⟨e.2, List.mem_filter.mpr ⟨List.mem_map_of_mem he, decide_eq_true hbenchmark⟩,
          decide_eq_true hlost⟩

/-- The report is on record, and it is about the benchmark. -/
def Db.Reported (db : Db) (benchmarkId : Option String) (report : ConfirmedReport) : Prop :=
  (∃ id, db.reports.confirmed.lookup id = some report) ∧ benchmarkId = some report.benchmarkId

/-- The assignment was handed over, and the benchmark never became active or an arbitration on
record found a report about it nonreproducible. -/
def Db.Forfeits (db : Db) (row : Reservation) : Prop :=
  row.handedOverAt ≠ none ∧ (row.activeAtHeight = none ∨ ∃ report,
    db.Reported row.benchmarkId report ∧
      report.arbitration.map (·.result) = some .nonreproducible)

namespace Sys

variable {s s' : Sys} {a : Action} {allowed : Sys → Action → Prop}

/-- What is on record about reports only grows, and a fact on record never changes. -/
theorem Step.confirmed (hs : s.Lawful) (h : Step s a s') :
    Basis.Extends ConfirmedReport.Extends s.db.reports.confirmed s'.db.reports.confirmed := by
  by_cases hr : ∃ r, a = .report r
  · obtain ⟨r, rfl⟩ := hr
    cases h with
    | report h =>
        obtain ⟨reports, hwrites, rfl⟩ := h.writes
        exact hwrites.confirmed
  · rw [h.reports hs fun r ha => hr ⟨r, ha⟩]
    exact .refl .refl

theorem run_confirmed (hs : s.Lawful) (h : Leads Step allowed s s') :
    Basis.Extends ConfirmedReport.Extends s.db.reports.confirmed s'.db.reports.confirmed :=
  Leads.relates (R := fun s t : Sys => Basis.Extends ConfirmedReport.Extends
    s.db.reports.confirmed t.db.reports.confirmed) h hs (fun _ => .refl .refl)
    (fun h h' => Basis.Extends.trans h h' fun _ _ _ => ConfirmedReport.Extends.trans)
    (fun _ _ _ _ ht => ht.step) fun _ _ _ _ ht h => h.confirmed ht

theorem Step.reports_evidenced (hs : s.Lawful)
    (hevidenced : s.db.reports.Evidenced s.db.observation.blocks) (h : Step s a s') :
    s'.db.reports.Evidenced s'.db.observation.blocks := by
  by_cases hr : ∃ r, a = .report r
  · obtain ⟨r, rfl⟩ := hr
    cases h with
    | report h =>
        obtain ⟨reports, hwrites, rfl⟩ := h.writes
        exact hevidenced.writes hwrites
  · rw [h.reports hs fun r ha => hr ⟨r, ha⟩]
    exact hevidenced.blocks (h.blocks_extend hs)

theorem Reachable.reports_evidenced (h : Reachable allowed s) :
    s.db.reports.Evidenced s.db.observation.blocks := by
  refine Reachable.invariant
    (I := fun s => s.db.reports.Evidenced s.db.observation.blocks) h ?_ ?_
  · intro s hs
    rw [hs.reports]
    exact .empty
  · intro s a s' _ hs hevidenced hstep
    exact hstep.reports_evidenced hs.lawful hevidenced

end Sys

/-- Whenever a finalization commits an outcome for a reservation, every report on record about
its benchmark is arbitrated, and what the records say of the reservation decides: the collateral
is forfeited or returned.  Facts on record never change. -/
theorem arbitration_decides {s : Sys} (hs : Sys.Reachable Sys.Any s) :
    (∀ {s' : Sys} {identity : Uuid} {row : Reservation} {outcome : CollateralOutcome},
      Sys.Step s (.funds (.finalizeCollateral identity)) s' →
      s.db.funds.reservations.lookup identity = some row → row.collateralOutcome = none →
      (s'.db.funds.reservations.lookup identity).bind (·.collateralOutcome) = some outcome →
      (∀ report, s.db.Reported row.benchmarkId report → report.arbitration ≠ none) ∧
      (outcome = .forfeited ↔ s.db.Forfeits row) ∧ (outcome = .returned ↔ ¬ s.db.Forfeits row)) ∧
    ∀ s', Leads Sys.Step Sys.Any s s' → Basis.Extends ConfirmedReport.Extends
      s.db.reports.confirmed s'.db.reports.confirmed := by
  refine ⟨?_, fun s' h => Sys.run_confirmed hs.lawful h⟩
  intro s' identity row outcome hstep hrow hopen houtcome
  have hcommit : ∃ sealId out,
      Settlement.finalizeCollateral s.db identity sealId = .ok (s'.db, out) := by
    cases hstep with
    | funds h =>
        cases h with
        | finalizeCollateral h => exact ⟨_, _, h⟩
  obtain ⟨sealId, out, h⟩ := hcommit
  obtain ⟨sealed, hsealed, hresolved, hdecided⟩ :=
    Settlement.finalizeCollateral_decides h hrow hopen houtcome
  have hshown {report : ConfirmedReport} (hreport : s.db.Reported row.benchmarkId report) :
      ∃ e ∈ sealed.reports, some e.2.benchmarkId = row.benchmarkId ∧
        e.2.result ≠ none ∧ report.arbitration.map (·.result) = e.2.result := by
    obtain ⟨⟨id, hid⟩, hbenchmark⟩ := hreport
    obtain ⟨e, he, hsame, hresult⟩ :=
      hs.reports_evidenced.arbitrated hsealed hrow rfl hid hbenchmark
    have hrelated : some e.2.benchmarkId = row.benchmarkId := by rw [hsame, hbenchmark]
    obtain ⟨result, hr⟩ := Option.ne_none_iff_exists'.mp (hresolved e he hrelated)
    rw [hr] at hresult
    exact ⟨e, he, hrelated, hresolved e he hrelated,
      (of_decide_eq_true hresult).trans hr.symm⟩
  have hforfeits : outcome = .forfeited ↔ s.db.Forfeits row := by
    refine hdecided.trans (and_congr_right' (or_congr_right ⟨?_, ?_⟩))
    · rintro ⟨e, he, hbenchmark, hlost⟩
      obtain ⟨report, a, hreport, hsame, ha, hresult⟩ := hs.reports_evidenced.decided hsealed he hlost
      exact ⟨report, ⟨⟨e.1, hreport⟩, by rw [hsame, hbenchmark]⟩, by rw [ha, ← hresult]; rfl⟩
    · rintro ⟨report, hreport, hlost⟩
      obtain ⟨e, he, hbenchmark, -, heq⟩ := hshown hreport
      exact ⟨e, he, hbenchmark, heq.symm.trans hlost⟩
  refine ⟨fun report hreport hnone => ?_, hforfeits, ?_⟩
  · obtain ⟨e, -, -, hsome, heq⟩ := hshown hreport
    rw [hnone] at heq
    exact hsome heq.symm
  · rw [← hforfeits]
    cases outcome <;> simp

/-! ## A report that is upheld -/

namespace UpheldDay

open CreditedDay (benchmarkId evidence)
open LateDay

def report : Json := .obj [("id", .str "report"),
  ("details", .obj [("benchmark_id", .str benchmarkId), ("benchmarker", .str "pool"),
    ("nonce", .int 0), ("round", .int 1)]),
  ("state", .obj [("block_confirmed", .int 6)])]

def arbitration : Json := .obj [("report_id", .str "report"),
  ("details", .obj [("result", .str "nonreproducible")]),
  ("state", .obj [("block_confirmed", .int 7)])]

/-- The benchmark is active, and after the second round following it the report is sealed. -/
def arbitrated : Result Db := do
  let db ← worked
  let (db, _) ← recordOutcome db "benchmark" .active 2 evidence
  let db ← BlockStore.record db (source "block-8") (some (blockAt "block-8" 8 5)) none
  let (db, _) ← Reports.record db 1 "block-8"
    (.obj [("arbitrations", .arr [arbitration]), ("reports", .arr [report])]) (.obj []) none
    "capture"
  let db ← Reports.scope db 1 [1] "v1" evidence
  let (db, _) ← Reports.sealRound db 1 ["capture"] "block-8" "seal"
  return db

def day : Result (Db × Db) := do
  let db ← arbitrated
  let (db', _) ← Settlement.finalizeCollateral db "benchmark" "seal"
  return (db, db')

theorem arbitrated_reachable {db : Db} (h : arbitrated = .ok db) :
    Sys.Reachable Sys.Any ⟨db, Held.empty⟩ := by
  simp only [arbitrated, bind_eq_ok, pure_eq_ok] at h
  obtain ⟨db₁, h₁, ⟨db₂, _⟩, h₂, db₃, h₃, ⟨db₄, _⟩, h₄, db₅, h₅, ⟨db₆, _⟩, h₆, rfl⟩ := h
  have hworked : Sys.Reachable Sys.Any ⟨db₁, Held.empty⟩ := by
    obtain ⟨s₀, h₀, hrun⟩ := worked_reachable h₁
    exact ⟨s₀, h₀, hrun.mono fun _ _ _ => trivial⟩
  have hactive := (hworked.step trivial (.funds (.recordOutcome h₂))).step trivial
    (.observe (.record h₃))
  have hreported := (hactive.step trivial (.report (.record h₄))).step trivial (.report (.scope h₅))
  exact hreported.step trivial (.report (.sealRound h₆))

/-- The day, evaluated: the collateral is forfeited. -/
theorem day_spec : ∃ db db' row, Sys.Reachable Sys.Any ⟨db, Held.empty⟩ ∧
    Sys.Step ⟨db, Held.empty⟩ (.funds (.finalizeCollateral "benchmark")) ⟨db', Held.empty⟩ ∧
    db.funds.reservations.lookup "benchmark" = some row ∧ row.collateralOutcome = none ∧
    (db'.funds.reservations.lookup "benchmark").bind (·.collateralOutcome)
      = some .forfeited := by
  have hfacts : day.toOption.any (fun d =>
      (d.1.funds.reservations.lookup "benchmark").any (·.collateralOutcome = none) = true ∧
      (d.2.funds.reservations.lookup "benchmark").bind (·.collateralOutcome)
        = some .forfeited) = true := by decide +kernel
  obtain ⟨⟨db, db'⟩, hday, hfacts⟩ := (Option.any_eq_true _ _).mp hfacts
  obtain ⟨hopen, hforfeited⟩ := of_decide_eq_true hfacts
  obtain ⟨row, hrow, hnone⟩ := (Option.any_eq_true _ _).mp hopen
  have hrun := eq_ok_of_toOption hday
  simp only [day, bind_eq_ok, pure_eq_ok, Prod.mk.injEq] at hrun
  obtain ⟨_, harbitrated, ⟨_, _⟩, hfinal, rfl, rfl⟩ := hrun
  exact ⟨_, _, row, arbitrated_reachable harbitrated, .funds (.finalizeCollateral hfinal), hrow,
    of_decide_eq_true hnone, hforfeited⟩

theorem arbitration_decides_upheld : ∃ (s : Sys) (row : Reservation),
    s.db.funds.reservations.lookup "benchmark" = some row ∧ s.db.Forfeits row := by
  obtain ⟨db, db', row, hreach, hstep, hrow, hopen, hforfeited⟩ := day_spec
  exact ⟨⟨db, Held.empty⟩, row, hrow,
    ((arbitration_decides hreach).1 hstep hrow hopen hforfeited).2.1.mp rfl⟩

end UpheldDay

end TigPool
