/-
# `TigPool.Outcomes` — an outcome rests on a saved block

The outcome of a reservation is final, and only a reconciler records one.  `Upheld` says what
stands behind it: a visit, that is a replay of a saved block and the pool's feed in it, whose
verdict is the outcome.  What the reconciler had read before it recorded the outcome is not
overtaken by what other transactions do in between, since none of it is ever taken back.
-/
import TigPool.Reconciler

namespace TigPool

open Basis

/-! ## Outcomes are final -/

/-- The work has an outcome. -/
def Reservation.Over (r : Reservation) : Prop :=
  r.state = .active ∨ r.state = .verificationFailed ∨ r.state = .expired

/-- The outcome is the same. -/
structure Reservation.SameEnd (r r' : Reservation) : Prop where
  state : r'.state = r.state
  activeAtHeight : r'.activeAtHeight = r.activeAtHeight

namespace Reservation

variable {r r' r'' : Reservation}

theorem SameEnd.refl (r : Reservation) : r.SameEnd r := ⟨rfl, rfl⟩

theorem SameEnd.trans (h : r.SameEnd r') (h' : r'.SameEnd r'') : r.SameEnd r'' :=
  ⟨h'.state.trans h.state, h'.activeAtHeight.trans h.activeAtHeight⟩

theorem SameEnd.over (h : r.SameEnd r') : r'.Over ↔ r.Over := by
  rw [Over, Over, h.state]

theorem Over.not_accepted (h : r.Over) : r.state ≠ .accepted := by
  rintro hs
  rcases h with h | h | h <;> rw [hs] at h <;> cases h

theorem Over.turns (h : r.Over) (ht : r.Turns r') : r.SameEnd r' := by
  have hnot : ∀ {state}, r.state = state →
      state ≠ .active ∧ state ≠ .verificationFailed ∧ state ≠ .expired → False := by
    rintro state rfl ⟨h₁, h₂, h₃⟩
    rcases h with h | h | h <;> contradiction
  cases ht with
  | progressed hp => cases hp with
    | submitting hs => exact (hnot hs (by simp)).elim
    | handedOver hs => exact (hnot hs (by simp)).elim
    | outcome hs => exact (hnot hs (by simp)).elim
  | accepted hs => exact (hnot hs (by simp)).elim
  | unstarted hs =>
      rcases hs with ⟨hs, -⟩ | ⟨hs, -⟩ <;> exact (hnot hs (by simp)).elim
  | unhanded hs => exact (hnot hs (by simp)).elim
  | finalized => exact ⟨rfl, rfl⟩

end Reservation

theorem Funds.Path.sameEnd {L : Change → Prop} {f f' : Funds} (hf : f.Lawful) (h : Path L f f') :
    Basis.Extends (fun r r' : Reservation => r.Over → r.SameEnd r') f.reservations
      f'.reservations := by
  have hboth : f'.Lawful ∧ Basis.Extends (fun r r' : Reservation => r.Over → r.SameEnd r')
      f.reservations f'.reservations := by
    induction h with
    | refl => exact ⟨hf, .refl fun r _ => .refl r⟩
    | step hpath hc hs ih =>
        obtain ⟨hl, hkept⟩ := ih
        have hstep : Basis.Extends (fun r r' : Reservation => r.Over → r.SameEnd r') _ _ :=
          .of_evolves (fun r _ => .refl r) (fun _ ht hover => hover.turns ht) hs.reservation
        refine ⟨Funds.Path.lawful (.step hpath hc hs) hf, hkept.trans hstep ?_⟩
        intro r r' r'' h h' hover
        exact (h hover).trans (h' ((h hover).over.mpr hover))
  exact hboth.2

/-! ## Who records outcomes -/

namespace Funds

/-- Outcomes are those on record. -/
def EndsNothing (f f' : Funds) : Prop :=
  Backs Reservation.Over Reservation.SameEnd f.reservations f'.reservations

namespace EndsNothing

variable {f f' f'' : Funds}

theorem of_eq (h : f'.reservations = f.reservations) : EndsNothing f f' :=
  Backs.of_eq Reservation.SameEnd.refl h

theorem trans (h : EndsNothing f f') (h' : EndsNothing f' f'') : EndsNothing f f'' :=
  Backs.trans h h' (fun _ _ hsame => hsame.over.mp) fun _ _ _ => .trans

/-- One reservation is written, and has no outcome, or the one it had. -/
theorem put {id : Uuid} {r' : Reservation} (hput : f'.reservations = AList.insert id r' f.reservations)
    (h : ¬ r'.Over ∨ ∃ r, f.reservations.lookup id = some r ∧ r.SameEnd r') :
    EndsNothing f f' :=
  Backs.put Reservation.SameEnd.refl hput fun hover => h.resolve_left (not_not_intro hover)

end EndsNothing

variable {f f' : Funds} {c : Change} {L : Change → Prop}

theorem Step.endsNothing (h : Step f c f') (hc : ∀ id, c ≠ .progressed id) :
    EndsNothing f f' := by
  cases h with
  | reserved _ hfresh =>
      refine .put rfl (.inl ?_)
      rw [Reservation.Over, hfresh.state]
      simp
  | progressed => exact absurd rfl (hc _)
  | accepted => exact .put rfl (.inl (by simp [Reservation.Over]))
  | unstarted _ hstate =>
      refine .put rfl (.inl ?_)
      rcases hstate with ⟨-, rfl⟩ | ⟨-, rfl⟩ <;> simp [Reservation.Over]
  | unhanded => exact .put rfl (.inl (by simp [Reservation.Over]))
  | finalized hr => exact .put rfl (.inr ⟨_, hr, rfl, rfl⟩)
  | _ => exact .of_eq rfl

theorem Path.endsNothing (h : Path L f f') (hL : ∀ id, ¬ L (.progressed id)) :
    EndsNothing f f' := by
  induction h with
  | refl => exact .of_eq rfl
  | step _ hc hs ih =>
      refine ih.trans (hs.endsNothing ?_)
      rintro id rfl
      exact hL id hc

end Funds

theorem markSubmitting_endsNothing {db db' : Db} {identity : Uuid} {around : Surroundings}
    {out : Json} (h : markSubmitting db identity around = .ok (db', out)) :
    db.funds.EndsNothing db'.funds := by
  obtain ⟨r, _, events, -, -, -, -, -, -, rfl⟩ := markSubmitting_spec h
  exact .put rfl (.inl (by simp [Reservation.Over]))

theorem acknowledge_endsNothing {db db' : Db} {identity member out : Uuid} {digest : Json}
    (h : acknowledge db identity member digest = .ok (db', out)) :
    db.funds.EndsNothing db'.funds := by
  obtain ⟨row, hrow, rfl | ⟨events, -, -, rfl⟩⟩ := acknowledge_spec h
  · exact .of_eq rfl
  · exact .put rfl (.inr ⟨row, hrow, rfl, rfl⟩)

namespace Sys

variable {s s' : Sys} {a : Action}

/-- Other transactions record no outcome. -/
theorem Step.endsNothing (hs : s.Lawful) (ha : Whole s a) (hne : Reconciliation.ends a = false)
    (h : Step s a s') :
    s.db.funds.EndsNothing s'.db.funds := by
  have hpath (hquiet : ∀ id, ¬ a.does s.db (.progressed id)) :
      s.db.funds.EndsNothing s'.db.funds :=
    Funds.Path.endsNothing (h.path hs) hquiet
  cases h with
  | funds h =>
      cases h with
      | markSubmitting => exact absurd (ha _ rfl) (by simp [FundsPart])
      | acknowledge h => exact acknowledge_endsNothing h
      | recordOutcome => cases hne
      | _ => exact hpath (by simp [Action.does, FundsAction.does, Change.Quiet])
  | work h =>
      cases h with
      | begin h =>
          obtain ⟨row, intent, -, -, hcases⟩ := Submissions.begin_spec h
          rcases hcases with ⟨-, found, u, db₁, payload, -, -, hmark, rfl⟩ | ⟨-, -, -, -, rfl⟩
          · have hmarked := markSubmitting_endsNothing hmark
            exact hmarked
          · exact .of_eq rfl
      | expireUnsentResults | expireRejectedResults => cases hne
      | _ => exact hpath (by simp [Action.does, WorkAction.does, Change.Quiet])
  | _ => exact hpath (by simp [Action.does, Change.Quiet])

end Sys

/-! ## Nothing is taken back -/

/-- Once it is known what became of an intent, it rests. -/
structure ProtocolIntent.Follows (i i' : ProtocolIntent) : Prop where
  reservationId : i'.reservationId = i.reservationId
  kind : i'.kind = i.kind
  settled : i.state ≠ .ready → i.state ≠ .uncertain → i' = i

theorem ProtocolIntent.Turns.follows {i i' : ProtocolIntent} (h : i.Turns i') : i.Follows i' := by
  cases h with
  | sent hs | retired hs => exact ⟨rfl, rfl, fun hready => absurd hs hready⟩
  | answered hs | refused hs => exact ⟨rfl, rfl, fun _ hun => absurd hs hun⟩

/-- A reservation keeps what a reconciler reads of it. -/
structure Reservation.Follows (r r' : Reservation) : Prop where
  selection : r'.selection = r.selection
  assigned : r.Assigned r'
  handed : r.handedOverAt.isSome → r'.handedOverAt.isSome
  sameEnd : r.Over → r.SameEnd r'

/-- What a reconciler reads stays on record, and nothing is queued or answered for work that
is over. -/
structure Db.Later (db db' : Db) : Prop where
  blocks : Basis.Extends ObservedBlock.Extends db.observation.blocks db'.observation.blocks
  payloads : Basis.Extends Eq db.work.benchmarkPayloads db'.work.benchmarkPayloads
  reservations : Basis.Extends Reservation.Follows db.funds.reservations db'.funds.reservations
  intents : Basis.Extends ProtocolIntent.Follows db.work.protocolOutbox db'.work.protocolOutbox
  responses : Basis.Extends Eq db.work.submissionResponses db'.work.submissionResponses
  queued : ∀ {id r}, db.funds.reservations.lookup id = some r → r.Over →
    Backs (fun i : ProtocolIntent => i.reservationId = id ∧ i.kind ≠ .precommit)
      ProtocolIntent.Follows db.work.protocolOutbox db'.work.protocolOutbox
  answered : Backs (fun row : SubmissionResponse =>
      ∀ i, db.work.protocolOutbox.lookup row.outboxId = some i →
        i.state ≠ .uncertain ∧ i.state ≠ .accepted)
    Eq db.work.submissionResponses db'.work.submissionResponses

theorem ProtocolIntent.Follows.refl (i : ProtocolIntent) : i.Follows i := ⟨rfl, rfl, fun _ _ => rfl⟩

theorem Reservation.Follows.refl (r : Reservation) : r.Follows r :=
  ⟨rfl, fun _ => ⟨rfl, rfl, rfl⟩, fun h => h, fun _ => .refl r⟩

theorem Db.Later.refl (db : Db) : db.Later db where
  blocks := .refl .refl
  payloads := .refl fun _ => rfl
  reservations := .refl .refl
  intents := .refl .refl
  responses := .refl fun _ => rfl
  queued _ _ := .of_eq .refl rfl
  answered := .of_eq (fun _ => rfl) rfl

namespace Db

variable {db db' : Db}

/-- Uploads are queued for accepted work only. -/
theorem Dispatches.queued (h : db.Dispatches db') {id : Uuid} {r : Reservation}
    (hr : db.funds.reservations.lookup id = some r) (hover : r.Over) :
    Backs (fun i : ProtocolIntent => i.reservationId = id ∧ i.kind ≠ .precommit)
      ProtocolIntent.Follows db.work.protocolOutbox db'.work.protocolOutbox := by
  have hturn : ∀ {k i i'}, db.work.protocolOutbox.lookup k = some i → i.Turns i' →
      db'.work.protocolOutbox = AList.insert k i' db.work.protocolOutbox →
      Backs (fun i : ProtocolIntent => i.reservationId = id ∧ i.kind ≠ .precommit)
        ProtocolIntent.Follows db.work.protocolOutbox db'.work.protocolOutbox :=
    fun hi ht hput => .put .refl hput fun _ => ⟨_, hi, ht.follows⟩
  cases h with
  | rests h =>
      intro k i' hi' _
      exact (h.outbox k).back (.refl i') (fun _ ht => ht.2.follows) hi'
  | uploaded hup _ hput =>
      refine .put .refl hput ?_
      rintro ⟨rfl, -⟩
      obtain ⟨r', hr', hstate, -⟩ := hup.reservation
      obtain rfl := Option.some.inj (hr.symm.trans hr')
      exact absurd hstate hover.not_accepted
  | reserved _ _ _ _ hof _ _ hput => exact .put .refl hput fun h => absurd hof.kind h.2
  | authorised hi _ hready _ _ _ hput => exact hturn hi (.sent hready) hput
  | withdrawn hi _ hready _ _ hput => exact hturn hi (.retired hready) hput
  | answered hi _ hun _ hput => exact hturn hi (.answered hun) hput
  | refused hi _ hun _ _ hput => exact hturn hi (.refused hun) hput
  | published _ _ _ hput => exact .of_eq .refl hput

end Db

theorem Submissions.recordResponse_fresh {db db' : Db} {identity responseId : Uuid}
    {response : Wire} {limits : Wire → Bool} {out : Bool}
    (h : recordResponse db identity response responseId limits = .ok (db', out)) :
    responseId ∉ db.work.submissionResponses := by
  simp only [recordResponse, bind_eq_ok, require_eq_ok, exists_const] at h
  obtain ⟨-, _, -, -, _, -, hfresh, -⟩ := h
  exact hfresh

namespace Sys

variable {s s' : Sys} {a : Action}

/-- Only an intent that may have been sent is answered. -/
theorem Step.answered (hs : s.Lawful) (h : Step s a s') :
    Basis.Extends Eq s.db.work.submissionResponses s'.db.work.submissionResponses ∧
    Backs (fun row : SubmissionResponse =>
        ∀ i, s.db.work.protocolOutbox.lookup row.outboxId = some i →
          i.state ≠ .uncertain ∧ i.state ≠ .accepted)
      Eq s.db.work.submissionResponses s'.db.work.submissionResponses := by
  by_cases hne : ∀ k, a ≠ .work (.recordResponse k)
  · rw [h.responses hs hne]
    exact ⟨.refl fun _ => rfl, .of_eq (fun _ => rfl) rfl⟩
  simp only [not_forall, not_not] at hne
  obtain ⟨k, rfl⟩ := hne
  cases h with
  | work h =>
      cases h with
      | @recordResponse _ responseId response limits out _ h =>
          obtain ⟨row, intent, _, _, hlocked, hstate, -⟩ := Submissions.recordResponse_spec h
          have hi := (Submissions.locked_spec hlocked).1
          obtain ⟨stored, -, hrows⟩ := (Submissions.recordResponse_frame h).1
          have hfresh := Submissions.recordResponse_fresh h
          refine ⟨?_, .put (fun _ => rfl) hrows fun hnot => ?_⟩
          · rw [hrows]
            exact .fresh (fun _ => rfl) (AList.lookup_eq_none.mpr hfresh)
          · obtain ⟨hun, hacc⟩ := hnot _ hi
            exact (hstate.elim hun hacc).elim

theorem Step.follows (hw : s.Works) (h : Step s a s') :
    Basis.Extends Reservation.Follows s.db.funds.reservations s'.db.funds.reservations := by
  have hs := hw.reachable.lawful
  intro id r hr
  obtain ⟨r', hr', hx⟩ := (h.extends hs).reservation hr
  obtain ⟨r₁, hr₁, hassigned⟩ := h.assigned hs hr
  obtain ⟨r₂, hr₂, hsame⟩ := Funds.Path.sameEnd hs.funds (h.path hs) hr
  obtain rfl := Option.some.inj (hr'.symm.trans hr₁)
  obtain rfl := Option.some.inj (hr'.symm.trans hr₂)
  have hselection := congrArg Reservation.selection hx.terms
  exact ⟨r', hr', hselection, hassigned, hx.handedOverAt.isSome, hsame⟩

theorem Step.later (hw : s.Works) (ha : Whole s a) (h : Step s a s') : s.db.Later s'.db where
  blocks := h.blocks_extend hw.reachable.lawful
  payloads := (hw.persists ha h).payloads
  reservations := h.follows hw
  intents := .of_evolves ProtocolIntent.Follows.refl (fun _ => ProtocolIntent.Turns.follows)
    (h.dispatches hw.reachable.lawful hw.reachable.coupled ha).intents
  responses := (h.answered hw.reachable.lawful).1
  queued := (h.dispatches hw.reachable.lawful hw.reachable.coupled ha).queued
  answered := (h.answered hw.reachable.lawful).2

end Sys

end TigPool
