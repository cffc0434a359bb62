/-
# `TigPool.Dispatch` — what a step can do to submissions

A submission is an intent in the outbox and the reservation that it is for.  Every
transaction of the service leaves precommits alone, or makes one, sends it, has it
answered, refuses it, cancels it, or publishes what it has become.  Each of these is read
off the operations here, once, with what the operation found; the invariants of
submissions then never look into an operation again.
-/
import TigPool.Service

namespace TigPool

open Basis

/-! ## How rows turn -/

/-- How an intent turns. -/
inductive ProtocolIntent.Turns (i : ProtocolIntent) : ProtocolIntent → Prop
  | sent {time : Time} {key : Option Json} {preflight : Option Preflight} : i.state = .ready →
      Turns i { i with state := .uncertain, sentAt := some time, matchKey := key, preflight }
  | answered {evidence : Json} : i.state = .uncertain →
      Turns i { i with state := .accepted, evidence := some evidence }
  | refused {evidence : Json} : i.state = .uncertain →
      Turns i { i with state := .rejected, evidence := some evidence }
  | retired {evidence : Json} : i.state = .ready →
      Turns i { i with state := .cancelled, evidence := some evidence }

/-- What TIG has accepted goes on, and keeps its identity and its terms. -/
structure Reservation.GoesOn (r r' : Reservation) : Prop where
  accepted : r.benchmarkId.isSome
  benchmarkId : r'.benchmarkId = r.benchmarkId
  terms : r'.terms = r.terms

theorem Reservation.Lawful.goesOn {r r' : Reservation} (h : r.Lawful) (ht : r.Turns r')
    (hsome : r.benchmarkId.isSome) : r.GoesOn r' := by
  obtain ⟨benchmarkId, hid⟩ := Option.isSome_iff_exists.mp hsome
  exact ⟨hsome, by rw [(h.extends ht).benchmarkId _ hid, hid], (h.extends ht).terms⟩

/-- Work that nothing is known about has no identity yet. -/
theorem Reservation.Shape.unnamed {r : Reservation} (h : r.Shape)
    (hs : r.state = .reserved ∨ r.state = .uncertain ∨ r.state = .rejected) :
    r.benchmarkId = none := by
  rcases hs with hs | hs | hs <;> simp_all [Shape]

theorem Reservation.Shape.named {r : Reservation} (h : r.Shape)
    (hs : r.state = .accepted ∨ r.state = .active ∨ r.state = .verificationFailed ∨
      r.state = .expired) : r.benchmarkId.isSome := by
  rcases hs with hs | hs | hs | hs <;> simp_all [Shape]

/-- Is the change one of work that TIG has accepted, or of none? -/
def Change.Settled (f : Funds) : Change → Prop
  | .reserved .. | .accepted _ | .unstarted .. => False
  | .progressed id => ∃ r, f.reservations.lookup id = some r ∧ r.benchmarkId.isSome
  | _ => True

theorem Change.Quiet.settled {f : Funds} {c : Change} (h : c.Quiet) : c.Settled f := by
  cases c <;> simp_all [Change.Quiet, Change.Settled]

/-- Only accepted work goes on, on a path of such changes. -/
theorem Funds.Path.goesOn {L : Change → Prop} {f f' : Funds} (h : Funds.Path L f f')
    (hf : f.Lawful) (hL : ∀ c, L c → c.Settled f) (id : Uuid) :
    Evolves (fun _ => False) Reservation.GoesOn (f.reservations.lookup id)
      (f'.reservations.lookup id) := by
  have hall : ∀ id, Evolves (fun _ => False) Reservation.GoesOn (f.reservations.lookup id)
      (f'.reservations.lookup id) := by
    induction h with
    | refl => exact fun id => .same
    | @step f₁ f₂ c hpath hc hs ih =>
        have hl := (Funds.Path.lawful hpath hf).rows
        have hinsert : ∀ {id r r'}, f₁.reservations.lookup id = some r → r.Turns r' →
            r.benchmarkId.isSome → ∀ k, Evolves (fun _ => False) Reservation.GoesOn
              (f.reservations.lookup k) ((AList.insert id r' f₁.reservations).lookup k) := by
          intro id r r' hr ht hsome k
          have hon := (hl.reservation hr).goesOn ht hsome
          rw [Table.lookup_insert_eq]
          split
          next heq =>
            subst heq
            have hold := ih k
            rw [hr] at hold
            generalize f.reservations.lookup k = o at hold ⊢
            cases hold with
            | same => exact .turned hon
            | made hfalse => exact hfalse.elim
            | turned hturn =>
                exact .turned ⟨hturn.accepted, hon.benchmarkId.trans hturn.benchmarkId,
                  hon.terms.trans hturn.terms⟩
          next => exact ih k
        have hsettled := hL c hc
        cases hs with
        | reserved => exact hsettled.elim
        | accepted => exact hsettled.elim
        | unstarted => exact hsettled.elim
        | @progressed id r r' hr hp =>
            refine hinsert hr (.progressed hp) ?_
            obtain ⟨r₀, hr₀, hsome⟩ := hsettled
            obtain ⟨r₁, hr₁, hsame⟩ := (ih id).relates
              (R := fun r r' : Reservation => r'.benchmarkId = r.benchmarkId) rfl
              (fun _ h => h.benchmarkId) hr₀
            obtain rfl := Option.some.inj (hr.symm.trans hr₁)
            rw [hsame]
            exact hsome
        | unhanded hr hs hnone =>
            exact hinsert hr (.unhanded hs hnone)
              ((hl.reservation hr).shape.named (Or.inl hs))
        | finalized hr hs hnone hamount =>
            exact hinsert hr (.finalized hs hnone hamount)
              ((hl.reservation hr).shape.named (Or.inr hs))
        | _ => exact ih
  exact hall id

/-! ## How states shift -/

/-- How a change moves the state of the reservation `id`. -/
def Change.Shifts (id : Uuid) (before after : ReservationState) : Change → Prop
  | .progressed i => i = id ∧ (before = .reserved ∧ after = .uncertain ∨
      before = .accepted ∧ (after = .accepted ∨ after = .active ∨ after = .verificationFailed ∨
        after = .expired))
  | .accepted i => i = id ∧ before = .uncertain ∧ after = .accepted
  | .unstarted i _ => i = id ∧ (before = .uncertain ∧ after = .rejected ∨
      before = .reserved ∧ after = .cancelled)
  | .unhanded i _ => i = id ∧ before = .accepted ∧ after = .cancelled
  | _ => False

/-- Does the change resolve the collateral of the reservation `id`? -/
def Change.Releases (id : Uuid) : Change → Prop
  | .unstarted i _ | .unhanded i _ | .finalized i _ => i = id
  | _ => False

/-- Does it settle what becomes of the fee that the reservation commits? -/
def Change.Charges (id : Uuid) : Change → Prop
  | .accepted i | .unstarted i _ => i = id
  | _ => False

namespace Funds

variable {f f' : Funds} {c : Change}

theorem Step.shifts (h : Step f c f') {id : Uuid} {r : Reservation}
    (hr : f.reservations.lookup id = some r) : ∃ r', f'.reservations.lookup id = some r' ∧
      (r'.state = r.state ∨ c.Shifts id r.state r'.state) := by
  have hinsert : ∀ {i r₁ r₂}, f.reservations.lookup i = some r₁ →
      (i = id → r₂.state = r₁.state ∨ c.Shifts id r₁.state r₂.state) →
      ∃ r', (AList.insert i r₂ f.reservations).lookup id = some r' ∧
        (r'.state = r.state ∨ c.Shifts id r.state r'.state) := by
    intro i r₁ r₂ hr₁ hshift
    rw [Table.lookup_insert_eq]
    split
    next heq =>
      subst heq
      obtain rfl := Option.some.inj (hr.symm.trans hr₁)
      exact ⟨r₂, rfl, hshift rfl⟩
    next => exact ⟨r, hr, .inl rfl⟩
  cases h with
  | @reserved i r₁ member ledger hnone =>
      refine ⟨r, ?_, .inl rfl⟩
      rw [Table.lookup_insert_eq, if_neg, hr]
      rintro rfl
      rw [hnone] at hr
      cases hr
  | progressed hr₁ hp =>
      refine hinsert hr₁ fun heq => ?_
      cases hp with
      | submitting hs => exact .inr ⟨heq, .inl ⟨hs, rfl⟩⟩
      | handedOver => exact .inl rfl
      | @outcome o height hs => cases o <;> simp [Change.Shifts, heq, hs, DefinitiveOutcome.state]
  | accepted hr₁ hs => exact hinsert hr₁ fun heq => .inr ⟨heq, hs, rfl⟩
  | unstarted hr₁ hs => exact hinsert hr₁ fun heq => .inr ⟨heq, hs⟩
  | unhanded hr₁ hs => exact hinsert hr₁ fun heq => .inr ⟨heq, hs, rfl⟩
  | finalized hr₁ => exact hinsert hr₁ fun _ => .inl rfl
  | _ => exact ⟨r, hr, .inl rfl⟩

theorem Step.money (h : Step f c f') {id : Uuid} {r : Reservation}
    (hr : f.reservations.lookup id = some r) : ∃ r', f'.reservations.lookup id = some r' ∧
      (r'.collateralOutcome = r.collateralOutcome ∨ c.Releases id) ∧
      (r'.feeActual = r.feeActual ∨ c.Charges id) := by
  have hinsert : ∀ {i r₁ r₂}, f.reservations.lookup i = some r₁ →
      (r₂.collateralOutcome = r₁.collateralOutcome ∨ (i = id → c.Releases id)) →
      (r₂.feeActual = r₁.feeActual ∨ (i = id → c.Charges id)) →
      ∃ r', (AList.insert i r₂ f.reservations).lookup id = some r' ∧
        (r'.collateralOutcome = r.collateralOutcome ∨ c.Releases id) ∧
        (r'.feeActual = r.feeActual ∨ c.Charges id) := by
    intro i r₁ r₂ hr₁ hreleases hcharges
    rw [Table.lookup_insert_eq]
    split
    next heq =>
      subst heq
      obtain rfl := Option.some.inj (hr.symm.trans hr₁)
      exact ⟨r₂, rfl, hreleases.imp_right (· rfl), hcharges.imp_right (· rfl)⟩
    next => exact ⟨r, hr, .inl rfl, .inl rfl⟩
  cases h with
  | @reserved i r₁ member ledger hnone =>
      refine ⟨r, ?_, .inl rfl, .inl rfl⟩
      rw [Table.lookup_insert_eq, if_neg, hr]
      rintro rfl
      rw [hnone] at hr
      cases hr
  | progressed hr₁ hp => cases hp <;> exact hinsert hr₁ (.inl rfl) (.inl rfl)
  | accepted hr₁ => exact hinsert hr₁ (.inl rfl) (.inr fun heq => heq)
  | unstarted hr₁ => exact hinsert hr₁ (.inr fun heq => heq) (.inr fun heq => heq)
  | unhanded hr₁ => exact hinsert hr₁ (.inr fun heq => heq) (.inl rfl)
  | finalized hr₁ => exact hinsert hr₁ (.inr fun heq => heq) (.inl rfl)
  | _ => exact ⟨r, hr, .inl rfl, .inl rfl⟩

/-- Where no allowed change resolves the collateral, none of them together does; and so for
the fee. -/
theorem Path.money {L : Change → Prop} (h : Path L f f') {id : Uuid} {r : Reservation}
    (hr : f.reservations.lookup id = some r) : ∃ r', f'.reservations.lookup id = some r' ∧
      (r'.collateralOutcome = r.collateralOutcome ∨ ∃ c, L c ∧ c.Releases id) ∧
      (r'.feeActual = r.feeActual ∨ ∃ c, L c ∧ c.Charges id) := by
  induction h with
  | refl => exact ⟨r, hr, .inl rfl, .inl rfl⟩
  | step hpath hc hs ih =>
      obtain ⟨r₁, hr₁, houtcome₁, hfee₁⟩ := ih
      obtain ⟨r₂, hr₂, houtcome₂, hfee₂⟩ := hs.money hr₁
      refine ⟨r₂, hr₂, ?_, ?_⟩
      · rcases houtcome₂ with hsame | hreleases
        · rwa [hsame]
        · exact .inr ⟨_, hc, hreleases⟩
      · rcases hfee₂ with hsame | hcharges
        · rwa [hsame]
        · exact .inr ⟨_, hc, hcharges⟩

/-- What no allowed change takes a state out of, no path of them does. -/
theorem Path.states {L : Change → Prop} {P : ReservationState → Prop} (h : Path L f f') {id : Uuid}
    {r : Reservation} (hr : f.reservations.lookup id = some r) (hP : P r.state)
    (hclosed : ∀ c before after, L c → P before → c.Shifts id before after → P after) :
    ∃ r', f'.reservations.lookup id = some r' ∧ P r'.state := by
  induction h with
  | refl => exact ⟨r, hr, hP⟩
  | step hpath hc hs ih =>
      obtain ⟨r₁, hr₁, hP₁⟩ := ih
      obtain ⟨r₂, hr₂, heq | hshift⟩ := hs.shifts hr₁
      · exact ⟨r₂, hr₂, by rw [heq]; exact hP₁⟩
      · exact ⟨r₂, hr₂, hclosed _ _ _ hc hP₁ hshift⟩

/-- Where a reservation on record comes from. -/
theorem Step.reservation_back (hl : f.LawfulRows) (h : Step f c f') {id : Uuid} {r : Reservation}
    (hr : f'.reservations.lookup id = some r) :
    (∃ r₀, f.reservations.lookup id = some r₀ ∧ r₀.Extends r) ∨
      c = .reserved id r.memberId r.creationRound := by
  have hturn : ∀ {i r₁ r₂}, f.reservations.lookup i = some r₁ → r₁.Turns r₂ →
      (AList.insert i r₂ f.reservations).lookup id = some r →
      ∃ r₀, f.reservations.lookup id = some r₀ ∧ r₀.Extends r := by
    intro i r₁ r₂ hr₁ ht hx
    rcases Table.lookup_insert_cases hx with ⟨rfl, rfl⟩ | ⟨-, hx⟩
    · exact ⟨r₁, hr₁, (hl.reservation hr₁).extends ht⟩
    · exact ⟨r, hx, .refl r⟩
  cases h with
  | reserved =>
      rcases Table.lookup_insert_cases hr with ⟨rfl, rfl⟩ | ⟨-, hr⟩
      · exact Or.inr rfl
      · exact Or.inl ⟨r, hr, .refl r⟩
  | progressed hx hp => exact Or.inl (hturn hx (.progressed hp) hr)
  | accepted hx hs hle => exact Or.inl (hturn hx (.accepted hs hle) hr)
  | unstarted hx hs hle => exact Or.inl (hturn hx (.unstarted hs hle) hr)
  | unhanded hx hs hnone => exact Or.inl (hturn hx (.unhanded hs hnone) hr)
  | finalized hx hs hnone hamount => exact Or.inl (hturn hx (.finalized hs hnone hamount) hr)
  | _ => exact Or.inl ⟨r, hr, .refl r⟩

end Funds

/-- Where a reservation on record comes from, after any number of changes. -/
theorem Funds.Path.reservation_back {L : Change → Prop} {f f' : Funds} (h : Funds.Path L f f')
    (hf : f.Lawful) {id : Uuid} {r : Reservation} (hr : f'.reservations.lookup id = some r) :
    (∃ r₀, f.reservations.lookup id = some r₀ ∧ r₀.Extends r) ∨ ∃ m n, L (.reserved id m n) := by
  induction h generalizing r with
  | refl => exact Or.inl ⟨r, hr, .refl r⟩
  | step hpath hc hs ih =>
      rcases hs.reservation_back (Funds.Path.lawful hpath hf).rows hr with ⟨r₁, hr₁, hx⟩ | rfl
      · refine (ih hr₁).imp_left ?_
        rintro ⟨r₀, hr₀, hx₀⟩
        exact ⟨r₀, hr₀, hx₀.trans hx⟩
      · exact Or.inr ⟨_, _, hc⟩

end TigPool
