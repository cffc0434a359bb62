/-
# `TigPool.Limits` — what the service never lets happen

Four limits on members and the operator, each enforced when a row is made and
kept by everything that happens to it later: two benchmark slots for a member, one
pending withdrawal for a member and for the operator, seven days between a payment
and the next request, and a collateral multiplier that is the one in force when the
reservation was made.
-/
import TigPool.Evidence

namespace TigPool

open Basis

namespace Funds

variable {f f' : Funds} {c : Change}

/-! ## Slots -/

/-- The benchmark slots a member occupies. -/
def slots (f : Funds) (member : Uuid) : ℕ :=
  f.reservations.count fun _ r => r.memberId = member ∧ r.slotHeld

theorem Reservation.Progress.slot {r r' : Reservation} (h : r.Progress r') :
    r'.memberId = r.memberId ∧ (r'.slotHeld = true → r.slotHeld = true) := by
  cases h with
  | submitting => exact ⟨rfl, id⟩
  | handedOver => exact ⟨rfl, id⟩
  | outcome => exact ⟨rfl, fun h => by cases h⟩

theorem slots_step (hs : ∀ m, f.slots m ≤ 2) (h : Step f c f') (m : Uuid) : f'.slots m ≤ 2 := by
  have hput : ∀ {id r r'}, f.reservations.lookup id = some r → r'.memberId = r.memberId →
      (r'.slotHeld = true → r.slotHeld = true) →
      Table.count (AList.insert id r' f.reservations) (fun _ r => r.memberId = m ∧ r.slotHeld)
        ≤ 2 := by
    intro id r r' hr hmember hslot
    refine (Table.count_insert_le hr ?_).trans (hs m)
    simpa [hmember] using fun heq hheld => ⟨heq, hslot hheld⟩
  cases h with
  | @reserved _ r _ _ hnone _ _ _ _ hcount =>
      rw [slots, Table.count_insert_fresh hnone]
      by_cases hm : r.memberId = m
      · subst hm
        split <;> omega
      · have hm' : (decide (r.memberId = m ∧ r.slotHeld = true)) = false := by simp [hm]
        rw [hm']
        exact hs m
  | progressed hr hp => exact hput hr (Reservation.Progress.slot hp).1 (Reservation.Progress.slot hp).2
  | accepted hr => exact hput hr rfl id
  | unstarted hr => exact hput hr rfl fun h => by cases h
  | unhanded hr => exact hput hr rfl fun h => by cases h
  | finalized hr => exact hput hr rfl id
  | _ => exact hs m

/-! ## Pending withdrawals -/

/-- No two pending withdrawals are for the same member, or both for the operator. -/
def OnePending (withdrawals : Table Uuid Withdrawal) : Prop :=
  ∀ ⦃id w id' w'⦄, withdrawals.lookup id = some w → withdrawals.lookup id' = some w' →
    w.state.isPending = true → w'.state.isPending = true → w.memberId = w'.memberId →
      w.kind = w'.kind → id = id'

theorem OnePending.put {withdrawals : Table Uuid Withdrawal} {id : Uuid} {w w' : Withdrawal}
    (h : OnePending withdrawals) (hw : withdrawals.lookup id = some w)
    (hmember : w'.memberId = w.memberId) (hkind : w'.kind = w.kind)
    (hpending : w'.state.isPending = true → w.state.isPending = true) :
    OnePending (AList.insert id w' withdrawals) := by
  intro i w₁ j w₂ h₁ h₂ hp₁ hp₂ hm hk
  rcases Table.lookup_insert_cases h₁ with ⟨rfl, rfl⟩ | ⟨hi, h₁'⟩ <;>
    rcases Table.lookup_insert_cases h₂ with ⟨rfl, rfl⟩ | ⟨hj, h₂'⟩
  · rfl
  · exact h hw h₂' (hpending hp₁) hp₂ (hmember.symm.trans hm) (hkind.symm.trans hk)
  · exact h h₁' hw hp₁ (hpending hp₂) (hm.trans hmember) (hk.trans hkind)
  · exact h h₁' h₂' hp₁ hp₂ hm hk

theorem OnePending.step (ho : OnePending f.withdrawals) (h : Step f c f') :
    OnePending f'.withdrawals := by
  cases h with
  | requested hnone _ _ _ _ hothers =>
      intro i w₁ j w₂ h₁ h₂ hp₁ hp₂ hm hk
      rcases Table.lookup_insert_cases h₁ with ⟨rfl, rfl⟩ | ⟨hi, h₁'⟩ <;>
        rcases Table.lookup_insert_cases h₂ with ⟨rfl, rfl⟩ | ⟨hj, h₂'⟩
      · rfl
      · exact absurd ⟨hm.symm, hk.symm⟩ (hothers h₂' hp₂)
      · exact absurd ⟨hm, hk⟩ (hothers h₁' hp₁)
      · exact ho h₁' h₂' hp₁ hp₂ hm hk
  | approved hw hs => exact ho.put hw rfl rfl fun _ => by rw [hs]; rfl
  | released hw hs =>
      refine ho.put hw rfl rfl fun _ => ?_
      rcases hs with hs | hs <;> rw [hs] <;> rfl
  | begun hw hs => exact ho.put hw rfl rfl fun _ => by rw [hs]; rfl
  | unpaid _ _ _ hw hs => exact ho.put hw rfl rfl fun _ => by rw [hs]; rfl
  | paid _ _ _ hw hs => exact ho.put hw rfl rfl fun h => by cases h
  | _ => exact ho

/-! ## Multipliers -/

/-- A member's multiplier at a revision, from the log of changes. -/
def multiplierAt (f : Funds) (member : Uuid) (revision : ℕ) : Option Multiplier :=
  if revision = 0 then some .one
  else (f.multiplierChanges.lookup (member, revision)).map (·.newValue)

structure Priced (f : Funds) : Prop where
  member : ∀ {m row}, f.members.lookup m = some row →
    f.multiplierAt m row.multiplierRevision = some row.multiplier
  /-- The frozen multiplier is the member's at the frozen revision. -/
  reservation : ∀ {id r}, f.reservations.lookup id = some r →
    f.multiplierAt r.memberId r.multiplierRevision = some r.multiplier

theorem Priced.empty : empty.Priced where
  member h := by cases h
  reservation h := by cases h

theorem multiplierAt_mono (h : f.Extends f') {m : Uuid} {n : ℕ} {value : Multiplier}
    (hm : f.multiplierAt m n = some value) : f'.multiplierAt m n = some value := by
  unfold multiplierAt at *
  split
  next hn => rwa [if_pos hn] at hm
  next hn =>
    rw [if_neg hn, Option.map_eq_some_iff] at hm
    obtain ⟨change, hchange, hvalue⟩ := hm
    rw [h.multiplierChange.lookup hchange, Option.map_some, hvalue]

theorem Priced.step (hl : f.LawfulRows) (hp : f.Priced) (h : Step f c f') : f'.Priced := by
  have hext := h.extends hl
  constructor
  · intro m row hrow
    have hold : ∀ {row₀}, f.members.lookup m = some row₀ →
        row₀.multiplierRevision = row.multiplierRevision → row₀.multiplier = row.multiplier →
        f'.multiplierAt m row.multiplierRevision = some row.multiplier := by
      intro row₀ hrow₀ hrev hvalue
      rw [← hrev, ← hvalue]
      exact multiplierAt_mono hext (hp.member hrow₀)
    cases h with
    | memberRegistered _ hone hzero =>
        rcases Table.lookup_insert_cases hrow with ⟨rfl, rfl⟩ | ⟨-, hrow⟩
        · rw [hzero, hone]
          rfl
        · exact hold hrow rfl rfl
    | walletSet hold' =>
        rcases Table.lookup_insert_cases hrow with ⟨rfl, rfl⟩ | ⟨-, hrow⟩
        · exact hold hold' rfl rfl
        · exact hold hrow rfl rfl
    | multiplierSet =>
        rcases Table.lookup_insert_cases hrow with ⟨rfl, rfl⟩ | ⟨-, hrow⟩
        · simp [multiplierAt]
        · exact hold hrow rfl rfl
    | paid _ _ _ _ _ _ _ _ _ _ _ _ _ _ _ _ hmembers =>
        rw [hmembers, Option.map_eq_some_iff] at hrow
        obtain ⟨row₀, hrow₀, rfl⟩ := hrow
        refine hold hrow₀ ?_ ?_ <;> split <;> rfl
    | _ => exact hold hrow rfl rfl
  · intro id r hr
    have hold : ∀ {r₀}, f.reservations.lookup id = some r₀ → r₀.Extends r →
        f'.multiplierAt r.memberId r.multiplierRevision = some r.multiplier := by
      intro r₀ hr₀ hx
      have hvalue := multiplierAt_mono hext (hp.reservation hr₀)
      have hrev := congrArg Reservation.multiplierRevision hx.terms
      have hmult := congrArg Reservation.multiplier hx.terms
      rw [hx.memberId]
      exact hrev ▸ hmult ▸ hvalue
    cases h with
    | reserved hnone _ hmember hvalue hrev =>
        rcases Table.lookup_insert_cases hr with ⟨rfl, rfl⟩ | ⟨-, hr⟩
        · rw [hrev, hvalue]
          exact multiplierAt_mono hext (hp.member hmember)
        · exact hold hr (.refl _)
    | progressed hr₀ ht =>
        rcases Table.lookup_insert_cases hr with ⟨rfl, rfl⟩ | ⟨-, hr⟩
        · exact hold hr₀ ((hl.reservation hr₀).extends (.progressed ht))
        · exact hold hr (.refl _)
    | accepted hr₀ hs hactual =>
        rcases Table.lookup_insert_cases hr with ⟨rfl, rfl⟩ | ⟨-, hr⟩
        · exact hold hr₀ ((hl.reservation hr₀).extends (.accepted hs hactual))
        · exact hold hr (.refl _)
    | unstarted hr₀ hs hactual =>
        rcases Table.lookup_insert_cases hr with ⟨rfl, rfl⟩ | ⟨-, hr⟩
        · exact hold hr₀ ((hl.reservation hr₀).extends (.unstarted hs hactual))
        · exact hold hr (.refl _)
    | unhanded hr₀ hs hnone =>
        rcases Table.lookup_insert_cases hr with ⟨rfl, rfl⟩ | ⟨-, hr⟩
        · exact hold hr₀ ((hl.reservation hr₀).extends (.unhanded hs hnone))
        · exact hold hr (.refl _)
    | finalized hr₀ hs hnone hamount =>
        rcases Table.lookup_insert_cases hr with ⟨rfl, rfl⟩ | ⟨-, hr⟩
        · exact hold hr₀ ((hl.reservation hr₀).extends (.finalized hs hnone hamount))
        · exact hold hr (.refl _)
    | _ => exact hold hr (.refl _)

/-! ## Seven days -/

/-- The attempt has paid a withdrawal of the member, by a transaction of this time. -/
def PaidAt (f : Funds) (aid member : Uuid) (time : Time) : Prop :=
  ∃ a o w tx, f.withdrawalAttempts.lookup aid = some a ∧ a.outcome = some o ∧ o.outcome = .paid ∧
    f.withdrawals.lookup a.withdrawalId = some w ∧ w.memberId = some member ∧
    f.chainTransactions.lookup (o.chainId, o.txHash) = some tx ∧ tx.blockTimestamp = time

/-- Between two payments to a member: seven days, less the tolerance for clocks. -/
def Apart (t t' : Time) : Prop :=
  t + days 7 - seconds 5 ≤ t' ∨ t' + days 7 - seconds 5 ≤ t

structure Weekly (f : Funds) : Prop where
  known : ∀ {id w m}, f.withdrawals.lookup id = some w → w.memberId = some m → m ∈ f.members
  /-- A pending withdrawal was requested seven days after the last payment. -/
  spaced : ∀ {id w m row t}, f.withdrawals.lookup id = some w → w.state.isPending = true →
    w.memberId = some m → f.members.lookup m = some row → row.lastPaidAt = some t →
      t + days 7 ≤ w.createdAt
  begun : ∀ {aid a w}, f.withdrawalAttempts.lookup aid = some a →
    f.withdrawals.lookup a.withdrawalId = some w → w.createdAt ≤ a.sentAt
  last : ∀ {aid m t row}, f.PaidAt aid m t → f.members.lookup m = some row →
    ∃ l, row.lastPaidAt = some l ∧ t ≤ l
  apart : ∀ {aid aid' m t t'}, f.PaidAt aid m t → f.PaidAt aid' m t' → aid ≠ aid' → Apart t t'

theorem Weekly.empty : empty.Weekly where
  known h := by cases h
  spaced h := by cases h
  begun h := by cases h
  last h := by
    obtain ⟨_, _, _, _, h, -⟩ := h
    cases h
  apart h := by
    obtain ⟨_, _, _, _, h, -⟩ := h
    cases h

/-- A member's row as a step that pays nobody leaves it. -/
theorem Step.lastPaidAt (h : Step f c f') (hc : ∀ id aid, c ≠ .reconciled id aid .paid) {m : Uuid}
    {row : Member} (hrow : f'.members.lookup m = some row) :
    (∃ row₀, f.members.lookup m = some row₀ ∧ row₀.lastPaidAt = row.lastPaidAt) ∨
      (f.members.lookup m = none ∧ row.lastPaidAt = none) := by
  cases h with
  | memberRegistered hnone _ _ hlast =>
      rcases Table.lookup_insert_cases hrow with ⟨rfl, rfl⟩ | ⟨-, hrow⟩
      · exact Or.inr ⟨hnone, hlast⟩
      · exact Or.inl ⟨row, hrow, rfl⟩
  | walletSet hold =>
      rcases Table.lookup_insert_cases hrow with ⟨rfl, rfl⟩ | ⟨-, hrow⟩
      · exact Or.inl ⟨_, hold, rfl⟩
      · exact Or.inl ⟨row, hrow, rfl⟩
  | multiplierSet hold =>
      rcases Table.lookup_insert_cases hrow with ⟨rfl, rfl⟩ | ⟨-, hrow⟩
      · exact Or.inl ⟨_, hold, rfl⟩
      · exact Or.inl ⟨row, hrow, rfl⟩
  | paid => exact absurd rfl (hc _ _)
  | _ => exact Or.inl ⟨row, hrow, rfl⟩

/-- A paid attempt was paid before, unless this very step has paid it. -/
theorem Evidenced.paidAt (he : f.Evidenced) (hl : f.LawfulRows) (h : Step f c f')
    {aid m : Uuid} {t : Time} (hc : ∀ id, c ≠ .reconciled id aid .paid) (hp : f'.PaidAt aid m t) :
    f.PaidAt aid m t := by
  have hext := h.extends hl
  obtain ⟨a, o, w, tx, ha, ho, hpaid, hw, hm, htx, htime⟩ := hp
  have hold : f.withdrawalAttempts.lookup aid = some a := by
    cases h with
    | begun _ _ _ _ hnone =>
        rcases Table.lookup_insert_cases ha with ⟨rfl, rfl⟩ | ⟨-, ha⟩
        · rw [hnone] at ho
          cases ho
        · exact ha
    | unpaid _ _ _ _ _ _ _ _ hresult =>
        rcases Table.lookup_insert_cases ha with ⟨rfl, rfl⟩ | ⟨-, ha⟩
        · obtain rfl := Option.some.inj ho
          exact absurd hpaid hresult
        · exact ha
    | paid =>
        rcases Table.lookup_insert_cases ha with ⟨rfl, rfl⟩ | ⟨-, ha⟩
        · exact absurd rfl (hc _)
        · exact ha
    | _ => exact ha
  obtain ⟨w₀, s, p, e, tr, tx₀, hby⟩ := he.paid hold ho hpaid
  obtain ⟨w', hw', hx⟩ := hext.withdrawal hby.withdrawal
  obtain rfl := Option.some.inj (hw.symm.trans hw')
  obtain rfl := Option.some.inj (htx.symm.trans (hext.transaction.lookup hby.transaction))
  exact ⟨a, o, w₀, tx, hold, ho, hpaid, hby.withdrawal, hx.memberId.symm.trans hm, hby.transaction,
    htime⟩

/-- Where a withdrawal on record comes from. -/
theorem Step.withdrawal_back (hl : f.LawfulRows) (h : Step f c f') {id : Uuid} {w : Withdrawal}
    (hw : f'.withdrawals.lookup id = some w) :
    (∃ w₀, f.withdrawals.lookup id = some w₀ ∧ w₀.Extends w ∧
      (w.state.isPending = true → w₀.state.isPending = true)) ∨
    ((∃ a, c = .requested id a) ∧
      (∀ {m row t}, w.memberId = some m → f.members.lookup m = some row →
        row.lastPaidAt = some t → t + days 7 ≤ w.createdAt) ∧
      ∀ {m}, w.memberId = some m → m ∈ f.members) := by
  have hturn : ∀ {i w₁ w₂}, f.withdrawals.lookup i = some w₁ → w₁.Turns w₂ →
      (w₂.state.isPending = true → w₁.state.isPending = true) →
      (AList.insert i w₂ f.withdrawals).lookup id = some w →
      ∃ w₀, f.withdrawals.lookup id = some w₀ ∧ w₀.Extends w ∧
        (w.state.isPending = true → w₀.state.isPending = true) := by
    intro i w₁ w₂ hw₁ ht hp hx
    rcases Table.lookup_insert_cases hx with ⟨rfl, rfl⟩ | ⟨-, hx⟩
    · exact ⟨w₁, hw₁, (hl.withdrawal hw₁).extends ht, hp⟩
    · exact ⟨w, hx, .refl w, fun h => h⟩
  cases h with
  | requested hnone _ _ _ _ _ hspaced hknown =>
      rcases Table.lookup_insert_cases hw with ⟨rfl, rfl⟩ | ⟨-, hw⟩
      · exact Or.inr ⟨⟨_, rfl⟩, hspaced, hknown⟩
      · exact Or.inl ⟨w, hw, .refl w, fun h => h⟩
  | approved hx hs hr hrecipient =>
      exact Or.inl (hturn hx (.approved hs hr hrecipient) (fun _ => by rw [hs]; rfl) hw)
  | released hx hs hstate =>
      refine Or.inl (hturn hx (.released hs hstate) (fun _ => ?_) hw)
      rcases hs with hs | hs <;> rw [hs] <;> rfl
  | begun hx hs hr =>
      exact Or.inl (hturn hx (.begun hs (by rw [hr]; rfl)) (fun _ => by rw [hs]; rfl) hw)
  | unpaid _ _ _ hx hs => exact Or.inl (hturn hx (.unpaid hs) (fun _ => by rw [hs]; rfl) hw)
  | paid _ _ _ hx hs => exact Or.inl (hturn hx (.paid hs) (fun hp => by cases hp) hw)
  | _ => exact Or.inl ⟨w, hw, .refl w, fun h => h⟩

theorem Step.mem_members (h : Step f c f') {m : Uuid} (hm : m ∈ f.members) : m ∈ f'.members := by
  obtain ⟨row, hrow⟩ := Option.isSome_iff_exists.mp (AList.lookup_isSome.mpr hm)
  have he := h.member m
  rw [hrow] at he
  rw [← AList.lookup_isSome]
  rcases hx : f'.members.lookup m with _ | row'
  · rw [hx] at he
    cases he
  · rfl

theorem Weekly.known_step (hl : f.LawfulRows) (hw : f.Weekly) (h : Step f c f') {id m : Uuid}
    {w : Withdrawal} (hrow : f'.withdrawals.lookup id = some w) (hm : w.memberId = some m) :
    m ∈ f'.members := by
  rcases h.withdrawal_back hl hrow with ⟨w₀, hw₀, hx, -⟩ | ⟨-, -, hknown⟩
  · exact h.mem_members (hw.known hw₀ (hx.memberId.symm.trans hm))
  · exact h.mem_members (hknown hm)

theorem Weekly.begun_step (hl : f.LawfulRows) (hp : f.Paid) (hw : f.Weekly) (h : Step f c f')
    {aid : Uuid} {a : WithdrawalAttempt} {w : Withdrawal}
    (ha : f'.withdrawalAttempts.lookup aid = some a)
    (hrow : f'.withdrawals.lookup a.withdrawalId = some w) : w.createdAt ≤ a.sentAt := by
  have hext := h.extends hl
  have hold : ∀ {a₀}, f.withdrawalAttempts.lookup aid = some a₀ → a₀.Extends a →
      w.createdAt ≤ a.sentAt := by
    intro a₀ ha₀ hx
    obtain ⟨w₀, -, hw₀, -⟩ := PaymentsFit.attempt hp ha₀
    obtain ⟨w', hw', hxw⟩ := hext.withdrawal hw₀
    rw [hx.withdrawalId] at hrow
    obtain rfl := Option.some.inj (hrow.symm.trans hw')
    rw [hxw.createdAt, hx.sentAt]
    exact hw.begun ha₀ hw₀
  cases h with
  | begun hx _ _ hid _ _ _ _ htime =>
      rcases Table.lookup_insert_cases ha with ⟨rfl, rfl⟩ | ⟨-, ha⟩
      · rcases Table.lookup_insert_cases hrow with ⟨-, rfl⟩ | ⟨hne, -⟩
        · exact htime
        · exact absurd hid hne
      · exact hold ha (.refl a)
  | unpaid hx hnone =>
      rcases Table.lookup_insert_cases ha with ⟨rfl, rfl⟩ | ⟨-, ha⟩
      · exact hold hx (WithdrawalAttempt.Turns.extends (.reconciled hnone))
      · exact hold ha (.refl a)
  | paid hx hnone =>
      rcases Table.lookup_insert_cases ha with ⟨rfl, rfl⟩ | ⟨-, ha⟩
      · exact hold hx (WithdrawalAttempt.Turns.extends (.reconciled hnone))
      · exact hold ha (.refl a)
  | _ => exact hold ha (.refl a)

/-- As long as nobody is paid. -/
theorem Weekly.step_unpaid (hl : f.LawfulRows) (hp : f.Paid) (he : f.Evidenced) (hw : f.Weekly)
    (h : Step f c f') (hc : ∀ id aid, c ≠ .reconciled id aid .paid) : f'.Weekly where
  known := hw.known_step hl h
  begun := hw.begun_step hl hp h
  spaced hrow hpending hm hmember hpaid := by
    rcases h.lastPaidAt hc hmember with ⟨row₀, hrow₀, hlast⟩ | ⟨-, hnone⟩
    · rcases h.withdrawal_back hl hrow with ⟨w₀, hw₀, hx, hback⟩ | ⟨-, hspaced, -⟩
      · rw [hx.createdAt]
        exact hw.spaced hw₀ (hback hpending) (hx.memberId.symm.trans hm) hrow₀ (hlast.trans hpaid)
      · exact hspaced hm hrow₀ (hlast.trans hpaid)
    · rw [hnone] at hpaid
      cases hpaid
  last hpaid hmember := by
    have hpaid := he.paidAt hl h (fun id => hc id _) hpaid
    rcases h.lastPaidAt hc hmember with ⟨row₀, hrow₀, hlast⟩ | ⟨hnone, -⟩
    · obtain ⟨l, hl', htl⟩ := hw.last hpaid hrow₀
      exact ⟨l, hlast.symm.trans hl', htl⟩
    · obtain ⟨a, o, w, tx, -, -, -, hrow, hm, -⟩ := hpaid
      exact absurd (hw.known hrow hm) (AList.lookup_eq_none.mp hnone)
  apart hpaid hpaid' hne :=
    hw.apart (he.paidAt hl h (fun id => hc id _) hpaid) (he.paidAt hl h (fun id => hc id _) hpaid') hne

/-- A payment comes late enough after every earlier one to the same member. -/
theorem Weekly.late (hw : f.Weekly) {id aid m : Uuid} {w : Withdrawal} {a : WithdrawalAttempt}
    {x t : Time} (hrow : f.withdrawals.lookup id = some w) (hstate : w.state = .uncertain)
    (ha : f.withdrawalAttempts.lookup aid = some a) (hid : a.withdrawalId = id)
    (htime : a.sentAt ≤ x + seconds 5) (hm : w.memberId = some m) {aid' : Uuid}
    (hpaid : f.PaidAt aid' m t) : t + days 7 - seconds 5 ≤ x := by
  obtain ⟨row, hmember⟩ := Option.isSome_iff_exists.mp (AList.lookup_isSome.mpr (hw.known hrow hm))
  obtain ⟨l, hl, htl⟩ := hw.last hpaid hmember
  have hspaced := hw.spaced hrow (by rw [hstate]; rfl) hm hmember hl
  have hbegun := hw.begun ha (hid ▸ hrow)
  calc t + days 7 - seconds 5
      ≤ l + days 7 - seconds 5 := Int.sub_le_sub_right (Int.add_le_add_right htl _) _
    _ ≤ w.createdAt - seconds 5 := Int.sub_le_sub_right hspaced _
    _ ≤ a.sentAt - seconds 5 := Int.sub_le_sub_right hbegun _
    _ ≤ x := Int.sub_right_le_of_le_add htime

theorem Weekly.step (hl : f.LawfulRows) (hp : f.Paid) (he : f.Evidenced)
    (ho : OnePending f.withdrawals) (hw : f.Weekly) (h : Step f c f') : f'.Weekly := by
  by_cases hc : ∀ id aid, c ≠ .reconciled id aid .paid
  · exact hw.step_unpaid hl hp he h hc
  have hknown : ∀ {id m w}, f'.withdrawals.lookup id = some w → w.memberId = some m →
      m ∈ f'.members := hw.known_step hl h
  have hbegun : ∀ {aid a w}, f'.withdrawalAttempts.lookup aid = some a →
      f'.withdrawals.lookup a.withdrawalId = some w → w.createdAt ≤ a.sentAt := hw.begun_step hl hp h
  have hback : ∀ {aid m t}, (∀ id, c ≠ .reconciled id aid .paid) → f'.PaidAt aid m t →
      f.PaidAt aid m t := he.paidAt hl h
  cases h with
  | unpaid _ _ _ _ _ _ _ _ hresult =>
      exact absurd (fun _ _ heq => hresult (Change.reconciled.inj heq).2.2) hc
  | @paid id aid w a s p authorization e t tx result members ledger ha hnone hid hrow hstate _ _ _ _
      _ _ _ _ htx htime _ hmembers =>
      -- this payment, or an earlier one
      have hcases : ∀ {aid' m t'}, Funds.PaidAt { f with
            ledger := ledger, members := members
            custodySends := AList.insert aid { s with payment := some p, authorization } f.custodySends
            withdrawalAttempts :=
              AList.insert aid { a with outcome := some result } f.withdrawalAttempts
            withdrawals :=
              AList.insert id { w with state := .paid, paidEvent := some e } f.withdrawals }
              aid' m t' →
          (aid' = aid ∧ w.memberId = some m ∧ t' = tx.blockTimestamp) ∨ f.PaidAt aid' m t' := by
        intro aid' m t' hpaid
        by_cases haid : aid' = aid
        · subst haid
          obtain ⟨a', o, w', tx', ha', hout, -, hw', hm, htx', ht'⟩ := hpaid
          obtain rfl := Option.some.inj ((AList.lookup_insert _).symm.trans ha')
          obtain rfl := Option.some.inj hout
          rcases Table.lookup_insert_cases hw' with ⟨-, rfl⟩ | ⟨hne, -⟩
          · obtain rfl := Option.some.inj (htx.symm.trans htx')
            exact Or.inl ⟨rfl, hm, ht'.symm⟩
          · exact absurd hid hne
        · refine Or.inr (hback ?_ hpaid)
          intro id' heq
          cases heq
          exact haid rfl
      refine ⟨hknown, ?_, hbegun, ?_, ?_⟩
      · intro id' w' m row' t' hw' hpending hm hmember hlast
        rcases Table.lookup_insert_cases hw' with ⟨rfl, rfl⟩ | ⟨hne, hw'⟩
        · cases hpending
        · rw [hmembers, Option.map_eq_some_iff] at hmember
          obtain ⟨row, hmember, rfl⟩ := hmember
          split at hlast
          next hsame =>
            have hkind : w'.kind = w.kind := by
              have h₁ := (hl.withdrawal hw').kind
              have h₂ := (hl.withdrawal hrow).kind
              rw [hm] at h₁
              rw [hsame] at h₂
              cases hk : w'.kind <;> cases hk' : w.kind <;> simp_all
            exact absurd (ho hw' hrow hpending (by rw [hstate]; rfl) (hm.trans hsame.symm) hkind) hne
          next => exact hw.spaced hw' hpending hm hmember hlast
      · intro aid' m t' row' hpaid hmember
        rw [hmembers, Option.map_eq_some_iff] at hmember
        obtain ⟨row, hmember, rfl⟩ := hmember
        rcases hcases hpaid with ⟨-, hm, rfl⟩ | hpaid
        · exact ⟨_, by rw [if_pos hm], le_rfl⟩
        · split
          next hm =>
            refine ⟨_, rfl, ?_⟩
            have hlate := hw.late hrow hstate ha hid htime hm hpaid
            rw [Int.add_sub_assoc] at hlate
            exact le_trans (Int.le_add_of_nonneg_right (by decide)) hlate
          next => exact hw.last hpaid hmember
      · intro aid₁ aid₂ m t₁ t₂ h₁ h₂ hne
        rcases hcases h₁ with ⟨rfl, hm, rfl⟩ | hold₁ <;>
          rcases hcases h₂ with ⟨rfl, hm', rfl⟩ | hold₂
        · exact absurd rfl hne
        · exact Or.inr (hw.late hrow hstate ha hid htime hm hold₂)
        · exact Or.inl (hw.late hrow hstate ha hid htime hm' hold₁)
        · exact hw.apart hold₁ hold₂ hne
  | _ => exact absurd (by simp) hc

end Funds

end TigPool
