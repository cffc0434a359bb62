/-
# `TigPool.Payments` — one payment, one send, one attempt

A withdrawal is paid through attempts, an attempt and a top-up through a custody
send, and a send by a transaction of the chain.  `PaymentsFit` says how the states
of these four tables fit together:

| attempt's outcome | withdrawal | send |
|-------------------|------------|------|
| none yet | uncertain | not paid |
| failed, cancelled | whatever came next | a transaction, no transfer |
| paid | paid | a transaction with its transfer |

A withdrawal that is uncertain or paid has exactly one attempt of the first or the
last kind, and so no withdrawal is ever paid twice.
-/
import TigPool.Balances

namespace TigPool

open Basis

/-- Money may have left for this withdrawal. -/
def Withdrawal.PotentiallySent (w : Withdrawal) : Prop :=
  w.state = .uncertain ∨ w.state = .paid

/-- The attempt may pay its withdrawal, or has paid it. -/
def WithdrawalAttempt.Live (a : WithdrawalAttempt) : Prop :=
  ∀ o, a.outcome = some o → o.outcome = .paid

/-- How an attempt fits its withdrawal and its custody send. -/
inductive AttemptFits (w : Withdrawal) (s : CustodySend) (a : WithdrawalAttempt) : Prop
  | unresolved : a.outcome = none → w.state = .uncertain → s.payment = none → AttemptFits w s a
  | unpaid {o : WithdrawalAttemptOutcome} : a.outcome = some o → o.outcome ≠ .paid →
      s.payment.isSome → AttemptFits w s a
  | paid {o : WithdrawalAttemptOutcome} : a.outcome = some o → o.outcome = .paid →
      s.payment.isSome → w.state = .paid → AttemptFits w s a

structure PaymentsFit (withdrawals : Table Uuid Withdrawal)
    (attempts : Table Uuid WithdrawalAttempt) (sends : Table Uuid CustodySend)
    (topups : Table Uuid ProtocolTopup) : Prop where
  attempt : ∀ {aid a}, attempts.lookup aid = some a → ∃ w s,
    withdrawals.lookup a.withdrawalId = some w ∧ sends.lookup aid = some s ∧
      s.kind = .withdrawal ∧ AttemptFits w s a
  /-- A live attempt is the only one of its withdrawal. -/
  alone : ∀ {aid a aid' a'}, attempts.lookup aid = some a → attempts.lookup aid' = some a' →
    a.withdrawalId = a'.withdrawalId → a.Live → a'.Live → aid = aid'
  live : ∀ {id w}, withdrawals.lookup id = some w → w.PotentiallySent →
    ∃ aid a, attempts.lookup aid = some a ∧ a.withdrawalId = id ∧ a.Live
  topup : ∀ {id t}, topups.lookup id = some t → ∃ s, sends.lookup id = some s ∧
    s.kind = .protocolTopup ∧ (t.state = .uncertain ↔ s.payment = none)
  /-- A transfer event explains one send. -/
  event : ∀ {id s p id' s' p' e}, sends.lookup id = some s → s.payment = some p →
    sends.lookup id' = some s' → s'.payment = some p' → p.transferEvent = some e →
      p'.transferEvent = some e → id = id'

namespace AttemptFits

variable {w w' : Withdrawal} {s : CustodySend} {a : WithdrawalAttempt}

theorem potentiallySent (h : AttemptFits w s a) (ha : a.Live) : w.PotentiallySent := by
  cases h with
  | unresolved _ hw => exact Or.inl hw
  | unpaid ho hne => exact absurd (ha _ ho) hne
  | paid _ _ _ hw => exact Or.inr hw

/-- A dead attempt fits whatever its withdrawal does. -/
theorem of_not_sent (h : AttemptFits w s a) (hw : ¬ w.PotentiallySent) : AttemptFits w' s a := by
  cases h with
  | unresolved _ hstate => exact absurd (Or.inl hstate) hw
  | unpaid ho hne hp => exact .unpaid ho hne hp
  | paid _ _ _ hstate => exact absurd (Or.inr hstate) hw

end AttemptFits

namespace PaymentsFit

variable {withdrawals : Table Uuid Withdrawal} {attempts : Table Uuid WithdrawalAttempt}
  {sends : Table Uuid CustodySend} {topups : Table Uuid ProtocolTopup}

theorem empty : PaymentsFit ∅ ∅ ∅ ∅ where
  attempt h := by cases h
  alone h := by cases h
  live h := by cases h
  topup h := by cases h
  event h := by cases h

/-- An attempt and a top-up never share a send. -/
theorem not_topup (h : PaymentsFit withdrawals attempts sends topups) {id : Uuid}
    {a : WithdrawalAttempt} {t : ProtocolTopup} (ha : attempts.lookup id = some a)
    (ht : topups.lookup id = some t) : False := by
  obtain ⟨w, s, -, hs, hkind, -⟩ := h.attempt ha
  obtain ⟨s', hs', hkind', -⟩ := h.topup ht
  obtain rfl := Option.some.inj (hs.symm.trans hs')
  rw [hkind] at hkind'
  cases hkind'

/-- A withdrawal for which nothing can have been sent, before or after. -/
theorem putWithdrawal (h : PaymentsFit withdrawals attempts sends topups) {id : Uuid}
    {w' : Withdrawal} (hold : ∀ w, withdrawals.lookup id = some w → ¬ w.PotentiallySent)
    (hnew : ¬ w'.PotentiallySent) :
    PaymentsFit (AList.insert id w' withdrawals) attempts sends topups where
  attempt ha := by
    obtain ⟨w, s, hw, hs, hkind, hfits⟩ := h.attempt ha
    rw [Table.lookup_insert_eq]
    split
    next heq => exact ⟨w', s, rfl, hs, hkind, hfits.of_not_sent (hold w (heq ▸ hw))⟩
    next => exact ⟨w, s, hw, hs, hkind, hfits⟩
  alone := h.alone
  live hw hsent := by
    rw [Table.lookup_insert_eq] at hw
    split at hw
    next =>
      obtain rfl := Option.some.inj hw
      exact absurd hsent hnew
    next => exact h.live hw hsent
  topup := h.topup
  event := h.event

/-- A fresh send that nothing has paid. -/
theorem event_fresh (h : PaymentsFit withdrawals attempts sends topups) {k : Uuid}
    {s₀ : CustodySend} (hnone : s₀.payment = none) {id id' : Uuid} {s s' : CustodySend}
    {p p' : CustodyPayment} {e : EventId} (hs : (AList.insert k s₀ sends).lookup id = some s)
    (hp : s.payment = some p) (hs' : (AList.insert k s₀ sends).lookup id' = some s')
    (hp' : s'.payment = some p') (he : p.transferEvent = some e)
    (he' : p'.transferEvent = some e) : id = id' := by
  have hold : ∀ {j s₁ p₁}, (AList.insert k s₀ sends).lookup j = some s₁ → s₁.payment = some p₁ →
      sends.lookup j = some s₁ := by
    intro j s₁ p₁ hj hp₁
    rw [Table.lookup_insert_eq] at hj
    split at hj
    next =>
      obtain rfl := Option.some.inj hj
      rw [hnone] at hp₁
      cases hp₁
    next => exact hj
  exact h.event (hold hs hp) hp (hold hs' hp') hp' he he'

/-- Paying a send with a transfer that has explained no other. -/
theorem event_paid (h : PaymentsFit withdrawals attempts sends topups) {k : Uuid}
    {s₀ : CustodySend} {p₀ : CustodyPayment} (hpay : s₀.payment = some p₀)
    (hfresh : ∀ {j s p e}, sends.lookup j = some s → s.payment = some p →
      p₀.transferEvent = some e → p.transferEvent ≠ some e) {id id' : Uuid} {s s' : CustodySend}
    {p p' : CustodyPayment} {e : EventId} (hs : (AList.insert k s₀ sends).lookup id = some s)
    (hp : s.payment = some p) (hs' : (AList.insert k s₀ sends).lookup id' = some s')
    (hp' : s'.payment = some p') (he : p.transferEvent = some e)
    (he' : p'.transferEvent = some e) : id = id' := by
  rw [Table.lookup_insert_eq] at hs hs'
  split at hs <;> split at hs'
  next hid hid' => exact hid.trans hid'.symm
  next =>
    obtain rfl := Option.some.inj hs
    obtain rfl := Option.some.inj (hpay.symm.trans hp)
    exact absurd he' (hfresh hs' hp' he)
  next =>
    obtain rfl := Option.some.inj hs'
    obtain rfl := Option.some.inj (hpay.symm.trans hp')
    exact absurd he (hfresh hs hp he')
  next => exact h.event hs hp hs' hp' he he'

theorem begun (h : PaymentsFit withdrawals attempts sends topups) {id aid : Uuid}
    {w : Withdrawal} {a : WithdrawalAttempt} {s : CustodySend}
    (hw : withdrawals.lookup id = some w) (hstate : w.state = .approved)
    (hid : a.withdrawalId = id) (houtcome : a.outcome = none)
    (hnone : attempts.lookup aid = none) (hs : sends.lookup aid = none)
    (hkind : s.kind = .withdrawal) (hpay : s.payment = none) :
    PaymentsFit (AList.insert id { w with state := .uncertain } withdrawals)
      (AList.insert aid a attempts) (AList.insert aid s sends) topups := by
  have hidle : ¬ w.PotentiallySent := by simp [Withdrawal.PotentiallySent, hstate]
  have hdead : ∀ {aid' a'}, attempts.lookup aid' = some a' → a'.withdrawalId = id →
      ¬ a'.Live := by
    intro aid' a' ha' hid' hlive
    obtain ⟨w', s', hw', -, -, hfits⟩ := h.attempt ha'
    rw [hid', hw] at hw'
    obtain rfl := Option.some.inj hw'
    exact hidle (hfits.potentiallySent hlive)
  refine ⟨?_, ?_, ?_, ?_, h.event_fresh hpay⟩
  · intro aid' a' ha'
    rw [Table.lookup_insert_eq] at ha'
    split at ha'
    next heq =>
      obtain rfl := Option.some.inj ha'
      exact ⟨_, s, by rw [hid]; exact AList.lookup_insert _, by rw [heq]; exact AList.lookup_insert _,
        hkind, .unresolved houtcome rfl hpay⟩
    next hne =>
      obtain ⟨w', s', hw', hs', hkind', hfits⟩ := h.attempt ha'
      rw [Table.lookup_insert_eq, AList.lookup_insert_ne hne]
      split
      next heq =>
        rw [heq, hw] at hw'
        obtain rfl := Option.some.inj hw'
        exact ⟨_, s', rfl, hs', hkind', hfits.of_not_sent hidle⟩
      next => exact ⟨w', s', hw', hs', hkind', hfits⟩
  · intro i a₁ j a₂ h₁ h₂ heq hlive₁ hlive₂
    rw [Table.lookup_insert_eq] at h₁ h₂
    split at h₁ <;> split at h₂
    next hi hj => exact hi.trans hj.symm
    next =>
      obtain rfl := Option.some.inj h₁
      exact absurd hlive₂ (hdead h₂ (heq.symm.trans hid))
    next =>
      obtain rfl := Option.some.inj h₂
      exact absurd hlive₁ (hdead h₁ (heq.trans hid))
    next => exact h.alone h₁ h₂ heq hlive₁ hlive₂
  · intro id' w' hw' hsent
    rw [Table.lookup_insert_eq] at hw'
    split at hw'
    next heq =>
      refine ⟨aid, a, AList.lookup_insert _, hid.trans heq.symm, fun o ho => ?_⟩
      rw [houtcome] at ho
      cases ho
    next =>
      obtain ⟨aid', a', ha', hid', hlive⟩ := h.live hw' hsent
      refine ⟨aid', a', ?_, hid', hlive⟩
      rw [AList.lookup_insert_ne, ha']
      rintro rfl
      rw [hnone] at ha'
      cases ha'
  · intro id' t ht
    obtain ⟨s', hs', hrest⟩ := h.topup ht
    refine ⟨s', ?_, hrest⟩
    rw [AList.lookup_insert_ne, hs']
    rintro rfl
    rw [hs] at hs'
    cases hs'

/-- The one attempt in progress ends, with this outcome for its withdrawal. -/
theorem reconciled (h : PaymentsFit withdrawals attempts sends topups) {id aid : Uuid}
    {w' : Withdrawal} {a : WithdrawalAttempt} {s s' : CustodySend} {p : CustodyPayment}
    {o : WithdrawalAttemptOutcome} (ha : attempts.lookup aid = some a) (houtcome : a.outcome = none)
    (hid : a.withdrawalId = id) (hs : sends.lookup aid = some s) (hkind : s'.kind = s.kind)
    (hpay : s'.payment = some p)
    (hfresh : ∀ {j s p' e}, sends.lookup j = some s → s.payment = some p' →
      p.transferEvent = some e → p'.transferEvent ≠ some e)
    (hstate : o.outcome = .paid ∧ w'.state = .paid ∨ o.outcome ≠ .paid ∧ w'.state = .approved) :
    PaymentsFit (AList.insert id w' withdrawals)
      (AList.insert aid { a with outcome := some o } attempts) (AList.insert aid s' sends)
      topups := by
  have hlive : a.Live := fun o ho => by
    rw [houtcome] at ho
    cases ho
  -- every other attempt on the withdrawal is dead
  have hdead : ∀ {aid' a'}, attempts.lookup aid' = some a' → aid' ≠ aid →
      a'.withdrawalId = id → ¬ a'.Live := fun ha' hne hid' hlive' =>
    hne (h.alone ha' ha (hid'.trans hid.symm) hlive' hlive)
  refine ⟨?_, ?_, ?_, ?_, h.event_paid hpay hfresh⟩
  · intro aid' a' ha'
    rw [Table.lookup_insert_eq] at ha'
    split at ha'
    next heq =>
      obtain rfl := Option.some.inj ha'
      obtain ⟨w₀, s₀, hw₀, hs₀, hkind₀, -⟩ := h.attempt ha
      obtain rfl := Option.some.inj (hs.symm.trans hs₀)
      refine ⟨w', s', by rw [hid]; exact AList.lookup_insert _,
        by rw [heq]; exact AList.lookup_insert _, hkind.trans hkind₀, ?_⟩
      have hsome : s'.payment.isSome := by rw [hpay]; rfl
      rcases hstate with ⟨ho, hstate⟩ | ⟨ho, -⟩
      · exact .paid rfl ho hsome hstate
      · exact .unpaid rfl ho hsome
    next hne =>
      obtain ⟨w₀, s₀, hw₀, hs₀, hkind₀, hfits⟩ := h.attempt ha'
      rw [Table.lookup_insert_eq, AList.lookup_insert_ne hne]
      split
      next heq =>
        refine ⟨w', s₀, rfl, hs₀, hkind₀, ?_⟩
        cases hfits with
        | unresolved hnone =>
            exact absurd (fun o ho => by rw [hnone] at ho; cases ho) (hdead ha' hne heq)
        | unpaid ho hunpaid hp => exact .unpaid ho hunpaid hp
        | paid ho hpaid =>
            exact absurd (fun o' ho' => by
              rw [ho] at ho'
              obtain rfl := Option.some.inj ho'
              exact hpaid) (hdead ha' hne heq)
      next => exact ⟨w₀, s₀, hw₀, hs₀, hkind₀, hfits⟩
  · intro i a₁ j a₂ h₁ h₂ heq hlive₁ hlive₂
    rw [Table.lookup_insert_eq] at h₁ h₂
    split at h₁ <;> split at h₂
    next hi hj => exact hi.trans hj.symm
    next hi hj =>
      obtain rfl := Option.some.inj h₁
      exact absurd hlive₂ (hdead h₂ hj (heq.symm.trans hid))
    next hi hj =>
      obtain rfl := Option.some.inj h₂
      exact absurd hlive₁ (hdead h₁ hi (heq.trans hid))
    next => exact h.alone h₁ h₂ heq hlive₁ hlive₂
  · intro id' w₁ hw₁ hsent
    rw [Table.lookup_insert_eq] at hw₁
    split at hw₁
    next heq =>
      obtain rfl := Option.some.inj hw₁
      refine ⟨aid, _, AList.lookup_insert _, hid.trans heq.symm, ?_⟩
      rintro _ ⟨⟩
      rcases hstate with ⟨ho, -⟩ | ⟨-, hstate⟩
      · exact ho
      · simp [Withdrawal.PotentiallySent, hstate] at hsent
    next hne =>
      obtain ⟨aid', a', ha', hid', hlive'⟩ := h.live hw₁ hsent
      refine ⟨aid', a', ?_, hid', hlive'⟩
      rw [AList.lookup_insert_ne, ha']
      rintro rfl
      rw [ha] at ha'
      obtain rfl := Option.some.inj ha'
      exact hne (hid'.symm.trans hid)
  · intro id' t ht
    obtain ⟨s₀, hs₀, hrest⟩ := h.topup ht
    refine ⟨s₀, ?_, hrest⟩
    rw [AList.lookup_insert_ne, hs₀]
    rintro rfl
    exact h.not_topup ha ht

theorem topupBegun (h : PaymentsFit withdrawals attempts sends topups) {id : Uuid}
    {t : ProtocolTopup} {s : CustodySend} (hs : sends.lookup id = none)
    (hstate : t.state = .uncertain) (hkind : s.kind = .protocolTopup) (hpay : s.payment = none) :
    PaymentsFit withdrawals attempts (AList.insert id s sends) (AList.insert id t topups) := by
  refine ⟨?_, h.alone, h.live, ?_, h.event_fresh hpay⟩
  · intro aid a ha
    obtain ⟨w, s', hw, hs', hrest⟩ := h.attempt ha
    refine ⟨w, s', hw, ?_, hrest⟩
    rw [AList.lookup_insert_ne, hs']
    rintro rfl
    rw [hs] at hs'
    cases hs'
  · intro id' t' ht'
    rw [Table.lookup_insert_eq] at ht'
    split at ht'
    next heq =>
      obtain rfl := Option.some.inj ht'
      exact ⟨s, by rw [heq]; exact AList.lookup_insert _, hkind, by simp [hstate, hpay]⟩
    next hne =>
      obtain ⟨s', hs', hrest⟩ := h.topup ht'
      exact ⟨s', by rw [AList.lookup_insert_ne hne, hs'], hrest⟩

theorem topupReconciled (h : PaymentsFit withdrawals attempts sends topups) {id : Uuid}
    {t t' : ProtocolTopup} {s s' : CustodySend} {p : CustodyPayment}
    (ht : topups.lookup id = some t) (hs : sends.lookup id = some s) (hkind : s'.kind = s.kind)
    (hpay : s'.payment = some p) (hstate : t'.state ≠ .uncertain)
    (hfresh : ∀ {j s p' e}, sends.lookup j = some s → s.payment = some p' →
      p.transferEvent = some e → p'.transferEvent ≠ some e) :
    PaymentsFit withdrawals attempts (AList.insert id s' sends) (AList.insert id t' topups) := by
  refine ⟨?_, h.alone, h.live, ?_, h.event_paid hpay hfresh⟩
  · intro aid a ha
    obtain ⟨w, s₀, hw, hs₀, hrest⟩ := h.attempt ha
    refine ⟨w, s₀, hw, ?_, hrest⟩
    rw [AList.lookup_insert_ne, hs₀]
    rintro rfl
    exact h.not_topup ha ht
  · intro id' t₁ ht₁
    rw [Table.lookup_insert_eq] at ht₁
    split at ht₁
    next heq =>
      obtain rfl := Option.some.inj ht₁
      obtain ⟨s₀, hs₀, hkind₀, -⟩ := h.topup ht
      obtain rfl := Option.some.inj (hs.symm.trans hs₀)
      exact ⟨s', by rw [heq]; exact AList.lookup_insert _, hkind.trans hkind₀,
        by simp [hstate, hpay]⟩
    next hne =>
      obtain ⟨s₀, hs₀, hrest⟩ := h.topup ht₁
      exact ⟨s₀, by rw [AList.lookup_insert_ne hne, hs₀], hrest⟩

theorem topupCredited (h : PaymentsFit withdrawals attempts sends topups) {id : Uuid}
    {t t' : ProtocolTopup} (ht : topups.lookup id = some t) (hstate : t.state ≠ .uncertain)
    (hstate' : t'.state ≠ .uncertain) :
    PaymentsFit withdrawals attempts sends (AList.insert id t' topups) := by
  refine ⟨h.attempt, h.alone, h.live, ?_, h.event⟩
  intro id' t₁ ht₁
  rw [Table.lookup_insert_eq] at ht₁
  split at ht₁
  next heq =>
    obtain rfl := Option.some.inj ht₁
    obtain ⟨s, hs, hkind, hiff⟩ := h.topup ht
    exact ⟨s, by rw [heq, hs], hkind, iff_of_false hstate' fun hp => hstate (hiff.mpr hp)⟩
  next => exact h.topup ht₁

end PaymentsFit

namespace Funds

/-- The payment tables fit together. -/
def Paid (f : Funds) : Prop :=
  PaymentsFit f.withdrawals f.withdrawalAttempts f.custodySends f.protocolTopups

theorem Paid.empty : empty.Paid := PaymentsFit.empty

variable {f f' : Funds} {c : Change}

theorem Paid.step (hp : f.Paid) (h : Step f c f') : f'.Paid := by
  have hidle : ∀ {w : Withdrawal}, w.state ≠ .uncertain → w.state ≠ .paid →
      ¬ w.PotentiallySent := fun h₁ h₂ h => h.elim h₁ h₂
  cases h with
  | requested hnone hs =>
      refine PaymentsFit.putWithdrawal hp (fun w hw => ?_) (hidle (by simp [hs]) (by simp [hs]))
      rw [hnone] at hw
      cases hw
  | approved hw hs =>
      refine PaymentsFit.putWithdrawal hp (fun w' hw' => ?_) (hidle (by simp) (by simp))
      obtain rfl := Option.some.inj (hw.symm.trans hw')
      exact hidle (by simp [hs]) (by simp [hs])
  | released hw hs hstate =>
      refine PaymentsFit.putWithdrawal hp (fun w' hw' => ?_) ?_
      · obtain rfl := Option.some.inj (hw.symm.trans hw')
        rcases hs with hs | hs <;> exact hidle (by simp [hs]) (by simp [hs])
      · rcases hstate with rfl | rfl <;> exact hidle (by simp) (by simp)
  | begun hw hs _ hid hnone _ _ _ _ hfresh hsend =>
      exact PaymentsFit.begun hp hw hs hid hnone hfresh hsend.fresh hsend.kind hsend.payment
  | unpaid ha hnone hid _ _ hs hx _ hresult =>
      exact PaymentsFit.reconciled hp ha hnone hid hs rfl rfl
        (fun hs' hp' he => hx.event hs' hp' he) (Or.inr ⟨hresult, rfl⟩)
  | paid ha hnone hid _ _ hs hx _ _ _ _ _ hresult =>
      exact PaymentsFit.reconciled hp ha hnone hid hs rfl rfl
        (fun hs' hp' he => hx.event hs' hp' he) (Or.inl ⟨hresult, rfl⟩)
  | topupBegun _ hs _ hsend =>
      exact PaymentsFit.topupBegun hp hsend.fresh hs hsend.kind hsend.payment
  | topupReconciled ht _ hs hx hstate =>
      refine PaymentsFit.topupReconciled hp ht hs rfl rfl ?_ fun hs' hp' he => hx.event hs' hp' he
      rcases hstate with ⟨rfl | rfl, -⟩ | ⟨rfl, -⟩ <;> simp
  | topupCredited ht hs =>
      exact PaymentsFit.topupCredited hp ht (by simp [hs]) (by simp)
  | _ => exact hp

end Funds

end TigPool
