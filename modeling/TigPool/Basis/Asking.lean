/-
# `Basis.Asking` — computations that ask an endpoint, and their logs

A computation may ask someone else, and what it asks next may depend on the answers.  Whoever
answers is not part of it: `record` runs it against an endpoint, which may have a state of its
own and may fail, and writes down each question with its answer; `replay` runs it against such a
log, which must have been asked the same questions in the same order, down to the last one.

`Answered p log a` says that the log answers the questions of `p`, and that `p` then ends with
`a`.  What a recording writes down and what a replay accepts are both this.
-/
import TigPool.Basis.Checked

namespace Basis

/-- A computation that asks questions of type `Q`, is answered by values of type `A`, and ends
with a value or a failure. -/
inductive Asking (Q A ε α : Type) : Type where
  | done (result : Except ε α)
  | ask (question : Q) (next : A → Asking Q A ε α)

namespace Asking

variable {Q A ε α β S : Type}

def bind : Asking Q A ε α → (α → Asking Q A ε β) → Asking Q A ε β
  | .done (.ok a), f => f a
  | .done (.error e), _ => .done (.error e)
  | .ask question next, f => .ask question fun answer => (next answer).bind f

instance : Monad (Asking Q A ε) where
  pure a := .done (.ok a)
  bind := bind

/-- What needs no answers is no question. -/
instance : MonadLift (Except ε) (Asking Q A ε) where
  monadLift := .done

/-- Go on if the condition holds. -/
def check (c : Prop) [Decidable c] (e : ε) : Asking Q A ε Unit :=
  .done (require c e)

/-- Ask one question. -/
def query (question : Q) : Asking Q A ε A :=
  .ask question fun answer => .done (.ok answer)

/-! ## Running against an endpoint -/

/-- Run against an endpoint, and write down what was asked and answered: the result, the log,
and the endpoint afterwards.  A question that is not answered is not written down. -/
def record (answer : S → Q → Except ε A × S) :
    Asking Q A ε α → S → Except ε α × List (Q × A) × S
  | .done result, s => (result, [], s)
  | .ask question next, s =>
      match answer s question with
      | (.error e, s') => (.error e, [], s')
      | (.ok a, s') =>
          let run := record answer (next a) s'
          (run.1, (question, a) :: run.2.1, run.2.2)

/-- Run against a log. -/
def replay [DecidableEq Q] (missing unconsumed : ε) :
    Asking Q A ε α → List (Q × A) → Except ε α
  | .done (.error e), _ => .error e
  | .done (.ok a), [] => .ok a
  | .done (.ok _), _ :: _ => .error unconsumed
  | .ask _ _, [] => .error missing
  | .ask question next, entry :: log =>
      if entry.1 = question then replay missing unconsumed (next entry.2) log
      else .error missing

/-- An endpoint that answers from a log. -/
def fromLog [DecidableEq Q] (missing : ε) : List (Q × A) → Q → Except ε A × List (Q × A)
  | [], _ => (.error missing, [])
  | entry :: log, question =>
      if entry.1 = question then (.ok entry.2, log) else (.error missing, entry :: log)

/-! ## Answered computations -/

/-- The log answers all that is asked, in order, and the end is the value. -/
inductive Answered : Asking Q A ε α → List (Q × A) → α → Prop
  | done {a : α} : Answered (.done (.ok a)) [] a
  | ask {question : Q} {next : A → Asking Q A ε α} {answer : A} {log : List (Q × A)} {a : α} :
      Answered (next answer) log a → Answered (.ask question next) ((question, answer) :: log) a

variable {p : Asking Q A ε α} {f : α → Asking Q A ε β} {log : List (Q × A)} {a a' : α} {b : β}

@[simp] theorem answered_pure : Answered (pure a : Asking Q A ε α) log a' ↔ log = [] ∧ a = a' := by
  constructor
  · intro h
    cases h
    exact ⟨rfl, rfl⟩
  · rintro ⟨rfl, rfl⟩
    exact .done

@[simp] theorem answered_lift {x : Except ε α} :
    Answered (liftM x : Asking Q A ε α) log a ↔ log = [] ∧ x = .ok a := by
  constructor
  · intro h
    change Answered (.done x) log a at h
    cases h
    exact ⟨rfl, rfl⟩
  · rintro ⟨rfl, rfl⟩
    exact .done

@[simp] theorem answered_query {question : Q} {answer : A} :
    Answered (query question : Asking Q A ε A) log answer ↔ log = [(question, answer)] := by
  constructor
  · intro h
    cases h with
    | ask h =>
        cases h
        rfl
  · rintro rfl
    exact .ask .done

/-- A sequence is answered by what answers its first part, followed by what answers the rest. -/
@[simp] theorem answered_bind : Answered (p >>= f) log b ↔
    ∃ first a, Answered p first a ∧ ∃ rest, Answered (f a) rest b ∧ log = first ++ rest := by
  change Answered (p.bind f) log b ↔ _
  induction p generalizing log with
  | done result =>
      cases result with
      | error e =>
          constructor
          · intro h
            cases h
          · rintro ⟨_, _, h, -⟩
            cases h
      | ok a =>
          constructor
          · intro h
            exact ⟨[], a, .done, log, h, rfl⟩
          · rintro ⟨_, _, h, rest, hrest, rfl⟩
            cases h
            exact hrest
  | ask question next ih =>
      constructor
      · intro h
        cases h with
        | @ask _ _ answer log' _ h =>
            obtain ⟨first, a, hfirst, rest, hrest, rfl⟩ := (ih answer).mp h
            exact ⟨(question, answer) :: first, a, .ask hfirst, rest, hrest, rfl⟩
      · rintro ⟨_, a, hfirst, rest, hrest, rfl⟩
        cases hfirst with
        | @ask _ _ answer first _ hfirst =>
            exact .ask ((ih answer).mpr ⟨first, a, hfirst, rest, hrest, rfl⟩)

@[simp] theorem answered_check {c : Prop} [Decidable c] {e : ε} {u : Unit} :
    Answered (check c e : Asking Q A ε Unit) log u ↔ log = [] ∧ c := by
  refine Iff.trans (answered_lift (x := require c e)) ?_
  rw [require_eq_ok]

@[simp] theorem answered_lift_bind {x : Except ε α} :
    Answered ((liftM x : Asking Q A ε α) >>= f) log b ↔ ∃ a, x = .ok a ∧ Answered (f a) log b := by
  rw [answered_bind]
  constructor
  · rintro ⟨_, a, hlift, rest, hrest, rfl⟩
    obtain ⟨rfl, rfl⟩ := answered_lift.mp hlift
    exact ⟨a, rfl, hrest⟩
  · rintro ⟨a, rfl, h⟩
    exact ⟨[], a, .done, log, h, rfl⟩

@[simp] theorem answered_check_bind {c : Prop} [Decidable c] {e : ε} {f : Unit → Asking Q A ε β} :
    Answered ((check c e : Asking Q A ε Unit) >>= f) log b ↔ c ∧ Answered (f ()) log b := by
  refine Iff.trans (answered_lift_bind (x := require c e)) ?_
  simp only [require_eq_ok]
  constructor
  · rintro ⟨_, hc, h⟩
    exact ⟨hc, h⟩
  · rintro ⟨hc, h⟩
    exact ⟨(), hc, h⟩

@[simp] theorem answered_query_bind {question : Q} {f : A → Asking Q A ε β} :
    Answered ((query question : Asking Q A ε A) >>= f) log b ↔
      ∃ answer rest, Answered (f answer) rest b ∧ log = (question, answer) :: rest := by
  rw [answered_bind]
  constructor
  · rintro ⟨_, answer, hasked, rest, hrest, rfl⟩
    obtain rfl := answered_query.mp hasked
    exact ⟨answer, rest, hrest, rfl⟩
  · rintro ⟨answer, rest, hrest, rfl⟩
    exact ⟨_, answer, answered_query.mpr rfl, rest, hrest, rfl⟩

namespace Answered

theorem seq {first rest : List (Q × A)} (h : Answered p first a) (hrest : Answered (f a) rest b) :
    Answered (p >>= f) (first ++ rest) b :=
  answered_bind.mpr ⟨first, a, h, rest, hrest, rfl⟩

theorem lift {x : Except ε α} (hx : x = .ok a) (h : Answered (f a) log b) :
    Answered ((liftM x : Asking Q A ε α) >>= f) log b :=
  answered_lift_bind.mpr ⟨a, hx, h⟩

theorem check {c : Prop} [Decidable c] {e : ε} {f : Unit → Asking Q A ε β} (hc : c)
    (h : Answered (f ()) log b) : Answered ((Asking.check c e : Asking Q A ε Unit) >>= f) log b :=
  answered_check_bind.mpr ⟨hc, h⟩

theorem query {question : Q} {answer : A} {f : A → Asking Q A ε β}
    (h : Answered (f answer) log b) :
    Answered ((Asking.query question : Asking Q A ε A) >>= f) ((question, answer) :: log) b :=
  answered_query_bind.mpr ⟨answer, log, h, rfl⟩

end Answered

/-- The rule for loops: what holds before the first round, and is kept by a round whatever its
answers, holds in the end.  The invariant sees how much of the list has been gone through. -/
theorem Answered.foldlM {γ : Type} {step : β → γ → Asking Q A ε β} {I : List γ → β → Prop}
    (hstep : ∀ seen x acc acc' part, I seen acc → Answered (step acc x) part acc' →
      I (seen ++ [x]) acc') :
    ∀ {xs seen : List γ} {acc out : β} {log : List (Q × A)}, I seen acc →
      Answered (xs.foldlM step acc) log out → I (seen ++ xs) out := by
  intro xs
  induction xs with
  | nil =>
      intro seen acc out log hI h
      obtain ⟨-, rfl⟩ := answered_pure.mp h
      exact (List.append_nil seen).symm ▸ hI
  | cons x xs ih =>
      intro seen acc out log hI h
      rw [List.foldlM_cons, answered_bind] at h
      obtain ⟨part, acc', hround, rest, hrest, -⟩ := h
      have hnext := ih (hstep _ _ _ _ _ hI hround) hrest
      rwa [List.append_assoc] at hnext

/-- Two logs of one computation are the same, or they part at a question that was answered in
two ways.  So nothing can be left out of a log, put into it or moved. -/
theorem Answered.part (h : Answered p log a) :
    ∀ {log' : List (Q × A)} {a' : α}, Answered p log' a' → log = log' ∧ a = a' ∨
      ∃ same question answer answer' rest rest', answer ≠ answer' ∧
        log = same ++ (question, answer) :: rest ∧
        log' = same ++ (question, answer') :: rest' := by
  induction h with
  | done =>
      intro log' a' h'
      cases h'
      exact .inl ⟨rfl, rfl⟩
  | @ask question next answer log a h ih =>
      intro log' a' h'
      cases h' with
      | @ask _ _ answer' log' _ h' =>
          by_cases hanswer : answer = answer'
          · subst hanswer
            rcases ih h' with ⟨rfl, rfl⟩ | ⟨same, asked, x, x', rest, rest', hne, rfl, rfl⟩
            · exact .inl ⟨rfl, rfl⟩
            · exact .inr ⟨(question, answer) :: same, asked, x, x', rest, rest', hne, rfl, rfl⟩
          · exact .inr ⟨[], question, answer, answer', log, log', hanswer, rfl, rfl⟩

/-! ## Recording and replaying -/

variable {answer : S → Q → Except ε A × S}

/-- A recording that succeeds writes down what answers the computation. -/
theorem answered_record {s : S} (h : (p.record answer s).1 = .ok a) :
    Answered p (p.record answer s).2.1 a := by
  induction p generalizing s with
  | done result =>
      obtain rfl : result = .ok a := h
      exact .done
  | ask question next ih =>
      rw [record] at h ⊢
      generalize answer s question = given at h ⊢
      obtain ⟨reply | reply, s'⟩ := given
      · cases h
      · exact .ask (ih reply h)

variable [DecidableEq Q] {missing unconsumed : ε}

/-- A replay accepts a log exactly if it answers the computation. -/
theorem replay_eq_ok : p.replay missing unconsumed log = .ok a ↔ Answered p log a := by
  induction p generalizing log with
  | done result =>
      cases result with
      | error e =>
          constructor
          · intro h
            cases h
          · intro h
            cases h
      | ok b =>
          cases log with
          | nil =>
              constructor
              · intro h
                obtain rfl := Except.ok.inj h
                exact .done
              · intro h
                cases h
                rfl
          | cons entry log =>
              constructor
              · intro h
                cases h
              · intro h
                cases h
  | ask question next ih =>
      cases log with
      | nil =>
          constructor
          · intro h
            cases h
          · intro h
            cases h
      | cons entry log =>
          rw [replay]
          split
          next heq =>
            obtain ⟨asked, reply⟩ := entry
            obtain rfl : asked = question := heq
            rw [ih reply]
            constructor
            · exact .ask
            · intro h
              cases h
              assumption
          next hne =>
            constructor
            · intro h
              cases h
            · intro h
              cases h
              exact absurd rfl hne

/-- Recording from a log that answers the computation writes the same log down again, and uses
it up. -/
theorem record_fromLog (h : Answered p log a) :
    p.record (fromLog missing) log = (.ok a, log, []) := by
  induction h with
  | done => rfl
  | ask h ih =>
      rw [record, fromLog, if_pos rfl]
      simp only [ih]

end Asking

end Basis
