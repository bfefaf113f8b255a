import Mathlib.Init

/-! # Simulation of an object by an abstract one

An object is called, answers and goes to a next state, or fails.  The abstract object
never fails.  Where every call of the one is simulated by the other, a list of
calls has the answers of the abstract list and ends in a state that represents the
state in which that one ends. -/

namespace Tao.Foundation

variable {State Spec Call Answer Failure : Type*}

def callAll (call : State → Call → Except Failure (State × Answer)) :
    State → List Call → Except Failure (State × List Answer)
  | state, [] => return (state, [])
  | state, c :: calls => do
    let (next, answer) ← call state c
    let (last, answers) ← callAll call next calls
    return (last, answer :: answers)

def specCallAll (call : Spec → Call → Spec × Answer) : Spec → List Call → Spec × List Answer
  | spec, [] => (spec, [])
  | spec, c :: calls =>
    let (next, answer) := call spec c
    let (last, answers) := specCallAll call next calls
    (last, answer :: answers)

variable {call : State → Call → Except Failure (State × Answer)} {specCall : Spec → Call → Spec × Answer}

/-- The simulation rule. -/
theorem callAll_simulated {represents : State → Spec → Prop}
    (simulated : ∀ state spec c, represents state spec →
      ∃ next, call state c = .ok (next, (specCall spec c).2) ∧ represents next (specCall spec c).1)
    {state : State} {spec : Spec} (calls : List Call) (represented : represents state spec) :
    ∃ last, callAll call state calls = .ok (last, (specCallAll specCall spec calls).2) ∧
      represents last (specCallAll specCall spec calls).1 := by
  induction calls generalizing state spec with
  | nil => exact ⟨state, rfl, represented⟩
  | cons c calls inductionHypothesis =>
    obtain ⟨next, called, nextRepresented⟩ := simulated state spec c represented
    obtain ⟨last, rest, lastRepresented⟩ := inductionHypothesis nextRepresented
    refine ⟨last, ?_, lastRepresented⟩
    simp only [callAll, called, rest, bind, Except.bind, pure, Except.pure, specCallAll]

def answersTo (call : State → Call → Except Failure (State × Answer)) (state : State) (calls : List Call) :
    Except Failure (List Answer) :=
  (callAll call state calls).map Prod.snd

theorem answersTo_cons (state : State) (c : Call) (calls : List Call) :
    answersTo call state (c :: calls) =
      (call state c).bind fun called => (answersTo call called.1 calls).map (called.2 :: ·) := by
  unfold answersTo
  rw [callAll]
  cases call state c with
  | error _ => rfl
  | ok called =>
    cases rest : callAll call called.1 calls <;> simp only [bind, Except.bind, rest] <;> rfl

/-- States that answer every call alike, or fail alike, and stay related cannot be told apart. -/
theorem answersTo_eq {related : State → State → Prop}
    (alike : ∀ state other c, related state other →
      (∃ failure, call state c = .error failure ∧ call other c = .error failure) ∨
      ∃ next otherNext answer, call state c = .ok (next, answer) ∧ call other c = .ok (otherNext, answer) ∧
        related next otherNext)
    {state other : State} (calls : List Call) (same : related state other) :
    answersTo call state calls = answersTo call other calls := by
  induction calls generalizing state other with
  | nil => rfl
  | cons c calls inductionHypothesis =>
    rw [answersTo_cons, answersTo_cons]
    rcases alike state other c same with
      ⟨failure, failed, otherFailed⟩ | ⟨next, otherNext, answer, called, otherCalled, nextSame⟩
    · rw [failed, otherFailed]
    · rw [called, otherCalled, Except.bind, Except.bind, inductionHypothesis nextSame]

end Tao.Foundation
