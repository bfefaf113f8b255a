import Mathlib.Data.List.Basic
import Tao.Foundation.Simulation
import Tao.Foundation.Transition

/-! # Transcripts

A call of an object may be undefined; else it answers.  The transcript of a run lists its
calls with their answers.  A view of the object follows a transcript when it can be
computed from what the transcript tells, entry by entry. -/

namespace Tao.Foundation

variable {State Call Answer View Entry : Type*}

/-- The state after a list of calls and what was called and answered. -/
def transcript (call : State → Call → Option (State × Answer)) :
    State → List Call → Option (State × List (Call × Answer))
  | state, [] => some (state, [])
  | state, c :: calls =>
    (call state c).bind fun called =>
      (transcript call called.1 calls).map fun rest => (rest.1, (c, called.2) :: rest.2)

theorem transcript_cons {call : State → Call → Option (State × Answer)} {state final : State} {c : Call}
    {calls : List Call} {entries : List (Call × Answer)} :
    transcript call state (c :: calls) = some (final, entries) ↔ ∃ next answer later,
      call state c = some (next, answer) ∧ transcript call next calls = some (final, later) ∧
        entries = (c, answer) :: later := by
  simp only [transcript, Option.bind_eq_some_iff, Option.map_eq_some_iff, Prod.exists, Prod.mk.injEq]
  constructor
  · rintro ⟨next, answer, called, last, later, rest, rfl, rfl⟩
    exact ⟨next, answer, later, called, rest, rfl⟩
  · rintro ⟨next, answer, later, called, rest, rfl⟩
    exact ⟨next, answer, called, final, later, rest, rfl, rfl⟩

theorem transcript_zip {call : State → Call → Option (State × Answer)} {state final : State} {calls : List Call}
    {entries : List (Call × Answer)} (reached : transcript call state calls = some (final, entries)) :
    entries = calls.zip (entries.map Prod.snd) := by
  induction calls generalizing state entries with
  | nil => cases reached; rfl
  | cons c calls inductionHypothesis =>
    obtain ⟨next, answer, later, called, rest, rfl⟩ := transcript_cons.mp reached
    rw [List.map_cons, List.zip_cons_cons, ← inductionHypothesis rest]

/-- The answers of a run whose calls are known make its transcript. -/
theorem transcript_of_answers {call : State → Call → Option (State × Answer)} {state : State} {calls : List Call}
    {answers : List Answer}
    (answered : (transcript call state calls).map (fun reached => reached.2.map Prod.snd) = some answers) :
    ∃ final, transcript call state calls = some (final, calls.zip answers) := by
  obtain ⟨⟨final, entries⟩, reached, rfl⟩ := Option.map_eq_some_iff.mp answered
  exact ⟨final, by rw [reached, ← transcript_zip reached]⟩

theorem run_of_transcript {call : State → Call → Option (State × Answer)} {step : State → Call → Option State}
    (forgets : ∀ state c, step state c = (call state c).map Prod.fst) {state final : State} {calls : List Call}
    {entries : List (Call × Answer)} (reached : transcript call state calls = some (final, entries)) :
    run step state calls = some final := by
  induction calls generalizing state entries with
  | nil => cases reached; rfl
  | cons c calls inductionHypothesis =>
    obtain ⟨next, answer, later, called, rest, rfl⟩ := transcript_cons.mp reached
    rw [run, forgets, called, Option.map_some, Option.bind_some, inductionHypothesis rest]

/-- The rule of a guarded run: when each allowed call leaves the state in step with a view that takes in its
    entry, a run leaves it in step with the view that takes in its transcript. -/
theorem transcript_told {call : State → Call → Option (State × Answer)} {step : State → Call → Option State}
    (forgets : ∀ state c, step state c = (call state c).map Prod.fst) {follows : State → View → Prop}
    {told : View → Call × Answer → View} {allowed : State → Call → Prop}
    (told_followed : ∀ state view c next answer, follows state view → allowed state c →
      call state c = some (next, answer) → follows next (told view (c, answer)))
    {state final : State} {view : View} {calls : List Call} {entries : List (Call × Answer)}
    (followed : follows state view) (guarded : Guarded step allowed state calls)
    (reached : transcript call state calls = some (final, entries)) : follows final (entries.foldl told view) := by
  induction calls generalizing state view entries with
  | nil => cases reached; exact followed
  | cons c calls inductionHypothesis =>
    obtain ⟨next, answer, later, called, rest, rfl⟩ := transcript_cons.mp reached
    have nextFollowed := told_followed state view c next answer followed guarded.1 called
    rw [List.foldl_cons]
    exact inductionHypothesis nextFollowed (guarded.2 next (by rw [forgets, called, Option.map_some])) rest

/-- The rule of a view: when each allowed call changes it as the entry of the call tells, a run changes it as
    its transcript tells. -/
theorem transcript_view {call : State → Call → Option (State × Answer)} {inv : State → Prop} {view : State → View}
    {told : View → Call × Answer → View} {allowed : Call → Prop}
    (follows : ∀ state c next answer, inv state → allowed c → call state c = some (next, answer) →
      inv next ∧ view next = told (view state) (c, answer))
    {state final : State} {calls : List Call} {entries : List (Call × Answer)} (holds : inv state)
    (allowedAll : ∀ c ∈ calls, allowed c) (reached : transcript call state calls = some (final, entries)) :
    inv final ∧ view final = entries.foldl told (view state) := by
  have told_followed (state : State) (v : View) (c : Call) (next : State) (answer : Answer)
      (followed : inv state ∧ view state = v) (permitted : allowed c) (called : call state c = some (next, answer)) :
      inv next ∧ view next = told v (c, answer) := by
    rw [← followed.2]
    exact follows state c next answer followed.1 permitted called
  exact transcript_told (fun _ _ => rfl) told_followed ⟨holds, rfl⟩
    (guarded_of_mem (fun _ c member => allowedAll c member) state) reached

/-- The simulation rule for runs that may be undefined: where every defined call that is allowed answers as the
    abstract object does, the transcript has the answers of the abstract object. -/
theorem transcript_simulated {call : State → Call → Option (State × Answer)} {specCall : View → Call → View × Answer}
    {represents : State → View → Prop} {allowed : Call → Prop}
    (simulated : ∀ state spec c next answer, represents state spec → allowed c → call state c = some (next, answer) →
      answer = (specCall spec c).2 ∧ represents next (specCall spec c).1)
    {state final : State} {spec : View} {calls : List Call} {entries : List (Call × Answer)}
    (represented : represents state spec) (allowedAll : ∀ c ∈ calls, allowed c)
    (reached : transcript call state calls = some (final, entries)) :
    entries.map Prod.snd = (specCallAll specCall spec calls).2 ∧
      represents final (specCallAll specCall spec calls).1 := by
  induction calls generalizing state spec entries with
  | nil => cases reached; exact ⟨rfl, represented⟩
  | cons c calls inductionHypothesis =>
    obtain ⟨next, answer, later, called, rest, rfl⟩ := transcript_cons.mp reached
    obtain ⟨same, nextRepresented⟩ :=
      simulated state spec c next answer represented (allowedAll c List.mem_cons_self) called
    obtain ⟨answers, lastRepresented⟩ :=
      inductionHypothesis nextRepresented (fun c' member => allowedAll c' (List.mem_cons_of_mem c member)) rest
    refine ⟨?_, lastRepresented⟩
    rw [List.map_cons, answers, same]
    rfl

/-- Where some entries leave a part of the view alone, that part follows the others. -/
theorem foldl_filter_agree {told : View → Entry → View} {agree : View → View → Prop} {concerns : Entry → Bool}
    (own : ∀ view other entry, concerns entry = true → agree view other →
      agree (told view entry) (told other entry))
    (others : ∀ view other entry, concerns entry = false → agree view other → agree (told view entry) other)
    {view other : View} (entries : List Entry) (same : agree view other) :
    agree (entries.foldl told view) ((entries.filter concerns).foldl told other) := by
  induction entries generalizing view other with
  | nil => exact same
  | cons entry entries inductionHypothesis =>
    cases concerned : concerns entry with
    | true =>
      rw [List.filter_cons_of_pos concerned]
      exact inductionHypothesis (own view other entry concerned same)
    | false =>
      rw [List.filter_cons_of_neg (by simp [concerned])]
      exact inductionHypothesis (others view other entry concerned same)

/-- A view that takes in no more than what is seen of an entry. -/
theorem foldl_seen_congr {Seen : Type*} {told : View → Entry → View} {seen : Entry → Seen}
    (enough : ∀ view entry entry', seen entry = seen entry' → told view entry = told view entry') {view : View}
    {entries entries' : List Entry} (same : entries.map seen = entries'.map seen) :
    entries.foldl told view = entries'.foldl told view := by
  induction entries generalizing view entries' with
  | nil =>
    rw [List.map_nil, eq_comm, List.map_eq_nil_iff] at same
    rw [same]
  | cons entry entries inductionHypothesis =>
    obtain ⟨entry', later, rfl, first, rest⟩ := List.map_eq_cons_iff.mp same.symm
    rw [List.foldl_cons, List.foldl_cons, enough view entry entry' first.symm]
    exact inductionHypothesis rest.symm

end Tao.Foundation
