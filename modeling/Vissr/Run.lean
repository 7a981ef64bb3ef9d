import Mathlib

/-! Runs of a machine, with the history of what happened. -/

namespace Vissr

/-- A machine takes a step on an event that is enabled; a crash is one that is not. -/
structure Machine (σ ε ω : Type*) where
  init : σ → Prop
  step : σ → ε → Option (σ × ω)

structure Transition (σ ε ω : Type*) where
  before : σ
  event : ε
  after : σ
  output : ω

variable {σ ε ω : Type*}

/-- What has happened, the last transition first. -/
abbrev History (σ ε ω : Type*) := List (Transition σ ε ω)

/-- The runs whose steps all meet a condition, which may depend on the history. -/
inductive Run (machine : Machine σ ε ω) (ok : History σ ε ω → Transition σ ε ω → Prop) :
    History σ ε ω → σ → Prop
  | start (s : σ) (begins : machine.init s) : Run machine ok [] s
  | step {history : History σ ε ω} {t : Transition σ ε ω} (run : Run machine ok history t.before)
      (taken : machine.step t.before t.event = some (t.after, t.output))
      (allowed : ok history t) : Run machine ok (t :: history) t.after

def anyStep : History σ ε ω → Transition σ ε ω → Prop := fun _ _ => True

variable {machine : Machine σ ε ω} {ok : History σ ε ω → Transition σ ε ω → Prop}

/-- What holds at the start and is kept by every step holds in every state that is reached. -/
theorem Run.invariant (inv : History σ ε ω → σ → Prop) (base : ∀ s, machine.init s → inv [] s)
    (keep : ∀ history t, inv history t.before →
      machine.step t.before t.event = some (t.after, t.output) → ok history t →
        inv (t :: history) t.after)
    {history : History σ ε ω} {s : σ} (run : Run machine ok history s) : inv history s := by
  induction run with
  | start s begins => exact base s begins
  | step run taken allowed ih => exact keep _ _ ih taken allowed

/-- A step of a machine that has no outputs. -/
theorem step_of_taken {next : Option σ} {s : σ} {o : Unit}
    (taken : next.map (fun after => (after, ())) = some (s, o)) : next = some s := by
  obtain ⟨after, rfl, same⟩ := Option.map_eq_some_iff.mp taken
  exact congrArg some (congrArg Prod.fst same)

/-- Where from states with an invariant two properties of a step are equivalent, and the first keeps
the invariant, they are for all steps of a run. -/
theorem Run.forall_iff (inv : σ → Prop) {p q : Transition σ ε ω → Prop}
    (base : ∀ s, machine.init s → inv s)
    (keep : ∀ t, inv t.before → machine.step t.before t.event = some (t.after, t.output) →
      (p t ↔ q t) ∧ (p t → inv t.after))
    {history : History σ ε ω} {s : σ} (run : Run machine ok history s) :
    (∀ t ∈ history, p t) ↔ ∀ t ∈ history, q t := by
  suffices both : ((∀ t ∈ history, p t) ↔ ∀ t ∈ history, q t) ∧
      ((∀ t ∈ history, p t) → inv s) from both.1
  induction run with
  | start s begins => exact ⟨iff_of_true nofun nofun, fun _ => base s begins⟩
  | @step history t run taken allowed ih =>
    rw [List.forall_mem_cons, List.forall_mem_cons, ← ih.1]
    constructor
    · apply and_congr_left
      intro earlier
      exact (keep t (ih.2 earlier) taken).1
    · rintro ⟨last, earlier⟩
      exact (keep t (ih.2 earlier) taken).2 last

def Machine.exec (machine : Machine σ ε ω) (history : History σ ε ω) (s : σ) :
    List ε → Option (History σ ε ω × σ)
  | [] => some (history, s)
  | e :: events =>
    match machine.step s e with
    | some (s', o) => machine.exec (⟨s, e, s', o⟩ :: history) s' events
    | none => none

theorem Run.exec {history history' : History σ ε ω} {s s' : σ} {events : List ε}
    (run : Run machine anyStep history s)
    (executed : machine.exec history s events = some (history', s')) :
    Run machine anyStep history' s' := by
  induction events generalizing history s with
  | nil =>
    cases executed
    exact run
  | cons e events ih =>
    rw [Machine.exec] at executed
    split at executed
    · next next output taken =>
      exact ih (Run.step (t := ⟨s, e, next, output⟩) run taken trivial) executed
    · cases executed

theorem Run.of_exec (machine : Machine σ ε ω) (s : σ) (begins : machine.init s)
    (events : List ε) (p : History σ ε ω → σ → Prop) [∀ history s, Decidable (p history s)]
    (checked : (machine.exec [] s events).any (fun result => p result.1 result.2) = true) :
    ∃ history s', Run machine anyStep history s' ∧ p history s' := by
  obtain ⟨result, executed, passed⟩ := (Option.any_eq_true _ _).mp checked
  exact ⟨result.1, result.2, (Run.start s begins).exec executed, of_decide_eq_true passed⟩

def Machine.execWhile (machine : Machine σ ε ω) (test : Transition σ ε ω → Bool)
    (history : History σ ε ω) (s : σ) : List ε → Option (History σ ε ω × σ)
  | [] => some (history, s)
  | e :: events =>
    match machine.step s e with
    | some (s', o) =>
      if test ⟨s, e, s', o⟩ then
        machine.execWhile test (⟨s, e, s', o⟩ :: history) s' events
      else none
    | none => none

theorem Run.execWhile {test : Transition σ ε ω → Bool}
    (sound : ∀ history t, test t = true → ok history t) {history history' : History σ ε ω}
    {s s' : σ} {events : List ε} (run : Run machine ok history s)
    (executed : machine.execWhile test history s events = some (history', s')) :
    Run machine ok history' s' := by
  induction events generalizing history s with
  | nil =>
    cases executed
    exact run
  | cons e events ih =>
    rw [Machine.execWhile] at executed
    split at executed
    · next next output taken =>
      split_ifs at executed with passed
      exact ih (Run.step (t := ⟨s, e, next, output⟩) run taken (sound _ _ passed)) executed
    · cases executed

theorem Run.of_execWhile (machine : Machine σ ε ω) (s : σ) (begins : machine.init s)
    (test : Transition σ ε ω → Prop) [DecidablePred test]
    (sound : ∀ history t, test t → ok history t) (events : List ε)
    (p : History σ ε ω → σ → Prop) [∀ history s, Decidable (p history s)]
    (checked : (machine.execWhile (fun t => test t) [] s events).any
      (fun result => p result.1 result.2) = true) :
    ∃ history s', Run machine ok history s' ∧ p history s' := by
  obtain ⟨result, executed, passed⟩ := (Option.any_eq_true _ _).mp checked
  refine ⟨result.1, result.2, (Run.start s begins).execWhile ?_ executed, of_decide_eq_true passed⟩
  intro history t tested
  exact sound history t (of_decide_eq_true tested)

def Machine.fire (machine : Machine σ ε ω) (s : σ) (e : ε)
    (enabled : (machine.step s e).isSome = true) : Transition σ ε ω :=
  ⟨s, e, ((machine.step s e).get enabled).1, ((machine.step s e).get enabled).2⟩

theorem Run.fire {history : History σ ε ω} {s : σ} (run : Run machine ok history s) (e : ε)
    (enabled : (machine.step s e).isSome = true) (allowed : ok history (machine.fire s e enabled)) :
    Run machine ok (machine.fire s e enabled :: history) (machine.fire s e enabled).after :=
  .step (t := machine.fire s e enabled) run (Option.some_get enabled).symm allowed

end Vissr
