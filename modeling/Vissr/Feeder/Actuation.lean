import Vissr.Common

/-! Simulated actuations (`calculateSimValue` in `feeder/feeder-template/feederv4/feederv4.go`). -/

namespace Vissr.Feeder

open List

structure ActuatorSimCtx where
  remainingSteps : Int
  currVal : Str
  endVal : Str

section Simulation

variable {Float64 : Type} [Add Float64] [Sub Float64] [Div Float64] [IntCast Float64]
  (parseFloat : Str → Option Float64) (formatFloat : Float64 → Str)

/-- The value and the context. A division by no steps ends the feeder. -/
def calculateSimValue (aSimCtx : ActuatorSimCtx) : Option (Str × ActuatorSimCtx) :=
  let noOfSteps := aSimCtx.remainingSteps
  let atEnd := some (aSimCtx.endVal, { aSimCtx with remainingSteps := 0 })
  let advanced (currVal : Str) :=
    some (currVal, { aSimCtx with remainingSteps := noOfSteps - 1, currVal })
  match atoi aSimCtx.endVal with
  | none =>
    match parseFloat aSimCtx.endVal, parseFloat aSimCtx.currVal with
    | some endValue, some currValue =>
      advanced (formatFloat (currValue + (endValue - currValue) / (noOfSteps : Float64)))
    | _, _ => atEnd
  | some endValue =>
    match atoi aSimCtx.currVal with
    | none => atEnd
    | some currValue =>
      if noOfSteps = 0 then none
      else
        let step := wrap64 ((wrap64 (endValue - currValue)).tdiv noOfSteps)
        advanced (itoa (wrap64 (currValue + step)))

def simulate : Nat → ActuatorSimCtx → Option (List Str × ActuatorSimCtx)
  | 0, aSimCtx => some ([], aSimCtx)
  | n + 1, aSimCtx => do
    let (value, aSimCtx) ← calculateSimValue parseFloat formatFloat aSimCtx
    let (values, aSimCtx) ← simulate n aSimCtx
    return (value :: values, aSimCtx)

end Simulation

theorem wrap64_of_fits {n : Int} (fits : fitsInt n = true) : wrap64 n = n := by
  rw [fitsInt_iff] at fits
  rw [wrap64]
  omega

theorem tdiv_between (distance : Int) {n : Int} (positive : 0 < n) :
    (0 ≤ distance → 0 ≤ distance.tdiv n ∧ distance.tdiv n ≤ distance) ∧
      (distance ≤ 0 → distance ≤ distance.tdiv n ∧ distance.tdiv n ≤ 0) := by
  constructor
  · intro up
    exact ⟨Int.tdiv_nonneg up positive.le, Int.tdiv_le_self n up⟩
  · intro down
    have opposite := Int.neg_tdiv distance n
    have nonneg := Int.tdiv_nonneg (Int.neg_nonneg_of_nonpos down) positive.le
    have bounded := Int.tdiv_le_self n (Int.neg_nonneg_of_nonpos down)
    omega

variable {Float64 : Type} [Add Float64] [Sub Float64] [Div Float64] [IntCast Float64]
  (parseFloat : Str → Option Float64) (formatFloat : Float64 → Str) {aSimCtx : ActuatorSimCtx}
  {start stop : Int} {n : Nat}

theorem calculateSimValue_steps (fits : fitsInt (stop - start) = true)
    (current : atoi aSimCtx.currVal = some start) (final : atoi aSimCtx.endVal = some stop)
    (steps : aSimCtx.remainingSteps = n + 1) :
    ∃ next : Int, calculateSimValue parseFloat formatFloat aSimCtx =
        some (itoa next, ⟨n, itoa next, aSimCtx.endVal⟩) ∧ atoi (itoa next) = some next ∧
      (start ≤ stop → start ≤ next ∧ next ≤ stop) ∧ (stop ≤ start → stop ≤ next ∧ next ≤ start) ∧
      (n = 0 → next = stop) := by
  have between := tdiv_between (stop - start) (n := n + 1) (by omega)
  have startFits := atoi_fits current
  have stopFits := atoi_fits final
  have stepFits : fitsInt ((stop - start).tdiv (n + 1)) = true := by
    rw [fitsInt_iff] at *
    omega
  have nextFits : fitsInt (start + (stop - start).tdiv (n + 1)) = true := by
    rw [fitsInt_iff] at *
    omega
  refine ⟨start + (stop - start).tdiv (n + 1), ?_, atoi_itoa _ nextFits, by omega, by omega, ?_⟩
  · simp only [calculateSimValue, current, final, steps, wrap64_of_fits fits,
      wrap64_of_fits stepFits, wrap64_of_fits nextFits]
    rw [if_neg (by omega), Int.add_sub_cancel]
  · intro last
    subst last
    have whole : (stop - start).tdiv ((0 : Nat) + 1) = stop - start := Int.tdiv_one _
    omega

/-- The calls of an actuation go towards its end, and the last one reaches it. -/
theorem simulated_actuation_arrives (fits : fitsInt (stop - start) = true)
    (current : atoi aSimCtx.currVal = some start) (final : atoi aSimCtx.endVal = some stop)
    (positive : 1 ≤ n) (steps : aSimCtx.remainingSteps = n) :
    ∃ (values : List Int) (after : ActuatorSimCtx),
      simulate parseFloat formatFloat n aSimCtx = some ((values ++ [stop]).map itoa, after) ∧
      after.remainingSteps = 0 ∧
      (start ≤ stop → IsChain (· ≤ ·) (start :: (values ++ [stop]))) ∧
      (stop ≤ start → IsChain (· ≥ ·) (start :: (values ++ [stop]))) := by
  induction n generalizing aSimCtx start with
  | zero => omega
  | succ n ih =>
    obtain ⟨next, call, read, up, down, last⟩ :=
      calculateSimValue_steps parseFloat formatFloat fits current final steps
    rw [simulate, call]
    cases n with
    | zero =>
      obtain rfl := last rfl
      exact ⟨[], _, rfl, rfl, by simp, by simp⟩
    | succ n =>
      have closer : fitsInt (stop - next) = true := by
        rw [fitsInt_iff] at *
        omega
      obtain ⟨values, after, calls, done, rising, falling⟩ :=
        @ih ⟨(n + 1 : Nat), itoa next, aSimCtx.endVal⟩ next closer read final (by omega) rfl
      refine ⟨next :: values, after, ?_, done, ?_, ?_⟩
      · dsimp only [Option.bind_eq_bind, Option.bind_some]
        rw [calls]
        rfl
      · intro below
        exact isChain_cons_cons.mpr ⟨(up below).1, rising (up below).2⟩
      · intro above
        exact isChain_cons_cons.mpr ⟨(down above).2, falling (down above).1⟩

theorem three_steps_down : ∃ (values : List Int) (after : ActuatorSimCtx),
    simulate (fun _ => none) (fun _ : Int => []) 3 ⟨3, "5", "-2"⟩ =
      some ((values ++ [-2]).map itoa, after) ∧ after.remainingSteps = 0 ∧
      IsChain (· ≥ ·) (5 :: (values ++ [-2])) := by
  have current : atoi (ActuatorSimCtx.mk 3 "5" "-2").currVal = some 5 := by decide
  have final : atoi (ActuatorSimCtx.mk 3 "5" "-2").endVal = some (-2) := by decide
  obtain ⟨values, after, calls, done, -, falling⟩ := simulated_actuation_arrives (fun _ => none)
    (fun _ : Int => []) (by decide) current final (by decide) rfl
  exact ⟨values, after, calls, done, falling (by decide)⟩

end Vissr.Feeder
