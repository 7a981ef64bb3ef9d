import Vissr.Core.Checks
import Vissr.ServiceMgr.CurveReduction
import Vissr.ServiceMgr.Subscriptions

/-! The parameters of a curve log: what the core accepts, and whether the reduction ends with them. -/

namespace Vissr.Core

open Json

theorem validateFilter_curvelog {env : Env} {filter : FilterObject} {maxerr : Str}
    (curvelog : filter.type = "curvelog")
    (found : getStr (mapRequest filter.parameter).1 "maxerr" = some maxerr)
    (number : isNumber env.parseFloat maxerr = true) : validateFilter env filter = none := by
  have notRange : filter.type ≠ "range" := by rw [curvelog]; decide
  have notChange : filter.type ≠ "change" := by rw [curvelog]; decide
  unfold validateFilter
  dsimp only
  rw [if_neg notRange, if_neg notChange, if_pos curvelog, found]
  exact if_pos number

end Vissr.Core

namespace Vissr.ServiceMgr.Curve

open Polyline

variable (r : Readings)

def getCurveLoggingParams (opValue : Str) : ℚ × Int :=
  match unmarshalPair "maxerr" "bufsize" opValue with
  | none => (0, 0)
  | some (maxErr, bufSize) => ((r.parseFloat maxErr).getD 0, (atoi bufSize).getD 1)

variable {r} {maxError : ℚ}

def flat : List CLBufElement := [⟨0, 0⟩, ⟨1, 0⟩, ⟨2, 0⟩]

theorem flat_strict : StrictTimes flat := .inl (by decide +kernel)

theorem flat_stuck (negative : maxError < 0) (depth : Nat) :
    clReduction1DimWithin depth flat 0 2 maxError = none :=
  reduceWithin_stuck negative (by decide) (by decide +kernel) depth

/-- The reduction always ends just when the allowed error is not negative. -/
theorem curve_reduction_terminates_iff (r : Readings) (opValue : Str) :
    (∀ clBuffer, StrictTimes clBuffer → ∃ depth kept,
      clReduction1DimWithin depth clBuffer 0 (clBuffer.length - 1)
        (getCurveLoggingParams r opValue).1 = some kept) ↔
      0 ≤ (getCurveLoggingParams r opValue).1 := by
  constructor
  · intro ends
    by_contra negative
    obtain ⟨depth, kept, found⟩ := ends flat flat_strict
    have stuck := flat_stuck (not_le.mp negative) depth
    exact Option.some_ne_none kept (found.symm.trans stuck)
  · intro nonneg clBuffer strict
    obtain ⟨⟨depth, found⟩, -⟩ := finds_single nonneg ⟨strict, rfl⟩
    exact ⟨depth, _, found⟩

def negativeMaxerr : Str := "\x7b\"maxerr\":\"-1\",\"bufsize\":\"3\"\x7d"

/-- The core accepts a curve log that never returns from its first window. -/
theorem negative_maxerr_accepted : (∀ env : Core.Env, Core.validateFilter
      { env with parseFloat := fun text => (wholeReadings.parseFloat text).map fun _ => .finite }
      ⟨"curvelog", negativeMaxerr⟩ = none) ∧
    StrictTimes flat ∧ ∀ depth, clReduction1DimWithin depth flat 0 2 (getCurveLoggingParams
      wholeReadings negativeMaxerr).1 = none := by
  have number : isNumber (fun text => (wholeReadings.parseFloat text).map fun _ => .finite)
      "-1" = true := by decide +kernel
  refine ⟨fun env => ?_, flat_strict, flat_stuck (by decide +kernel)⟩
  exact Core.validateFilter_curvelog rfl (by decide +kernel) number

end Vissr.ServiceMgr.Curve
