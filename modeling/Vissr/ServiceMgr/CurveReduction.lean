import Vissr.Polyline
import Vissr.ServiceMgr.RingBuffer

/-! How the points of a window are reduced (`curvelog.go`). Values and times are exact rationals. -/

namespace Vissr.ServiceMgr.Curve

open Polyline Option List Nat

/-- How values and time stamps are read, and milliseconds that were written as a time of RFC 3339,
in seconds. -/
structure Readings where
  parseFloat : Str → Option ℚ
  parseTime : Str → Option ℚ
  parseInt : Str → Option Int
  reformat : Int → Option ℚ

def wholeReadings : Readings where
  parseFloat text := (atoi text).map fun n => (n : ℚ)
  parseTime _ := none
  parseInt := atoi
  reformat milliseconds := some ((milliseconds : ℚ) / 1000)

/-- A value and the seconds since the time base. -/
abbrev CLBufElement := Point ℚ

variable (r : Readings) {d : Nat}

/-- The time that the others of a window are counted from. -/
def Readings.tsBase (ts : Str) : Option ℚ :=
  match r.parseTime ts with
  | some t => some t
  | none => (r.parseInt ts).map fun milliseconds => (milliseconds : ℚ) / 1000

def Readings.time (ts : Str) : Option ℚ :=
  match r.parseTime ts with
  | some t => some t
  | none => (r.parseInt ts).bind r.reformat

def transformDataPoint (aRingBuffer : RingBuffer) (index : Nat) (tsBase : ℚ) :
    CLBufElement × Bool :=
  match r.parseFloat (readRing aRingBuffer index).value with
  | none => (⟨0, 0⟩, false)
  | some value =>
    match r.time (readRing aRingBuffer index).timestamp with
    | none => (⟨0, value⟩, false)
    | some t => (⟨t - tsBase, value⟩, true)

def transformDataPoints (aRingBuffer : RingBuffer) (bufSize : Nat) : Option (List CLBufElement) :=
  if bufSize = 0 then none
  else
    match r.tsBase (readRing aRingBuffer (bufSize - 1)).timestamp with
    | none => none
    | some tsBase =>
      let transformed := (range bufSize).map fun index =>
        transformDataPoint r aRingBuffer index tsBase
      if transformed.all Prod.snd then some (transformed.map Prod.fst) else none

variable (clBuffer : List CLBufElement)

/-- How far an element is off the line through two others. -/
def errorDim (firstIndex lastIndex i : Nat) : ℚ := (clBuffer.getD i ⟨0, 0⟩).value -
    lineAt (clBuffer.getD firstIndex ⟨0, 0⟩) (clBuffer.getD lastIndex ⟨0, 0⟩)
      (clBuffer.getD i ⟨0, 0⟩).time

def clReduction1Dim (firstIndex lastIndex : Nat) (maxError : ℚ) :
    List Nat :=
  reduce (fun first last i => |errorDim clBuffer first last i|) maxError (lastIndex - firstIndex)
    firstIndex lastIndex

/-- With several signals the squares of their errors are added. -/
def clReductionDims (clBuffers : Fin d → List CLBufElement) (firstIndex lastIndex : Nat)
    (maxError : ℚ) : List Nat :=
  reduce (fun first last i => ∑ j, errorDim (clBuffers j) first last i ^ 2) (maxError * maxError)
    (lastIndex - firstIndex) firstIndex lastIndex

def clReduction2Dim (clBuffer1 clBuffer2 : List CLBufElement) : Nat → Nat → ℚ → List Nat :=
  clReductionDims ![clBuffer1, clBuffer2]

def clReduction3Dim (clBuffer1 clBuffer2 clBuffer3 : List CLBufElement) :
    Nat → Nat → ℚ → List Nat :=
  clReductionDims ![clBuffer1, clBuffer2, clBuffer3]

abbrev Sample (d : Nat) := Fin d → RingElement

def readSample (rings : Fin d → RingBuffer) (headOffset : Nat) : Sample d :=
  fun j => readRing (rings j) headOffset

def orLatest : List Nat → List Nat
  | [] => [0]
  | savedIndex => savedIndex

variable (reduction : (Fin d → List CLBufElement) → Nat → Nat → ℚ → List Nat)

/-- The offsets that are sent, the oldest first; the latest only where one is unreadable. -/
def selected
    (rings : Fin d → RingBuffer) (bufSize : Nat) (maxError : ℚ) : List Nat :=
  if ∀ j, (transformDataPoints r (rings j) bufSize).isSome then
    orLatest (chronological (reduction
      (fun j => (transformDataPoints r (rings j) bufSize).getD []) 0 (bufSize - 1) maxError))
  else [0]

def analyzeWith
    (rings : Fin d → RingBuffer) (bufSize : Nat) (maxError : ℚ) : List (Sample d) × Nat :=
  ((selected r reduction rings bufSize maxError).map (readSample rings),
    (selected r reduction rings bufSize maxError).getLast?.getD 0)

scoped instance neZero_two : NeZero 2 := inferInstance
scoped instance neZero_three : NeZero 3 := inferInstance

def clAnalyze2dim : (Fin 2 → RingBuffer) → Nat → ℚ → List (Sample 2) × Nat :=
  analyzeWith r fun clBuffers => clReduction2Dim (clBuffers 0) (clBuffers 1)

def clAnalyze3dim : (Fin 3 → RingBuffer) → Nat → ℚ → List (Sample 3) × Nat :=
  analyzeWith r fun clBuffers => clReduction3Dim (clBuffers 0) (clBuffers 1) (clBuffers 2)

theorem clAnalyze2dim_eq : clAnalyze2dim r = analyzeWith r clReductionDims := by
  have same : ∀ clBuffers : Fin 2 → List CLBufElement, ![clBuffers 0, clBuffers 1] = clBuffers := by
    intro clBuffers
    funext j
    fin_cases j <;> rfl
  simp only [clAnalyze2dim, clReduction2Dim, same]

theorem clAnalyze3dim_eq : clAnalyze3dim r = analyzeWith r clReductionDims := by
  have same : ∀ clBuffers : Fin 3 → List CLBufElement,
      ![clBuffers 0, clBuffers 1, clBuffers 2] = clBuffers := by
    intro clBuffers
    funext j
    fin_cases j <;> rfl
  simp only [clAnalyze3dim, clReduction3Dim, same]

theorem clReduction1Dim_eq {maxError : ℚ} (nonneg : 0 ≤ maxError) (clBuffer : List CLBufElement)
    (firstIndex lastIndex : Nat) : clReduction1Dim clBuffer firstIndex lastIndex maxError =
      clReductionDims (fun _ : Fin 1 => clBuffer) firstIndex lastIndex maxError := by
  have squares : (fun first last i => ∑ _j : Fin 1, errorDim clBuffer first last i ^ 2) =
      fun first last i => |errorDim clBuffer first last i| * |errorDim clBuffer first last i| := by
    funext first last i
    rw [Fin.sum_univ_one, abs_mul_abs_self, pow_two]
  rw [clReduction1Dim, clReductionDims, squares]
  symm
  apply @reduce_scale ℚ _ (fun first last i => |errorDim clBuffer first last i|) maxError _ ℚ _
    (fun x => x * x)
  · intro x y xNonneg yNonneg
    exact (mul_self_lt_mul_self_iff xNonneg yNonneg).symm
  · exact mul_zero 0
  · intro first last i
    exact abs_nonneg _
  · exact nonneg

/-! ### Any buffers -/

variable {n : Nat} {maxError : ℚ} {clBuffer : List CLBufElement}

/-- Given up where the calls are nested deeper than a number. -/
def clReduction1DimWithin (depth : Nat) (clBuffer : List CLBufElement)
    (firstIndex lastIndex : Nat) (maxError : ℚ) : Option (List Nat) :=
  reduceWithin (fun first last i => |errorDim clBuffer first last i|) maxError depth firstIndex
    lastIndex

def clReductionDimsWithin (depth : Nat) (clBuffers : Fin d → List CLBufElement)
    (firstIndex lastIndex : Nat) (maxError : ℚ) : Option (List Nat) :=
  reduceWithin (fun first last i => ∑ j, errorDim (clBuffers j) first last i ^ 2)
    (maxError * maxError) depth firstIndex lastIndex

/-- The times of a buffer go one way only. -/
def StrictTimes (clBuffer : List CLBufElement) : Prop :=
  clBuffer.Pairwise (·.time < ·.time) ∨ clBuffer.Pairwise (·.time > ·.time)

theorem errorDim_left (first last : Nat) : errorDim clBuffer first last first = 0 := by
  rw [errorDim, lineAt_left, sub_self]

theorem StrictTimes.errorDim_right (strict : StrictTimes clBuffer) {first last : Nat}
    (less : first < last) (inside : last < clBuffer.length) :
    errorDim clBuffer first last last = 0 := by
  rw [errorDim, getD_eq_getElem _ _ (less.trans inside), getD_eq_getElem _ _ inside,
    lineAt_right, sub_self]
  obtain up | down := strict
  · exact (pairwise_iff_getElem.mp up first last _ inside less).ne
  · exact (pairwise_iff_getElem.mp down first last _ inside less).ne'

/-- Some depth is enough, and what is kept follows the samples up to an index. -/
def Finds (within : Nat → Option (List Nat)) (measured : Nat → Nat → Nat → ℚ) (bound : ℚ)
    (last : Nat) (kept : List Nat) : Prop :=
  (∃ depth, within depth = some kept) ∧ Reduced measured bound 0 last kept

theorem finds_reduce {measured : Nat → Nat → Nat → ℚ} {bound : ℚ} {last : Nat} (nonneg : 0 ≤ bound)
    (ends : ∀ a b, a < b → b ≤ last → measured a b a ≤ 0 ∧ measured a b b ≤ 0) :
    Finds (fun depth => reduceWithin measured bound depth 0 last) measured bound last
      (reduce measured bound last 0 last) :=
  (reduce_reduced nonneg ends last 0 last (zero_le _) le_rfl le_rfl).imp_left (⟨last + 1, ·⟩)

theorem finds_single (nonneg : 0 ≤ maxError)
    (strict : StrictTimes clBuffer ∧ clBuffer.length = n) :
    Finds (fun depth => clReduction1DimWithin depth clBuffer 0 (n - 1) maxError)
      (fun first last i => |errorDim clBuffer first last i|) maxError (n - 1)
      (clReduction1Dim clBuffer 0 (n - 1) maxError) := by
  obtain ⟨times, rfl⟩ := strict
  refine finds_reduce nonneg fun a b less inside => ?_
  rw [errorDim_left, times.errorDim_right less (by omega), abs_zero]
  exact ⟨le_rfl, le_rfl⟩

theorem finds_several {clBuffers : Fin d → List CLBufElement}
    (strict : ∀ j, StrictTimes (clBuffers j) ∧ (clBuffers j).length = n) :
    Finds (fun depth => clReductionDimsWithin depth clBuffers 0 (n - 1) maxError)
      (fun first last i => ∑ j, errorDim (clBuffers j) first last i ^ 2) (maxError * maxError)
      (n - 1) (clReductionDims clBuffers 0 (n - 1) maxError) := by
  refine finds_reduce (mul_self_nonneg maxError) fun a b less inside => ⟨?_, ?_⟩
  · refine (Finset.sum_eq_zero fun j _ => ?_).le
    rw [errorDim_left, zero_pow two_ne_zero]
  · refine (Finset.sum_eq_zero fun j _ => ?_).le
    obtain ⟨times, length⟩ := strict j
    rw [times.errorDim_right less (by rw [length]; omega), zero_pow two_ne_zero]

/-- The reductions end, and keep every sample within the bound. -/
theorem curve_reductions_correct (nonneg : 0 ≤ maxError)
    (strict : StrictTimes clBuffer ∧ clBuffer.length = n) (clBuffers : Fin d → List CLBufElement)
    (all_strict : ∀ j, StrictTimes (clBuffers j) ∧ (clBuffers j).length = n) :
    Finds (fun depth => clReduction1DimWithin depth clBuffer 0 (n - 1) maxError)
        (fun first last i => |errorDim clBuffer first last i|) maxError (n - 1)
        (clReduction1Dim clBuffer 0 (n - 1) maxError) ∧
      Finds (fun depth => clReductionDimsWithin depth clBuffers 0 (n - 1) maxError)
        (fun first last i => ∑ j, errorDim (clBuffers j) first last i ^ 2) (maxError * maxError)
        (n - 1) (clReductionDims clBuffers 0 (n - 1) maxError) :=
  ⟨finds_single nonneg strict, finds_several all_strict⟩

def bent : List CLBufElement := [⟨0, 0⟩, ⟨1, 3⟩, ⟨2, 0⟩, ⟨3, 3⟩, ⟨4, 3⟩]

theorem clReduction_bent : clReduction1Dim bent 0 4 1 = [3, 2, 1] ∧
    clReductionDims ![bent, bent] 0 4 1 = [3, 2, 1] := by
  decide +kernel

theorem curve_reductions_correct_bent :
    Finds (fun depth => clReduction1DimWithin depth bent 0 4 1)
        (fun first last i => |errorDim bent first last i|) 1 4 [3, 2, 1] ∧
      Finds (fun depth => clReductionDimsWithin depth ![bent, bent] 0 4 1)
        (fun first last i => ∑ j, errorDim (![bent, bent] j) first last i ^ 2) (1 * 1) 4
        [3, 2, 1] := by
  have strict : StrictTimes bent ∧ bent.length = 5 := ⟨.inl (by decide +kernel), rfl⟩
  have found := curve_reductions_correct zero_le_one strict ![bent, bent]
    (Fin.forall_fin_two.mpr ⟨strict, strict⟩)
  rwa [clReduction_bent.1, clReduction_bent.2] at found

theorem errorDim_zero {z : List CLBufElement} (zero : ∀ point ∈ z, point.value = 0)
    (first last i : Nat) : errorDim z first last i = 0 := by
  have value (i : Nat) : (z.getD i ⟨0, 0⟩).value = 0 := by
    rw [getD_eq_getElem?_getD]
    cases found : z[i]? with
    | none => rfl
    | some point => exact zero point (mem_of_getElem? found)
  simp only [errorDim, lineAt, value, sub_self, zero_div, zero_mul, add_zero]

/-- A signal that is zero makes no difference. -/
theorem curve_reductions_consistent (nonneg : 0 ≤ maxError) {z : List CLBufElement}
    (zero : ∀ point ∈ z, point.value = 0) (clBuffer1 clBuffer2 : List CLBufElement)
    (firstIndex lastIndex : Nat) : clReduction2Dim clBuffer1 z firstIndex lastIndex maxError =
        clReduction1Dim clBuffer1 firstIndex lastIndex maxError ∧
      clReduction3Dim clBuffer1 clBuffer2 z firstIndex lastIndex maxError =
        clReduction2Dim clBuffer1 clBuffer2 firstIndex lastIndex maxError := by
  rw [clReduction1Dim_eq nonneg]
  simp [clReduction2Dim, clReduction3Dim, clReductionDims, Fin.sum_univ_succ, errorDim_zero zero]

theorem curve_reductions_consistent_bent :
    clReduction2Dim bent (replicate 5 ⟨0, 0⟩) 0 4 1 = [3, 2, 1] ∧
      clReduction3Dim bent bent (replicate 5 ⟨0, 0⟩) 0 4 1 = [3, 2, 1] := by
  have zero : ∀ point ∈ replicate 5 (⟨0, 0⟩ : CLBufElement), point.value = 0 := by decide +kernel
  have same := curve_reductions_consistent zero_le_one zero bent bent 0 4
  exact ⟨same.1.trans clReduction_bent.1, same.2.trans clReduction_bent.2⟩

/-! ### Readable points -/

def Readings.point (element : RingElement) : Point ℚ :=
  ⟨(r.time element.timestamp).getD 0, (r.parseFloat element.value).getD 0⟩

/-- The value is a number and the time stamp a time. -/
def Numeric (element : RingElement) : Prop :=
  (r.parseFloat element.value).isSome ∧ (r.time element.timestamp).isSome
  deriving Decidable

variable {r}

theorem tsBase_isSome {ts : Str} (readable : (r.time ts).isSome) : ∃ base, r.tsBase ts = some base := by
  rw [Readings.time] at readable
  rw [Readings.tsBase]
  cases parsed : r.parseTime ts with
  | some t => exact ⟨t, rfl⟩
  | none =>
    rw [parsed] at readable
    cases number : r.parseInt ts with
    | none =>
      rw [number] at readable
      cases readable
    | some => exact ⟨_, rfl⟩

theorem transformDataPoint_readable {ring : RingBuffer} {index : Nat} (base : ℚ)
    (readable : Numeric r (readRing ring index)) : transformDataPoint r ring index base =
      (⟨(r.point (readRing ring index)).time - base, (r.point (readRing ring index)).value⟩,
        true) := by
  obtain ⟨value, number⟩ := isSome_iff_exists.mp readable.1
  obtain ⟨t, time⟩ := isSome_iff_exists.mp readable.2
  simp only [transformDataPoint, Readings.point, number, time, getD_some]

/-- The points of a window, counted from some time. -/
def shifted (p : Nat → Point ℚ) (bufSize : Nat) (base : ℚ) : List CLBufElement :=
  (range bufSize).map fun index => ⟨(p index).time - base, (p index).value⟩

theorem transformDataPoints_readable {ring : RingBuffer} {bufSize : Nat} (positive : 0 < bufSize)
    (readable : ∀ index < bufSize, Numeric r (readRing ring index)) :
    ∃ base, transformDataPoints r ring bufSize =
      some (shifted (fun index => r.point (readRing ring index)) bufSize base) := by
  obtain ⟨base, first⟩ := tsBase_isSome (readable (bufSize - 1) (by omega)).2
  have transformed : (range bufSize).map (fun index => transformDataPoint r ring index base) =
      (range bufSize).map fun index =>
        ((⟨(r.point (readRing ring index)).time - base,
          (r.point (readRing ring index)).value⟩ : CLBufElement), true) := by
    apply map_congr_left
    intro index mem
    exact transformDataPoint_readable base (readable index (mem_range.mp mem))
  refine ⟨base, ?_⟩
  rw [transformDataPoints, if_neg (by omega), first]
  simp only [transformed, List.all_map, List.map_map]
  rw [if_pos]
  · rfl
  · simp

variable {p : Nat → Point ℚ} {bufSize first last i : Nat} (base : ℚ)

theorem getD_shifted (inside : i < bufSize) :
    (shifted p bufSize base).getD i ⟨0, 0⟩ = ⟨(p i).time - base, (p i).value⟩ := by
  rw [getD_eq_getElem?_getD, shifted, getElem?_map, getElem?_range inside]
  rfl

theorem errorDim_shifted (firstIn : first < bufSize) (lastIn : last < bufSize)
    (inside : i < bufSize) : errorDim (shifted p bufSize base) first last i =
      (p i).value - lineAt (p first) (p last) (p i).time := by
  rw [errorDim, getD_shifted base inside, getD_shifted base firstIn, getD_shifted base lastIn]
  rw [lineAt_shift]

theorem strict_shifted
    (decreasing : ∀ i k, i < k → k < bufSize → (p k).time < (p i).time) :
    StrictTimes (shifted p bufSize base) ∧ (shifted p bufSize base).length = bufSize := by
  refine ⟨.inr ?_, by rw [shifted, length_map, length_range]⟩
  rw [shifted, pairwise_map, pairwise_iff_getElem]
  intro i k _ inside less
  rw [length_range] at inside
  rw [getElem_range, getElem_range]
  exact sub_lt_sub_right (decreasing i k less inside) base

theorem covers_orLatest {measured : Nat → Nat → Nat → ℚ} {bound : ℚ} {kept : List Nat}
    (reduced : Reduced measured bound 0 last kept) (positive : 0 < last) :
    Covers (fun a b i => measured b a i ≤ bound) last (range last).reverse
        (orLatest (chronological kept)) ((orLatest (chronological kept)).getLast?.getD 0)
        (range ((orLatest (chronological kept)).getLast?.getD 0)).reverse ∧
      (orLatest (chronological kept)).getLast?.getD 0 < last := by
  cases sorted : chronological kept with
  | nil =>
    have none : kept = [] := by
      apply eq_nil_iff_forall_not_mem.mpr
      intro i mem
      have kept := mem_chronological.mpr mem
      rw [sorted] at kept
      cases kept
    rw [none] at reduced
    exact ⟨reduced.covers_nil positive, positive⟩
  | cons i rest =>
    have covers := reduced.covers
    rw [sorted] at covers
    have latest : (i :: rest).getLast?.getD last = (i :: rest).getLast?.getD 0 := by
      rw [getLast?_cons, getD_some, getD_some]
    rw [latest] at covers
    refine ⟨covers, ?_⟩
    have mem : (i :: rest).getLast?.getD 0 ∈ chronological kept := by
      rw [getLast?_eq_getLast_of_ne_nil (cons_ne_nil i rest), getD_some, sorted]
      exact getLast_mem _
    exact (reduced.inside _ (mem_chronological.mp mem)).2

/-! ### Several signals -/

section Samples

variable [NeZero d]

/-- The time of a sample, which its signals have in common. -/
def Readings.sampleTime (r : Readings) (s : Sample d) : ℚ := (r.point (s 0)).time

def Readings.samplePoint (r : Readings) (j : Fin d) (s : Sample d) : Point ℚ :=
  ⟨r.sampleTime s, (r.point (s j)).value⟩

def squaredDistance (r : Readings) (s : Sample d) (curve : Fin d → ℚ) : ℚ :=
  ∑ j, ((r.samplePoint j s).value - curve j) ^ 2

theorem squaredDistance_self (s : Sample d) :
    squaredDistance r s (fun j => (r.samplePoint j s).value) = 0 := by
  simp [squaredDistance]

def NearLine (r : Readings) (maxError : ℚ) (a b s : Sample d) : Prop :=
  squaredDistance r s (fun j => lineAt (r.samplePoint j a) (r.samplePoint j b) (r.sampleTime s)) ≤
    maxError * maxError

structure NumericSample (r : Readings) (s : Sample d) : Prop where
  readable : ∀ j, Numeric r (s j)
  common : ∀ j, (s j).timestamp = (s 0).timestamp

theorem NumericSample.point {s : Sample d} (good : NumericSample r s) (j : Fin d) :
    r.point (s j) = r.samplePoint j s := by
  rw [Readings.samplePoint, Readings.sampleTime, Readings.point, Readings.point, good.common j]

variable {rings : Fin d → RingBuffer} {bufSize : Nat}

theorem clReductionDims_reduced (maxError : ℚ) (positive : 0 < bufSize)
    (good : ∀ i < bufSize, NumericSample r (readSample rings i))
    (decreasing : ∀ i k, i < k → k < bufSize →
      r.sampleTime (readSample rings k) < r.sampleTime (readSample rings i)) :
    ∃ (kept : List Nat) (measured : Nat → Nat → Nat → ℚ),
      selected r clReductionDims rings bufSize maxError = orLatest (chronological kept) ∧
      Reduced measured (maxError * maxError) 0 (bufSize - 1) kept ∧
      ∀ a b i, a < bufSize → b < bufSize → i < bufSize →
        measured a b i = squaredDistance r (readSample rings i)
          (fun j => lineAt (r.samplePoint j (readSample rings a))
            (r.samplePoint j (readSample rings b)) (r.sampleTime (readSample rings i))) := by
  have each : ∀ j, ∃ base, transformDataPoints r (rings j) bufSize =
      some (shifted (fun i => r.samplePoint j (readSample rings i)) bufSize base) := by
    intro j
    rcases @transformDataPoints_readable r (rings j) bufSize positive
      (fun i inside => (good i inside).readable j) with ⟨base, transformed⟩
    refine ⟨base, ?_⟩
    rw [transformed]
    congr 1
    apply map_congr_left
    intro i mem
    have same : r.point (readRing (rings j) i) = r.samplePoint j (readSample rings i) :=
      (good i (mem_range.mp mem)).point j
    simp only [same]
  choose base transformed using each
  have strict := fun j => strict_shifted
    (p := fun i => r.samplePoint j (readSample rings i)) (base j) decreasing
  refine ⟨_, _, ?_, (finds_several strict).2, ?_⟩
  · rw [selected, if_pos]
    · simp only [transformed, getD_some]
    · intro j
      rw [transformed j]
      rfl
  · intro a b i aIn bIn inside
    apply Finset.sum_congr rfl
    intro j _
    rw [errorDim_shifted (base j) aIn bIn inside]
    rfl

theorem analyzeWith_covers (maxError : ℚ) (two : 2 ≤ bufSize)
    (good : ∀ i < bufSize, NumericSample r (readSample rings i))
    (decreasing : ∀ i k, i < k → k < bufSize →
      r.sampleTime (readSample rings k) < r.sampleTime (readSample rings i)) :
    Covers (NearLine r maxError) (readSample rings (bufSize - 1))
        ((range (bufSize - 1)).reverse.map (readSample rings))
        (analyzeWith r clReductionDims rings bufSize maxError).1
        (readSample rings (analyzeWith r clReductionDims rings bufSize maxError).2)
        ((range (analyzeWith r clReductionDims rings bufSize maxError).2).reverse.map
          (readSample rings)) ∧
      (analyzeWith r clReductionDims rings bufSize maxError).2 + 1 < bufSize := by
  obtain ⟨kept, measured, found, reduced, distance⟩ :=
    clReductionDims_reduced maxError (by omega) good decreasing
  obtain ⟨covers, inside⟩ := covers_orLatest reduced (by omega)
  simp only [analyzeWith, found]
  refine ⟨?_, by omega⟩
  apply covers.map (readSample rings)
  intro a b i aIn bIn iIn close
  simp only [mem_cons, mem_reverse, mem_range] at aIn bIn iIn
  by_cases same : a = b
  · subst same
    rw [distance a a i (by omega) (by omega) (by omega)] at close
    exact close
  · rw [distance b a i (by omega) (by omega) (by omega)] at close
    have swap : ∀ j, lineAt (r.samplePoint j (readSample rings a))
        (r.samplePoint j (readSample rings b)) (r.sampleTime (readSample rings i)) =
        lineAt (r.samplePoint j (readSample rings b))
          (r.samplePoint j (readSample rings a)) (r.sampleTime (readSample rings i)) := by
      intro j
      apply lineAt_comm
      obtain less | less := lt_or_gt_of_ne same
      · exact (decreasing a b less (by omega)).ne'
      · exact (decreasing b a less (by omega)).ne
    simp only [NearLine, swap]
    exact close

end Samples

end Vissr.ServiceMgr.Curve
