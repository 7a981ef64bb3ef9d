import Vissr.ServiceMgr.CurveCapture

/-! The capture thread of a curve log of one signal (`server/vissv2server/serviceMgr/curvelog.go`). -/

namespace Vissr.ServiceMgr.Curve

open Polyline List Function

variable (r : Readings)

/-- The type is positive for a point that was saved, zero for one that was not, and -1 for none. -/
structure PostProcessBufElement1dim where
  data : CLBufElement := ⟨0, 0⟩
  dp : Option RingElement := none
  type : Int := 0

abbrev PostProc := Fin 3 → PostProcessBufElement1dim

variable (aRingBuffer : RingBuffer)

/-- The selected points, and the offsets of the last and the first; the latest point where there are
none. -/
def clAnalyze1dim (bufSize : Nat) (maxError : ℚ) :
    List RingElement × Nat × Nat :=
  match transformDataPoints r aRingBuffer bufSize with
  | none => ([readRing aRingBuffer 0], 0, 0)
  | some clBuffer =>
    match chronological (clReduction1Dim clBuffer 0 (bufSize - 1) maxError) with
    | [] => ([readRing aRingBuffer 0], 0, 0)
    | first :: rest =>
      ((first :: rest).map (readRing aRingBuffer), (first :: rest).getLast?.getD 0, first)

/-- The time base is the time of the call, each time another one. -/
def writePostProcElement1dim (firstSelected : Nat) (now : ℚ)
    (postProc : PostProc) (pos : Fin 3) : PostProc :=
  update postProc pos
    { data := (transformDataPoint r aRingBuffer firstSelected now).1
      dp := some (readRing aRingBuffer firstSelected)
      type := firstSelected }

variable (postProc : PostProc)

def movePostProcElement1dim (source dest : Fin 3) : PostProc :=
  update postProc dest (postProc source)

def clearPostProcElement1dim (pos : Fin 3) : PostProc :=
  update postProc pos { postProc pos with type := -1 }

/-- The middle point is off the line. A division by zero is infinite, unless a factor is zero. -/
def saveNonPdrDp (maxError : ℚ) : Bool :=
  if (postProc 2).data.time = (postProc 0).data.time then
    decide ((postProc 1).data.time ≠ (postProc 0).data.time ∧
      (postProc 2).data.value ≠ (postProc 0).data.value)
  else
    let fraction := ((postProc 1).data.time - (postProc 0).data.time) /
      ((postProc 2).data.time - (postProc 0).data.time)
    let pos2InterpolatedValue := (postProc 0).data.value +
      ((postProc 2).data.value - (postProc 0).data.value) * fraction
    decide (maxError < |(postProc 1).data.value - pos2InterpolatedValue|)

/-- The point to be sent after all; the clock is read up to two times. -/
def postProcess1dim (firstSelected lastSelected : Nat)
    (postProc : PostProc) (maxError : ℚ) (now later : ℚ) : Option RingElement × PostProc :=
  if (postProc 0).type = -1 then
    (none, writePostProcElement1dim r aRingBuffer lastSelected now postProc 0)
  else if (postProc 1).type = -1 then
    (none, writePostProcElement1dim r aRingBuffer lastSelected now postProc
      (if firstSelected = 0 then 1 else 0))
  else
    let postProc := writePostProcElement1dim r aRingBuffer firstSelected now postProc 2
    let save := saveNonPdrDp postProc maxError
    if firstSelected = 0 then
      let postProc := movePostProcElement1dim postProc 1 0
      let postProc := movePostProcElement1dim postProc 2 1
      let postProc := clearPostProcElement1dim postProc 2
      (if save then (postProc 0).dp else none, postProc)
    else
      let postProc := writePostProcElement1dim r aRingBuffer lastSelected later postProc 0
      let postProc := clearPostProcElement1dim postProc 1
      let postProc := clearPostProcElement1dim postProc 2
      (if save then (postProc 1).dp else none, postProc)

/-- What a round reads, with the readings of the clock. -/
structure SingleRound where
  closing : Bool := false
  value : Option Str
  ts : Option Str
  now : ℚ
  later : ℚ

structure SingleCapture where
  ring : RingBuffer
  closeClSession : Bool := false
  lastSelected : Nat := 0
  postProc : PostProc := fun _ => {}
  ended : Bool := false

structure SingleOutcome where
  captured : List RingElement := []
  transmitted : List RingElement := []
  dataPacks : List Str := []
  returnsSingleDp : Bool := false

def SingleRound.sample (round : SingleRound) : Option RingElement :=
  match round.value, round.ts with
  | some value, some ts => if value = inlineErrorDataNotAvailable then none else some ⟨value, ts⟩
  | _, _ => none

variable (path : Str) (bufSize : Nat) (maxError : ℚ)

def analyzeSingleRound (capture : SingleCapture) (round : SingleRound) (ring : RingBuffer)
    (closing : Bool) (captured : List RingElement) : SingleCapture × SingleOutcome :=
  let analysis := clAnalyze1dim r ring (getNumOfPopulatedRingElements ring).toNat maxError
  let lastSelected := analysis.2.1
  let processed := postProcess1dim r ring analysis.2.2 lastSelected capture.postProc maxError
    round.now round.later
  -- the point that was kept back is sent before the ones of this window
  let sent := processed.1.toList.map (fun element => [element]) ++
    if 0 < lastSelected then [analysis.1] else []
  ({ ring := setRingTail ring lastSelected
     closeClSession := closing
     lastSelected
     postProc := processed.2
     ended := closing },
    { captured
      transmitted := sent.flatten
      dataPacks := sent.map fun points => pathDpText path (dataPointsText points)
      returnsSingleDp := closing })

def singleCaptureRound (capture : SingleCapture) (round : SingleRound) :
    SingleCapture × SingleOutcome :=
  let closing := capture.closeClSession || round.closing
  match round.sample with
  | none => ({ capture with closeClSession := closing }, {})
  | some element =>
    let fresh := decide ((readRing capture.ring 0).timestamp ≠ element.timestamp)
    let ring := if fresh then writeRing capture.ring element else capture.ring
    let captured := if fresh then [element] else []
    if getNumOfPopulatedRingElements ring = bufSize ∨ closing = true then
      analyzeSingleRound r path maxError capture round ring closing captured
    else ({ capture with ring, closeClSession := closing }, { captured })

def clCapture1dim : Machine SingleCapture SingleRound SingleOutcome where
  init capture := capture = { ring := createRingBuffer (bufSize + 1) bufSize.succ_pos }
  step capture round :=
    if capture.ended then none else some (singleCaptureRound r path bufSize maxError capture round)

/-! ### The points that are sent -/

def singleCaptured : History SingleCapture SingleRound SingleOutcome → List RingElement
  | [] => []
  | t :: history => singleCaptured history ++ t.output.captured

def transmitted : History SingleCapture SingleRound SingleOutcome → List RingElement
  | [] => []
  | t :: history => transmitted history ++ t.output.transmitted

def singleStillOpen : History SingleCapture SingleRound SingleOutcome →
    Transition SingleCapture SingleRound SingleOutcome → Prop :=
  fun _ t => t.event.closing = false

/-- The points are in the order of their times, and up to the last every sample is near the polyline
through them. -/
structure SingleBound (maxError : ℚ) (samples sent : List RingElement) : Prop where
  ordered : sent.Pairwise fun a b => (r.point a).time < (r.point b).time
  bounded : ∀ first ∈ samples.head?, ∀ last ∈ sent.getLast?, ∀ s ∈ samples,
    (r.point s).time ≤ (r.point last).time →
      |(r.point s).value - valueAt ((first :: sent).map r.point) (r.point s).time| ≤ maxError

def Bent (maxError : ℚ) (samples : List RingElement) : Prop :=
  ∃ first ∈ samples.head?, ∃ last ∈ samples.getLast?, ∃ s ∈ samples,
    maxError < |(r.point s).value - lineAt (r.point first) (r.point last) (r.point s).time|

def StraightEnd (bufSize : Nat) (maxError : ℚ) (samples : List RingElement) (e : RingElement) :
    Prop :=
  ∃ w, w <:+: samples ∧ w.length = bufSize ∧ ¬ Bent r maxError w ∧ w.getLast? = some e

/-- A chord over such a last sample has no sample off it either. -/
def ChordsNear (bufSize : Nat) (maxError : ℚ) (samples : List RingElement) : Prop :=
  ∀ e, StraightEnd r bufSize maxError samples e → ∀ a ∈ samples, ∀ b ∈ samples, ∀ s ∈ samples,
    (r.point a).time < (r.point e).time → (r.point e).time < (r.point b).time →
    (r.point a).time < (r.point s).time → (r.point s).time < (r.point b).time →
      |(r.point s).value - lineAt (r.point a) (r.point b) (r.point s).time| ≤ maxError

variable {r} {path : Str} {bufSize : Nat} {maxError : ℚ}

theorem StraightEnd.append {samples : List RingElement} {e : RingElement}
    (straight : StraightEnd r bufSize maxError samples e) (more : List RingElement) :
    StraightEnd r bufSize maxError (samples ++ more) e := by
  obtain ⟨w, inside, rest⟩ := straight
  exact ⟨w, inside.trans (prefix_append samples more).isInfix, rest⟩

/-! ### The point that is kept back -/

def Pending : Option RingElement → Prop
  | none => (postProc = fun _ => {}) ∨ (postProc 0).type ≠ -1 ∧ (postProc 1).type = -1
  | some e => (postProc 0).type ≠ -1 ∧ (postProc 1).type ≠ -1 ∧ (postProc 1).dp = some e

variable {postProc : PostProc} {pending : Option RingElement} (before : Pending postProc pending)
  (ring : RingBuffer)

include before in
theorem Pending.cases : (postProc 0).type ≠ -1 ∧ (pending = none ∧ (postProc 1).type = -1 ∨
      (postProc 1).type ≠ -1 ∧ (postProc 1).dp = pending) := by
  cases pending with
  | none =>
    obtain rfl | ⟨used, empty⟩ := before
    · exact ⟨by decide, .inr ⟨by decide, rfl⟩⟩
    · exact ⟨used, .inl ⟨rfl, empty⟩⟩
  | some => exact ⟨before.1, .inr before.2⟩

include before in
theorem postProcess1dim_bent {firstSelected : Nat} (some : firstSelected ≠ 0)
    (lastSelected : Nat) (now later : ℚ) :
    ((postProcess1dim r ring firstSelected lastSelected postProc maxError now later).1 = none ∨
      (postProcess1dim r ring firstSelected lastSelected postProc maxError now later).1 = pending) ∧
      Pending (postProcess1dim r ring firstSelected lastSelected postProc maxError now later).2
        none := by
  obtain ⟨used, ⟨rfl, empty⟩ | ⟨decided, dp⟩⟩ := before.cases
  · rw [postProcess1dim, if_neg used, if_pos empty, if_neg some]
    refine ⟨.inl rfl, .inr ⟨?_, ?_⟩⟩
    · simp [writePostProcElement1dim]
    · simpa [writePostProcElement1dim, update_of_ne] using empty
  · rw [postProcess1dim, if_neg used, if_neg decided]
    simp only [if_neg some]
    refine ⟨?_, .inr ⟨?_, ?_⟩⟩
    · split_ifs
      · apply Or.inr
        simpa [clearPostProcElement1dim, writePostProcElement1dim, update_of_ne] using dp
      · exact .inl rfl
    · simp [clearPostProcElement1dim, writePostProcElement1dim, update_of_ne]
    · simp [clearPostProcElement1dim, update_of_ne]

include before in
theorem postProcess1dim_straight (now later : ℚ) :
    ((postProcess1dim r ring 0 0 postProc maxError now later).1 = none ∨
      (postProcess1dim r ring 0 0 postProc maxError now later).1 = pending) ∧
      Pending (postProcess1dim r ring 0 0 postProc maxError now later).2
        (some (readRing ring 0)) := by
  obtain ⟨used, ⟨rfl, empty⟩ | ⟨decided, dp⟩⟩ := before.cases
  · rw [postProcess1dim, if_neg used, if_pos empty, if_pos rfl]
    refine ⟨.inl rfl, ?_, ?_, ?_⟩
    · simpa [writePostProcElement1dim, update_of_ne] using used
    · simp [writePostProcElement1dim]
    · simp [writePostProcElement1dim]
  · rw [postProcess1dim, if_neg used, if_neg decided]
    simp only [if_true]
    constructor
    · split_ifs
      · apply Or.inr
        simpa [clearPostProcElement1dim, writePostProcElement1dim, movePostProcElement1dim,
          update_of_ne] using dp
      · exact .inl rfl
    · simpa [Pending, clearPostProcElement1dim, writePostProcElement1dim,
        movePostProcElement1dim, update_of_ne] using decided

/-! ### Windows of one signal -/

def single (element : RingElement) : Sample 1 := fun _ => element

theorem window_single (ring : RingBuffer) (n : Nat) : window (fun _ : Fin 1 => ring) n =
      ((range n).reverse.map (readRing ring)).map single := by
  rw [window, map_map]
  rfl

def ringPoints (r : Readings) (ring : RingBuffer) (bufSize : Nat) (base : ℚ) : List CLBufElement :=
  shifted (fun i => r.point (readRing ring i)) bufSize base

variable {ring}
  (decreasing : ∀ i k, i < k → k < bufSize → (r.point (readRing ring k)).time < (r.point (readRing ring i)).time)

include decreasing in
theorem clReduction1Dim_ne_nil (nonneg : 0 ≤ maxError) (two : 2 ≤ bufSize)
    (bent : Bent r maxError ((range bufSize).reverse.map (readRing ring))) (base : ℚ) :
    clReduction1Dim (ringPoints r ring bufSize base) 0 (bufSize - 1) maxError ≠ [] := by
  obtain ⟨first, isFirst, last, isLast, s, mem, far⟩ := bent
  have newest : last = readRing ring 0 := by
    rw [getLast?_map, getLast?_reverse, head?_range, if_neg (by omega)] at isLast
    exact (Option.some.inj isLast).symm
  have oldest : first = readRing ring (bufSize - 1) := by
    rw [head?_map, head?_reverse, getLast?_range, if_neg (by omega)] at isFirst
    exact (Option.some.inj isFirst).symm
  obtain ⟨i, inside, rfl⟩ := mem_map.mp mem
  rw [mem_reverse, mem_range] at inside
  have apart := decreasing 0 (bufSize - 1) (by omega) (by omega)
  have error : errorDim (ringPoints r ring bufSize base) 0 (bufSize - 1) i =
      (r.point (readRing ring i)).value - lineAt (r.point (readRing ring 0))
        (r.point (readRing ring (bufSize - 1))) (r.point (readRing ring i)).time :=
    errorDim_shifted base (by omega) (by omega) inside
  rw [newest, oldest, lineAt_comm apart.ne, ← error] at far
  have off : errorDim (ringPoints r ring bufSize base) 0 (bufSize - 1) i ≠ 0 := by
    intro onLine
    rw [onLine, abs_zero] at far
    exact absurd nonneg (not_le.mpr far)
  have notFirst : i ≠ 0 := by
    rintro rfl
    exact off (errorDim_left _ _)
  have notLast : i ≠ bufSize - 1 := by
    rintro rfl
    obtain ⟨strict, length⟩ := strict_shifted base decreasing
    exact off (strict.errorDim_right (by omega) (by omega))
  have fuel : bufSize - 1 - 0 = bufSize - 2 + 1 := by omega
  rw [clReduction1Dim, fuel]
  exact reduce_ne_nil (by omega : 0 < i) (by omega) far

theorem getLast_mem_cons (first : Nat) (rest : List Nat) :
    (first :: rest).getLast?.getD 0 ∈ first :: rest := by
  rw [getLast?_eq_getLast_of_ne_nil (cons_ne_nil first rest), Option.getD_some]
  exact getLast_mem _

include decreasing in
theorem clAnalyze1dim_cases (nonneg : 0 ≤ maxError) (two : 2 ≤ bufSize)
    (numeric : ∀ i < bufSize, Numeric r (readRing ring i)) :
    (clAnalyze1dim r ring bufSize maxError = ([readRing ring 0], 0, 0) ∧
      ¬ Bent r maxError ((range bufSize).reverse.map (readRing ring)) ∧
      analyzeWith r clReductionDims (fun _ : Fin 1 => ring) bufSize maxError =
        ([single (readRing ring 0)], 0)) ∨
    ∃ data last first, clAnalyze1dim r ring bufSize maxError = (data, last, first) ∧
      0 < last ∧ first ≠ 0 ∧
      analyzeWith r clReductionDims (fun _ : Fin 1 => ring) bufSize maxError =
        (data.map single, last) := by
  obtain ⟨base, transformed⟩ := transformDataPoints_readable (by omega : 0 < bufSize) numeric
  rw [← ringPoints] at transformed
  have chosen : selected r clReductionDims (fun _ : Fin 1 => ring) bufSize maxError =
      orLatest (chronological
        (clReduction1Dim (ringPoints r ring bufSize base) 0 (bufSize - 1) maxError)) := by
    rw [selected, if_pos (fun _ => by rw [transformed]; rfl), clReduction1Dim_eq nonneg]
    simp only [transformed, Option.getD_some]
  have inside := (finds_single nonneg (strict_shifted base decreasing)).2.inside
  have off := clReduction1Dim_ne_nil decreasing nonneg two
  cases saved : chronological
      (clReduction1Dim (ringPoints r ring bufSize base) 0 (bufSize - 1) maxError) with
  | nil =>
    apply Or.inl
    refine ⟨by simp only [clAnalyze1dim, transformed, saved], ?_, ?_⟩
    · intro bent
      obtain ⟨i, mem⟩ := exists_mem_of_ne_nil _ (off bent base)
      have kept := mem_chronological.mpr mem
      rw [saved] at kept
      cases kept
    · rw [analyzeWith, chosen, saved]
      rfl
  | cons first rest =>
    apply Or.inr
    have positive : ∀ i ∈ first :: rest, 0 < i := by
      intro i mem
      rw [← saved] at mem
      exact (inside i (mem_chronological.mp mem)).1
    have last := getLast_mem_cons first rest
    refine ⟨(first :: rest).map (readRing ring), (first :: rest).getLast?.getD 0, first,
      by simp only [clAnalyze1dim, transformed, saved], positive _ last,
      (positive first mem_cons_self).ne', ?_⟩
    rw [analyzeWith, chosen, saved, map_map]
    rfl

/-! ### Runs of one signal -/

/-- What is sent is what several signals would give, but for the point kept back and the ends of
some straight windows. -/
def KeptBack (r : Readings) (bufSize : Nat) (maxError : ℚ) (samples vertices sent : List RingElement)
    (postProc : PostProc) : Prop :=
  ∃ decided pending, vertices = decided ++ pending.toList ∧ Pending postProc pending ∧
    (∀ e ∈ pending, StraightEnd r bufSize maxError samples e) ∧
    Thinned (StraightEnd r bufSize maxError samples) decided sent

section KeptBack

variable {samples vertices sent : List RingElement} {postProc : PostProc}

theorem KeptBack.capture (kept : KeptBack r bufSize maxError samples vertices sent postProc)
    (more : List RingElement) :
    KeptBack r bufSize maxError (samples ++ more) vertices sent postProc := by
  obtain ⟨decided, pending, parts, buffer, straight, thinned⟩ := kept
  refine ⟨decided, pending, parts, buffer, ?_, ?_⟩
  · intro e mem
    exact (straight e mem).append more
  · exact thinned.mono fun e straight => straight.append more

theorem thinned_of_extra {extra : Option RingElement} {decided : List RingElement}
    (thinned : Thinned (StraightEnd r bufSize maxError samples) decided sent)
    (straight : ∀ e ∈ pending, StraightEnd r bufSize maxError samples e)
    (choice : extra = none ∨ extra = pending) :
    Thinned (StraightEnd r bufSize maxError samples) (decided ++ pending.toList)
      (sent ++ extra.toList) := by
  apply thinned.append
  obtain rfl | rfl := choice
  · cases pending with
    | none => exact .nil
    | some e => exact .drop (straight e rfl) .nil
  · exact .refl _

theorem KeptBack.bent (kept : KeptBack r bufSize maxError samples vertices sent postProc)
    (ring : RingBuffer) {first : Nat} (some : first ≠ 0) (last : Nat) (now later : ℚ)
    (data : List RingElement) : KeptBack r bufSize maxError samples (vertices ++ data)
      (sent ++ ((postProcess1dim r ring first last postProc maxError now later).1.toList ++ data))
      (postProcess1dim r ring first last postProc maxError now later).2 := by
  obtain ⟨decided, pending, rfl, buffer, straight, thinned⟩ := kept
  obtain ⟨choice, after⟩ := postProcess1dim_bent (r := r) buffer ring some last now later
  refine ⟨decided ++ pending.toList ++ data, none, ?_, after, nofun, ?_⟩
  · rw [Option.toList_none, append_nil]
  · rw [← append_assoc]
    exact (thinned_of_extra thinned straight choice).append (.refl data)

theorem KeptBack.straight (kept : KeptBack r bufSize maxError samples vertices sent postProc)
    (ring : RingBuffer) (now later : ℚ)
    (ends : StraightEnd r bufSize maxError samples (readRing ring 0)) :
    KeptBack r bufSize maxError samples (vertices ++ [readRing ring 0])
      (sent ++ (postProcess1dim r ring 0 0 postProc maxError now later).1.toList)
      (postProcess1dim r ring 0 0 postProc maxError now later).2 := by
  obtain ⟨decided, pending, rfl, buffer, straight, thinned⟩ := kept
  obtain ⟨choice, after⟩ := postProcess1dim_straight (r := r) buffer ring now later
  refine ⟨decided ++ pending.toList, some (readRing ring 0), rfl, after, ?_, ?_⟩
  · intro e same
    cases same
    exact ends
  · exact thinned_of_extra thinned straight choice

end KeptBack

structure SingleOpen (r : Readings) (bufSize : Nat) (maxError : ℚ) (samples sent : List RingElement)
    (capture : SingleCapture) : Prop where
  running : capture.closeClSession = false
  following : ∃ n < bufSize, ∃ vertices, Following r bufSize maxError (samples.map single)
    (vertices.map single) (fun _ => capture.ring) n ∧
    KeptBack r bufSize maxError samples vertices sent capture.postProc

theorem SingleOpen.start (two : 2 ≤ bufSize) :
    SingleOpen r bufSize maxError [] [] { ring := createRingBuffer (bufSize + 1) bufSize.succ_pos } where
  running := rfl
  following := by
    have opened : Open r bufSize maxError ([] : List (Sample 1)) []
        { rings := fun _ => createRingBuffer (bufSize + 1) bufSize.succ_pos } := Open.start two
    obtain ⟨n, room, following⟩ := opened.following
    exact ⟨n, room, [], following, [], none, rfl, .inl rfl, nofun, .nil⟩

theorem singleCaptureRound_cases {capture : SingleCapture} {round : SingleRound}
    (running : capture.closeClSession = false) (still : round.closing = false)
    (notFull : getNumOfPopulatedRingElements capture.ring ≠ bufSize) :
    singleCaptureRound r path bufSize maxError capture round = (capture, {}) ∨ ∃ element,
      getNumOfPopulatedRingElements (writeRing capture.ring element) ≠ bufSize ∧
        singleCaptureRound r path bufSize maxError capture round =
          ({ capture with ring := writeRing capture.ring element }, { captured := [element] }) ∨
      getNumOfPopulatedRingElements (writeRing capture.ring element) = bufSize ∧
        singleCaptureRound r path bufSize maxError capture round =
          analyzeSingleRound r path maxError capture round (writeRing capture.ring element) false
            [element] := by
  have same : { capture with closeClSession := false } = capture := by
    cases capture
    simp only at running
    rw [running]
  simp only [singleCaptureRound, running, still, Bool.or_false]
  cases round.sample with
  | none => exact .inl (by simp only [same])
  | some element =>
    by_cases fresh : (readRing capture.ring 0).timestamp ≠ element.timestamp
    · refine .inr ⟨element, ?_⟩
      simp only [fresh, ne_eq, not_false_eq_true, decide_true, if_true, Bool.false_eq_true,
        or_false]
      by_cases full : getNumOfPopulatedRingElements (writeRing capture.ring element) = bufSize
      · exact .inr ⟨full, if_pos full⟩
      · exact .inl ⟨full, if_neg full⟩
    · simp only [fresh, decide_false, Bool.false_eq_true, if_false, or_false, notFull]
      exact .inl (by simp only [same])

theorem single_injective : Function.Injective single := fun _ _ same => congrFun same 0

theorem suffix_of_map_single {xs ys : List RingElement}
    (suffix : xs.map single <:+ ys.map single) : xs <:+ ys := by
  rw [suffix_iff_eq_drop, ← map_drop] at suffix
  rw [map_injective_iff.mpr single_injective suffix]
  exact drop_suffix _ ys

theorem pairwise_map_single {samples : List RingElement}
    (increasing : samples.Pairwise fun a b => (r.point a).time < (r.point b).time) :
    (samples.map single).Pairwise (r.sampleTime · < r.sampleTime ·) := by
  rw [pairwise_map]
  exact increasing

theorem numericSample_single {samples : List RingElement}
    (numeric : ∀ s ∈ samples, Numeric r s) : ∀ s ∈ samples.map single, NumericSample r s := by
  intro s mem
  obtain ⟨element, inside, rfl⟩ := mem_map.mp mem
  exact ⟨fun _ => numeric element inside, fun _ => rfl⟩

variable {samples sent : List RingElement} {capture : SingleCapture} {event : SingleRound}

theorem SingleOpen.analyze (two : 2 ≤ bufSize) (nonneg : 0 ≤ maxError) {vertices : List RingElement}
    (following : Following r bufSize maxError (samples.map single) (vertices.map single)
      (fun _ => ring) bufSize)
    (kept : KeptBack r bufSize maxError samples vertices sent capture.postProc)
    (numeric : ∀ s ∈ samples, Numeric r s)
    (increasing : samples.Pairwise fun a b => (r.point a).time < (r.point b).time)
    (stored : List RingElement) : SingleOpen r bufSize maxError samples
      (sent ++ (analyzeSingleRound r path maxError capture event ring false stored).2.transmitted)
      (analyzeSingleRound r path maxError capture event ring false stored).1 := by
  have suffix := following.tracks.suffix
  rw [window_single] at suffix
  have inside := suffix_of_map_single suffix
  have current : ∀ i < bufSize, readRing ring i ∈ (range bufSize).reverse.map (readRing ring) := by
    intro i less
    apply mem_map_of_mem
    rwa [mem_reverse, mem_range]
  have ordered := window_decreasing ((pairwise_map_single increasing).sublist
    following.tracks.suffix.sublist)
  have decreasing : ∀ i k, i < k → k < bufSize →
      (r.point (readRing ring k)).time < (r.point (readRing ring i)).time := ordered
  have populated : (getNumOfPopulatedRingElements ring).toNat = bufSize := by
    rw [following.populated, Int.toNat_natCast]
  have analysis := following.analyze two (numericSample_single numeric)
    (pairwise_map_single increasing)
  have flat (extra : Option RingElement) (rest : List (List RingElement)) :
      ((extra.toList.map fun element => [element]) ++ rest).flatten =
        extra.toList ++ rest.flatten := by
    cases extra <;> rfl
  rcases clAnalyze1dim_cases decreasing nonneg two
    (fun i less => numeric _ (inside.mem (current i less))) with
    ⟨result, straight, same⟩ | ⟨data, last, first, result, positive, some, same⟩
  · have ends : StraightEnd r bufSize maxError samples (readRing ring 0) := by
      refine ⟨_, inside.isInfix, ?_, straight, ?_⟩
      · rw [length_map, length_reverse, length_range]
      · rw [getLast?_map, getLast?_reverse, head?_range, if_neg (by omega)]
        rfl
    rw [same] at analysis
    simp only [analyzeSingleRound, populated, result, Nat.lt_irrefl, if_false, flat, flatten_nil]
    refine ⟨rfl, _, analysis.2, vertices ++ [readRing ring 0], ?_, ?_⟩
    · rw [map_append]
      exact analysis.1
    · rw [append_nil]
      exact kept.straight ring event.now event.later ends
  · rw [same] at analysis
    simp only [analyzeSingleRound, populated, result, if_pos positive, flat, flatten_singleton]
    refine ⟨rfl, _, analysis.2, vertices ++ data, ?_, ?_⟩
    · rw [map_append]
      exact analysis.1
    · exact kept.bent ring some last event.now event.later data

theorem SingleOpen.round (two : 2 ≤ bufSize) (nonneg : 0 ≤ maxError)
    (still : event.closing = false) {next : SingleCapture × SingleOutcome}
    (taken : singleCaptureRound r path bufSize maxError capture event = next)
    (before : SingleOpen r bufSize maxError samples sent capture)
    (numeric : ∀ s ∈ samples ++ next.2.captured, Numeric r s)
    (increasing : (samples ++ next.2.captured).Pairwise fun a b =>
      (r.point a).time < (r.point b).time) :
    SingleOpen r bufSize maxError (samples ++ next.2.captured) (sent ++ next.2.transmitted)
      next.1 := by
  obtain ⟨n, room, vertices, following, kept⟩ := before.following
  have notFull : getNumOfPopulatedRingElements capture.ring ≠ bufSize := by
    rw [following.populated]
    omega
  obtain nothing | ⟨element, outcome⟩ := singleCaptureRound_cases before.running still notFull
  · rw [nothing] at taken
    subst taken
    simpa only [append_nil] using before
  · have written := following.write room (single element)
    have count : getNumOfPopulatedRingElements (writeRing capture.ring element) = (n + 1 : Nat) :=
      written.populated
    rw [← map_singleton, ← map_append] at written
    obtain ⟨notYet, stored⟩ | ⟨full, analysed⟩ := outcome
    · rw [stored] at taken
      subst taken
      rw [append_nil]
      exact ⟨before.running, n + 1, by omega, vertices, written, kept.capture [element]⟩
    · have last : n + 1 = bufSize := by omega
      rw [last] at written
      rw [analysed] at taken
      subst taken
      exact SingleOpen.analyze two nonneg written (kept.capture [element]) numeric increasing
        [element]

theorem KeepsBound.single (nonneg : 0 ≤ maxError)
    (bound : KeepsBound r maxError (samples.map single) (sent.map single))
    (increasing : samples.Pairwise fun a b => (r.point a).time < (r.point b).time) :
    SingleBound r maxError samples sent where
  ordered := by
    have ordered := (pairwise_map_single increasing).sublist bound.subsequence
    rw [pairwise_map] at ordered
    exact ordered
  bounded := by
    intro first isFirst last isLast s mem before
    have near := bound.bounded (Curve.single first)
      (by rw [head?_map, Option.mem_def.mp isFirst]; rfl) (Curve.single last)
      (by rw [getLast?_map, Option.mem_def.mp isLast]; rfl) (Curve.single s)
      (mem_map_of_mem mem) before
    rw [squaredDistance, Fin.sum_univ_one, ← map_cons, map_map] at near
    exact abs_le_of_sq_le_sq near nonneg

theorem nearLine_single (a b s : RingElement)
    (near : |(r.point s).value - lineAt (r.point a) (r.point b) (r.point s).time| ≤ maxError) :
    NearLine r maxError (single a) (single b) (single s) := by
  rw [NearLine, squaredDistance, Fin.sum_univ_one, pow_two]
  exact abs_le_iff_mul_self_le.mp (near.trans (le_abs_self maxError))

theorem singleOpen_of_run (two : 2 ≤ bufSize) (nonneg : 0 ≤ maxError)
    {history : History SingleCapture SingleRound SingleOutcome}
    (run : Run (clCapture1dim r path bufSize maxError) singleStillOpen history capture)
    (numeric : ∀ s ∈ singleCaptured history, Numeric r s)
    (increasing : (singleCaptured history).Pairwise fun a b =>
      (r.point a).time < (r.point b).time) :
    SingleOpen r bufSize maxError (singleCaptured history) (transmitted history) capture := by
  revert numeric increasing
  apply run.invariant fun history capture => (∀ s ∈ singleCaptured history, Numeric r s) →
    (singleCaptured history).Pairwise (fun a b => (r.point a).time < (r.point b).time) →
      SingleOpen r bufSize maxError (singleCaptured history) (transmitted history) capture
  · intro start begins _ _
    rw [begins]
    exact SingleOpen.start two
  · intro history t before taken still numeric increasing
    rw [singleCaptured] at numeric increasing
    have earlier := sublist_append_left (singleCaptured history) t.output.captured
    have opened := before (fun s mem => numeric s (earlier.mem mem))
      (increasing.sublist earlier)
    simp only [clCapture1dim] at taken
    split_ifs at taken
    exact opened.round two nonneg still (Option.some.inj taken) numeric increasing

/-- The bound is kept where chords over the ends of straight windows are near the samples. -/
theorem single_curve_log_keeps_bound (two : 2 ≤ bufSize) (nonneg : 0 ≤ maxError)
    {history : History SingleCapture SingleRound SingleOutcome}
    (run : Run (clCapture1dim r path bufSize maxError) singleStillOpen history capture)
    (numeric : ∀ s ∈ singleCaptured history, Numeric r s)
    (increasing : (singleCaptured history).Pairwise fun a b => (r.point a).time < (r.point b).time)
    (chords : ChordsNear r bufSize maxError (singleCaptured history)) :
    SingleBound r maxError (singleCaptured history) (transmitted history) := by
  obtain ⟨n, _, vertices, following, decided, pending, rfl, _, straight, thinned⟩ :=
    (singleOpen_of_run two nonneg run numeric increasing).following
  -- the point that is kept back has not been sent
  have thin := thinned_of_extra thinned straight (.inl rfl)
  rw [Option.toList_none, append_nil] at thin
  have mapped : Thinned (fun s : Sample 1 =>
      StraightEnd r bufSize maxError (singleCaptured history) (s 0)) _ _ :=
    thin.map single fun _ straight => straight
  rcases following.tracks.thin mapped (pairwise_map_single increasing) (by
    intro e straight _ aMapped _ bMapped _ sMapped
    obtain ⟨a, aIn, rfl⟩ := mem_map.mp aMapped
    obtain ⟨b, bIn, rfl⟩ := mem_map.mp bMapped
    obtain ⟨s, sIn, rfl⟩ := mem_map.mp sMapped
    intro before after low high
    exact nearLine_single a b s (chords (e 0) straight a aIn b bIn s sIn before after low high))
    with ⟨current, tracks⟩
  exact (tracks.keepsBound (pairwise_map_single increasing)).single nonneg increasing

theorem single_curve_log_keeps_bound_corner : ∃ history capture,
    Run (clCapture1dim wholeReadings ['p'] 3 1) singleStillOpen history capture ∧
      transmitted history = [⟨"10", "2000"⟩] ∧
      SingleBound wholeReadings 1 (singleCaptured history) (transmitted history) := by
  rcases Run.of_execWhile (clCapture1dim wholeReadings ['p'] 3 1)
    { ring := createRingBuffer 4 (by omega) } rfl (fun t => t.event.closing = false) (fun _ _ => id)
    [{ value := some ['0'], ts := some "1000".toList, now := 1, later := 1 },
      { value := some "10".toList, ts := some "2000".toList, now := 2, later := 2 },
      { value := some ['0'], ts := some "3000".toList, now := 3, later := 3 }]
    (fun history _ => singleCaptured history = [⟨['0'], "1000"⟩,
        ⟨"10", "2000"⟩, ⟨['0'], "3000"⟩] ∧
      transmitted history = [⟨"10", "2000"⟩])
    (by decide +kernel) with ⟨history, capture, run, stored, sent⟩
  refine ⟨history, capture, run, sent, ?_⟩
  apply single_curve_log_keeps_bound (by omega) (by decide) run
  · rw [stored]
    decide +kernel
  · rw [stored]
    decide +kernel
  · rintro e ⟨w, inside, size, straight, -⟩
    rw [stored] at inside
    rw [inside.eq_of_length size] at straight
    exact absurd ⟨⟨['0'], "1000"⟩, rfl, ⟨['0'], "3000"⟩, rfl,
      ⟨"10", "2000"⟩, by decide, by decide +kernel⟩ straight

/-- A curve that goes up twice and back. -/
def bendingRounds : List SingleRound :=
  [{ value := some ['0'], ts := some "1000".toList, now := 1, later := 1 },
    { value := some ['5'], ts := some "2000".toList, now := 2, later := 2 },
    { value := some "10".toList, ts := some "3000".toList, now := 7 / 2, later := 7 / 2 },
    { value := some "20".toList, ts := some "4000".toList, now := 4, later := 4 },
    { value := some ['0'], ts := some "5000".toList, now := 5, later := 5 }]

def bendingSamples : List RingElement :=
  [⟨['0'], "1000"⟩, ⟨['5'], "2000"⟩, ⟨"10", "3000"⟩,
    ⟨"20", "4000"⟩, ⟨['0'], "5000"⟩]

/-- The end of the first window is not sent, where the curve bends. -/
theorem skipped_end_needed : ∃ history capture,
    Run (clCapture1dim wholeReadings ['p'] 3 1) singleStillOpen history capture ∧
      (∀ s ∈ singleCaptured history, Numeric wholeReadings s) ∧ (singleCaptured history).Pairwise
        (fun a b => (wholeReadings.point a).time < (wholeReadings.point b).time) ∧
      ¬ SingleBound wholeReadings 1 (singleCaptured history) (transmitted history) := by
  rcases Run.of_execWhile (clCapture1dim wholeReadings ['p'] 3 1)
    { ring := createRingBuffer 4 (by omega) } rfl (fun t => t.event.closing = false) (fun _ _ => id)
    bendingRounds (fun history _ => singleCaptured history = bendingSamples ∧
      transmitted history = [⟨"20", "4000"⟩])
    (by decide +kernel) with ⟨history, capture, run, stored, sent⟩
  refine ⟨history, capture, run, ?_, ?_, ?_⟩
  · rw [stored]
    decide +kernel
  · rw [stored]
    decide +kernel
  · intro bound
    rw [stored, sent] at bound
    have near := bound.bounded ⟨['0'], "1000"⟩ rfl ⟨"20", "4000"⟩ rfl
      ⟨"10", "3000"⟩ (by decide) (by decide +kernel)
    revert near
    decide +kernel

end Vissr.ServiceMgr.Curve
