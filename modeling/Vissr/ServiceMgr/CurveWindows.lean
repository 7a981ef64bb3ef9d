import Vissr.ServiceMgr.SingleCapture

/-! The windows of a curve log of one signal (`curvelog.go`), and the samples in none of them. -/

namespace Vissr.ServiceMgr.Curve

open List Polyline Option

def storedRing (capture : SingleCapture) (round : SingleRound) : RingBuffer :=
  match round.sample with
  | none => capture.ring
  | some element =>
    if (readRing capture.ring 0).timestamp ≠ element.timestamp then writeRing capture.ring element
    else capture.ring

def analysed (bufSize : Nat) (capture : SingleCapture) (round : SingleRound) :
    Option (List RingElement) :=
  let ring := storedRing capture round
  let currentBufSize := getNumOfPopulatedRingElements ring
  if round.sample.isSome ∧
      (currentBufSize = bufSize ∨ (capture.closeClSession || round.closing) = true) then
    some ((range currentBufSize.toNat).map (readRing ring))
  else none

def windowsOf (bufSize : Nat) : History SingleCapture SingleRound SingleOutcome →
    List (List RingElement)
  | [] => []
  | t :: history => (analysed bufSize t.before t.event).toList ++ windowsOf bufSize history

def newSamples (r : Readings) (history : History SingleCapture SingleRound SingleOutcome)
    (t : Transition SingleCapture SingleRound SingleOutcome) : Prop :=
  ∀ s ∈ t.event.sample, Numeric r s ∧ (readRing t.before.ring 0).timestamp ≠ s.timestamp ∧
    ∀ e ∈ singleCaptured history, (r.point e).time < (r.point s).time
  deriving Decidable

/-- The ring has the latest samples, and those before were analysed. -/
structure WindowsCover (bufSize : Nat) (history : History SingleCapture SingleRound SingleOutcome)
    (ring : RingBuffer) : Prop where
  populated : 0 ≤ getNumOfPopulatedRingElements ring ∧ getNumOfPopulatedRingElements ring ≤ bufSize
  latest : ∀ k : Nat, k < getNumOfPopulatedRingElements ring →
    (singleCaptured history).reverse[k]? = some (readRing ring k)
  covered : ∀ k, bufSize ≤ k + 1 → ∀ s ∈ (singleCaptured history).reverse[k]?,
    ∃ w ∈ windowsOf bufSize history, s ∈ w

variable {r : Readings} {path : Str} {bufSize n : Nat} {maxError : ℚ} {ring : RingBuffer}

theorem clAnalyze1dim_last (nonneg : 0 ≤ maxError) (positive : 0 < n)
    (decreasing : ∀ i k, i < k → k < n →
      (r.point (readRing ring k)).time < (r.point (readRing ring i)).time)
    (numeric : ∀ i < n, Numeric r (readRing ring i)) :
    (clAnalyze1dim r ring n maxError).2.1 = 0 ∨ (clAnalyze1dim r ring n maxError).2.1 + 1 < n := by
  obtain ⟨base, transformed⟩ := transformDataPoints_readable positive numeric
  rw [← ringPoints] at transformed
  simp only [clAnalyze1dim, transformed]
  split
  · exact .inl rfl
  · next first rest saved =>
    have last := getLast_mem_cons first rest
    rw [← saved, mem_chronological] at last
    have inside := ((finds_single nonneg (strict_shifted base decreasing)).2.inside _ last).2
    rw [saved] at inside
    have below : (first :: rest).getLast?.getD 0 + 1 < n := by omega
    exact .inr below

structure Holds (bufSize : Nat) (samples : List RingElement) (windows : List (List RingElement))
    (ring : RingBuffer) (n : Nat) : Prop where
  size : ring.bufSize = bufSize + 1
  tail : ring.tail < bufSize + 1
  populated : getNumOfPopulatedRingElements ring = n
  latest : ∀ k < n, samples.reverse[k]? = some (readRing ring k)
  covered : ∀ k ≥ n, ∀ s ∈ samples.reverse[k]?, ∃ w ∈ windows, s ∈ w

variable {samples : List RingElement} {windows : List (List RingElement)}

theorem Holds.write (holds : Holds bufSize samples windows ring n) (room : n < bufSize)
    (element : RingElement) :
    Holds bufSize (samples ++ [element]) windows (writeRing ring element) (n + 1) where
  size := holds.size
  tail := holds.tail
  populated := by
    rw [getNumOfPopulatedRingElements_writeRing, holds.populated]
    · rfl
    · rw [holds.size]
      exact_mod_cast holds.tail
    · rw [holds.size, holds.populated]
      omega
  latest := by
    intro k less
    rw [reverse_append]
    cases k with
    | zero => rw [readRing_writeRing_zero]; rfl
    | succ k =>
      rw [readRing_writeRing_succ ring element (by rw [holds.size]; omega)]
      exact holds.latest k (by omega)
  covered := by
    intro k large s later
    rw [reverse_append] at later
    cases k with
    | zero => omega
    | succ k => exact holds.covered k (by omega) s later

theorem Holds.analyse (holds : Holds bufSize samples windows ring n) (positive : 0 < n)
    (inside : n ≤ bufSize) (two : 2 ≤ bufSize) (nonneg : 0 ≤ maxError)
    (numeric : ∀ s ∈ samples, Numeric r s)
    (increasing : samples.Pairwise fun a b => (r.point a).time < (r.point b).time) :
    (clAnalyze1dim r ring n maxError).2.1 + 1 < bufSize ∧
      Holds bufSize samples ((range n).map (readRing ring) :: windows)
        (setRingTail ring (clAnalyze1dim r ring n maxError).2.1)
        ((clAnalyze1dim r ring n maxError).2.1 + 1) := by
  have ordered := pairwise_reverse.mpr increasing
  have decreasing : ∀ i k, i < k → k < n →
      (r.point (readRing ring k)).time < (r.point (readRing ring i)).time := by
    intro i k less last
    obtain ⟨oldIn, old⟩ := List.getElem?_eq_some_iff.mp (holds.latest k last)
    obtain ⟨newIn, new⟩ := List.getElem?_eq_some_iff.mp (holds.latest i (less.trans last))
    rw [← old, ← new]
    exact pairwise_iff_getElem.mp ordered i k newIn oldIn less
  have last := clAnalyze1dim_last nonneg positive decreasing fun i less =>
    numeric _ (mem_reverse.mp (mem_of_getElem? (holds.latest i less)))
  refine ⟨by omega, holds.size, ?_, getNumOfPopulatedRingElements_setRingTail _ _, ?_, ?_⟩
  · have below := tail_setRingTail_lt ring (clAnalyze1dim r ring n maxError).2.1
    rw [bufSize_setRingTail, holds.size] at below
    exact_mod_cast below
  · exact fun k less => holds.latest k (by omega)
  · intro k _ s at_k
    by_cases current : k < n
    · refine ⟨_, mem_cons_self, mem_map.mpr ⟨k, mem_range.mpr current, ?_⟩⟩
      exact some.inj ((holds.latest k current).symm.trans at_k)
    · obtain ⟨w, listed, mem⟩ := holds.covered k (by omega) s at_k
      exact ⟨w, mem_cons_of_mem _ listed, mem⟩

theorem Holds.round (path : Str) {capture : SingleCapture} {round : SingleRound}
    (holds : Holds bufSize samples windows capture.ring n) (room : n < bufSize) (two : 2 ≤ bufSize)
    (nonneg : 0 ≤ maxError) (new : ∀ s ∈ round.sample,
      (readRing capture.ring 0).timestamp ≠ s.timestamp)
    (numeric : ∀ s ∈ samples ++ round.sample.toList, Numeric r s)
    (increasing : (samples ++ round.sample.toList).Pairwise fun a b =>
      (r.point a).time < (r.point b).time) :
    (singleCaptureRound r path bufSize maxError capture round).2.captured = round.sample.toList ∧
      ∃ m < bufSize, Holds bufSize (samples ++ round.sample.toList)
        ((analysed bufSize capture round).toList ++ windows)
        (singleCaptureRound r path bufSize maxError capture round).1.ring m := by
  cases sampled : round.sample with
  | none =>
    simp only [singleCaptureRound, analysed, sampled, toList_none, append_nil]
    exact ⟨trivial, n, room, holds⟩
  | some element =>
    have fresh := new element sampled
    have new : decide ((readRing capture.ring 0).timestamp ≠ element.timestamp) = true :=
      decide_eq_true fresh
    have stored : storedRing capture round = writeRing capture.ring element := by
      simp only [storedRing, sampled, if_pos fresh]
    have written := holds.write room element
    rw [sampled] at numeric increasing
    simp only [singleCaptureRound, analysed, sampled, stored, new, if_true, isSome_some,
      true_and]
    split_ifs with full
    · have result := written.analyse (by omega) room two nonneg numeric increasing
      rw [← Int.toNat_natCast (n + 1), ← written.populated] at result
      exact ⟨rfl, _, result⟩
    · refine ⟨rfl, n + 1, ?_, written⟩
      have count := written.populated
      omega

theorem holds_of_run (two : 2 ≤ bufSize) (nonneg : 0 ≤ maxError)
    {history : History SingleCapture SingleRound SingleOutcome} {capture : SingleCapture}
    (run : Run (clCapture1dim r path bufSize maxError) (newSamples r) history capture) :
    (∀ s ∈ singleCaptured history, Numeric r s) ∧
      ((singleCaptured history).Pairwise fun a b => (r.point a).time < (r.point b).time) ∧
      ∃ n < bufSize, Holds bufSize (singleCaptured history) (windowsOf bufSize history)
        capture.ring n := by
  induction run with
  | start capture begins =>
    rw [show capture = _ from begins]
    refine ⟨nofun, .nil, 0, by omega, rfl, ?_, rfl, nofun, nofun⟩
    exact Int.natCast_pos.mpr (Nat.succ_pos bufSize)
  | @step history t run taken allowed ih =>
    obtain ⟨numeric, increasing, n, room, holds⟩ := ih
    have numeric' : ∀ s ∈ singleCaptured history ++ t.event.sample.toList, Numeric r s := by
      intro s mem
      obtain before | new := mem_append.mp mem
      · exact numeric s before
      · exact (allowed s (mem_toList.mp new)).1
    have increasing' : (singleCaptured history ++ t.event.sample.toList).Pairwise fun a b =>
        (r.point a).time < (r.point b).time := by
      refine pairwise_append.mpr ⟨increasing, ?_, fun e before s new =>
        (allowed s (mem_toList.mp new)).2.2 e before⟩
      cases t.event.sample <;> simp
    simp only [clCapture1dim] at taken
    split_ifs at taken
    have stepped := holds.round path room two nonneg
      (fun s given => (allowed s given).2.1) numeric' increasing'
    rw [some.inj taken] at stepped
    rw [singleCaptured, stepped.1, windowsOf]
    exact ⟨numeric', increasing', stepped.2⟩

def CoversRuns (bufSize : Nat) : Prop := ∀ (r : Readings) (path : Str) (maxError : ℚ)
    (history : History SingleCapture SingleRound SingleOutcome) (capture : SingleCapture),
    0 ≤ maxError → Run (clCapture1dim r path bufSize maxError) (newSamples r) history capture →
      WindowsCover bufSize history capture.ring

def zeroAt (ts : Str) : SingleRound := { value := some ['0'], ts := some ts, now := 0, later := 0 }

theorem lone_windows : ∃ history capture,
    Run (clCapture1dim wholeReadings ['p'] 1 1) (newSamples wholeReadings) history capture ∧
      singleCaptured history =
        [⟨['0'], "1000"⟩, ⟨['0'], "2000"⟩, ⟨['0'], "3000"⟩] ∧
      windowsOf 1 history = [[⟨['0'], "3000"⟩], [⟨['0'], "1000"⟩]] ∧
      getNumOfPopulatedRingElements capture.ring = 1 := by
  have start : Run (clCapture1dim wholeReadings ['p'] 1 1) (newSamples wholeReadings) [] _ :=
    .start _ rfl
  have first := start.fire (zeroAt "1000") rfl (by decide +kernel)
  have second := first.fire (zeroAt "2000") rfl (by decide +kernel)
  have third := second.fire (zeroAt "3000") rfl (by decide +kernel)
  exact ⟨_, _, third, by decide +kernel, by decide +kernel, by decide +kernel⟩

/-- The windows cover the samples unless they have room for one only. -/
theorem windows_cover_iff (bufSize : Nat) (positive : 0 < bufSize) :
    CoversRuns bufSize ↔ 2 ≤ bufSize := by
  constructor
  · intro covers
    by_contra small
    obtain rfl : bufSize = 1 := by omega
    obtain ⟨history, capture, run, captured, windows, -⟩ := lone_windows
    have covered := (covers _ _ _ _ _ (by decide) run).covered 1 (by decide)
    rw [captured, windows] at covered
    revert covered
    decide
  · intro two r path maxError history capture nonneg run
    obtain ⟨-, -, n, room, holds⟩ := holds_of_run two nonneg run
    refine ⟨?_, ?_, fun k late => holds.covered k (by omega)⟩
    · rw [holds.populated]
      omega
    · rw [holds.populated]
      exact fun k less => holds.latest k (by omega)

theorem windows_cover_two : CoversRuns 2 := (windows_cover_iff 2 (by decide)).mpr (le_refl 2)

/-- The second of three samples is gone, and was in no window. -/
theorem sample_between_windows_lost : ∃ history capture,
    Run (clCapture1dim wholeReadings ['p'] 1 1) (newSamples wholeReadings) history capture ∧
      getNumOfPopulatedRingElements capture.ring = 1 ∧
      (singleCaptured history).reverse[1]? = some ⟨['0'], "2000"⟩ ∧
      ∀ w ∈ windowsOf 1 history, ⟨['0'], "2000"⟩ ∉ w := by
  obtain ⟨history, capture, run, captured, windows, populated⟩ := lone_windows
  refine ⟨history, capture, run, populated, ?_, ?_⟩
  · rw [captured]
    rfl
  · rw [windows]
    decide

end Vissr.ServiceMgr.Curve
