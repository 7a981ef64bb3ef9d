import Vissr.Run
import Vissr.Json.RoundTrip
import Vissr.ServiceMgr.CurveReduction

/-! The capture threads of two and three signals (`curvelog.go`), and the error of what they send. -/

namespace Vissr.ServiceMgr.Curve

open Json Polyline List

def inlineErrorDataNotAvailable : Str := "viss-inline:Data-not-available"

def dataPointText (element : RingElement) : Str :=
  "\x7b\"value\":\"" ++ element.value ++ "\",\"ts\":\"" ++ element.timestamp ++
    "\"\x7d"

def dataPointsText : List RingElement → Str
  | [element] => dataPointText element
  | elements => '[' :: joinComma (elements.map dataPointText) ++ [']']

def pathDpText (path dp : Str) : Str :=
  "\x7b\"path\":\"" ++ path ++ "\",\"dp\":" ++ dp ++ ['\x7d']

variable {d : Nat}

def dataPackText (paths : Fin d → Str) (points : List (Sample d)) : Str :=
  '[' :: joinComma (ofFn fun j =>
    pathDpText (paths j) (dataPointsText (points.map fun point => point j))) ++ [']']

structure Round (d : Nat) where
  closing : Bool := false
  value : Fin d → Option Str
  ts : Fin d → Option Str

/-- The round goes on only if all signals have a value and a time stamp. -/
def Round.sample (round : Round d) : Option (Sample d) :=
  if ∀ j, (round.value j).isSome ∧ round.value j ≠ some inlineErrorDataNotAvailable ∧
      (round.ts j).isSome then
    some fun j => ⟨(round.value j).getD [], (round.ts j).getD []⟩
  else none

structure Capture (d : Nat) where
  rings : Fin d → RingBuffer
  closeClSession : Bool := false
  updatedTail : Nat := 0
  ended : Bool := false

/-- The stored sample, the points sent and their text, and whether it was the last. -/
structure Outcome (d : Nat) where
  captured : List (Sample d) := []
  emitted : List (Sample d) := []
  dataPack : Option Str := none
  returnsSingleDp : Bool := false

variable (rings : Fin d → RingBuffer) (sample : Sample d)

/-- It is new for every signal and its time stamps agree. -/
def Fresh : Prop := (∀ j, (readRing (rings j) 0).timestamp ≠ (sample j).timestamp) ∧
    ∀ i j, (sample i).timestamp = (sample j).timestamp
  deriving Decidable

def writeSample : Fin d → RingBuffer := fun j => writeRing (rings j) (sample j)

section Machine

variable [NeZero d] (analyze : (Fin d → RingBuffer) → Nat → ℚ → List (Sample d) × Nat)
  (paths : Fin d → Str) (bufSize : Nat) (maxError : ℚ)

def analyzeRound (rings : Fin d → RingBuffer) (closing : Bool) (captured : List (Sample d)) :
    Capture d × Outcome d :=
  let result := analyze rings (getNumOfPopulatedRingElements (rings 0)).toNat maxError
  ({ rings := fun j => setRingTail (rings j) result.2
     closeClSession := closing
     updatedTail := result.2
     ended := closing },
    { captured
      emitted := result.1
      dataPack := some (dataPackText paths result.1)
      returnsSingleDp := closing && decide (0 < result.2) })

def captureRound (capture : Capture d) (round : Round d) : Capture d × Outcome d :=
  let closing := capture.closeClSession || round.closing
  match round.sample with
  | none => ({ capture with closeClSession := closing }, {})
  | some sample =>
    let fresh := decide (Fresh capture.rings sample)
    let rings := if fresh then writeSample capture.rings sample else capture.rings
    let captured := if fresh then [sample] else []
    if getNumOfPopulatedRingElements (rings 0) = bufSize ∨ closing = true then
      analyzeRound analyze paths maxError rings closing captured
    else ({ capture with rings, closeClSession := closing }, { captured })

/-- A round that is not asked for does nothing. -/
def captureThread : Machine (Capture d) (Round d) (Outcome d) where
  init capture := capture = { rings := fun _ => createRingBuffer (bufSize + 1) bufSize.succ_pos }
  step capture round :=
    if capture.ended then none
    else some (captureRound analyze paths bufSize maxError capture round)

end Machine

def clCapture2dim (r : Readings) (paths : Fin 2 → Str) (bufSize : Nat) (maxError : ℚ) :
    Machine (Capture 2) (Round 2) (Outcome 2) :=
  captureThread (clAnalyze2dim r) paths bufSize maxError

def clCapture3dim (r : Readings) (paths : Fin 3 → Str) (bufSize : Nat) (maxError : ℚ) :
    Machine (Capture 3) (Round 3) (Outcome 3) :=
  captureThread (clAnalyze3dim r) paths bufSize maxError

/-! ### Windows -/

def window (n : Nat) : List (Sample d) := (range n).reverse.map (readSample rings)

theorem window_succ (n : Nat) : window rings (n + 1) = readSample rings n :: window rings n := by
  rw [window, range_succ, reverse_append, reverse_singleton, singleton_append, map_cons]
  rfl

variable {n : Nat}

theorem window_writeSample (room : ∀ j, n < (rings j).bufSize) :
    window (writeSample rings sample) (n + 1) = window rings n ++ [sample] := by
  induction n with
  | zero =>
    rw [window_succ]
    congr 1
    funext j
    exact readRing_writeRing_zero (rings j) (sample j)
  | succ n ih =>
    have moved : readSample (writeSample rings sample) (n + 1) = readSample rings n := by
      funext j
      exact readRing_writeRing_succ (rings j) (sample j) (room j)
    rw [window_succ, moved, ih fun j => (Nat.lt_succ_self n).trans (room j), window_succ,
      cons_append]

theorem mem_window {rings : Fin d → RingBuffer} {i : Nat} (inside : i < n) :
    readSample rings i ∈ window rings n := by
  apply mem_map_of_mem
  rw [mem_reverse, mem_range]
  exact inside

theorem window_decreasing [NeZero d] {r : Readings} {rings : Fin d → RingBuffer}
    (increasing : (window rings n).Pairwise (r.sampleTime · < r.sampleTime ·)) (i k : Nat)
    (less : i < k) (inside : k < n) :
    r.sampleTime (readSample rings k) < r.sampleTime (readSample rings i) := by
  rw [window, pairwise_map, pairwise_reverse, pairwise_iff_getElem] at increasing
  have ordered := increasing i k (by rw [length_range]; omega)
    (by rw [length_range]; omega) less
  rwa [getElem_range, getElem_range] at ordered

/-! ### Runs -/

section Runs

variable [NeZero d] {r : Readings} {paths : Fin d → Str} {bufSize : Nat} {maxError : ℚ}

def captured : History (Capture d) (Round d) (Outcome d) → List (Sample d)
  | [] => []
  | t :: history => captured history ++ t.output.captured

def emitted : History (Capture d) (Round d) (Outcome d) → List (Sample d)
  | [] => []
  | t :: history => emitted history ++ t.output.emitted

def stillOpen : History (Capture d) (Round d) (Outcome d) →
    Transition (Capture d) (Round d) (Outcome d) → Prop :=
  fun _ t => t.event.closing = false

inductive Tracks (r : Readings) (maxError : ℚ) :
    List (Sample d) → List (Sample d) → List (Sample d) → Prop
  | empty : Tracks r maxError [] [] []
  | covers {first q : Sample d} {rest sent left : List (Sample d)}
      (covers : Covers (NearLine r maxError) first rest sent q left) :
      Tracks r maxError (first :: rest) sent (q :: left)

section

variable {samples sent current : List (Sample d)}
  (tracks : Tracks r maxError samples sent current)

include tracks

theorem Tracks.capture (sample : Sample d) :
    Tracks r maxError (samples ++ [sample]) sent (current ++ [sample]) := by
  cases tracks with
  | empty => exact .covers (.stay sample [])
  | covers covers => exact .covers (covers.append_right [sample])

theorem Tracks.suffix : current <:+ samples := by
  cases tracks with
  | empty => exact suffix_refl []
  | covers covers => exact covers.suffix

theorem Tracks.thin {thinned : List (Sample d)} {Dropped : Sample d → Prop}
    (thin : Thinned Dropped sent thinned)
    (increasing : samples.Pairwise (r.sampleTime · < r.sampleTime ·))
    (chords : ∀ e, Dropped e → ∀ a ∈ samples, ∀ b ∈ samples, ∀ s ∈ samples,
      r.sampleTime a < r.sampleTime e → r.sampleTime e < r.sampleTime b →
      r.sampleTime a < r.sampleTime s → r.sampleTime s < r.sampleTime b →
        NearLine r maxError a b s) : ∃ current', Tracks r maxError samples thinned current' := by
  cases tracks with
  | empty =>
    cases thin
    exact ⟨[], .empty⟩
  | covers covers =>
    obtain ⟨q, left, covers⟩ := covers.thin thin increasing chords
    exact ⟨q :: left, .covers covers⟩

end

/-- The rings of a session whose window is not full. -/
structure Following (r : Readings) (bufSize : Nat) (maxError : ℚ)
    (samples sent : List (Sample d)) (rings : Fin d → RingBuffer) (n : Nat) : Prop where
  size : ∀ j, (rings j).bufSize = bufSize + 1
  tail : (rings 0).tail < bufSize + 1
  populated : getNumOfPopulatedRingElements (rings 0) = n
  tracks : Tracks r maxError samples sent (window rings n)

variable {samples sent : List (Sample d)} {rings : Fin d → RingBuffer} {n : Nat}

theorem Following.write (following : Following r bufSize maxError samples sent rings n)
    (room : n < bufSize) (sample : Sample d) :
    Following r bufSize maxError (samples ++ [sample]) sent (writeSample rings sample) (n + 1) where
  size := following.size
  tail := following.tail
  populated := by
    have populated := following.populated
    have size := following.size 0
    have tail := following.tail
    rw [writeSample, getNumOfPopulatedRingElements_writeRing, populated]
    · rfl
    · rw [size]
      exact_mod_cast tail
    · rw [size, populated]
      omega
  tracks := by
    rw [window_writeSample]
    · exact following.tracks.capture sample
    · intro j
      rw [following.size j]
      omega

theorem Following.analyze (following : Following r bufSize maxError samples sent rings bufSize)
    (two : 2 ≤ bufSize) (good : ∀ s ∈ samples, NumericSample r s)
    (increasing : samples.Pairwise (r.sampleTime · < r.sampleTime ·)) :
    Following r bufSize maxError samples
        (sent ++ (analyzeWith r clReductionDims rings bufSize maxError).1)
        (fun j => setRingTail (rings j) (analyzeWith r clReductionDims rings bufSize maxError).2)
        ((analyzeWith r clReductionDims rings bufSize maxError).2 + 1) ∧
      (analyzeWith r clReductionDims rings bufSize maxError).2 + 1 < bufSize := by
  have suffix := following.tracks.suffix
  have found := analyzeWith_covers maxError two
    (fun i inside => good _ (suffix.mem (mem_window inside)))
    (window_decreasing (increasing.sublist suffix.sublist))
  refine ⟨?_, found.2⟩
  exact
    { size := following.size
      tail := by
        have below := tail_setRingTail_lt (rings 0)
          (analyzeWith r clReductionDims rings bufSize maxError).2
        rw [bufSize_setRingTail, following.size 0] at below
        exact_mod_cast below
      populated := by
        rw [getNumOfPopulatedRingElements_setRingTail]
        rfl
      tracks := by
        have full : window rings bufSize =
            readSample rings (bufSize - 1) :: window rings (bufSize - 1) := by
          rw [← window_succ]
          congr 1
          omega
        have tracks := following.tracks
        rw [full] at tracks
        have same : window (fun j => setRingTail (rings j)
            (analyzeWith r clReductionDims rings bufSize maxError).2)
            ((analyzeWith r clReductionDims rings bufSize maxError).2 + 1) =
            window rings ((analyzeWith r clReductionDims rings bufSize maxError).2 + 1) := rfl
        rw [same, window_succ]
        cases tracks with
        | covers covers => exact .covers (covers.trans found.1) }

variable {capture : Capture d}

theorem captureRound_cases {analyze : (Fin d → RingBuffer) → Nat → ℚ → List (Sample d) × Nat}
    {round : Round d} (running : capture.closeClSession = false) (still : round.closing = false)
    (notFull : getNumOfPopulatedRingElements (capture.rings 0) ≠ bufSize) :
    captureRound analyze paths bufSize maxError capture round = (capture, {}) ∨
    ∃ sample, Fresh capture.rings sample ∧
      (getNumOfPopulatedRingElements (writeSample capture.rings sample 0) ≠ bufSize ∧
        captureRound analyze paths bufSize maxError capture round =
          ({ capture with rings := writeSample capture.rings sample }, { captured := [sample] }) ∨
      getNumOfPopulatedRingElements (writeSample capture.rings sample 0) = bufSize ∧
        captureRound analyze paths bufSize maxError capture round =
          analyzeRound analyze paths maxError (writeSample capture.rings sample) false
            [sample]) := by
  have same : { capture with closeClSession := false } = capture := by
    cases capture
    simp only at running
    rw [running]
  simp only [captureRound, running, still, Bool.or_false]
  cases round.sample with
  | none => exact .inl (by simp only [same])
  | some sample =>
    by_cases fresh : Fresh capture.rings sample
    · refine .inr ⟨sample, fresh, ?_⟩
      simp only [fresh, decide_true, if_true, Bool.false_eq_true, or_false]
      by_cases full : getNumOfPopulatedRingElements (writeSample capture.rings sample 0) = bufSize
      · exact .inr ⟨full, if_pos full⟩
      · refine .inl ⟨full, ?_⟩
        rw [if_neg full]
    · simp only [fresh, decide_false, Bool.false_eq_true, if_false, or_false, notFull]
      exact .inl (by simp only [same])

structure Open (r : Readings) (bufSize : Nat) (maxError : ℚ) (samples sent : List (Sample d))
    (capture : Capture d) : Prop where
  running : capture.closeClSession = false
  common : ∀ s ∈ samples, ∀ j, (s j).timestamp = (s 0).timestamp
  following : ∃ n < bufSize, Following r bufSize maxError samples sent capture.rings n

theorem Open.start (two : 2 ≤ bufSize) : Open r bufSize maxError ([] : List (Sample d)) []
      { rings := fun _ => createRingBuffer (bufSize + 1) bufSize.succ_pos } where
  running := rfl
  common := nofun
  following := by
    refine ⟨0, by omega, ?_⟩
    exact
      { size := fun _ => rfl
        tail := by
          change (0 : Int) < bufSize + 1
          omega
        populated := rfl
        tracks := .empty }

theorem Open.common_append {sample : Sample d}
    (before : Open r bufSize maxError samples sent capture) (fresh : Fresh capture.rings sample) :
    ∀ s ∈ samples ++ [sample], ∀ j, (s j).timestamp = (s 0).timestamp := by
  intro s member j
  obtain member | member := mem_append.mp member
  · exact before.common s member j
  · rw [mem_singleton.mp member]
    exact fresh.2 j 0

theorem Open.round (two : 2 ≤ bufSize) {round : Round d} (still : round.closing = false)
    {next : Capture d × Outcome d}
    (taken : captureRound (analyzeWith r clReductionDims) paths bufSize maxError capture round =
      next) (before : Open r bufSize maxError samples sent capture)
    (numeric : ∀ s ∈ samples ++ next.2.captured, ∀ j, Numeric r (s j))
    (increasing : (samples ++ next.2.captured).Pairwise (r.sampleTime · < r.sampleTime ·)) :
    Open r bufSize maxError (samples ++ next.2.captured) (sent ++ next.2.emitted) next.1 := by
  obtain ⟨n, room, following⟩ := before.following
  have notFull : getNumOfPopulatedRingElements (capture.rings 0) ≠ bufSize := by
    rw [following.populated]
    omega
  obtain nothing | ⟨sample, fresh, outcome⟩ := captureRound_cases before.running still notFull
  · rw [nothing] at taken
    subst taken
    simpa only [append_nil] using before
  have written := following.write room sample
  have common := before.common_append fresh
  obtain ⟨notYet, stored⟩ | ⟨full, analysed⟩ := outcome
  · rw [stored] at taken
    subst taken
    rw [written.populated] at notYet
    rw [append_nil]
    exact ⟨before.running, common, n + 1, by omega, written⟩
  · rw [written.populated] at full
    have last : n + 1 = bufSize := by exact_mod_cast full
    rw [last] at written
    rw [analysed] at taken
    subst taken
    have populated : (getNumOfPopulatedRingElements
        (writeSample capture.rings sample 0)).toNat = bufSize := by
      rw [written.populated, Int.toNat_natCast]
    have analysis := written.analyze two
      (fun s mem => ⟨numeric s mem, common s mem⟩) increasing
    simp only [analyzeRound, populated]
    exact ⟨rfl, common, _, analysis.2, analysis.1⟩

/-- The points are samples in their order, and up to the last every sample is near the polyline
through them. -/
structure KeepsBound (r : Readings) (maxError : ℚ) (samples sent : List (Sample d)) : Prop where
  subsequence : sent.Sublist samples
  bounded : ∀ first ∈ samples.head?, ∀ last ∈ sent.getLast?, ∀ s ∈ samples,
    r.sampleTime s ≤ r.sampleTime last → squaredDistance r s
          (fun j => valueAt ((first :: sent).map (r.samplePoint j)) (r.sampleTime s)) ≤
        maxError ^ 2

theorem Tracks.keepsBound {current : List (Sample d)}
    (tracks : Tracks r maxError samples sent current)
    (increasing : samples.Pairwise (r.sampleTime · < r.sampleTime ·)) :
    KeepsBound r maxError samples sent := by
  cases tracks with
  | empty => exact ⟨List.Sublist.refl [], nofun⟩
  | @covers first q rest sent left covers =>
    refine ⟨covers.sublist.trans (sublist_cons_self first rest), ?_⟩
    intro start isFirst last isLast s mem before
    have same : start = first := by simpa using isFirst.symm
    subst same
    have latest : q = last := by
      have reached := covers.last
      rw [getLast?_cons, Option.mem_def.mp isLast] at reached
      exact (Option.some.inj reached).symm
    subst latest
    rw [pow_two]
    apply Covers.near r.sampleTime r.samplePoint
      (fun s curve => squaredDistance r s curve ≤ maxError * maxError)
    · intro _ _
      rfl
    · intro s
      exact (squaredDistance_self s).trans_le (mul_self_nonneg maxError)
    · exact covers
    · exact increasing
    · exact mem
    · exact before

theorem keepsBound_of_run (two : 2 ≤ bufSize) {history : History (Capture d) (Round d) (Outcome d)}
    (run : Run (captureThread (analyzeWith r clReductionDims) paths bufSize maxError) stillOpen
      history capture) (numeric : ∀ s ∈ captured history, ∀ j, Numeric r (s j))
    (increasing : (captured history).Pairwise (r.sampleTime · < r.sampleTime ·)) :
    KeepsBound r maxError (captured history) (emitted history) := by
  have reached : (∀ s ∈ captured history, ∀ j, Numeric r (s j)) →
      (captured history).Pairwise (r.sampleTime · < r.sampleTime ·) →
        Open r bufSize maxError (captured history) (emitted history) capture := by
    apply run.invariant fun history capture => (∀ s ∈ captured history, ∀ j, Numeric r (s j)) →
      (captured history).Pairwise (r.sampleTime · < r.sampleTime ·) →
        Open r bufSize maxError (captured history) (emitted history) capture
    · intro start begins _ _
      rw [begins]
      exact Open.start two
    · intro history t before taken still numeric increasing
      rw [captured] at numeric increasing
      have earlier := sublist_append_left (captured history) t.output.captured
      have opened := before (fun s mem => numeric s (earlier.mem mem))
        (increasing.sublist earlier)
      simp only [captureThread] at taken
      split_ifs at taken
      exact opened.round two still (Option.some.inj taken) numeric increasing
  obtain ⟨n, _, following⟩ := (reached numeric increasing).following
  exact following.tracks.keepsBound increasing

end Runs

/-- Curve logs of two and three signals keep their bound until they are closed. -/
theorem curve_log_keeps_bound (r : Readings) (bufSize : Nat) (two : 2 ≤ bufSize) (maxError : ℚ) :
    (∀ paths history capture,
      Run (clCapture2dim r paths bufSize maxError) stillOpen history capture →
      (∀ s ∈ captured history, ∀ j, Numeric r (s j)) →
      (captured history).Pairwise (r.sampleTime · < r.sampleTime ·) →
        KeepsBound r maxError (captured history) (emitted history)) ∧ ∀ paths history capture,
      Run (clCapture3dim r paths bufSize maxError) stillOpen history capture →
      (∀ s ∈ captured history, ∀ j, Numeric r (s j)) →
      (captured history).Pairwise (r.sampleTime · < r.sampleTime ·) →
        KeepsBound r maxError (captured history) (emitted history) := by
  constructor
  · intro paths history capture run numeric increasing
    rw [clCapture2dim, clAnalyze2dim_eq] at run
    exact keepsBound_of_run two run numeric increasing
  · intro paths history capture run numeric increasing
    rw [clCapture3dim, clAnalyze3dim_eq] at run
    exact keepsBound_of_run two run numeric increasing

def pairRound (ts value1 value2 : Str) : Round 2 where
  value := ![some value1, some value2]
  ts := ![some ts, some ts]

theorem curve_log_keeps_bound_corner : ∃ history capture,
    Run (clCapture2dim wholeReadings ![['a'], ['b']] 3 1) stillOpen history capture ∧
      (captured history).length = 3 ∧ (emitted history).length = 1 ∧
      KeepsBound wholeReadings 1 (captured history) (emitted history) := by
  rcases Run.of_execWhile (clCapture2dim wholeReadings ![['a'], ['b']] 3 1)
    { rings := fun _ => createRingBuffer 4 (by omega) } rfl (fun t => t.event.closing = false)
    (fun _ _ => id)
    [pairRound "1000" "0" "7", pairRound "2000" "10" "7", pairRound "3000" "0" "7"]
    (fun history _ => (captured history).length = 3 ∧ (emitted history).length = 1 ∧
      (∀ s ∈ captured history, ∀ j, Numeric wholeReadings (s j)) ∧
      (captured history).Pairwise
        (wholeReadings.sampleTime · < wholeReadings.sampleTime ·))
    (by decide +kernel) with ⟨history, capture, run, stored, sent, numeric, increasing⟩
  exact ⟨history, capture, run, stored, sent,
    (curve_log_keeps_bound wholeReadings 3 (by omega) 1).1 _ history capture run numeric increasing⟩

end Vissr.ServiceMgr.Curve
