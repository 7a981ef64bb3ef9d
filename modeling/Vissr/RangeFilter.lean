import Vissr.Core.AccessControl
import Vissr.Json.Marshal
import Vissr.ServiceMgr.Lockstep

/-! A range filter is checked by the core and evaluated by the service manager. -/

namespace Vissr.RangeFilter

open Json List ServiceMgr Core

inductive LogicOp where
  | eq | ne | gt | gte | lt | lte

def LogicOp.name : LogicOp → Str
  | eq => "eq" | ne => "ne" | gt => "gt" | gte => "gte" | lt => "lt" | lte => "lte"

def LogicOp.Holds (value boundary : ℚ) : LogicOp → Prop
  | eq => value = boundary
  | ne => value ≠ boundary
  | gt => boundary < value
  | gte => boundary ≤ value
  | lt => value < boundary
  | lte => value ≤ boundary

structure Comparison where
  logicOp : LogicOp
  boundary : Str

inductive CombinationOp where
  | and | or

def CombinationOp.name : CombinationOp → Str
  | and => "AND" | or => "OR"

/-- What the schema of the requests admits. -/
inductive Parameter where
  | one (comparison : Comparison)
  | two (first second : Comparison) (combinationOp : CombinationOp)

def Comparison.members (c : Comparison) : Map Value :=
  [("boundary", .str c.boundary), ("logic-op", .str c.logicOp.name)]

def Parameter.value : Parameter → Value
  | one c => .obj c.members
  | two first second op =>
    .arr [.obj (("combination-op", .str op.name) :: first.members), .obj second.members]

def Parameter.comparisons : Parameter → List Comparison
  | one c => [c]
  | two first second _ => [first, second]

def Parameter.request (p : Parameter) : Value :=
  .obj [("variant", .str "range"), ("parameter", p.value)]

def Parameter.filter (p : Parameter) : FilterObject := ⟨"range", p.value.marshal⟩

open Parameter

theorem unpackFilter_request (order : MapOrder) (p : Parameter) :
    unpackFilter order p.request = [p.filter] := by
  rw [Parameter.request, unpackFilter, unpackFilterLevel2]
  obtain same | same := perm_pair.mp (order.perm _)
  all_goals
    rw [same]
    cases p <;> rfl

variable (parse : Str → Option ℚ)

def exactFloats : Floats := ⟨ℚ, parse, (· - ·), (· == ·), fun x y => x < y⟩

def Comparison.Holds (value : ℚ) (c : Comparison) : Prop :=
  ∃ boundary ∈ parse c.boundary, c.logicOp.Holds value boundary

def Parameter.Holds (value : ℚ) : Parameter → Prop
  | one c => c.Holds parse value
  | two first second .and => first.Holds parse value ∧ second.Holds parse value
  | two first second .or => first.Holds parse value ∨ second.Holds parse value

variable (core : Core.Env) (env : ServiceMgr.Env)

/-- The filter is accepted, and triggered by what the parameter asks for. -/
def Parameter.Means (current : Str) (value : ℚ)
    (p : Parameter) : Prop :=
  (∀ filter ∈ unpackFilter core.order p.request, validateFilter core filter = none) ∧
    ∀ filter ∈ unpackFilter env.order p.request,
      (evaluateRangeFilter { env with floats := exactFloats parse } filter.parameter current = true ↔
        p.Holds parse value)

def numeralChars : Str := "+-.0123456789ABCDEFPX_abcdefpx"

/-- What is known of `strconv.ParseFloat`. -/
def ReadsNumerals (parseFloat : Str → Option ParsedFloat) : Prop :=
  ∀ s, isNumber parseFloat s = true → s ≠ [] ∧ ∀ c ∈ s, c ∈ numeralChars

/-- Nothing of the text is escaped, and it does not look like an array. -/
def Clear (s : Str) : Prop := ∀ c ∈ s, isPlain c = true ∧ isHtml c = false ∧ c ≠ '['

instance (s : Str) : Decidable (Clear s) := List.decidableBAll _ _

theorem clear_numeralChars : Clear numeralChars := by decide

theorem clear_name (op : LogicOp) : Clear op.name := by cases op <;> decide

theorem Clear.quoted {s : Str} (clear : Clear s) : '[' ∉ quoted (encodeString s) := by
  rw [quoted_encodeString s (fun c mem => (clear c mem).1) fun c mem => (clear c mem).2.1]
  simpa [pasted] using fun mem => (clear _ mem).2.2 rfl

def comparisonRaw (c : Comparison) : Raw :=
  .obj [(encodeString "boundary", .str (encodeString c.boundary)),
    (encodeString "logic-op", .str (encodeString c.logicOp.name))]

theorem parse_marshal (v : Value) (nested : v.raw.nesting ≤ maxNestingDepth) :
    Json.parse v.marshal = some (v.raw, []) := by
  have parsed := parse_render v.raw [] nested stopsNumber_nil
  rwa [append_nil, ← marshal_eq_render] at parsed

theorem validateFilter_range {core : Core.Env} {filter : FilterObject} (range : filter.type = "range")
    {w : Raw} (parsed : Json.parse filter.parameter = some (w, [])) :
    validateFilter core filter = none ↔
      isNumber core.parseFloat (getRangeBoundary w.toMap.1) = true := by
  unfold validateFilter
  dsimp only
  rw [if_pos range, mapRequest_of_parse _ _ _ parsed]
  split_ifs with number <;> simp [number]

theorem accepts_one (c : Comparison) (number : isNumber core.parseFloat c.boundary = true) :
    validateFilter core (one c).filter = none := by
  refine (validateFilter_range rfl (parse_marshal _ (of_decide_eq_true rfl))).mpr ?_
  have boundary : getRangeBoundary (comparisonRaw c).toMap.1 = c.boundary := by
    simp only [comparisonRaw, Raw.toMap, valueMembers, Raw.value, unquote_encodeString]
    rfl
  rwa [← boundary] at number

theorem rejects_two (reads : ReadsNumerals core.parseFloat)
    (first second : Comparison) (op : CombinationOp) :
    validateFilter core (two first second op).filter ≠ none := by
  intro accepted
  have number := (validateFilter_range rfl (parse_marshal _ (of_decide_eq_true rfl))).mp accepted
  exact (reads _ number).1 rfl

theorem marshal_one {c : Comparison} (clear : Clear c.boundary) :
    '[' ∉ (one c).filter.parameter := by
  have text : (one c).filter.parameter = membersText c.members := marshal_obj c.members
  have keys : '[' ∉ quoted (encodeString "boundary") ∧ '[' ∉ quoted (encodeString "logic-op") := by
    decide
  simpa [text, membersText, Comparison.members, memberText, joinComma, Value.marshal, clear.quoted,
    (clear_name c.logicOp).quoted] using keys

theorem evaluateRangeFilter_one (c : Comparison) (current : Str)
    (inside : '[' ∉ (one c).filter.parameter) :
    evaluateRangeFilter env (one c).filter.parameter current =
      compareValues env c.logicOp.name c.boundary current "0" false := by
  have decoded : decodePair "logic-op" "boundary" (comparisonRaw c) =
      some (c.logicOp.name, c.boundary) := by
    simp [comparisonRaw, decodePair, decodeStruct, decodeMember, unquote_encodeString, findField,
      decodeField, decodeStr]
  have parsed : parseAll (one c).filter.parameter = some (comparisonRaw c) := by
    have nested : (comparisonRaw c).nesting ≤ maxNestingDepth := of_decide_eq_true rfl
    rw [Parameter.filter, marshal_eq_render]
    exact parseAll_render _ nested
  have filters : rangeFilters (one c).filter.parameter =
      some [(c.logicOp.name, c.boundary)] := by
    have single : contains (one c).filter.parameter "[" = false :=
      decide_eq_false fun inner => inside (inner.subset mem_cons_self)
    rw [rangeFilters, single, if_neg Bool.false_ne_true, unmarshalPair, parsed, Option.bind_some,
      decoded, Option.map_some]
  simp [evaluateRangeFilter, filters]

theorem compareValues_exact {parse : Str → Option ℚ}
    (zero : parse "0" = some 0) {current : Str} {value : ℚ} (numeric : parse current = some value)
    (c : Comparison) {boundary : ℚ} (fits : parse c.boundary = some boundary) :
    compareValues { env with floats := exactFloats parse } c.logicOp.name c.boundary current "0"
      false = true ↔ c.Holds parse value := by
  obtain ⟨op, text⟩ := c
  simp only [compareValues, exactFloats, numeric, fits, zero, Comparison.Holds, compareNumbers]
  cases op <;> simp [LogicOp.name, LogicOp.Holds, le_iff_lt_or_eq]

/-- A filter with one comparison means what it says; two are never accepted. -/
theorem range_means_iff (core : Core.Env) (env : ServiceMgr.Env) (parse : Str → Option ℚ)
    (reads : ReadsNumerals core.parseFloat) (zero : parse "0" = some 0) (p : Parameter)
    (numbers : ∀ c ∈ p.comparisons,
      isNumber core.parseFloat c.boundary = true ∧ (parse c.boundary).isSome = true)
    (current : Str) (value : ℚ) (numeric : parse current = some value) :
    p.Means parse core env current value ↔ ∃ c, p = .one c := by
  simp only [Parameter.Means, unpackFilter_request, forall_mem_singleton]
  cases p with
  | one c =>
    obtain ⟨number, fits⟩ := numbers c mem_cons_self
    obtain ⟨boundary, fits⟩ := Option.isSome_iff_exists.mp fits
    have clear : Clear c.boundary := fun d mem => clear_numeralChars d ((reads _ number).2 d mem)
    refine iff_of_true ⟨accepts_one core c number, ?_⟩ ⟨c, rfl⟩
    rw [evaluateRangeFilter_one _ _ _ (marshal_one clear)]
    exact compareValues_exact env zero numeric c fits
  | two first second op =>
    exact iff_of_false (fun means => rejects_two core reads first second op means.1) nofun

def digits : Map ℚ := [("0", 0), ("2", 2), ("5", 5), ("8", 8)]

def digit (s : Str) : Option ℚ := digits.lookup s

def digitEnv : Core.Env :=
  { fileEnv with parseFloat := fun s => (digit s).map fun _ => .finite }

theorem digitEnv_reads : ReadsNumerals digitEnv.parseFloat := by
  have each : ∀ p ∈ digits, p.1 ≠ [] ∧ p.1 ⊆ numeralChars := by decide
  intro s number
  obtain ⟨value, found, -⟩ := Option.map_eq_some_iff.mp (of_decide_eq_true number)
  exact (each _ (mem_of_lookup _ _ _ found)).imp_right fun inside c mem => inside mem

theorem range_means_iff_one : (one ⟨.gt, "5"⟩).Means digit digitEnv sampleEnv "8" 8 :=
  (range_means_iff digitEnv sampleEnv _ digitEnv_reads (by decide) _ (by decide) "8" 8
    (by decide)).mpr ⟨_, rfl⟩

/-- Of two comparisons one is to hold: the service manager wants both. -/
theorem two_boundaries_refused :
    let p := two ⟨.gt, "5"⟩ ⟨.lt, "2"⟩ .or
    p.Holds digit 8 ∧
      validateFilter digitEnv p.filter = some (1, "Invalid range boundary datatype".toList) ∧
      evaluateRangeFilter { sampleEnv with floats := exactFloats digit }
        p.filter.parameter "8" = false := by
  exact ⟨.inl ⟨5, by decide, show (5 : ℚ) < 8 by decide⟩, by decide +kernel, by decide +kernel⟩

end Vissr.RangeFilter
