import Vissr.Text

/-! Linear conversions of units (`tools/DomainConversionTool/DomainConversionTool.go`). -/

namespace Vissr.UnitScaling

open List Function

@[ext] structure Scale where
  a : ℚ
  b : ℚ
  nonzero : a ≠ 0
  deriving DecidableEq

def Scale.inverse (c : Scale) : Scale := ⟨1 / c.a, -c.b / c.a, one_div_ne_zero c.nonzero⟩

theorem inverse_involutive : Involutive Scale.inverse := by
  intro c
  have nonzero := c.nonzero
  ext
  · simp [Scale.inverse]
  · simp [Scale.inverse, nonzero]

structure UnitScaleElem where
  unit1 : Str
  unit2 : Str
  scale : Scale

def UnitScaleElem.units (elem : UnitScaleElem) : Str × Str := (elem.unit1, elem.unit2)

structure Tables where
  unitScaleList : List UnitScaleElem
  scaleDataList : List Scale

variable (nbd sbd : Str) (calls : List (Str × Str)) (original s : Tables) (elem : UnitScaleElem)

def joins (units : Str × Str) : Bool := units = (nbd, sbd) ∨ units = (sbd, nbd)

def UnitScaleElem.toward : Scale :=
  if elem.unit1 = sbd then elem.scale.inverse else elem.scale

def UnitScaleElem.turn (call : Str × Str) (elem : UnitScaleElem) : UnitScaleElem :=
  if call = elem.units.swap then { elem with scale := elem.scale.inverse } else elem

/-- The first entry for a pair. One listed the other way round is inverted in the table. -/
def lookup : List UnitScaleElem → Option Scale × List UnitScaleElem
  | [] => (none, [])
  | elem :: rest =>
    if joins nbd sbd elem.units then
      (some (elem.toward sbd), { elem with scale := elem.toward sbd } :: rest)
    else ((lookup rest).1, elem :: (lookup rest).2)

def indexOf (scaleDataList : List Scale) : Option Scale → List Scale × Nat
  | none => (scaleDataList, 65535 - 2)
  | some conversionCoefficients =>
    match scaleDataList.findIdx? (· = conversionCoefficients) with
    | some j => (scaleDataList, j)
    | none => (scaleDataList ++ [conversionCoefficients], scaleDataList.length)

def getConversionTypeForLinear : Tables × Nat :=
  let looked := lookup nbd sbd s.unitScaleList
  let indexed := indexOf s.scaleDataList looked.1
  (⟨looked.2, indexed.1⟩, indexed.2)

/-- The last call is the first of the list. -/
def tablesAfter : Tables :=
  calls.foldr (fun call s => (getConversionTypeForLinear call.1 call.2 s).1) original

def pairOf : Option UnitScaleElem :=
  s.unitScaleList.find? fun elem => joins nbd sbd elem.units

def coefficients : Option Scale :=
  let result := getConversionTypeForLinear nbd sbd s
  result.1.scaleDataList[result.2]?

/-- The call finds what the original table has for the pair. -/
def Converts : Prop := ∀ elem, pairOf nbd sbd original = some elem →
  (elem.units = (nbd, sbd) → coefficients nbd sbd s = some elem.scale) ∧
    (elem.units = (sbd, nbd) → coefficients nbd sbd s = some elem.scale.inverse)

open UnitScaleElem

variable {nbd sbd s elem} {call : Str × Str}

theorem turn_met (met : joins call.1 call.2 elem.units = true) :
    elem.turn call = { elem with scale := elem.toward call.2 } := by
  have turns : call = elem.units.swap ↔ elem.unit1 = call.2 := by
    grind [joins, units]
  simp only [turn, toward, turns]
  split_ifs <;> rfl

theorem turn_not_met (met : ¬ joins call.1 call.2 elem.units = true) :
    elem.turn call = elem := if_neg (by grind [joins])

theorem lookup_fst : (lookup nbd sbd s.unitScaleList).1 =
    (pairOf nbd sbd s).map (·.toward sbd) := by
  rw [pairOf]
  induction s.unitScaleList with
  | nil => rfl
  | cons elem rest ih =>
    rw [lookup, find?_cons]
    cases joins nbd sbd elem.units with
    | true => rfl
    | false => exact ih

theorem lookup_snd (call : Str × Str) (elems : List UnitScaleElem) :
    (lookup call.1 call.2 elems).2.find? (joins nbd sbd ·.units) =
      (elems.find? (joins nbd sbd ·.units)).map (·.turn call) := by
  induction elems with
  | nil => rfl
  | cons elem rest ih =>
    rw [lookup, find?_cons]
    by_cases met : joins call.1 call.2 elem.units = true
    · rw [if_pos met, find?_cons]
      change (match joins nbd sbd elem.units with | true => _ | false => _) = _
      cases sought : joins nbd sbd elem.units with
      | true => exact congrArg some (turn_met met).symm
      | false =>
        -- A later entry for the sought pair is not one for the pair of the call.
        cases found : rest.find? (joins nbd sbd ·.units) with
        | none => rfl
        | some later =>
          refine congrArg some (turn_not_met fun also => ?_).symm
          have := find?_some found
          grind [joins]
    · rw [if_neg met, find?_cons]
      cases joins nbd sbd elem.units with
      | true => exact congrArg some (turn_not_met met).symm
      | false => exact ih

theorem tablesAfter_pairOf : pairOf nbd sbd (tablesAfter calls original) =
    (pairOf nbd sbd original).map (calls.foldr turn) := by
  induction calls with
  | nil => exact Option.map_id'.symm
  | cons call calls ih =>
    refine (lookup_snd call (tablesAfter calls original).unitScaleList).trans ?_
    rw [← pairOf, ih, Option.map_map]
    rfl

theorem foldr_turn : calls.foldr turn elem =
    { elem with scale := Scale.inverse^[calls.count elem.units.swap] elem.scale } := by
  induction calls with
  | nil => rfl
  | cons call calls ih =>
    rw [foldr_cons, ih, count_cons]
    change (if call = elem.units.swap then _ else _) = _
    simp only [beq_iff_eq]
    split_ifs
    · rw [iterate_succ_apply']
    · rfl

theorem coefficients_eq (found : pairOf nbd sbd s = some elem) :
    coefficients nbd sbd s = some (elem.toward sbd) := by
  simp only [coefficients, getConversionTypeForLinear, lookup_fst, found, Option.map_some, indexOf]
  split
  · next here =>
    obtain ⟨below, equal, -⟩ := findIdx?_eq_some_iff_getElem.mp here
    exact List.getElem?_eq_some_iff.mpr ⟨below, of_decide_eq_true equal⟩
  · exact getElem?_concat_length

/-- A call finds the right coefficients just in case the pair was asked for against its direction an
even number of times, or is its own inverse. -/
theorem conversion_right_iff (nbd sbd : Str) :
    Converts nbd sbd original (tablesAfter calls original) ↔
      ∀ elem, pairOf nbd sbd original = some elem →
        Even (calls.count elem.units.swap) ∧ nbd ≠ sbd ∨ elem.scale.inverse = elem.scale := by
  refine forall₂_congr fun elem listed => ?_
  have now : pairOf nbd sbd (tablesAfter calls original) = some _ :=
    (tablesAfter_pairOf ..).trans (congrArg _ listed)
  have joined : joins nbd sbd elem.units = true :=
    find?_some (p := joins nbd sbd ∘ units) listed
  have involutive := inverse_involutive
  rw [coefficients_eq now]
  dsimp only
  rw [foldr_turn]
  rcases Nat.even_or_odd (calls.count elem.units.swap) with even | odd
  · rw [inverse_involutive.iterate_even even]
    grind [joins, units, toward, Involutive]
  · rw [inverse_involutive.iterate_odd odd]
    grind [joins, units, toward, Involutive]

/-- The second of two equal questions gets the opposite conversion. -/
theorem second_question_inverted :
    let original : Tables := ⟨[⟨['a'], ['b'], ⟨2, 0, by decide⟩⟩], []⟩
    ¬ Converts ['b'] ['a'] original (tablesAfter [(['b'], ['a'])] original) := by
  intro original converts
  have right := (converts _ rfl).2 rfl
  revert right
  decide +kernel

end Vissr.UnitScaling
