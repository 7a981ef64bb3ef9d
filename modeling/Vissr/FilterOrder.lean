import Vissr.Common

/-! A filter is unpacked twice, each time in an order that `range` chooses (`utils/common.go`). -/

namespace Vissr

open Json List

def typeOf : Str × Value → Option Str
  | (k, .str s) => if k = "variant" then some s else none
  | _ => none

def parameterOf : Str × Value → Option Str
  | (k, .str s) => if k = "variant" then none else if k = "parameter" then some s else none
  | (k, .arr xs) => if k = "parameter" then some (Value.arr xs).marshal else none
  | (_, .obj m) => some (Value.obj m).marshal
  | _ => none

def objectsOf : Value → List (Map Value)
  | .arr filters => filters.filterMap fun
    | .obj m => some m
    | _ => none
  | .obj m => [m]
  | _ => []

/-- All entries that give a text for the parameter give the same one. -/
def Unambiguous (m : Map Value) : Prop :=
  ∀ p ∈ m, ∀ q ∈ m, ∀ a ∈ parameterOf p, ∀ b ∈ parameterOf q, a = b

theorem unpackEntry_eq (filter : FilterObject) (p : Str × Value) : unpackEntry filter p =
      ⟨(typeOf p).getD filter.type, (parameterOf p).getD filter.parameter⟩ := by
  obtain ⟨k, v⟩ := p
  cases v with
  | str =>
    simp only [unpackEntry, typeOf, parameterOf]
    split_ifs <;> rfl
  | arr =>
    simp only [unpackEntry, typeOf, parameterOf]
    split_ifs <;> rfl
  | obj => rfl
  | null | bool | num => rfl

theorem variant_of_typeOf {p : Str × Value} {s : Str} (given : typeOf p = some s) :
    p = ("variant".toList, .str s) := by
  unfold typeOf at given
  split at given
  · split_ifs at given with variant
    cases given
    rw [variant]
  · cases given

theorem getD_comm {α : Type} {a b : Option α} (same : ∀ x ∈ a, ∀ y ∈ b, x = y) (z : α) :
    b.getD (a.getD z) = a.getD (b.getD z) := by
  cases a with
  | none => rfl
  | some x =>
    cases b with
    | none => rfl
    | some y => exact (same x rfl y rfl).symm

variable {m : Map Value}

theorem unpackFilterLevel2_of_unambiguous (distinct : Distinct m) (clear : Unambiguous m)
    (order : MapOrder) : unpackFilterLevel2 order m = m.foldl unpackEntry {} := by
  refine ((order.perm m).symm.foldl_eq' (fun p pIn q qIn filter => ?_) _).symm
  have types : ∀ a ∈ typeOf p, ∀ b ∈ typeOf q, a = b := by
    intro a first b second
    rw [variant_of_typeOf first] at pIn
    rw [variant_of_typeOf second] at qIn
    have same := ((lookup_eq_some_iff m distinct _ _).mpr pIn).symm.trans
      ((lookup_eq_some_iff m distinct _ _).mpr qIn)
    cases same
    rfl
  simp only [unpackEntry_eq, getD_comm types, getD_comm (clear p pIn q qIn)]

open Classical in
noncomputable def lastOrder (p : Str × Value) : MapOrder where
  iterate m := if p ∈ m then m.erase p ++ [p] else m
  perm m := by
    split_ifs with member
    · exact (perm_append_singleton p _).trans (perm_cons_erase member).symm
    · exact .refl m

theorem unpackFilterLevel2_lastOrder {p : Str × Value} {a : Str} (mem : p ∈ m)
    (given : parameterOf p = some a) : (unpackFilterLevel2 (lastOrder p) m).parameter = a := by
  rw [unpackFilterLevel2, lastOrder]
  simp only [if_pos mem, foldl_append, foldl_cons, foldl_nil, unpackEntry_eq, given,
    Option.getD_some]

theorem unpackFilterLevel2_same_iff (distinct : Distinct m) :
    (∀ order order', unpackFilterLevel2 order m = unpackFilterLevel2 order' m) ↔ Unambiguous m := by
  constructor
  · intro same p pIn q qIn a first b second
    have equal := congrArg FilterObject.parameter (same (lastOrder p) (lastOrder q))
    rwa [unpackFilterLevel2_lastOrder pIn first, unpackFilterLevel2_lastOrder qIn second] at equal
  · intro clear order order'
    rw [unpackFilterLevel2_of_unambiguous distinct clear,
      unpackFilterLevel2_of_unambiguous distinct clear]

section

variable (print : NumLit → NumLit)

mutual

/-- A value written again, with the digits that Go prints for a `float64`. -/
def printed : Value → Value
  | .num lit => .num (print lit)
  | .arr xs => .arr (printedElems xs)
  | .obj m => .obj (printedMembers m)
  | v => v

def printedElems : List Value → List Value
  | [] => []
  | x :: xs => printed x :: printedElems xs

def printedMembers : List (Str × Value) → List (Str × Value)
  | [] => []
  | (k, v) :: m => (k, printed v) :: printedMembers m

end

theorem distinct_printedMembers (distinct : Distinct m) : Distinct (printedMembers print m) := by
  have keys (m : Map Value) : (printedMembers print m).map Prod.fst = m.map Prod.fst := by
    induction m with
    | nil => rfl
    | cons p m ih => rw [printedMembers, map_cons, map_cons, ih]
  rwa [Distinct, keys m]

theorem objectsOf_printed (filter : Value) :
    objectsOf (printed print filter) = (objectsOf filter).map (printedMembers print) := by
  cases filter with
  | arr filters =>
    simp only [printed, objectsOf]
    induction filters with
    | nil => rfl
    | cons v filters ih => cases v <;> simp [printedElems, printed, ih]
  | _ => rfl

/-- A filter is unpacked alike in all orders just when no object has two texts for the parameter. -/
theorem unpackFilter_same_iff (filter : Value) (distinct : ∀ m ∈ objectsOf filter, Distinct m) :
    (∀ order order', unpackFilter order (printed print filter) =
      unpackFilter order' (printed print filter)) ↔
        ∀ m ∈ objectsOf (printed print filter), Unambiguous m := by
  have distinct : ∀ m ∈ objectsOf (printed print filter), Distinct m := by
    rw [objectsOf_printed, forall_mem_map]
    exact fun m member => distinct_printedMembers print (distinct m member)
  generalize printed print filter = filter at distinct ⊢
  have each : (∀ order order', unpackFilter order filter = unpackFilter order' filter) ↔
      ∀ m ∈ objectsOf filter, ∀ order order',
        unpackFilterLevel2 order m = unpackFilterLevel2 order' m := by
    cases filter with
    | obj => simp [unpackFilter, objectsOf]
    | arr =>
      simp only [unpackFilter, objectsOf, map_inj_left, mem_filterMap]
      constructor
      · rintro same m ⟨v, member, isObject⟩ order order'
        have equal := same order order' v member
        cases v with
        | obj =>
          cases isObject
          exact equal
        | _ => cases isObject
      · intro same order order' v member
        cases v with
        | obj m => exact same m ⟨_, member, rfl⟩ order order'
        | _ => rfl
    | _ => simp [unpackFilter, objectsOf]
  rw [each]
  exact forall₂_congr fun m member => unpackFilterLevel2_same_iff (distinct m member)

end

theorem one_isNumber : "1".toList.all isNumChar = true ∧ Json.isNumber "1" = true := by decide

def printOne (lit : NumLit) : NumLit := if lit.1 = "1.0" then ⟨"1", one_isNumber⟩ else lit

def sameNumber : Value := .obj (mapRequest
  "\x7b\"variant\":\"x\",\"parameter\":\x7b\"a\":1.0\x7d,\"o\":\x7b\"a\":1\x7d\x7d").1

theorem unpackFilter_same_sameNumber : (∀ m ∈ objectsOf sameNumber, Distinct m) ∧
    ∀ order order', unpackFilter order (printed printOne sameNumber) =
      unpackFilter order' (printed printOne sameNumber) := by
  have distinct : ∀ m ∈ objectsOf sameNumber, Distinct m := by
    intro m mem
    rw [mem_singleton.mp mem]
    decide +kernel
  refine ⟨distinct, (unpackFilter_same_iff printOne sameNumber distinct).mpr ?_⟩
  intro m mem
  rw [mem_singleton.mp mem, Unambiguous]
  decide +kernel

def twoObjects : Value :=
  .obj [("variant", .str "range"), ("parameter", .obj []), ("other", .obj [("diff", .null)])]

theorem filter_depends_on_order : (∀ print, printed print twoObjects = twoObjects) ∧
    ∃ order order' : MapOrder, unpackFilter order twoObjects ≠ unpackFilter order' twoObjects := by
  refine ⟨fun _ => rfl, ⟨id, fun _ => .refl _⟩, ⟨reverse, reverse_perm⟩, ?_⟩
  decide +kernel

end Vissr
