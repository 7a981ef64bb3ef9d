import Vissr.Common

/-! What is left of earlier requests in an error response: `SetErrorResponse` writes into one map. -/

namespace Vissr

open Json Option List

/-- A field that is there and not `nil`. -/
def field (m : Map Value) (k : Str) : Option Value := (m.lookup k).filter fun v => !v matches .null

variable {m : Map Value} {k : Str}

theorem field_eq_none : field m k = none ↔ isNil m k = true := by
  unfold field isNil
  cases m.lookup k with
  | none => simp
  | some v => cases v <;> simp

theorem field_of_lookup {m' : Map Value} {k' : Str} (same : m.lookup k = field m' k') :
    field m k = field m' k' := by
  unfold field at same ⊢
  rw [same]
  cases m'.lookup k' with
  | none => rfl
  | some v => cases v <;> rfl

theorem getStr_of_field {m' : Map Value} (same : field m k = field m' k) :
    getStr m k = getStr m' k := by
  have read : ∀ (m : Map Value) (s : Str), getStr m k = some s ↔ field m k = some (.str s) := by
    intro m s
    rw [getStr_eq_some, field]
    cases m.lookup k with
    | none => rfl
    | some v => cases v <;> simp
  apply Option.ext
  intro s
  rw [read, read, same]

variable (reqMap errRespMap : Map Value)

theorem copyField_eq (k : Str) : copyField reqMap k errRespMap =
      match field reqMap k with
      | some v => set k v errRespMap
      | none => errRespMap := by
  unfold copyField field
  cases reqMap.lookup k with
  | none => rfl
  | some v => cases v <;> rfl

theorem lookup_copyField (k k' : Str) : (copyField reqMap k errRespMap).lookup k' =
      if k' = k then (field reqMap k').or (errRespMap.lookup k') else errRespMap.lookup k' := by
  rw [copyField_eq]
  split_ifs with same
  · subst same
    cases field reqMap k' with
    | none => rfl
    | some v => exact lookup_set_same k' v errRespMap
  · cases field reqMap k with
    | none => rfl
    | some v => exact (lookup_set k k' v errRespMap).trans (if_neg same)

/-- The fields that stay unless they are written over. -/
def keptFields : List Str := ["RouterId", "action", "subscriptionId"]

theorem lookup_identified (k : Str) :
    (if isNil reqMap "requestId" then delete "requestId" errRespMap
      else copyField reqMap "requestId" errRespMap).lookup k =
        if k = "requestId" then field reqMap "requestId" else errRespMap.lookup k := by
  split_ifs with missing same same
  · rw [lookup_delete, if_pos same, field_eq_none.mpr missing]
  · rw [lookup_delete, if_neg same]
  · rw [lookup_copyField, if_pos same, same]
    cases found : field reqMap "requestId" with
    | none => exact absurd (field_eq_none.mp found) missing
    | some => rfl
  · rw [lookup_copyField, if_neg same]

theorem lookup_setErrorResponse (rfcTime : Str) (reqMap errRespMap : Map Value) (index : Nat)
    (message k : Str) : (setErrorResponse rfcTime reqMap errRespMap index message).lookup k =
      if k = "ts" then some (.str rfcTime)
      else if k = "error" then some (.obj (errorMap index message))
      else if k = "requestId" then field reqMap "requestId"
      else if k ∈ keptFields then (field reqMap k).or (errRespMap.lookup k)
      else errRespMap.lookup k := by
  unfold setErrorResponse
  rw [lookup_set, lookup_set, lookup_copyField, lookup_identified, lookup_copyField,
    lookup_copyField]
  simp only [keptFields, mem_cons, not_mem_nil, or_false]
  by_cases request : k = "requestId"
  · subst request
    rw [if_neg (by decide : "requestId".toList ≠ "subscriptionId".toList)]
    simp only [if_true]
  · rw [if_neg request, if_neg request]
    by_cases sub : k = "subscriptionId"
    · subst sub
      rw [if_neg (by decide : "subscriptionId".toList ≠ "action".toList),
        if_neg (by decide : "subscriptionId".toList ≠ "RouterId".toList)]
      simp only [if_true, or_true]
    · rw [if_neg sub]
      by_cases action : k = "action"
      · subst action
        rw [if_neg (by decide : "action".toList ≠ "RouterId".toList)]
        simp only [if_true, true_or, or_true]
      · simp only [action, sub, if_false, or_false]

structure ErrorCall where
  rfcTime : Str
  requestMap : Map Value
  errorIndex : Nat
  description : Str := []

def ErrorCall.write (call : ErrorCall) (errorResponseMap : Map Value) : Map Value :=
  setErrorResponse call.rfcTime call.requestMap errorResponseMap call.errorIndex call.description

def errorMapAfter (calls : List ErrorCall) : Map Value :=
  calls.foldl (fun errorResponseMap call => call.write errorResponseMap) []

variable (earlier : List ErrorCall)

theorem errorMapAfter_concat (call : ErrorCall) :
    errorMapAfter (earlier ++ [call]) = call.write (errorMapAfter earlier) := by
  simp [errorMapAfter]

/-- The same apart from the time stamp. -/
def SameContent (m m' : Map Value) : Prop := ∀ k : Str, k ≠ "ts" → m.lookup k = m'.lookup k

/-- Every field that would stay is written over, or no earlier request had it. -/
def LeavesNothing (call : ErrorCall) : Prop := ∀ k ∈ keptFields, isNil call.requestMap k = false ∨
    ∀ before ∈ earlier, isNil before.requestMap k = true

theorem keptFields_other (kept : k ∈ keptFields) : k ≠ "ts" ∧ k ≠ "error" ∧ k ≠ "requestId" := by
  have table : ∀ k ∈ keptFields, k ≠ "ts" ∧ k ≠ "error" ∧ k ≠ "requestId" := by
    decide
  exact table k kept

theorem lookup_write_kept (call : ErrorCall) (m : Map Value) (kept : k ∈ keptFields) :
    (call.write m).lookup k = (field call.requestMap k).or (m.lookup k) := by
  obtain ⟨ts, error, request⟩ := keptFields_other kept
  unfold ErrorCall.write
  rw [lookup_setErrorResponse, if_neg ts, if_neg error, if_neg request, if_pos kept]

theorem errorMapAfter_kept (calls : List ErrorCall) (kept : k ∈ keptFields) :
    (errorMapAfter calls).lookup k = none ↔ ∀ call ∈ calls, isNil call.requestMap k = true := by
  induction calls using reverseRecOn with
  | nil => exact iff_of_true rfl nofun
  | append_singleton earlier call ih =>
    rw [errorMapAfter_concat, lookup_write_kept call _ kept, or_eq_none_iff, ih, field_eq_none,
      forall_mem_append, forall_mem_singleton, and_comm]

theorem errorMapAfter_other (call : ErrorCall) (stamp : k ≠ "ts") (other : k ∉ keptFields) :
    (errorMapAfter (earlier ++ [call])).lookup k = (errorMapAfter [call]).lookup k := by
  have unknown : ∀ calls : List ErrorCall, k ≠ "error" → k ≠ "requestId" →
      (errorMapAfter calls).lookup k = none := by
    intro calls error request
    induction calls using reverseRecOn with
    | nil => rfl
    | append_singleton earlier call ih =>
      rw [errorMapAfter_concat, ErrorCall.write, lookup_setErrorResponse, if_neg stamp,
        if_neg error, if_neg request, if_neg other]
      exact ih
  by_cases error : k = "error"
  · rw [errorMapAfter_concat, ← nil_append [call], errorMapAfter_concat, ErrorCall.write,
      ErrorCall.write, lookup_setErrorResponse, lookup_setErrorResponse, if_neg stamp,
      if_neg stamp, if_pos error, if_pos error]
  · by_cases request : k = "requestId"
    · rw [errorMapAfter_concat, ← nil_append [call], errorMapAfter_concat, ErrorCall.write,
        ErrorCall.write, lookup_setErrorResponse, lookup_setErrorResponse, if_neg stamp,
        if_neg stamp, if_neg error, if_neg error, if_pos request, if_pos request]
    · rw [unknown _ error request, unknown _ error request]

/-- The response is what it would be without earlier errors if and only if they leave nothing. -/
theorem error_response_independent_iff (earlier : List ErrorCall) (call : ErrorCall) :
    SameContent (errorMapAfter (earlier ++ [call])) (errorMapAfter [call]) ↔
      LeavesNothing earlier call := by
  have first : ∀ k ∈ keptFields, (errorMapAfter [call]).lookup k = field call.requestMap k := by
    intro k kept
    rw [← nil_append [call], errorMapAfter_concat, lookup_write_kept call _ kept]
    exact or_none
  constructor
  · intro same k kept
    have equal := same k (keptFields_other kept).1
    rw [first k kept, errorMapAfter_concat, lookup_write_kept call _ kept] at equal
    cases present : field call.requestMap k with
    | some =>
      refine .inl (Bool.eq_false_of_not_eq_true ?_)
      intro missing
      rw [field_eq_none.mpr missing] at present
      cases present
    | none =>
      rw [present, none_or] at equal
      exact .inr ((errorMapAfter_kept earlier kept).mp equal)
  · intro nothing k stamp
    by_cases kept : k ∈ keptFields
    · rw [first k kept, errorMapAfter_concat, lookup_write_kept call _ kept]
      obtain present | absent := nothing k kept
      · cases found : field call.requestMap k with
        | none =>
          rw [field_eq_none.mp found] at present
          cases present
        | some => rfl
      · rw [(errorMapAfter_kept earlier kept).mpr absent]
        exact or_none
    · exact errorMapAfter_other earlier call stamp kept

end Vissr
