import Vissr.Core.Actuators
import Vissr.ServiceMgr.Storage

/-! Set requests of several signals: paths are resolved first, values are checked one by one. -/

namespace Vissr.Core

open Json List

def elementValue : Value → Value
  | .obj elem => (elem.lookup "value".toList).getD .null
  | _ => .null

def valuesOf (requestMap : Map Value) : List Value := (dataArrayOf requestMap).map elementValue

variable {env : Env} {requestMap message : Map Value}

theorem resolveElements_values {elements : List Value} {signals : List Signal}
    (resolved : resolveElements (resolveSetElement env) elements = some (.ok signals)) :
    signals.map Signal.value = elements.map elementValue := by
  have related := resolveElements_ok resolved
  clear resolved
  induction related with
  | nil => rfl
  | cons first _ ih =>
    obtain ⟨-, -, elem, rfl, value⟩ := resolveSetElement_resolved first
    rw [map_cons, map_cons, ih, elementValue, value, Option.getD_some]

theorem handleMultiSetRequest_forwards
    (forwards : Effect.serviceDataChan message ∈ (handleMultiSetRequest env requestMap).effects) :
    ∃ signals, signals ≠ [] ∧ signals.map Signal.value = valuesOf requestMap ∧
      message.lookup "data".toList = some (.arr (signals.map Signal.toValue)) := by
  rw [handleMultiSetRequest, handleElements] at forwards
  split_ifs at forwards with empty
  · exact absurd forwards (not_forwarded (setErrorAndForward_quiet _ _))
  · split at forwards
    · exact absurd forwards not_mem_nil
    · exact absurd forwards (not_forwarded (setErrorAndForward_quiet _ _))
    · next signals resolved =>
      obtain ⟨answer, -, rfl⟩ := forwardAuthorized_forwards.mp forwards
      have values := resolveElements_values resolved
      refine ⟨signals, ?_, values, ?_⟩
      · rintro rfl
        exact empty (isEmpty_iff.mpr (map_eq_nil_iff.mp values.symm))
      · rw [lookup_withAnswer answer (by decide) (by decide)]
        exact lookup_set_same _ _ _

end Vissr.Core

namespace Vissr.ServiceMgr

open Json List

def recording (env : Env) : Env := { env with
  setVehicleData := fun path value => setThroughFeeder (env.setVehicleData path value).1 path value }

/-- An error is answered only if nothing was written. -/
def RefusesUnwritten (env : Env) (requestMap : Map Value) (mgr : Manager) : Prop :=
  ∀ response, .dataChan response ∈ (handleServiceMultiSet (recording env) requestMap mgr).effects →
    response.lookup "error".toList ≠ none →
      ∀ message, .toFeeder message ∉ (handleServiceMultiSet (recording env) requestMap mgr).effects

section Writes

variable {env : Env} {mgr : Manager}

theorem writeElements_signals (never : ∀ path value, (env.setVehicleData path value).1 ≠ [])
    (told : ∀ path value, (env.setVehicleData path value).2 ≠ []) (signals : List Core.Signal)
    (ts : Str) : ∃ messages written, writeElements env (signals.map Core.Signal.toValue) ts =
        ⟨messages.map .toFeeder, some written⟩ ∧
      ((∃ ts, written = .ok ts) ↔ ∀ v ∈ signals.map Core.Signal.value, writeText v ≠ none) ∧
      (messages = [] ↔ ∀ v ∈ (signals.map Core.Signal.value).head?, writeText v = none) := by
  induction signals generalizing ts with
  | nil => exact ⟨[], .ok ts, rfl, by simp, by simp⟩
  | cons signal signals ih =>
    have step : writeElements env ((signal :: signals).map Core.Signal.toValue) ts = (do
        let ts ← writeValue env (Core.matchPath signal.found) signal.value
        if ts = [] then return .error ⟨7, []⟩
        else writeElements env (signals.map Core.Signal.toValue) ts) := rfl
    rw [step]
    cases written : writeText signal.value with
    | none =>
      rw [writeValue_of_none written]
      exact ⟨[], .error ⟨7, []⟩, rfl, by simp [written], by simp [written]⟩
    | some text =>
      obtain ⟨messages, result, rest, ok, -⟩ :=
        ih (env.setVehicleData (Core.matchPath signal.found) text).1
      refine ⟨(env.setVehicleData (Core.matchPath signal.found) text).2 ++ messages, result,
        ?_, ?_, ?_⟩
      · rw [writeValue_eq written, Act.bind_assoc, Act.bind_of_some _ _ () rfl, Act.pure_bind,
          if_neg (never _ _), rest, map_append]
        rfl
      · simp [ok, written]
      · simp [told, written]

theorem handleServiceMultiSet_effects {messages : List Str} {written : Except Refusal Str}
    {forwarded : Map Value} {first : Value} {rest : List Value}
    (data : forwarded.lookup "data".toList = some (.arr (first :: rest)))
    (ends : writeElements env (first :: rest) [] = ⟨messages.map .toFeeder, some written⟩) :
    ∃ response, (handleServiceMultiSet env forwarded mgr).effects =
        messages.map .toFeeder ++ [.dataChan response] ∧
      (response.lookup "error".toList = none ↔ ∃ ts, written = .ok ts) := by
  have given : fieldOf forwarded "data" = .arr (first :: rest) := by
    rw [fieldOf, data]
    rfl
  rw [handleServiceMultiSet, given]
  dsimp only
  rw [ends, Act.bind_of_some _ _ _ rfl]
  cases written with
  | error =>
    refine ⟨_, rfl, iff_of_false ?_ (by simp)⟩
    rw [setErrorResponse, lookup_set, if_neg (by decide), lookup_set_same]
    exact Option.some_ne_none _
  | ok ts =>
    refine ⟨_, rfl, iff_of_true ?_ ⟨ts, rfl⟩⟩
    rw [lookup_set, if_neg (by decide), buildServiceResponseMap]
    split_ifs
    · rfl
    · rw [lookup_set, if_neg (by decide)]
      rfl

/-- A refused set has written nothing just in case all its values can be written, or not the first. -/
theorem multi_set_unwritten_iff (never : ∀ path value, (env.setVehicleData path value).1 ≠ [])
    {coreEnv : Core.Env} {requestMap forwarded : Map Value}
    (accepted : Core.Effect.serviceDataChan forwarded ∈
      (Core.handleMultiSetRequest coreEnv requestMap).effects) :
    RefusesUnwritten env forwarded mgr ↔
      (∀ v ∈ Core.valuesOf requestMap, writeText v ≠ none) ∨
        ∀ v ∈ (Core.valuesOf requestMap).head?, writeText v = none := by
  obtain ⟨signals, nonempty, values, data⟩ := Core.handleMultiSetRequest_forwards accepted
  obtain ⟨messages, written, ends, ok, unwritten⟩ :=
    @writeElements_signals (recording env) never (fun _ _ => cons_ne_nil _ _) signals []
  obtain ⟨signal, rest, rfl⟩ := exists_cons_of_ne_nil nonempty
  obtain ⟨response, effects, error⟩ := @handleServiceMultiSet_effects _ mgr _ _ _ _ _ data ends
  rw [← values, ← ok, ← unwritten, ← error, RefusesUnwritten, effects]
  simp [or_iff_not_imp_left, eq_nil_iff_forall_not_mem]

def setPosition (values : List Value) : Map Value := [("action", .str "set"),
  ("data", .arr (values.map fun v => .obj [("path", .str "Seat.Position"), ("value", v)]))]

theorem multi_set_unwritten_first : RefusesUnwritten redisEnv
    (setPosition [.bool true, .str "1"]).reverse {} := by
  have accepted : Core.Effect.serviceDataChan (setPosition [.bool true, .str "1"]).reverse ∈
      (Core.handleMultiSetRequest Core.seatEnv (setPosition [.bool true, .str "1"])).effects :=
    mem_singleton_self _
  rw [multi_set_unwritten_iff (fun _ _ => cons_ne_nil _ _) accepted]
  exact .inr fun v first => by cases first; rfl

/-- The error comes after the first value was written. -/
theorem multi_set_half_written :
    (Core.handleMultiSetRequest Core.seatEnv (setPosition [.str "1", .bool true])).effects =
        [.serviceDataChan (setPosition [.str "1", .bool true]).reverse] ∧
      (∃ response, (handleServiceMultiSet redisEnv (setPosition [.str "1", .bool true]).reverse
          {}).effects = [.toFeeder (setMessage "Seat.Position" "1" "T"), .dataChan response] ∧
        response.lookup "error".toList ≠ none) ∧
      ¬ RefusesUnwritten redisEnv (setPosition [.str "1", .bool true]).reverse {} := by
  refine ⟨rfl, ⟨_, rfl, Option.some_ne_none _⟩, ?_⟩
  intro unwritten
  exact unwritten _ (mem_cons_of_mem _ (mem_singleton_self _)) (Option.some_ne_none _) _
    mem_cons_self

end Writes

end Vissr.ServiceMgr
