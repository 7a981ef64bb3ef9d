import Vissr.ServiceMgr.Requests
import Vissr.ServiceMgr.Storage

/-! What the loop of the service manager sends while it handles a request. -/

namespace Vissr.ServiceMgr

open Json Option Act

def Effect.IsNotification : Effect → Prop
  | .backendChan _ => True
  | _ => False

def Effect.isToFeeder : Effect → Bool
  | .toFeeder _ => true
  | _ => false

def writeOf (m : Map Value) : Option (Str × Str) :=
  (getStr m "path").bind fun path => (writeText (fieldOf m "value")).map fun text => (path, text)

def elementWrites (elements : List Value) : List (Str × Str) := elements.filterMap fun
    | .obj elem => writeOf elem
    | _ => none

def writesOf (requestMap : Map Value) : List (Str × Str) :=
  match fieldOf requestMap "data" with
  | .arr elements => elementWrites elements
  | _ => (writeOf requestMap).toList

def messageCount (env : Env) (writes : List (Str × Str)) : Nat :=
  (writes.map fun write => (env.setVehicleData write.1 write.2).2.length).sum

def messageBound (env : Env) (requestMap : Map Value) : Nat :=
  match actionOf requestMap with
  | .set => messageCount env (writesOf requestMap)
  | .subscribe => 1
  | .unsubscribe => 1
  | _ => 0

abbrev Serves {α : Type} (n : Nat) (x : Loop α) : Prop :=
  x.Bounded Effect.IsNotification Effect.isToFeeder n

variable {env : Env} {request : Map Value} {mgr : Manager} {n : Nat}

theorem respond_serves {message : Map Value} : Serves n (respond message mgr) := by
  refine Act.Avoids.bounded (avoids_emit (not_or.mpr ⟨id, Bool.false_ne_true⟩)) ?_
  intro _
  exact bounded_pure mgr

theorem refuse_serves {refusal : Refusal} : Serves n (refuse env request refusal mgr) :=
  respond_serves

theorem messageCount_singleton (write : Str × Str) :
    messageCount env [write] = (env.setVehicleData write.1 write.2).2.length := by
  simp [messageCount]

theorem messageCount_append (writes writes' : List (Str × Str)) :
    messageCount env (writes ++ writes') = messageCount env writes + messageCount env writes' := by
  simp [messageCount]

theorem elementWrites_obj (elem : Map Value) (rest : List Value) :
    elementWrites (.obj elem :: rest) = (writeOf elem).toList ++ elementWrites rest := by
  cases write : writeOf elem with
  | none | some => simp [elementWrites, write]

theorem writeValue_serves {m : Map Value} {path : Str} (given : getStr m "path" = some path) :
    Serves (messageCount env (writeOf m).toList) (writeValue env path (fieldOf m "value")) := by
  rw [writeOf, given, bind_some]
  cases written : writeText (fieldOf m "value") with
  | none =>
    rw [writeValue_of_none written]
    exact bounded_pure _
  | some text =>
    have sent : Serves ((env.setVehicleData path text).2.map Effect.toFeeder).length
        (emitAll ((env.setVehicleData path text).2.map Effect.toFeeder)) := by
      apply bounded_emitAll
      intro e mem
      obtain ⟨message, -, rfl⟩ := List.mem_map.mp mem
      exact id
    rw [List.length_map] at sent
    rw [writeValue_eq written, map_some, toList_some, messageCount_singleton]
    exact sent.bind (m := 0) fun _ => bounded_pure _

theorem handleServiceSet_serves :
    Serves (messageCount env (writeOf request).toList) (handleServiceSet env request mgr) := by
  simp only [handleServiceSet]
  split
  · exact refuse_serves
  · next path given =>
    refine (writeValue_serves given).bind (m := 0) ?_
    intro ts
    split_ifs
    · exact refuse_serves
    · exact respond_serves

theorem writeElements_serves (elements : List Value) (ts : Str) :
    Serves (messageCount env (elementWrites elements)) (writeElements env elements ts) := by
  induction elements generalizing ts with
  | nil => exact bounded_pure _
  | cons element rest ih =>
    cases element with
    | obj elem =>
      rw [elementWrites_obj, messageCount_append]
      cases found : getStr elem "path" with
      | none =>
        simp only [writeElements, found]
        exact bounded_pure _
      | some =>
        simp only [writeElements, found]
        refine (writeValue_serves found).bind ?_
        intro ts
        split_ifs
        · exact bounded_pure _
        · exact ih ts
    | _ => exact bounded_pure _

theorem handleServiceMultiSet_serves :
    Serves (messageCount env (writesOf request)) (handleServiceMultiSet env request mgr) := by
  simp only [handleServiceMultiSet]
  split
  · next element rest data =>
    have writes : writesOf request = elementWrites (element :: rest) := by
      simp only [writesOf, data]
    rw [writes]
    refine (writeElements_serves _ _).bind (m := 0) ?_
    intro written
    cases written with
    | error => exact refuse_serves
    | ok => exact respond_serves
  · exact refuse_serves

theorem handleServiceGet_serves : Serves n (handleServiceGet env request mgr) := by
  simp only [handleServiceGet]
  split
  · exact refuse_serves
  · split
    · exact refuse_serves
    · split_ifs
      · exact refuse_serves
      · refine (avoids_await _).bounded ?_
        intro dataPack
        exact respond_serves

theorem handleServiceSubscribe_serves : Serves 1 (handleServiceSubscribe env request mgr) := by
  simp only [handleServiceSubscribe]
  split
  · exact refuse_serves
  · refine (activateIfIntervalOrCL_avoids
      (fun _ => not_or.mpr ⟨id, Bool.false_ne_true⟩) _ _ _).bounded ?_
    intro mgr
    refine Act.Bounded.bind (n := 1) (m := 0) ?_ ?_
    · simp only [notifyFeeder]
      split
      · exact bounded_pure _
      · exact bounded_emit id
    · intro _
      exact respond_serves

theorem handleServiceUnsubscribe_serves :
    Serves 1 (handleServiceUnsubscribe env request mgr) := by
  simp only [handleServiceUnsubscribe]
  split
  · exact refuse_serves
  · split
    · refine respond_serves.bind (n := 0) (m := 1) ?_
      intro mgr
      refine (bounded_emit id).bind (m := 0) ?_
      intro _
      exact bounded_pure mgr
    · exact refuse_serves

theorem handleInternalCancelSubscription_serves :
    Serves n (handleInternalCancelSubscription env request mgr) := by
  simp only [handleInternalCancelSubscription]
  split
  · exact bounded_pure mgr
  · split_ifs
    · exact bounded_pure mgr
    · refine refuse_serves.bind (m := 0) ?_
      intro mgr
      exact bounded_pure _

theorem handleRequest_serves :
    Serves (messageBound env request) (handleRequest env request mgr) := by
  simp only [handleRequest, messageBound]
  cases actionOf request with
  | invoke => exact bounded_pure mgr
  | set =>
    dsimp only
    split_ifs with multi
    · exact handleServiceMultiSet_serves
    · have absent : fieldOf request "data" = .null := by
        rw [fieldOf, not_isSome_iff_eq_none.mp multi, getD_none]
      have writes : writesOf request = (writeOf request).toList := by
        simp only [writesOf, absent]
      rw [writes]
      exact handleServiceSet_serves
  | get => exact handleServiceGet_serves
  | subscribe => exact handleServiceSubscribe_serves
  | unsubscribe => exact handleServiceUnsubscribe_serves
  | killSubscriptions => exact bounded_pure _
  | cancelSubscription => exact handleInternalCancelSubscription_serves
  | unknown => exact refuse_serves

end Vissr.ServiceMgr
