import Vissr.Core.OneOutcome

/-! What a set request for one path may write. -/

namespace Vissr.Core

open Json Token Tree Option List Act

variable (env : Env) (requestMap : Map Value)

def matchedNodes (rootPath : Str) : List Match :=
  (searchPathsOf env requestMap rootPath).flatMap (matchesOf (treeRoot env.himForest rootPath))

def WritesActuators : Prop :=
  ∀ message, Effect.serviceDataChan message ∈ (issueServiceRequest env requestMap).effects →
    ∃ rootPath ∈ getStr requestMap "path", getStr message "path" =
          some (forwardedPath ((matchedNodes env requestMap rootPath).map matchPath)) ∧
        ∀ found ∈ matchedNodes env requestMap rootPath, found.node.data.nodeType = .actuator

def validationOf (root : Option Node) (path : Str) : Int :=
  ((searchTree root path true true []).map Prod.snd).getD (-1)

def joinedValidation (root : Option Node) (paths : List Str) : Int :=
  paths.foldl (fun total path => getMaxValidation (validationOf root path) total) (-1)

def Granted (paths : Str) (validation : Int) : Prop :=
  (requiredValidation requestMap validation).tmod 10 = 0 ∨
    ((requiredValidation requestMap validation).tmod 10 = 1 ∨
        (requiredValidation requestMap validation).tmod 10 = 2) ∧
      ∃ token ∈ getStr requestMap "authorization",
        ∃ answer ∈ verifyToken env.ats token "set" paths (requiredValidation requestMap validation),
          answer.errorCode = 0

/-- Matches with acceptable values, an actuator as the first match of the last path, valid filters,
and a token if it needs one. -/
@[mk_iff] structure Admitted (root : Option Node) (rootPath : Str) : Prop where
  accepted : ∀ path ∈ searchPathsOf env requestMap rootPath, Accepts env root requestMap path
  actuator : ∃ last ∈ (searchPathsOf env requestMap rootPath).getLast?,
    ∃ first ∈ (matchesOf root last).head?,
      contains first.node.data.datatype ".FileDescriptor" = false ∧
        first.node.data.nodeType = .actuator
  filters : isNil requestMap "filter" = true ∨
    ∀ filter ∈ filtersOf env requestMap, validateFilter env filter = none
  granted : Granted env requestMap
    (requestPaths (((searchPathsOf env requestMap rootPath).flatMap (matchesOf root)).map matchPath))
    (joinedValidation root (searchPathsOf env requestMap rootPath))

/-- Nothing but actuators is matched, or the request is refused anyway. -/
def MatchesActuators : Prop := ∀ rootPath ∈ getStr requestMap "path",
    Admitted env requestMap (treeRoot env.himForest rootPath) rootPath →
      ∀ found ∈ matchedNodes env requestMap rootPath, found.node.data.nodeType = .actuator

variable {env requestMap} {rewritten message : Map Value} {paths : Str} {validation : Int}

theorem not_forwarded {α : Type} {x : Handler α} (quiet : x.Avoids Effect.Sends) :
    Effect.serviceDataChan message ∉ x.effects :=
  fun mem => quiet _ mem trivial

theorem forwardAuthorized_forwards : Effect.serviceDataChan message ∈
        (forwardAuthorized env requestMap paths validation rewritten).effects ↔
      ∃ answer, (authorizeMultiSignalAccess env requestMap paths validation).result =
        some (some answer) ∧ message = withAnswer answer rewritten := by
  rw [forwardAuthorized]
  cases ended : (authorizeMultiSignalAccess env requestMap paths validation).result with
  | none =>
    rw [bind_of_none _ _ ended]
    exact iff_of_false (not_forwarded authorizeMultiSignalAccess_quiet) (by simp)
  | some granted =>
    rw [bind_of_some _ _ granted ended, mem_append,
      or_iff_right (not_forwarded authorizeMultiSignalAccess_quiet)]
    cases granted with
    | none => simp
    | some => simp

theorem authorizeAccess_set (isSet : actionOf requestMap = "set") :
    (∃ answer, (authorizeAccess env requestMap paths validation).result = some answer ∧
        answer.errorCode = 0) ↔ ∃ token ∈ getStr requestMap "authorization",
        ∃ answer ∈ verifyToken env.ats token "set" paths validation, answer.errorCode = 0 := by
  rw [authorizeAccess]
  cases given : getStr requestMap "authorization" with
  | none =>
    simp only [isSet, ne_eq, not_true_eq_false, false_and, if_false]
    split_ifs <;> simp
  | some token =>
    have present : isNil requestMap "authorization" = false := by
      rw [isNil, getStr_eq_some.mp given]
    simp only [present, isSet, ne_eq, not_true_eq_false, false_and, Bool.false_eq_true, if_false]
    cases verifyToken env.ats token "set" paths validation <;> simp [askToken, result_bind]

theorem authorizeMultiSignalAccess_set (isSet : actionOf requestMap = "set") :
    (∃ answer, (authorizeMultiSignalAccess env requestMap paths validation).result =
        some (some answer)) ↔ Granted env requestMap paths validation := by
  rw [authorizeMultiSignalAccess, Granted, ← authorizeAccess_set isSet]
  by_cases free : (requiredValidation requestMap validation).tmod 10 = 0
  · simp [free]
  · by_cases asked : (requiredValidation requestMap validation).tmod 10 = 1 ∨
      (requiredValidation requestMap validation).tmod 10 = 2
    · simp only [free, asked, if_true, if_false, result_bind, false_or, true_and]
      cases (authorizeAccess env requestMap paths (requiredValidation requestMap validation)).result
        with
      | none => simp
      | some answer =>
        by_cases zero : answer.errorCode = 0
        · simp [zero]
        · simp [zero, setTokenErrorResponse, setErrorAndForward, result_bind]
    · simp [free, asked, setErrorAndForward, result_bind]

theorem lookup_withAnswer (answer : TokenAnswer) {k : Str} (other : k ≠ "gatingId")
    (another : k ≠ "handle") : (withAnswer answer requestMap).lookup k = requestMap.lookup k := by
  simp only [withAnswer, setIfAny]
  split_ifs <;> simp only [lookup_set, if_neg other, if_neg another]

theorem getStr_withAnswer (answer : TokenAnswer) (p : Str) :
    getStr (withAnswer answer (set "path" (.str p) requestMap)) "path" = some p := by
  rw [getStr_eq_some, lookup_withAnswer answer (by decide) (by decide)]
  exact lookup_set_same _ _ _

section Signals

variable {env : Env} {root : Option Node} {requestMap message : Map Value} {rootPath : Str}

theorem transfer_not_forwarded (nodeType : NodeType) : Effect.serviceDataChan message ∉
      (initiateFileTransfer env requestMap nodeType >>= fun response =>
        emit (.backendChan response)).effects := by
  have avoided : (initiateFileTransfer env requestMap nodeType >>= fun response =>
      emit (.backendChan response)).Avoids fun e => e = .serviceDataChan message := by
    apply Act.Avoids.bind
    · obtain ⟨_, _, same⟩ | ⟨d, -, same⟩ := initiateFileTransfer_cases env requestMap nodeType
      · rw [same]
        exact avoids_pure _
      · rw [same]
        apply Act.Avoids.bind
        · apply (avoids_emit nofun).bind
          intro _
          exact avoids_await _
        · intro status
          exact avoids_pure _
    · intro response
      exact avoids_emit nofun
  exact fun mem => avoided _ mem rfl

theorem validateData_none (isSet : actionOf requestMap = "set") (first : Match)
    (filterList : List FilterObject) : validateData env requestMap first filterList = none ↔
      first.node.data.nodeType = .actuator ∧ (isNil requestMap "filter" = true ∨
          ∀ filter ∈ filterList, validateFilter env filter = none) := by
  have action : getStr requestMap "action" = some "set".toList := by
    rw [actionOf] at isSet
    cases given : getStr requestMap "action" with
    | none =>
      rw [given] at isSet
      exact absurd isSet (by decide)
    | some =>
      rw [given] at isSet
      exact congrArg some isSet
  rw [validateData]
  by_cases actuator : first.node.data.nodeType = .actuator
  · rw [if_neg (fun both => both.2 actuator)]
    split_ifs with nil
    · exact iff_of_true rfl ⟨actuator, .inl nil⟩
    · rw [findSome?_eq_none_iff]
      exact ⟨fun all => ⟨actuator, .inr all⟩, fun both => both.2.resolve_left nil⟩
  · rw [if_pos ⟨action, actuator⟩]
    exact iff_of_false (some_ne_none _) fun both => actuator both.1

theorem hits_validation {paths : List Str} {rounds : List (List Match × Int)}
    (hits : List.Forall₂ (Hit env root requestMap) paths rounds) (total : Int) :
    rounds.foldl (fun total round => getMaxValidation round.2 total) total =
      paths.foldl (fun total path => getMaxValidation (validationOf root path) total) total := by
  induction hits generalizing total with
  | nil => rfl
  | @cons path round paths rounds hit hits ih =>
    have same : validationOf root path = round.2 := by
      rw [validationOf, hit.searched]
      rfl
    rw [foldl_cons, foldl_cons, same]
    exact ih _

theorem found_eq {paths : List Str} {rounds : List (List Match × Int)}
    (hits : List.Forall₂ (Hit env root requestMap) paths rounds) :
    (rounds.foldl Found.add {}).matched = paths.flatMap (matchesOf root) ∧
      (rounds.foldl Found.add {}).maxValidation = joinedValidation root paths := by
  rw [foldl_add]
  constructor
  · rw [hits_matches hits, nil_append, flatMap_def]
  · exact hits_validation hits (-1)

section

variable (isSet : actionOf requestMap = "set")

include isSet

theorem serveFound_forwards {found : Found} {first : Match} {rest : List Match}
    (data : found.searchData = first :: rest) : Effect.serviceDataChan message ∈
        (serveFound env requestMap (filtersOf env requestMap) found).effects ↔
      contains first.node.data.datatype ".FileDescriptor" = false ∧
        first.node.data.nodeType = .actuator ∧ (isNil requestMap "filter" = true ∨
          ∀ filter ∈ filtersOf env requestMap, validateFilter env filter = none) ∧
        ∃ answer, (authorizeMultiSignalAccess env requestMap
            (requestPaths (found.matched.map matchPath)) found.maxValidation).result =
              some (some answer) ∧ message = withAnswer answer
            (set "path" (.str (forwardedPath (found.matched.map matchPath))) requestMap) := by
  rw [serveFound, data]
  by_cases descriptor : contains first.node.data.datatype ".FileDescriptor" = true
  · simp only [descriptor, if_true]
    exact iff_of_false (transfer_not_forwarded _) (by simp)
  · simp only [descriptor, if_false, true_and, Bool.false_eq_true]
    have valid := @validateData_none env requestMap isSet first (filtersOf env requestMap)
    cases checked : validateData env requestMap first (filtersOf env requestMap) with
    | none =>
      rw [← and_assoc, ← valid, checked]
      simp only [true_and, forwardAuthorized_forwards]
    | some =>
      rw [← and_assoc, ← valid, checked]
      exact iff_of_false (not_forwarded (setErrorAndForward_quiet _ _)) (by simp)

theorem serveSignals_admitted
    (mem : Effect.serviceDataChan message ∈ (serveSignals env root requestMap rootPath).effects) :
    Admitted env requestMap root rootPath ∧ getStr message "path" = some (forwardedPath
        (((searchPathsOf env requestMap rootPath).flatMap (matchesOf root)).map matchPath)) := by
  rw [serveSignals] at mem
  split at mem
  · exact absurd mem (not_forwarded (setErrorAndForward_quiet _ _))
  · exact absurd mem (not_forwarded (answerMetadata_quiet _ _))
  · next searchPath planned =>
    have targets : searchPathsOf env requestMap rootPath =
        if searchPath = [] then [rootPath] else searchPath := by
      rw [searchPathsOf, planned]
    rw [← targets] at mem
    split at mem
    · exact absurd mem not_mem_nil
    · exact absurd mem (not_forwarded (setErrorAndForward_quiet _ _))
    · next found searched =>
      obtain ⟨rounds, hits, rfl⟩ := (searchPaths_ok_iff _ _ _).mp searched
      obtain ⟨matched, validation⟩ := found_eq hits
      cases data : (rounds.foldl Found.add {}).searchData with
      | nil =>
        rw [serveFound, data] at mem
        exact absurd mem not_mem_nil
      | cons first =>
        obtain ⟨signal, actuator, filters, answer, granted, rfl⟩ :=
          (serveFound_forwards isSet data).mp mem
        obtain ⟨last, final, head⟩ := hits_last hits data
        rw [matched, validation] at granted
        refine ⟨⟨hits_accepts hits, ⟨last, final, first, head, signal, actuator⟩, filters,
          (authorizeMultiSignalAccess_set isSet).mp ⟨answer, granted⟩⟩, ?_⟩
        rw [matched]
        exact getStr_withAnswer answer _

theorem serveSignals_of_admitted (admitted : Admitted env requestMap root rootPath) :
    ∃ message, Effect.serviceDataChan message ∈
      (serveSignals env root requestMap rootPath).effects := by
  obtain ⟨last, final, first, head, signal, actuator⟩ := admitted.actuator
  obtain ⟨searchPath, planned, targets⟩ := planFilters_of_last final
  obtain ⟨rounds, hits⟩ := hits_of_accepts _ admitted.accepted
  obtain ⟨matched, validation⟩ := found_eq hits
  obtain ⟨answer, granted⟩ := (authorizeMultiSignalAccess_set isSet).mpr admitted.granted
  have searched := (searchPaths_ok_iff _ {} _).mpr ⟨rounds, hits, rfl⟩
  have data : ∃ rest, (rounds.foldl Found.add {}).searchData = first :: rest := by
    rw [hits_searchData hits, mem_def.mp final]
    exact ⟨_, (cons_head?_tail head).symm⟩
  obtain ⟨rest, data⟩ := data
  rw [serveSignals, planned]
  simp only [← targets, searched]
  rw [← matched, ← validation] at granted
  exact ⟨_, (serveFound_forwards isSet data).mpr
    ⟨signal, actuator, admitted.filters, answer, granted, rfl⟩⟩

end

end Signals

section Main

variable {env : Env} {root : Option Node} {requestMap : Map Value} {rootPath : Str}

theorem admitted_infoType (infoType : Value) :
    Admitted env (set "infoType" infoType requestMap) root rootPath ↔
      Admitted env requestMap root rootPath := by
  have same := @sameFields_infoType requestMap infoType
  have filter : (set "infoType" infoType requestMap).lookup "filter".toList =
      requestMap.lookup "filter".toList := same _ (by decide)
  have nil : isNil (set "infoType" infoType requestMap) "filter" = isNil requestMap "filter" := by
    rw [isNil, filter, isNil]
  have filters : filtersOf env (set "infoType" infoType requestMap) = filtersOf env requestMap := by
    rw [filtersOf, filter, filtersOf]
  have accepts : ∀ path, Accepts env root (set "infoType" infoType requestMap) path ↔
      Accepts env root requestMap path := by
    intro path
    rw [Accepts, same.actionOf, same _ (by decide), Accepts]
  have granted : ∀ paths validation,
      Granted env (set "infoType" infoType requestMap) paths validation ↔
        Granted env requestMap paths validation := by
    intro paths validation
    have required : requiredValidation (set "infoType" infoType requestMap) validation =
        requiredValidation requestMap validation := by
      rw [requiredValidation, same.getStr _ (by decide), requiredValidation]
    rw [Granted, required, getStr_set_other _ _ _ (by decide), Granted]
  rw [admitted_iff, admitted_iff]
  simp only [same.searchPathsOf, accepts, nil, filters, granted]

theorem not_admitted_noRoot : ¬ Admitted env requestMap none rootPath := by
  intro admitted
  obtain ⟨last, _, first, head, _⟩ := admitted.actuator
  rw [matchesOf_noRoot] at head
  cases head

theorem issueServiceRequest_set (isSet : actionOf requestMap = "set")
    (path : getStr requestMap "path" = some rootPath) :
    (treeRoot env.himForest rootPath = none ∧ ∃ errorIndex description,
        issueServiceRequest env requestMap =
          setErrorAndForward env requestMap errorIndex description) ∨
      ∃ infoType, issueServiceRequest env requestMap =
        serveSignals env (treeRoot env.himForest rootPath)
          (set "infoType" infoType requestMap) rootPath := by
  have internal : isInternalAction (actionOf requestMap) = false := by
    rw [isSet]
    decide
  have tree : asksForest requestMap rootPath = false := by
    apply Bool.eq_false_of_not_eq_true
    intro asked
    have isGet := (asksForest_iff.mp asked).2.1
    rw [isSet] at isGet
    exact absurd isGet (by decide)
  simp only [issueServiceRequest, internal, path, tree, Bool.false_eq_true, if_false, treeRoot]
  cases setRootNodePointer env.himForest rootPath with
  | none => exact .inl ⟨rfl, 0, [], rfl⟩
  | some tree =>
    cases handle : tree.handle with
    | none => exact .inl ⟨handle, 0, [], by simp only [handle]⟩
    | some => exact .inr ⟨.str (getInfoType tree), by simp only [handle, bind_some]⟩

/-- A set writes actuators only, exactly when it is refused or matches nothing else. -/
theorem writes_actuators_iff (env : Env) (requestMap : Map Value)
    (isSet : actionOf requestMap = "set") :
    WritesActuators env requestMap ↔ MatchesActuators env requestMap := by
  have dressed : ∀ infoType, actionOf (set "infoType" infoType requestMap) = "set" := by
    intro infoType
    rw [(@sameFields_infoType requestMap infoType).actionOf, isSet]
  constructor
  · intro writes rootPath path admitted
    obtain ⟨none, _⟩ | ⟨infoType, served⟩ := @issueServiceRequest_set env requestMap rootPath isSet path
    · rw [none] at admitted
      exact absurd admitted not_admitted_noRoot
    · rcases serveSignals_of_admitted (dressed infoType) ((admitted_infoType infoType).mpr admitted)
        with ⟨message, member⟩
      rw [← served] at member
      obtain ⟨other, same, _, actuators⟩ := writes message member
      rw [mem_def.mp path] at same
      cases same
      exact actuators
  · intro matched message member
    cases path : getStr requestMap "path" with
    | none =>
      have internal : isInternalAction (actionOf requestMap) = false := by
        rw [isSet]
        decide
      simp only [issueServiceRequest, internal, path, Bool.false_eq_true, if_false] at member
      exact absurd member (not_forwarded (setErrorAndForward_quiet _ _))
    | some rootPath =>
      obtain ⟨_, errorIndex, description, answered⟩ | ⟨infoType, served⟩ :=
        @issueServiceRequest_set env requestMap rootPath isSet path
      · rw [answered] at member
        exact absurd member (not_forwarded (setErrorAndForward_quiet _ _))
      · rw [served] at member
        obtain ⟨admitted, field⟩ := serveSignals_admitted (dressed infoType) member
        rw [(@sameFields_infoType requestMap infoType).searchPathsOf] at field
        exact ⟨rootPath, rfl, field,
          matched rootPath path ((admitted_infoType infoType).mp admitted)⟩

end Main

def seatTree : Node := .mk { name := "Seat", nodeType := .branch }
    [.mk { name := "Position", nodeType := .actuator, datatype := "uint16" } [],
      .mk { name := "IsBelted", nodeType := .sensor, datatype := "boolean" } []]

def seatEnv : Env :=
  { fileEnv with himForest := [⟨"Seat", some seatTree, [], fun _ same => by cases same; rfl⟩] }

def setRequest (path : Str) : Map Value :=
  [("action", .str "set"), ("path", .str path), ("value", .str "1"), ("origin", .str "external")]

theorem writes_actuators_position : actionOf (setRequest "Seat.Position") = "set" ∧
      (issueServiceRequest seatEnv (setRequest "Seat.Position")).effects.any Effect.isService =
        true ∧ WritesActuators seatEnv (setRequest "Seat.Position") := by
  refine ⟨by decide, by decide +kernel, ?_⟩
  rw [writes_actuators_iff seatEnv (setRequest "Seat.Position") (by decide)]
  intro rootPath path _
  cases path
  decide +kernel

def Effect.forwarded : Effect → Option (Map Value)
  | .serviceDataChan message => some message
  | _ => none

/-- The set of all signals below the seat writes the sensor. -/
theorem sensor_is_written : actionOf (setRequest "Seat.*") = "set" ∧
      ((issueServiceRequest seatEnv (setRequest "Seat.*")).effects.filterMap
          Effect.forwarded).map (getStr · "path") =
        [some "[\"Seat.Position\", \"Seat.IsBelted\"]".toList] ∧
      ¬ WritesActuators seatEnv (setRequest "Seat.*") := by
  have sent : ((issueServiceRequest seatEnv (setRequest "Seat.*")).effects.filterMap
      Effect.forwarded).map (getStr · "path") =
        [some "[\"Seat.Position\", \"Seat.IsBelted\"]".toList] := by decide +kernel
  refine ⟨by decide, sent, ?_⟩
  intro writes
  have forwards : (issueServiceRequest seatEnv (setRequest "Seat.*")).effects.any
      Effect.isService = true := by decide +kernel
  obtain ⟨effect, listed, service⟩ := any_eq_true.mp forwards
  cases effect with
  | serviceDataChan message =>
    obtain ⟨rootPath, path, _, actuators⟩ := writes message listed
    cases path
    revert actuators
    decide +kernel
  | _ => cases service

end Vissr.Core
