import Vissr.Core.AccessControl

/-! Each request comes to one outcome. -/

namespace Vissr.Core

open Json Token Tree Option List Effect

/-- The request is served to the end, with one message in total. -/
def OneOutcome (env : Env) (requestMap : Map Value) : Prop :=
  (serveRequest env requestMap).Ends isMessage 1

/-- No tree has more levels than a search has counters. -/
def ForestShallow (himForest : Forest) : Prop :=
  ∀ tree ∈ himForest, ∀ root, tree.handle = some root → root.height ≤ 20

/-- The token server and the file transfer server answer, whatever it is. -/
structure Env.Answering (env : Env) : Prop where
  ats : ∀ request, (env.ats request).isSome = true
  fileTransfer : ∀ ftInitData, (env.fileTransfer ftInitData).isSome = true

def isTarget (filter : FilterObject) : Bool := filter.type = "paths" || filter.type = "metadata"

/-- A get of the forest whose first such filter, if any, is for paths. -/
def SearchesForest (env : Env) (requestMap : Map Value) : Prop :=
  (getStr requestMap "path").map urlToPath = some "HIM".toList ∧
    actionOf requestMap = "get" ∧ isNil requestMap "filter" = false ∧
    ∀ filter ∈ (filtersOf env requestMap).find? isTarget,
      filter.type = "paths" ∧ (expandPathFilter filter.parameter "HIM").isSome = true

variable {env : Env} {root : Node}

theorem treeRoot_shallow {himForest : Forest} {path : Str} (shallow : ForestShallow himForest)
    (found : treeRoot himForest path = some root) : root.height ≤ 20 := by
  obtain ⟨tree, selected, handle⟩ := bind_eq_some_iff.mp found
  exact shallow tree (mem_of_find?_eq_some selected) root handle

theorem searchTree_returns (shallow : root.height ≤ 20) (path : Str)
    (anyDepth leafNodesOnly : Bool) (noScopeList : List Str) :
    (searchTree (some root) path anyDepth leafNodesOnly noScopeList).isSome = true := by
  rw [searchTree]
  split_ifs with empty
  · rfl
  · rcases @vssSearchNodes_returns path root anyDepth leafNodesOnly noScopeList empty
      (stars_of_shallow (queryOf path anyDepth leafNodesOnly []) shallow) with
      ⟨found, validation, returned⟩
    rw [bind_some, returned]
    rfl

theorem verifyStructMembers_returns {verify : Map Value → Str → Option Str}
    (verifies : ∀ value typePath, (verify value typePath).isSome = true)
    (typeSearch : List Match) (members : Map Value) :
    (verifyStructMembers env verify typeSearch members).isSome = true := by
  induction members with
  | nil => rfl
  | cons mem members ih =>
    obtain ⟨memName, memValue⟩ := mem
    cases memValue with
    | obj memValueMap =>
      rcases isSome_iff_exists.mp
        (verifies memValueMap (memberDatatype env memName typeSearch)) with ⟨res, verified⟩
      simp only [verifyStructMembers, verified, bind_some]
      split_ifs
      · exact ih
      · rfl
      · rfl
    | _ =>
      simp only [verifyStructMembers]
      split_ifs
      · rfl
      · exact ih
      · rfl

section

variable (shallow : ForestShallow env.himForest)

include shallow

theorem verifyStruct_returns (levels : Nat) (value : Map Value) (typePath : Str) :
    (verifyStruct env levels value typePath).isSome = true := by
  induction levels generalizing value typePath with
  | zero =>
    rw [verifyStruct]
    split <;> rfl
  | succ levels ih =>
    rw [verifyStruct]
    split
    · rfl
    · next typeDefRoot selected =>
      rcases isSome_iff_exists.mp
        (searchTree_returns (treeRoot_shallow shallow selected) (typePath ++ ".*")
          true true []) with ⟨⟨typeSearch, validation⟩, searched⟩
      simp only [searched, bind_some]
      split_ifs
      · rfl
      · rw [isSome_map]
        exact verifyStructMembers_returns ih typeSearch _

theorem validateStructSetValue_returns (datatype : Str)
    (value : Option Value) : (validateStructSetValue env datatype value).isSome = true := by
  simp only [validateStructSetValue]
  split_ifs
  · split
    · rw [isSome_map]
      exact verifyStruct_returns shallow 6 _ datatype
    · rfl
  · rfl

theorem searchPaths_returns (low : root.height ≤ 20)
    (request : Map Value) (paths : List Str) (found : Found) :
    (searchPaths env (some root) request paths found).isSome = true := by
  induction paths generalizing found with
  | nil => rfl
  | cons path paths ih =>
    have round : (searchPathRound env (some root) request found path).isSome = true := by
      obtain ⟨round, searched⟩ := isSome_iff_exists.mp (searchTree_returns low path true true [])
      rw [searchPathRound, searched, bind_some]
      split
      · rfl
      · split_ifs
        · rw [isSome_map]
          exact validateStructSetValue_returns shallow _ _
        · rfl
    obtain ⟨result, done⟩ := isSome_iff_exists.mp round
    rw [searchPaths, done, bind_some]
    cases result with
    | error => rfl
    | ok next => exact ih next

end

theorem searchData_ne_nil {request : Map Value} {selected : Option Node} {paths : List Str}
    {found : Found} (some_path : paths ≠ [])
    (searched : searchPaths env selected request paths {} = some (.ok found)) :
    found.searchData ≠ [] := by
  obtain ⟨rounds, hits, rfl⟩ := (searchPaths_ok_iff _ _ _).mp searched
  have last := getLast?_eq_getLast_of_ne_nil some_path
  obtain ⟨round, hit⟩ := mem_of_forall₂ hits _ (mem_of_getLast? last)
  obtain ⟨first, head, _⟩ := hit.accepted
  intro empty
  rw [hits_searchData hits, last] at empty
  rw [← hit.matches_eq, show matchesOf selected _ = [] from empty] at head
  cases head

section Handlers

variable {env : Env} {request : Map Value} {root : Node}

theorem setErrorAndForward_ends (errorIndex : Nat) (description : Str) :
    (setErrorAndForward env request errorIndex description).Ends isMessage 1 :=
  Act.ends_emit rfl

section

variable (answering : env.Answering)

include answering

theorem getNoScopeList_ends (tokenContext : Str) :
    (getNoScopeList env tokenContext).Ends isMessage 0 := by
  apply (Act.ends_emit_other rfl).silent
  intro _ _
  apply (Act.ends_await (answering.ats _)).silent
  intro body _
  split <;> exact Act.ends_pure _

theorem synthesizeJsonTree_ends (low : root.height ≤ 20)
    (path : Str) (depth : Int) (tokenContext : Str) :
    (synthesizeJsonTree env path depth tokenContext (some root)).Ends isMessage 0 := by
  apply (getNoScopeList_ends answering tokenContext).silent
  intro noScopeList _
  apply (Act.ends_await (searchTree_returns low _ true false noScopeList)).silent
  rintro ⟨searchData, validation⟩ _
  dsimp only
  split
  · exact Act.ends_pure _
  · split <;> exact Act.ends_pure _

theorem discoverTree_ends (shallow : ForestShallow env.himForest) (rootPath : Str) (depth : Int) :
    (discoverTree env request rootPath depth).Ends isMessage 0 := by
  rw [discoverTree]
  split_ifs
  · exact Act.ends_pure _
  · split
    · exact Act.ends_pure _
    · next root selected =>
      apply (synthesizeJsonTree_ends answering (treeRoot_shallow shallow selected) _ _ _).silent
      intro tree _
      exact Act.ends_pure _

theorem handleDiscoverRequest_ends (shallow : ForestShallow env.himForest) :
    (handleDiscoverRequest env request).Ends isMessage 1 := by
  rw [handleDiscoverRequest]
  split
  · exact setErrorAndForward_ends _ _
  · split
    · exact setErrorAndForward_ends _ _
    · split
      · exact setErrorAndForward_ends _ _
      · apply (discoverTree_ends answering shallow _ _).silent
        intro tree _
        split
        · exact setErrorAndForward_ends _ _
        · exact Act.ends_emit rfl

theorem answerMetadata_ends {selected : Option Node} {rootPath : Str} (parameter : Str)
    (known : rootPath = "HIM" ∨ ∃ root, selected = some root ∧ root.height ≤ 20) :
    (answerMetadata env request rootPath parameter selected).Ends isMessage 1 := by
  have text : ∀ treedepth,
      (metadataText env request rootPath treedepth selected).Ends isMessage 0 := by
    intro treedepth
    rw [metadataText]
    split_ifs with forest
    · exact Act.ends_pure _
    · obtain same | ⟨root, rfl, low⟩ := known
      · exact absurd same forest
      · exact synthesizeJsonTree_ends answering low _ _ _
  rw [answerMetadata]
  split
  · exact setErrorAndForward_ends _ _
  · apply (text _).silent
    intro metadata _
    split_ifs
    · exact setErrorAndForward_ends _ _
    · exact Act.ends_emit rfl

theorem authorizeAccess_ends (paths : Str) (maxValidation : Int) :
    (authorizeAccess env request paths maxValidation).Ends isMessage 0 := by
  rw [authorizeAccess]
  split_ifs
  · exact Act.ends_pure _
  · exact Act.ends_pure _
  · split
    · exact Act.ends_pure _
    · apply Act.Ends.silent
      · apply Act.ends_await
        rw [verifyToken, isSome_map]
        exact answering.ats _
      · intro answer _
        apply (Act.ends_emit_other rfl).silent
        intro _ _
        exact Act.ends_pure _

theorem forwardAuthorized_ends (paths : Str) (maxValidation : Int) (rewritten : Map Value) :
    (forwardAuthorized env request paths maxValidation rewritten).Ends isMessage 1 := by
  have refused : ∀ errorIndex description,
      ((setErrorAndForward env request errorIndex description >>= fun _ =>
        (pure none : Handler (Option TokenAnswer))) >>= fun answer? => answer?.elim (pure ())
          fun answer => Act.emit (.serviceDataChan (withAnswer answer rewritten))).Ends
        isMessage 1 := by
    intro errorIndex description
    exact ⟨rfl, rfl⟩
  rw [forwardAuthorized, authorizeMultiSignalAccess]
  split_ifs
  · exact Act.ends_emit rfl
  · rw [Act.bind_assoc]
    apply (authorizeAccess_ends answering _ _).silent
    intro answer _
    split_ifs
    · exact refused 3 _
    · exact Act.ends_emit rfl
  · exact refused 7 []

theorem initiateFileTransfer_ends (nodeType : NodeType) :
    (initiateFileTransfer env request nodeType).Ends isMessage 0 := by
  obtain ⟨_, _, same⟩ | ⟨d, -, same⟩ := initiateFileTransfer_cases env request nodeType
  · rw [same]
    exact Act.ends_pure _
  · rw [same, askFileTransfer, Act.bind_assoc]
    apply (Act.ends_emit_other rfl).silent
    intro _ _
    apply (Act.ends_await (answering.fileTransfer d)).silent
    intro status _
    exact Act.ends_pure _

theorem serveFound_ends (filterList : List FilterObject)
    {found : Found} (matched : found.searchData ≠ []) :
    (serveFound env request filterList found).Ends isMessage 1 := by
  rw [serveFound]
  split
  · next empty => exact absurd empty matched
  · split_ifs
    · apply (initiateFileTransfer_ends answering _).silent
      intro response _
      exact Act.ends_emit rfl
    · split
      · exact setErrorAndForward_ends _ _
      · exact forwardAuthorized_ends answering _ _ _

end

theorem searchTargets_ne_nil (rootPath : Str) (searchPath : List Str) :
    (if searchPath = [] then [rootPath] else searchPath) ≠ [] := by
  split_ifs with none
  · exact cons_ne_nil _ _
  · exact none

theorem serveSignals_ends (answering : env.Answering) (shallow : ForestShallow env.himForest)
    (low : root.height ≤ 20) (rootPath : Str) :
    (serveSignals env (some root) request rootPath).Ends isMessage 1 := by
  rw [serveSignals]
  split
  · exact setErrorAndForward_ends _ _
  · exact answerMetadata_ends answering _ (.inr ⟨root, rfl, low⟩)
  · next searchPath planned =>
    split
    · next stopped =>
      have returns := searchPaths_returns shallow low request
        (if searchPath = [] then [rootPath] else searchPath) {}
      rw [stopped] at returns
      cases returns
    · exact setErrorAndForward_ends _ _
    · next found searched =>
      exact serveFound_ends answering _
        (searchData_ne_nil (searchTargets_ne_nil rootPath searchPath) searched)

end Handlers

variable {request : Map Value}

section

variable (shallow : ForestShallow env.himForest)

include shallow

theorem resolveSignalPath_returns (path : Str) : (resolveSignalPath env path).isSome = true := by
  rw [resolveSignalPath]
  split
  · rfl
  · next root selected =>
    rw [isSome_map]
    exact searchTree_returns (treeRoot_shallow shallow selected) path true true []

theorem resolveGetElement_returns (element : Value) :
    (resolveGetElement env element).isSome = true := by
  cases element with
  | str =>
    rw [resolveGetElement, isSome_map]
    exact resolveSignalPath_returns shallow _
  | _ => rfl

theorem resolveSetElement_returns (element : Value) :
    (resolveSetElement env element).isSome = true := by
  cases element with
  | obj =>
    rw [resolveSetElement]
    split
    · rfl
    · split
      · rfl
      · next pathStr _ _ value _ =>
        rcases isSome_iff_exists.mp
          (resolveSignalPath_returns shallow (urlToPath pathStr)) with ⟨signal, resolved⟩
        rw [resolved, bind_some]
        cases signal with
        | none => rfl
        | some =>
          simp only [checkSetSignal]
          split_ifs
          · rfl
          · rw [isSome_map]
            exact validateStructSetValue_returns shallow _ _
  | _ => rfl

end

theorem resolveElements_returns {resolve : Value → Option (Except Refusal Signal)}
    (returns : ∀ element, (resolve element).isSome = true) (elements : List Value) :
    (resolveElements resolve elements).isSome = true := by
  induction elements with
  | nil => rfl
  | cons element elements ih =>
    obtain ⟨result, resolved⟩ := isSome_iff_exists.mp (returns element)
    rw [resolveElements, resolved, bind_some]
    cases result with
    | error => rfl
    | ok =>
      rw [isSome_map]
      exact ih

theorem handleElements_ends (answering : env.Answering)
    {resolve : Value → Option (Except Refusal Signal)}
    (returns : ∀ element, (resolve element).isSome = true) (dataArray : List Value)
    (rewrite : Map Value → List Signal → Map Value) :
    (handleElements env request dataArray resolve rewrite).Ends isMessage 1 := by
  rw [handleElements]
  split_ifs
  · exact setErrorAndForward_ends _ _
  · split
    · next stopped =>
      have resolved := resolveElements_returns returns dataArray
      rw [stopped] at resolved
      cases resolved
    · exact setErrorAndForward_ends _ _
    · exact forwardAuthorized_ends answering _ _ _

theorem handleMultiSignalRequest_ends (answering : env.Answering)
    (shallow : ForestShallow env.himForest) :
    (handleMultiSignalRequest env request).Ends isMessage 1 := by
  rw [handleMultiSignalRequest]
  split_ifs
  · exact handleElements_ends answering (resolveGetElement_returns shallow) _ _
  · exact handleElements_ends answering (resolveSetElement_returns shallow) _ _

variable {rootPath : Str}

theorem planFilters_search_iff (filters : List FilterObject) :
    (∃ searchPath, planFilters rootPath filters = .search searchPath) ↔
      ∀ filter ∈ filters.find? isTarget,
        filter.type = "paths" ∧ (expandPathFilter filter.parameter rootPath).isSome = true := by
  induction filters with
  | nil => exact ⟨fun _ _ none => absurd none (not_mem_none _), fun _ => ⟨[], rfl⟩⟩
  | cons filter filters ih =>
    rw [planFilters, find?_cons]
    by_cases paths : filter.type = "paths"
    · have target : isTarget filter = true := by
        rw [isTarget, decide_eq_true paths, Bool.true_or]
      rw [if_pos paths, target]
      cases expanded : expandPathFilter filter.parameter rootPath with
      | none => simp [expanded]
      | some => simp [expanded, paths]
    · rw [if_neg paths]
      by_cases metadata : filter.type = "metadata"
      · have target : isTarget filter = true := by
          rw [isTarget, decide_eq_true metadata, Bool.or_true]
        rw [if_pos metadata, target]
        apply iff_of_false nofun
        intro first
        exact paths (first filter rfl).1
      · have other : isTarget filter = false := by
          rw [isTarget, decide_eq_false paths, decide_eq_false metadata]
          rfl
        rw [if_neg metadata, other]
        exact ih

theorem expandPathFilter_ne_nil {parameter : Str} {searchPath : List Str}
    (expanded : expandPathFilter parameter rootPath = some searchPath) :
    ∀ path ∈ searchPath, path ≠ [] := by
  have below : ∀ path : Str, rootPath ++ '.' :: urlToPath path ≠ [] := by
    intro path
    exact append_ne_nil_of_right_ne_nil _ (cons_ne_nil _ _)
  simp only [expandPathFilter] at expanded
  split_ifs at expanded
  · split at expanded
    · obtain ⟨paths, _, rfl⟩ := map_eq_some_iff.mp expanded
      intro path mem
      obtain ⟨inner, _, rfl⟩ := mem_map.mp mem
      exact below inner
    · cases expanded
      exact fun _ mem => absurd mem not_mem_nil
    · cases expanded
  · cases expanded
    exact forall_mem_singleton.mpr (below parameter)

theorem planFilters_ne_nil {searchPath : List Str} {filters : List FilterObject}
    (planned : planFilters rootPath filters = .search searchPath) :
    ∀ path ∈ searchPath, path ≠ [] := by
  induction filters with
  | nil =>
    cases planned
    exact fun _ mem => absurd mem not_mem_nil
  | cons filter filters ih =>
    rw [planFilters] at planned
    split_ifs at planned
    · split at planned
      · next expanded =>
        cases planned
        exact expandPathFilter_ne_nil expanded
      · cases planned
    · exact ih planned

theorem searchPaths_noRoot {path : Str} (paths : List Str) (nonempty : path ≠ []) (found : Found) :
    searchPaths env none request (path :: paths) found = none := by
  rw [searchPaths, searchPathRound, searchTree, if_neg nonempty]
  rfl

theorem serveSignals_noRoot_ends_iff (answering : env.Answering) :
    (serveSignals env none request "HIM").Ends isMessage 1 ↔
      ¬ ∃ searchPath, planFilters "HIM" (filtersOf env request) = .search searchPath := by
  rw [serveSignals]
  cases planned : planFilters "HIM" (filtersOf env request) with
  | malformed => exact iff_of_true (setErrorAndForward_ends _ _) (by rintro ⟨_, ⟨⟩⟩)
  | metadata parameter =>
    exact iff_of_true (answerMetadata_ends answering parameter (.inl rfl)) (by rintro ⟨_, ⟨⟩⟩)
  | search searchPath =>
    apply iff_of_false
    · have stopped : searchPaths env none request
          (if searchPath = [] then ["HIM"] else searchPath) {} = none := by
        cases searchPath with
        | nil => exact searchPaths_noRoot [] (by decide) {}
        | cons path paths =>
          exact searchPaths_noRoot paths (planFilters_ne_nil planned path mem_cons_self) {}
      simp only [stopped]
      intro ends
      cases ends.ended
    · exact not_not_intro ⟨searchPath, rfl⟩

theorem asksForest_iff : asksForest request rootPath = true ↔
      rootPath = "HIM" ∧ actionOf request = "get" ∧
        isNil request "filter" = false := by
  rw [asksForest, Bool.and_eq_true, Bool.and_eq_true, decide_eq_true_iff, decide_eq_true_iff,
    Bool.not_eq_true', and_assoc]

theorem issueServiceRequest_ends_iff (answering : env.Answering)
    (shallow : ForestShallow env.himForest) :
    (issueServiceRequest env request).Ends isMessage 1 ↔
      ¬ ∃ rootPath ∈ getStr request "path", asksForest request rootPath = true ∧
        ∃ searchPath, planFilters rootPath (filtersOf env request) = .search searchPath := by
  rw [issueServiceRequest]
  by_cases internal : isInternalAction (actionOf request) = true
  · rw [if_pos internal]
    apply iff_of_true (Act.ends_emit rfl)
    rintro ⟨rootPath, _, forest, _⟩
    rw [(asksForest_iff.mp forest).2.1] at internal
    revert internal
    decide
  · rw [if_neg internal]
    cases path : getStr request "path" with
    | none =>
      apply iff_of_true (setErrorAndForward_ends _ _)
      rintro ⟨rootPath, none, _⟩
      cases none
    | some rootPath =>
      by_cases forest : asksForest request rootPath = true
      · have same := (asksForest_iff.mp forest).1
        subst same
        simp only [forest, if_true, true_and, mem_def, some.injEq, exists_eq_left']
        exact serveSignals_noRoot_ends_iff answering
      · apply iff_of_true
        · simp only [if_neg forest]
          split
          · exact setErrorAndForward_ends _ _
          · next tree selected =>
            split
            · exact setErrorAndForward_ends _ _
            · next root handle =>
              exact serveSignals_ends answering shallow
                (shallow tree (mem_of_find?_eq_some selected) root handle) rootPath
        · rintro ⟨other, same, asked, _⟩
          cases same
          exact forest asked

theorem path_withDots :
    getStr (withDots request) "path" = (getStr request "path").map urlToPath := by
  rw [withDots]
  cases path : getStr request "path" with
  | none => exact path
  | some => exact getStr_eq_some.mpr (lookup_set_same _ _ _)

theorem lookup_filter_withDots :
    (withDots request).lookup "filter".toList = request.lookup "filter".toList := by
  rw [withDots]
  split
  · rw [lookup_set, if_neg (by decide)]
  · rfl

theorem searchesForest_iff : SearchesForest env request ↔
      ∃ rootPath ∈ getStr (withDots request) "path",
        asksForest (withDots request) rootPath = true ∧
          ∃ searchPath, planFilters rootPath (filtersOf env (withDots request)) =
            .search searchPath := by
  have filter : isNil (withDots request) "filter" = isNil request "filter" := by
    rw [isNil, lookup_filter_withDots, isNil]
  have filters : filtersOf env (withDots request) = filtersOf env request := by
    rw [filtersOf, lookup_filter_withDots, filtersOf]
  simp only [SearchesForest, asksForest_iff, planFilters_search_iff, path_withDots,
    actionOf_withDots, filter, filters, mem_def]
  constructor
  · rintro ⟨path, action, present, target⟩
    exact ⟨_, path, ⟨rfl, action, present⟩, target⟩
  · rintro ⟨_, path, ⟨rfl, action, present⟩, target⟩
    exact ⟨path, action, present, target⟩

/-- Where trees can be searched and servers answer, each request has one outcome, but those that
search the forest. -/
theorem one_outcome_iff (env : Env) (requestMap : Map Value) (answering : env.Answering)
    (shallow : ForestShallow env.himForest) :
    OneOutcome env requestMap ↔ ¬ SearchesForest env requestMap := by
  rw [searchesForest_iff, OneOutcome, serveRequest, dispatch]
  have quiet : ∀ {r : Map Value}, (∀ rootPath, asksForest r rootPath = false) →
      ¬ ∃ rootPath ∈ getStr r "path", asksForest r rootPath = true ∧
        ∃ searchPath, planFilters rootPath (filtersOf env r) = .search searchPath := by
    rintro r never ⟨rootPath, _, asked, _⟩
    rw [never] at asked
    cases asked
  have otherAction : ∀ action : Str, action ≠ "get" →
      actionOf (withDots requestMap) = action →
        ∀ rootPath, asksForest (withDots requestMap) rootPath = false := by
    intro action other same rootPath
    apply Bool.eq_false_of_not_eq_true
    intro asked
    exact other (same.symm.trans (asksForest_iff.mp asked).2.1)
  split_ifs with unsubscribe discover multi
  · exact iff_of_true (Act.ends_emit rfl) (quiet (otherAction _ (by decide) unsubscribe))
  · exact iff_of_true (handleDiscoverRequest_ends answering shallow)
      (quiet (otherAction _ (by decide) discover))
  · apply iff_of_true (handleMultiSignalRequest_ends answering shallow)
    rintro ⟨rootPath, path, _⟩
    rw [single_of_path path] at multi
    cases multi
  · exact issueServiceRequest_ends_iff answering shallow

theorem fileEnv_answering : fileEnv.Answering := ⟨fun _ => rfl, fun _ => rfl⟩

theorem fileEnv_shallow : ForestShallow fileEnv.himForest := by
  intro tree mem root handle
  rw [mem_singleton.mp mem] at handle
  cases handle
  decide

def pathsFilter : Value := .obj [("variant", .str "paths"), ("parameter", .str "Speed")]

def forestRequest : Map Value := set "filter" pathsFilter (getRequest "HIM")

def treeRequest : Map Value :=
  set "authorization" (.str "token") (set "filter" pathsFilter (getRequest "Vehicle"))

theorem one_outcome_tree :
    (fileEnv.Answering ∧ ForestShallow fileEnv.himForest) ∧ OneOutcome fileEnv treeRequest := by
  refine ⟨⟨fileEnv_answering, fileEnv_shallow⟩, ?_⟩
  rw [one_outcome_iff fileEnv treeRequest fileEnv_answering fileEnv_shallow]
  rintro ⟨path, _⟩
  revert path
  decide +kernel

/-- A get of the forest with a filter for paths panics. -/
theorem forest_search_panics : fileEnv.Answering ∧ ForestShallow fileEnv.himForest ∧
      (serveRequest fileEnv forestRequest).result = none ∧
      (serveRequest fileEnv forestRequest).effects.countP isMessage = 0 ∧
      ¬ OneOutcome fileEnv forestRequest := by
  have stopped : (serveRequest fileEnv forestRequest).result = none := by decide +kernel
  refine ⟨fileEnv_answering, fileEnv_shallow, stopped, by decide +kernel, ?_⟩
  intro outcome
  have ended := outcome.ended
  rw [stopped] at ended
  cases ended

end Vissr.Core
