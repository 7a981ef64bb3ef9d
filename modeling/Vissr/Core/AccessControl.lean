import Vissr.Core.Outcome
import Vissr.Tree.Integrity

/-! What has to happen before a request for protected signals is forwarded. -/

namespace Vissr.Core

open Json Token Tree List Option Bool Act Prod Found

variable (env : Env) (root : Option Node)

def matchesOf (path : Str) : List Match :=
  ((searchTree root path true true []).map fst).getD []

variable (requestMap : Map Value) (rootPath : Str)

def searchPathsOf : List Str :=
  match planFilters rootPath (filtersOf env requestMap) with
  | .search searchPath => if searchPath = [] then [rootPath] else searchPath
  | _ => []

def rootOf : Option Node :=
  if asksForest requestMap rootPath then none else treeRoot env.himForest rootPath

def elementPath : Value → Option Str
  | .str pathStr => some (urlToPath pathStr)
  | .obj elem => (getStr elem "path").map urlToPath
  | _ => none

def requestMatches : List (List Match) :=
  if isMultiSignalRequest requestMap then
    ((dataArrayOf requestMap).filterMap elementPath).map fun path =>
      matchesOf (treeRoot env.himForest path) path
  else
    match getStr requestMap "path" with
    | none => []
    | some rootPath =>
      (searchPathsOf env requestMap rootPath).map (matchesOf (rootOf env requestMap rootPath))

/-- Of several signals the first match of each, else all matches. -/
def resolvedPaths : List Str :=
  if isMultiSignalRequest requestMap then
    (requestMatches env requestMap).filterMap fun found => found.head?.map matchPath
  else (requestMatches env requestMap).flatten.map matchPath

def Protected (action : Str) (validate : Nat) : Prop :=
  (action = "set" ∧ validate ∈ [1, 2, 11, 12]) ∨
    ((action = "get" ∨ action = "subscribe") ∧ validate ∈ [2, 12])
  deriving Decidable

/-- A node that the request matches, or an ancestor of it, is protected. -/
def ControlApplies : Prop :=
  ∃ entry ∈ (requestMatches env requestMap).flatten, ∃ node ∈ entry.node :: entry.ancestors,
    Protected (actionOf requestMap) node.validate

instance (requestMap : Map Value) : Decidable (ControlApplies env requestMap) :=
  inferInstanceAs (Decidable (∃ entry ∈ _, ∃ node ∈ _, _))

def Effect.Sends : Effect → Prop
  | .serviceDataChan _ => True
  | .ftChannel _ => True
  | _ => False

def Verified (past : List Effect) (action paths : Str) : Prop := ∃ token validation answer,
    Effect.verifyToken token action paths validation answer ∈ past ∧ answer.errorCode = 0

/-- Nothing is sent on before the token is verified for the paths. -/
def AccessBeforeEffect : Prop := ControlApplies env (withDots requestMap) →
    ∀ past e, (serveRequest env requestMap).Occurs past e → e.Sends →
      Verified past (actionOf requestMap)
        (corePaths (isMultiSignalRequest (withDots requestMap))
          (resolvedPaths env (withDots requestMap)))

/-- A search path with a match whose struct value, if set, is accepted. -/
def Accepts (requestMap : Map Value) (path : Str) : Prop :=
  ∃ first ∈ (matchesOf root path).head?, actionOf requestMap = "set" →
    validateStructSetValue env first.node.data.datatype (requestMap.lookup "value".toList) = some []
  deriving Decidable

def Transferable (nodeType : NodeType) : Prop :=
  (actionOf requestMap = "set" ∧ nodeType = .actuator ∧
    ∃ value ∈ requestMap.lookup "value".toList, (getFileDescriptorData value).1 ≠ [] ∧
      ∃ uid ∈ hexDecode (getFileDescriptorData value).2.2, uid.length = uidLen) ∨
  (actionOf requestMap = "get" ∧ nodeType = .sensor ∧
    (getInternalFileName rootPath).2 ≠ [] ∧ env.random.isSome = true)
  deriving Decidable

def ReachesFile (requestMap : Map Value) (rootPath : Str) : Prop :=
  (∀ path ∈ searchPathsOf env requestMap rootPath, Accepts env root requestMap path) ∧
    ∃ last ∈ (searchPathsOf env requestMap rootPath).getLast?,
      ∃ first ∈ (matchesOf root last).head?,
        contains first.node.data.datatype ".FileDescriptor" = true ∧
          Transferable env requestMap rootPath first.node.data.nodeType
  deriving Decidable

def OpensFileTransfer : Prop := ∃ rootPath ∈ getStr requestMap "path",
    ReachesFile env (rootOf env requestMap rootPath) requestMap rootPath
  deriving Decidable

def ForestValidated (himForest : Forest) : Prop :=
  ∀ tree ∈ himForest, ∀ root, tree.handle = some root → root.Validated

theorem getMaxValidation_first (v : Nat) : getMaxValidation v (-1) = v := by
  have fallback : translateToMatrixIndex (-1 : Int).toNat = 0 ∧ (-1 : Int) ≠ 0 := by decide
  have larger : (v : Int) > -1 := by omega
  simp only [getMaxValidation]
  rw [if_pos (.inr fallback), if_pos larger]

theorem getMaxValidation_cast (new current : Nat) (isNew : IsValidation new)
    (isCurrent : IsValidation current) :
    getMaxValidation new current = (Tree.getMaxValidation new current : Nat) := by
  have table : ∀ a ∈ [0, 1, 2, 11, 12], ∀ b ∈ [0, 1, 2, 11, 12],
      getMaxValidation (a : Nat) (b : Nat) = (Tree.getMaxValidation a b : Nat) := by
    decide
  exact table new isNew current isCurrent

/-- The validation covers the matches and their ancestors. -/
def CoversAll (total : Int) (matched : List Match) : Prop := ∃ v : Nat, total = v ∧ IsValidation v ∧
    ∀ entry ∈ matched, ∀ node ∈ entry.node :: entry.ancestors, Covers v node.validate

/-- The join over some searches, where -1 stands for the join over none. -/
def Joined (total : Int) (matched : List Match) : Prop :=
  (total = -1 ∧ matched = []) ∨ CoversAll total matched

variable {found : List Match} {path : Str} {entry : Match} {node : Node} {past : List Effect}
  {e : Effect}

theorem joined_step {total validation : Int} {matched : List Match}
    (joined : Joined total matched) (covers : CoversAll validation found) :
    Joined (getMaxValidation validation total) (matched ++ found) := by
  obtain ⟨v, rfl, isValid, covered⟩ := covers
  right
  obtain ⟨rfl, rfl⟩ | ⟨w, rfl, isJoined, coveredBefore⟩ := joined
  · exact ⟨v, getMaxValidation_first v, isValid, covered⟩
  · obtain ⟨valid, coversNew, coversOld⟩ := getMaxValidation_spec v w isValid isJoined
    refine ⟨_, getMaxValidation_cast v w isValid isJoined, valid, ?_⟩
    intro entry member node inside
    obtain member | member := mem_append.mp member
    · exact coversOld.trans (coveredBefore entry member node inside)
    · exact coversNew.trans (covered entry member node inside)

abbrev Round := List Match × Int

theorem joined_fold (rounds : List Round) (total : Int) (matched : List Match)
    (joined : Joined total matched) (covers : ∀ round ∈ rounds, CoversAll round.2 round.1) :
    Joined (rounds.foldl (fun total round => getMaxValidation round.2 total) total)
      (matched ++ (rounds.map fst).flatten) := by
  induction rounds generalizing total matched with
  | nil => simpa using joined
  | cons round rounds ih =>
    have next := joined_step joined (covers round mem_cons_self)
    have rest := ih _ _ next fun round mem => covers round (mem_cons_of_mem _ mem)
    simpa using rest

theorem searchTree_covers {root : Node} {validation : Int} (tree : root.Validated)
    (nonempty : found ≠ [])
    (searched : searchTree (some root) path true true [] = some (found, validation)) :
    CoversAll validation found := by
  unfold searchTree at searched
  split_ifs at searched with empty
  · cases searched
    exact absurd rfl nonempty
  · rw [bind_some, map_eq_some_iff] at searched
    obtain ⟨⟨matched, v⟩, searched, same⟩ := searched
    cases same
    obtain ⟨valid, covers⟩ := vssSearchNodes_covers tree searched
    exact ⟨v, rfl, valid, fun entry mem => (covers entry mem).2⟩

theorem protected_mode {total : Int} {matched : List Match} {action : Str}
    (covers : CoversAll total matched) (mem : entry ∈ matched)
    (inside : node ∈ entry.node :: entry.ancestors) (guarded : Protected action node.validate) :
    total.tmod 10 = 2 ∨ (action = "set" ∧ total.tmod 10 = 1) := by
  obtain ⟨v, rfl, valid, covered⟩ := covers
  have mode := (covered entry mem node inside).mode
  have modes : ∀ v ∈ ([0, 1, 2, 11, 12] : List Nat), (v % 10 = 0 ∨ v % 10 = 1 ∨ v % 10 = 2) ∧
      (v : Int).tmod 10 = (v % 10 : Nat) := by decide
  obtain ⟨bound, same⟩ := modes v valid
  rw [same]
  have writes : ∀ w ∈ [1, 2, 11, 12], 1 ≤ w % 10 := by decide
  have reads : ∀ w ∈ [2, 12], w % 10 = 2 := by decide
  obtain ⟨isSet, listed⟩ | ⟨-, listed⟩ := guarded
  · have least := writes _ listed
    obtain zero | one | two := bound
    · omega
    · exact .inr ⟨isSet, by rw [one]; rfl⟩
    · exact .inl (by rw [two]; rfl)
  · have least := reads _ listed
    omega

variable {env} {requestMap rewritten : Map Value} {paths : Str} {validation : Int}

def AsksToken (action : Str) (validation : Int) : Prop :=
  validation.tmod 10 = 2 ∨ (action = "set" ∧ validation.tmod 10 = 1)

theorem askToken_effects (token action : Str) (answer : TokenAnswer)
    (answered : (askToken env token action paths validation).result = some answer) :
    (askToken env token action paths validation).effects =
      [.verifyToken token action paths validation answer] := by
  unfold askToken at answered ⊢
  cases asked : verifyToken env.ats token action paths validation with
  | none =>
    rw [asked, bind_of_none _ _ rfl] at answered
    cases answered
  | some reply =>
    rw [asked, bind_of_some _ _ reply rfl] at answered
    injection answered with same
    rw [bind_of_some _ _ reply rfl, ← same]
    rfl

theorem authorizeAccess_verified {answer : TokenAnswer}
    (asks : AsksToken (actionOf requestMap) validation)
    (answered : (authorizeAccess env requestMap paths validation).result = some answer)
    (accepted : answer.errorCode = 0) :
    Verified (authorizeAccess env requestMap paths validation).effects (actionOf requestMap)
      paths := by
  unfold authorizeAccess at answered ⊢
  split_ifs at answered ⊢ with missing writeOnly
  · cases answered
    cases accepted
  · exfalso
    obtain mode | ⟨set, -⟩ := asks
    · exact writeOnly.2 mode
    · exact writeOnly.1 set
  · split at answered
    · cases answered
      cases accepted
    · next authToken given =>
      have asked := askToken_effects authToken (actionOf requestMap) answer answered
      refine ⟨authToken, validation, answer, ?_, accepted⟩
      rw [asked]
      exact mem_singleton.mpr rfl

theorem Effect.Sends.other (e : Effect) (sends : e.Sends) : e.isQuestion = false := by
  cases e with
  | verifyToken | noScope => cases sends
  | _ => rfl

theorem OnlyAsks.quiet {α : Type} {x : Handler α} (asks : OnlyAsks x) : x.Avoids Effect.Sends :=
  asks.avoids Effect.Sends.other

theorem setErrorAndForward_quiet (errorIndex : Nat) (description : Str) :
    (setErrorAndForward env requestMap errorIndex description).Avoids Effect.Sends :=
  avoids_emit id

theorem authorizeMultiSignalAccess_avoids {bad : Effect → Prop}
    (asks : ∀ e, bad e → e.isQuestion = false) (errs : ∀ m, ¬ bad (.backendChan (.error m))) :
    (authorizeMultiSignalAccess env requestMap paths validation).Avoids bad := by
  unfold authorizeMultiSignalAccess
  simp only
  split_ifs
  · exact avoids_pure _
  · apply ((authorizeAccess_asks _ _).avoids asks).bind
    intro answer
    split_ifs
    · exact (avoids_emit (errs _)).bind fun _ => avoids_pure _
    · exact avoids_pure _
  · exact (avoids_emit (errs _)).bind fun _ => avoids_pure _

theorem authorizeMultiSignalAccess_quiet :
    (authorizeMultiSignalAccess env requestMap paths validation).Avoids Effect.Sends :=
  authorizeMultiSignalAccess_avoids Effect.Sends.other fun _ => id

theorem authorizeMultiSignalAccess_verified {answer : TokenAnswer}
    (external : getStr requestMap "origin" ≠ some "internal".toList)
    (asks : AsksToken (actionOf requestMap) validation)
    (granted : (authorizeMultiSignalAccess env requestMap paths validation).result =
      some (some answer)) :
    Verified (authorizeMultiSignalAccess env requestMap paths validation).effects
      (actionOf requestMap) paths := by
  have required : requiredValidation requestMap validation = validation := if_neg external
  unfold authorizeMultiSignalAccess at granted ⊢
  simp only [required] at granted ⊢
  have mode : ¬ validation.tmod 10 = 0 ∧ (validation.tmod 10 = 1 ∨ validation.tmod 10 = 2) := by
    rcases asks with mode | ⟨-, mode⟩ <;> omega
  rw [if_neg mode.1, if_pos mode.2] at granted ⊢
  cases asked : (authorizeAccess env requestMap paths validation).result with
  | none =>
    rw [bind_of_none _ _ asked] at granted
    cases granted
  | some reply =>
    rw [bind_of_some _ _ reply asked] at granted ⊢
    by_cases accepted : reply.errorCode = 0
    · obtain ⟨token, v, answer, mem, zero⟩ := authorizeAccess_verified asks asked accepted
      exact ⟨token, v, answer, mem_append_left _ mem, zero⟩
    · simp only [ne_eq, accepted, not_false_eq_true, if_true] at granted
      cases granted

theorem forwardAuthorized_verified (external : getStr requestMap "origin" ≠ some "internal".toList)
    (asks : AsksToken (actionOf requestMap) validation)
    (occurs : (forwardAuthorized env requestMap paths validation rewritten).Occurs past e)
    (sends : e.Sends) : Verified past (actionOf requestMap) paths := by
  obtain early | ⟨granted, rest, ended, occurs, rfl⟩ := occurs_bind occurs
  · exact absurd sends (authorizeMultiSignalAccess_quiet.not_occurs early)
  · cases granted with
    | none => exact absurd occurs (occurs_of_effects_nil rfl)
    | some answer =>
      obtain ⟨token, v, answer, mem, zero⟩ :=
        authorizeMultiSignalAccess_verified external asks ended
      exact ⟨token, v, answer, mem_append_left _ mem, zero⟩

section Search

variable {env : Env} {root : Option Node} {requestMap : Map Value}

structure Hit (env : Env) (root : Option Node) (requestMap : Map Value) (path : Str)
    (round : Round) : Prop where
  searched : searchTree root path true true [] = some round
  accepted : ∃ first ∈ round.1.head?, actionOf requestMap = "set" →
    validateStructSetValue env first.node.data.datatype (requestMap.lookup "value".toList) = some []

theorem searchPathRound_ok_iff (found found' : Found) (path : Str) :
    searchPathRound env root requestMap found path = some (.ok found') ↔
      ∃ round, Hit env root requestMap path round ∧ found' = found.add round := by
  unfold searchPathRound
  constructor
  · intro done
    obtain ⟨round, searched, done⟩ := bind_eq_some_iff.mp done
    refine ⟨round, ?_⟩
    split at done
    · cases done
    · next first rest matched =>
      have head : round.1.head? = some first := by rw [matched]; rfl
      split_ifs at done with isSet
      · obtain ⟨errMsg, checked, done⟩ := map_eq_some_iff.mp done
        split_ifs at done with valid
        injection done with same
        rw [valid] at checked
        exact ⟨⟨searched, first, head, fun _ => checked⟩, same.symm⟩
      · injection done with done
        injection done with same
        exact ⟨⟨searched, first, head, fun set => absurd set isSet⟩, same.symm⟩
  · rintro ⟨round, ⟨searched, first, head, valid⟩, rfl⟩
    rw [searched, bind_some]
    split
    · next empty =>
      rw [empty] at head
      cases head
    · next first' rest matched =>
      rw [matched] at head
      cases head
      split_ifs with isSet
      · rw [valid isSet]
        rfl
      · rfl

theorem searchPaths_ok_iff (paths : List Str) (found found' : Found) :
    searchPaths env root requestMap paths found = some (.ok found') ↔
      ∃ rounds, List.Forall₂ (Hit env root requestMap) paths rounds ∧
        found' = rounds.foldl add found := by
  induction paths generalizing found with
  | nil =>
    constructor
    · intro done
      cases done
      exact ⟨[], .nil, rfl⟩
    · rintro ⟨rounds, hits, rfl⟩
      cases hits
      rfl
  | cons path paths ih =>
    rw [searchPaths, bind_eq_some_iff]
    constructor
    · rintro ⟨result, done, rest⟩
      cases result with
      | error => cases rest
      | ok =>
        obtain ⟨round, hit, rfl⟩ := (searchPathRound_ok_iff _ _ _).mp done
        obtain ⟨rounds, hits, rfl⟩ := (ih _).mp rest
        exact ⟨round :: rounds, .cons hit hits, rfl⟩
    · rintro ⟨rounds, hits, rfl⟩
      cases hits with
      | cons hit hits =>
        exact ⟨.ok _, (searchPathRound_ok_iff _ _ _).mpr ⟨_, hit, rfl⟩, (ih _).mpr ⟨_, hits, rfl⟩⟩

variable (rounds : List Round)

theorem foldl_add (found : Found) : rounds.foldl add found =
    ⟨found.matched ++ (rounds.map fst).flatten, (rounds.map fst).getLast?.getD found.searchData,
      rounds.foldl (fun total round => getMaxValidation round.2 total) found.maxValidation⟩ := by
  induction rounds generalizing found with
  | nil => simp
  | cons round rounds ih => simp [ih, add, getLast?_cons]

theorem Hit.matches_eq {path : Str} {round : Round} (hit : Hit env root requestMap path round) :
    matchesOf root path = round.1 := by
  rw [matchesOf, hit.searched]
  rfl

variable {rounds : List Round}

theorem hits_matches {paths : List Str}
    (hits : List.Forall₂ (Hit env root requestMap) paths rounds) :
    rounds.map fst = paths.map (matchesOf root) := by
  induction hits with
  | nil => rfl
  | cons hit hits ih => rw [map_cons, map_cons, ih, hit.matches_eq]

theorem Hit.covers {root : Node} {path : Str} {round : Round} (tree : root.Validated)
    (hit : Hit env (some root) requestMap path round) : CoversAll round.2 round.1 := by
  obtain ⟨first, head, -⟩ := hit.accepted
  apply searchTree_covers tree ?_ hit.searched
  intro empty
  rw [empty] at head
  cases head

theorem mem_of_forall₂ {α β : Type} {R : α → β → Prop} {xs : List α} {ys : List β}
    (related : List.Forall₂ R xs ys) : ∀ x ∈ xs, ∃ y, R x y := by
  intro x member
  obtain ⟨i, inside, rfl⟩ := getElem_of_mem member
  exact ⟨_, related.get inside (related.length_eq ▸ inside)⟩

theorem hits_covers {root : Node} {paths : List Str} (tree : root.Validated)
    (hits : List.Forall₂ (Hit env (some root) requestMap) paths rounds) :
    ∀ round ∈ rounds, CoversAll round.2 round.1 := by
  intro round mem
  obtain ⟨path, hit⟩ := mem_of_forall₂ hits.flip round mem
  exact hit.covers tree

theorem asksToken_of_joined {total : Int} {action : Str} {entry : Match} {node : Node}
    (covers : ∀ round ∈ rounds, CoversAll round.2 round.1)
    (sum : total = rounds.foldl (fun total round => getMaxValidation round.2 total) (-1))
    (mem : entry ∈ (rounds.map fst).flatten)
    (inside : node ∈ entry.node :: entry.ancestors) (guarded : Protected action node.validate) :
    AsksToken action total := by
  rw [sum]
  obtain ⟨-, empty⟩ | joined := joined_fold rounds (-1) [] (.inl ⟨rfl, rfl⟩) covers
  · rw [nil_append] at empty
    rw [empty] at mem
    cases mem
  · exact protected_mode joined mem inside guarded

end Search

variable {rootPath : Str} {nodeType : NodeType}

theorem askFileTransfer_occurs (ftInitData : FileTransferCache) :
    (askFileTransfer env ftInitData).Occurs [] (.ftChannel ftInitData) :=
  Act.Occurs.first (occurs_emit.mpr ⟨rfl, rfl⟩)

theorem transferable_of_occurs (path : getStr requestMap "path" = some rootPath)
    (occurs : (initiateFileTransfer env requestMap nodeType).Occurs past e) :
    Transferable env requestMap rootPath nodeType := by
  obtain ⟨_, _, same⟩ | ⟨d, asks, -⟩ := initiateFileTransfer_cases env requestMap nodeType
  · rw [same] at occurs
    exact absurd occurs (occurs_of_effects_nil rfl)
  · cases asks with
    | download isSet actuator given named decoded length =>
      exact .inl ⟨isSet, actuator, _, given, named, _, decoded, length⟩
    | upload isGet sensor found known drawn =>
      cases path.symm.trans found
      exact .inr ⟨isGet, sensor, known, isSome_iff_exists.mpr ⟨_, drawn⟩⟩

theorem occurs_of_transferable (path : getStr requestMap "path" = some rootPath)
    (transferable : Transferable env requestMap rootPath nodeType) : ∃ ftInitData,
      (initiateFileTransfer env requestMap nodeType).Occurs [] (.ftChannel ftInitData) := by
  have asked : ∃ ftInitData, Asks env requestMap nodeType ftInitData := by
    rcases transferable with ⟨isSet, actuator, value, given, named, uid, decoded, length⟩ |
      ⟨isGet, sensor, known, drawn⟩
    · exact ⟨_, .download isSet actuator given named decoded length⟩
    · obtain ⟨uid, random⟩ := isSome_iff_exists.mp drawn
      exact ⟨_, .upload isGet sensor path known random⟩
  obtain ⟨ftInitData, asks⟩ := asked
  rw [asks.run]
  exact ⟨ftInitData, (askFileTransfer_occurs ftInitData).first⟩

structure Resolved (env : Env) (element : Value) (signal : Signal) (round : Round) : Prop where
  path : ∃ path root, elementPath element = some path ∧ treeRoot env.himForest path = some root ∧
    searchTree (some root) path true true [] = some round
  found : round.1.head? = some signal.found
  validation : signal.validation = round.2

variable {signal : Signal} {element : Value}

theorem resolveSignalPath_resolved (resolved : resolveSignalPath env path = some (some signal)) :
    ∃ root round, treeRoot env.himForest path = some root ∧
      searchTree (some root) path true true [] = some round ∧
      round.1.head? = some signal.found ∧ signal.validation = round.2 := by
  unfold resolveSignalPath at resolved
  split at resolved
  · cases resolved
  · next root selected =>
    obtain ⟨round, searched, same⟩ := map_eq_some_iff.mp resolved
    obtain ⟨found, head, rfl⟩ := map_eq_some_iff.mp same
    exact ⟨root, round, selected, searched, head, rfl⟩

theorem resolveGetElement_resolved (resolved : resolveGetElement env element = some (.ok signal)) :
    ∃ round, Resolved env element signal round := by
  unfold resolveGetElement at resolved
  split at resolved
  · next pathStr =>
    obtain ⟨result, found, same⟩ := map_eq_some_iff.mp resolved
    cases result with
    | none => cases same
    | some =>
      injection same with same
      subst same
      obtain ⟨root, round, selected, searched, head, validation⟩ := resolveSignalPath_resolved found
      exact ⟨round, ⟨_, root, rfl, selected, searched⟩, head, validation⟩
  · cases resolved

theorem checkSetSignal_ok {value : Value} {checked : Signal}
    (accepted : checkSetSignal env value signal = some (.ok checked)) :
    checked = { signal with value } ∧ signal.found.node.data.nodeType = .actuator := by
  unfold checkSetSignal at accepted
  split_ifs at accepted with other
  · cases accepted
  · obtain ⟨errMsg, -, same⟩ := map_eq_some_iff.mp accepted
    split_ifs at same
    injection same with same
    exact ⟨same.symm, not_not.mp other⟩

theorem resolveSetElement_resolved (resolved : resolveSetElement env element = some (.ok signal)) :
    (∃ round, Resolved env element signal round) ∧ signal.found.node.data.nodeType = .actuator ∧
      ∃ elem, element = .obj elem ∧ elem.lookup "value".toList = some signal.value := by
  unfold resolveSetElement at resolved
  split at resolved
  · next elem =>
    split at resolved
    · cases resolved
    · next pathStr given =>
      split at resolved
      · cases resolved
      · next value written =>
        obtain ⟨result, found, checked⟩ := bind_eq_some_iff.mp resolved
        cases result with
        | none => cases checked
        | some =>
          obtain ⟨rfl, actuator⟩ := checkSetSignal_ok checked
          obtain ⟨root, round, selected, searched, head, validation⟩ :=
            resolveSignalPath_resolved found
          have path : elementPath (.obj elem) = some (urlToPath pathStr) := by
            rw [elementPath, given]
            rfl
          exact ⟨⟨round, ⟨_, root, path, selected, searched⟩, head, validation⟩, actuator, elem, rfl,
            written⟩
  · cases resolved

variable {resolve : Value → Option (Except Refusal Signal)}

theorem resolveElements_ok {elements : List Value} {signals : List Signal}
    (resolved : resolveElements resolve elements = some (.ok signals)) :
    Forall₂ (fun element signal => resolve element = some (.ok signal)) elements signals := by
  induction elements generalizing signals with
  | nil =>
    cases resolved
    exact .nil
  | cons element elements ih =>
    obtain ⟨result, first, rest⟩ := bind_eq_some_iff.mp resolved
    cases result with
    | error => cases rest
    | ok =>
      obtain ⟨result, others, same⟩ := map_eq_some_iff.mp rest
      cases result with
      | error => cases same
      | ok =>
        cases same
        exact .cons first (ih others)

theorem resolveElements_resolved (each : ∀ element signal, resolve element = some (.ok signal) →
      ∃ round, Resolved env element signal round) (elements : List Value) (signals : List Signal)
    (resolved : resolveElements resolve elements = some (.ok signals)) : ∃ rounds : List Round,
      rounds.map fst = (elements.filterMap elementPath).map
        (fun path => matchesOf (treeRoot env.himForest path) path) ∧
      signals.map (fun signal => signal.found) = (rounds.map fst).filterMap head? ∧
      signals.map Signal.validation = rounds.map snd ∧
      ∀ round ∈ rounds, ∃ element signal, Resolved env element signal round := by
  have related := resolveElements_ok resolved
  clear resolved
  induction related with
  | nil => exact ⟨[], rfl, rfl, rfl, fun round member => absurd member not_mem_nil⟩
  | cons first _ ih =>
    obtain ⟨round, found⟩ := each _ _ first
    obtain ⟨rounds, paths, heads, validations, all⟩ := ih
    obtain ⟨path, root, named, selected, searched⟩ := found.path
    have matched : matchesOf (treeRoot env.himForest path) path = round.1 := by
      rw [matchesOf, selected, searched]
      rfl
    refine ⟨round :: rounds, ?_, ?_, ?_, ?_⟩
    · rw [filterMap_cons_some named, map_cons, map_cons, paths, matched]
    · rw [map_cons, map_cons, filterMap_cons_some found.found, heads]
    · rw [map_cons, map_cons, validations, found.validation]
    · exact forall_mem_cons.mpr ⟨⟨_, _, found⟩, all⟩

theorem treeRoot_validated {himForest : Forest} {root : Node} (valid : ForestValidated himForest)
    (selected : treeRoot himForest path = some root) : root.Validated := by
  obtain ⟨tree, found, handle⟩ := bind_eq_some_iff.mp selected
  exact valid tree (mem_of_find?_eq_some found) root handle

theorem Resolved.covers {round : Round} (valid : ForestValidated env.himForest)
    (resolved : Resolved env element signal round) : CoversAll round.2 round.1 := by
  obtain ⟨path, root, -, selected, searched⟩ := resolved.path
  apply searchTree_covers (treeRoot_validated valid selected) ?_ searched
  intro empty
  have head := resolved.found
  rw [empty] at head
  cases head

theorem signalsValidation_eq (signals : List Signal) (rounds : List Round)
    (same : signals.map Signal.validation = rounds.map snd) : signalsValidation signals =
      rounds.foldl (fun total round => getMaxValidation round.2 total) (-1) := by
  calc signalsValidation signals
      = (signals.map Signal.validation).foldl (fun total v => getMaxValidation v total) (-1) :=
        by rw [foldl_map, signalsValidation]
    _ = (rounds.map snd).foldl (fun total v => getMaxValidation v total) (-1) := by rw [same]
    _ = rounds.foldl (fun total round => getMaxValidation round.2 total) (-1) := foldl_map ..

theorem signalPaths_eq (signals : List Signal) (found : List (List Match))
    (same : signals.map (fun signal => signal.found) = found.filterMap head?) :
    signalPaths signals = found.filterMap fun found => found.head?.map matchPath := by
  calc signalPaths signals
      = (signals.map fun signal => signal.found).map matchPath := by simp [signalPaths]
    _ = (found.filterMap head?).map matchPath := by rw [same]
    _ = found.filterMap fun found => found.head?.map matchPath := by rw [map_filterMap]

theorem handleElements_verified
    {rewrite : Map Value → List Signal → Map Value} {elements : List Value}
    (external : getStr requestMap "origin" ≠ some "internal".toList)
    (valid : ForestValidated env.himForest)
    (each : ∀ element signal, resolve element = some (.ok signal) →
      ∃ round, Resolved env element signal round)
    (mem : entry ∈ ((elements.filterMap elementPath).map
      fun path => matchesOf (treeRoot env.himForest path) path).flatten)
    (inside : node ∈ entry.node :: entry.ancestors)
    (guarded : Protected (actionOf requestMap) node.validate)
    (occurs : (handleElements env requestMap elements resolve rewrite).Occurs past e)
    (sends : e.Sends) :
    Verified past (actionOf requestMap) (multiPaths (((elements.filterMap elementPath).map
      fun path => matchesOf (treeRoot env.himForest path) path).filterMap
        fun found => found.head?.map matchPath)) := by
  unfold handleElements at occurs
  split_ifs at occurs
  · exact absurd sends ((setErrorAndForward_quiet _ _).not_occurs occurs)
  · split at occurs
    · exact absurd occurs (occurs_of_effects_nil rfl)
    · exact absurd sends ((setErrorAndForward_quiet _ _).not_occurs occurs)
    · next signals resolved =>
      obtain ⟨rounds, paths, heads, validations, all⟩ :=
        resolveElements_resolved each elements signals resolved
      have covers : ∀ round ∈ rounds, CoversAll round.2 round.1 := by
        intro round mem
        obtain ⟨element, signal, found⟩ := all round mem
        exact found.covers valid
      rw [← paths] at mem ⊢
      rw [← signalPaths_eq signals _ heads]
      have asks : AsksToken (actionOf requestMap) (signalsValidation signals) :=
        asksToken_of_joined covers (signalsValidation_eq signals rounds validations) mem inside
          guarded
      exact forwardAuthorized_verified external asks occurs sends

theorem answerMetadata_quiet (parameter : Str) (root : Option Node) :
    (answerMetadata env requestMap rootPath parameter root).Avoids Effect.Sends := by
  unfold answerMetadata
  split
  · exact setErrorAndForward_quiet _ _
  · apply (metadataText_asks _ _ _).quiet.bind
    intro metadata
    split_ifs
    · exact setErrorAndForward_quiet _ _
    · exact avoids_emit id

variable {root : Option Node}

section

variable {paths : List Str} {rounds : List Round}
  (hits : List.Forall₂ (Hit env root requestMap) paths rounds)

include hits

theorem hits_accepts : ∀ path ∈ paths, Accepts env root requestMap path := by
  intro path listed
  obtain ⟨round, hit⟩ := mem_of_forall₂ hits path listed
  rw [Accepts, hit.matches_eq]
  exact hit.accepted

theorem hits_searchData :
    (rounds.foldl add {}).searchData = (paths.getLast?.map (matchesOf root)).getD [] := by
  rw [foldl_add, hits_matches hits, getLast?_map]

theorem hits_last {first : Match} {rest : List Match}
    (found : (rounds.foldl add {}).searchData = first :: rest) :
    ∃ last, paths.getLast? = some last ∧ (matchesOf root last).head? = some first := by
  rw [hits_searchData hits] at found
  cases final : paths.getLast? with
  | none =>
    rw [final] at found
    cases found
  | some last =>
    rw [final] at found
    refine ⟨last, rfl, ?_⟩
    rw [show matchesOf root last = first :: rest from found]
    rfl

end

theorem serveSignals_verified {root : Node} (path : getStr requestMap "path" = some rootPath)
    (external : getStr requestMap "origin" ≠ some "internal".toList) (tree : root.Validated)
    (mem : entry ∈ ((searchPathsOf env requestMap rootPath).map (matchesOf (some root))).flatten)
    (inside : node ∈ entry.node :: entry.ancestors)
    (guarded : Protected (actionOf requestMap) node.validate)
    (occurs : (serveSignals env (some root) requestMap rootPath).Occurs past e) (sends : e.Sends) :
    Verified past (actionOf requestMap) (requestPaths
      (((searchPathsOf env requestMap rootPath).map (matchesOf (some root))).flatten.map
        matchPath)) ∨ ReachesFile env (some root) requestMap rootPath := by
  unfold serveSignals at occurs
  split at occurs
  · exact absurd sends ((setErrorAndForward_quiet _ _).not_occurs occurs)
  · exact absurd sends ((answerMetadata_quiet _ _).not_occurs occurs)
  · next searchPath planned =>
    have targets : searchPathsOf env requestMap rootPath =
        if searchPath = [] then [rootPath] else searchPath := by
      rw [searchPathsOf, planned]
    rw [← targets] at occurs
    split at occurs
    · exact absurd occurs (occurs_of_effects_nil rfl)
    · exact absurd sends ((setErrorAndForward_quiet _ _).not_occurs occurs)
    · next found searched =>
      obtain ⟨rounds, hits, rfl⟩ := (searchPaths_ok_iff _ _ _).mp searched
      unfold serveFound at occurs
      split at occurs
      · exact absurd occurs (occurs_of_effects_nil rfl)
      · next first rest data =>
        split_ifs at occurs with descriptor
        · right
          obtain ⟨last, final, head⟩ := hits_last hits data
          refine ⟨hits_accepts hits, last, final, first, head, descriptor, ?_⟩
          obtain occurs | ⟨response, rest, -, occurs, -⟩ := occurs_bind occurs
          · exact transferable_of_occurs path occurs
          · exact absurd sends ((avoids_emit id).not_occurs occurs)
        · left
          split at occurs
          · exact absurd sends ((setErrorAndForward_quiet _ _).not_occurs occurs)
          · rw [← hits_matches hits] at mem ⊢
            rw [foldl_add] at occurs
            have asks := asksToken_of_joined (hits_covers tree hits) rfl mem inside guarded
            exact forwardAuthorized_verified external asks occurs sends

theorem hit_of_accepts (accepts : Accepts env root requestMap path) :
    ∃ round, Hit env root requestMap path round := by
  obtain ⟨first, head, valid⟩ := accepts
  unfold matchesOf at head
  cases searched : searchTree root path true true [] with
  | none =>
    rw [searched] at head
    cases head
  | some round =>
    rw [searched] at head
    exact ⟨round, searched, first, head, valid⟩

theorem hits_of_accepts (paths : List Str)
    (accepts : ∀ path ∈ paths, Accepts env root requestMap path) :
    ∃ rounds, List.Forall₂ (Hit env root requestMap) paths rounds := by
  induction paths with
  | nil => exact ⟨[], .nil⟩
  | cons path paths ih =>
    obtain ⟨round, hit⟩ := hit_of_accepts (accepts path mem_cons_self)
    obtain ⟨rounds, hits⟩ := ih fun path mem => accepts path (mem_cons_of_mem _ mem)
    exact ⟨round :: rounds, .cons hit hits⟩

theorem planFilters_of_last {last : Str}
    (final : (searchPathsOf env requestMap rootPath).getLast? = some last) :
    ∃ searchPath, planFilters rootPath (filtersOf env requestMap) = .search searchPath ∧
      searchPathsOf env requestMap rootPath =
        if searchPath = [] then [rootPath] else searchPath := by
  unfold searchPathsOf at final ⊢
  cases planned : planFilters rootPath (filtersOf env requestMap) with
  | search searchPath => exact ⟨searchPath, rfl, rfl⟩
  | metadata | malformed =>
    rw [planned] at final
    cases final

theorem serveSignals_transfers (path : getStr requestMap "path" = some rootPath)
    (reaches : ReachesFile env root requestMap rootPath) :
    ∃ ftInitData, (serveSignals env root requestMap rootPath).Occurs [] (.ftChannel ftInitData) := by
  obtain ⟨accepts, last, final, first, head, descriptor, transferable⟩ := reaches
  obtain ⟨searchPath, planned, targets⟩ := planFilters_of_last final
  obtain ⟨rounds, hits⟩ := hits_of_accepts _ accepts
  have searched := (searchPaths_ok_iff _ {} _).mpr ⟨rounds, hits, rfl⟩
  have data : (rounds.foldl add {}).searchData = matchesOf root last := by
    rw [hits_searchData hits, mem_def.mp final]
    rfl
  unfold serveSignals
  rw [planned]
  simp only
  rw [← targets, searched]
  simp only [serveFound]
  rw [data]
  cases found : matchesOf root last with
  | nil =>
    rw [found] at head
    cases head
  | cons =>
    rw [found] at head
    cases head
    simp only [descriptor, if_true]
    obtain ⟨ftInitData, occurs⟩ := occurs_of_transferable path transferable
    exact ⟨ftInitData, occurs.first⟩

def SameFields (requestMap requestMap' : Map Value) : Prop :=
  ∀ k ∈ ["action".toList, "path".toList, "filter".toList, "value".toList, "origin".toList],
    requestMap.lookup k = requestMap'.lookup k

theorem sameFields_infoType (infoType : Value) :
    SameFields (set "infoType" infoType requestMap) requestMap := by
  intro k listed
  rw [lookup_set, if_neg]
  rintro rfl
  exact absurd listed (by decide)

variable {requestMap' : Map Value}

section

variable (same : SameFields requestMap requestMap')

include same

theorem SameFields.getStr (k : Str)
    (listed : k ∈ ["action".toList, "path".toList, "filter".toList, "value".toList,
      "origin".toList]) : Json.getStr requestMap k = Json.getStr requestMap' k := by
  rw [Json.getStr, same k listed, Json.getStr]

theorem SameFields.actionOf : actionOf requestMap = actionOf requestMap' := by
  rw [Core.actionOf, same.getStr _ (by decide), Core.actionOf]

theorem SameFields.searchPathsOf :
    searchPathsOf env requestMap rootPath = searchPathsOf env requestMap' rootPath := by
  have filters : filtersOf env requestMap = filtersOf env requestMap' := by
    rw [filtersOf, same _ (by decide), filtersOf]
  rw [Core.searchPathsOf, filters, Core.searchPathsOf]

theorem SameFields.reachesFile :
    ReachesFile env root requestMap rootPath ↔ ReachesFile env root requestMap' rootPath := by
  have value : requestMap.lookup "value".toList = requestMap'.lookup "value".toList :=
    same _ (by decide)
  unfold ReachesFile Accepts Transferable
  rw [same.searchPathsOf, same.actionOf, value]

end

theorem getStr_set_other (k k' : Str) (v : Value) (other : k ≠ k') :
    getStr (set k' v requestMap) k = getStr requestMap k := by
  rw [getStr, lookup_set, if_neg other, getStr]

theorem actionOf_withDots : actionOf (withDots requestMap) = actionOf requestMap := by
  unfold withDots
  split
  · rw [actionOf, getStr_set_other _ _ _ (by decide), actionOf]
  · rfl

theorem origin_withDots : getStr (withDots requestMap) "origin" = getStr requestMap "origin" := by
  unfold withDots
  split
  · exact getStr_set_other _ _ _ (by decide)
  · rfl

def signalActions : List Str := ["get", "set", "subscribe"]

theorem dispatch_signals (listed : actionOf requestMap ∈ signalActions) : dispatch env requestMap =
      if isMultiSignalRequest requestMap then handleMultiSignalRequest env requestMap
      else issueServiceRequest env requestMap := by
  have apart : ∀ action ∈ signalActions,
      action ≠ "unsubscribe" ∧ action ≠ "discover" := by decide
  rw [dispatch, if_neg (apart _ listed).1, if_neg (apart _ listed).2]

theorem handleMultiSignalRequest_verified
    (external : getStr requestMap "origin" ≠ some "internal".toList)
    (valid : ForestValidated env.himForest) (multi : isMultiSignalRequest requestMap = true)
    (applies : ControlApplies env requestMap)
    (occurs : (handleMultiSignalRequest env requestMap).Occurs past e) (sends : e.Sends) :
    Verified past (actionOf requestMap) (multiPaths (resolvedPaths env requestMap)) := by
  obtain ⟨entry, mem, node, inside, guarded⟩ := applies
  have matched : requestMatches env requestMap =
      ((dataArrayOf requestMap).filterMap elementPath).map fun path =>
        matchesOf (treeRoot env.himForest path) path := by
    rw [requestMatches, if_pos multi]
  rw [resolvedPaths, if_pos multi, matched]
  rw [matched] at mem
  unfold handleMultiSignalRequest at occurs
  split_ifs at occurs
  · exact handleElements_verified external valid (fun _ _ => resolveGetElement_resolved) mem
      inside guarded occurs sends
  · exact handleElements_verified external valid (fun _ _ set => (resolveSetElement_resolved set).1)
      mem inside guarded occurs sends

theorem requestMatches_single (single : isMultiSignalRequest requestMap = false)
    (path : getStr requestMap "path" = some rootPath) : requestMatches env requestMap =
      (searchPathsOf env requestMap rootPath).map (matchesOf (rootOf env requestMap rootPath)) := by
  rw [requestMatches, single, path]
  rfl

theorem matchesOf_noRoot (path : Str) : matchesOf none path = [] := by
  rw [matchesOf, searchTree]
  split_ifs <;> rfl

theorem internal_not_signal (listed : actionOf requestMap ∈ signalActions) :
    isInternalAction (actionOf requestMap) = false := by
  have apart : ∀ action ∈ signalActions, isInternalAction action = false := by decide
  exact apart _ listed

theorem issueServiceRequest_verified
    (external : getStr requestMap "origin" ≠ some "internal".toList)
    (listed : actionOf requestMap ∈ signalActions) (valid : ForestValidated env.himForest)
    (single : isMultiSignalRequest requestMap = false) (applies : ControlApplies env requestMap)
    (occurs : (issueServiceRequest env requestMap).Occurs past e) (sends : e.Sends) :
    Verified past (actionOf requestMap) (requestPaths (resolvedPaths env requestMap)) ∨
      OpensFileTransfer env requestMap := by
  obtain ⟨entry, mem, node, inside, guarded⟩ := applies
  unfold issueServiceRequest at occurs
  rw [internal_not_signal listed] at occurs
  simp only [false_eq_true, if_false] at occurs
  split at occurs
  · exact absurd sends ((setErrorAndForward_quiet _ _).not_occurs occurs)
  · next rootPath path =>
    rw [resolvedPaths, single, requestMatches_single single path]
    rw [requestMatches_single single path] at mem
    split_ifs at occurs with forest
    · rw [rootOf, if_pos forest] at mem
      obtain ⟨found, listed, mem⟩ := mem_flatten.mp mem
      obtain ⟨path, -, rfl⟩ := mem_map.mp listed
      rw [matchesOf_noRoot] at mem
      cases mem
    · split at occurs
      · exact absurd sends ((setErrorAndForward_quiet _ _).not_occurs occurs)
      · next tree selected =>
        split at occurs
        · exact absurd sends ((setErrorAndForward_quiet _ _).not_occurs occurs)
        · next root handle =>
          have rooted : rootOf env requestMap rootPath = some root := by
            rw [rootOf, if_neg forest, treeRoot, selected, bind_some, handle]
          have validated := valid tree (mem_of_find?_eq_some selected) root handle
          have same := @sameFields_infoType requestMap (.str (getInfoType tree))
          rw [rooted] at mem ⊢
          rw [← same.searchPathsOf] at mem ⊢
          rw [← same.actionOf] at guarded ⊢
          rw [← same.getStr _ (by decide)] at external
          have routed := (same.getStr "path" (by decide)).trans path
          rcases serveSignals_verified routed external validated mem inside guarded occurs
            sends with verified | reaches
          · exact .inl verified
          · right
            refine ⟨rootPath, path, ?_⟩
            rw [rooted]
            exact same.reachesFile.mp reaches

theorem single_of_path (path : getStr requestMap "path" = some rootPath) :
    isMultiSignalRequest requestMap = false := by
  have present : (requestMap.lookup "path".toList).isNone = false := by
    rw [getStr_eq_some.mp path]
    rfl
  rw [isMultiSignalRequest, present, Bool.and_false, Bool.false_and]

theorem not_reachesFile_noRoot : ¬ ReachesFile env none requestMap rootPath := by
  rintro ⟨-, last, -, first, head, -⟩
  rw [matchesOf_noRoot] at head
  cases head

theorem dispatch_transfers (listed : actionOf requestMap ∈ signalActions)
    (opens : OpensFileTransfer env requestMap) :
    ∃ ftInitData, (dispatch env requestMap).Occurs [] (.ftChannel ftInitData) := by
  obtain ⟨rootPath, path, reaches⟩ := opens
  rw [mem_def] at path
  rw [dispatch_signals listed, single_of_path path]
  simp only [false_eq_true, if_false, issueServiceRequest, internal_not_signal listed, path]
  unfold rootOf at reaches
  split_ifs at reaches ⊢ with forest
  · exact serveSignals_transfers path reaches
  · unfold treeRoot at reaches
    cases selected : setRootNodePointer env.himForest rootPath with
    | none =>
      rw [selected] at reaches
      exact absurd reaches not_reachesFile_noRoot
    | some tree =>
      rw [selected, bind_some] at reaches
      have same := @sameFields_infoType requestMap (.str (getInfoType tree))
      have routed := (same.getStr "path" (by decide)).trans path
      cases handle : tree.handle with
      | none =>
        rw [handle] at reaches
        exact absurd reaches not_reachesFile_noRoot
      | some =>
        rw [handle] at reaches
        simp only [handle]
        exact serveSignals_transfers routed (same.reachesFile.mpr reaches)

/-- Access control comes first unless a client asks for a protected file. -/
theorem access_before_effect_iff (env : Env) (requestMap : Map Value)
    (external : getStr requestMap "origin" = some "external".toList)
    (listed : actionOf requestMap ∈ signalActions) (valid : ForestValidated env.himForest) :
    AccessBeforeEffect env requestMap ↔ ¬ (ControlApplies env (withDots requestMap) ∧
        OpensFileTransfer env (withDots requestMap)) := by
  rw [← actionOf_withDots] at listed
  constructor
  · rintro guarded ⟨applies, opens⟩
    obtain ⟨ftInitData, occurs⟩ := dispatch_transfers listed opens
    obtain ⟨token, validation, answer, member, -⟩ := guarded applies [] _ occurs trivial
    cases member
  · intro noFile applies past e occurs sends
    rw [← origin_withDots] at external
    have client : getStr (withDots requestMap) "origin" ≠ some "internal".toList := by
      rw [external]
      decide
    unfold serveRequest at occurs
    rw [dispatch_signals listed] at occurs
    rw [← actionOf_withDots]
    split_ifs at occurs with multi
    · rw [multi]
      exact handleMultiSignalRequest_verified client valid multi applies occurs sends
    · have single := eq_false_of_not_eq_true multi
      rw [single]
      obtain verified | opens :=
        issueServiceRequest_verified client listed valid single applies occurs sends
      · exact verified
      · exact absurd ⟨applies, opens⟩ noFile

def fileTree : Node := .mk { name := "Vehicle", nodeType := .branch }
    [.mk { name := "Speed", nodeType := .sensor, datatype := "float", validate := 2 } [],
      .mk { name := "UploadFile", nodeType := .sensor, validate := 2,
            datatype := "Types.Resources.FileDescriptor" } []]

def fileEnv : Env where
  himForest := [⟨"Vehicle", some fileTree, [], fun _ same => by cases same; rfl⟩]
  order := AtServer.textOrder
  crypto := AtServer.openCrypto
  ats := fun _ => some "\x7b\"validation\":\"0\"\x7d"
  fileTransfer := fun _ => some 0
  errorResponseMap := []
  rfcTime := []
  himJson := []
  calculateHash := fun _ => []
  random := some [1, 2, 3, 4]
  parseFloat := fun _ => none
  toLower := id
  equalFold := fun a b => a = b

def getRequest (path : Str) : Map Value :=
  [("action", .str "get"), ("path", .str path), ("origin", .str "external")]

def speedRequest : Map Value := set "authorization" (.str "token") (getRequest "Vehicle/Speed")

def uploadRequest : Map Value := getRequest "Vehicle/UploadFile"

theorem fileEnv_validated : ForestValidated fileEnv.himForest := by
  intro tree mem root handle
  rw [mem_singleton.mp mem] at handle
  cases handle
  simp [Node.Validated, fileTree, Node.All, allNodes, IsValidation]

def Effect.isService : Effect → Bool
  | .serviceDataChan _ => true
  | _ => false

/-- A protected signal is forwarded after its token was verified. -/
theorem access_before_effect_speed : ControlApplies fileEnv (withDots speedRequest) ∧
      (serveRequest fileEnv speedRequest).effects.any Effect.isService = true ∧
      AccessBeforeEffect fileEnv speedRequest := by
  refine ⟨by decide +kernel, by decide +kernel, ?_⟩
  rw [access_before_effect_iff _ _ (by decide) (by decide) fileEnv_validated]
  rintro ⟨-, opens⟩
  revert opens
  decide +kernel

/-- A protected file is read without any token. -/
theorem protected_upload_without_token : getStr uploadRequest "origin" = some "external".toList ∧
      actionOf uploadRequest = "get" ∧ isNil uploadRequest "authorization" = true ∧
      ForestValidated fileEnv.himForest ∧ ControlApplies fileEnv (withDots uploadRequest) ∧
      ¬ AccessBeforeEffect fileEnv uploadRequest := by
  have applies : ControlApplies fileEnv (withDots uploadRequest) := by
    decide +kernel
  refine ⟨by decide, by decide, by decide, fileEnv_validated, applies, ?_⟩
  intro guarded
  have opens : OpensFileTransfer fileEnv (withDots uploadRequest) := by decide +kernel
  obtain ⟨ftInitData, occurs⟩ := dispatch_transfers (by decide) opens
  obtain ⟨token, validation, answer, member, -⟩ := guarded applies [] _ occurs trivial
  cases member

end Vissr.Core
