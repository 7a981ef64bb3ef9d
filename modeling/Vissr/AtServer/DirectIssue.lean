import Vissr.AtServer.Consent
import Vissr.Tree.Speculation

/-! Tokens that are issued without asking for consent. -/

namespace Vissr.AtServer

open Json Token Tree List Option Bool

def WellFormed (himForest : Forest) : Prop := ∀ tree ∈ himForest, ∀ root, tree.handle = some root →
    root.All fun data => '.' ∉ data.name ∧ IsValidation data.validate

def NamesNode (himForest : Forest) (path : Str) (root : Node) (names : List Str)
    (chain : List Node) : Prop :=
  (∃ tree, setRootNodePointer himForest path = some tree ∧ tree.handle = some root) ∧
    path = dotted (root.name :: names) ∧ Descends root names chain

structure WithinLimits (path : Str) (root : Node) (names : List Str) : Prop where
  named : root.name ≠ []
  depth : names.length < 100
  room : countMatches true (visited path 100 1 root) < maxFoundNodes - 1

theorem names_of_descends {p : NodeData → Prop} {start : Node} {names : List Str}
    {chain : List Node} (way : Descends start names chain) (all : start.All p) (name : Str)
    (member : name ∈ names) : ∃ data, p data ∧ data.name = name := by
  induction way with
  | here => cases member
  | @step start child names chain inside way ih =>
    have below := (all_iff.mp all).2 child inside
    obtain rfl | member := mem_cons.mp member
    · obtain ⟨data, children⟩ := child
      exact ⟨data, below.1, rfl⟩
    · exact ih below member

theorem all_imp {p q : NodeData → Prop} (weaker : ∀ data, p data → q data) (node : Node)
    (all : node.All p) : node.All q := by
  induction node using Node.induction with
  | step node ih =>
    obtain ⟨own, below⟩ := all_iff.mp all
    exact all_iff.mpr ⟨weaker _ own, fun child inside => ih child inside (below child inside)⟩

theorem search_consent_free {himForest : Forest} {path : Str} {root : Node} {names : List Str}
    {chain : List Node} {found : List Match} {validation : Nat} (formed : WellFormed himForest)
    (named : NamesNode himForest path root names chain) (limits : WithinLimits path root names)
    (searched : search himForest path = some (found, validation)) (free : validation / 10 ≠ 1)
    (node : Node) (member : node ∈ chain) : node.validate < 10 := by
  obtain ⟨⟨tree, selected, handle⟩, same, way⟩ := named
  have all := formed tree (mem_of_find?_eq_some selected) root handle
  have plain : Plain (root.name :: names) := by
    constructor
    · intro name member
      obtain rfl | member := mem_cons.mp member
      · obtain ⟨data, children⟩ := root
        exact all.1.1
      · obtain ⟨data, ⟨dotFree, -⟩, rfl⟩ := names_of_descends way all name member
        exact dotFree
    · intro name first
      cases first
      exact limits.named
  have result : vssSearchNodes (dotted (root.name :: names)) root true true [] =
      some (found, validation) := by
    rw [search, selected, bind_some, handle, bind_some, same] at searched
    exact searched
  have room := limits.room
  rw [same] at room
  obtain ⟨valid, covers⟩ := vssSearchNodes_covers_path (all_imp (fun _ both => both.2) root all)
    (all_imp (fun _ both => both.1) root all) way plain limits.depth room result
  have consent := (covers node member).consent
  have small : validation / 10 ≤ 1 := by
    have table : ∀ v ∈ [0, 1, 2, 11, 12], v / 10 ≤ 1 := by decide
    exact table validation valid
  omega

/-- A token that is issued directly opens no path that needs consent. -/
theorem direct_token_consent_free (config : Config) (formed : WellFormed config.himForest)
    (now : Time) (uuid : Option Str) (request : Str) (state after : State) (token : Str)
    (ask : Option Str)
    (issued : accessTokenResponse config now uuid request state = some (after, .issued token, ask)) :
    ∃ payload, decodeAtGenPayload config request = .ok payload ∧
      token = generateAt config now uuid payload ∧
      checkifConsent config.himForest config.pList payload.purpose = some false ∧
      ∀ action path, validatePurposeAndAccessPermission config.pList payload.purpose action path = 0 →
        ∀ root names chain, NamesNode config.himForest path root names chain →
          WithinLimits path root names → ∀ node ∈ chain, node.validate < 10 := by
  obtain ⟨-, refused, -⟩ | ⟨payload, requiresConsent, cache, decoded, -, checked, granted⟩ :=
    accessTokenResponse_cases config issued
  · exact refused.elim
  · unfold grant at granted
    split_ifs at granted with requires
    · cases granted
    · cases granted
    · cases granted
      rw [eq_false_iff.mpr requires] at checked
      refine ⟨payload, decoded, rfl, checked, ?_⟩
      intro action path allowed root names chain named limits node member
      obtain ⟨access, listed, rfl⟩ := validatePurposeAndAccessPermission_zero _ _ _ _ allowed
      obtain ⟨found, validation, searched, free⟩ := anyNeedsConsent_false _ _ checked access listed
      exact search_consent_free formed named limits searched free node member

theorem sampleConfig_wellFormed : WellFormed sampleConfig.himForest := by
  intro tree mem root handle
  cases mem_singleton.mp mem
  cases handle
  exact ⟨by decide, ⟨by decide, trivial⟩, ⟨by decide, trivial⟩, trivial⟩

theorem direct_token_speed : ∃ after token ask,
    accessTokenResponse sampleConfig (second 2000) (some "1".toList) (atRequestFor "speed")
      sampleState = some (after, .issued token, ask) ∧
    ∀ node ∈ [sampleTree, speedNode], node.validate < 10 := by
  have issues : (accessTokenResponse sampleConfig (second 2000) (some "1".toList)
      (atRequestFor "speed") sampleState).map (fun result => result.2.1) =
        some (.issued speedToken) := by
    decide +kernel
  obtain ⟨⟨after, response, ask⟩, issued, rfl⟩ := map_eq_some_iff.mp issues
  obtain ⟨payload, decoded, -, -, free⟩ := direct_token_consent_free sampleConfig
    sampleConfig_wellFormed _ _ _ _ _ _ _ issued
  have purpose : (decodeAtGenPayload sampleConfig (atRequestFor "speed")).toOption.map
      (fun payload => payload.purpose) = some "speed".toList := by
    decide +kernel
  have asked : payload.purpose = "speed" := by
    rw [decoded] at purpose
    exact some.inj purpose
  refine ⟨after, _, ask, issued, free "get" "Vehicle.Speed" ?_ sampleTree ["Speed"] _ ?_ ?_⟩
  · rw [asked]
    decide
  · exact ⟨⟨_, rfl, rfl⟩, by decide, @Descends.step _ speedNode _ _ mem_cons_self (.here speedNode)⟩
  · exact ⟨by decide, by decide, by decide⟩

variable (config : Config)

def LoadedRoots : Prop := ∀ element ∈ config.pList, ∀ access ∈ element.access, ∃ tree,
    setRootNodePointer config.himForest access.path = some tree ∧ tree.handle.isSome = true

/-- A token is issued directly for a path to a node that needs consent. -/
def OpensConsent : Prop := ∃ now uuid request state after token ask payload,
    accessTokenResponse config now uuid request state = some (after, .issued token, ask) ∧
    decodeAtGenPayload config request = .ok payload ∧
    ∃ action path root names chain,
      validatePurposeAndAccessPermission config.pList payload.purpose action path = 0 ∧
      NamesNode config.himForest path root names chain ∧ ∃ node ∈ chain, 10 ≤ node.validate

def treeConfig (root : Node) (path : Str) : Config :=
  { sampleConfig with
    himForest := [⟨root.name, some root, [], fun _ same => by cases same; rfl⟩]
    pList := [⟨"signal", anyContext, [⟨path, "read-only"⟩]⟩] }

def acceptsRequest (now : Time) (request purpose : Str) (state : State) : Bool :=
  match decodeAtGenPayload config request with
  | .ok payload => payload.purpose = purpose && (validateRequest config now payload state).2.isNone
  | .error _ => false

theorem acceptsRequest_payload {config : Config} {now : Time} {request purpose : Str} {state : State}
    (accepts : acceptsRequest config now request purpose state = true) :
    ∃ payload, decodeAtGenPayload config request = .ok payload ∧ payload.purpose = purpose ∧
      (validateRequest config now payload state).2 = none := by
  unfold acceptsRequest at accepts
  split at accepts
  · next payload decoded =>
    simp only [and_eq_true, decide_eq_true_eq, isNone_iff_eq_none] at accepts
    exact ⟨payload, decoded, accepts⟩
  · cases accepts

theorem accessTokenResponse_direct (now : Time) (uuid : Option Str) (request : Str)
    (state : State) (payload : AtGenPayload) (decoded : decodeAtGenPayload config request = .ok payload)
    (valid : (validateRequest config now payload state).2 = none)
    (free : checkifConsent config.himForest config.pList payload.purpose = some false) :
    ∃ after, accessTokenResponse config now uuid request state =
      some (after, .issued (generateAt config now uuid payload), none) := by
  rcases checked : validateRequest config now payload state with ⟨after, error⟩
  rw [checked] at valid
  simp only at valid
  subst valid
  simp only [accessTokenResponse, decoded, checked, free, map_some]
  exact ⟨_, rfl⟩

theorem opensConsent_of_search (root : Node) (path : Str) (names : List Str) (chain : List Node)
    (accepts : acceptsRequest (treeConfig root path) (second 2000) (atRequestFor "signal") "signal"
      sampleState = true) (selected : rootSegment path = root.name)
    (searched : ∃ found, vssSearchNodes path root true true [] = some (found, 0))
    (same : path = dotted (root.name :: names)) (way : Descends root names chain)
    (consent : ∃ node ∈ chain, 10 ≤ node.validate) :
    LoadedRoots (treeConfig root path) ∧ OpensConsent (treeConfig root path) := by
  have tree : setRootNodePointer (treeConfig root path).himForest path =
      some ⟨root.name, some root, [], fun _ same => by cases same; rfl⟩ := by
    simp [setRootNodePointer, treeConfig, selected]
  have listed : accessOf (treeConfig root path).pList "signal" = [⟨path, "read-only"⟩] := by
    simp [accessOf, treeConfig]
  constructor
  · intro element mem access inside
    cases mem_singleton.mp mem
    cases mem_singleton.mp inside
    exact ⟨_, tree, rfl⟩
  · obtain ⟨found, searched⟩ := searched
    have free : checkifConsent (treeConfig root path).himForest (treeConfig root path).pList
        "signal" = some false := by
      have result : search (treeConfig root path).himForest path = some (found, 0) := by
        rw [search, tree]
        exact searched
      rw [checkifConsent, listed]
      simp [anyNeedsConsent, needsConsent, result]
    have allowed : validatePurposeAndAccessPermission (treeConfig root path).pList "signal" "get"
        path = 0 := by
      rw [validatePurposeAndAccessPermission, listed]
      simp
    obtain ⟨payload, decoded, purpose, valid⟩ := acceptsRequest_payload accepts
    rw [← purpose] at free allowed
    obtain ⟨after, issued⟩ := accessTokenResponse_direct _ _ (some "1".toList) _ _ payload decoded
      valid free
    exact ⟨_, _, _, _, after, _, _, payload, issued, decoded, "get", path, root, names, chain,
      allowed, ⟨⟨_, tree, rfl⟩, same, way⟩, consent⟩

def leaf (validate : Nat) : Node := .mk { name := "B", nodeType := .sensor, validate } []

def unnamedTree : Node :=
  .mk { name := [], nodeType := .branch } [.mk { name := "A", nodeType := .branch } [leaf 12]]

/-- A branch with signals of its own name, one more than said. -/
def bay (n : Nat) : Node := .mk { name := "B", nodeType := .branch } (replicate (n + 1) (leaf 0))

def guarded : Node := .mk { name := "B", nodeType := .branch, validate := 12 } [leaf 0]

/-- The signals in the first branches are as many as a search keeps. -/
def nestedTree : Node :=
  .mk { name := "A", nodeType := .branch } ([249, 249, 249, 249, 249, 248].map bay ++ [guarded])

theorem wellFormed_tree (root : Node) (path : Str)
    (all : root.All fun data => '.' ∉ data.name ∧ IsValidation data.validate) :
    WellFormed (treeConfig root path).himForest := by
  intro tree mem root' handle
  cases mem_singleton.mp mem
  cases handle
  exact all

section Nested

variable {parents : List Node} {node : Node} {context after : SearchContext} {found : List Match}

theorem traverseNode_entered {done : Bool}
    (enters : entersNode node (incDepth node.name context) = true)
    (saved : saveMatchingNode parents node (incDepth node.name context) = some (after, done, 0)) :
    traverseNode parents node context =
      if done then leave (after, 0)
      else (traverseChildren (node :: parents) (getPathSegment 1 after) node.child (after, 0)).bind
        leave := by
  obtain ⟨data, child⟩ := node
  exact (if_pos enters).trans (congrArg (Option.bind · _) saved)

def nestedContext (matchPath : Str) (currentDepth : Nat) (found : List Match) : SearchContext where
  searchPath := "A.B.B"
  maxDepth := 100
  leafNodesOnly := true
  noScopeList := []
  matchPath
  currentDepth
  found

theorem traverseNode_leaf (room : found.length ≠ maxFoundNodes - 1) :
    traverseNode parents (leaf 0) (nestedContext "A.B" 2 found) =
      some (nestedContext "A.B" 2 (⟨"A.B.B", leaf 0, parents⟩ :: found), 0) := by
  have saved : saveMatchingNode parents (leaf 0) (incDepth "B" (nestedContext "A.B" 2 found)) =
      some (nestedContext "A.B.B" 3 (⟨"A.B.B", leaf 0, parents⟩ :: found), true, 0) :=
    if_neg room
  exact traverseNode_entered rfl saved

theorem traverseChildren_leaves (n : Nat) (room : found.length + n ≤ maxFoundNodes - 1) :
    ∃ found', found'.length = found.length + n ∧
      traverseChildren parents "B" (replicate n (leaf 0)) (nestedContext "A.B" 2 found, 0) =
        some (nestedContext "A.B" 2 found', 0) := by
  induction n generalizing found with
  | zero => exact ⟨found, rfl, rfl⟩
  | succ n ih =>
    obtain ⟨found', size, rest⟩ :=
      @ih (⟨"A.B.B", leaf 0, parents⟩ :: found) (by rw [length_cons]; omega)
    refine ⟨found', by rw [size, length_cons]; omega, ?_⟩
    rw [replicate_succ, traverseChildren, if_pos (by decide), traverseNode_leaf (by omega)]
    exact rest

theorem traverseNode_bay (n : Nat) (room : found.length + (n + 1) ≤ maxFoundNodes - 1) :
    ∃ found', found'.length = found.length + (n + 1) ∧
      traverseNode parents (bay n) (nestedContext "A" 1 found) =
        some (nestedContext "A" 1 found', 0) := by
  obtain ⟨found', size, leaves⟩ := @traverseChildren_leaves (bay n :: parents) _ (n + 1) room
  have saved : saveMatchingNode parents (bay n) (incDepth "B" (nestedContext "A" 1 found)) =
      some (nestedContext "A.B" 2 found, false, 0) :=
    if_neg (Nat.ne_of_lt (Nat.lt_of_lt_of_le (Nat.lt_add_of_pos_right n.succ_pos) room))
  refine ⟨found', size, (traverseNode_entered rfl saved).trans ?_⟩
  exact congrArg (Option.bind · leave) leaves

/-- The signals fill the room, and the last branch is left out. -/
theorem traverseChildren_bays (sizes : List Nat)
    (room : found.length + (sizes.map (· + 1)).sum = maxFoundNodes - 1) :
    ∃ found', traverseChildren parents "B" (sizes.map bay ++ [guarded])
      (nestedContext "A" 1 found, 0) = some (nestedContext "A" 1 found', 0) := by
  induction sizes generalizing found with
  | nil =>
    have saved : saveMatchingNode parents guarded (incDepth "B" (nestedContext "A" 1 found)) =
        some (nestedContext "A.B" 2 found, true, 0) := if_pos room
    have last : traverseNode parents guarded (nestedContext "A" 1 found) =
        some (nestedContext "A" 1 found, 0) := traverseNode_entered rfl saved
    refine ⟨found, ?_⟩
    rw [map_nil, nil_append, traverseChildren, if_pos (by decide), last]
    rfl
  | cons n sizes ih =>
    rw [map_cons, sum_cons] at room
    obtain ⟨more, size, first⟩ := @traverseNode_bay parents found n (by omega)
    obtain ⟨found', rest⟩ := @ih more (by omega)
    refine ⟨found', ?_⟩
    rw [map_cons, cons_append, traverseChildren, if_pos (by rfl), first]
    exact rest

theorem search_nestedTree :
    ∃ found, vssSearchNodes "A.B.B" nestedTree true true [] = some (found, 0) := by
  obtain ⟨found, bays⟩ := @traverseChildren_bays [nestedTree] [] [249, 249, 249, 249, 249, 248] rfl
  have saved : saveMatchingNode [] nestedTree (incDepth "A" (initContext "A.B.B" true true [])) =
      some (nestedContext "A" 1 [], false, 0) := rfl
  have root : traverseNode [] nestedTree (initContext "A.B.B" true true []) =
      some (nestedContext [] 0 found, 0) := by
    apply (traverseNode_entered rfl saved).trans
    rw [if_neg Bool.false_ne_true]
    exact congrArg (Option.bind · leave) bays
  refine ⟨found.reverse, ?_⟩
  rw [vssSearchNodes, if_neg (by decide), root]
  rfl

end Nested

/-- The root has no name, or a search finds all that it keeps before the branch that needs consent. -/
theorem limits_open_consent : (WellFormed (treeConfig unnamedTree ".A.B").himForest ∧
      LoadedRoots (treeConfig unnamedTree ".A.B") ∧ OpensConsent (treeConfig unnamedTree ".A.B")) ∧
    (WellFormed (treeConfig nestedTree "A.B.B").himForest ∧
      LoadedRoots (treeConfig nestedTree "A.B.B") ∧
      OpensConsent (treeConfig nestedTree "A.B.B")) := by
  refine ⟨⟨?_, ?_⟩, ⟨?_, ?_⟩⟩
  · apply wellFormed_tree
    exact ⟨by decide, ⟨by decide, ⟨by decide, trivial⟩, trivial⟩, trivial⟩
  · have below : Descends (.mk { name := "A", nodeType := .branch } [leaf 12]) ["B"] _ :=
      @Descends.step _ (leaf 12) _ _ mem_cons_self (.here _)
    have way : Descends unnamedTree ["A", "B"] _ := .step mem_cons_self below
    apply opensConsent_of_search unnamedTree ".A.B" ["A", "B"] _ _ _ _ _ way
    · exact ⟨leaf 12, mem_cons_of_mem _ (mem_cons_of_mem _ mem_cons_self), by decide⟩
    · decide +kernel
    · decide
    · exact ⟨_, rfl⟩
    · decide
  · apply wellFormed_tree
    refine ⟨by decide, allNodes_iff.mpr ?_⟩
    intro node member
    obtain inside | same := mem_append.mp member
    · obtain ⟨n, -, rfl⟩ := mem_map.mp inside
      refine ⟨by decide, allNodes_iff.mpr ?_⟩
      intro signal member
      rw [eq_of_mem_replicate member]
      exact ⟨by decide, trivial⟩
    · rw [mem_singleton.mp same]
      exact ⟨by decide, ⟨by decide, trivial⟩, trivial⟩
  · have below : Descends guarded ["B"] _ := @Descends.step _ (leaf 0) _ _ mem_cons_self (.here _)
    have way : Descends nestedTree ["B", "B"] _ :=
      @Descends.step _ guarded _ _ (mem_append_right _ mem_cons_self) below
    apply opensConsent_of_search nestedTree "A.B.B" ["B", "B"] _ _ _ search_nestedTree _ way
    · exact ⟨guarded, mem_cons_of_mem _ mem_cons_self, by decide⟩
    · decide +kernel
    · decide
    · decide

end Vissr.AtServer
