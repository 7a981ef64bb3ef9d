import Vissr.Core.AccessControl
import Vissr.Core.Metadata
import Vissr.Tree.Scope

/-! Metadata and the scope of a client: the search is kept out of the paths without access. -/

namespace Vissr.Core

open Json Token Tree AtServer List Option Nat Function Act

variable (env : Env)

def subTreeRoot (path tokenContext : Str) (vssTreeRoot : Option Node) : Option Match :=
  (getNoScopeList env tokenContext).result.bind fun noScopeList =>
    (searchTree vssTreeRoot (path ++ ".*".toList) true false noScopeList).bind fun searchData =>
      searchData.1.find? fun found => found.nodePath = path

def disclosed (path : Str) (depth : Int) (tokenContext : Str) (vssTreeRoot : Option Node) :
    List Match :=
  (subTreeRoot env path tokenContext vssTreeRoot).elim [] (shown (shownLevels depth))

/-- A text between brackets, without the comma at its end. -/
def jsonObject : Str → Str
  | [] => []
  | jsonBuffer => '\x7b' :: jsonBuffer.dropLast ++ ['\x7d']

variable {env} {path tokenContext text : Str} {depth : Int} {vssTreeRoot : Option Node}

theorem synthesizeJsonTree_result :
    (synthesizeJsonTree env path depth tokenContext vssTreeRoot).result =
      (getNoScopeList env tokenContext).result.bind fun noScopeList =>
        (searchTree vssTreeRoot (path ++ ".*".toList) true false noScopeList).map fun searchData =>
          (searchData.1.find? fun found => found.nodePath = path).elim []
            fun top => jsonObject (jsonifyTreeNode (shownLevels depth) top.node) := by
  rw [synthesizeJsonTree, result_bind]
  refine congrArg _ (funext fun noScopeList => ?_)
  rw [result_bind, result_await, map_eq_bind]
  refine congrArg _ (funext fun searchData => ?_)
  cases found : searchData.1.find? fun found => found.nodePath = path with
  | none => simp only [getSubTreeNodeHandle, found, map_none, elim_none, result_pure, comp_apply]
  | some top =>
    simp only [getSubTreeNodeHandle, found, map_some, elim_some, comp_apply]
    cases jsonifyTreeNode (shownLevels depth) top.node with
    | nil => rfl
    | cons => rfl

theorem text_eq
    (returned : (synthesizeJsonTree env path depth tokenContext vssTreeRoot).result = some text) :
    text = (subTreeRoot env path tokenContext vssTreeRoot).elim []
      fun top => jsonObject (jsonifyTreeNode (shownLevels depth) top.node) := by
  rw [synthesizeJsonTree_result] at returned
  obtain ⟨noScopeList, listed, rest⟩ := bind_eq_some_iff.mp returned
  obtain ⟨searchData, searched, rfl⟩ := map_eq_some_iff.mp rest
  rw [subTreeRoot, listed, bind_some, searched, bind_some]

theorem returned_of_subTreeRoot {top : Match}
    (found : subTreeRoot env path tokenContext vssTreeRoot = some top) :
    ∃ text, (synthesizeJsonTree env path depth tokenContext vssTreeRoot).result = some text := by
  rw [subTreeRoot] at found
  obtain ⟨noScopeList, listed, rest⟩ := bind_eq_some_iff.mp found
  obtain ⟨searchData, searched, _⟩ := bind_eq_some_iff.mp rest
  rw [synthesizeJsonTree_result, listed, bind_some, searched, map_some]
  exact ⟨_, rfl⟩

theorem text_of_disclosed
    (returned : (synthesizeJsonTree env path depth tokenContext vssTreeRoot).result = some text) :
    (text = [] ∧ disclosed env path depth tokenContext vssTreeRoot = []) ∨
      ∃ (parents : List Node) (tree : Node) (levels : Nat),
        (∀ more, levels ≤ more → text = jsonObject (jsonifyTreeNode more tree)) ∧
          (preorder parents tree).map shownAs =
            (disclosed env path depth tokenContext vssTreeRoot).map shownAs := by
  rw [text_eq returned, disclosed]
  cases found : subTreeRoot env path tokenContext vssTreeRoot with
  | none => exact .inl ⟨rfl, rfl⟩
  | some top =>
    rw [elim_some, elim_some]
    cases most : shownLevels depth with
    | zero =>
      refine .inl ⟨?_, filter_preorder_zero top.ancestors top.node⟩
      rw [jsonifyTreeNode]
      rfl
    | succ levels =>
      refine .inr ⟨top.ancestors, cut levels top.node, levels + 1, ?_, shown_cut levels top⟩
      intro more enough
      obtain - | more := more
      · cases enough
      · rw [jsonifyTreeNode_cut (le_of_succ_le_succ enough)]

section Transport

variable {config : Config} {now : Time} {order : MapOrder} {state : State} {tokenContext : Str}

def Env.servedBy (env : Env) (config : Config) (now : Time) (order : MapOrder) (state : State) :
    Env :=
  { env with ats := fun request => generateParentResponse config now order request state }

def noAccessPaths (sList : List ScopeElement) (context : Str) : List Str :=
  ((sList.find? fun element => matchingContext element context).map (·.noAccess)).getD []

theorem contextRequest_eq (tokenContext : Str) :
    contextRequest tokenContext = spacedObject "context" (pasted tokenContext) [] := by
  have opened : "\x7b\"context\":\"".toList = '\x7b' :: (pasted "context" ++ [':', '"']) := by
    decide +kernel
  have closed : "\"\x7d".toList = ['"', '\x7d'] := by decide +kernel
  have last : spacedMembers [] = [] := rfl
  have text : contextRequest tokenContext =
      "\x7b\"context\":\"".toList ++ tokenContext ++ "\"\x7d".toList := rfl
  rw [text, opened, closed, spacedObject, pastedMember, last, pasted, pasted]
  simp only [cons_append, append_assoc, nil_append]

theorem decode_contextRequest (plain : PlainText tokenContext) :
    ((parseAll (contextRequest tokenContext)).bind fun w =>
      decodeStruct [⟨"context", decodeStr⟩] w []) = some tokenContext := by
  have key : PlainText "context" := by decide
  have reads := reads_spacedObject "context" _ _ []
    (by simpa only [mem_singleton, forall_eq] using key)
    (by simpa only [mem_singleton, forall_eq] using reads_pasted tokenContext plain)
  have nested : (membersObject [("context".toList, .str (literal tokenContext),
      pasted tokenContext)]).nesting ≤ 0 + 1 := by
    apply membersObject_nesting
    intro m mem
    rw [mem_singleton.mp mem]
    exact le_refl 0
  rw [contextRequest_eq, parseAll_of_reads reads (le_trans nested (by decide)), bind_some]
  have name : unquote (literal "context".toList) = "context".toList := unquote_literal _ key
  have field : findField [(⟨"context", decodeStr⟩ : Json.Field Str)] "context".toList =
      some ⟨"context", decodeStr⟩ := by
    simp [findField]
  rw [membersObject, decodeStruct]
  simp only [map_cons, map_nil, foldlM_cons, foldlM_nil, decodeMember, name,
    field, decodeStr, unquote_literal _ plain]
  rfl

theorem contains_contextRequest (tokenContext : Str) :
    contains (contextRequest tokenContext) "context" = true := by
  have opened : "\x7b\"context\":\"".toList =
      "\x7b\"".toList ++ "context".toList ++ "\":\"".toList := by
    decide +kernel
  have text : contextRequest tokenContext =
      "\x7b\"context\":\"".toList ++ tokenContext ++ "\"\x7d".toList := rfl
  apply decide_eq_true
  refine ⟨"\x7b\"".toList, "\":\"".toList ++ tokenContext ++ "\"\x7d".toList, ?_⟩
  rw [text, opened]
  simp only [append_assoc]

theorem extractNoScopeElements_scopeValue (key : Str) (paths : List Str) :
    extractNoScopeElementsLevel1 [(key, scopeValue paths)] = paths := by
  have texts : extractNoScopeElementsLevel2 (paths.map .str) = paths := by
    rw [extractNoScopeElementsLevel2, List.map_map]
    exact map_id paths
  match paths with
  | [path] => rfl
  | [] => rfl
  | first :: second :: rest => exact texts

theorem getNoScopeList_of_body {body : Str} {noScopeMap : Map Value}
    (answered : env.ats (contextRequest tokenContext) = some body)
    (decoded : unmarshalMap body = some noScopeMap) : (getNoScopeList env tokenContext).result =
      some (extractNoScopeElementsLevel1 (env.order.iterate noScopeMap)) := by
  rw [getNoScopeList, result_bind, result_emit, bind_some, result_bind,
    result_await, answered, bind_some, decoded]
  rfl

theorem synthesizeNoScope_some {element : ScopeElement} (some_ : element.noAccess ≠ []) :
    ∃ scope, synthesizeNoScope element = some scope := by
  rw [synthesizeNoScope]
  split
  · next empty => exact absurd empty some_
  · exact ⟨_, rfl⟩
  · exact ⟨_, rfl⟩

section

variable (env : Env) (plain : PlainText tokenContext)

include plain

theorem ats_contextRequest : (env.servedBy config now order state).ats (contextRequest tokenContext) =
      (getNoAccessScope config.sList tokenContext).map fun scope =>
        "\x7b\"no_access\":".toList ++ scope ++ "\x7d".toList := by
  simp only [Env.servedBy]
  rw [generateParentResponse, if_pos (contains_contextRequest tokenContext), noScopeResponse,
    decode_contextRequest plain]

theorem getNoScopeList_of_scope {scope : Str} {w : Raw}
    (chosen : getNoAccessScope config.sList tokenContext = some scope)
    (reads : Reads w scope) (nested : w.nesting ≤ 1) (range : w.inRange = true) :
    (getNoScopeList (env.servedBy config now order state) tokenContext).result =
      some (extractNoScopeElementsLevel1 [("no_access".toList, w.value)]) := by
  have answered : (env.servedBy config now order state).ats (contextRequest tokenContext) =
      some ("\x7b\"no_access\":".toList ++ scope ++ "\x7d".toList) := by
    rw [ats_contextRequest env plain, chosen, map_some]
  have alone : env.order.iterate [("no_access".toList, w.value)] =
      [("no_access".toList, w.value)] :=
    perm_singleton.mp (env.order.perm _)
  rw [getNoScopeList_of_body answered (unmarshalMap_noAccess reads nested range)]
  simp only [Env.servedBy, alone]

theorem getNoScopeList_servedBy
    (paths : ∀ path ∈ noAccessPaths config.sList tokenContext, PlainText path)
    (some_ : noAccessPaths config.sList tokenContext ≠ []) :
    (getNoScopeList (env.servedBy config now order state) tokenContext).result =
      some (noAccessPaths config.sList tokenContext) := by
  cases selected : config.sList.find? fun element => matchingContext element tokenContext with
  | none =>
    rw [noAccessPaths, selected] at some_
    exact absurd rfl some_
  | some element =>
    have same : noAccessPaths config.sList tokenContext = element.noAccess := by
      rw [noAccessPaths, selected]
      rfl
    rw [same] at paths some_ ⊢
    obtain ⟨scope, written⟩ := synthesizeNoScope_some some_
    obtain ⟨w, reads, nested, range, value⟩ := reads_synthesizeNoScope element paths scope written
    have chosen : getNoAccessScope config.sList tokenContext = some scope := by
      rw [getNoAccessScope, selected]
      exact written
    rw [getNoScopeList_of_scope env plain chosen reads nested range, value,
      extractNoScopeElements_scopeValue]

theorem getNoScopeList_unmatched
    (none_ : config.sList.find? (fun element => matchingContext element tokenContext) = none) :
    (getNoScopeList (env.servedBy config now order state) tokenContext).result = some [[]] := by
  have chosen : getNoAccessScope config.sList tokenContext = some (pasted []) := by
    rw [getNoAccessScope, none_]
    rfl
  rw [getNoScopeList_of_scope env plain chosen (reads_pasted [] (by decide)) (zero_le _) rfl]
  rfl

theorem getNoScopeList_panics {element : ScopeElement} (empty : element.noAccess = [])
    (found : config.sList.find? (fun element => matchingContext element tokenContext) =
      some element) :
    (getNoScopeList (env.servedBy config now order state) tokenContext).result = none := by
  have chosen : getNoAccessScope config.sList tokenContext = none := by
    rw [getNoAccessScope, found]
    simp only [synthesizeNoScope, empty]
  rw [getNoScopeList, result_bind, result_emit, bind_some, result_bind, result_await,
    ats_contextRequest env plain, chosen]
  rfl

end

/-- The list comes to the core where it has a path. An entry without paths makes the token server
panic. -/
theorem noAccess_unchanged_iff (env : Env) (config : Config) (now : Time) (order : MapOrder)
    (state : State) (tokenContext : Str) (plain : PlainText tokenContext)
    (paths : ∀ path ∈ noAccessPaths config.sList tokenContext, PlainText path) :
    (getNoScopeList (env.servedBy config now order state) tokenContext).result =
        some (noAccessPaths config.sList tokenContext) ↔
      noAccessPaths config.sList tokenContext ≠ [] := by
  refine ⟨?_, getNoScopeList_servedBy env plain paths⟩
  intro unchanged empty
  rw [empty] at unchanged
  cases selected : config.sList.find? fun element => matchingContext element tokenContext with
  | none =>
    rw [getNoScopeList_unmatched env plain selected] at unchanged
    exact absurd unchanged (by decide)
  | some element =>
    rw [noAccessPaths, selected] at empty
    rw [getNoScopeList_panics env plain empty selected] at unchanged
    cases unchanged

end Transport

section Enforcement

/-- The text has no node at or below a path without access. -/
def ScopeEnforced (env : Env) (noAccess : List Str) (path : Str) (depth : Int)
    (tokenContext : Str) (root : Node) : Prop :=
  ∀ text, (synthesizeJsonTree env path depth tokenContext (some root)).result = some text →
    ∀ entry ∈ disclosed env path depth tokenContext (some root), ∀ scope ∈ noAccess,
      ¬ AtOrBelow scope entry.nodePath

/-- The list has a path above the one asked for, or none of the shown nodes. -/
def Apart (noAccess : List Str) (path : Str) (depth : Int) (root : Node) : Prop :=
  (∃ scope ∈ noAccess, Above scope path) ∨ ∀ top ∈ root.entries, top.nodePath = path →
      ∀ entry ∈ shown (shownLevels depth) top, entry.nodePath ∉ noAccess

/-- The list comes to the core, and is apart from what is asked for. -/
structure ScopeClear (noAccess : List Str) (path : Str) (depth : Int) (tokenContext : Str)
    (root : Node) : Prop where
  names : root.DotFree
  context : PlainText tokenContext
  scopes : ∀ scope ∈ noAccess, PlainText scope
  apart : Apart noAccess path depth root

variable {env : Env} {root : Node} {noScopeList : List Str} {path tokenContext : Str}
  {depth : Int} {top entry : Match}

/-- A shown node below a listed path: the path is above the subtree, or shown. -/
theorem listed_of_shown {levels : Nat} {scope : Str} (free : root.DotFree)
    (mem : top ∈ root.entries) (inside : entry ∈ shown levels top)
    (below : AtOrBelow scope entry.nodePath) :
    Above scope top.nodePath ∨ ∃ other ∈ shown levels top, other.nodePath = scope := by
  obtain same | above := below
  · exact .inr ⟨entry, inside, same⟩
  · have inner : entry ∈ preorder top.ancestors top.node := mem_of_mem_filter inside
    have deep : entry.depth < top.depth + levels := of_decide_eq_true (mem_filter.mp inside).2
    have known : entry ∈ root.entries := preorder_trans root [] mem inner
    rw [entry_eq known] at above
    obtain ⟨chain, part, some_, rfl⟩ := (above_pathOf_iff (all_chain free known)).mp above
    obtain - | ⟨node, parents⟩ := chain
    · exact absurd rfl some_
    · obtain higher | here := part_of_mem inner (part.trans (suffix_cons _ _))
      · rw [entry_eq mem]
        exact .inl ((above_pathOf_iff (all_chain free mem)).mpr
          ⟨_, higher, cons_ne_nil _ _, rfl⟩)
      · refine .inr ⟨entryOf parents node, mem_filter.mpr ⟨here, decide_eq_true ?_⟩, rfl⟩
        have length := part.length_le
        simp only [length_cons, entryOf, Match.depth] at length deep ⊢
        omega

theorem searchTree_below (path : Str) (noScopeList : List Str) :
    searchTree (some root) (path ++ ".*".toList) true false noScopeList =
      (vssSearchNodes (path ++ ".*".toList) root true false noScopeList).map
        fun result => (result.1, (result.2 : Int)) := by
  have some_ : path ++ ".*".toList ≠ [] := append_ne_nil_of_right_ne_nil _ (by decide)
  rw [searchTree, if_neg some_, bind_some]

theorem subTreeRoot_some (listed : (getNoScopeList env tokenContext).result = some noScopeList)
    (free : root.DotFree) (found : subTreeRoot env path tokenContext (some root) = some top) :
    top.nodePath = path ∧ top ∈ root.entries ∧
      ∀ scope ∈ noScopeList, ¬ Above scope top.nodePath := by
  rw [subTreeRoot, listed, bind_some, searchTree_below] at found
  obtain ⟨searchData, searched, first⟩ := bind_eq_some_iff.mp found
  obtain ⟨⟨matches_, validation⟩, returned, rfl⟩ := map_eq_some_iff.mp searched
  have reached := (Query.matching_sublist _ _).mem
    ((vssSearchNodes_grows free returned).2.mem (mem_of_find?_eq_some first))
  have same : top.nodePath = path := by
    have tested := find?_some first
    exact of_decide_eq_true tested
  refine ⟨same, (Query.reached_sublist [] root).mem reached, ?_⟩
  intro scope mem
  exact Query.not_above_of_reached free reached mem

theorem subTreeRoot_of_searchable
    (listed : (getNoScopeList env tokenContext).result = some noScopeList)
    (tree : Searchable root) (mem : top ∈ root.entries)
    (clear : ∀ scope ∈ noScopeList, ¬ Above scope top.nodePath) :
    subTreeRoot env top.nodePath tokenContext (some root) = some top := by
  obtain ⟨found, validation, searched, first⟩ := find_below tree mem clear
  rw [Match.below] at searched
  rw [subTreeRoot, listed, bind_some, searchTree_below, searched, map_some, bind_some]
  exact first

theorem not_disclosed_of_apart {noAccess : List Str}
    (listed : (getNoScopeList env tokenContext).result = some noAccess) (free : root.DotFree)
    (apart : Apart noAccess path depth root)
    (mem : entry ∈ disclosed env path depth tokenContext (some root)) {scope : Str}
    (closed : scope ∈ noAccess) : ¬ AtOrBelow scope entry.nodePath := by
  intro below
  rw [disclosed] at mem
  cases found : subTreeRoot env path tokenContext (some root) with
  | none =>
    rw [found] at mem
    cases mem
  | some top =>
    rw [found, elim_some] at mem
    obtain ⟨rfl, known, clear⟩ := subTreeRoot_some listed free found
    obtain ⟨higher, inside, above⟩ | none_ := apart
    · exact clear higher inside above
    · obtain above | ⟨other, shown_, rfl⟩ := listed_of_shown free known mem below
      · exact clear scope closed above
      · exact none_ top known rfl other shown_ closed

theorem apart_of_enforced {noAccess : List Str}
    (listed : (getNoScopeList env tokenContext).result = some noAccess) (tree : Searchable root)
    (enforced : ScopeEnforced env noAccess path depth tokenContext root) :
    Apart noAccess path depth root := by
  by_cases higher : ∃ scope ∈ noAccess, Above scope path
  · exact .inl higher
  · refine .inr ?_
    intro top mem same entry inside closed
    have clear : ∀ scope ∈ noAccess, ¬ Above scope top.nodePath := by
      intro scope known above
      rw [same] at above
      exact higher ⟨scope, known, above⟩
    have found := subTreeRoot_of_searchable listed tree mem clear
    rw [same] at found
    obtain ⟨text, returned⟩ := @returned_of_subTreeRoot env path tokenContext depth _ _ found
    have disclosed_ : entry ∈ disclosed env path depth tokenContext (some root) := by
      rw [disclosed, found]
      exact inside
    exact enforced text returned entry disclosed_ _ closed (.inl rfl)

/-- The scope is kept to where the list comes through and has a path above the subtree or none in
it; this is needed for trees that the search gets through. -/
theorem scope_enforced_iff (env : Env) (config : Config) (now : Time) (order : MapOrder)
    (state : State) (root : Node) (path : Str) (depth : Int) (tokenContext : Str) :
    (ScopeClear (noAccessPaths config.sList tokenContext) path depth tokenContext root →
      ScopeEnforced (env.servedBy config now order state)
        (noAccessPaths config.sList tokenContext) path depth tokenContext root) ∧
    (Searchable root → PlainText tokenContext →
      (∀ scope ∈ noAccessPaths config.sList tokenContext, PlainText scope) →
      ScopeEnforced (env.servedBy config now order state)
        (noAccessPaths config.sList tokenContext) path depth tokenContext root →
      ScopeClear (noAccessPaths config.sList tokenContext) path depth tokenContext root) := by
  constructor
  · intro clear text _ entry member scope closed
    exact not_disclosed_of_apart
      (getNoScopeList_servedBy env clear.context clear.scopes (ne_nil_of_mem closed))
      clear.names clear.apart member closed
  · intro tree context scopes enforced
    refine ⟨tree.dotFree, context, scopes, ?_⟩
    by_cases none_ : noAccessPaths config.sList tokenContext = []
    · -- without a list nothing is closed, whatever came to the core
      rw [none_, Apart]
      exact .inr fun _ _ _ _ _ => not_mem_nil
    · exact apart_of_enforced (getNoScopeList_servedBy env context scopes none_) tree enforced

def scopeConfig : Config :=
  { sampleConfig with sList := [⟨anyContext, ["V.A"]⟩] }

def scopeEnv : Env := fileEnv.servedBy scopeConfig ⟨1000, 0⟩ textOrder sampleState

theorem searchable_branches : Searchable branchesTree where
  dotFree := regular_branches.dotFree
  plain := regular_branches.plain
  distinct := regular_branches.distinct
  named := by decide
  shallow := regular_branches.shallow
  few := by decide

def ownerContext : Str := "Owner+OEM+Cloud"

theorem noAccessPaths_scopeConfig :
    noAccessPaths scopeConfig.sList ownerContext = ["V.A".toList] := by
  decide +kernel

theorem plain_ownerContext : PlainText ownerContext := by decide +kernel

theorem plain_scopeConfig :
    ∀ scope ∈ noAccessPaths scopeConfig.sList ownerContext, PlainText scope := by
  rw [noAccessPaths_scopeConfig]
  decide +kernel

theorem getNoScopeList_scopeEnv :
    (getNoScopeList scopeEnv ownerContext).result = some ["V.A".toList] := by
  rw [← noAccessPaths_scopeConfig]
  apply getNoScopeList_servedBy fileEnv plain_ownerContext plain_scopeConfig
  rw [noAccessPaths_scopeConfig]
  exact cons_ne_nil _ _

theorem noAccess_unchanged_iff_owner : (PlainText ownerContext ∧
      ∀ path ∈ noAccessPaths scopeConfig.sList ownerContext, PlainText path) ∧
    (getNoScopeList scopeEnv ownerContext).result =
      some (noAccessPaths scopeConfig.sList ownerContext) := by
  refine ⟨⟨plain_ownerContext, plain_scopeConfig⟩, ?_⟩
  apply (noAccess_unchanged_iff fileEnv scopeConfig ⟨1000, 0⟩ textOrder sampleState ownerContext
    plain_ownerContext plain_scopeConfig).mpr
  rw [noAccessPaths_scopeConfig]
  exact cons_ne_nil _ _

/-- The token server panics on an entry without paths. -/
theorem empty_list_changed :
    (getNoScopeList (fileEnv.servedBy { sampleConfig with sList := [⟨anyContext, []⟩] } ⟨1000, 0⟩
      textOrder sampleState) ownerContext).result = none ∧
    (getNoScopeList (fileEnv.servedBy { sampleConfig with sList := [] } ⟨1000, 0⟩
      textOrder sampleState) ownerContext).result = some [[]] := by
  refine ⟨?_, getNoScopeList_unmatched fileEnv plain_ownerContext rfl⟩
  have found : [(⟨anyContext, []⟩ : ScopeElement)].find?
      (fun element => matchingContext element ownerContext) = some ⟨anyContext, []⟩ :=
    find?_cons_of_pos (by decide +kernel)
  exact getNoScopeList_panics fileEnv plain_ownerContext rfl found

/-- The list does not concern the other branch. -/
theorem scope_enforced_iff_branches : (Searchable branchesTree ∧ PlainText ownerContext ∧
      ∀ scope ∈ noAccessPaths scopeConfig.sList ownerContext, PlainText scope) ∧
    ScopeClear (noAccessPaths scopeConfig.sList ownerContext) "V.B" 0 ownerContext branchesTree ∧
    ScopeEnforced scopeEnv (noAccessPaths scopeConfig.sList ownerContext) "V.B" 0 ownerContext
      branchesTree ∧
    ¬ ScopeEnforced scopeEnv (noAccessPaths scopeConfig.sList ownerContext) "V.A" 0 ownerContext
      branchesTree := by
  have clear : ScopeClear (noAccessPaths scopeConfig.sList ownerContext) "V.B" 0 ownerContext
      branchesTree := by
    refine ⟨searchable_branches.dotFree, plain_ownerContext, plain_scopeConfig, .inr ?_⟩
    rw [noAccessPaths_scopeConfig]
    decide +kernel
  have higher : ¬ ∃ scope ∈ ["V.A".toList], Above scope "V.A" := by
    simp only [Above]
    decide +kernel
  have inside : ∃ top ∈ branchesTree.entries, top.nodePath = "V.A" ∧
      ∃ entry ∈ shown (shownLevels 0) top, entry.nodePath ∈ ["V.A".toList] := by
    decide +kernel
  refine ⟨⟨searchable_branches, plain_ownerContext, plain_scopeConfig⟩, clear, ?_, ?_⟩
  · exact (scope_enforced_iff fileEnv scopeConfig ⟨1000, 0⟩ textOrder sampleState branchesTree
      "V.B" 0 ownerContext).1 clear
  · intro enforced
    have broken := (scope_enforced_iff fileEnv scopeConfig ⟨1000, 0⟩ textOrder sampleState
      branchesTree "V.A" 0 ownerContext).2 searchable_branches plain_ownerContext
        plain_scopeConfig enforced
    have apart := broken.apart
    rw [noAccessPaths_scopeConfig] at apart
    obtain above | none_ := apart
    · exact higher above
    · obtain ⟨top, member, same, entry, shown_, closed⟩ := inside
      exact none_ top member same entry shown_ closed

def branchesText : Str :=
  "\x7b\"V\":\x7b\"type\":\"branch\",\"description\":\"\",\"children\":\x7b".toList ++
    "\"A\":\x7b\"type\":\"branch\",\"description\":\"\",\"children\":\x7b".toList ++
    "\"X\":\x7b\"type\":\"sensor\",\"description\":\"\"\x7d\x7d\x7d,".toList ++
    "\"B\":\x7b\"type\":\"branch\",\"description\":\"\",\"children\":\x7b".toList ++
    "\"Y\":\x7b\"type\":\"sensor\",\"description\":\"\"\x7d\x7d\x7d\x7d\x7d\x7d".toList

theorem branchesText_returned :
    (synthesizeJsonTree scopeEnv "V" 0 ownerContext (some branchesTree)).result =
      some branchesText := by
  rw [synthesizeJsonTree_result, getNoScopeList_scopeEnv, bind_some]
  decide +kernel

/-- The owner asks for the whole tree, and gets the branch. -/
theorem scope_not_enforced : noAccessPaths scopeConfig.sList ownerContext = ["V.A".toList] ∧
    (synthesizeJsonTree scopeEnv "V" 0 ownerContext (some branchesTree)).result =
      some branchesText ∧
    ¬ ScopeEnforced scopeEnv (noAccessPaths scopeConfig.sList ownerContext) "V" 0 ownerContext
      branchesTree := by
  have member : ∃ entry ∈ disclosed scopeEnv "V" 0 ownerContext (some branchesTree),
      entry.nodePath = "V.A" := by
    rw [disclosed, subTreeRoot, getNoScopeList_scopeEnv, bind_some]
    decide +kernel
  refine ⟨noAccessPaths_scopeConfig, branchesText_returned, ?_⟩
  intro enforced
  obtain ⟨entry, inside, path⟩ := member
  apply enforced _ branchesText_returned entry inside "V.A"
  · rw [noAccessPaths_scopeConfig]
    exact mem_cons_self
  · exact .inl path

theorem text_of_disclosed_branches :
    (synthesizeJsonTree scopeEnv "V" 0 ownerContext (some branchesTree)).result =
      some branchesText ∧
    ∃ (parents : List Node) (tree : Node) (levels : Nat),
      (∀ more, levels ≤ more → branchesText = jsonObject (jsonifyTreeNode more tree)) ∧
        (preorder parents tree).map shownAs =
          (disclosed scopeEnv "V" 0 ownerContext (some branchesTree)).map shownAs := by
  rcases text_of_disclosed branchesText_returned with ⟨empty, -⟩ | shown
  · exact absurd empty (by decide +kernel)
  · exact ⟨branchesText_returned, shown⟩

end Enforcement

end Vissr.Core
