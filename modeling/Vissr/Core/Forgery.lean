import Vissr.Core.VerifyToken

/-! When the request that the token server decodes is not the one that was meant. -/

namespace Vissr.Core

open Json Token AtServer List Option Nat Validation

variable (crypto : Crypto)

def forgedConfig (paths : List Str) (permission : Str) : Config where
  crypto
  agtKey := ([], [])
  theAtSecret := []
  atIssuer := "issuer"
  ecfSecret := []
  himForest := paths.map fun path =>
    ⟨Tree.rootSegment path, some (.mk { name := Tree.rootSegment path, nodeType := .branch } []),
      [], fun _ same => by cases same; rfl⟩
  pList := [⟨"purpose", [], (paths.filter fun p => !contains p "*").map fun p => ⟨p, permission⟩⟩]
  sList := []

def forgedPayload : AtGenPayload := { purpose := "purpose" }

def forgedToken (id : Str) : Str :=
  generateAt (forgedConfig crypto [] []) (second 0) (some id) forgedPayload

variable (token handle other : Str)

def forgedState : State where
  gatingId := 0
  activeList := (Slots.replicate listSize ⟨1, token, handle, []⟩).set ⟨0, by decide⟩
    ⟨1, token, other, []⟩

theorem forgedState_slot (i : Fin listSize) :
    ((forgedState token handle other).activeList.get i).atoken = token ∧
      (((forgedState token handle other).activeList.get i).atokenHandle = handle ∨
        ((forgedState token handle other).activeList.get i).atokenHandle = other) := by
  simp only [forgedState, Slots.get_set, Slots.get_replicate]
  split_ifs
  · exact ⟨rfl, .inr rfl⟩
  · exact ⟨rfl, .inl rfl⟩

theorem getCompleteToken_forged (named : handle ≠ []) :
    getCompleteToken handle (forgedState token handle other) = token := by
  have second : ((forgedState token handle other).activeList.get ⟨1, by decide⟩).atokenHandle =
      handle := by
    rw [forgedState, Slots.get_set_of_ne _ _ _ _ (by decide), Slots.get_replicate]
  obtain ⟨j, found, -⟩ := Slots.first_isSome
    (fun elem : ActiveListElem => handle = elem.atoken || handle = elem.atokenHandle)
    (forgedState token handle other).activeList ⟨1, by decide⟩ (by simp [second])
  rw [getCompleteToken, if_neg named, found]
  exact (forgedState_slot token handle other j).1

theorem answerFor_forged (issued : token ≠ []) :
    answerFor token (forgedState token handle other) 0 = ⟨0, "1", other⟩ := by
  obtain ⟨j, found, first⟩ := Slots.first_isSome (fun elem : ActiveListElem => token = elem.atoken)
    (forgedState token handle other).activeList ⟨0, by decide⟩
    (by simp [(forgedState_slot token handle other _).1])
  have zero : j = ⟨0, by decide⟩ := Fin.ext (le_zero.mp first)
  have slot : (forgedState token handle other).activeList.get j = ⟨1, token, other, []⟩ := by
    rw [zero, forgedState, Slots.get_set_self]
  simp only [answerFor, getGatingIdAndTokenHandle, if_neg issued, found, slot]
  rfl

variable (id : Str) (plain : startsJson id = false)

include plain in
theorem forgedToken_claim (claim : Str) (other : claim ≠ "alg" ∧ claim ≠ "typ") :
    extractFromToken crypto (forgedToken crypto id) claim =
      ((atClaims (forgedConfig crypto [] []) (second 0) id forgedPayload).lookup claim).getD [] :=
  extractFromToken_generateAt (forgedConfig crypto [] []) (second 0) id forgedPayload
    ⟨plain, rfl, rfl, rfl⟩ claim other

theorem forgedToken_signature : verifyTokenSignature crypto (forgedToken crypto id) [] = true := by
  apply verifyTokenSignature_signed
  rw [atJwt_header]
  decide

variable (paths : List Str) (permission : Str)

include plain in
theorem validateTokenExpiry_forged :
    validateTokenExpiry (forgedConfig crypto paths permission) (second 0)
      (forgedToken crypto id) = 0 := by
  have iat := forgedToken_claim crypto id plain "iat" (by decide)
  have exp := forgedToken_claim crypto id plain "exp" (by decide)
  have issued : extractFromToken crypto (forgedToken crypto id) "iat" = "0" := iat
  have ends : extractFromToken crypto (forgedToken crypto id) "exp" = "3600" := exp
  simp only [validateTokenExpiry, forgedConfig, issued, ends]
  decide

theorem search_forged (path : Str) (mem : path ∈ paths) (wild : contains path "*" = true) :
    expandPath (forgedConfig crypto paths permission).himForest path = some [] := by
  have nonempty : path ≠ [] := by
    rintro rfl
    revert wild
    decide
  have tree : ∃ tree, Tree.setRootNodePointer (forgedConfig crypto paths permission).himForest path =
      some tree ∧ ∃ name, tree.handle = some (.mk { name, nodeType := .branch } []) := by
    cases found : Tree.setRootNodePointer (forgedConfig crypto paths permission).himForest path with
    | none =>
      have missing := find?_eq_none.mp found _ (mem_map.mpr ⟨path, mem, rfl⟩)
      simp at missing
    | some =>
      obtain ⟨other, -, rfl⟩ := mem_map.mp (mem_of_find?_eq_some found)
      exact ⟨_, rfl, _, rfl⟩
  obtain ⟨tree, root, name, handle⟩ := tree
  obtain ⟨validation, searched⟩ := Tree.vssSearchNodes_bare path name nonempty
  rw [expandPath, if_pos wild, search, root]
  simp [handle, searched]

theorem accessOf_forged : accessOf (forgedConfig crypto paths permission).pList "purpose" =
      (paths.filter fun p => !contains p "*").map fun p => ⟨p, permission⟩ := by
  simp [accessOf, forgedConfig]

theorem validatePurposeAndAccessPermission_forged (action path : Str) (mem : path ∈ paths)
    (exact_ : contains path "*" = false) (allowed : action ≠ "set" ∨ permission ≠ "read-only") :
    validatePurposeAndAccessPermission (forgedConfig crypto paths permission).pList "purpose" action
      path = 0 := by
  unfold validatePurposeAndAccessPermission
  cases found : (accessOf (forgedConfig crypto paths permission).pList "purpose").find?
      fun access => access.path = path with
  | none =>
    have listed : (⟨path, permission⟩ : AccessElement) ∈
        accessOf (forgedConfig crypto paths permission).pList "purpose" := by
      rw [accessOf_forged]
      exact mem_map.mpr ⟨path, mem_filter.mpr ⟨mem, by rw [exact_]; rfl⟩, rfl⟩
    have missing := find?_eq_none.mp found _ listed
    simp at missing
  | some access =>
    have listed := mem_of_find?_eq_some found
    have given : access.permission = permission := by
      rw [accessOf_forged] at listed
      obtain ⟨other, -, rfl⟩ := mem_map.mp listed
      rfl
    simp only [given]
    rw [if_neg]
    rintro ⟨isSet, readOnly⟩
    obtain other | other := allowed
    · exact other isSet
    · exact other readOnly

theorem validateRequestAccess_forged (action : Str)
    (allowed : action ≠ "set" ∨ permission ≠ "read-only") (asked : List Str)
    (listed : ∀ path ∈ asked, path ∈ paths) :
    validateRequestAccess (forgedConfig crypto paths permission).himForest
      (forgedConfig crypto paths permission).pList "purpose" action asked = some 0 := by
  induction asked with
  | nil => rfl
  | cons path asked ih =>
    have member := listed path mem_cons_self
    have rest := ih fun other inside => listed other (mem_cons_of_mem _ inside)
    rw [validateRequestAccess]
    cases wild : contains path "*" with
    | true =>
      rw [search_forged crypto paths permission path member wild]
      exact rest
    | false =>
      have granted := validatePurposeAndAccessPermission_forged crypto paths permission action
        path member wild allowed
      rw [expandPath, wild]
      simp only [Bool.false_eq_true, if_false, bind_some, firstRefusal, granted, ne_eq,
        not_true_eq_false]
      exact rest

include plain in
theorem validateToken_forged (action : Str)
    (allowed : action ≠ "set" ∨ permission ≠ "read-only") :
    validateToken (forgedConfig crypto paths permission) (second 0) (forgedToken crypto id) action
      paths = some 0 := by
  have aud : extractFromToken crypto (forgedToken crypto id) "aud" = atAudience :=
    forgedToken_claim crypto id plain "aud" (by decide)
  have iss : extractFromToken crypto (forgedToken crypto id) "iss" = "issuer" :=
    forgedToken_claim crypto id plain "iss" (by decide)
  have scp : extractFromToken crypto (forgedToken crypto id) "scp" = "purpose" :=
    forgedToken_claim crypto id plain "scp" (by decide)
  have signature : verifyTokenSignature (forgedConfig crypto paths permission).crypto
      (forgedToken crypto id) (forgedConfig crypto paths permission).theAtSecret = true :=
    forgedToken_signature crypto id
  have granted := validateRequestAccess_forged crypto paths permission action allowed paths
    fun _ mem => mem
  have open_ := validateTokenExpiry_forged crypto id plain paths permission
  have crypto_ : (forgedConfig crypto paths permission).crypto = crypto := rfl
  have issuer : (forgedConfig crypto paths permission).atIssuer = "issuer" := rfl
  rw [validateToken, signature, crypto_, aud, issuer, iss, scp, granted]
  simp [open_]

theorem forgedToken_ne_nil : forgedToken crypto id ≠ [] := by
  intro empty
  have signature := forgedToken_signature crypto id
  rw [empty, verifyTokenSignature_nil] at signature
  cases signature

include plain in
theorem verifyToken_forged {token action paths : Str} {validation : Int} {m : Map Value}
    (order : MapOrder) (handle other permission : Str)
    (context : contains (atsRequest token action paths validation) "context" = false)
    (decoded : unmarshalMap (atsRequest token action paths validation) = some m)
    (distinct : Distinct m) (named : getStr m "token" = some handle) (nonempty : handle ≠ [])
    (harmless : (readAnswer (render ⟨0, "1", other⟩)).errorCode = 0)
    (allowed : (getStr m "action").getD [] ≠ "set" ∨ permission ≠ "read-only") :
    ∃ answer, verifyToken (fun request => generateParentResponse
        (forgedConfig crypto (extractAtValidatePayloadLevel1 (order.iterate m)).paths permission)
        (second 0) order request (forgedState (forgedToken crypto id) handle other))
      token action paths validation = some answer ∧ answer.errorCode = 0 := by
  refine ⟨readAnswer (render ⟨0, "1", other⟩), ?_, harmless⟩
  have checked := validateToken_forged crypto id plain
    (extractAtValidatePayloadLevel1 (order.iterate m)).paths permission
    (extractAtValidatePayloadLevel1 (order.iterate m)).action
    (by rw [payload_action order m distinct]; exact allowed)
  have complete := getCompleteToken_forged (forgedToken crypto id) handle other nonempty
  have answered := answerFor_forged (forgedToken crypto id) handle other
    (forgedToken_ne_nil crypto id)
  have presented : (extractAtValidatePayloadLevel1 (order.iterate m)).token = handle := by
    rw [payload_token order m distinct, named]
    rfl
  simp only [verifyToken, generateParentResponse, context, tokenValidationResponse, decoded,
    presented, complete, checked, map_some, answered]
  rfl

include plain in
theorem authorized_forged (handle other token action : Str) (ps : List Str)
    (apart : forgedToken crypto id ≠ token) (apart' : other ≠ token)
    (authorized : Authorized (forgedConfig crypto paths permission)
      (forgedState (forgedToken crypto id) handle other) token action ps) :
    handle = token ∧ ∀ p ∈ ps, (p ∈ paths ∧ contains p "*" = false) ∧
      ¬ (action = "set" ∧ permission = "read-only") := by
  obtain ⟨i, hit, granted⟩ := authorized
  obtain ⟨token_, handle_⟩ := forgedState_slot (forgedToken crypto id) handle other i
  have scp : extractFromToken crypto (forgedToken crypto id) "scp" = "purpose" :=
    forgedToken_claim crypto id plain "scp" (by decide)
  have crypto_ : (forgedConfig crypto paths permission).crypto = crypto := rfl
  rw [token_] at hit granted
  rw [crypto_, scp] at granted
  constructor
  · obtain same | same := hit
    · exact absurd same.symm apart
    · obtain first | first := handle_
      · exact (same.trans first).symm
      · exact absurd (same.trans first).symm apart'
  · intro p mem
    have open_ := granted p mem
    unfold validatePurposeAndAccessPermission at open_
    split at open_
    · next access found =>
      have listed := mem_of_find?_eq_some found
      rw [accessOf_forged] at listed
      obtain ⟨path, kept, rfl⟩ := mem_map.mp listed
      have same : path = p := by simpa using find?_some found
      subst same
      obtain ⟨inside, exact_⟩ := mem_filter.mp kept
      split_ifs at open_ with denied
      · cases open_
      · exact ⟨⟨inside, by simpa using exact_⟩, denied⟩
    · cases open_

def lastOrder (k : Str) : MapOrder where
  iterate m := (m.filter fun entry => entry.1 ≠ k) ++ m.filter fun entry => entry.1 = k
  perm m := by
    have split := filter_append_perm (fun entry : Str × Value => decide (entry.1 ≠ k)) m
    simpa using split

theorem payload_paths_last (m : Map Value) (distinct : Distinct m) (entry : Str × Value)
    (mem : entry ∈ m) (paths : List Str) (given : entryPaths entry = some paths) :
    (extractAtValidatePayloadLevel1 ((lastOrder entry.1).iterate m)).paths = paths := by
  have only : ∀ other ∈ m.filter fun e => e.1 = entry.1, other = entry := by
    intro other inside
    obtain ⟨inside, key⟩ := mem_filter.mp inside
    have first := (lookup_eq_some_iff m distinct entry.1 entry.2).mpr mem
    have second := (lookup_eq_some_iff m distinct other.1 other.2).mpr inside
    rw [of_decide_eq_true key, first] at second
    exact Prod.ext (of_decide_eq_true key) (some.inj second).symm
  have last : ((m.filter fun e => e.1 = entry.1).filterMap entryPaths).getLast? = some paths := by
    have inside : entry ∈ m.filter fun e => e.1 = entry.1 := mem_filter.mpr ⟨mem, by simp⟩
    have nonempty := ne_nil_of_mem (mem_filterMap.mpr ⟨entry, inside, given⟩)
    obtain ⟨other, selected, same⟩ := mem_filterMap.mp (getLast_mem nonempty)
    rw [only other selected, given] at same
    rw [getLast?_eq_getLast_of_ne_nil nonempty, ← some.inj same]
  rw [extractAtValidatePayloadLevel1, foldl_storeEntry_paths, lastOrder, filterMap_append,
    getLast?_append, last]
  rfl

theorem exists_apart (crypto : Crypto) (token : Str) :
    ∃ id other, startsJson id = false ∧ forgedToken crypto id ≠ token ∧ other ≠ token ∧
      (readAnswer (render ⟨0, "1", other⟩)).errorCode = 0 := by
  have differ : forgedToken crypto "1" ≠ forgedToken crypto "2" := by
    intro same
    have first : extractFromToken crypto (forgedToken crypto "1") "jti" = "1" :=
      forgedToken_claim crypto "1" (by decide) "jti" (by decide)
    have second : extractFromToken crypto (forgedToken crypto "2") "jti" = "2" :=
      forgedToken_claim crypto "2" (by decide) "jti" (by decide)
    rw [same, second] at first
    revert first
    decide
  obtain ⟨id, plain, apart⟩ : ∃ id : Str, startsJson id = false ∧ forgedToken crypto id ≠ token := by
    by_cases same : forgedToken crypto "1" = token
    · exact ⟨"2", by decide, fun equal => differ (same.trans equal.symm)⟩
    · exact ⟨"1", by decide, same⟩
  obtain ⟨other, apart', harmless⟩ : ∃ other : Str, other ≠ token ∧
      (readAnswer (render ⟨0, "1", other⟩)).errorCode = 0 := by
    by_cases same : ("g" : Str) = token
    · exact ⟨"h", fun equal => absurd (same.trans equal.symm) (by decide), by decide +kernel⟩
    · exact ⟨"g", same, by decide +kernel⟩
  exact ⟨id, other, plain, apart, apart', harmless⟩

variable {crypto} {token action paths : Str} {ps : List Str} {validation : Int} {m : Map Value}

section

variable (sound : VerifyTokenSound crypto token action ps paths validation)
  (context : contains (atsRequest token action paths validation) "context" = false)
  (decoded : unmarshalMap (atsRequest token action paths validation) = some m)
  (handle : Str) (named : getStr m "token" = some handle) (nonempty : handle ≠ [])

include sound context decoded named nonempty

theorem sound_forged (order : MapOrder) (permission : Str)
    (allowed : (getStr m "action").getD [] ≠ "set" ∨ permission ≠ "read-only") :
    handle = token ∧ ∀ p ∈ ps,
      (p ∈ (extractAtValidatePayloadLevel1 (order.iterate m)).paths ∧ contains p "*" = false) ∧
      ¬ (action = "set" ∧ permission = "read-only") := by
  obtain ⟨id, other, plain, apart, apart', harmless⟩ := exists_apart crypto token
  obtain ⟨answer, verified, accepted⟩ := verifyToken_forged crypto id plain order handle other
    permission context decoded (distinct_unmarshalMap _ _ decoded) named nonempty harmless allowed
  apply authorized_forged crypto id plain _ permission handle other token action ps apart apart'
  exact sound _ rfl (by intro element mem; cases mem) _ _ _ _ verified accepted

theorem readsBack_of_sound (asked : ps ≠ []) : ReadsBack m token action ps := by
  have distinct := distinct_unmarshalMap _ _ decoded
  have forged := sound_forged sound context decoded handle named nonempty
  obtain ⟨p, mem⟩ := exists_mem_of_ne_nil ps asked
  constructor
  · rw [named, (forged textOrder "read-write" (.inr (by decide))).1]
  · intro isSet
    by_contra other
    have notSet : (getStr m "action").getD [] ≠ "set" := by
      cases given : getStr m "action" with
      | none => decide
      | some =>
        rw [given] at other
        exact fun same => other (congrArg some same)
    exact ((forged textOrder "read-only" (.inl notSet)).2 p mem).2 ⟨isSet, rfl⟩
  · have listed := ((forged textOrder "read-write" (.inr (by decide))).2 p mem).1.1
    rw [extractAtValidatePayloadLevel1, foldl_storeEntry_paths] at listed
    cases last : ((textOrder.iterate m).filterMap entryPaths).getLast? with
    | none =>
      rw [last] at listed
      cases listed
    | some =>
      obtain ⟨entry, inside, given⟩ := mem_filterMap.mp (mem_of_getLast? last)
      exact ⟨entry, inside, by rw [given]; rfl⟩
  · intro entry inside found given p mem
    have listed := ((forged (lastOrder entry.1) "read-write" (.inr (by decide))).2 p mem).1
    rwa [payload_paths_last m distinct entry inside found given] at listed

end

/-- A token is accepted only for what it authorizes exactly when the pasted request is refused or
decoded to its texts. -/
theorem verifyToken_sound_iff (crypto : Crypto) (token action : Str) (ps : List Str) (multi : Bool)
    (validation : Int) (asked : ps ≠ []) :
    VerifyTokenSound crypto token action ps (corePaths multi ps) validation ↔
      NoToken (atsRequest token action (corePaths multi ps) validation) ∨
      ∃ m, unmarshalMap (atsRequest token action (corePaths multi ps) validation) = some m ∧
        ReadsBack m token action ps := by
  constructor
  · intro sound
    by_cases refused : NoToken (atsRequest token action (corePaths multi ps) validation)
    · exact .inl refused
    · right
      unfold NoToken at refused
      push Not at refused
      obtain ⟨context, m, decoded, nonempty⟩ := refused
      refine ⟨m, decoded, ?_⟩
      cases named : getStr m "token" with
      | none =>
        rw [named] at nonempty
        exact absurd rfl nonempty
      | some handle =>
        rw [named] at nonempty
        exact readsBack_of_sound sound (Bool.eq_false_iff.mpr context) decoded handle named
          nonempty asked
  · intro condition config same plain now order state answer verified accepted
    obtain ⟨context, m, decoded, valid⟩ := verifyToken_zero plain verified accepted
    have distinct := distinct_unmarshalMap _ _ decoded
    obtain (contexts | refused) | ⟨m', decoded', back⟩ := condition
    · rw [context] at contexts
      cases contexts
    · -- without a token there is nothing whose signature could be right
      have signature := (validateToken_zero valid).1
      rw [payload_token order m distinct, refused m decoded] at signature
      simp only [getCompleteToken, if_true, verifyTokenSignature_nil] at signature
      cases signature
    · rw [decoded] at decoded'
      cases decoded'
      exact authorized_of_readsBack distinct back valid

theorem reads_corePaths (multi : Bool) (ps : List Str) (asked : ps ≠ [])
    (plain : ∀ p ∈ ps, PlainText p) :
    ∃ w, Reads w (corePaths multi ps) ∧ w.nesting ≤ 1 ∧ w.inRange = true ∧
      entryPaths ("paths", w.value) = some ps := by
  have array : Reads (literals ps) (pastedArray ps) ∧ (literals ps).nesting ≤ 1 ∧
      (literals ps).inRange = true ∧ entryPaths ("paths", (literals ps).value) = some ps := by
    refine ⟨reads_pastedArray ps plain, by rw [literals_nesting], literals_inRange ps, ?_⟩
    rw [literals_value ps plain, entryPaths, extractAtValidatePayloadLevel2, List.map_map]
    exact congrArg some (map_id ps)
  obtain _ | ⟨p, _ | ⟨q, ps⟩⟩ := ps
  · exact absurd rfl asked
  · cases multi with
    | true =>
      have text : corePaths true [p] = pastedArray [p] := multiPaths_cons p []
      rw [text]
      exact ⟨_, array⟩
    | false =>
      have single := plain p mem_cons_self
      have text : corePaths false [p] = pasted p := requestPaths_single p
      rw [text]
      refine ⟨_, reads_pasted p single, zero_le _, rfl, ?_⟩
      rw [Raw.value, unquote_literal p single]
      rfl
  · have text : corePaths multi (p :: q :: ps) = pastedArray (p :: q :: ps) := by
      cases multi with
      | true => exact multiPaths_cons p (q :: ps)
      | false => exact requestPaths_several p q ps
    rw [text]
    exact ⟨_, array⟩

theorem atsRequest_pasted (token action paths : Str) (validation : Int) (w : Raw) :
    atsRequest token action paths validation =
      pastedObject "token" (pasted token) [("paths", w, paths),
        ("action", .str (literal action), pasted action),
        ("validation", .str (literal (itoa validation)), pasted (itoa validation))] := by
  unfold atsRequest
  generalize itoa validation = text
  simp [pastedObject, moreMembers, pastedMember, pasted]

theorem readsBack_members (token action text : Str) (value : Value) (ps : List Str)
    (given : entryPaths ("paths", value) = some ps) (exact_ : ∀ p ∈ ps, contains p "*" = false) :
    ReadsBack (mapOf [("token", .str token), ("paths", value), ("action", .str action),
      ("validation", .str text)]) token action ps := by
  have lookup (key : Str) : (mapOf [("token", Value.str token), ("paths", value),
      ("action", .str action), ("validation", .str text)]).lookup key =
        if key = "validation" then some (.str text) else if key = "action" then some (.str action)
        else if key = "paths" then some value
        else if key = "token" then some (.str token) else none := by
    rw [lookup_mapOf]
    simp only [reverse_cons, reverse_nil, nil_append, cons_append, lookup_cons, lookup_nil]
  constructor
  · rw [getStr, lookup]
    rfl
  · intro isSet
    rw [getStr, lookup, isSet]
    rfl
  · have inside := mem_of_lookup _ "paths" value (lookup "paths")
    exact ⟨_, inside, by rw [given]; rfl⟩
  · intro entry mem paths found p asked
    have listed := mem_mapOf _ _ mem
    simp only [mem_cons, not_mem_nil, or_false] at listed
    obtain rfl | rfl | rfl | rfl := listed
    · cases found
    · rw [given] at found
      cases found
      exact ⟨asked, exact_ p asked⟩
    · cases found
    · cases found

theorem readsBack_plain (token action : Str) (ps : List Str) (multi : Bool) (validation : Int)
    (asked : ps ≠ []) (plainToken : PlainText token) (plainAction : PlainText action)
    (plain : ∀ p ∈ ps, PlainText p ∧ contains p "*" = false) :
    ∃ m, unmarshalMap (atsRequest token action (corePaths multi ps) validation) = some m ∧
      ReadsBack m token action ps := by
  obtain ⟨w, reads, nested, range, given⟩ := reads_corePaths multi ps asked
    fun p mem => (plain p mem).1
  have plainValidation := plainText_itoa validation
  have shallow : 0 < maxNestingDepth := by decide
  have decoded := unmarshalMap_pastedObject "token" (.str (literal token)) (pasted token)
    [("paths", w, corePaths multi ps), ("action", .str (literal action), pasted action),
      ("validation", .str (literal (itoa validation)), pasted (itoa validation))]
    (by
      simp only [forall_mem_cons]
      exact ⟨by decide, by decide, by decide, by decide, fun _ mem => by cases mem⟩)
    (by
      simp only [forall_mem_cons]
      exact ⟨reads_pasted token plainToken, reads, reads_pasted action plainAction,
        reads_pasted _ plainValidation, fun _ mem => by cases mem⟩)
    (by
      simp only [forall_mem_cons]
      exact ⟨shallow, lt_of_le_of_lt nested (by decide), shallow, shallow,
        fun _ mem => by cases mem⟩)
    (by
      simp only [forall_mem_cons]
      exact ⟨rfl, range, rfl, rfl, fun _ mem => by cases mem⟩)
  refine ⟨_, by rw [atsRequest_pasted _ _ _ _ w, decoded], ?_⟩
  simp only [map_cons, map_nil, Raw.value, unquote_literal token plainToken,
    unquote_literal action plainAction, unquote_literal _ plainValidation]
  exact readsBack_members token action (itoa validation) w.value ps given
    fun p mem => (plain p mem).2

theorem verifyToken_sound_speed : (["Vehicle.Speed"] : List Str) ≠ [] ∧
    VerifyTokenSound openCrypto speedToken "get" ["Vehicle.Speed"]
      (corePaths false ["Vehicle.Speed"]) 2 := by
  have asked : (["Vehicle.Speed"] : List Str) ≠ [] := cons_ne_nil _ _
  refine ⟨asked, (verifyToken_sound_iff openCrypto speedToken "get" ["Vehicle.Speed"] false 2
    asked).mpr (.inr ?_)⟩
  apply readsBack_plain
  · exact asked
  · decide +kernel
  · decide
  · decide

/-- A token for the speed, and an array of paths of the client's own. -/
def forgedAuthorization : Str := speedToken ++ "\",\"x\":[\"Vehicle.Speed\"],\"y\":\""

def speedState : State := writeToActiveList sampleConfig 667 speedToken sampleState

/-- The token for the speed is accepted for the position. -/
theorem forged_paths_accepted : ¬ VerifyTokenSound openCrypto forgedAuthorization "get"
    ["Vehicle.Position"] (corePaths false ["Vehicle.Position"]) 12 := by
  intro sound
  have accepted : (verifyToken (fun request => generateParentResponse sampleConfig (second 2002)
      (lastOrder "x") request speedState) forgedAuthorization "get"
      (corePaths false ["Vehicle.Position"]) 12).map (·.errorCode) = some 0 := by
    decide +kernel
  have other : ∀ i, forgedAuthorization ≠ (speedState.activeList.get i).atoken ∧
      forgedAuthorization ≠ (speedState.activeList.get i).atokenHandle := by
    decide +kernel
  obtain ⟨answer, verified, zero⟩ := map_eq_some_iff.mp accepted
  obtain ⟨i, hit, -⟩ := sound sampleConfig rfl (by intro element member; cases member) _ _ _ _
    verified zero
  obtain same | same := hit
  · exact (other i).1 same
  · exact (other i).2 same

end Vissr.Core
