import Vissr.AtServer.Consent
import Vissr.Json.Paste

/-! How the core asks the token server about a token (`verifyToken`), in JSON pasted from client
texts. -/

namespace Vissr.Core

open Json Token AtServer List Option Nat

def quotePaths (ps : List Str) : Str := ps.flatMap fun p => '"' :: p ++ "\", "

def trimPaths (paths : Str) : Str :=
  if 2 ≤ paths.length then paths.take (paths.length - 2) else paths

def requestPaths (ps : List Str) : Str :=
  let paths := trimPaths (quotePaths ps)
  if 1 < ps.length then '[' :: paths ++ [']'] else paths

def multiPaths (ps : List Str) : Str := '[' :: trimPaths (quotePaths ps) ++ [']']

def corePaths (multi : Bool) (ps : List Str) : Str :=
  if multi then multiPaths ps else requestPaths ps

def atsRequest (token action paths : Str) (validation : Int) : Str :=
  "\x7b\"token\":\"" ++ token ++ "\",\"paths\":" ++ paths ++
    ",\"action\":\"" ++ action ++ "\",\"validation\":\"" ++ itoa validation ++
    "\"\x7d"

/-- The error code is zero for a valid token. -/
structure TokenAnswer where
  errorCode : Int
  handle : Str := []
  gatingId : Str := []
  deriving DecidableEq

def readAnswer (body : Str) : TokenAnswer :=
  match unmarshalMap body with
  | none => { errorCode := 41 }
  | some bdy =>
    match getStr bdy "validation" with
    | none => { errorCode := 42 }
    | some validationStr =>
      match atoi validationStr with
      | none => { errorCode := 42 }
      | some atsValidation =>
        if atsValidation = 0 then
          { errorCode := 0
            handle := (getStr bdy "handle").getD []
            gatingId := (getStr bdy "gatingId").getD [] }
        else { errorCode := atsValidation }

/-- A token server that has panicked does not answer. -/
def verifyToken (ats : Str → Option Str) (token action paths : Str) (validation : Int) :
    Option TokenAnswer :=
  (ats (atsRequest token action paths validation)).map readAnswer

variable (config : Config)

def Authorized (state : State) (token action : Str) (ps : List Str) : Prop :=
  ∃ i, (token = (state.activeList.get i).atoken ∨ token = (state.activeList.get i).atokenHandle) ∧
    ∀ p ∈ ps, validatePurposeAndAccessPermission config.pList
      (extractFromToken config.crypto (state.activeList.get i).atoken "scp") action p = 0

def PlainScopes (sList : List ScopeElement) : Prop :=
  ∀ element ∈ sList, ∀ path ∈ element.noAccess, PlainText path

/-- Whatever its state, a token that the server accepts is authorized for what the core asked. -/
def VerifyTokenSound (crypto : Crypto) (token action : Str) (ps : List Str) (paths : Str)
    (validation : Int) : Prop :=
  ∀ config, config.crypto = crypto → PlainScopes config.sList → ∀ now order state answer,
    verifyToken (fun request => generateParentResponse config now order request state)
      token action paths validation = some answer →
      answer.errorCode = 0 → Authorized config state token action ps

def entryPaths : Str × Value → Option (List Str)
  | (_, .arr pathList) => some (extractAtValidatePayloadLevel2 pathList)
  | (k, .str s) => if k = "paths" then some [s] else none
  | _ => none

/-- The token server does not get as far as a token. -/
def NoToken (request : Str) : Prop := contains request "context" = true ∨
    ∀ m, unmarshalMap request = some m → (getStr m "token").getD [] = []

structure ReadsBack (m : Map Value) (token action : Str) (ps : List Str) : Prop where
  token : getStr m "token" = some token
  action : action = "set" → getStr m "action" = some "set".toList
  some_paths : ∃ entry ∈ m, (entryPaths entry).isSome = true
  paths : ∀ entry ∈ m, ∀ paths, entryPaths entry = some paths →
    ∀ p ∈ ps, p ∈ paths ∧ contains p "*" = false

variable (p : Str)

theorem quotePaths_cons (ps : List Str) :
    quotePaths (p :: ps) = (pasted p ++ pastedMore ps) ++ ", " := by
  induction ps generalizing p with
  | nil => simp [quotePaths, pasted, pastedMore]
  | cons q ps ih =>
    have first : quotePaths (p :: q :: ps) = pasted p ++ ", " ++ quotePaths (q :: ps) := by
      simp [quotePaths, pasted]
    rw [first, ih]
    simp [pastedMore]

theorem take_quotePaths (ps : List Str) :
    (quotePaths (p :: ps)).take ((quotePaths (p :: ps)).length - 2) =
      pasted p ++ pastedMore ps := by
  rw [quotePaths_cons, length_append]
  exact take_left' rfl

theorem trimPaths_quotePaths (ps : List Str) :
    trimPaths (quotePaths (p :: ps)) = pasted p ++ pastedMore ps := by
  rw [trimPaths, if_pos, take_quotePaths]
  rw [quotePaths_cons, length_append]
  exact le_add_left _ _

theorem multiPaths_cons (ps : List Str) : multiPaths (p :: ps) = pastedArray (p :: ps) := by
  rw [multiPaths, trimPaths_quotePaths, pastedArray]
  simp

theorem requestPaths_single : requestPaths [p] = pasted p := by
  have trimmed := trimPaths_quotePaths p []
  simp only [requestPaths, trimmed]
  simp [pastedMore]

theorem requestPaths_several (p q : Str) (ps : List Str) :
    requestPaths (p :: q :: ps) = pastedArray (p :: q :: ps) := by
  rw [← multiPaths_cons]
  simp [requestPaths, multiPaths]

def refusalCodes : List Int := [1, 5, 10, 11, 15, 16, 20, 22, 60, 61]

variable (pList : List PurposeElement)

theorem firstRefusal_codes (purpose action : Str) (paths : List Str) :
    firstRefusal pList purpose action paths ∈ 0 :: refusalCodes := by
  induction paths with
  | nil => exact mem_cons_self
  | cons path paths ih =>
    rw [firstRefusal]
    split_ifs with refused
    · unfold validatePurposeAndAccessPermission
      split
      · split_ifs <;> decide
      · decide
    · exact ih

theorem validateRequestAccess_codes (himForest : Tree.Forest) (pList : List PurposeElement)
    (purpose action : Str) (paths : List Str) (res : Int)
    (checked : validateRequestAccess himForest pList purpose action paths = some res) :
    res ∈ 0 :: refusalCodes := by
  induction paths with
  | nil =>
    cases checked
    decide
  | cons path paths ih =>
    obtain ⟨pathSubList, -, rest⟩ := bind_eq_some_iff.mp checked
    simp only at rest
    split_ifs at rest with refused
    · cases rest
      exact firstRefusal_codes pList purpose action pathSubList
    · exact ih rest

theorem validateTokenExpiry_codes (now : Time) (token : Str) :
    validateTokenExpiry config now token ∈ 0 :: refusalCodes := by
  unfold validateTokenExpiry
  split
  · decide
  · split_ifs
    · decide
    · split
      · decide
      · split_ifs <;> decide

theorem validateToken_codes (now : Time) (token action : Str) (paths : List Str)
    (res : Int) (checked : validateToken config now token action paths = some res) :
    res ∈ 0 :: refusalCodes := by
  unfold validateToken at checked
  split_ifs at checked
  · cases checked
    decide
  · cases checked
    decide
  · cases checked
    decide
  · obtain ⟨access, granted, rest⟩ := map_eq_some_iff.mp checked
    split_ifs at rest
    · subst rest
      exact validateRequestAccess_codes _ _ _ _ _ _ granted
    · subst rest
      exact validateTokenExpiry_codes config now token

theorem readAnswer_refusal :
    ∀ res ∈ refusalCodes, (readAnswer (Validation.render { validation := res })).errorCode = res := by
  decide +kernel

theorem refusalCodes_ne_zero : (0 : Int) ∉ refusalCodes := by decide

variable {config : Config} {now : Time} {state : State}

theorem validation_of_readAnswer {order : MapOrder} {request : Str} {answer : Validation}
    (answered : tokenValidationResponse config now order request state = some answer)
    (accepted : (readAnswer answer.render).errorCode = 0) : answer.validation = 0 := by
  unfold tokenValidationResponse at answered
  split at answered
  · cases answered
    rw [readAnswer_refusal 1 (by decide)] at accepted
    cases accepted
  · obtain ⟨res, checked, same⟩ := map_eq_some_iff.mp answered
    obtain rfl | refused := mem_cons.mp (validateToken_codes _ _ _ _ _ _ checked)
    · subst same
      rfl
    · have nonzero : res ≠ 0 := fun zero => refusalCodes_ne_zero (zero ▸ refused)
      subst same
      simp only [answerFor, nonzero, ne_eq, not_false_eq_true, if_true] at accepted
      rw [readAnswer_refusal res refused] at accepted
      exact absurd accepted nonzero

def scopeValue : List Str → Value
  | [path] => .str path
  | paths => .arr (paths.map .str)

theorem reads_synthesizeNoScope (element : ScopeElement)
    (plain : ∀ path ∈ element.noAccess, PlainText path) (text : Str)
    (written : synthesizeNoScope element = some text) :
    ∃ w, Reads w text ∧ w.nesting ≤ 1 ∧ w.inRange = true ∧
      w.value = scopeValue element.noAccess := by
  unfold synthesizeNoScope at written
  split at written
  · cases written
  · next path same =>
    cases written
    rw [same] at plain ⊢
    have here := plain path mem_cons_self
    refine ⟨_, reads_pasted path here, zero_le _, rfl, ?_⟩
    rw [Raw.value, unquote_literal path here, scopeValue]
  · next several single =>
    cases paths : element.noAccess with
    | nil => exact absurd paths several
    | cons p ps =>
      rw [paths] at plain written single
      have text : '[' :: pasted p ++ (pastedMore ps ++ [']']) = text := by
        have long : 2 ≤ (quotePaths (p :: ps)).length := by
          rw [quotePaths_cons, length_append]
          exact le_add_left _ _
        have size : ('[' :: quotePaths (p :: ps)).length - 2 =
            (quotePaths (p :: ps)).length - 2 + 1 := by
          rw [length_cons]
          omega
        have cut : ('[' :: quotePaths (p :: ps)).take
            (('[' :: quotePaths (p :: ps)).length - 2) ++ [']'] = text := some.inj written
        rw [size, take_succ_cons, take_quotePaths] at cut
        rw [← cut]
        simp
      refine ⟨literals (p :: ps), ?_, ?_, literals_inRange _, ?_⟩
      · rw [← text]
        exact reads_pastedArray (p :: ps) plain
      · rw [literals_nesting]
      · rw [literals_value _ plain]
        cases ps with
        | nil => exact absurd rfl (single p)
        | cons => rfl

theorem reads_getNoAccessScope (sList : List ScopeElement) (plain : PlainScopes sList)
    (context text : Str) (written : getNoAccessScope sList context = some text) :
    ∃ w, Reads w text ∧ w.nesting ≤ 1 ∧ w.inRange = true := by
  unfold getNoAccessScope at written
  split at written
  · next element found =>
    rcases reads_synthesizeNoScope element
      (fun path mem => plain element (mem_of_find?_eq_some found) path mem) text written
      with ⟨w, reads, nested, range, _⟩
    exact ⟨w, reads, nested, range⟩
  · cases written
    exact ⟨_, reads_pasted [] (by decide), zero_le _, rfl⟩

theorem unmarshalMap_noAccess {w : Raw} {scope : Str} (reads : Reads w scope)
    (nested : w.nesting ≤ 1) (range : w.inRange = true) :
    unmarshalMap ("\x7b\"no_access\":" ++ scope ++ "\x7d") =
      some [("no_access".toList, w.value)] := by
  have same : "\x7b\"no_access\":" ++ scope ++ "\x7d" =
      pastedObject "no_access" scope [] := by
    simp [pastedObject, pastedMember, pasted, moreMembers]
  rw [same, unmarshalMap_pastedObject "no_access" w scope []
    (by simp only [mem_singleton, forall_eq]; decide) (by simpa using reads)
    (by simpa using lt_of_le_of_lt nested (by decide)) (by simpa using range)]
  rfl

theorem readAnswer_noScope (config : Config) (plain : PlainScopes config.sList) (request text : Str)
    (answered : noScopeResponse config request = some text) : (readAnswer text).errorCode = 42 := by
  unfold noScopeResponse at answered
  split at answered
  · cases answered
    decide +kernel
  · next context decoded =>
    obtain ⟨scope, written, rfl⟩ := map_eq_some_iff.mp answered
    obtain ⟨w, reads, nested, range⟩ := reads_getNoAccessScope config.sList plain context scope
      written
    rw [readAnswer, unmarshalMap_noAccess reads nested range]
    rfl

theorem verifyToken_zero {order : MapOrder} {token action paths : Str} {validation : Int}
    {answer : TokenAnswer} (plain : PlainScopes config.sList)
    (verified : verifyToken (fun request => generateParentResponse config now order request state)
      token action paths validation = some answer) (accepted : answer.errorCode = 0) :
    contains (atsRequest token action paths validation) "context" = false ∧
    ∃ m, unmarshalMap (atsRequest token action paths validation) = some m ∧ validateToken config now
        (getCompleteToken (extractAtValidatePayloadLevel1 (order.iterate m)).token state)
        (extractAtValidatePayloadLevel1 (order.iterate m)).action
        (extractAtValidatePayloadLevel1 (order.iterate m)).paths = some 0 := by
  obtain ⟨body, answered, rfl⟩ := map_eq_some_iff.mp verified
  simp only [generateParentResponse] at answered
  split_ifs at answered with context
  · rw [readAnswer_noScope config plain _ body answered] at accepted
    cases accepted
  · obtain ⟨response, validated, rfl⟩ := map_eq_some_iff.mp answered
    exact ⟨Bool.eq_false_iff.mpr context, tokenValidationResponse_zero validated
      (validation_of_readAnswer validated accepted)⟩

theorem foldl_storeEntry_text (field : AtValidatePayload → Str) (key : Str)
    (stores : ∀ payload k v, field (storeEntry payload (k, v)) =
      if k = key then (getStr [(k, v)] k).getD (field payload) else field payload)
    (m : Map Value) (distinct : Distinct m) (payload : AtValidatePayload) :
    field (m.foldl storeEntry payload) = (getStr m key).getD (field payload) := by
  induction m generalizing payload with
  | nil => rfl
  | cons entry m ih =>
    obtain ⟨k, v⟩ := entry
    obtain ⟨fresh, rest⟩ := nodup_cons.mp distinct
    rw [foldl_cons, ih rest, stores]
    by_cases same : k = key
    · subst same
      have absent : m.lookup k = none := by
        apply eq_none_iff_forall_not_mem.mpr
        intro w found
        exact fresh (mem_map.mpr ⟨(k, w), mem_of_lookup m k w found, rfl⟩)
      simp [getStr, absent]
    · have other : key ≠ k := fun equal => same equal.symm
      simp [getStr, lookup_cons, same, other]

theorem getStr_singleton (k : Str) (v : Value) : getStr [(k, v)] k = match v with
      | .str s => some s
      | _ => none := by
  rw [getStr, lookup_cons, if_pos rfl]
  cases v <;> rfl

variable (payload : AtValidatePayload)

theorem storeEntry_token (k : Str) (v : Value) : (storeEntry payload (k, v)).token =
      if k = "token" then (getStr [(k, v)] k).getD payload.token else payload.token := by
  rw [getStr_singleton]
  cases v with
  | str =>
    simp only [storeEntry]
    split_ifs <;> rfl
  | null | bool | num | arr | obj => exact (ite_self _).symm

theorem storeEntry_action (k : Str) (v : Value) : (storeEntry payload (k, v)).action =
      if k = "action" then (getStr [(k, v)] k).getD payload.action else payload.action := by
  rw [getStr_singleton]
  cases v with
  | str =>
    simp only [storeEntry]
    split_ifs with token action
    · -- no key is both
      exact absurd (token.symm.trans action) (by decide)
    all_goals rfl
  | null | bool | num | arr | obj => exact (ite_self _).symm

theorem storeEntry_paths (entry : Str × Value) :
    (storeEntry payload entry).paths = (entryPaths entry).getD payload.paths := by
  obtain ⟨k, v⟩ := entry
  cases v with
  | str =>
    simp only [storeEntry, entryPaths]
    split_ifs <;> simp_all
  | null | bool | num | arr | obj => rfl

theorem foldl_storeEntry_paths (m : Map Value) (payload : AtValidatePayload) :
    (m.foldl storeEntry payload).paths = ((m.filterMap entryPaths).getLast?).getD payload.paths := by
  induction m using reverseRecOn with
  | nil => rfl
  | append_singleton m entry ih =>
    rw [foldl_append, foldl_cons, foldl_nil, storeEntry_paths, ih, filterMap_append]
    cases paths : entryPaths entry with
    | none | some => simp [paths]

variable (order : MapOrder) (m : Map Value) (distinct : Distinct m)

include distinct

theorem payload_text (field : AtValidatePayload → Str) (key : Str)
    (stores : ∀ payload k v, field (storeEntry payload (k, v)) =
      if k = key then (getStr [(k, v)] k).getD (field payload) else field payload) :
    field (extractAtValidatePayloadLevel1 (order.iterate m)) = (getStr m key).getD (field {}) := by
  have perm := order.perm m
  have distinct' : Distinct (order.iterate m) := (perm.map Prod.fst).nodup_iff.mpr distinct
  rw [extractAtValidatePayloadLevel1, foldl_storeEntry_text field key stores _ distinct', getStr,
    getStr, lookup_perm _ _ distinct' perm]

theorem payload_token :
    (extractAtValidatePayloadLevel1 (order.iterate m)).token = (getStr m "token").getD [] :=
  payload_text order m distinct AtValidatePayload.token _ storeEntry_token

theorem payload_action :
    (extractAtValidatePayloadLevel1 (order.iterate m)).action = (getStr m "action").getD [] :=
  payload_text order m distinct AtValidatePayload.action _ storeEntry_action

omit distinct

theorem payload_paths (present : ∃ entry ∈ m, (entryPaths entry).isSome = true) : ∃ entry ∈ m,
      entryPaths entry = some (extractAtValidatePayloadLevel1 (order.iterate m)).paths := by
  obtain ⟨entry, mem, some_⟩ := present
  obtain ⟨ps, paths⟩ := isSome_iff_exists.mp some_
  have inside : entry ∈ order.iterate m := (order.perm m).mem_iff.mpr mem
  have nonempty : (order.iterate m).filterMap entryPaths ≠ [] :=
    ne_nil_of_mem (mem_filterMap.mpr ⟨entry, inside, paths⟩)
  have last := getLast_mem nonempty
  obtain ⟨entry', inside', paths'⟩ := mem_filterMap.mp last
  refine ⟨entry', (order.perm m).mem_iff.mp inside', ?_⟩
  rw [paths', extractAtValidatePayloadLevel1, foldl_storeEntry_paths,
    getLast?_eq_getLast_of_ne_nil nonempty]
  rfl

theorem validateRequestAccess_mem (himForest : Tree.Forest) (pList : List PurposeElement)
    (purpose action : Str) (paths : List Str)
    (granted : validateRequestAccess himForest pList purpose action paths = some 0) (p : Str)
    (member : p ∈ paths) (exact_ : contains p "*" = false) :
    validatePurposeAndAccessPermission pList purpose action p = 0 := by
  induction paths with
  | nil => cases member
  | cons path paths ih =>
    obtain ⟨pathSubList, expanded, rest⟩ := bind_eq_some_iff.mp granted
    simp only at rest
    split_ifs at rest with refused
    · exact absurd (some.inj rest) refused
    · obtain rfl | member := mem_cons.mp member
      · rw [expandPath, exact_] at expanded
        cases expanded
        rw [not_not, firstRefusal] at refused
        split_ifs at refused with denied
        · exact absurd refused denied
        · exact not_not.mp denied
      · exact ih rest member

theorem validatePurposeAndAccessPermission_action (purpose checked action p : Str)
    (granted : validatePurposeAndAccessPermission pList purpose checked p = 0)
    (stricter : action = "set" → checked = "set") :
    validatePurposeAndAccessPermission pList purpose action p = 0 := by
  unfold validatePurposeAndAccessPermission at granted ⊢
  split at granted
  · next access found =>
    split_ifs at granted with readOnly
    · cases granted
    · rw [if_neg fun denied => readOnly ⟨stricter denied.1, denied.2⟩]
  · cases granted

theorem authorized_of_readsBack {order : MapOrder} {m : Map Value} {token action : Str}
    {ps : List Str} (distinct : Distinct m) (back : ReadsBack m token action ps)
    (valid : validateToken config now
      (getCompleteToken (extractAtValidatePayloadLevel1 (order.iterate m)).token state)
      (extractAtValidatePayloadLevel1 (order.iterate m)).action
      (extractAtValidatePayloadLevel1 (order.iterate m)).paths = some 0) :
    Authorized config state token action ps := by
  obtain ⟨signature, granted, -⟩ := validateToken_zero valid
  rw [payload_token order m distinct, back.token, getD_some] at signature granted
  obtain missing | ⟨i, complete, hit⟩ := getCompleteToken_cases token state
  · rw [missing, verifyTokenSignature_nil] at signature
    cases signature
  · refine ⟨i, hit, ?_⟩
    intro p mem
    obtain ⟨entry, inside, paths⟩ := payload_paths order m back.some_paths
    obtain ⟨listed, exact_⟩ := back.paths entry inside _ paths p mem
    rw [complete] at granted
    have allowed := validateRequestAccess_mem _ _ _ _ _ granted p listed exact_
    apply validatePurposeAndAccessPermission_action _ _ _ _ _ allowed
    intro isSet
    rw [payload_action order m distinct, back.action isSet]
    rfl

end Vissr.Core
