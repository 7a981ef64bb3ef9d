import Vissr.Common
import Vissr.Json.Solid

/-! How a client request is handed to the core (`utils/managerhandlers.go`). -/

namespace Vissr.Transport

open Json Option List Nat Raw

/-- The fields of a request that only the managers and the core set. -/
def managerSetFields : List Str := ["RouterId", "origin", "handle", "gatingId", "infoType"]

/-- `decoder.More`: a closing bracket is not taken for another value. -/
def more (rest : Str) : Bool :=
  match skipSpace rest with
  | [] => false
  | c :: _ => c ≠ ']' && c ≠ '\x7d'

def routerId (mgrId clientId : Int) : Str := itoa mgrId ++ '?' :: itoa clientId

/-- On a `RouterId`, `strconv.Quote` writes what JSON does. -/
def rawString (s : Str) : Raw := .str (encodeString s)

variable (ms : List (List Elem × Raw))

def stripped : Map Raw := deleteAll managerSetFields (mapOf (ms.map fun p => (unquote p.1, p.2)))

def routed (mgrId clientId : Int) : Map Raw :=
  set "origin" (rawString "external") (set "RouterId" (rawString (routerId mgrId clientId)) (stripped ms))

def withRoutingInfo (reqMessage : Str) (mgrId clientId : Int) : Option Str :=
  match parse reqMessage with
  | some (.obj ms, rest) =>
    if more rest then none else some (marshalRawMap (routed ms mgrId clientId))
  | _ => none

def addRoutingForwardRequest (reqMessage : Str) (mgrId clientId : Int) : List Str :=
  match withRoutingInfo reqMessage mgrId clientId with
  | some request => [request]
  | none => []

/-- What `transportDataSession` hands to the dispatcher. -/
def transportRequest (msg : Str) : Map Value := (mapRequest msg).1

variable (ms : List (List Elem × Raw))

theorem distinct_routed (mgrId clientId : Int) : Distinct (routed ms mgrId clientId) := by
  apply distinct_set
  apply distinct_set
  exact distinct_deleteAll _ _ (distinct_mapOf _)

theorem nesting_routed (mgrId clientId : Int) (nested : (obj ms).nesting ≤ maxNestingDepth) :
    ∀ p ∈ routed ms mgrId clientId, p.2.nesting < maxNestingDepth := by
  intro p member
  have flat (s : Str) : (rawString s).nesting < maxNestingDepth := zero_lt_of_ne_zero (by decide)
  obtain same | member := mem_set _ _ _ p member
  · rw [same]
    exact flat _
  obtain same | member := mem_set _ _ _ p member
  · rw [same]
    exact flat _
  · have inside := mem_mapOf _ p (mem_deleteAll _ _ p member)
    obtain ⟨q, original, rfl⟩ := mem_map.mp inside
    rw [nesting] at nested
    exact lt_of_succ_le
      (le_trans (succ_le_succ (nesting_le_of_mem ms _ (le_refl _) q original)) nested)

theorem routed_lookup (mgrId clientId : Int) (k : Str) : (routed ms mgrId clientId).lookup k =
      if k = "origin" then some (rawString "external")
      else if k = "RouterId" then some (rawString (routerId mgrId clientId))
      else if k ∈ managerSetFields then none
      else (mapOf (ms.map fun p => (unquote p.1, p.2))).lookup k := by
  rw [routed, lookup_set, lookup_set, stripped, lookup_deleteAll]

theorem rawString_value (s : Str) : (rawString s).value = .str s := by
  rw [rawString, value, unquote_encodeString]

theorem toMap_lookup (ms : List (List Elem × Raw)) (k : Str) : ((obj ms).toMap.1).lookup k =
      ((mapOf (ms.map fun p => (unquote p.1, p.2))).lookup k).map value := by
  have values : valueMembers ms =
      (ms.map fun p => (unquote p.1, p.2)).map fun p => (p.1, p.2.value) := by
    simp [valueMembers_eq, Function.comp_def]
  rw [toMap, values, lookup_mapOf, lookup_mapOf, ← map_reverse, lookup_map]

theorem forwarded_eq {reqMessage request : Str} {mgrId clientId : Int}
    (forwarded : request ∈ addRoutingForwardRequest reqMessage mgrId clientId) :
    ∃ ms rest, parse reqMessage = some (.obj ms, rest) ∧ (obj ms).nesting ≤ maxNestingDepth ∧
      request = marshalRawMap (routed ms mgrId clientId) := by
  unfold addRoutingForwardRequest withRoutingInfo at forwarded
  split at forwarded
  · next text sent =>
    rw [mem_singleton.mp forwarded]
    split at sent
    · next ms rest parsed =>
      split_ifs at sent
      cases sent
      exact ⟨ms, rest, parsed, (parseValue_solid _ _ _ _ _ parsed).1, rfl⟩
    · cases sent
  · cases forwarded

theorem transportRequest_lookup (ms : List (List Elem × Raw)) (mgrId clientId : Int)
    (nested : (obj ms).nesting ≤ maxNestingDepth) (k : Str) :
    (transportRequest (marshalRawMap (routed ms mgrId clientId))).lookup k =
      ((routed ms mgrId clientId).lookup k).map value := by
  have parsed := parse_marshalRawMap _ (nesting_routed ms mgrId clientId nested)
  rw [transportRequest, mapRequest_of_parse _ _ _ parsed,
    rawObject_lookup _ (distinct_routed ms mgrId clientId)]

/-- No client can forge the fields of the managers. -/
theorem addRoutingForwardRequest_fields (reqMessage request : Str) (mgrId clientId : Int)
    (forwarded : request ∈ addRoutingForwardRequest reqMessage mgrId clientId) :
    (transportRequest request).lookup "RouterId".toList = some (.str (routerId mgrId clientId)) ∧
    (transportRequest request).lookup "origin".toList = some (.str "external") ∧
    (transportRequest request).lookup "handle".toList = none ∧
    (transportRequest request).lookup "gatingId".toList = none ∧
    (transportRequest request).lookup "infoType".toList = none ∧ (∀ k, k ∉ managerSetFields →
      (transportRequest request).lookup k = (mapRequest reqMessage).1.lookup k) ∧
    getStr (transportRequest request) "origin" ≠ some "internal".toList := by
  obtain ⟨ms, rest, parsed, nested, rfl⟩ := forwarded_eq forwarded
  have found := transportRequest_lookup ms mgrId clientId nested
  have origin : (transportRequest (marshalRawMap (routed ms mgrId clientId))).lookup
      "origin".toList = some (.str "external") := by
    rw [found, routed_lookup, if_pos rfl, map_some, rawString_value]
  refine ⟨?_, origin, ?_, ?_, ?_, ?_, ?_⟩
  · rw [found, routed_lookup, if_neg (by decide), if_pos rfl, map_some, rawString_value]
  · rw [found, routed_lookup, if_neg (by decide), if_neg (by decide), if_pos (by decide)]
    rfl
  · rw [found, routed_lookup, if_neg (by decide), if_neg (by decide), if_pos (by decide)]
    rfl
  · rw [found, routed_lookup, if_neg (by decide), if_neg (by decide), if_pos (by decide)]
    rfl
  · intro k own
    have notOrigin : k ≠ "origin" := by
      rintro rfl
      exact own (by decide)
    have notRouterId : k ≠ "RouterId" := by
      rintro rfl
      exact own (by decide)
    rw [found, routed_lookup, if_neg notOrigin, if_neg notRouterId, if_neg own,
      mapRequest_of_parse _ _ _ parsed, toMap_lookup]
  · rw [getStr, origin]
    simp

theorem addRoutingForwardRequest_fields_forged : getStr (transportRequest
      "\x7b\"RouterId\":\"1?2\",\"action\":\"get\",\"origin\":\"external\"\x7d") "origin" ≠
        some "internal".toList :=
  (addRoutingForwardRequest_fields
    "\x7b\"origin\":\"internal\", \"action\":\"get\",\"o\\u0072igin\":\"internal\"\x7d" _ 1 2
    (by decide +kernel)).2.2.2.2.2.2

end Vissr.Transport
