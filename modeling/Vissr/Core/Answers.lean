import Vissr.Core.Outcome
import Vissr.ErrorResponse

/-! What the core answers itself. Each answer carries the route of its request. -/

namespace Vissr.Core

open Json Token Tree

def Answer.content : Answer → Map Value
  | .own message => message
  | .error content => content

/-- It has a `RouterId` and a time stamp. -/
structure Addressed (route : Str) (content : Map Value) : Prop where
  distinct : Distinct content
  routerId : content.lookup "RouterId".toList = some (.str route)
  ts : (content.lookup "ts".toList).isSome = true

variable {env : Env} {request : Map Value} {route : Str}

theorem distinct_copyField {reqMap errRespMap : Map Value} (k : Str)
    (distinct : Distinct errRespMap) : Distinct (copyField reqMap k errRespMap) := by
  rw [copyField]
  split
  · exact distinct
  · exact distinct
  · exact distinct_set _ _ _ distinct

theorem distinct_setErrorResponse {rfcTime : Str} {reqMap errRespMap : Map Value} {index : Nat}
    {message : Str} (distinct : Distinct errRespMap) :
    Distinct (setErrorResponse rfcTime reqMap errRespMap index message) := by
  rw [setErrorResponse]
  apply distinct_set
  apply distinct_set
  apply distinct_copyField
  split_ifs
  · apply distinct_delete
    exact distinct_copyField _ (distinct_copyField _ distinct)
  · apply distinct_copyField
    exact distinct_copyField _ (distinct_copyField _ distinct)

theorem errorResponse_addressed (distinct : Distinct env.errorResponseMap)
    (routed : request.lookup "RouterId".toList = some (.str route)) (errorIndex : Nat)
    (description : Str) :
    Addressed route (errorResponse env request errorIndex description) where
  distinct := distinct_setErrorResponse distinct
  routerId := by
    have given : field request "RouterId" = some (.str route) := by
      rw [field, routed]
      rfl
    rw [errorResponse, lookup_setErrorResponse, if_neg (by decide), if_neg (by decide),
      if_neg (by decide), if_pos (by decide), given]
    rfl
  ts := by
    rw [errorResponse, lookup_setErrorResponse, if_pos rfl]
    rfl

theorem metadataResponse_addressed {fields : List Str} (distinct : Distinct request)
    (routed : request.lookup "RouterId".toList = some (.str route))
    (kept : "RouterId".toList ∉ fields) (metadata : Value) :
    Addressed route (metadataResponse env fields metadata request) where
  distinct := by
    apply distinct_set
    apply distinct_set
    exact distinct_deleteAll _ _ distinct
  routerId := by
    rw [metadataResponse, lookup_set, if_neg (by decide), lookup_set, if_neg (by decide),
      lookup_deleteAll, if_neg kept]
    exact routed
  ts := by
    rw [metadataResponse, lookup_set, if_neg (by decide), lookup_set_same]
    rfl

theorem confirmation_addressed
    (routed : request.lookup "RouterId".toList = some (.str route)) (d : FileTransferCache) :
    Addressed route (confirmation env request d) := by
  have route : (getStr request "RouterId").getD [] = route := by
    rw [getStr, routed]
    rfl
  rw [confirmation, route]
  split_ifs
  · have keys : ["RouterId".toList, "action".toList, "path".toList, "value".toList,
        "ts".toList].Nodup := by decide
    exact ⟨keys, rfl, rfl⟩
  · have keys : ["RouterId".toList, "action".toList, "ts".toList].Nodup := by decide
    exact ⟨keys, rfl, rfl⟩

structure Routed (env : Env) (route : Str) (requestMap : Map Value) : Prop where
  errors : Distinct env.errorResponseMap
  distinct : Distinct requestMap
  routerId : requestMap.lookup "RouterId".toList = some (.str route)

theorem serveRequest_addressed (routed : Routed env route request) {answer : Answer}
    (sent : .backendChan answer ∈ (serveRequest env request).effects) :
    Addressed route answer.content := by
  obtain ⟨requestMap', restates, outcome⟩ := serveRequest_settles.known _ sent rfl
  have routerId : requestMap'.lookup "RouterId".toList = some (.str route) :=
    (restates.copied _ (by decide)).trans routed.routerId
  cases outcome with
  | error errorIndex description =>
    exact errorResponse_addressed routed.errors routerId errorIndex description
  | metadata kept metadata =>
    exact metadataResponse_addressed (restates.distinct routed.distinct) routerId kept metadata
  | transfer d => exact confirmation_addressed routerId d

end Vissr.Core
