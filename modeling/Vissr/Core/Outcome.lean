import Vissr.Core.Transfers

/-! What a request comes to: questions to other servers, and then at most one message. -/

namespace Vissr.Core

open Json Token Tree Act Act.Avoids

def Effect.isMessage : Effect → Bool
  | .serviceDataChan _ => true
  | .backendChan _ => true
  | _ => false

def Effect.isQuestion : Effect → Bool
  | .verifyToken _ _ _ _ _ => true
  | .noScope _ => true
  | _ => false

def OnlyAsks {α : Type} (x : Handler α) : Prop := x.Avoids fun e => e.isQuestion = false

def copiedFields : List Str := ["RouterId", "action", "requestId", "subscriptionId"]

def SameCopied (requestMap requestMap' : Map Value) : Prop :=
  ∀ k ∈ copiedFields, requestMap.lookup k = requestMap'.lookup k

/-- The dispatcher has added to the request, or changed its path. -/
structure Restates (requestMap' requestMap : Map Value) : Prop where
  distinct : Distinct requestMap → Distinct requestMap'
  copied : SameCopied requestMap' requestMap

/-- The request goes on, or is answered. -/
inductive Outcome (env : Env) (requestMap : Map Value) : Effect → Prop
  | forward (message : Map Value) : Outcome env requestMap (.serviceDataChan message)
  | error (errorIndex : Nat) (description : Str) : Outcome env requestMap
      (.backendChan (.error (errorResponse env requestMap errorIndex description)))
  | metadata {fields : List Str} (kept : "RouterId".toList ∉ fields) (metadata : Value) :
      Outcome env requestMap (.backendChan (.own (metadataResponse env fields metadata requestMap)))
  | transfer (d : FileTransferCache) :
      Outcome env requestMap (.backendChan (.own (confirmation env requestMap d)))

def Settles (env : Env) (requestMap : Map Value) (x : Handler Unit) : Prop :=
  x.Concludes Effect.isMessage fun e =>
    ∃ requestMap', Restates requestMap' requestMap ∧ Outcome env requestMap' e

variable {env : Env} {request : Map Value} {α : Type} {x : Handler α}

theorem OnlyAsks.avoids {bad : Effect → Prop} (asks : OnlyAsks x)
    (other : ∀ e, bad e → e.isQuestion = false) : x.Avoids bad :=
  fun e mem isBad => asks e mem (other e isBad)

theorem OnlyAsks.silent (asks : OnlyAsks x) : x.Avoids fun e => e.isMessage = true := by
  apply asks.avoids
  intro e message
  cases e with
  | verifyToken | noScope => cases message
  | _ => rfl

theorem getNoScopeList_asks (tokenContext : Str) : OnlyAsks (getNoScopeList env tokenContext) := by
  apply bind (avoids_emit nofun)
  intro _
  apply bind (avoids_await _)
  intro body
  split <;> exact avoids_pure _

theorem synthesizeJsonTree_asks (path : Str) (depth : Int) (tokenContext : Str)
    (root : Option Node) : OnlyAsks (synthesizeJsonTree env path depth tokenContext root) := by
  apply bind (getNoScopeList_asks tokenContext)
  intro noScopeList
  apply bind (avoids_await _)
  rintro ⟨searchData, validation⟩
  dsimp only
  split
  · exact avoids_pure _
  · split <;> exact avoids_pure _

theorem discoverTree_asks (rootPath : Str) (depth : Int) :
    OnlyAsks (discoverTree env request rootPath depth) := by
  rw [discoverTree]
  split_ifs
  · exact avoids_pure _
  · split
    · exact avoids_pure _
    · apply bind (synthesizeJsonTree_asks _ _ _ _)
      intro tree
      exact avoids_pure _

theorem metadataText_asks (rootPath : Str) (treedepth : Int) (root : Option Node) :
    OnlyAsks (metadataText env request rootPath treedepth root) := by
  rw [metadataText]
  split_ifs
  · exact avoids_pure _
  · exact synthesizeJsonTree_asks _ _ _ _

theorem authorizeAccess_asks (paths : Str) (maxValidation : Int) :
    OnlyAsks (authorizeAccess env request paths maxValidation) := by
  rw [authorizeAccess]
  split_ifs
  · exact avoids_pure _
  · exact avoids_pure _
  · split
    · exact avoids_pure _
    · apply bind (avoids_await _)
      intro answer
      apply bind (avoids_emit nofun)
      intro _
      exact avoids_pure _

variable {requestMap' : Map Value}

theorem Restates.refl (request : Map Value) : Restates request request :=
  ⟨id, fun _ _ => rfl⟩

theorem Restates.trans {requestMap'' : Map Value} (second : Restates requestMap'' requestMap')
    (first : Restates requestMap' request) : Restates requestMap'' request where
  distinct := second.distinct ∘ first.distinct
  copied k copied := (second.copied k copied).trans (first.copied k copied)

theorem restates_set {k : Str} {v : Value} (other : k ∉ copiedFields) :
    Restates (set k v request) request where
  distinct := distinct_set _ _ _
  copied := by
    intro k' copied
    rw [lookup_set, if_neg]
    rintro rfl
    exact other copied

theorem Settles.restate {x : Handler Unit} (settles : Settles env requestMap' x)
    (restates : Restates requestMap' request) : Settles env request x where
  once := settles.once
  known := by
    intro e mem message
    obtain ⟨inner, same, outcome⟩ := settles.known e mem message
    exact ⟨inner, same.trans restates, outcome⟩

variable {e : Effect}

theorem settles_emit (outcome : Outcome env request e) : Settles env request (.emit e) :=
  concludes_emit ⟨request, .refl request, outcome⟩

theorem setErrorAndForward_settles (errorIndex : Nat) (description : Str) :
    Settles env request (setErrorAndForward env request errorIndex description) :=
  settles_emit (.error errorIndex description)

theorem handleDiscoverRequest_settles :
    Settles env request (handleDiscoverRequest env request) := by
  rw [handleDiscoverRequest]
  split
  · exact setErrorAndForward_settles _ _
  · split
    · exact setErrorAndForward_settles _ _
    · split
      · exact setErrorAndForward_settles _ _
      · apply (discoverTree_asks _ _).silent.concludes
        intro tree _
        split
        · exact setErrorAndForward_settles _ _
        · exact settles_emit (.metadata (by decide) _)

theorem answerMetadata_settles (rootPath parameter : Str) (root : Option Node) :
    Settles env request (answerMetadata env request rootPath parameter root) := by
  rw [answerMetadata]
  split
  · exact setErrorAndForward_settles _ _
  · apply (metadataText_asks _ _ _).silent.concludes
    intro metadata _
    split_ifs
    · exact setErrorAndForward_settles _ _
    · exact settles_emit (.metadata (by decide) _)

theorem forwardAuthorized_settles (paths : Str) (maxValidation : Int) (rewritten : Map Value) :
    Settles env request (forwardAuthorized env request paths maxValidation rewritten) := by
  rw [forwardAuthorized, authorizeMultiSignalAccess]
  split_ifs
  · exact settles_emit (.forward _)
  · rw [bind_assoc]
    apply (authorizeAccess_asks _ _).silent.concludes
    intro answer _
    split_ifs
    · exact setErrorAndForward_settles _ _
    · exact settles_emit (.forward _)
  · exact setErrorAndForward_settles _ _

theorem serveFound_settles (filterList : List FilterObject) (found : Found) :
    Settles env request (serveFound env request filterList found) := by
  rw [serveFound]
  split
  · exact concludes_halt
  · split_ifs
    · obtain ⟨_, _, same⟩ | ⟨d, -, same⟩ := initiateFileTransfer_cases env request _
      · rw [same]
        exact setErrorAndForward_settles _ _
      · rw [same, askFileTransfer, bind_assoc, bind_assoc]
        apply concludes (avoids_emit Bool.false_ne_true)
        intro _ _
        apply concludes (avoids_await _)
        intro status _
        rw [pure_bind, answerTo]
        split_ifs
        · exact settles_emit (.error _ _)
        · exact settles_emit (.transfer d)
    · split
      · exact setErrorAndForward_settles _ _
      · exact forwardAuthorized_settles _ _ _

theorem serveSignals_settles (root : Option Node) (rootPath : Str) :
    Settles env request (serveSignals env root request rootPath) := by
  rw [serveSignals]
  split
  · exact setErrorAndForward_settles _ _
  · exact answerMetadata_settles _ _ _
  · split
    · exact concludes_halt
    · exact setErrorAndForward_settles _ _
    · exact serveFound_settles _ _

theorem issueServiceRequest_settles :
    Settles env request (issueServiceRequest env request) := by
  rw [issueServiceRequest]
  split_ifs
  · exact settles_emit (.forward _)
  · split
    · exact setErrorAndForward_settles _ _
    · split_ifs
      · exact serveSignals_settles _ _
      · split
        · exact setErrorAndForward_settles _ _
        · split
          · exact setErrorAndForward_settles _ _
          · exact (serveSignals_settles _ _).restate (restates_set (by decide))

theorem handleElements_settles (dataArray : List Value)
    (resolve : Value → Option (Except Refusal Signal))
    (rewrite : Map Value → List Signal → Map Value) :
    Settles env request (handleElements env request dataArray resolve rewrite) := by
  rw [handleElements]
  split_ifs
  · exact setErrorAndForward_settles _ _
  · split
    · exact concludes_halt
    · exact setErrorAndForward_settles _ _
    · exact forwardAuthorized_settles _ _ _

theorem dispatch_settles : Settles env request (dispatch env request) := by
  rw [dispatch]
  split_ifs
  · exact settles_emit (.forward _)
  · exact handleDiscoverRequest_settles
  · rw [handleMultiSignalRequest]
    split_ifs
    · exact handleElements_settles _ _ _
    · exact handleElements_settles _ _ _
  · exact issueServiceRequest_settles

theorem restates_withDots : Restates (withDots request) request := by
  rw [withDots]
  split
  · exact restates_set (by decide)
  · exact .refl request

theorem serveRequest_settles : Settles env request (serveRequest env request) :=
  dispatch_settles.restate restates_withDots

def Effect.errorContent : Effect → Option (Map Value)
  | .backendChan (.error content) => some content
  | _ => none

def IsErrorOf (env : Env) (requestMap content : Map Value) : Prop :=
  ∃ requestMap' errorIndex description, SameCopied requestMap' requestMap ∧
    content = errorResponse env requestMap' errorIndex description

theorem isMessage_of_errorContent (found : e.errorContent.isSome = true) : e.isMessage = true := by
  cases e with
  | backendChan answer => rfl
  | _ => cases found

theorem serveRequest_error {content : Map Value}
    (mem : e ∈ (serveRequest env request).effects) (found : e.errorContent = some content) :
    IsErrorOf env request content := by
  obtain ⟨requestMap', restates, outcome⟩ := serveRequest_settles.known e mem
    (isMessage_of_errorContent (Option.isSome_iff_exists.mpr ⟨content, found⟩))
  cases outcome with
  | error errorIndex description =>
    cases found
    exact ⟨requestMap', errorIndex, description, restates.copied, rfl⟩
  | _ => cases found

theorem serveRequest_error_once :
    ((serveRequest env request).effects.filterMap Effect.errorContent).length ≤ 1 := by
  rw [List.length_filterMap_eq_countP]
  exact Nat.le_trans (List.countP_mono_left fun e _ => isMessage_of_errorContent)
    serveRequest_settles.once

end Vissr.Core
