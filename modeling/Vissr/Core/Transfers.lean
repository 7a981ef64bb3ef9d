import Vissr.Core.Dispatch

/-! What a request for a file transfer comes to. -/

namespace Vissr.Core

open Json Token Tree

variable (env : Env) (requestMap : Map Value) (nodeType : NodeType)

/-- The transfer a request asks for. -/
inductive Asks : FileTransferCache → Prop
  | download {value : Value} {uid : Bytes} (isSet : actionOf requestMap = "set")
      (actuator : nodeType = .actuator) (given : requestMap.lookup "value".toList = some value)
      (named : (getFileDescriptorData value).1 ≠ [])
      (decoded : hexDecode (getFileDescriptorData value).2.2 = some uid)
      (length : uid.length = uidLen) :
      Asks { uid, name := (getFileDescriptorData value).1, hash := (getFileDescriptorData value).2.1,
             path := "./" }
  | upload {reqPath : Str} {uid : Bytes} (isGet : actionOf requestMap = "get")
      (sensor : nodeType = .sensor) (path : getStr requestMap "path" = some reqPath)
      (known : (getInternalFileName reqPath).2 ≠ []) (drawn : env.random = some uid) :
      Asks { uid, name := (getInternalFileName reqPath).2, path := (getInternalFileName reqPath).1,
             hash := env.calculateHash ((getInternalFileName reqPath).1 ++
               (getInternalFileName reqPath).2), uploadTransfer := true }

def confirmation (d : FileTransferCache) : Map Value :=
  let routerId := .str ((getStr requestMap "RouterId").getD [])
  if d.uploadTransfer then
    [("RouterId", routerId), ("action", .str "get"),
      ("path", .str ((getStr requestMap "path").getD [])),
      ("value", .str ("\x7b\"name\": \"" ++ d.name ++ "\", \"hash\":\"" ++ d.hash ++
        "\",\"uid\":\"" ++ hexEncode d.uid ++ "\"\x7d")), ("ts", .str env.rfcTime)]
  else [("RouterId", routerId), ("action", .str "set"), ("ts", .str env.rfcTime)]

/-- Only a download reads the status of the reply. -/
def answerTo (d : FileTransferCache) (status : Int) : Answer :=
  if d.uploadTransfer = false ∧ status ≠ 0 then .error (errorResponse env requestMap 7 [])
  else .own (confirmation env requestMap d)

variable {env requestMap nodeType}

theorem Asks.run {d : FileTransferCache} (asks : Asks env requestMap nodeType d) :
    initiateFileTransfer env requestMap nodeType =
      askFileTransfer env d >>= fun status => pure (answerTo env requestMap d status) := by
  cases asks with
  | @download value uid isSet actuator given named decoded length =>
    have begun : initiateFileTransfer env requestMap nodeType =
        initiateDownload env requestMap value := by
      rw [initiateFileTransfer, if_pos ⟨isSet, actuator⟩, given]
      cases value with
      | null => exact absurd rfl named
      | _ => rfl
    rw [begun, initiateDownload]
    simp only [named, decoded, length, if_false, ne_eq, not_true_eq_false, ← apply_ite pure,
      answerTo, true_and, ite_not]
    rfl
  | @upload reqPath uid isGet sensor path known drawn =>
    have other : ¬ (actionOf requestMap = "set" ∧ nodeType = .actuator) := by
      rw [sensor]
      exact fun both => absurd both.2 (by decide)
    rw [initiateFileTransfer, if_neg other, if_pos ⟨isGet, sensor⟩, path]
    simp only [initiateUpload, known, drawn, if_false, answerTo, confirmation, path]
    rfl

theorem error_of_not_asks (none : ∀ d, ¬ Asks env requestMap nodeType d) :
    ∃ errorIndex description, initiateFileTransfer env requestMap nodeType =
      pure (.error (errorResponse env requestMap errorIndex description)) := by
  unfold initiateFileTransfer
  split_ifs with download upload
  · cases given : requestMap.lookup "value".toList with
    | none => exact ⟨_, _, rfl⟩
    | some value =>
      have refused : ∃ errorIndex description, initiateDownload env requestMap value =
          pure (.error (errorResponse env requestMap errorIndex description)) := by
        rw [initiateDownload]
        simp only
        split_ifs with unnamed
        · exact ⟨_, _, rfl⟩
        · cases decoded : hexDecode (getFileDescriptorData value).2.2 with
          | none => exact ⟨_, _, rfl⟩
          | some =>
            simp only
            split_ifs with length
            · exact ⟨_, _, rfl⟩
            · exact absurd (.download download.1 download.2 given unnamed decoded
                (not_not.mp length)) (none _)
      cases value with
      | null => exact ⟨_, _, rfl⟩
      | _ => exact refused
  · cases path : getStr requestMap "path" with
    | none => exact ⟨_, _, rfl⟩
    | some =>
      simp only [initiateUpload]
      split_ifs with unknown
      · exact ⟨_, _, rfl⟩
      · cases drawn : env.random with
        | none => exact ⟨_, _, rfl⟩
        | some => exact absurd (.upload upload.1 upload.2 path unknown drawn) (none _)
  · exact ⟨_, _, rfl⟩

theorem initiateFileTransfer_cases (env : Env) (request : Map Value) (nodeType : NodeType) :
    (∃ errorIndex description, initiateFileTransfer env request nodeType =
      pure (.error (errorResponse env request errorIndex description))) ∨
    ∃ d, Asks env request nodeType d ∧ initiateFileTransfer env request nodeType =
      askFileTransfer env d >>= fun status => pure (answerTo env request d status) := by
  by_cases asked : ∃ d, Asks env request nodeType d
  · obtain ⟨d, asks⟩ := asked
    exact .inr ⟨d, asks, asks.run⟩
  · exact .inl (error_of_not_asks (not_exists.mp asked))

end Vissr.Core
