import Vissr.Core.AccessControl
import Vissr.Core.Answers

/-! The file transfer server (`server/vissv2server/wsMgrFT/wsMgrFT.go`). -/

namespace Vissr.Transport.FileTransfer

open Core Json Tree List

/-- `filepath.Base`. -/
def base (path : Str) : Str :=
  if path = [] then "."
  else
    let trimmed := path.rdropWhile (· = '/')
    if trimmed = [] then "/" else trimmed.rtakeWhile (· ≠ '/')

def validateTransferName (name : Str) : Bool := name ≠ [] && base name = name && !contains name ".."

def sanitizeFileName (name : Str) : Bool :=
  !(name = [] || name = "." || name = "..") && !(name.any fun c => c = '/' || c = '\\')

structure OsFile where
  number : Nat
  writable : Bool
  isOpen : Bool := true
  deriving DecidableEq

/-- With the fields the core leaves to this server. -/
structure Entry extends FileTransferCache where
  fileDescriptor : Option OsFile := none
  fileOffset : Nat := 0
  chunkSize : Nat := 0
  messageNo : Nat := 0

def clearUid : Bytes := replicate uidLen 0

def fileTransferCacheSize : Nat := 10

def initFileTransferCache : List Entry := replicate fileTransferCacheSize {}

def Entry.openFile (entry : Entry) : Option OsFile := entry.fileDescriptor.filter OsFile.isOpen

def Entry.ended (entry : Entry) : Entry :=
  { entry with
    uid := clearUid
    fileDescriptor := entry.fileDescriptor.map fun file => { file with isOpen := false } }

variable (cache : List Entry)

def findFileTransferCacheIndex (uid : Bytes) : Option Nat := cache.findIdx? (·.uid = uid)

/-- The first free entry; the uid of the new transfer is not looked at. -/
def getFileTransferCacheIndex : Option Nat := findFileTransferCacheIndex cache clearUid

def populateFTCache (cacheIndex : Nat) (clientData : FileTransferCache)
    (chunkSize : Nat) (fd : OsFile) : List Entry :=
  cache.set cacheIndex { toFileTransferCache := clientData, fileDescriptor := some fd, chunkSize }

/-- What the operating system answers when a transfer begins. -/
structure Os where
  /-- `filepath.Join` -/
  join : Str → Str → Str
  /-- `os.Create` has no error -/
  create : Str → Bool
  /-- `os.Open`, and what `getFileSize` makes of the file -/
  size : Str → Option Int

def maxFileSize : Int := 2 ^ 31 - 1

def maxChunkSize : Int := 2 ^ 20

def chunkSizeOf (fileSize : Int) : Nat := (min (fileSize / 10 + 1) maxChunkSize).toNat

/-- The size of the chunks, which a download does not have. -/
def openTransferFile (os : Os) (clientRequest : FileTransferCache) : Option Nat :=
  let fullPath := os.join clientRequest.path clientRequest.name
  if clientRequest.uploadTransfer then
    (os.size fullPath).bind fun fileSize =>
      if fileSize < 0 ∨ fileSize > maxFileSize then none else some (chunkSizeOf fileSize)
  else if os.create fullPath then some 0
  else none

/-- The status and the table; the file that is opened gets a number. -/
def initFtSession (os : Os) (number : Nat) (cache : List Entry)
    (clientRequest : FileTransferCache) : Int × List Entry :=
  if !validateTransferName clientRequest.name then (1, cache)
  else
    match getFileTransferCacheIndex cache with
    | none => (1, cache)
    | some cacheIndex =>
      if !sanitizeFileName clientRequest.name then (1, cache)
      else
        match openTransferFile os clientRequest with
        | none => (1, cache)
        | some chunkSize =>
          (0, populateFTCache cache cacheIndex clientRequest chunkSize
            { number, writable := !clientRequest.uploadTransfer })

structure ChunkDataCache where
  messageNo : Nat := 0
  lastMessage : Nat := 0
  chunkSize : Bytes := []
  chunk : Bytes := []
  deriving DecidableEq

def maxSessions : Nat := 10

structure Manager where
  fileTransferCache : List Entry := initFileTransferCache
  /-- the message that can be sent again, for each session -/
  chunkDataCache : List ChunkDataCache := replicate maxSessions {}

variable (m : Manager)

def Manager.setEntry (cacheIndex : Nat) (entry : Entry) : Manager :=
  { m with fileTransferCache := m.fileTransferCache.set cacheIndex entry }

inductive ReadResult where
  | data (bytes : Bytes)
  | eof
  | failed

/-- What the operating system answers for the file of a data message. -/
structure Io where
  read : ReadResult := .failed
  /-- `Write` has no error -/
  writes : Bool := true
  /-- the SHA-1 sum of the file, unless `Seek` or `io.Copy` fails -/
  hash : Option Str := none

structure Outcome where
  manager : Manager
  response : Bytes
  /-- the files that are read, written or closed, by number -/
  touched : List Nat := []

def bigEndian (bytes : Bytes) : Nat := bytes.foldl (fun n b => 256 * n + b) 0

/-- `binary.Write` of a `uint32`. -/
def uint32 (n : Nat) : Bytes := [n / 2 ^ 24 % 256, n / 2 ^ 16 % 256, n / 2 ^ 8 % 256, n % 256]

def knownUid (req : Bytes) : Bytes := if req.length ≥ uidLen then req.take uidLen else clearUid

/-- uid(4)|messageNo(1)|status(1) -/
def createDlResponse (uid : Bytes) (messNo status : Nat) : Bytes := uid ++ [messNo, status]

/-- uid(4)|messageNo(1)|chunkSize(4)|lastMessage(1)|chunk(N) -/
def createUlResponse (uid : Bytes) (messNo lastMessage : Nat) (chunkSize chunk : Bytes) : Bytes :=
  uid ++ messNo :: chunkSize ++ lastMessage :: chunk

def dlHeaderSize : Nat := 10

def ulHeaderSize : Nat := 6

/-- A download's message: uid(4)|messageNo(1)|chunkSize(4)|lastMessage(1)|chunk(N) -/
def getDataResponseDl (io : Io) (m : Manager) (req : Bytes) : Outcome :=
  if req.length < dlHeaderSize then
    { manager := m, response := createDlResponse (knownUid req) 0 0xFF }
  else
    let uid := req.take uidLen
    let messageNo := req.getD 4 0
    let chunk := req.drop dlHeaderSize
    match findFileTransferCacheIndex m.fileTransferCache uid with
    | none => { manager := m, response := createDlResponse uid 0 0xFF }
    | some cacheIndex =>
      let entry := m.fileTransferCache.getD cacheIndex {}
      if chunk.length ≠ bigEndian ((req.drop 5).take 4) then
        { manager := m, response := createDlResponse uid messageNo 1 }
      else
        match entry.openFile.filter OsFile.writable with
        -- `Write` has an error for a file that is not open for writing
        | none => { manager := m, response := createDlResponse uid messageNo 1 }
        | some file =>
          let touched := [file.number]
          let written := { entry with fileOffset := entry.fileOffset + chunk.length }
          if !io.writes then
            { manager := m, response := createDlResponse uid messageNo 1, touched }
          else if req.getD 9 0 = 0 then
            { manager := m.setEntry cacheIndex written
              response := createDlResponse uid messageNo 0
              touched }
          else
            { manager := m.setEntry cacheIndex written.ended
              response := if io.hash = some entry.hash then createDlResponse uid messageNo 0
                else createDlResponse uid 0 1
              touched }

def readChunkData (messageNo sessionIndex : Nat) : ChunkDataCache :=
  let cache := m.chunkDataCache.getD sessionIndex {}
  if messageNo ≠ cache.messageNo then {} else cache

def writeChunkData (sessionIndex : Nat) (cache : ChunkDataCache) : Manager :=
  { m with chunkDataCache := m.chunkDataCache.set sessionIndex cache }

/-- As many bytes as were read; the chunk has the size of the buffer. -/
def sendChunk (uid : Bytes) (messageNo lastMessage sessionIndex size : Nat)
    (bytes : Bytes) (touched : List Nat) : Outcome :=
  let cache := ⟨(messageNo + 1) % 256, lastMessage, uint32 bytes.length,
    bytes ++ replicate (size - bytes.length) 0⟩
  { manager := writeChunkData m sessionIndex cache
    response := createUlResponse uid cache.messageNo lastMessage cache.chunkSize cache.chunk
    touched }

/-- `Read` has an error for a file that is not open. -/
def Entry.read (entry : Entry) (io : Io) : ReadResult :=
  if entry.openFile.isSome then io.read else .failed

/-- An upload's message: uid(4)|messageNo(1)|status(1) -/
def getDataResponseUl (io : Io) (m : Manager) (req : Bytes) (sessionIndex : Nat) : Outcome :=
  if req.length < ulHeaderSize then
    { manager := m, response := createUlResponse (knownUid req) 0 0 [0, 0, 0, 0] [] }
  else
    let uid := req.take uidLen
    let messageNo := req.getD 4 0
    let status := req.getD 5 0
    match findFileTransferCacheIndex m.fileTransferCache uid with
    | none => { manager := m, response := createUlResponse uid messageNo 0 [0, 0, 0, 0] [] }
    | some cacheIndex =>
      let entry := m.fileTransferCache.getD cacheIndex {}
      if status = 0 then
        let touched := (entry.openFile.map OsFile.number).toList
        match entry.read io with
        | .failed =>
          { manager := m.setEntry cacheIndex entry.ended
            response := createUlResponse uid messageNo 0 [0, 0, 0, 0]
              (replicate entry.chunkSize 0)
            touched }
        | .eof =>
          sendChunk (m.setEntry cacheIndex entry.ended) uid messageNo 1 sessionIndex
            entry.chunkSize [] touched
        | .data bytes =>
          let read := { entry with fileOffset := entry.fileOffset + bytes.length }
          sendChunk (m.setEntry cacheIndex read) uid messageNo 0 sessionIndex
            entry.chunkSize bytes touched
      else if status = 0xFF then
        { manager := m, response := createUlResponse uid messageNo 0 [0, 0, 0, 0] [] }
      else
        let cache := readChunkData m messageNo sessionIndex
        { manager := m
          response := if cache.chunk.length > 0 then
              createUlResponse uid messageNo cache.lastMessage cache.chunkSize cache.chunk
            else createUlResponse uid messageNo cache.lastMessage [0, 0, 0, 0] [] }

/-- The two kinds of messages are told apart by their length. -/
def getDataResponse (io : Io) (m : Manager) (req : Bytes) (sessionIndex : Nat) : Outcome :=
  if req.length > 6 then getDataResponseDl io m req
  else getDataResponseUl io m req sessionIndex

variable {os : Os} {number : Nat} {cache : List Entry} {d : FileTransferCache}

/-- There is room, and the file has an allowed name and opens. -/
structure Admits (os : Os) (cache : List Entry) (d : FileTransferCache) : Prop where
  valid : validateTransferName d.name = true
  sane : sanitizeFileName d.name = true
  room : ∃ entry ∈ cache, entry.uid = clearUid
  opens : (openTransferFile os d).isSome = true

theorem getFileTransferCacheIndex_eq_none :
    getFileTransferCacheIndex cache = none ↔ ¬ ∃ entry ∈ cache, entry.uid = clearUid := by
  rw [getFileTransferCacheIndex, findFileTransferCacheIndex, findIdx?_eq_none_iff]
  simp

/-- An admitted transfer gets the first free entry, another changes nothing. -/
theorem initFtSession_cases :
    (Admits os cache d ∧ ∃ cacheIndex size, getFileTransferCacheIndex cache = some cacheIndex ∧
      initFtSession os number cache d = (0, populateFTCache cache cacheIndex d size
        { number, writable := !d.uploadTransfer })) ∨
    (¬ Admits os cache d ∧ initFtSession os number cache d = (1, cache)) := by
  unfold initFtSession
  cases valid : validateTransferName d.name with
  | false => exact .inr ⟨fun admits => absurd admits.valid (by simp [valid]), rfl⟩
  | true =>
    cases found : getFileTransferCacheIndex cache with
    | none =>
      exact .inr ⟨fun admits => getFileTransferCacheIndex_eq_none.mp found admits.room, rfl⟩
    | some =>
      have room : ∃ entry ∈ cache, entry.uid = clearUid := by
        by_contra full
        rw [getFileTransferCacheIndex_eq_none.mpr full] at found
        cases found
      cases sane : sanitizeFileName d.name with
      | false => exact .inr ⟨fun admits => absurd admits.sane (by simp [sane]), rfl⟩
      | true =>
        cases opens : openTransferFile os d with
        | none => exact .inr ⟨fun admits => absurd admits.opens (by simp [opens]), rfl⟩
        | some => exact .inl ⟨⟨valid, sane, room, by rw [opens]; rfl⟩, _, _, rfl, rfl⟩

variable (env : Env) (requestMap : Map Value) (nodeType : NodeType)

/-- Of its request for a download, of the response for an upload. -/
def Known (message : Map Value) (uid : Bytes) : Bool → Prop
  | false => ∃ value ∈ requestMap.lookup "value".toList,
      hexDecode (getFileDescriptorData value).2.2 = some uid
  | true => ∃ text, getStr message "value" = some text ∧
      ("\"uid\":\"".toList ++ hexEncode uid ++ "\"\x7d".toList) <:+ text

structure Entry.Carries (entry : Entry) (uid : Bytes) (upload : Bool) : Prop where
  same : entry.uid = uid
  used : uid ≠ clearUid
  direction : entry.uploadTransfer = upload
  isOpen : entry.openFile.isSome = true

def served (os : Os) (cache : List Entry) : Env :=
  { env with fileTransfer := fun d => some (initFtSession os 0 cache d).1 }

def exchanged (os : Os) (cache : List Entry) (effects : List Effect) : List Entry :=
  effects.foldl (fun cache e => match e with
    | .ftChannel d => (initFtSession os 0 cache d).2
    | _ => cache) cache

/-- A response without an error is for a transfer that was begun. -/
def SuccessIsReal (os : Os) (cache : List Entry) : Prop :=
  ∀ answer, (initiateFileTransfer (served env os cache) requestMap nodeType).result = some answer →
    answer.content.lookup "error".toList = none →
      ∃ d, .ftChannel d ∈ (initiateFileTransfer (served env os cache) requestMap nodeType).effects ∧
        Known requestMap answer.content d.uid (decide (actionOf requestMap = "get")) ∧
        ∃ entry ∈ exchanged os cache
            (initiateFileTransfer (served env os cache) requestMap nodeType).effects,
          entry.Carries d.uid (decide (actionOf requestMap = "get"))

variable {env requestMap nodeType}

theorem errorResponse_error (errorIndex : Nat) (description : Str) :
    (errorResponse env requestMap errorIndex description).lookup "error".toList ≠ none := by
  rw [errorResponse, setErrorResponse, lookup_set, if_neg (by decide), lookup_set_same]
  exact Option.some_ne_none _

theorem direction_of_asks (asks : Asks env requestMap nodeType d) :
    decide (actionOf requestMap = "get") = d.uploadTransfer := by
  cases asks with
  | download isSet => simp [isSet]
  | upload isGet => simp [isGet]

theorem known_of_asks (asks : Asks env requestMap nodeType d) :
    Known requestMap (confirmation env requestMap d) d.uid d.uploadTransfer := by
  cases asks with
  | download isSet actuator given named decoded => exact ⟨_, given, decoded⟩
  | upload =>
    refine ⟨_, rfl, ?_⟩
    simp only [append_assoc]
    iterate 4 apply suffix_append_of_suffix
    exact suffix_append "\",".toList _

theorem confirmation_error (d : FileTransferCache) :
    (confirmation env requestMap d).lookup "error".toList = none := by
  rw [confirmation]
  split_ifs <;> rfl

theorem initiateFileTransfer_served (asks : Asks (served env os cache) requestMap nodeType d) :
    initiateFileTransfer (served env os cache) requestMap nodeType = ⟨[.ftChannel d],
      some (answerTo (served env os cache) requestMap d (initFtSession os 0 cache d).1)⟩ := by
  rw [asks.run, askFileTransfer]
  rfl

theorem asks_unique {d' : FileTransferCache} (asks : Asks (served env os cache) requestMap nodeType d)
    (asks' : Asks (served env os cache) requestMap nodeType d') : d' = d := by
  have same := (initiateFileTransfer_served asks).symm.trans (initiateFileTransfer_served asks')
  injection same with effects
  injection effects with same
  injection same with same
  exact same.symm

theorem carries_populate {i size : Nat} (found : getFileTransferCacheIndex cache = some i)
    (used : d.uid ≠ clearUid) :
    ∃ entry ∈ populateFTCache cache i d size { number, writable := !d.uploadTransfer },
      entry.Carries d.uid d.uploadTransfer := by
  obtain ⟨inside, -⟩ := findIdx?_eq_some_iff_getElem.mp found
  exact ⟨_, mem_set inside _, { same := rfl, used, direction := rfl, isOpen := rfl }⟩

/-- A success is real just when an upload is admitted, unless another has its uid, and none under
the uid of a free entry. -/
theorem success_is_real_iff : SuccessIsReal env requestMap nodeType os cache ↔
    ∀ d, Asks (served env os cache) requestMap nodeType d →
      (d.uploadTransfer = true → Admits os cache d ∨ ∃ entry ∈ cache, entry.Carries d.uid true) ∧
        (Admits os cache d → d.uid ≠ clearUid) := by
  rw [SuccessIsReal]
  by_cases asked : ∃ d, Asks (served env os cache) requestMap nodeType d
  · obtain ⟨d, asks⟩ := asked
    have table : exchanged os cache [.ftChannel d] = (initFtSession os 0 cache d).2 := rfl
    have clean := @confirmation_error (served env os cache) requestMap d
    have known := known_of_asks asks
    rw [initiateFileTransfer_served asks, direction_of_asks asks, table, answerTo]
    generalize confirmation (served env os cache) requestMap d = message at clean known ⊢
    obtain ⟨admits, i, size, found, same⟩ | ⟨refused, same⟩ := @initFtSession_cases os 0 cache d
    · rw [same]
      constructor
      · intro real d' asks'
        obtain ⟨d', member, -, entry, -, carries⟩ := real (.own message) (by simp) clean
        cases mem_singleton.mp member
        cases asks_unique asks asks'
        exact ⟨fun _ => .inl admits, fun _ => carries.used⟩
      · intro holds answer answered _
        have own : answer = .own message := by simpa using answered.symm
        rw [own]
        exact ⟨d, mem_singleton_self _, known, carries_populate found ((holds d asks).2 admits)⟩
    · rw [same]
      constructor
      · intro real d' asks'
        cases asks_unique asks asks'
        refine ⟨fun upload => ?_, fun admits => absurd admits refused⟩
        obtain ⟨d', member, -, entry, inside, carries⟩ := real (.own message) (by simp [upload]) clean
        cases mem_singleton.mp member
        exact .inr ⟨entry, inside, upload ▸ carries⟩
      · intro holds answer answered fine
        cases upload : d.uploadTransfer with
        | false =>
          have error : answer = .error (errorResponse (served env os cache) requestMap 7 []) := by
            simpa [upload] using answered.symm
          rw [error] at fine
          exact absurd fine (errorResponse_error 7 [])
        | true =>
          have own : answer = .own message := by simpa [upload] using answered.symm
          rw [own]
          obtain admits | already := (holds d asks).1 upload
          · exact absurd admits refused
          · exact ⟨d, mem_singleton_self _, upload ▸ known, already⟩
  · obtain ⟨errorIndex, description, same⟩ := error_of_not_asks (not_exists.mp asked)
    constructor
    · intro _ d asks
      exact absurd ⟨d, asks⟩ asked
    · rw [same]
      rintro _ answer ⟨⟩ clean
      exact absurd clean (errorResponse_error errorIndex description)

/-- The file does not exist, and the client is told that its upload has begun. -/
theorem missing_file_uploaded : ¬ SuccessIsReal fileEnv (getRequest "Vehicle.UploadFile") .sensor
    ⟨fun _ name => name, fun _ => true, fun _ => none⟩ initFileTransferCache := by
  intro real
  obtain ⟨d, -, -, entry, member, carries⟩ := real (.own _) rfl rfl
  rw [eq_of_mem_replicate (show entry ∈ initFileTransferCache from member)] at carries
  exact absurd carries.isOpen (by decide)

end Vissr.Transport.FileTransfer
