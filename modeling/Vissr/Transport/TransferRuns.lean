import Vissr.Transport.FileTransfer

/-! Runs of the file transfer server, and of a client (`client/client-1.0/filetransfer_client`). -/

namespace Vissr.Transport.FileTransfer

open Core List

inductive FtEvent where
  | ftChannel (os : Os) (number : Nat) (clientRequest : FileTransferCache)
  | clientChan (io : Io) (dataMessage : Bytes) (clientId : Nat)

def serve (m : Manager) : FtEvent → Manager
  | .ftChannel os number d =>
    { m with fileTransferCache := (initFtSession os number m.fileTransferCache d).2 }
  | .clientChan io dataMessage clientId => (getDataResponse io m dataMessage clientId).manager

inductive Entry.Moves (entry : Entry) : Entry → Prop
  | further (offset : Nat) : entry.Moves { entry with fileOffset := offset }
  | ended (offset : Nat) : entry.Moves ({ entry with fileOffset := offset } : Entry).ended

variable {cache : List Entry} {m : Manager} {entry next : Entry} {uid : Bytes} {i : Nat}

/-- A message moves at most the entry with its uid. -/
theorem getDataResponse_table (io : Io) (m : Manager) (req : Bytes) (clientId : Nat) :
    (getDataResponse io m req clientId).manager.fileTransferCache = m.fileTransferCache ∨
      ∃ i next, findFileTransferCacheIndex m.fileTransferCache (req.take uidLen) = some i ∧
        (m.fileTransferCache.getD i {}).Moves next ∧
        (getDataResponse io m req clientId).manager.fileTransferCache =
          m.fileTransferCache.set i next := by
  simp only [getDataResponse, getDataResponseDl, getDataResponseUl]
  repeat' split
  -- a branch leaves the table, or sets the entry that was found
  all_goals first
    | exact .inl rfl
    | exact .inr ⟨_, _, ‹_›, .further _, rfl⟩
    | exact .inr ⟨_, _, ‹_›, .ended _, rfl⟩

/-! ### Open files -/

/-- No free entry has an open file, which the next transfer would lose. -/
def Tidy (cache : List Entry) : Prop :=
  ∀ entry ∈ cache, entry.uid = clearUid → entry.openFile = none

theorem Tidy.set (tidy : Tidy cache) (closed : next.uid = clearUid → next.openFile = none) :
    Tidy (cache.set i next) := by
  intro other member
  rcases mem_or_eq_of_mem_set member with old | rfl
  · exact tidy other old
  · exact closed

theorem Tidy.message (tidy : Tidy m.fileTransferCache) (io : Io) (req : Bytes) (clientId : Nat) :
    Tidy (getDataResponse io m req clientId).manager.fileTransferCache := by
  rcases getDataResponse_table io m req clientId with same | ⟨i, next, -, moves, same⟩
  · rw [same]
    exact tidy
  · rw [same]
    apply tidy.set
    cases moves with
    | further =>
      rw [getD_eq_getElem?_getD]
      cases here : m.fileTransferCache[i]? with
      | none => exact fun _ => rfl
      | some entry => exact tidy entry (mem_of_getElem? here)
    | ended => simp [Entry.openFile, Entry.ended]

theorem tidy_initFtSession (tidy : Tidy cache) (os : Os) (number : Nat)
    (d : FileTransferCache) :
    Tidy (initFtSession os number cache d).2 ↔ (Admits os cache d → d.uid ≠ clearUid) := by
  rcases @initFtSession_cases os number cache d with ⟨admits, i, size, found, same⟩ | ⟨refused, same⟩
  · rw [same]
    constructor
    · intro after _ zero
      cases after _ (mem_set (findIdx?_eq_some_iff_getElem.mp found).1 _) zero
    · exact fun used => tidy.set fun zero => absurd zero (used admits)
  · rw [same]
    exact iff_of_true tidy fun admits => absurd admits refused

def wsMgrFTInit : Machine Manager FtEvent Unit where
  init m := m = {}
  step m event := some (serve m event, ())

/-- No free entry has an open file, unless a transfer is admitted under its uid. -/
theorem free_entries_closed_iff {history : History Manager FtEvent Unit}
    (run : Run wsMgrFTInit anyStep history m) :
    (∀ t ∈ history, Tidy t.after.fileTransferCache) ↔ ∀ t ∈ history, ∀ os number d,
      t.event = .ftChannel os number d → Admits os t.before.fileTransferCache d →
        d.uid ≠ clearUid := by
  refine run.forall_iff (fun m => Tidy m.fileTransferCache) ?_ ?_
  · rintro _ rfl entry member -
    rw [eq_of_mem_replicate member]
    rfl
  · intro t tidy taken
    have after : t.after = serve t.before t.event := congrArg Prod.fst (Option.some.inj taken).symm
    refine ⟨?_, id⟩
    rw [after]
    cases t.event with
    | ftChannel os number d =>
      apply (tidy_initFtSession tidy os number d).trans
      constructor
      · rintro used _ _ _ ⟨⟩
        exact used
      · exact fun all => all os number d rfl
    | clientChan io req clientId =>
      exact iff_of_true (tidy.message io req clientId) (by rintro _ _ _ ⟨⟩)

/-- An upload of one byte is asked for. -/
def admission : FtEvent :=
  .ftChannel ⟨fun _ name => name, fun _ => true, fun _ => some 1⟩ 0
    { uid := [1, 2, 3, 4], uploadTransfer := true, name := "f" }

theorem free_entries_closed_iff_upload : ∃ history m, Run wsMgrFTInit anyStep history m ∧
    history.map (fun t => t.after.fileTransferCache.countP (·.uid = clearUid)) = [10, 9] ∧
      ∀ t ∈ history, Tidy t.after.fileTransferCache := by
  have start : Run wsMgrFTInit anyStep [] {} := .start _ rfl
  have run := (start.fire admission rfl trivial).fire
    (.clientChan { read := .eof } [1, 2, 3, 4, 0, 0] 0) rfl trivial
  refine ⟨_, _, run, by decide, (free_entries_closed_iff run).mpr ?_⟩
  rintro t member os number d same -
  rcases mem_pair.mp member with rfl | rfl
  · cases same
  · cases same
    decide

/-! ### A client's upload -/

def encodeUlRequest (uid : Bytes) (messageNo status : Nat) : Bytes :=
  uid.take uidLen ++ [messageNo, status]

def decodeUlResponse (dataResp : Bytes) : Bytes × Nat × Nat × Nat × Bytes :=
  if dataResp.length < 10 then ([], 0, 1, 0, [])
  else (dataResp.take 4, dataResp.getD 4 0, dataResp.getD 9 0,
    bigEndian ((dataResp.drop 5).take 4), dataResp.drop 10)

/-- What is written; beyond the end of the buffer there is a panic. -/
def writeChunk (dataSize : Nat) (writeBuffer : Bytes) : Option Bytes :=
  if dataSize = writeBuffer.length % 2 ^ 32 then some writeBuffer
  else if dataSize ≤ writeBuffer.length then some (writeBuffer.take dataSize)
  else none

/-- The loop of `uploadFile`, between two messages. -/
structure Client where
  messageNo : Nat := 0xFF
  status : Nat := 0
  file : Bytes := []
  sessionDone : Bool := false

def Client.receive (client : Client) (uid dataResp : Bytes) : Option Client :=
  let (uidResp, mNo, lastMessage, chunkSize, chunk) := decodeUlResponse dataResp
  -- the number is compared with itself
  let next := { client with messageNo := mNo, sessionDone := lastMessage ≠ 0 }
  if uid = uidResp then
    (writeChunk chunkSize chunk).map fun bytes =>
      { next with file := client.file ++ bytes, status := 0 }
  else some { next with status := 1 }

/-- The answer to the next request of a client. -/
def answer (m : Manager) (client : Client) (uid : Bytes) (clientId : Nat) (io : Io) : Outcome :=
  getDataResponse io m (encodeUlRequest uid client.messageNo client.status) clientId

/-- There is an upload under the uid, and its file is open. -/
structure Holds (uid : Bytes) (cache : List Entry) (entry : Entry) : Prop where
  length : uid.length = uidLen
  used : uid ≠ clearUid
  found : ∃ i, findFileTransferCacheIndex cache uid = some i ∧ cache.getD i {} = entry
  isOpen : entry.openFile.isSome = true
  small : entry.chunkSize < 2 ^ 32

/-- Some bytes from the offset on, or that there are no more. -/
inductive ReadsFile (content : Bytes) (entry : Entry) : ReadResult → Prop
  | eof (last : entry.fileOffset = content.length) : ReadsFile content entry .eof
  | data {bytes rest : Bytes} (left : content.drop entry.fileOffset = bytes ++ rest)
      (more : 0 < bytes.length) (fits : bytes.length ≤ entry.chunkSize) :
      ReadsFile content entry (.data bytes)

def FtEvent.Other (uid : Bytes) : FtEvent → Prop
  | .ftChannel _ _ d => d.uid ≠ uid
  | .clientChan _ dataMessage _ => dataMessage.take uidLen ≠ uid

variable (content : Bytes) (clientId : Nat) {client : Client} {n : Nat}

variable (uid) in
/-- After a number of requests, whatever the server does for others. -/
inductive Upload : Nat → Manager → Client → Prop
  | start {m : Manager} {entry : Entry} (holds : Holds uid m.fileTransferCache entry)
      (first : entry.fileOffset = 0) : Upload 0 m {}
  | own {n : Nat} {m : Manager} {client next : Client} {io : Io} (run : Upload n m client)
      (goesOn : client.sessionDone = false)
      (reads : ∀ entry, Holds uid m.fileTransferCache entry → ReadsFile content entry io.read)
      (taken : client.receive uid (answer m client uid clientId io).response = some next) :
      Upload (n + 1) (answer m client uid clientId io).manager next
  | other {n : Nat} {m : Manager} {client : Client} {event : FtEvent} (run : Upload n m client)
      (other : event.Other uid) : Upload n (serve m event) client

theorem uid_of_find (found : findFileTransferCacheIndex cache uid = some i) :
    (cache.getD i {}).uid = uid := by
  rw [findFileTransferCacheIndex, findIdx?_eq_some_iff_getElem] at found
  grind

theorem find_set (found : findFileTransferCacheIndex cache uid = some i) (same : next.uid = uid) :
    findFileTransferCacheIndex (cache.set i next) uid = some i ∧
      (cache.set i next).getD i {} = next := by
  rw [findFileTransferCacheIndex, findIdx?_eq_some_iff_getElem] at found ⊢
  grind

theorem Holds.other (holds : Holds uid m.fileTransferCache entry) {event : FtEvent}
    (other : event.Other uid) : Holds uid (serve m event).fileTransferCache entry := by
  have kept : ∀ {name j next}, findFileTransferCacheIndex m.fileTransferCache name = some j →
      name ≠ uid → next.uid ≠ uid → Holds uid (m.fileTransferCache.set j next) entry := by
    intro name j next named before after
    rcases holds.found with ⟨i, found, here⟩
    have apart : j ≠ i := by
      rintro rfl
      exact before ((uid_of_find named).symm.trans (uid_of_find found))
    refine { holds with found := ⟨i, ?_, ?_⟩ }
    · rw [findFileTransferCacheIndex, findIdx?_eq_some_iff_getElem] at found ⊢
      grind
    · rw [← here, getD_eq_getElem?_getD, getD_eq_getElem?_getD, getElem?_set_ne apart]
  cases event with
  | ftChannel os number d =>
    rcases @initFtSession_cases os number m.fileTransferCache d with
      ⟨-, j, size, free, same⟩ | ⟨-, same⟩
    · rw [serve, same]
      exact kept free holds.used.symm other
    · rw [serve, same]
      exact holds
  | clientChan io req clientId =>
    rcases getDataResponse_table io m req clientId with same | ⟨j, next, named, moves, same⟩
    · rw [serve, same]
      exact holds
    · rw [serve, same]
      apply kept named other
      cases moves with
      | further => exact (uid_of_find named).trans_ne other
      | ended => exact holds.used.symm

theorem decode_create (length : uid.length = uidLen) (messNo lastMessage : Nat) (small : n < 2 ^ 32)
    (chunk : Bytes) : decodeUlResponse (createUlResponse uid messNo lastMessage (uint32 n) chunk) =
      (uid, messNo, lastMessage, n, chunk) := by
  have size : bigEndian (uint32 n) = n := by
    simp only [bigEndian, uint32, foldl_cons, foldl_nil]
    omega
  rcases length_eq_four.mp length with ⟨a, b, c, d, rfl⟩
  rw [decodeUlResponse, if_neg (by simp [createUlResponse, uint32])]
  exact congrArg (fun size => ([a, b, c, d], messNo, lastMessage, size, chunk)) size

/-- The client takes the bytes that were read, not the whole chunk. -/
theorem receive_sendChunk (length : uid.length = uidLen) (client : Client)
    (messageNo lastMessage clientId : Nat) {size : Nat} {bytes : Bytes} (touched : List Nat)
    (fits : bytes.length ≤ size) (small : size < 2 ^ 32) :
    client.receive uid (sendChunk m uid messageNo lastMessage clientId size bytes touched).response =
      some ⟨(messageNo + 1) % 256, 0, client.file ++ bytes, lastMessage ≠ 0⟩ := by
  have filled : (bytes ++ replicate (size - bytes.length) 0).length = size := by
    rw [length_append, length_replicate]
    omega
  have written : writeChunk bytes.length (bytes ++ replicate (size - bytes.length) 0) =
      some bytes := by
    rw [writeChunk, filled, Nat.mod_eq_of_lt small]
    split_ifs with full
    · rw [full, Nat.sub_self, replicate_zero, append_nil]
    · rw [take_left]
  rw [Client.receive, sendChunk, decode_create length _ _ (fits.trans_lt small)]
  simp only [if_true, written, Option.map_some]

variable (uid n) in
/-- The client has what was read, at least a byte for each request. -/
structure Going (m : Manager) (client : Client) (entry : Entry) : Prop where
  holds : Holds uid m.fileTransferCache entry
  goesOn : client.sessionDone = false
  ready : client.status = 0
  asked : n ≤ client.file.length
  file : client.file = content.take entry.fileOffset
  within : entry.fileOffset ≤ content.length

variable (uid n) in
def Fetching (m : Manager) (client : Client) : Prop :=
  (client.sessionDone = true ∧ client.file = content) ∨ ∃ entry, Going uid content n m client entry

variable {content clientId}

theorem Going.own (going : Going uid content n m client entry) {io : Io}
    (reads : ReadsFile content entry io.read) : ∃ next,
      client.receive uid (answer m client uid clientId io).response = some next ∧
      Fetching uid content (n + 1) (answer m client uid clientId io).manager next := by
  rcases going with ⟨⟨length, used, ⟨i, found, here⟩, isOpen, small⟩, -, ready, asked, file, within⟩
  rcases length_eq_four.mp length with ⟨a, b, c, d, rfl⟩
  have text : answer m client [a, b, c, d] clientId io =
      getDataResponseUl io m [a, b, c, d, client.messageNo, 0] clientId := by
    rw [answer, ready]
    rfl
  have long : ¬ [a, b, c, d, client.messageNo, 0].length < ulHeaderSize := Nat.lt_irrefl 6
  have named : findFileTransferCacheIndex m.fileTransferCache
      ([a, b, c, d, client.messageNo, 0].take uidLen) = some i := found
  have answered : entry.read io = io.read := if_pos isOpen
  rw [text, getDataResponseUl, if_neg long]
  simp only [named, here, answered]
  generalize io.read = read at reads
  cases reads with
  | eof last =>
    refine ⟨_, receive_sendChunk length client _ _ _ _ (Nat.zero_le _) small, .inl ⟨rfl, ?_⟩⟩
    rw [append_nil, file, last, take_length]
  | @data bytes rest left more fits =>
    have size := congrArg List.length left
    rw [length_drop, length_append] at size
    have moved := @find_set _ { entry with fileOffset := entry.fileOffset + bytes.length } _ _ found
      (here ▸ uid_of_find found)
    refine ⟨_, receive_sendChunk length client _ _ _ _ fits small, .inr
      ⟨_, ⟨length, used, ⟨i, moved⟩, isOpen, small⟩, rfl, rfl, ?_, ?_, ?_⟩⟩
    · rw [length_append]
      omega
    · rw [take_add, left, take_left, file]
    · show entry.fileOffset + bytes.length ≤ content.length
      omega

theorem Upload.fetching (run : Upload uid content clientId n m client) :
    Fetching uid content n m client := by
  induction run with
  | start holds first =>
    exact .inr ⟨_, holds, rfl, rfl, Nat.zero_le _, by rw [first]; rfl, first ▸ Nat.zero_le _⟩
  | own run goesOn reads taken ih =>
    rcases ih with ⟨done, -⟩ | ⟨entry, going⟩
    · cases done.symm.trans goesOn
    · rcases going.own (reads entry going.holds) with ⟨next, taken', fetching⟩
      cases taken.symm.trans taken'
      exact fetching
  | other run other ih =>
    rcases ih with done | ⟨entry, going⟩
    · exact .inl done
    · exact .inr ⟨entry, { going with holds := going.holds.other other }⟩

/-- The client has a part of the file from its start on, and all after the last message, which comes
after at most a request for each byte and one more. -/
theorem upload_complete (run : Upload uid content clientId n m client) :
    client.file <+: content ∧ (client.sessionDone = true → client.file = content) ∧
      (content.length < n → client.sessionDone = true) ∧
      (client.sessionDone = false → ∀ io,
        (∀ entry, Holds uid m.fileTransferCache entry → ReadsFile content entry io.read) →
          (client.receive uid (answer m client uid clientId io).response).isSome = true) := by
  rcases run.fetching with ⟨done, all⟩ | ⟨entry, going⟩
  · rw [all, done]
    exact ⟨prefix_refl _, fun _ => rfl, fun _ => rfl, by simp⟩
  · rw [going.goesOn]
    refine ⟨?_, by simp, ?_, ?_⟩
    · rw [going.file]
      exact take_prefix _ _
    · intro enough
      have asked := going.asked
      rw [going.file, length_take] at asked
      omega
    · intro _ io reads
      rcases going.own (reads entry going.holds) with ⟨next, taken, -⟩
      exact Option.isSome_of_eq_some taken

theorem upload_complete_byte : ∃ m client, Upload [1, 2, 3, 4] [7] 0 2 m client ∧
    client.sessionDone = true ∧ client.file = [7] := by
  let m : Manager := (answer (serve {} admission) {} [1, 2, 3, 4] 0 { read := .data [7] }).manager
  have first : Upload [1, 2, 3, 4] [7] 0 1 m ⟨0, 0, [7], false⟩ := by
    refine .own (.start ⟨rfl, by decide, ⟨0, rfl, rfl⟩, rfl, by decide⟩ rfl) rfl ?_ rfl
    rintro _ ⟨-, -, ⟨i, found, rfl⟩, -, -⟩
    cases found
    exact .data rfl Nat.one_pos le_rfl
  have second : Upload [1, 2, 3, 4] [7] 0 2
      (answer m ⟨0, 0, [7], false⟩ [1, 2, 3, 4] 0 { read := .eof }).manager
      ⟨1, 0, [7], true⟩ := by
    refine .own first rfl ?_ rfl
    rintro _ ⟨-, -, ⟨i, found, rfl⟩, -, -⟩
    cases found
    exact .eof rfl
  rcases upload_complete second with ⟨-, whole, comes, -⟩
  exact ⟨_, _, second, comes (by decide), whole rfl⟩

end Vissr.Transport.FileTransfer
