import Dfs.NameServer.ClientHandlers
import Dfs.StorageServer.AccessDecisions

/-!
# What strangers learn about the content of a file

The two systems compared here differ in what one file and its checkpoints
contain and in nothing else.  READ and STREAM ask the access cache, EXEC
searches a text for the user's name, and VIEWCHECKPOINT asks nobody; each of
them lets some strangers through, and the theorem says which.
-/

namespace Dfs.NameServer

open Dfs.StorageServer

inductive ContentRequest where
  | read
  | stream
  | viewcheckpoint (tag : Filename)
  | exec
  deriving DecidableEq, Repr

/-- Where the request is sent to. -/
inductive Port where
  | nameServer
  | storageServer (server : Nat)
  deriving DecidableEq, Repr

/-- A request for the content of a file with everything besides the two
servers that its answer depends on. -/
structure ContentCall where
  context : NmContext
  link : Link
  transfer : Transfer
  start : ShellStart
  time : Int
  port : Port
  filename : Filename
  username : Username
  request : ContentRequest
  deriving DecidableEq, Repr

/-- The request as the client port of a storage server reads it. -/
def ContentCall.clientRequest (call : ContentCall) : ClientRequest :=
  match call.request with
  | .read => .read call.filename
  | .stream => .stream call.filename
  | .viewcheckpoint _ => .unknown
  | .exec => .unknown

/-- READ and STREAM are no operations of the name server. -/
def nameServerReply (shell : Text → Text → Text × Int) (sys : System)
    (call : ContentCall) : Response :=
  match call.request with
  | .read => unknownOperation
  | .stream => unknownOperation
  | .viewcheckpoint tag =>
      (handleViewcheckpoint sys call.context call.link call.filename tag
        call.username).2
  | .exec =>
      handleExec shell sys call.context call.link call.transfer call.start
        call.time call.filename call.username

/-- Every message that the user receives. -/
def contentReplies (shell : Text → Text → Text × Int) (sys : System)
    (call : ContentCall) : List DataMessage :=
  match call.port with
  | .nameServer => [(nameServerReply shell sys call).message]
  | .storageServer server =>
      (handleClientConnection (sys.stores server) call.username
        call.context.now call.clientRequest).2

/-- The path leads to a file, not to a folder. -/
def HoldsFile (fs : FileSystem) (path : PathName) : Prop :=
  ∃ place ∈ fs.locate path,
    ¬fs.IsFolder place ∧ (fs.files.get place).isSome = true

/-- A place of the file, of its backup or of one of its checkpoints. -/
def HasContent (s : FileHandler) (filename : Filename) (place : Location) :
    Prop :=
  s.disk.locate (getFilePath s.storage filename) = some place ∨
    s.disk.locate (getUndoPath s.storage filename) = some place ∨
    ∃ tag : Filename,
      s.disk.locate (checkpointPath s.storage filename tag) = some place

/-- The same storage server but for the content of a file, of its copies in
memory and of its checkpoints. -/
structure SameButContent (filename : Filename) (s t : FileHandler) :
    Prop where
  storage : t.storage = s.storage
  folders : t.disk.folders = s.disk.folders
  folderEnd : t.disk.folderEnd = s.disk.folderEnd
  folderSize : t.disk.folderSize = s.disk.folderSize
  files : ∀ place, ¬HasContent s filename place →
    t.disk.files.get place = s.disk.files.get place
  present : ∀ place, (t.disk.files.get place).isSome =
    (s.disk.files.get place).isSome
  fileCache : ∀ other, other ≠ filename →
    t.fileCache.get other = s.fileCache.get other
  metadataList : t.metadataList = s.metadataList
  metadataFile : t.metadataFile = s.metadataFile
  accessCache : t.accessCache = s.accessCache

structure DifferInContent (filename : Filename) (sys other : System) :
    Prop where
  nm : other.nm = sys.nm
  sent : other.sent = sys.sent
  stores : ∀ server,
    SameButContent filename (sys.stores server) (other.stores server)

/-- The replies are the same whatever the content is. -/
def Confidential (shell : Text → Text → Text × Int) (sys : System)
    (call : ContentCall) : Prop :=
  ∀ other, DifferInContent call.filename sys other →
    contentReplies shell other call = contentReplies shell sys call

/-- An entry of the access cache, there already or made from the list of the
file, admits the user. -/
def cacheAdmits (s : FileHandler) (filename : Filename)
    (username : Username) : Bool :=
  match findMetadata s filename with
  | none => false
  | some metadata =>
      lookupAccessCache s filename username 1 ||
        lookupAccessCache
          (buildAccessCacheForFile s filename metadata.accessList) filename
          username 1

/-- The name server takes the user for the owner, or finds the name in the
INFO answer of the storage server. -/
def ExecAdmits (sys : System) (call : ContentCall) (file : FileInfo)
    (server : Nat) : Prop :=
  file.owner = call.username ∨
    call.link = .reliable ∧
      infoAdmits (infoText ((findMetadata (sys.stores server)
        call.filename).getD call.context.leftover)) call.username = true

/-- The first message of the transfer arrives, with the size of the file.  A
size that does not fit an `int` is answered otherwise than a small one. -/
def ContentCall.Executes (call : ContentCall) : Prop :=
  match call.transfer with
  | .refused => False
  | .broken => False
  | .cut received => 0 < received
  | .complete => True

/-- The request of a stranger gets through to the content. -/
def Discloses (sys : System) (call : ContentCall) : Prop :=
  match call.port, call.request with
  | .storageServer server, .read =>
      cacheAdmits (sys.stores server) call.filename call.username = true ∧
        HoldsFile (sys.stores server).disk
          (getFilePath (sys.stores server).storage call.filename)
  | .storageServer server, .stream =>
      cacheAdmits (sys.stores server) call.filename call.username = true ∧
        HoldsFile (sys.stores server).disk
          (getFilePath (sys.stores server).storage call.filename)
  | .nameServer, .viewcheckpoint tag =>
      ∃ file server,
        findRecord sys.nm.toNameServerState call.filename = some file ∧
        onlineServer sys.nm.toNameServerState file.ssId = some server ∧
        call.link = .reliable ∧
        HoldsFile (sys.stores server).disk
          (checkpointPath (sys.stores server).storage call.filename tag)
  | .nameServer, .exec =>
      ∃ file server,
        findRecord sys.nm.toNameServerState call.filename = some file ∧
        findStorageServer sys.nm.toNameServerState file.ssId = some server ∧
        ExecAdmits sys call file server ∧ call.Executes ∧
        HoldsFile (sys.stores server).disk
          (getFilePath (sys.stores server).storage call.filename)
  | _, _ => False

section

variable {s t : FileHandler} {filename : Filename} {username : Username}

theorem SameButContent.refl (filename : Filename) (s : FileHandler) :
    SameButContent filename s s :=
  ⟨rfl, rfl, rfl, rfl, fun _ _ => rfl, fun _ => rfl, fun _ _ => rfl, rfl,
    rfl, rfl⟩

theorem sameButContent_put {place : Location}
    (holds : HasContent s filename place)
    (present : (s.disk.files.get place).isSome = true) (content : Text) :
    SameButContent filename s
      { s with disk := s.disk.put place content } :=
  { SameButContent.refl filename s with
    files := by
      intro other elsewhere
      refine Store.get_set_of_ne _ ?_ content
      rintro rfl
      exact elsewhere holds
    present := by
      intro other
      by_cases same : other = place
      · subst same
        simp [FileSystem.put, present]
      · simp [FileSystem.put, Store.get_set_of_ne _ same] }

theorem openRead_put_of_located {fs : FileSystem} {path : PathName}
    {place : Location} (reached : fs.locate path = some place)
    (file : ¬fs.IsFolder place) (content : Text) :
    (fs.put place content).openRead path =
      some ⟨content, content.length⟩ := by
  rw [FileSystem.openRead, FileSystem.locate_put, reached, Option.bind_some,
    if_neg (mt FileSystem.isFolder_put.mp file)]
  simp [FileSystem.put]

theorem SameButContent.locate (same : SameButContent filename s t)
    (path : PathName) : t.disk.locate path = s.disk.locate path := by
  have folders := same.folders
  generalize t.disk = disk at folders ⊢
  obtain ⟨files, folders', _, _⟩ := disk
  cases folders
  rfl

theorem SameButContent.isFolder (same : SameButContent filename s t)
    (place : Location) :
    t.disk.IsFolder place ↔ s.disk.IsFolder place := by
  rw [FileSystem.IsFolder, same.folders]
  exact Iff.rfl

/-- Folders and missing files are found as before. -/
theorem SameButContent.openRead (same : SameButContent filename s t)
    {path : PathName} (closed : ¬HoldsFile s.disk path) :
    t.disk.openRead path = s.disk.openRead path := by
  rw [FileSystem.openRead, FileSystem.openRead, same.locate]
  cases reached : s.disk.locate path with
  | none => rfl
  | some place =>
      simp only [Option.bind_some, same.isFolder, same.folderEnd]
      by_cases folder : s.disk.IsFolder place
      · rw [if_pos folder, if_pos folder]
      · have absent : s.disk.files.get place = none := by
          by_contra stored
          exact closed ⟨place, reached, folder,
            Option.isSome_iff_ne_none.mpr stored⟩
        have absentToo : t.disk.files.get place = none := by
          have present := same.present place
          rw [absent] at present
          simpa using present
        rw [if_neg folder, if_neg folder, absent, absentToo]

theorem SameButContent.findMetadata (same : SameButContent filename s t) :
    findMetadata t filename = findMetadata s filename := by
  simp only [StorageServer.findMetadata, same.metadataList]

theorem SameButContent.mayRead (same : SameButContent filename s t) :
    MayRead t filename username ↔ MayRead s filename username := by
  simp only [MayRead, same.findMetadata]

theorem SameButContent.cacheAdmits (same : SameButContent filename s t) :
    cacheAdmits t filename username = cacheAdmits s filename username := by
  simp only [NameServer.cacheAdmits, same.findMetadata, lookupAccessCache,
    buildAccessCacheForFile, same.accessCache]

/-- The access cache alone decides about a stranger. -/
theorem hasReadAccessLl_of_stranger
    (stranger : ¬MayRead s filename username) :
    (hasReadAccessLl s filename username).1 =
      cacheAdmits s filename username := by
  unfold hasReadAccessLl hasAccessLl cacheAdmits
  cases record : findMetadata s filename with
  | none => rfl
  | some metadata =>
      have notOwner : metadata.owner ≠ username := fun owner =>
        stranger ⟨metadata, record, .inl owner⟩
      cases lookupAccessCache s filename username 1 with
      | false => simp [notOwner]
      | true => simp [notOwner]

end

/-- The storage server at one position is replaced. -/
def System.replace (sys : System) (server : Nat) (s : FileHandler) : System :=
  { sys with stores := Function.update sys.stores server s }

theorem DifferInContent.refl {filename : Filename} (sys : System) :
    DifferInContent filename sys sys :=
  ⟨rfl, rfl, fun _ => .refl filename _⟩

theorem differInContent_replace {sys : System} {filename : Filename}
    {server : Nat} {s : FileHandler}
    (same : SameButContent filename (sys.stores server) s) :
    DifferInContent filename sys (sys.replace server s) := by
  refine ⟨rfl, rfl, ?_⟩
  intro position
  by_cases here : position = server
  · subst here
    simpa [System.replace] using same
  · simpa [System.replace, here] using SameButContent.refl filename _

/-- Two contents with different replies are enough to learn something. -/
theorem not_confidential_of_two {shell : Text → Text → Text × Int}
    {sys first second : System} {call : ContentCall}
    (firstDiffers : DifferInContent call.filename sys first)
    (secondDiffers : DifferInContent call.filename sys second)
    (separate : contentReplies shell first call ≠
      contentReplies shell second call) :
    ¬Confidential shell sys call := by
  intro confidential
  have firstSame := confidential first firstDiffers
  have secondSame := confidential second secondDiffers
  exact separate (firstSame.trans secondSame.symm)

/-- READ and STREAM: an access check, then the file. -/
def portReplies (operation : Int) (messages : OpenFile → List DataMessage)
    (allowed : Bool) (opened : Option OpenFile) : List DataMessage :=
  if allowed = false then [accessDenied operation]
  else
    match opened with
    | none =>
        [(⟨msgError, operation, errFileNotFound, []⟩ : Response).message]
    | some file => messages file

section

variable {s : FileHandler} {filename : Filename} {username : Username}
  {now : TimeText}

theorem openRead_hasReadAccessLl :
    (hasReadAccessLl s filename username).2.disk.openRead
        (getFilePath (hasReadAccessLl s filename username).2.storage
          filename) =
      s.disk.openRead (getFilePath s.storage filename) := by
  obtain ⟨accessCache, checked⟩ := hasAccessLl_server 1 s filename username
  rw [hasReadAccessLl, checked]

theorem handleReadRequest_messages :
    (handleReadRequest s filename username now).2 =
      portReplies opRead readMessages (hasReadAccessLl s filename username).1
        (s.disk.openRead (getFilePath s.storage filename)) := by
  unfold handleReadRequest portReplies
  rw [← @openRead_hasReadAccessLl s filename username]
  generalize hasReadAccessLl s filename username = decision
  obtain ⟨allowed, t⟩ := decision
  cases allowed with
  | false => rfl
  | true =>
      cases found : t.disk.openRead (getFilePath t.storage filename) <;>
        simp [found]

theorem handleStreamRequest_messages :
    (handleStreamRequest s filename username now).2 =
      portReplies 0 (fun file => streamMessages file.bytes)
        (hasReadAccessLl s filename username).1
        (s.disk.openRead (getFilePath s.storage filename)) := by
  unfold handleStreamRequest portReplies
  rw [← @openRead_hasReadAccessLl s filename username]
  generalize hasReadAccessLl s filename username = decision
  obtain ⟨allowed, t⟩ := decision
  cases allowed with
  | false => rfl
  | true =>
      cases found : t.disk.openRead (getFilePath t.storage filename) <;>
        simp [found]

end

section

variable {shell : Text → Text → Text × Int} {sys : System}
  {call : ContentCall}

/-- The systems in which a file of the path has these contents. -/
theorem differInContent_at {server : Nat} {path : PathName}
    (content : ∀ place, (sys.stores server).disk.locate path = some place →
      HasContent (sys.stores server) call.filename place)
    (holds : HoldsFile (sys.stores server).disk path) :
    ∃ other : Text → System, ∀ content,
      DifferInContent call.filename sys (other content) ∧
      ((other content).stores server).disk.openRead path =
        some ⟨content, content.length⟩ := by
  obtain ⟨place, reached, file, present⟩ := holds
  refine ⟨fun text => sys.replace server
    { sys.stores server with
      disk := (sys.stores server).disk.put place text }, fun text =>
    ⟨differInContent_replace (sameButContent_put (content place reached)
      present text), ?_⟩⟩
  simp only [System.replace, Function.update_self]
  exact openRead_put_of_located reached file text

/-- A request that is answered by `portReplies` tells a stranger nothing
unless the access cache admits him to a file that is there. -/
theorem confidential_port_iff {server : Nat} {operation : Int}
    {messages : OpenFile → List DataMessage}
    (answered : ∀ sys : System, contentReplies shell sys call =
      portReplies operation messages
        (hasReadAccessLl (sys.stores server) call.filename call.username).1
        ((sys.stores server).disk.openRead
          (getFilePath (sys.stores server).storage call.filename)))
    (separate : messages ⟨[], 0⟩ ≠ messages ⟨['a'], 1⟩)
    (stranger : ¬MayRead (sys.stores server) call.filename call.username) :
    Confidential shell sys call ↔
      ¬(cacheAdmits (sys.stores server) call.filename call.username = true ∧
        HoldsFile (sys.stores server).disk
          (getFilePath (sys.stores server).storage call.filename)) := by
  have replies : ∀ other, DifferInContent call.filename sys other →
      contentReplies shell other call = portReplies operation messages
        (cacheAdmits (sys.stores server) call.filename call.username)
        ((other.stores server).disk.openRead
          (getFilePath (other.stores server).storage call.filename)) := by
    intro other differ
    have same := differ.stores server
    rw [answered, hasReadAccessLl_of_stranger (mt same.mayRead.mp stranger),
      same.cacheAdmits]
  have own := answered sys
  rw [hasReadAccessLl_of_stranger stranger] at own
  constructor
  · rintro confidential ⟨admitted, holds⟩
    obtain ⟨changed, differs⟩ := @differInContent_at sys call server _
      (fun _ => .inl) holds
    refine not_confidential_of_two (differs []).1 (differs ['a']).1 ?_
      confidential
    rw [replies _ (differs []).1, replies _ (differs ['a']).1,
      ((differs []).1.stores server).storage,
      ((differs ['a']).1.stores server).storage, (differs []).2,
      (differs ['a']).2]
    simpa [portReplies, admitted] using separate
  · intro closed other differ
    rw [replies other differ, own]
    cases admitted : cacheAdmits (sys.stores server) call.filename
        call.username with
    | false => rfl
    | true =>
        have same := differ.stores server
        rw [same.storage, same.openRead fun holds => closed ⟨admitted, holds⟩]

end

section

theorem flatten_blocks {size fuel : Nat} (positive : 0 < size)
    {content : Text} (enough : content.length ≤ fuel) :
    (blocks size fuel content).flatten = content := by
  induction fuel generalizing content with
  | zero =>
      have empty : content = [] := by simpa using enough
      simp [blocks, empty]
  | succ fuel ih =>
      by_cases empty : content = []
      · simp [blocks, empty]
      · have shorter : (content.drop size).length ≤ fuel := by
          have more := List.length_pos_iff.mpr empty
          rw [List.length_drop]
          omega
        simp [blocks, empty, ih shorter]

/-- The blocks of a file make up the file. -/
theorem flatten_chunks (content : Text) :
    (blocks chunkSize content.length content).flatten = content :=
  flatten_blocks (by decide) le_rfl

theorem length_le_of_mem_blocks {size fuel : Nat} {content block : Text}
    (member : block ∈ blocks size fuel content) : block.length ≤ size := by
  induction fuel generalizing content with
  | zero => simp [blocks] at member
  | succ fuel ih =>
      by_cases empty : content = []
      · simp [blocks, empty] at member
      · simp only [blocks, empty, if_false, List.mem_cons] at member
        rcases member with first | later
        · rw [first]
          exact List.length_take_le _ _
        · exact ih later

def execChunk (block : Text) : DataMessage :=
  ⟨⟨msgResponse, opExecChunk, errSuccess, block⟩, block.length⟩

variable {fileSize : Int} {content : Text}

theorem receiveChunks_done (done : ¬content.length < fileSize)
    (messages : List DataMessage) :
    receiveChunks fileSize content messages = some content := by
  cases messages with
  | nil => rw [receiveChunks, if_neg done]
  | cons message messages => rw [receiveChunks, if_neg done]

theorem receiveChunks_execChunk (missing : content.length < fileSize)
    (block : Text) (messages : List DataMessage) :
    receiveChunks fileSize content (execChunk block :: messages) =
      receiveChunks fileSize (content ++ block) messages := by
  have notStop : (execChunk block).operation ≠ opStop := by
    change opExecChunk ≠ opStop
    decide
  have chunk : (execChunk block).operation = opExecChunk := rfl
  rw [receiveChunks, if_pos missing, if_neg notStop, if_pos chunk]
  simp [execChunk]

/-- The loop collects all blocks when the size is that of all blocks. -/
theorem receiveChunks_complete {pieces : List Text}
    (total : (content.length : Int) + pieces.flatten.length = fileSize)
    (messages : List DataMessage) :
    receiveChunks fileSize content (pieces.map execChunk ++ messages) =
      some (content ++ pieces.flatten) := by
  induction pieces generalizing content with
  | nil =>
      have done : ¬content.length < fileSize := by
        simp only [List.flatten_nil, List.length_nil] at total
        omega
      simpa using receiveChunks_done done _
  | cons block pieces ih =>
      rw [List.flatten_cons, List.length_append] at total
      by_cases missing : content.length < fileSize
      · have rest := @ih (content ++ block) (by
          rw [List.length_append]
          omega)
        rw [List.map_cons, List.cons_append,
          receiveChunks_execChunk missing, rest]
        simp
      · have empty : (block :: pieces).flatten = [] := by
          rw [← List.length_eq_zero_iff, List.flatten_cons,
            List.length_append]
          omega
        rw [receiveChunks_done missing, empty, List.append_nil]

end

section

variable {s : FileHandler} {filename : Filename} {content : Text}

theorem nmExec_of_found
    (opened : s.disk.openRead (getFilePath s.storage filename) =
      some ⟨content, content.length⟩) :
    nmExec s filename =
      ⟨⟨msgResponse, opExec, errSuccess, []⟩, intField content.length⟩ ::
        ((blocks chunkSize content.length content).map execChunk ++
          [stopMessage []]) := by
  rw [nmExec, opened]
  rfl

/-- A complete transfer hands over the file as it is. -/
theorem receiveFile_nmExec
    (opened : s.disk.openRead (getFilePath s.storage filename) =
      some ⟨content, content.length⟩)
    (small : content.length < 2 ^ 31) :
    receiveFile (nmExec s filename) = .ok content := by
  have whole := flatten_chunks content
  have received := @receiveChunks_complete content.length []
    (blocks chunkSize content.length content) (by simp [whole])
    [stopMessage []]
  rw [whole] at received
  have positive : ¬(content.length : Int) < -1 := by omega
  have field : (content.length : Int) % 18446744073709551616 =
      content.length := by omega
  rw [List.nil_append] at received
  simp [nmExec_of_found opened, receiveFile, intField_of_lt small, positive,
    field, received]

/-- No message after the first is needed for an empty file. -/
theorem receiveFile_of_empty (messages : List DataMessage) :
    receiveFile (⟨⟨msgResponse, opExec, errSuccess, []⟩, 0⟩ :: messages) =
      .ok [] := by
  simp [receiveFile, @receiveChunks_done 0 [] (by simp) messages]

/-- The size of a huge file does not fit the field. -/
theorem receiveFile_of_huge {size : Int} (huge : size < -1)
    (messages : List DataMessage) :
    receiveFile (⟨⟨msgResponse, opExec, errSuccess, []⟩, size⟩ ::
        messages) =
      .error (errorResponse opExec errServerError
        "Out of memory".toList) := by
  simp [receiveFile, huge]

end

section

variable {shell : Text → Text → Text × Int} {sys other : System}
  {call : ContentCall}

theorem contentReplies_nameServer (port : call.port = .nameServer) :
    contentReplies shell sys call =
      [(nameServerReply shell sys call).message] := by
  rw [contentReplies, port]

theorem replies_ne_of_response_ne {first second : Response}
    (different : first ≠ second) : [first.message] ≠ [second.message] := by
  intro same
  exact different (congrArg DataMessage.toResponse (List.cons.inj same).1)

theorem viewcheckpoint_answer {file : FileInfo} {server : Nat}
    {tag : Filename} (nm : other.nm = sys.nm)
    (record : findRecord sys.nm.toNameServerState call.filename = some file)
    (online : onlineServer sys.nm.toNameServerState file.ssId = some server)
    (link : call.link = .reliable) :
    (handleViewcheckpoint other call.context call.link call.filename tag
      call.username).2 =
      ⟨(nmViewcheckpoint (other.stores server) call.filename tag).msgType,
        opViewcheckpoint,
        (nmViewcheckpoint (other.stores server) call.filename tag).errorCode,
        CText.terminated (nmViewcheckpoint (other.stores server)
          call.filename tag).data⟩ := by
  simp [handleViewcheckpoint, nm, record, System.forward, online, link,
    System.exchange, handleNmConnection]

/-- Anybody reads a checkpoint that the request comes through to. -/
theorem confidential_viewcheckpoint_iff {tag : Filename}
    (port : call.port = .nameServer)
    (request : call.request = .viewcheckpoint tag) :
    Confidential shell sys call ↔
      ¬∃ file server,
        findRecord sys.nm.toNameServerState call.filename = some file ∧
        onlineServer sys.nm.toNameServerState file.ssId = some server ∧
        call.link = .reliable ∧
        HoldsFile (sys.stores server).disk
          (checkpointPath (sys.stores server).storage call.filename tag) := by
  have replies : ∀ sys, contentReplies shell sys call =
      [(handleViewcheckpoint sys call.context call.link call.filename tag
        call.username).2.message] := by
    intro sys
    rw [contentReplies_nameServer port, nameServerReply, request]
  constructor
  · rintro confidential ⟨file, server, record, online, link, saved⟩
    obtain ⟨changed, differs⟩ := @differInContent_at sys call server _
      (fun _ reached => .inr (.inr ⟨tag, reached⟩)) saved
    refine not_confidential_of_two (differs []).1 (differs ['a']).1 ?_
      confidential
    rw [replies, replies]
    apply replies_ne_of_response_ne
    rw [viewcheckpoint_answer (differs []).1.nm record online link,
      viewcheckpoint_answer (differs ['a']).1.nm record online link]
    intro same
    have read := congrArg Response.data same
    simp [nmViewcheckpoint, FileSystem.read,
      ((differs []).1.stores server).storage,
      ((differs ['a']).1.stores server).storage, (differs []).2,
      (differs ['a']).2, nmResponse, maxDataSize, CText.terminated,
      CText.nul] at read
  · intro closed other differ
    rw [replies, replies]
    unfold handleViewcheckpoint System.forward
    rw [differ.nm]
    cases record : findRecord sys.nm.toNameServerState call.filename with
    | none => rfl
    | some file =>
        cases online : onlineServer sys.nm.toNameServerState file.ssId with
        | none => simp only [online]
        | some server =>
            cases link : call.link with
            | refused => simp only [online, System.exchange]
            | broken => simp only [online, System.exchange]
            | lost buffer => simp only [online, System.exchange]
            | reliable =>
                have same := differ.stores server
                have unread := @SameButContent.openRead _ _ _ same
                  (checkpointPath (sys.stores server).storage
                    call.filename tag)
                  fun saved => closed
                    ⟨file, server, record, online, link, saved⟩
                have answers : nmViewcheckpoint (other.stores server)
                    call.filename tag =
                      nmViewcheckpoint (sys.stores server) call.filename
                        tag := by
                  rw [nmViewcheckpoint, nmViewcheckpoint, same.storage,
                    FileSystem.read, FileSystem.read, unread]
                simp only [online, System.exchange, handleNmConnection,
                  answers]

end

/-- The rest of EXEC once the user is let through. -/
def fetchAndExecute (shell : Text → Text → Text × Int) (call : ContentCall)
    (s : FileHandler) : Response :=
  match requestFile s call.filename call.transfer with
  | .error response => response
  | .ok content =>
      execute shell call.start call.username call.time content

section

variable {shell : Text → Text → Text × Int} {sys other : System}
  {call : ContentCall} {file : FileInfo} {server : Nat}

/-- A record that is missing is answered with the bytes left over. -/
theorem nmInfo_eq (leftover : FileMetadata) (s : FileHandler)
    (filename : Filename) :
    nmInfo leftover s filename =
      ⟨msgResponse, opInfo, errSuccess,
        infoText ((findMetadata s filename).getD leftover)⟩ := by
  unfold nmInfo getFileMetadataLl
  cases findMetadata s filename with
  | none => rfl
  | some metadata => rfl

theorem userHasAccess_iff {ssId : Int}
    (found : findStorageServer sys.nm.toNameServerState ssId = some server) :
    userHasAccess sys call.context call.link call.filename call.username
        ssId = true ↔
      call.link = .reliable ∧
        infoAdmits (infoText ((findMetadata (sys.stores server)
          call.filename).getD call.context.leftover)) call.username =
            true := by
  unfold userHasAccess
  rw [found]
  cases call.link with
  | refused => simp [System.exchange]
  | broken => simp [System.exchange]
  | lost buffer => simp [System.exchange]
  | reliable => simp [System.exchange, handleNmConnection, nmInfo_eq]

theorem DifferInContent.execAdmits
    (differ : DifferInContent call.filename sys other) :
    ExecAdmits other call file server ↔ ExecAdmits sys call file server := by
  simp only [NameServer.ExecAdmits, (differ.stores server).findMetadata]

theorem handleExec_of_admitted
    (record : findRecord sys.nm.toNameServerState call.filename = some file)
    (found : findStorageServer sys.nm.toNameServerState file.ssId =
      some server)
    (admitted : ExecAdmits sys call file server) :
    handleExec shell sys call.context call.link call.transfer call.start
        call.time call.filename call.username =
      fetchAndExecute shell call (sys.stores server) := by
  have passed : ¬(file.owner ≠ call.username ∧
      userHasAccess sys call.context call.link call.filename call.username
        file.ssId = false) := by
    rintro ⟨notOwner, refused⟩
    rcases admitted with owner | informed
    · exact notOwner owner
    · rw [(userHasAccess_iff found).mpr informed] at refused
      cases refused
  unfold handleExec
  rw [record]
  simp only
  rw [if_neg passed, found]
  rfl

theorem handleExec_of_refused
    (record : findRecord sys.nm.toNameServerState call.filename = some file)
    (refused : ∀ server, findStorageServer sys.nm.toNameServerState
      file.ssId = some server → ¬ExecAdmits sys call file server) :
    handleExec shell sys call.context call.link call.transfer call.start
        call.time call.filename call.username =
      if file.owner = call.username then
        errorResponse opExec errServerError
          "Storage server not available".toList
      else
        errorResponse opExec errNoReadAccess
          ("No read access to file '".toList ++ call.filename.chars ++
            "'".toList) := by
  unfold handleExec
  rw [record]
  simp only
  cases found : findStorageServer sys.nm.toNameServerState file.ssId with
  | none =>
      have unknown : userHasAccess sys call.context call.link call.filename
          call.username file.ssId = false := by
        rw [userHasAccess, found]
      by_cases owner : file.owner = call.username
      · simp [owner]
      · simp [owner, unknown]
  | some server =>
      have notAdmitted := refused server found
      have notOwner : file.owner ≠ call.username := fun owner =>
        notAdmitted (.inl owner)
      have unlisted : userHasAccess sys call.context call.link call.filename
          call.username file.ssId = false := by
        rw [Bool.eq_false_iff]
        exact fun listed =>
          notAdmitted (.inr ((userHasAccess_iff found).mp listed))
      simp [notOwner, unlisted]

/-- The file stays unread. -/
theorem fetchAndExecute_congr {s t : FileHandler}
    (same : SameButContent call.filename s t)
    (closed : ¬(call.Executes ∧
      HoldsFile s.disk (getFilePath s.storage call.filename))) :
    fetchAndExecute shell call t = fetchAndExecute shell call s := by
  by_cases executes : call.Executes
  · have unread := same.openRead fun holds => closed ⟨executes, holds⟩
    have messages : nmExec t call.filename = nmExec s call.filename := by
      rw [nmExec, nmExec, same.storage, unread]
    unfold fetchAndExecute
    cases call.transfer with
    | refused => rfl
    | broken => rfl
    | cut received => rw [requestFile, requestFile, messages]
    | complete => rw [requestFile, requestFile, messages]
  · unfold ContentCall.Executes at executes
    unfold fetchAndExecute
    cases transfer : call.transfer with
    | refused => rfl
    | broken => rfl
    | cut received =>
        rw [transfer] at executes
        have none : received = 0 := by simpa using executes
        rw [none]
        rfl
    | complete =>
        rw [transfer] at executes
        exact (executes trivial).elim

end

section

variable {shell : Text → Text → Text × Int} {sys other : System}
  {call : ContentCall}

/-- What is received begins with the first message. -/
theorem requestFile_of_executes (executes : call.Executes) :
    ∃ arrive : List DataMessage → List DataMessage,
      ∀ (s : FileHandler) header messages,
        nmExec s call.filename = header :: messages →
        requestFile s call.filename call.transfer =
          receiveFile (header :: arrive messages) := by
  unfold ContentCall.Executes at executes
  cases transfer : call.transfer with
  | refused => simp [transfer] at executes
  | broken => simp [transfer] at executes
  | cut received =>
      rw [transfer] at executes
      obtain ⟨rest, more⟩ := Nat.exists_eq_succ_of_ne_zero executes.ne'
      refine ⟨List.take rest, fun s header messages sent => ?_⟩
      rw [requestFile, sent, more, List.take_succ_cons]
  | complete =>
      exact ⟨id, fun s header messages sent => by
        rw [requestFile, sent, id_eq]⟩

theorem execute_ne_error (username : Username) (time : Int)
    (start : ShellStart) (script : Text) :
    execute shell start username time script ≠
      errorResponse opExec errServerError "Out of memory".toList := by
  cases start with
  | noFile => simp [execute, errorResponse]
  | noPipe => simp [execute, errorResponse]
  | started =>
      intro same
      have types := congrArg Response.msgType same
      simp only [execute, executionResponse, success, errorResponse] at types
      split at types
      · split at types
        · cases types
        · cases types
      · cases types

/-- Two contents that EXEC answers differently whatever the shell makes of
them: an empty file and one for which no memory is found. -/
theorem fetchAndExecute_separates (executes : call.Executes)
    {s t : FileHandler}
    (empty : s.disk.openRead (getFilePath s.storage call.filename) =
      some ⟨[], 0⟩)
    (huge : t.disk.openRead (getFilePath t.storage call.filename) =
      some ⟨List.replicate (2 ^ 31) 'a',
        (List.replicate (2 ^ 31) 'a').length⟩) :
    fetchAndExecute shell call s ≠ fetchAndExecute shell call t := by
  obtain ⟨arrive, received⟩ := requestFile_of_executes executes
  have first := received s _ _ (nmExec_of_found empty)
  have second := received t _ _ (nmExec_of_found huge)
  rw [List.length_nil, intField_of_lt (by decide), Int.ofNat_zero,
    receiveFile_of_empty] at first
  rw [List.length_replicate, receiveFile_of_huge (by decide)] at second
  unfold fetchAndExecute
  rw [first, second]
  exact execute_ne_error call.username call.time call.start []

theorem contentReplies_exec (port : call.port = .nameServer)
    (request : call.request = .exec) :
    contentReplies shell sys call =
      [(handleExec shell sys call.context call.link call.transfer call.start
        call.time call.filename call.username).message] := by
  rw [contentReplies_nameServer port, nameServerReply, request]

/-- Every related system finds the same record, server and decision. -/
theorem contentReplies_exec_of_admitted (port : call.port = .nameServer)
    (request : call.request = .exec)
    (differ : DifferInContent call.filename sys other) {file : FileInfo}
    {server : Nat}
    (record : findRecord sys.nm.toNameServerState call.filename = some file)
    (found : findStorageServer sys.nm.toNameServerState file.ssId =
      some server)
    (admitted : ExecAdmits sys call file server) :
    contentReplies shell other call =
      [(fetchAndExecute shell call (other.stores server)).message] := by
  rw [← differ.nm] at record found
  rw [contentReplies_exec port request, handleExec_of_admitted record found
    (differ.execAdmits.mpr admitted)]

theorem contentReplies_exec_of_refused (port : call.port = .nameServer)
    (request : call.request = .exec)
    (differ : DifferInContent call.filename sys other) {file : FileInfo}
    (record : findRecord sys.nm.toNameServerState call.filename = some file)
    (refused : ∀ server, findStorageServer sys.nm.toNameServerState
      file.ssId = some server → ¬ExecAdmits sys call file server) :
    contentReplies shell other call = contentReplies shell sys call := by
  have otherRefused : ∀ server, findStorageServer other.nm.toNameServerState
      file.ssId = some server → ¬ExecAdmits other call file server := by
    intro server found admitted
    rw [differ.nm] at found
    exact refused server found (differ.execAdmits.mp admitted)
  rw [contentReplies_exec port request, contentReplies_exec port request,
    handleExec_of_refused record refused,
    handleExec_of_refused (differ.nm ▸ record) otherRefused]

theorem confidential_exec_iff (port : call.port = .nameServer)
    (request : call.request = .exec) :
    Confidential shell sys call ↔
      ¬∃ file server,
        findRecord sys.nm.toNameServerState call.filename = some file ∧
        findStorageServer sys.nm.toNameServerState file.ssId = some server ∧
        ExecAdmits sys call file server ∧ call.Executes ∧
        HoldsFile (sys.stores server).disk
          (getFilePath (sys.stores server).storage call.filename) := by
  constructor
  · rintro confidential
      ⟨file, server, record, found, admitted, executes, holds⟩
    obtain ⟨changed, differs⟩ := @differInContent_at sys call server _
      (fun _ => .inl) holds
    refine not_confidential_of_two (differs []).1
      (differs (List.replicate (2 ^ 31) 'a')).1 ?_ confidential
    rw [contentReplies_exec_of_admitted port request (differs []).1 record
        found admitted,
      contentReplies_exec_of_admitted port request
        (differs (List.replicate (2 ^ 31) 'a')).1 record found admitted]
    apply replies_ne_of_response_ne
    apply fetchAndExecute_separates executes
    · rw [((differs []).1.stores server).storage]
      exact (differs []).2
    · rw [((differs (List.replicate (2 ^ 31) 'a')).1.stores server).storage]
      exact (differs (List.replicate (2 ^ 31) 'a')).2
  · intro closed other differ
    cases record : findRecord sys.nm.toNameServerState call.filename with
    | none =>
        rw [contentReplies_exec port request,
          contentReplies_exec port request, handleExec, handleExec,
          differ.nm, record]
    | some file =>
        by_cases admits : ∃ server,
            findStorageServer sys.nm.toNameServerState file.ssId =
              some server ∧ ExecAdmits sys call file server
        · obtain ⟨server, found, admitted⟩ := admits
          have unread : ¬(call.Executes ∧
              HoldsFile (sys.stores server).disk
                (getFilePath (sys.stores server).storage
                  call.filename)) := by
            rintro ⟨executes, holds⟩
            exact closed
              ⟨file, server, record, found, admitted, executes, holds⟩
          rw [contentReplies_exec_of_admitted port request differ record
              found admitted,
            contentReplies_exec_of_admitted port request (.refl sys) record
              found admitted,
            fetchAndExecute_congr (differ.stores server) unread]
        · apply contentReplies_exec_of_refused port request differ record
          intro server found admitted
          exact admits ⟨server, found, admitted⟩

/-- For two scripts that fit an `int` the command line answers differently. -/
def ShellReads (shell : Text → Text → Text × Int) (command : Text) : Prop :=
  ∃ first second : Text, first.length < 2 ^ 31 ∧ second.length < 2 ^ 31 ∧
    executionResponse (shell command (CText.terminated first)).1
        (shell command (CText.terminated first)).2 ≠
      executionResponse (shell command (CText.terminated second)).1
        (shell command (CText.terminated second)).2

/-- A byte that means itself in a word of a command line. -/
def PlainByte (byte : Char) : Bool :=
  byte.isAlphanum || byte == '_' || byte == '-' || byte == '.' || byte == '/'

/-- `bash` runs the script that it is given, and `echo` prints a word of
letters. -/
def Echoes (shell : Text → Text → Text × Int) : Prop :=
  ∀ path word : Text, (∀ byte ∈ path, PlainByte byte = true) → word ≠ [] →
    (∀ byte ∈ word, byte.isAlpha = true) →
    shell ("bash ".toList ++ path ++ " 2>&1".toList)
      ("echo ".toList ++ word) = (word ++ ['\n'], 0)

theorem plainByte_tempFile {username : Username}
    (plain : ∀ byte ∈ username.chars, PlainByte byte = true) (time : Int) :
    ∀ byte ∈ tempFile username time, PlainByte byte = true := by
  have ends := List.all_eq_true.mp (show ("/tmp/nm_exec_".toList ++
    ".sh".toList).all PlainByte = true by decide)
  intro byte member
  have inside := List.mem_of_mem_take member
  simp only [List.append_assoc, List.mem_append, List.mem_cons] at inside
  rcases inside with front | name | (rfl | number) | back
  · exact ends byte (List.mem_append_left _ front)
  · exact plain byte name
  · rfl
  · by_contra other
    simp only [PlainByte, Char.isAlphanum, Bool.or_eq_true, not_or,
      Bool.not_eq_true, beq_eq_false_iff_ne] at other
    exact not_mem_intText other.1.1.1.1.2 other.1.1.2 time number
  · exact ends byte (List.mem_append_right _ back)

/-- The user's name is a part of the command line.  If it is a plain word, the
script is run under it. -/
theorem shellReads_of_plain (echoes : Echoes shell) {username : Username}
    (plain : ∀ byte ∈ username.chars, PlainByte byte = true) (time : Int) :
    ShellReads shell (execCommand username time) := by
  have fits : (tempFile username time).length ≤ 255 :=
    List.length_take_le 255 _
  have command : execCommand username time =
      "bash ".toList ++ tempFile username time ++ " 2>&1".toList := by
    apply List.take_of_length_le
    simp
    omega
  have prints := fun word => echoes _ word (plainByte_tempFile plain time)
  refine ⟨"echo a".toList, "echo b".toList, by decide, by decide, ?_⟩
  rw [command]
  change executionResponse (shell _ ("echo ".toList ++ ['a'])).1
      (shell _ ("echo ".toList ++ ['a'])).2 ≠
    executionResponse (shell _ ("echo ".toList ++ ['b'])).1
      (shell _ ("echo ".toList ++ ['b'])).2
  rw [prints ['a'] (by simp) (by simp), prints ['b'] (by simp) (by simp)]
  decide

theorem HoldsFile.opened {s t : FileHandler} {filename : Filename}
    (same : SameButContent filename s t)
    (holds : HoldsFile s.disk (getFilePath s.storage filename)) :
    ∃ content, t.disk.openRead (getFilePath t.storage filename) =
      some ⟨content, content.length⟩ := by
  obtain ⟨place, reached, file, present⟩ := holds
  rw [← same.present] at present
  obtain ⟨content, stored⟩ := Option.isSome_iff_exists.mp present
  refine ⟨content, ?_⟩
  rw [same.storage, FileSystem.openRead, same.locate, reached,
    Option.bind_some, if_neg (mt (same.isFolder place).mp file), stored]
  rfl

/-- Among the contents that fit an `int`, a user who is let through learns
something of a complete transfer only if the shell reads the script under his
name. -/
theorem confidential_small_exec_iff (port : call.port = .nameServer)
    (request : call.request = .exec) (transfer : call.transfer = .complete)
    {file : FileInfo} {server : Nat}
    (record : findRecord sys.nm.toNameServerState call.filename = some file)
    (found : findStorageServer sys.nm.toNameServerState file.ssId =
      some server)
    (admitted : ExecAdmits sys call file server)
    (holds : HoldsFile (sys.stores server).disk
      (getFilePath (sys.stores server).storage call.filename)) :
    (∀ first second, DifferInContent call.filename sys first →
      DifferInContent call.filename sys second →
      (∀ other ∈ [first, second], ∀ file ∈ (other.stores server).disk.openRead
        (getFilePath (other.stores server).storage call.filename),
        file.size < 2 ^ 31) →
      contentReplies shell first call = contentReplies shell second call) ↔
      ¬(call.start = .started ∧
        ShellReads shell (execCommand call.username call.time)) := by
  have answered : ∀ other content,
      DifferInContent call.filename sys other →
      (other.stores server).disk.openRead
        (getFilePath (other.stores server).storage call.filename) =
          some ⟨content, content.length⟩ → content.length < 2 ^ 31 →
      contentReplies shell other call =
        [(execute shell call.start call.username call.time
          content).message] := by
    intro other content differ opened small
    rw [contentReplies_exec_of_admitted port request differ record found
      admitted, fetchAndExecute, transfer, requestFile,
      receiveFile_nmExec opened small]
  constructor
  · rintro same ⟨started, first, second, firstSmall, secondSmall, separate⟩
    obtain ⟨changed, differs⟩ := @differInContent_at sys call server _
      (fun _ => .inl) holds
    have opened : ∀ content, ((changed content).stores server).disk.openRead
        (getFilePath ((changed content).stores server).storage
          call.filename) = some ⟨content, content.length⟩ := by
      intro content
      rw [((differs content).1.stores server).storage]
      exact (differs content).2
    have replies := same (changed first) (changed second) (differs first).1
      (differs second).1 (by
        intro other listed file read
        rcases List.mem_pair.mp listed with rfl | rfl
        · rw [opened] at read
          exact (Option.some.inj read) ▸ firstSmall
        · rw [opened] at read
          exact (Option.some.inj read) ▸ secondSmall)
    rw [answered _ _ (differs first).1 (opened first) firstSmall,
      answered _ _ (differs second).1 (opened second) secondSmall,
      started] at replies
    exact replies_ne_of_response_ne separate replies
  · intro idle first second firstDiffers secondDiffers small
    obtain ⟨one, oneOpened⟩ := holds.opened (firstDiffers.stores server)
    obtain ⟨two, twoOpened⟩ := holds.opened (secondDiffers.stores server)
    have oneSmall := small first (by simp) _ oneOpened
    have twoSmall := small second (by simp) _ twoOpened
    rw [answered _ _ firstDiffers oneOpened oneSmall,
      answered _ _ secondDiffers twoOpened twoSmall]
    cases start : call.start with
    | noFile => rfl
    | noPipe => rfl
    | started =>
        by_contra different
        refine idle ⟨start, one, two, oneSmall, twoSmall, fun same => ?_⟩
        apply different
        simp only [execute, same]

/-- A stranger learns nothing about the content of a file exactly if his
request is not let through to it. -/
theorem content_confidential_iff
    (stranger : ∀ server,
      ¬MayRead (sys.stores server) call.filename call.username) :
    Confidential shell sys call ↔ ¬Discloses sys call := by
  unfold Discloses
  cases port : call.port with
  | nameServer =>
      cases request : call.request with
      | read =>
          simp [Confidential, contentReplies, port, nameServerReply, request]
      | stream =>
          simp [Confidential, contentReplies, port, nameServerReply, request]
      | viewcheckpoint tag =>
          exact confidential_viewcheckpoint_iff port request
      | exec => exact confidential_exec_iff port request
  | storageServer server =>
      cases request : call.request with
      | read =>
          have answered : ∀ sys : System, contentReplies shell sys call =
              portReplies opRead readMessages
                (hasReadAccessLl (sys.stores server) call.filename
                  call.username).1
                ((sys.stores server).disk.openRead
                  (getFilePath (sys.stores server).storage
                    call.filename)) := by
            intro sys
            rw [contentReplies, port, ContentCall.clientRequest, request]
            exact handleReadRequest_messages
          exact confidential_port_iff answered (by decide) (stranger server)
      | stream =>
          have answered : ∀ sys : System, contentReplies shell sys call =
              portReplies 0 (fun file => streamMessages file.bytes)
                (hasReadAccessLl (sys.stores server) call.filename
                  call.username).1
                ((sys.stores server).disk.openRead
                  (getFilePath (sys.stores server).storage
                    call.filename)) := by
            intro sys
            rw [contentReplies, port, ContentCall.clientRequest, request]
            exact handleStreamRequest_messages
          exact confidential_port_iff answered (by decide) (stranger server)
      | viewcheckpoint tag =>
          simp [Confidential, contentReplies, port,
            ContentCall.clientRequest, request, handleClientConnection]
      | exec =>
          simp [Confidential, contentReplies, port,
            ContentCall.clientRequest, request, handleClientConnection]

end

private def secretName : Filename := CString.copy 255 "f".toList

private def secretTag : Filename := CString.copy 255 "t".toList

private def secretOwner : Username := CString.copy 63 "alice".toList

private def intruder : Username := CString.copy 63 "mallory".toList

private def secretRecord : FileMetadata :=
  { newMetadata secretName secretOwner (CString.copy 63 []) with
    fileSize := 2
    wordCount := 1
    charCount := 2 }

private def secretPlace : Location :=
  ["ss".toList, "checkpoints".toList, "f.t".toList]

/-- `alice` has written two letters and made a checkpoint of them. -/
private def secretServer : FileHandler :=
  { freshServer with
    disk := ((freshServer.disk.addFolder
      ["ss".toList, "checkpoints".toList]).put
        ["ss".toList, "files".toList, "f".toList] "hi".toList).put
          secretPlace "hi".toList
    metadataList := [secretRecord] }

private def secretSystem : System :=
  let registered := (initSystem freshHosts).register 0
    ⟨1, CString.copy 15 [], 0, 0, CString.copy 4095 []⟩
  { (registered.addFile 0 1 secretName secretOwner).1 with
    stores := fun _ => secretServer }

private def intrusion (port : Port) (request : ContentRequest) :
    ContentCall :=
  { context :=
      { now := CString.copy 63 []
        leftover := secretRecord }
    link := .reliable
    transfer := .complete
    start := .started
    time := 0
    port := port
    filename := secretName
    username := intruder
    request := request }

/-- A shell whose only command is `echo`. -/
private def echoOnly (command script : Text) : Text × Int :=
  if "bash ".toList.isPrefixOf command ∧ "echo ".toList.isPrefixOf script then
    (script.drop 5 ++ ['\n'], 0)
  else ([], 0)

private theorem intruder_mayNotRead (server : Nat) :
    ¬MayRead (secretSystem.stores server) secretName intruder := by
  rintro ⟨metadata, found, granted⟩
  have record : findMetadata (secretSystem.stores server) secretName =
      some secretRecord := by
    change [secretRecord].find? _ = _
    simp [secretRecord, newMetadata]
  rw [record] at found
  cases found
  revert granted
  decide +kernel

theorem content_confidential_denied_read :
    Confidential echoOnly secretSystem
      (intrusion (.storageServer 0) .read) := by
  apply (@content_confidential_iff echoOnly secretSystem
    (intrusion (.storageServer 0) .read) intruder_mayNotRead).mpr
  rintro ⟨admitted, -⟩
  revert admitted
  decide +kernel

/-- Nobody gave `mallory` access, and she reads what the checkpoint
contains. -/
theorem stranger_reads_checkpoint :
    (∀ server, ¬MayRead (secretSystem.stores server) secretName intruder) ∧
    ¬Confidential echoOnly secretSystem
      (intrusion .nameServer (.viewcheckpoint secretTag)) := by
  refine ⟨intruder_mayNotRead, ?_⟩
  intro confidential
  have holds : HasContent (secretSystem.stores 0) secretName secretPlace :=
    .inr (.inr ⟨secretTag, by decide +kernel⟩)
  have same := confidential _ (differInContent_replace
    (sameButContent_put holds (by decide +kernel) "no".toList))
  revert same
  decide +kernel

end Dfs.NameServer
