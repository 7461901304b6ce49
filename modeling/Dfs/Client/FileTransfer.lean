import Mathlib.Algebra.Ring.Nat
import Mathlib.Algebra.Ring.Int.Defs
import Dfs.Library.ByteStream
import Dfs.NameServer.Confidentiality

/-!
# Files on their way to a client and to the name server

READ sends a small file with its first answer and a large one in chunks; EXEC
always sends chunks.  The loops at both ends stand here as the sources have
them: two that read a file, one that prints what arrives until a STOP, and one
that copies it into a buffer until the announced size is reached.
-/

namespace Dfs.Client

open Dfs.ByteStream Dfs.NameServer Dfs.StorageServer

def chunkMessage (operation : Int) (buffer : Text) : DataMessage :=
  ⟨⟨msgResponse, operation, errSuccess, buffer⟩, intField buffer.length⟩

/-- A `fread` that returns bytes gets ahead in the file. -/
theorem length_drop_take_lt {file : Text} {size : Nat}
    (read : (file.take size).length ≠ 0) :
    (file.drop (file.take size).length).length < file.length := by
  have within := List.length_take_le' size file
  rw [List.length_drop]
  omega

/-- `while (bytes_sent < file_size)`, where `file` is what `fread` has not
returned yet. -/
def sendReadChunks (fileSize bytesSent : Nat) (file : Text) :
    List DataMessage :=
  if bytesSent < fileSize then
    let toRead :=
      if fileSize - bytesSent > chunkSize then chunkSize
      else fileSize - bytesSent
    let buffer := file.take toRead
    if buffer.length = 0 then []
    else
      chunkMessage opReadChunk buffer ::
        sendReadChunks fileSize (bytesSent + buffer.length)
          (file.drop buffer.length)
  else []
termination_by file.length
decreasing_by
  apply length_drop_take_lt
  assumption

/-- `while (fread(...) > 0)`. -/
def sendExecChunks (file : Text) : List DataMessage :=
  let buffer := file.take chunkSize
  if buffer.length = 0 then []
  else
    chunkMessage opExecChunk buffer ::
      sendExecChunks (file.drop buffer.length)
termination_by file.length
decreasing_by
  apply length_drop_take_lt
  assumption

/-- The size up to which READ sends a file with its first answer. -/
def sendsDirectly (fileSize : Nat) : Bool := fileSize ≤ maxDataSize - 100

/-- What READ sends once it has opened a file. -/
def sendRead (content : Text) : List DataMessage :=
  let fileSize := content.length
  if sendsDirectly fileSize then
    [⟨⟨msgResponse, opRead, errSuccess, content.take fileSize⟩,
      intField fileSize⟩]
  else
    ⟨⟨msgResponse, opRead, errSuccess,
        "FILE_SIZE:".toList ++ intText fileSize⟩, intField fileSize⟩ ::
      sendReadChunks fileSize 0 content ++
        [stopMessage "READ_COMPLETE".toList]

/-- What EXEC sends once it has opened a file. -/
def sendExec (content : Text) : List DataMessage :=
  ⟨⟨msgResponse, opExec, errSuccess, []⟩, intField content.length⟩ ::
    sendExecChunks content ++ [stopMessage []]

/-- An `int` converted to `size_t`. -/
def sizeT (value : Int) : Nat := (value % 2 ^ 64).toNat

/-- The first bytes of `data`, which is zero after what was copied there. -/
def dataBytes (message : DataMessage) (size : Nat) : Text :=
  (message.data ++
    List.replicate (maxDataSize - message.data.length) CText.nul).take size

structure Terminal where
  stdout : Text
  stderr : Text
  deriving DecidableEq, Repr

def Terminal.blank : Terminal := ⟨[], []⟩

def Terminal.print (terminal : Terminal) (text : Text) : Terminal :=
  { terminal with stdout := terminal.stdout ++ text }

def Terminal.complain (terminal : Terminal) (text : Text) : Terminal :=
  { terminal with stderr := terminal.stderr ++ text }

def receivingNotice (fileSize : Int) : Text :=
  "[Receiving large file: ".toList ++ intText fileSize ++
    " bytes]\n".toList

def completeNotice (totalReceived : Nat) : Text :=
  "\n[File transfer complete: ".toList ++ intText totalReceived ++
    " bytes received]\n".toList

def progressNotice (totalReceived : Nat) (fileSize : Int) : Text :=
  "\r[Received: ".toList ++ intText totalReceived ++ "/".toList ++
    intText fileSize ++ " bytes (".toList ++
    intText (totalReceived * 100 / sizeT fileSize : Nat) ++ "%)]".toList

/-- The loop of a large file.  No further message means that the connection
ended. -/
def receiveReadChunks (fileSize : Int) :
    List DataMessage → Nat → Nat → Terminal → Terminal
  | [], _, _, terminal =>
      terminal.complain "Failed to receive chunk\n".toList
  | message :: messages, totalReceived, chunkNum, terminal =>
      if message.operation = opStop then
        terminal.print (completeNotice totalReceived)
      else if message.operation = opReadChunk then
        let chunkSize := sizeT message.sentenceIndex
        let terminal := terminal.print (dataBytes message chunkSize)
        let totalReceived := totalReceived + chunkSize
        let chunkNum := chunkNum + 1
        if chunkNum % 10 = 0 then
          receiveReadChunks fileSize messages totalReceived chunkNum
            (terminal.complain (progressNotice totalReceived fileSize))
        else
          receiveReadChunks fileSize messages totalReceived chunkNum terminal
      else
        receiveReadChunks fileSize messages totalReceived chunkNum terminal

/-- The size up to which the client takes a file from the first answer. -/
def arrivesDirectly (response : DataMessage) : Bool :=
  response.sentenceIndex ≤ (maxDataSize : Int) - 100

def readErrorText (filename : Filename) (errorCode : Int) : Text :=
  if errorCode = errNoReadAccess then
    "Error: No read access to file '".toList ++ filename.chars ++
      "'\n".toList
  else if errorCode = errFileNotFound then
    "Error: File '".toList ++ filename.chars ++ "' not found\n".toList
  else "Error: ".toList ++ intText errorCode ++ "\n".toList

/-- `send_read_request` after the request has been sent, with the messages
that arrive. -/
def sendReadRequest (filename : Filename) :
    List DataMessage → Terminal × Int
  | [] =>
      (Terminal.blank.complain "Failed to receive READ response\n".toList,
        -1)
  | response :: messages =>
      if response.msgType = msgError then
        (Terminal.blank.complain
          (readErrorText filename response.errorCode), -1)
      else if arrivesDirectly response then
        (Terminal.blank.print
          (CText.terminated (dataBytes response maxDataSize) ++ ['\n']), 0)
      else
        let terminal :=
          Terminal.blank.print (receivingNotice response.sentenceIndex)
        let terminal :=
          receiveReadChunks response.sentenceIndex messages 0 0 terminal
        (terminal.print ['\n'], 0)

/-- The buffer of `handle_exec` with the copies made into it, each an offset
and a size. -/
structure ScriptBuffer where
  fileContent : Text
  totalReceived : Nat
  copies : List (Nat × Nat)
  deriving DecidableEq, Repr

/-- `memcpy` behind what has been received. -/
def ScriptBuffer.append (buffer : ScriptBuffer) (bytes : Text) :
    ScriptBuffer :=
  { fileContent := overwrite buffer.fileContent buffer.totalReceived bytes
    totalReceived := buffer.totalReceived + bytes.length
    copies := buffer.copies ++ [(buffer.totalReceived, bytes.length)] }

/-- The loop over the chunks, `none` if a message is missing. -/
def copyChunks (fileSize : Int) :
    List DataMessage → ScriptBuffer → Option ScriptBuffer
  | [], buffer =>
      if buffer.totalReceived < sizeT fileSize then none else some buffer
  | message :: messages, buffer =>
      if buffer.totalReceived < sizeT fileSize then
        if message.operation = opStop then some buffer
        else if message.operation = opExecChunk then
          copyChunks fileSize messages
            (buffer.append (dataBytes message (sizeT message.sentenceIndex)))
        else copyChunks fileSize messages buffer
      else some buffer

/-- `handle_exec` after the request has been sent: `memory` is what `malloc`
returns, and the received bytes end with a NUL. -/
def receiveScript (memory : Text) :
    List DataMessage → Except Response ScriptBuffer
  | [] =>
      .error (errorResponse opExec errServerError
        "Failed to receive file content".toList)
  | response :: messages =>
      if response.errorCode ≠ errSuccess then
        .error (errorResponse opExec response.errorCode response.data)
      -- `malloc(file_size + 1)` of a negative size
      else if response.sentenceIndex < -1 then
        .error (errorResponse opExec errServerError "Out of memory".toList)
      else
        match copyChunks response.sentenceIndex messages ⟨memory, 0, []⟩ with
        | none =>
            .error (errorResponse opExec errServerError
              "Failed to receive file chunk".toList)
        | some buffer =>
            .ok { buffer with
              fileContent := overwrite buffer.fileContent
                buffer.totalReceived [CText.nul] }

section

variable {content block : Text}

theorem block_ne_nil {size fuel : Nat} (positive : 0 < size)
    (member : block ∈ blocks size fuel content) : block ≠ [] := by
  induction fuel generalizing content with
  | zero => simp [blocks] at member
  | succ fuel ih =>
      by_cases empty : content = []
      · simp [blocks, empty] at member
      · simp only [blocks, empty, if_false, List.mem_cons] at member
        rcases member with first | later
        · rw [first, Ne, List.take_eq_nil_iff]
          rintro (zero | nothing)
          · exact positive.ne' zero
          · exact empty nothing
        · exact ih later

theorem intField_length (short : block.length ≤ chunkSize) :
    intField block.length = block.length := by
  apply intField_of_lt
  have bound : chunkSize < 2 ^ 31 := by decide
  exact short.trans_lt bound

theorem drop_length_take (size : Nat) (file : Text) :
    file.drop (file.take size).length = file.drop size := by
  rw [List.length_take]
  rcases le_total size file.length with inside | past
  · rw [min_eq_left inside]
  · rw [min_eq_right past, List.drop_length, List.drop_eq_nil_of_le past]

theorem chunkMessages_eq (operation : Int) (content : Text) :
    chunkMessages operation content =
      (blocks chunkSize content.length content).map
        (chunkMessage operation) := by
  apply List.map_congr_left
  intro block member
  rw [chunkMessage, intField_length (length_le_of_mem_blocks member)]

theorem sendExecChunks_eq {fuel : Nat} {file : Text}
    (enough : file.length ≤ fuel) :
    sendExecChunks file =
      (blocks chunkSize fuel file).map (chunkMessage opExecChunk) := by
  induction fuel generalizing file with
  | zero =>
      have empty : file = [] := List.eq_nil_of_length_eq_zero (by omega)
      rw [sendExecChunks]
      simp [empty, blocks]
  | succ fuel ih =>
      by_cases empty : file = []
      · rw [sendExecChunks]
        simp [empty, blocks]
      · have read : (file.take chunkSize).length ≠ 0 := by
          simp [List.length_take, chunkSize, maxDataSize, empty]
        have shorter := length_drop_take_lt read
        have next := @ih (file.drop (file.take chunkSize).length) (by omega)
        rw [sendExecChunks, if_neg read, next, drop_length_take, blocks,
          if_neg empty, List.map_cons]

/-- What is left of the file is what is left to send, so that `to_read` only
matters for the last block. -/
theorem sendReadChunks_eq {fuel bytesSent : Nat} {file : Text}
    (enough : file.length ≤ fuel) :
    sendReadChunks (bytesSent + file.length) bytesSent file =
      (blocks chunkSize fuel file).map (chunkMessage opReadChunk) := by
  induction fuel generalizing file bytesSent with
  | zero =>
      have empty : file = [] := List.eq_nil_of_length_eq_zero (by omega)
      rw [sendReadChunks]
      simp [empty, blocks]
  | succ fuel ih =>
      by_cases empty : file = []
      · rw [sendReadChunks]
        simp [empty, blocks]
      · have inhabited := List.length_pos_iff.mpr empty
        have asked : (if bytesSent + file.length - bytesSent > chunkSize
            then chunkSize else bytesSent + file.length - bytesSent) =
            min chunkSize file.length := by
          split <;> omega
        have taken : file.take (min chunkSize file.length) =
            file.take chunkSize := by
          rw [← List.take_take, List.take_length]
        have read : (file.take chunkSize).length ≠ 0 := by
          simp [List.length_take, chunkSize, maxDataSize, empty]
        have shorter := length_drop_take_lt read
        have next := @ih (bytesSent + (file.take chunkSize).length)
          (file.drop (file.take chunkSize).length) (by omega)
        have whole : bytesSent + (file.take chunkSize).length +
            (file.drop (file.take chunkSize).length).length =
            bytesSent + file.length := by
          have within := List.length_take_le' chunkSize file
          rw [List.length_drop]
          omega
        rw [whole] at next
        rw [sendReadChunks, if_pos (by omega)]
        simp only [asked, taken, read, if_false, next]
        rw [drop_length_take, blocks, if_neg empty, List.map_cons]

theorem sendRead_eq (content : Text) :
    sendRead content = readMessages ⟨content, content.length⟩ := by
  have chunks := @sendReadChunks_eq content.length 0 content le_rfl
  rw [Nat.zero_add] at chunks
  by_cases fits : content.length ≤ chunkSize
  · have direct : sendsDirectly content.length = true := decide_eq_true fits
    rw [sendRead, readMessages, if_pos direct, if_pos fits,
      List.take_length]
  · have chunked : ¬sendsDirectly content.length = true :=
      mt of_decide_eq_true fits
    rw [sendRead, readMessages, if_neg chunked, if_neg fits, chunks,
      chunkMessages_eq]

variable {s : FileHandler} {filename : Filename}

theorem sendExec_eq
    (found : s.disk.openRead (getFilePath s.storage filename) =
      some ⟨content, content.length⟩) :
    sendExec content = nmExec s filename := by
  rw [sendExec, nmExec, found]
  simp only [chunkMessages_eq, sendExecChunks_eq (le_refl content.length)]

end

section

variable {block : Text} {messages : List DataMessage}

theorem sizeT_of_lt {length : Nat} (small : length < 2 ^ 64) :
    sizeT length = length := by
  unfold sizeT
  omega

theorem sizeT_chunkMessage (operation : Int)
    (short : block.length ≤ chunkSize) :
    sizeT (chunkMessage operation block).sentenceIndex = block.length := by
  have bound : chunkSize < 2 ^ 64 := by decide
  rw [chunkMessage, intField_length short, sizeT_of_lt (by omega)]

theorem dataBytes_chunkMessage (operation : Int) (block : Text) :
    dataBytes (chunkMessage operation block) block.length = block :=
  List.take_left

/-- One chunk appears on the terminal, perhaps with a note on the progress. -/
theorem receiveReadChunks_chunk (short : block.length ≤ chunkSize)
    (fileSize : Int) (totalReceived chunkNum : Nat) (terminal : Terminal) :
    ∃ shown : Terminal, shown.stdout = terminal.stdout ++ block ∧
      receiveReadChunks fileSize (chunkMessage opReadChunk block :: messages)
          totalReceived chunkNum terminal =
        receiveReadChunks fileSize messages (totalReceived + block.length)
          (chunkNum + 1) shown := by
  have notStop : (chunkMessage opReadChunk block).operation ≠ opStop := by
    change opReadChunk ≠ opStop
    decide
  have chunk : (chunkMessage opReadChunk block).operation = opReadChunk := rfl
  have bytes := dataBytes_chunkMessage opReadChunk block
  have announced := sizeT_chunkMessage opReadChunk short
  by_cases note : (chunkNum + 1) % 10 = 0
  · refine ⟨(terminal.print block).complain
      (progressNotice (totalReceived + block.length) fileSize), rfl, ?_⟩
    rw [receiveReadChunks, if_neg notStop, if_pos chunk]
    simp only [announced, bytes, note, if_true]
  · refine ⟨terminal.print block, rfl, ?_⟩
    rw [receiveReadChunks, if_neg notStop, if_pos chunk]
    simp only [announced, bytes, note, if_false]

/-- All chunks appear one after the other, then the final note. -/
theorem receiveReadChunks_complete {pieces : List Text}
    (short : ∀ piece ∈ pieces, piece.length ≤ chunkSize) (data : Text)
    (fileSize : Int) (totalReceived chunkNum : Nat) (terminal : Terminal) :
    (receiveReadChunks fileSize
        (pieces.map (chunkMessage opReadChunk) ++ [stopMessage data])
        totalReceived chunkNum terminal).stdout =
      terminal.stdout ++ pieces.flatten ++
        completeNotice (totalReceived + pieces.flatten.length) := by
  induction pieces generalizing totalReceived chunkNum terminal with
  | nil =>
      have stop : (stopMessage data).operation = opStop := rfl
      simp [receiveReadChunks, stop, Terminal.print]
  | cons piece pieces ih =>
      obtain ⟨shown, output, step⟩ := @receiveReadChunks_chunk piece
        (pieces.map (chunkMessage opReadChunk) ++ [stopMessage data])
        (short piece (by simp)) fileSize totalReceived chunkNum terminal
      have rest := ih (fun other member => short other (by simp [member]))
        (totalReceived + piece.length) (chunkNum + 1) shown
      rw [List.map_cons, List.cons_append, step, rest, output]
      simp [Nat.add_assoc]

theorem copyChunks_done {fileSize : Int} {buffer : ScriptBuffer}
    (done : ¬buffer.totalReceived < sizeT fileSize)
    (messages : List DataMessage) :
    copyChunks fileSize messages buffer = some buffer := by
  cases messages with
  | nil => rw [copyChunks, if_neg done]
  | cons message messages => rw [copyChunks, if_neg done]

/-- One chunk is copied behind what is there. -/
theorem copyChunks_chunk (short : block.length ≤ chunkSize) {fileSize : Int}
    {done : Text} (missing : done.length < sizeT fileSize) (rest : Text)
    (copies : List (Nat × Nat)) :
    copyChunks fileSize (chunkMessage opExecChunk block :: messages)
        ⟨done ++ rest, done.length, copies⟩ =
      copyChunks fileSize messages
        ⟨(done ++ block) ++ rest.drop block.length, (done ++ block).length,
          copies ++ [(done.length, block.length)]⟩ := by
  have notStop : (chunkMessage opExecChunk block).operation ≠ opStop := by
    change opExecChunk ≠ opStop
    decide
  have chunk : (chunkMessage opExecChunk block).operation = opExecChunk := rfl
  rw [copyChunks, if_pos missing, if_neg notStop, if_pos chunk,
    sizeT_chunkMessage opExecChunk short,
    dataBytes_chunkMessage opExecChunk block, ScriptBuffer.append,
    overwrite_append, List.length_append]

/-- Chunks that make up the rest of the file are copied one behind the other,
within the size of the file. -/
theorem copyChunks_complete {pieces : List Text}
    (short : ∀ piece ∈ pieces, piece.length ≤ chunkSize)
    (inhabited : ∀ piece ∈ pieces, piece ≠ []) {fileSize : Nat}
    (small : fileSize < 2 ^ 64) (done rest : Text)
    (total : done.length + pieces.flatten.length = fileSize)
    {copies : List (Nat × Nat)}
    (inside : ∀ copy ∈ copies, copy.1 + copy.2 ≤ fileSize) :
    ∃ copied : List (Nat × Nat),
      (∀ copy ∈ copied, copy.1 + copy.2 ≤ fileSize) ∧
      copyChunks fileSize
          (pieces.map (chunkMessage opExecChunk) ++ messages)
          ⟨done ++ rest, done.length, copies⟩ =
        some ⟨done ++ pieces.flatten ++ rest.drop pieces.flatten.length,
          fileSize, copied⟩ := by
  have size := sizeT_of_lt small
  induction pieces generalizing done rest copies with
  | nil =>
      have complete : done.length = fileSize := by simpa using total
      have finished : ¬done.length < sizeT fileSize := by omega
      refine ⟨copies, inside, ?_⟩
      rw [copyChunks_done finished, complete]
      simp
  | cons piece pieces ih =>
      have positive := List.length_pos_iff.mpr (inhabited piece (by simp))
      rw [List.flatten_cons, List.length_append] at total
      have grown : ∀ copy ∈ copies ++ [(done.length, piece.length)],
          copy.1 + copy.2 ≤ fileSize := by
        intro copy member
        rw [List.mem_append, List.mem_singleton] at member
        rcases member with earlier | last
        · exact inside copy earlier
        · rw [last]
          dsimp only
          omega
      obtain ⟨copied, within, copying⟩ := ih
        (fun other member => short other (by simp [member]))
        (fun other member => inhabited other (by simp [member]))
        (done ++ piece) (rest.drop piece.length)
        (by rw [List.length_append]; omega) grown
      refine ⟨copied, within, ?_⟩
      rw [List.map_cons, List.cons_append,
        copyChunks_chunk (short piece (by simp)) (by omega), copying]
      simp

end

/-- The content of a file as the client prints it. -/
def shownFile (content : Text) : Text :=
  if content.length ≤ chunkSize then content ++ ['\n']
  else
    receivingNotice content.length ++ content ++
      completeNotice content.length ++ ['\n']

/-- A message that carries a part of a file. -/
def IsChunk (message : DataMessage) : Prop :=
  message.operation = opReadChunk ∨ message.operation = opExecChunk

/-- Every chunk has bytes, no more than there is room for, and says how
many. -/
def ChunksFit (messages : List DataMessage) : Prop :=
  ∀ message ∈ messages, IsChunk message →
    1 ≤ message.data.length ∧ message.data.length ≤ maxDataSize - 100 ∧
      message.sentenceIndex = message.data.length

/-- The answer to a READ arrives at the terminal of the client. -/
structure ArrivesRead (filename : Filename) (content : Text)
    (reply : List DataMessage) : Prop where
  output : (sendReadRequest filename reply).1.stdout = shownFile content
  succeeds : (sendReadRequest filename reply).2 = 0
  chunks : ChunksFit reply
  form : ∃ first rest, reply = first :: rest ∧
    (rest = [] ↔ sendsDirectly content.length = true) ∧
    (arrivesDirectly first = true ↔ sendsDirectly content.length = true)

/-- The answer to an EXEC arrives in the buffer of the name server. -/
structure ArrivesExec (memory content : Text)
    (script : List DataMessage) : Prop where
  buffer : ∃ copies : List (Nat × Nat),
    receiveScript memory script =
      .ok ⟨content ++ [CText.nul], content.length, copies⟩ ∧
    ∀ copy ∈ copies, copy.1 + copy.2 ≤ content.length
  received : receiveFile script = .ok content
  chunks : ChunksFit script

section

variable {content : Text}

theorem chunksFit_cons {message : DataMessage} {messages : List DataMessage}
    (whole : ¬IsChunk message) (rest : ChunksFit messages) :
    ChunksFit (message :: messages) := by
  intro other member chunk
  rcases List.mem_cons.mp member with same | later
  · rw [same] at chunk
    exact absurd chunk whole
  · exact rest other later chunk

theorem chunksFit_chunkMessages (operation : Int) (content data : Text) :
    ChunksFit (chunkMessages operation content ++ [stopMessage data]) := by
  intro message member chunk
  rcases List.mem_append.mp member with block | stop
  · obtain ⟨piece, among, rfl⟩ := List.mem_map.mp block
    have inhabited := block_ne_nil (by decide) among
    exact ⟨List.length_pos_iff.mpr inhabited,
      length_le_of_mem_blocks among, rfl⟩
  · rw [List.mem_singleton.mp stop] at chunk
    have whole : ¬(opStop = opReadChunk ∨ opStop = opExecChunk) := by decide
    exact absurd chunk whole

theorem chunksFit_readMessages (file : OpenFile) :
    ChunksFit (readMessages file) := by
  have whole : ∀ data size,
      ¬IsChunk ⟨⟨msgResponse, opRead, errSuccess, data⟩, size⟩ := by
    intro data size
    change ¬(opRead = opReadChunk ∨ opRead = opExecChunk)
    decide
  unfold readMessages
  split
  · exact chunksFit_cons (whole _ _) (by simp [ChunksFit])
  · exact chunksFit_cons (whole _ _)
      (chunksFit_chunkMessages opReadChunk file.bytes _)

/-- The two ends compare the same size with the same bound. -/
theorem arrivesDirectly_iff (response : Response) (fileSize : Nat) :
    arrivesDirectly { response with sentenceIndex := fileSize } = true ↔
      sendsDirectly fileSize = true := by
  have bound : maxDataSize = 4096 := rfl
  rw [arrivesDirectly, sendsDirectly, decide_eq_true_iff, decide_eq_true_iff,
    bound]
  dsimp only
  omega

/-- The text of a small file ends where the padding starts. -/
theorem terminated_dataBytes (fits : content.length ≤ chunkSize)
    (nulFree : CText.nul ∉ content) (size : Int) :
    CText.terminated (dataBytes
        ⟨⟨msgResponse, opRead, errSuccess, content⟩, size⟩ maxDataSize) =
      content := by
  have room : chunkSize < maxDataSize := by decide
  obtain ⟨padding, padded⟩ : ∃ padding,
      maxDataSize - content.length = padding + 1 :=
    ⟨maxDataSize - content.length - 1, by omega⟩
  rw [dataBytes, List.take_of_length_le (by
    rw [List.length_append, List.length_replicate]
    dsimp only
    omega), padded, List.replicate_succ]
  exact CText.terminated_append_nul nulFree _

theorem sendReadRequest_direct (filename : Filename)
    (fits : content.length ≤ chunkSize) (nulFree : CText.nul ∉ content) :
    sendReadRequest filename
        [⟨⟨msgResponse, opRead, errSuccess, content⟩, content.length⟩] =
      (Terminal.blank.print (content ++ ['\n']), 0) := by
  have answer : msgResponse ≠ msgError := by decide
  have direct : arrivesDirectly
      ⟨⟨msgResponse, opRead, errSuccess, content⟩, content.length⟩ = true :=
    (arrivesDirectly_iff _ _).mpr (decide_eq_true fits)
  rw [sendReadRequest, if_neg answer, if_pos direct,
    terminated_dataBytes fits nulFree]

theorem sendReadRequest_chunked (filename : Filename)
    (large : ¬content.length ≤ chunkSize) (announced data : Text) :
    (sendReadRequest filename
        (⟨⟨msgResponse, opRead, errSuccess, announced⟩, content.length⟩ ::
          chunkMessages opReadChunk content ++ [stopMessage data])).2 = 0 ∧
      (sendReadRequest filename
        (⟨⟨msgResponse, opRead, errSuccess, announced⟩, content.length⟩ ::
          chunkMessages opReadChunk content ++ [stopMessage data])).1.stdout =
        receivingNotice content.length ++ content ++
          completeNotice content.length ++ ['\n'] := by
  have answer : msgResponse ≠ msgError := by decide
  have chunked : ¬arrivesDirectly
      ⟨⟨msgResponse, opRead, errSuccess, announced⟩, content.length⟩ = true :=
    mt (arrivesDirectly_iff _ _).mp (mt of_decide_eq_true large)
  have whole := flatten_chunks content
  have printed := @receiveReadChunks_complete
    (blocks chunkSize content.length content)
    (fun _ member => length_le_of_mem_blocks member) data content.length 0 0
    (Terminal.blank.print (receivingNotice content.length))
  rw [whole, Nat.zero_add] at printed
  rw [chunkMessages_eq, List.cons_append, sendReadRequest, if_neg answer,
    if_neg chunked]
  refine ⟨rfl, ?_⟩
  simp only [Terminal.print] at printed ⊢
  rw [printed]
  simp [Terminal.blank]

/-- The answer to a READ of a large file. -/
theorem readMessages_chunked (large : ¬content.length ≤ chunkSize)
    (small : content.length < 2 ^ 31) :
    readMessages ⟨content, content.length⟩ =
      ⟨⟨msgResponse, opRead, errSuccess,
        "FILE_SIZE:".toList ++ intText content.length⟩, content.length⟩ ::
      (chunkMessages opReadChunk content ++
        [stopMessage "READ_COMPLETE".toList]) := by
  rw [readMessages, if_neg large, intField_of_lt small]
  rfl

theorem arrivesRead_readMessages (filename : Filename)
    (nulFree : CText.nul ∉ content) (small : content.length < 2 ^ 31) :
    ArrivesRead filename content
      (readMessages ⟨content, content.length⟩) := by
  by_cases fits : content.length ≤ chunkSize
  · have direct : sendsDirectly content.length = true := decide_eq_true fits
    have reply : readMessages ⟨content, content.length⟩ =
        [⟨⟨msgResponse, opRead, errSuccess, content⟩, content.length⟩] := by
      rw [readMessages, if_pos fits, intField_of_lt small]
    have printed := sendReadRequest_direct filename fits nulFree
    rw [← reply] at printed
    refine ⟨?_, ?_, chunksFit_readMessages _, _, _, reply, ?_,
      arrivesDirectly_iff _ _⟩
    · rw [printed, shownFile, if_pos fits]
      rfl
    · rw [printed]
    · simp [direct]
  · have chunked : ¬sendsDirectly content.length = true :=
      mt of_decide_eq_true fits
    have reply := readMessages_chunked fits small
    obtain ⟨succeeds, printed⟩ := sendReadRequest_chunked filename fits
      ("FILE_SIZE:".toList ++ intText content.length)
      "READ_COMPLETE".toList
    rw [List.cons_append, ← reply] at succeeds printed
    refine ⟨?_, succeeds, chunksFit_readMessages _, _, _, reply, ?_,
      arrivesDirectly_iff _ _⟩
    · rw [printed, shownFile, if_neg fits]
    · simp [chunked]

variable {s : FileHandler} {filename : Filename} {memory : Text}

theorem arrivesExec_nmExec
    (found : s.disk.openRead (getFilePath s.storage filename) =
      some ⟨content, content.length⟩)
    (small : content.length < 2 ^ 31)
    (room : memory.length = content.length + 1) :
    ArrivesExec memory content (nmExec s filename) := by
  have whole := flatten_chunks content
  have script : nmExec s filename =
      ⟨⟨msgResponse, opExec, errSuccess, []⟩, content.length⟩ ::
        (chunkMessages opExecChunk content ++ [stopMessage []]) := by
    rw [nmExec, found]
    simp only [intField_of_lt small, List.cons_append]
  obtain ⟨copies, inside, copying⟩ := @copyChunks_complete [stopMessage []]
    (blocks chunkSize content.length content)
    (fun _ member => length_le_of_mem_blocks member)
    (fun _ member => block_ne_nil (by decide) member) content.length
    (by omega) [] memory (by rw [whole, List.length_nil, Nat.zero_add]) []
    (by simp)
  rw [whole, List.nil_append, List.nil_append, List.length_nil,
    ← chunkMessages_eq] at copying
  -- one byte is left for the NUL
  have last : (memory.drop content.length).length = 1 := by
    rw [List.length_drop]
    omega
  constructor
  · refine ⟨copies, ?_, inside⟩
    rw [script, receiveScript, if_neg (by simp), if_neg (by dsimp only; omega),
      copying]
    dsimp only
    rw [overwrite_append, List.drop_eq_nil_of_le (by simp [last]),
      List.append_nil]
  · exact receiveFile_nmExec found small
  · rw [script]
    apply chunksFit_cons
    · change ¬(opExec = opReadChunk ∨ opExec = opExecChunk)
      decide
    · exact chunksFit_chunkMessages opExecChunk content []

/-- What the loops of the storage server send is what the client prints and
what the name server executes. -/
theorem file_transfer_identity {username : Username} {now : TimeText}
    (allowed : (hasReadAccessLl s filename username).1 = true)
    (found : s.disk.openRead (getFilePath s.storage filename) =
      some ⟨content, content.length⟩)
    (nulFree : CText.nul ∉ content) (small : content.length < 2 ^ 31)
    (room : memory.length = content.length + 1) :
    (handleReadRequest s filename username now).2 = sendRead content ∧
      nmExec s filename = sendExec content ∧
      ArrivesRead filename content
        (handleReadRequest s filename username now).2 ∧
      ArrivesExec memory content (nmExec s filename) := by
  have reply : (handleReadRequest s filename username now).2 =
      readMessages ⟨content, content.length⟩ := by
    rw [handleReadRequest_messages, allowed, found]
    rfl
  rw [reply]
  exact ⟨(sendRead_eq content).symm, (sendExec_eq found).symm,
    arrivesRead_readMessages filename nulFree small,
    arrivesExec_nmExec found small room⟩

end

private def longName : Filename := CString.copy 255 "long.txt".toList

private def longOwner : Username := CString.copy 63 "alice".toList

/-- Four bytes more than fit into the first answer. -/
private def longContent : Text := List.replicate 4000 'a'

private def longServer : FileHandler :=
  { freshServer with
    disk := freshServer.disk.put
      ["ss".toList, "files".toList, "long.txt".toList] longContent
    metadataList := [newMetadata longName longOwner (CString.copy 63 [])] }

theorem file_transfer_identity_two_chunks :
    (handleReadRequest longServer longName longOwner
        (CString.copy 63 [])).2 = sendRead longContent ∧
      nmExec longServer longName = sendExec longContent ∧
      ArrivesRead longName longContent
        (handleReadRequest longServer longName longOwner
          (CString.copy 63 [])).2 ∧
      ArrivesExec (List.replicate 4001 'x') longContent
        (nmExec longServer longName) := by
  apply file_transfer_identity
  · decide +kernel
  · exact openRead_put_of_located (by decide +kernel) (by decide +kernel) _
  · intro member
    exact absurd (List.eq_of_mem_replicate member) (by decide)
  · rw [longContent, List.length_replicate]
    decide
  · rw [longContent, List.length_replicate, List.length_replicate]

end Dfs.Client
