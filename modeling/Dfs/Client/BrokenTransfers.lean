import Dfs.Client.FileTransfer

/-!
# Transfers that break off

What arrives when the connection ends somewhere in the answer to a READ, a
STREAM or an EXEC: the client shows what came before the end and says so, and
the name server executes a script as a whole or not at all.
-/

namespace Dfs.Client

open Dfs.ByteStream Dfs.NameServer Dfs.StorageServer

def streamErrorText (filename : Filename) (errorCode : Int) : Text :=
  if errorCode = errNoReadAccess then
    "\nError: No read access to file '".toList ++ filename.chars ++
      "'\n".toList
  else if errorCode = errFileNotFound then
    "\nError: File '".toList ++ filename.chars ++ "' not found\n".toList
  else "\nError: ".toList ++ intText errorCode ++ "\n".toList

/-- The loop of `send_stream_request`.  No further message means that the
connection ended. -/
def receiveWords (filename : Filename) :
    List DataMessage → Terminal → Terminal × Int
  | [], terminal =>
      (terminal.complain "\nError: Storage Server disconnected\n".toList, -1)
  | message :: messages, terminal =>
      if message.msgType = msgError then
        (terminal.complain (streamErrorText filename message.errorCode), -1)
      else if message.operation = opStop then
        (terminal.print "\n--- End of stream ---\n".toList, 0)
      else
        receiveWords filename messages
          (terminal.print (CText.terminated message.data ++ [' ']))

def streamingNotice (filename : Filename) : Text :=
  "\n--- Streaming '".toList ++ filename.chars ++ "' ---\n".toList

/-- `send_stream_request` after the request has been sent, with the messages
that arrive. -/
def sendStreamRequest (filename : Filename) (messages : List DataMessage) :
    Terminal × Int :=
  receiveWords filename messages
    (Terminal.blank.print (streamingNotice filename))

/-- A word as the client shows it. -/
def shownWord (word : Text) : Text := CText.terminated word ++ [' ']

def wordMessage (word : Text) : DataMessage :=
  (⟨msgResponse, opStreamWord, errSuccess, CText.terminated word⟩ :
    Response).message

section

variable {filename : Filename} {words : List Text} {terminal : Terminal}

theorem receiveWords_words (messages : List DataMessage) :
    receiveWords filename (words.map wordMessage ++ messages) terminal =
      receiveWords filename messages
        (terminal.print (words.map shownWord).flatten) := by
  induction words generalizing terminal with
  | nil => simp [Terminal.print]
  | cons word words ih =>
      have answer : (wordMessage word).msgType ≠ msgError := by
        change msgResponse ≠ msgError
        decide
      have goesOn : (wordMessage word).operation ≠ opStop := by
        change opStreamWord ≠ opStop
        decide
      have shown : CText.terminated (wordMessage word).data ++ [' '] =
          shownWord word := by
        change CText.terminated (CText.terminated word) ++ [' '] = _
        rw [CText.terminated_eq_self (CText.nul_not_mem_terminated word)]
        rfl
      rw [List.map_cons, List.cons_append, receiveWords, if_neg answer,
        if_neg goesOn, shown, ih]
      simp [Terminal.print]

/-- The words that arrived are shown, and the end if it arrived. -/
theorem sendStreamRequest_take (content : Text) (count : Nat) :
    let words := streamWords [] content
    let text := streamingNotice filename ++
      ((words.take count).map shownWord).flatten
    sendStreamRequest filename ((streamMessages content).take count) =
      if count ≤ words.length then
        (⟨text, "\nError: Storage Server disconnected\n".toList⟩, -1)
      else (⟨text ++ "\n--- End of stream ---\n".toList, []⟩, 0) := by
  intro words text
  have messages : (streamMessages content).take count =
      (words.take count).map wordMessage ++
        [stopMessage "STOP".toList].take (count - words.length) := by
    rw [streamMessages, List.take_append, List.length_map, ← List.map_take]
    rfl
  rw [sendStreamRequest, messages, receiveWords_words]
  by_cases broken : count ≤ words.length
  · rw [if_pos broken, Nat.sub_eq_zero_of_le broken]
    simp [receiveWords, Terminal.complain, Terminal.print, Terminal.blank,
      text]
  · obtain ⟨more, rest⟩ : ∃ more, count - words.length = more + 1 :=
      ⟨count - words.length - 1, by omega⟩
    have stop : (stopMessage "STOP".toList).operation = opStop := rfl
    have answer : (stopMessage "STOP".toList).msgType ≠ msgError := by
      change msgResponse ≠ msgError
      decide
    rw [if_neg broken, rest, List.take_succ_cons, receiveWords,
      if_neg answer, if_pos stop]
    simp [Terminal.print, Terminal.blank, text]

end

section

variable {size fuel count : Nat} {content : Text}

theorem flatten_take_blocks (positive : 0 < size)
    (enough : content.length ≤ fuel) :
    ((blocks size fuel content).take count).flatten =
      content.take (count * size) := by
  induction count generalizing fuel content with
  | zero => simp
  | succ count ih =>
      cases fuel with
      | zero =>
          have empty := List.eq_nil_of_length_eq_zero (Nat.le_zero.mp enough)
          simp [blocks, empty]
      | succ fuel =>
          by_cases empty : content = []
          · simp [blocks, empty]
          · have later := @ih fuel (content.drop size)
              (by rw [List.length_drop]; omega)
            rw [blocks, if_neg empty, List.take_succ_cons, List.flatten_cons,
              later, Nat.succ_mul, Nat.add_comm, List.take_add]

theorem lt_length_blocks (positive : 0 < size)
    (enough : content.length ≤ fuel) :
    count < (blocks size fuel content).length ↔
      count * size < content.length := by
  induction fuel generalizing content count with
  | zero =>
      have empty := List.eq_nil_of_length_eq_zero (Nat.le_zero.mp enough)
      simp [blocks, empty]
  | succ fuel ih =>
      by_cases empty : content = []
      · simp [blocks, empty]
      · have inhabited := List.length_pos_iff.mpr empty
        rw [blocks, if_neg empty, List.length_cons]
        cases count with
        | zero => simpa using inhabited
        | succ count =>
            have later := @ih count (content.drop size)
              (by rw [List.length_drop]; omega)
            rw [List.length_drop] at later
            rw [Nat.succ_lt_succ_iff, later, Nat.succ_mul]
            omega

end

section

variable {content : Text} {pieces : List Text}

/-- Without the STOP the loop ends with a complaint. -/
theorem receiveReadChunks_broken
    (short : ∀ piece ∈ pieces, piece.length ≤ chunkSize) (fileSize : Int)
    (totalReceived chunkNum : Nat) (terminal : Terminal) :
    let shown := receiveReadChunks fileSize
      (pieces.map (chunkMessage opReadChunk)) totalReceived chunkNum terminal
    shown.stdout = terminal.stdout ++ pieces.flatten ∧
      "Failed to receive chunk\n".toList <:+ shown.stderr := by
  induction pieces generalizing totalReceived chunkNum terminal with
  | nil =>
      simp only [List.map_nil, receiveReadChunks, Terminal.complain,
        List.flatten_nil, List.append_nil, true_and]
      exact List.suffix_append _ _
  | cons piece pieces ih =>
      obtain ⟨shown, output, step⟩ := @receiveReadChunks_chunk piece
        (pieces.map (chunkMessage opReadChunk)) (short piece (by simp))
        fileSize totalReceived chunkNum terminal
      have rest := ih (fun other member => short other (by simp [member]))
        (totalReceived + piece.length) (chunkNum + 1) shown
      rw [List.map_cons, step, List.flatten_cons, ← List.append_assoc,
        ← output]
      exact rest

/-- A large file that does not arrive as a whole is shown up to the last chunk
that did, and this is not called complete. -/
theorem sendReadRequest_take (filename : Filename)
    (large : chunkSize < content.length) (small : content.length < 2 ^ 31)
    {count : Nat}
    (broken : count + 1 < (readMessages ⟨content, content.length⟩).length) :
    let result := sendReadRequest filename
      ((readMessages ⟨content, content.length⟩).take (count + 1))
    result.1.stdout = receivingNotice content.length ++
        content.take (count * chunkSize) ++ ['\n'] ∧
      "Failed to receive chunk\n".toList <:+ result.1.stderr := by
  have chunked : ¬content.length ≤ chunkSize := Nat.not_le.mpr large
  have messages := readMessages_chunked chunked small
  have partly : count < (chunkMessages opReadChunk content).length + 1 := by
    rw [messages, List.length_cons, List.length_append,
      List.length_singleton] at broken
    omega
  have arrived : (readMessages ⟨content, content.length⟩).take (count + 1) =
      ⟨⟨msgResponse, opRead, errSuccess,
        "FILE_SIZE:".toList ++ intText content.length⟩, content.length⟩ ::
        ((blocks chunkSize content.length content).take count).map
          (chunkMessage opReadChunk) := by
    rw [messages, List.take_succ_cons,
      List.take_append_of_le_length (Nat.le_of_lt_succ partly),
      chunkMessages_eq, List.map_take]
  have answer : msgResponse ≠ msgError := by decide
  have indirect : ¬arrivesDirectly
      ⟨⟨msgResponse, opRead, errSuccess,
        "FILE_SIZE:".toList ++ intText content.length⟩, content.length⟩ =
      true :=
    mt (arrivesDirectly_iff _ _).mp (mt of_decide_eq_true chunked)
  have shown := @receiveReadChunks_broken
    ((blocks chunkSize content.length content).take count)
    (fun _ member => length_le_of_mem_blocks (List.mem_of_mem_take member))
    content.length 0 0
    (Terminal.blank.print (receivingNotice content.length))
  rw [flatten_take_blocks (by decide) le_rfl] at shown
  rw [arrived, sendReadRequest, if_neg answer, if_neg indirect]
  simp only [Terminal.print] at shown ⊢
  rw [shown.1]
  exact ⟨by simp [Terminal.blank], shown.2⟩

/-- A chunk that is missing is noticed. -/
theorem copyChunks_broken
    (short : ∀ piece ∈ pieces, piece.length ≤ chunkSize)
    {fileSize : Int} (done rest : Text) (copies : List (Nat × Nat))
    (missing : done.length + pieces.flatten.length < sizeT fileSize) :
    copyChunks fileSize (pieces.map (chunkMessage opExecChunk))
      ⟨done ++ rest, done.length, copies⟩ = none := by
  induction pieces generalizing done rest copies with
  | nil =>
      rw [List.map_nil, copyChunks, if_pos]
      simpa using missing
  | cons piece pieces ih =>
      rw [List.flatten_cons, List.length_append] at missing
      rw [List.map_cons, copyChunks_chunk (short piece (by simp)) (by omega)]
      apply ih (fun other member => short other (by simp [member]))
      rw [List.length_append]
      omega

/-- What the messages that arrive make of the buffer. -/
theorem copyChunks_take (small : content.length < 2 ^ 64) (memory : Text)
    (count : Nat) :
    let arrived := (chunkMessages opExecChunk content ++
      [stopMessage []]).take count
    (count * chunkSize < content.length →
      copyChunks content.length arrived ⟨memory, 0, []⟩ = none) ∧
    (content.length ≤ count * chunkSize → ∃ copies,
      copyChunks content.length arrived ⟨memory, 0, []⟩ =
        some ⟨content ++ memory.drop content.length, content.length,
          copies⟩) := by
  have short : ∀ piece ∈ blocks chunkSize content.length content,
      piece.length ≤ chunkSize :=
    fun _ member => length_le_of_mem_blocks member
  have missing := @lt_length_blocks chunkSize content.length count content
    (by decide) le_rfl
  have size := sizeT_of_lt small
  intro arrived
  constructor
  · intro broken
    have inside := missing.mpr broken
    have partly : arrived =
        ((blocks chunkSize content.length content).take count).map
          (chunkMessage opExecChunk) := by
      simp only [arrived, chunkMessages_eq]
      rw [List.take_append_of_le_length (by
        rw [List.length_map]
        exact inside.le), List.map_take]
    rw [partly]
    apply copyChunks_broken (fun _ member =>
      short _ (List.mem_of_mem_take member)) []
    rw [flatten_take_blocks (by decide) le_rfl, size, List.length_take,
      List.length_nil]
    omega
  · intro complete
    have outside := mt missing.mp (Nat.not_lt.mpr complete)
    have whole : arrived =
        (blocks chunkSize content.length content).map
          (chunkMessage opExecChunk) ++ [stopMessage []].take
            (count - (chunkMessages opExecChunk content).length) := by
      simp only [arrived, List.take_append, chunkMessages_eq]
      rw [List.take_of_length_le (by
        rw [List.length_map]
        exact Nat.not_lt.mp outside)]
    have joined := flatten_chunks content
    obtain ⟨copies, -, copying⟩ := @copyChunks_complete
      ([stopMessage []].take
        (count - (chunkMessages opExecChunk content).length))
      (blocks chunkSize content.length content) short
      (fun _ member => block_ne_nil (by decide) member) content.length small
      [] memory (by rw [joined, List.length_nil, Nat.zero_add]) [] (by simp)
    rw [joined, List.nil_append, List.nil_append, List.length_nil,
      ← whole] at copying
    exact ⟨copies, copying⟩

/-- A script is taken once all of its bytes have come, and then as a whole. -/
theorem receiveScript_take {s : FileHandler} {filename : Filename}
    (found : s.disk.openRead (getFilePath s.storage filename) =
      some ⟨content, content.length⟩)
    (small : content.length < 2 ^ 31) {memory : Text}
    (room : memory.length = content.length + 1) (count : Nat) :
    ((∃ script, receiveScript memory ((nmExec s filename).take count) =
        .ok script) ↔
      0 < count ∧ content.length ≤ (count - 1) * chunkSize) ∧
    ∀ script, receiveScript memory ((nmExec s filename).take count) =
        .ok script →
      script.fileContent = content ++ [CText.nul] ∧
        script.totalReceived = content.length := by
  have messages : nmExec s filename =
      ⟨⟨msgResponse, opExec, errSuccess, []⟩, content.length⟩ ::
        (chunkMessages opExecChunk content ++ [stopMessage []]) := by
    rw [nmExec, found]
    simp only [intField_of_lt small, List.cons_append]
  cases count with
  | zero => simp [receiveScript]
  | succ count =>
      obtain ⟨broken, complete⟩ :=
        copyChunks_take (small.trans (by decide)) memory count
      rw [messages, List.take_succ_cons, receiveScript, if_neg (by simp),
        if_neg (by dsimp only; omega)]
      simp only [Nat.add_sub_cancel, Nat.succ_pos, true_and]
      rcases Nat.lt_or_ge (count * chunkSize) content.length with less | more
      · rw [broken less]
        simp [less]
      · obtain ⟨copies, copied⟩ := complete more
        have last : (memory.drop content.length).length = 1 := by
          rw [List.length_drop]
          omega
        rw [copied]
        simp only [overwrite_append]
        rw [List.drop_eq_nil_of_le (by simp [last]), List.append_nil]
        constructor
        · simp [more]
        · rintro script ⟨⟩
          exact ⟨rfl, rfl⟩

end

/-- Wherever the connection ends, a client that reads a large file shows the
chunks that came and does not call them complete, a client that streams shows
the words that came and succeeds only with the last one, and the name server
executes a script only if all of its bytes came. -/
theorem broken_transfers {s : FileHandler} {filename : Filename}
    {username : Username} {now : TimeText} {content memory : Text}
    (allowed : (hasReadAccessLl s filename username).1 = true)
    (found : s.disk.openRead (getFilePath s.storage filename) =
      some ⟨content, content.length⟩)
    (small : content.length < 2 ^ 31)
    (room : memory.length = content.length + 1) (count : Nat) :
    let reply := (handleReadRequest s filename username now).2
    let words := streamWords [] content
    let streamed := streamingNotice filename ++
      ((words.take count).map shownWord).flatten
    (count + 1 < reply.length →
      (sendReadRequest filename (reply.take (count + 1))).1.stdout =
          receivingNotice content.length ++
            content.take (count * chunkSize) ++ ['\n'] ∧
        "Failed to receive chunk\n".toList <:+
          (sendReadRequest filename (reply.take (count + 1))).1.stderr) ∧
      sendStreamRequest filename
          ((handleStreamRequest s filename username now).2.take count) =
        (if count ≤ words.length then
          (⟨streamed, "\nError: Storage Server disconnected\n".toList⟩, -1)
        else (⟨streamed ++ "\n--- End of stream ---\n".toList, []⟩, 0)) ∧
      ((∃ script, receiveScript memory ((nmExec s filename).take count) =
          .ok script) ↔
        0 < count ∧ content.length ≤ (count - 1) * chunkSize) ∧
      ∀ script, receiveScript memory ((nmExec s filename).take count) =
          .ok script →
        script.fileContent = content ++ [CText.nul] ∧
          script.totalReceived = content.length := by
  intro reply words streamed
  have read : reply = readMessages ⟨content, content.length⟩ := by
    simp only [reply, handleReadRequest_messages, allowed, found]
    rfl
  have stream : (handleStreamRequest s filename username now).2 =
      streamMessages content := by
    rw [handleStreamRequest_messages, allowed, found]
    rfl
  have script := @receiveScript_take content s filename found small
    memory room count
  refine ⟨?_, ?_, script⟩
  · intro broken
    rw [read] at broken ⊢
    have large : chunkSize < content.length := by
      by_contra fits
      rw [readMessages, if_pos (Nat.not_lt.mp fits)] at broken
      simp at broken
    exact sendReadRequest_take filename large small broken
  · rw [stream]
    exact sendStreamRequest_take content count

private def wideName : Filename := CString.copy 255 "wide.txt".toList

private def wideOwner : Username := CString.copy 63 "alice".toList

/-- Four bytes more than fit into one chunk. -/
private def wideContent : Text := List.replicate 4000 'a'

private def wideServer : FileHandler :=
  { freshServer with
    disk := freshServer.disk.put
      ["ss".toList, "files".toList, "wide.txt".toList] wideContent
    metadataList := [newMetadata wideName wideOwner (CString.copy 63 [])] }

/-- One chunk of two arrives: the client shows it, and nothing is executed. -/
theorem broken_transfers_first_chunk :
    (sendReadRequest wideName ((handleReadRequest wideServer wideName
        wideOwner (CString.copy 63 [])).2.take 2)).1.stdout =
      receivingNotice (4000 : Nat) ++ List.replicate 3996 'a' ++ ['\n'] ∧
    ¬∃ script, receiveScript (List.replicate 4001 'x')
      ((nmExec wideServer wideName).take 2) = .ok script := by
  have length : wideContent.length = 4000 := List.length_replicate
  have allowed : (hasReadAccessLl wideServer wideName wideOwner).1 =
      true := by decide +kernel
  have found : wideServer.disk.openRead
      (getFilePath wideServer.storage wideName) =
        some ⟨wideContent, wideContent.length⟩ :=
    openRead_put_of_located (by decide +kernel) (by decide +kernel) _
  have broken := @broken_transfers wideServer wideName wideOwner
    (CString.copy 63 []) wideContent (List.replicate 4001 'x') allowed found
    (by rw [length]; decide) (by rw [length, List.length_replicate])
  constructor
  · have chunks := @lt_length_blocks chunkSize wideContent.length 1
      wideContent (by decide) le_rfl
    have two := chunks.mpr (by rw [length]; decide)
    have reply : 1 + 1 < (handleReadRequest wideServer wideName wideOwner
        (CString.copy 63 [])).2.length := by
      rw [handleReadRequest_messages, allowed, found]
      simp only [portReplies, readMessages, length, chunkMessages]
      rw [length] at two
      simp [chunkSize, maxDataSize] at two ⊢
      omega
    have chunk : wideContent.take (1 * chunkSize) =
        List.replicate 3996 'a' := List.take_replicate
    obtain ⟨read, -⟩ := broken 1
    obtain ⟨shown, -⟩ := read reply
    simp only [Nat.reduceAdd, chunk, length] at shown
    exact shown
  · rw [(broken 2).2.2.1, length]
    decide

end Dfs.Client
