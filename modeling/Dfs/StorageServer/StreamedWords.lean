import Dfs.Library.ItemRuns
import Dfs.StorageServer.DiskFrames
import Dfs.StorageServer.Queries

/-!
# A stream read block by block

STREAM reads a file in blocks and carries an unfinished word from one block to
the next.  Where the blocks end does not matter: the words sent are those of
the whole content, and as long as no word is longer than the buffer they are
its maximal runs.
-/

namespace Dfs.StorageServer

open ItemRuns

/-- What `fread` may return one after the other. -/
structure ReadInBlocks (content : Text) (blocks : List Text) : Prop where
  whole : blocks.flatten = content
  sizes : ∀ block ∈ blocks, 1 ≤ block.length ∧ block.length ≤ chunkSize

/-- The messages sent so far, `word_buffer` up to `word_pos`, and whether a
send has failed, which ends the loops. -/
structure StreamLoop where
  sent : List DataMessage
  wordBuffer : Text
  failed : Bool
  deriving DecidableEq, Repr

def streamWordMessage (data : Text) : DataMessage :=
  (⟨msgResponse, opStreamWord, errSuccess, data⟩ : Response).message

/-- `sends` tells for each message whether it can be sent. -/
def sendWord (sends : Nat → Bool) (loop : StreamLoop) : StreamLoop :=
  if sends loop.sent.length then
    { sent := loop.sent ++ [streamWordMessage
        ((CText.terminated loop.wordBuffer).take (maxDataSize - 1))]
      wordBuffer := []
      failed := false }
  else { loop with failed := true }

def streamByte (sends : Nat → Bool) (loop : StreamLoop) (byte : Char) :
    StreamLoop :=
  if loop.failed then loop
  else if streamBreak byte then
    if loop.wordBuffer = [] then loop else sendWord sends loop
  else if loop.wordBuffer.length < maxDataSize - 1 then
    { loop with wordBuffer := loop.wordBuffer ++ [byte] }
  else loop

def streamBlock (sends : Nat → Bool) (loop : StreamLoop) (block : Text) :
    StreamLoop :=
  block.foldl (streamByte sends) loop

/-- What follows the last block, with the value returned. -/
def finishStream (sends : Nat → Bool) (loop : StreamLoop) :
    List DataMessage × Int :=
  let loop :=
    if loop.failed ∨ loop.wordBuffer = [] then loop else sendWord sends loop
  if loop.failed then (loop.sent, -1)
  else if sends loop.sent.length then
    (loop.sent ++ [stopMessage "STOP".toList], 0)
  else (loop.sent, 0)

def streamFile (sends : Nat → Bool) (blocks : List Text) :
    List DataMessage × Int :=
  finishStream sends (blocks.foldl (streamBlock sends) ⟨[], [], false⟩)

/-- The request when `fread` returns these blocks of the file. -/
def handleStreamBlocks (sends : Nat → Bool) (fread : Text → List Text)
    (s : FileHandler) (filename : Filename) (username : Username)
    (now : TimeText) : FileHandler × List DataMessage :=
  let (allowed, s) := hasReadAccessLl s filename username
  if allowed = false then (s, if sends 0 then [accessDenied 0] else [])
  else
    match s.disk.openRead (getFilePath s.storage filename) with
    | none =>
        (s, if sends 0 then
          [(⟨msgError, 0, errFileNotFound, []⟩ : Response).message] else [])
    | some file =>
        ((updateFileAccessedTimeLl s filename username now).1,
          (streamFile sends (fread file.bytes)).1)

section Blocks

variable {sends : Nat → Bool} {content buffer : Text} {blocks : List Text}

theorem streamFile_flatten (sends : Nat → Bool) (blocks : List Text) :
    streamFile sends blocks =
      finishStream sends
        (streamBlock sends ⟨[], [], false⟩ blocks.flatten) := by
  rw [streamFile, streamBlock, List.foldl_flatten]
  rfl

theorem sendWord_of_sent (succeed : ∀ index, sends index = true)
    (sent : List DataMessage) (fits : buffer.length ≤ maxDataSize - 1) :
    sendWord sends ⟨sent, buffer, false⟩ =
      ⟨sent ++ [streamWordMessage (CText.terminated buffer)], [], false⟩ := by
  have short : (CText.terminated buffer).length ≤ maxDataSize - 1 :=
    le_trans (List.takeWhile_sublist _).length_le fits
  rw [sendWord, if_pos (succeed _), List.take_of_length_le short]

/-- With sends that succeed the loops send the words of the content. -/
theorem finishStream_streamBlock (succeed : ∀ index, sends index = true)
    (sent : List DataMessage) (fits : buffer.length ≤ maxDataSize - 1)
    (content : Text) :
    finishStream sends (streamBlock sends ⟨sent, buffer, false⟩ content) =
      (sent ++ (streamWords buffer content).map (fun word =>
          streamWordMessage (CText.terminated word)) ++
        [stopMessage "STOP".toList], 0) := by
  induction content generalizing sent buffer with
  | nil =>
      by_cases empty : buffer = []
      · simp [streamBlock, finishStream, streamWords, empty, succeed]
      · simp [streamBlock, finishStream, streamWords, empty, succeed,
          sendWord_of_sent succeed sent fits]
  | cons byte content ih =>
      rw [streamBlock, List.foldl_cons]
      change finishStream sends (streamBlock sends
        (streamByte sends ⟨sent, buffer, false⟩ byte) content) = _
      cases breaks : streamBreak byte with
      | true =>
          by_cases empty : buffer = []
          · subst empty
            have same : streamByte sends ⟨sent, [], false⟩ byte =
                ⟨sent, [], false⟩ := by
              simp [streamByte, breaks]
            rw [same, ih sent (by simp)]
            simp [streamWords, breaks]
          · have flushed : streamByte sends ⟨sent, buffer, false⟩ byte =
                ⟨sent ++ [streamWordMessage (CText.terminated buffer)], [],
                  false⟩ := by
              rw [← sendWord_of_sent succeed sent fits]
              simp [streamByte, breaks, empty]
            rw [flushed, ih _ (by simp)]
            simp [streamWords, breaks, empty]
      | false =>
          by_cases room : buffer.length < maxDataSize - 1
          · have stored : streamByte sends ⟨sent, buffer, false⟩ byte =
                ⟨sent, buffer ++ [byte], false⟩ := by
              simp [streamByte, breaks, room]
            have stillFits : (buffer ++ [byte]).length ≤ maxDataSize - 1 := by
              rw [List.length_append, List.length_singleton]
              omega
            rw [stored, ih sent stillFits]
            simp [streamWords, breaks, room]
          · have dropped : streamByte sends ⟨sent, buffer, false⟩ byte =
                ⟨sent, buffer, false⟩ := by
              simp [streamByte, breaks, room]
            rw [dropped, ih sent fits]
            simp [streamWords, breaks, room]

/-- A stream in blocks is the stream of the whole content. -/
theorem streamFile_eq (succeed : ∀ index, sends index = true)
    (reads : ReadInBlocks content blocks) :
    streamFile sends blocks = (streamMessages content, 0) := by
  have fits : ([] : Text).length ≤ maxDataSize - 1 := by simp
  rw [streamFile_flatten, reads.whole,
    finishStream_streamBlock succeed [] fits content]
  rfl

theorem handleStreamBlocks_eq (succeed : ∀ index, sends index = true)
    {fread : Text → List Text}
    (reads : ∀ content, ReadInBlocks content (fread content))
    (s : FileHandler) (filename : Filename) (username : Username)
    (now : TimeText) :
    handleStreamBlocks sends fread s filename username now =
      handleStreamRequest s filename username now := by
  unfold handleStreamBlocks handleStreamRequest
  generalize hasReadAccessLl s filename username = decision
  obtain ⟨allowed, t⟩ := decision
  cases allowed with
  | false => simp [succeed]
  | true =>
      cases found : t.disk.openRead (getFilePath t.storage filename) with
      | none => simp [found, succeed]
      | some file => simp [found, streamFile_eq succeed (reads file.bytes)]

end Blocks

/-- A text without breaks longer than the buffer goes through it. -/
theorem streamWords_eq_runs {buffer content : Text}
    (solid : ∀ byte ∈ buffer, streamBreak byte = false)
    (short : ∀ run ∈ runs streamBreak (buffer ++ content),
      run.length ≤ maxDataSize - 1) :
    streamWords buffer content = runs streamBreak (buffer ++ content) := by
  induction content generalizing buffer with
  | nil =>
      rw [List.append_nil, runs_of_solid solid, streamWords]
      simp
  | cons byte content ih =>
      cases breaks : streamBreak byte with
      | true =>
          rw [runs_append_cons breaks, runs_of_solid solid] at short ⊢
          have rest := @ih [] (by simp) fun run member =>
            short run (List.mem_append_right _ member)
          rw [streamWords, if_pos breaks, rest]
          by_cases empty : buffer = []
          · simp [empty]
          · simp [empty]
      | false =>
          have more : ∀ other ∈ buffer ++ [byte],
              streamBreak other = false := by
            intro other member
            rcases List.mem_append.mp member with before | here
            · exact solid other before
            · rw [List.mem_singleton.mp here]
              exact breaks
          have split : buffer ++ byte :: content =
              (buffer ++ [byte]) ++ content := by simp
          obtain ⟨tail, others, started⟩ :=
            runs_of_started (by simp) more content
          rw [split] at short ⊢
          have first := short (buffer ++ [byte] ++ tail) (by
            rw [started]
            exact List.mem_cons_self)
          have room : buffer.length < maxDataSize - 1 := by
            simp only [List.length_append, List.length_singleton] at first
            omega
          rw [streamWords, if_neg (by simp [breaks]), if_pos room]
          exact ih more short

section Request

variable {sends : Nat → Bool} {fread : Text → List Text} {s : FileHandler}
  {filename : Filename} {username : Username} {now : TimeText}
  {content : Text} {words : List Text}

/-- However the file is read, its maximal runs are sent, and then the end. -/
theorem stream_sends_words
    (allowed : (hasReadAccessLl s filename username).1 = true)
    (stored : s.disk.read (getFilePath s.storage filename) = some content)
    (nulFree : CText.nul ∉ content)
    (maximal : RunsOf streamBreak content words)
    (short : ∀ word ∈ words, word.length ≤ maxDataSize - 1)
    (reads : ReadInBlocks content (fread content))
    (succeed : ∀ index, sends index = true) :
    (handleStreamBlocks sends fread s filename username now).2 =
      words.map streamWordMessage ++ [stopMessage "STOP".toList] := by
  have found := runsOf_iff.mp maximal
  have sent : streamWords [] content = words := by
    rw [← found] at short
    have same := @streamWords_eq_runs [] content (by simp) short
    rw [same]
    exact found
  have whole : ∀ word ∈ words, CText.terminated word = word := by
    intro word member
    apply CText.terminated_eq_self
    intro inWord
    exact nulFree (maximal.subset member inWord)
  have messages : streamMessages content =
      words.map streamWordMessage ++ [stopMessage "STOP".toList] := by
    rw [streamMessages, sent]
    congr 1
    apply List.map_congr_left
    intro word member
    rw [whole word member]
    rfl
  obtain ⟨file, opened, rfl⟩ := Option.map_eq_some_iff.mp stored
  have checked := (sameDisk_moves filename).hasAccessLl 1 s username
  have there : (hasReadAccessLl s filename username).2.disk.openRead
      (getFilePath (hasReadAccessLl s filename username).2.storage
        filename) = some file := by
    rw [hasReadAccessLl, checked.disk, checked.storage]
    exact opened
  unfold handleStreamBlocks
  simp only [allowed, Bool.true_eq_false, if_false, there,
    streamFile_eq succeed reads, messages]

end Request

private def streamedFile : FileMetadata :=
  newMetadata (CString.copy 255 "f".toList) (CString.copy 63 "ann".toList)
    (CString.copy 63 [])

private def streamedServer : FileHandler :=
  { freshServer with
    disk := { freshServer.disk with
      files := Store.empty.set ["ss".toList, "files".toList, "f".toList]
        "so\n it".toList }
    metadataList := [streamedFile] }

/-- A word that two blocks share is sent once. -/
theorem stream_sends_shared_word :
    (handleStreamBlocks (fun _ => true)
        (fun _ => ["s".toList, "o\n i".toList, "t".toList]) streamedServer
        streamedFile.filename streamedFile.owner (CString.copy 63 [])).2 =
      [streamWordMessage "so".toList, streamWordMessage "it".toList,
        stopMessage "STOP".toList] := by
  have maximal : RunsOf streamBreak "so\n it".toList
      ["so".toList, "it".toList] := runsOf_iff.mpr (by decide +kernel)
  exact @stream_sends_words (fun _ => true)
    (fun _ => ["s".toList, "o\n i".toList, "t".toList]) streamedServer
    streamedFile.filename streamedFile.owner (CString.copy 63 [])
    "so\n it".toList ["so".toList, "it".toList] (by decide +kernel)
    (by decide +kernel) (by decide +kernel) maximal (by decide +kernel)
    ⟨by decide +kernel, by decide +kernel⟩ fun _ => rfl

end Dfs.StorageServer
