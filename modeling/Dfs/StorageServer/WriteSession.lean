import Dfs.Library.CInput
import Dfs.StorageServer.AccessControl
import Dfs.StorageServer.FileOperations

/-!
# The WRITE handler

`handle_write_request` in its parts: opening a session takes the sentence lock
and the undo backup, each message is validated and queued, `ETIRW` commits the
queue to the cached document and to disk, and a lost connection restores the
backup.  The UNDO request restores the same backup.
-/

namespace Dfs.StorageServer

structure Response where
  msgType : Int
  operation : Int
  errorCode : Int
  data : Text
  deriving DecidableEq, Repr

structure EditOperation where
  wordIndex : Int
  word : WordText
  deriving DecidableEq, Repr

/-- `committing` is set once `ETIRW` was received and the sentence unlocked. -/
structure WriteSession where
  username : Username
  sentenceIndex : Int
  originalWordCount : Int
  editOps : List EditOperation
  delimiterIndex : Int
  committing : Bool
  deriving DecidableEq, Repr

/-- The fields of a message that the command loop reads. -/
structure WriteMessage where
  wordIndex : Int
  data : DataText
  deriving DecidableEq, Repr

def etirw : Text := "ETIRW".toList

def intText (value : Int) : Text := (toString value).toList

theorem intText_natCast (number : Nat) :
    intText number = Nat.toDigits 10 number := by
  unfold intText
  exact Nat.toList_repr

theorem intText_negSucc (number : Nat) :
    intText (.negSucc number) = '-' :: Nat.toDigits 10 (number + 1) := by
  unfold intText
  change ("-" ++ toString (number + 1)).toList = _
  have digits : (toString (number + 1)).toList =
      Nat.toDigits 10 (number + 1) := Nat.toList_repr
  rw [String.toList_append, digits]
  rfl

theorem intText_eq_decimal (value : Int) :
    intText value = CInput.decimal value := by
  cases value with
  | ofNat number => exact intText_natCast number
  | negSucc number => exact intText_negSucc number

theorem not_mem_intText {byte : Char} (plain : byte.isDigit = false)
    (different : byte ≠ '-') (value : Int) : byte ∉ intText value := by
  have digits : ∀ number : Nat, byte ∉ Nat.toDigits 10 number := by
    intro number member
    have digit := Nat.isDigit_of_mem_toDigits (by simp) (by simp) member
    rw [plain] at digit
    cases digit
  cases value with
  | ofNat number =>
      rw [Int.ofNat_eq_natCast, intText_natCast]
      exact digits number
  | negSucc number =>
      rw [intText_negSucc, List.mem_cons]
      rintro (sign | rest)
      · exact different sign
      · exact digits _ rest

theorem intText_injective : Function.Injective intText := by
  have unsigned : ∀ {first second : Nat},
      Nat.toDigits 10 first = Nat.toDigits 10 second → first = second := by
    intro first second same
    have values := congrArg (Nat.ofDigitChars 10 · 0) same
    simpa using values
  have signed : ∀ first second : Nat,
      Nat.toDigits 10 first ≠ '-' :: Nat.toDigits 10 second := by
    intro first second same
    have sign : '-' ∈ Nat.toDigits 10 first := by
      rw [same]
      exact List.mem_cons_self
    cases Nat.isDigit_of_mem_toDigits (by simp) (by simp) sign
  intro first second same
  cases first with
  | ofNat first =>
      cases second with
      | ofNat second =>
          rw [Int.ofNat_eq_natCast, Int.ofNat_eq_natCast, intText_natCast,
            intText_natCast] at same
          rw [unsigned same]
      | negSucc second =>
          rw [Int.ofNat_eq_natCast, intText_natCast, intText_negSucc] at same
          exact (signed first _ same).elim
  | negSucc first =>
      cases second with
      | ofNat second =>
          rw [Int.ofNat_eq_natCast, intText_natCast, intText_negSucc] at same
          exact (signed second _ same.symm).elim
      | negSucc second =>
          rw [intText_negSucc, intText_negSucc, List.cons.injEq] at same
          have equal := unsigned same.2
          rw [Nat.succ.inj equal]

theorem length_intText_le {value : Int}
    (least : -9223372036854775808 ≤ value)
    (most : value < 9223372036854775808) : (intText value).length ≤ 20 := by
  cases value with
  | ofNat number =>
      rw [Int.ofNat_eq_natCast, intText_natCast,
        Nat.length_toDigits_le_iff (by simp) (by simp)]
      rw [Int.ofNat_eq_natCast] at most
      omega
  | negSucc number =>
      have digits : (Nat.toDigits 10 (number + 1)).length ≤ 19 := by
        rw [Nat.length_toDigits_le_iff (by simp) (by simp)]
        omega
      rw [intText_negSucc, List.length_cons]
      omega

def maxWriteFileSize : Nat := 10 * 1024 * 1024

def writeError (errorCode : Int) (data : Text) : Response :=
  ⟨msgError, opWrite, errorCode, data⟩

/-- The checks on the file before the lock: on the bytes read, if they could
be, and on the size of the file, if it is there. -/
def validateWrite (content : Option Text) (size : Option Nat)
    (sentenceIndex : Int) : Option Response :=
  if content.any fun content =>
      sentenceIndex < 0 ∨ sentenceIndex ≥ 1 + (content.count '.' : Int) then
    some (writeError errSentenceOutOfRange
      "ERROR: Sentence index out of range.".toList)
  else if size.any (maxWriteFileSize < ·) then
    some (writeError errServerError
      "File too large for WRITE operation (limit: 10MB)".toList)
  else none

def Document.wordCountAt (document : Document) (sentenceIndex : Int) : Nat :=
  match document.sentenceAt sentenceIndex with
  | some sentence => sentence.words.length
  | none => 0

def newSession (username : Username) (sentenceIndex : Int)
    (originalWordCount : Nat) : WriteSession :=
  { username := username
    sentenceIndex := sentenceIndex
    originalWordCount := originalWordCount
    editOps := []
    delimiterIndex := -1
    committing := false }

def writeMode : Text := "WRITE_MODE".toList

/-- The handler up to the command loop, with the session if it got there. -/
def openWrite (s : FileHandler) (filename : Filename) (username : Username)
    (sentenceIndex : Int) :
    FileHandler × Response × Option WriteSession :=
  let (allowed, s) := hasWriteAccessLl s filename username
  if allowed = false then (s, writeError errNoWriteAccess [], none)
  else
    match validateWrite (s.diskText filename)
        (s.disk.statSize (getFilePath s.storage filename)) sentenceIndex with
    | some response => (s, response, none)
    | none =>
        let (s, lockResult) :=
          lockSentenceLl s filename sentenceIndex username
        if lockResult ≠ 0 then (s, writeError lockResult [], none)
        else
          match getFileFromCache s filename with
          | none =>
              ((unlockSentenceLl s filename sentenceIndex username).1,
                writeError errFileNotFound [], none)
          | some (s, doc) =>
              let s := fileRelease s filename
              let s := (saveUndoBackupLl s filename).1
              (s, ⟨msgAck, opWrite, errSuccess, writeMode⟩,
                some (newSession username sentenceIndex
                  (doc.wordCountAt sentenceIndex)))

def wordError (data : Text) : Response :=
  ⟨msgError, 0, errWordOutOfRange, data⟩

/-- The first pass over the words of a message: an error, or the position of
the first word that ends in a delimiter (negative if there is none). -/
def validateWords (session : WriteSession) (baseWordIdx : Int) :
    Nat → Int → List Text → Except Response Int
  | _, firstDelimiter, [] => .ok firstDelimiter
  | wordOffset, firstDelimiter, token :: tokens =>
      let wordIdx := baseWordIdx + wordOffset
      let firstDelimiter :=
        if endsInDelimiter token ∧ firstDelimiter < 0 then wordIdx
        else firstDelimiter
      let effectiveWordCount : Int :=
        session.originalWordCount + session.editOps.length + wordOffset
      if session.delimiterIndex ≥ 0 ∧ wordIdx > session.delimiterIndex then
        .error (wordError ("Index ".toList ++ intText wordIdx ++
          " is beyond sentence delimiter at position ".toList ++
          intText session.delimiterIndex))
      else if wordIdx < 0 ∨ wordIdx > effectiveWordCount then
        .error (wordError ("Index ".toList ++ intText wordIdx ++
          " out of range (valid: 0-".toList ++ intText effectiveWordCount ++
          ")".toList))
      else validateWords session baseWordIdx (wordOffset + 1) firstDelimiter
        tokens

/-- The second pass queues the words. -/
def storeWords (baseWordIdx : Int) :
    WriteSession → Nat → List Text → WriteSession
  | session, _, [] => session
  | session, wordOffset, token :: tokens =>
      let wordIdx := baseWordIdx + wordOffset
      let delimiterIndex :=
        if session.delimiterIndex ≥ 0 ∧ wordIdx ≤ session.delimiterIndex then
          session.delimiterIndex + 1
        else session.delimiterIndex
      storeWords baseWordIdx
        { session with
          editOps := session.editOps ++ [⟨wordIdx, createWordNode token⟩]
          delimiterIndex := delimiterIndex }
        (wordOffset + 1) tokens

/-- One message other than `ETIRW`. -/
def writeCommand (session : WriteSession) (message : WriteMessage) :
    WriteSession × Response :=
  let tokens := CText.strtok ' ' message.data.chars
  match validateWords session message.wordIndex 0 (-1) tokens with
  | .error response => (session, response)
  | .ok firstDelimiter =>
      let session := storeWords message.wordIndex session 0 tokens
      let session :=
        if firstDelimiter ≥ 0 ∧ session.delimiterIndex < 0 then
          { session with delimiterIndex := firstDelimiter }
        else session
      (session, ⟨msgAck, opWrite, errSuccess,
        "OK (".toList ++ intText session.editOps.length ++
          " operations queued, delimiter at ".toList ++
          intText session.delimiterIndex ++ ")".toList⟩)

/-- The command loop: the session when it ended, whether `ETIRW` ended it, and
the answers sent.  The connection is lost when no message is left. -/
def receiveCommands (session : WriteSession) :
    List WriteMessage → WriteSession × Bool × List Response
  | [] => (session, false, [])
  | message :: messages =>
      if message.data.chars = etirw then (session, true, [])
      else
        let (session, response) := writeCommand session message
        let (session, completed, responses) := receiveCommands session messages
        (session, completed, response :: responses)

/-- Insert one queued word, moved by `wordOffset` and clamped. -/
def applyEdit (wordOffset : Int) (words : List WordText)
    (edit : EditOperation) : List WordText :=
  let adjustedIdx := edit.wordIndex + wordOffset
  let adjustedIdx := if adjustedIdx < 0 then 0 else adjustedIdx
  let adjustedIdx :=
    if adjustedIdx > words.length then (words.length : Int) else adjustedIdx
  words.insertIdx adjustedIdx.toNat (createWordNode edit.word.chars)

def applyEdits (session : WriteSession) (words : List WordText) :
    List WordText :=
  session.editOps.foldl
    (applyEdit ((words.length : Int) - session.originalWordCount)) words

/-- The document with the queue of the session inserted.  The target sentence
exists, or it is the next one and is appended. -/
def Document.commit (document : Document) (session : WriteSession) :
    Option Document :=
  match document.sentenceAt session.sentenceIndex with
  | some sentence =>
      some (document.setSentence session.sentenceIndex
        { sentence with words := applyEdits session sentence.words })
  | none =>
      if session.sentenceIndex = document.sentenceCount then
        some
          { sentences := document.sentences ++
              [{ createSentenceNode CText.nul with
                 words := applyEdits session [] }]
            sentenceCount := document.sentenceCount + 1 }
      else none

/-- The handler after `ETIRW`, under the commit lock.  The error messages
reuse the buffer of the `WRITE_MODE` answer. -/
def commitWrite (s : FileHandler) (filename : Filename)
    (session : WriteSession) (now : TimeText) : FileHandler × Response :=
  match getFileFromCache s filename with
  | none => (s, writeError errFileNotFound writeMode)
  | some (s, doc) =>
      match doc.commit session with
      | none =>
          (fileRelease s filename, writeError errSentenceOutOfRange writeMode)
      | some document =>
          let s := s.cache filename { doc with toDocument := document }
          let s := fileRelease s filename
          let s := (syncFileToDisk s filename).1
          let s := (updateFileWriteStatsLl s filename now).1
          (s, ⟨msgAck, opWrite, errSuccess,
            "Write completed successfully".toList⟩)

/-- The end of a session whose client went away. -/
def rollbackWrite (s : FileHandler) (filename : Filename)
    (session : WriteSession) : FileHandler :=
  let s :=
    (unlockSentenceLl s filename session.sentenceIndex session.username).1
  (undoFileChangeLl s filename).1

/-- A whole WRITE request, given every message the client sends. -/
def handleWriteRequest (s : FileHandler) (filename : Filename)
    (username : Username) (sentenceIndex : Int)
    (messages : List WriteMessage) (now : TimeText) :
    FileHandler × List Response :=
  match openWrite s filename username sentenceIndex with
  | (s, response, none) => (s, [response])
  | (s, response, some session) =>
      let (session, completed, responses) := receiveCommands session messages
      if completed then
        let s := (unlockSentenceLl s filename session.sentenceIndex
          session.username).1
        let (s, final) := commitWrite s filename session now
        (s, response :: responses ++ [final])
      else (rollbackWrite s filename session, response :: responses)

/-- The UNDO request of a client. -/
def handleUndoRequest (s : FileHandler) (filename : Filename) :
    FileHandler × Response :=
  let (s, result) := undoFileChangeLl s filename
  if result < 0 then
    (s, ⟨msgError, opUndo, errInvalidOperation,
      "No undo history available. Perform a WRITE operation first.".toList⟩)
  else
    ((updateFileStatisticsLl s filename).1,
      ⟨msgAck, opUndo, errSuccess, "Undo successful".toList⟩)

end Dfs.StorageServer
