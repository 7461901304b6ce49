import Dfs.Protocol

/-!
# Documents in memory and as text

The linked lists of `file_handler_ll.c`: a document is a list of sentences,
a sentence a list of words with the delimiter that closed it and its lock.
Text is read by `parseFileToLinkedList` and written by two routines, one for
the file itself and one for the undo backup, which differ in the delimiter.
-/

namespace Dfs.StorageServer

/-- `char word[256]`. -/
abbrev WordText := CString 255

/-- `isLocked` and `lockedBy` are the sentence lock of an open WRITE. -/
structure SentenceNode where
  words : List WordText
  delimiter : Char
  isLocked : Bool
  lockedBy : Username
  deriving DecidableEq, Repr

/-- The loaded sentences with the separately kept `sentence_count`. -/
structure Document where
  sentences : List SentenceNode
  sentenceCount : Nat
  deriving DecidableEq, Repr

def createWordNode (word : Text) : WordText :=
  CString.copy 255 word

/-- The cleared `locked_by` of a free sentence. -/
def nobody : Username := CString.copy 63 []

def createSentenceNode (delimiter : Char) : SentenceNode :=
  { words := []
    delimiter := delimiter
    isLocked := false
    lockedBy := nobody }

def isDelimiter (byte : Char) : Bool :=
  byte == '.' || byte == '!' || byte == '?'

def endsInDelimiter (word : Text) : Bool :=
  match word.getLast? with
  | some byte => isDelimiter byte
  | none => false

/-- The runs of non-space bytes, cut after 255 bytes.  `buffer` is the word
read so far. -/
def readWords : Text → Text → List Text
  | buffer, [] => if buffer = [] then [] else [buffer]
  | buffer, byte :: rest =>
      if CText.isSpace byte then
        if buffer = [] then readWords [] rest else buffer :: readWords [] rest
      else if buffer.length + 1 ≥ 255 then
        (buffer ++ [byte]) :: readWords [] rest
      else readWords (buffer ++ [byte]) rest

/-- The sentences already closed and the one being filled. -/
structure ParseState where
  closed : List SentenceNode
  current : SentenceNode

def ParseState.addWord (state : ParseState) (word : Text) : ParseState :=
  { state with
    current :=
      { state.current with
        words := state.current.words ++ [createWordNode word] } }

def ParseState.closeSentence (state : ParseState) (delimiter : Char) :
    ParseState :=
  { closed := state.closed ++ [{ state.current with delimiter := delimiter }]
    current := createSentenceNode CText.nul }

/-- Split one word at its delimiters.  `part` is the piece since the last one;
each delimiter ends a word and the sentence. -/
def processWord : ParseState → Text → Text → ParseState
  | state, part, [] => if part = [] then state else state.addWord part
  | state, part, byte :: rest =>
      if isDelimiter byte then
        processWord ((state.addWord (part ++ [byte])).closeSentence byte)
          [] rest
      else processWord state (part ++ [byte]) rest

def parseFileToLinkedList (content : Text) : List SentenceNode :=
  let start : ParseState :=
    { closed := [], current := createSentenceNode CText.nul }
  let state :=
    (readWords [] content).foldl (fun state word => processWord state [] word)
      start
  if state.current.words = [] then state.closed
  else state.closed ++ [state.current]

def wordsText (words : List WordText) : Text :=
  CText.joinSpaces (words.map CString.chars)

def delimiterText (sentence : SentenceNode) : Text :=
  if sentence.delimiter = CText.nul then [] else [sentence.delimiter]

/-- What `sync_file_to_disk` writes: the delimiter follows the words, although
the parser leaves it in the last word as well. -/
def writeLinkedListToFile (sentences : List SentenceNode) : Text :=
  CText.joinSpaces (sentences.map fun sentence =>
    wordsText sentence.words ++ delimiterText sentence)

/-- What `save_undo_backup_ll` writes: the words alone. -/
def undoBackupText (sentences : List SentenceNode) : Text :=
  CText.joinSpaces (sentences.map fun sentence =>
    wordsText sentence.words)

/-- The node a traversal by index stops at; a negative index does not
advance. -/
def Document.sentenceAt (document : Document) (sentenceIndex : Int) :
    Option SentenceNode :=
  document.sentences[sentenceIndex.toNat]?

def Document.setSentence (document : Document) (sentenceIndex : Int)
    (sentence : SentenceNode) : Document :=
  { document with
    sentences := document.sentences.set sentenceIndex.toNat sentence }

/-- The body of `lock_sentence_ll` on a loaded document. -/
def Document.lockSentence (document : Document) (sentenceIndex : Int)
    (username : Username) : Document × Int :=
  if sentenceIndex < 0 then (document, errSentenceOutOfRange)
  else if sentenceIndex > document.sentenceCount then
    (document, errSentenceOutOfRange)
  else
    match document.sentenceAt sentenceIndex with
    | none => (document, 0)
    | some sentence =>
        if sentence.isLocked then (document, errSentenceLocked)
        else
          (document.setSentence sentenceIndex
            { sentence with
              isLocked := true
              lockedBy := username }, 0)

/-- The body of `unlock_sentence_ll` on a loaded document. -/
def Document.unlockSentence (document : Document) (sentenceIndex : Int)
    (username : Username) : Document × Int :=
  if sentenceIndex < 0 then (document, -1)
  else
    match document.sentenceAt sentenceIndex with
    | none => (document, -1)
    | some sentence =>
        if sentence.isLocked && sentence.lockedBy = username then
          (document.setSentence sentenceIndex
            { sentence with isLocked := false, lockedBy := nobody }, 0)
        else (document, 0)

end Dfs.StorageServer
