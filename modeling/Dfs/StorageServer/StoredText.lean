import Dfs.StorageServer.DelimiterBoundary

/-!
# The text a command stores

A message passes through `strtok`, a queue record and a word node before it is
in the sentence, and the last two have room for 255 bytes.  The commit is
followed here with the number of the queued word each word of the sentence
comes from, so that the words of one message can be told from all others.
-/

namespace Dfs.StorageServer

/-- The place an index is moved to in a list of this length. -/
def clampIndex (index : Int) (length : Nat) : Nat :=
  let index := if index < 0 then 0 else index
  let index := if index > length then (length : Int) else index
  index.toNat

theorem clampIndex_le (index : Int) (length : Nat) :
    clampIndex index length ≤ length := by
  simp only [clampIndex]
  split
  · omega
  · omega

theorem clampIndex_of_within {index : Int} {length : Nat} (lower : 0 ≤ index)
    (upper : index ≤ length) : clampIndex index length = index.toNat := by
  simp only [clampIndex]
  rw [if_neg (by omega), if_neg (by omega)]

/-- A word of the sentence, with its number in the queue if it was queued. -/
structure PlacedWord where
  word : WordText
  origin : Option Nat

/-- `applyEdit` on words with their origin. -/
def placeEdit (wordOffset : Int) (words : List PlacedWord)
    (entry : EditOperation × Nat) : List PlacedWord :=
  words.insertIdx (clampIndex (entry.1.wordIndex + wordOffset) words.length)
    ⟨createWordNode entry.1.word.chars, some entry.2⟩

/-- `applyEdits` on words with their origin. -/
def placeEdits (session : WriteSession) (words : List WordText) :
    List PlacedWord :=
  session.editOps.zipIdx.foldl
    (placeEdit ((words.length : Int) - session.originalWordCount))
    (words.map fun word => ⟨word, none⟩)

theorem length_placeEdit (wordOffset : Int) (words : List PlacedWord)
    (entry : EditOperation × Nat) :
    (placeEdit wordOffset words entry).length = words.length + 1 :=
  List.length_insertIdx_of_le_length (clampIndex_le _ _) _

theorem length_foldl_placeEdit (wordOffset : Int) (words : List PlacedWord)
    (entries : List (EditOperation × Nat)) :
    (entries.foldl (placeEdit wordOffset) words).length =
      words.length + entries.length := by
  induction entries generalizing words with
  | nil => rfl
  | cons entry entries ih =>
      rw [List.foldl_cons, ih, length_placeEdit, List.length_cons]
      omega

/-- The word was queued as one of the numbers `first` to `last - 1`. -/
def PlacedWord.queuedIn (first last : Nat) (entry : PlacedWord) : Bool :=
  match entry.origin with
  | some number => decide (first ≤ number ∧ number < last)
  | none => false

theorem filter_insertIdx_of_neg {α : Type} {keep : α → Bool} {item : α}
    (out : keep item = false) (items : List α) (index : Nat) :
    (items.insertIdx index item).filter keep = items.filter keep := by
  induction items generalizing index with
  | nil =>
      cases index with
      | zero => simp [out]
      | succ index => rfl
  | cons first items ih =>
      cases index with
      | zero => simp [out]
      | succ index =>
          rw [List.insertIdx_succ_cons, List.filter_cons, List.filter_cons,
            ih]

/-- Words of other messages do not move the words of this one. -/
theorem filter_foldl_placeEdit {first last : Nat}
    {entries : List (EditOperation × Nat)}
    (others : ∀ entry ∈ entries, entry.2 < first ∨ last ≤ entry.2)
    (wordOffset : Int) (words : List PlacedWord) :
    (entries.foldl (placeEdit wordOffset) words).filter
        (PlacedWord.queuedIn first last) =
      words.filter (PlacedWord.queuedIn first last) := by
  induction entries generalizing words with
  | nil => rfl
  | cons entry entries ih =>
      have out : PlacedWord.queuedIn first last
          ⟨createWordNode entry.1.word.chars, some entry.2⟩ = false := by
        have outside := others entry (by simp)
        simp [PlacedWord.queuedIn]
        omega
      rw [List.foldl_cons,
        ih (fun other member => others other (by simp [member])),
        placeEdit, filter_insertIdx_of_neg out]

/-- The words of a message as they are placed. -/
def placedWords (first : Nat) (tokens : List Text) : List PlacedWord :=
  (tokens.map createWordNode).zipIdx first |>.map fun (word, number) =>
    ⟨word, some number⟩

theorem placeEdit_between {edit : EditOperation} {front back : List PlacedWord}
    (place : (front.length : Int) = edit.wordIndex) (number : Nat) :
    placeEdit 0 (front ++ back) (edit, number) =
      front ++ ⟨edit.word, some number⟩ :: back := by
  have within : clampIndex (edit.wordIndex + 0) (front ++ back).length =
      front.length + 0 := by
    rw [clampIndex_of_within (by omega) (by rw [List.length_append]; omega)]
    omega
  rw [placeEdit, within, insertIdx_append_right]
  simp [createWordNode]

theorem placedWords_cons (first : Nat) (token : Text) (tokens : List Text) :
    placedWords first (token :: tokens) =
      ⟨createWordNode token, some first⟩ :: placedWords (first + 1) tokens :=
  rfl

theorem foldl_placeEdit_queuedEdits {baseWordIdx : Int} {wordOffset : Nat}
    {front back : List PlacedWord}
    (place : (front.length : Int) = baseWordIdx + wordOffset)
    (first : Nat) (tokens : List Text) :
    ((queuedEdits baseWordIdx wordOffset tokens).zipIdx first).foldl
        (placeEdit 0) (front ++ back) =
      front ++ placedWords first tokens ++ back := by
  induction tokens generalizing wordOffset front first with
  | nil => simp [queuedEdits, placedWords]
  | cons token tokens ih =>
      have next : ((front ++ [⟨createWordNode token, some first⟩] :
          List PlacedWord).length : Int) =
            baseWordIdx + (wordOffset + 1 : Nat) := by
        rw [List.length_append, List.length_singleton]
        omega
      have rest := ih next (first + 1)
      rw [queuedEdits, List.zipIdx_cons, List.foldl_cons,
        placeEdit_between place, placedWords_cons]
      simpa using rest

theorem queuedIn_placedWords {first : Nat} {tokens : List Text}
    {entry : PlacedWord} (member : entry ∈ placedWords first tokens) :
    entry.queuedIn first (first + tokens.length) = true := by
  obtain ⟨⟨word, number⟩, inside, rfl⟩ := List.mem_map.mp member
  have bounds := List.mem_zipIdx inside
  rw [List.length_map] at bounds
  simp [PlacedWord.queuedIn, bounds.1, bounds.2.1]

theorem map_word_placedWords (first : Nat) (tokens : List Text) :
    (placedWords first tokens).map PlacedWord.word =
      tokens.map createWordNode := by
  rw [placedWords, List.map_map]
  exact List.zipIdx_map_fst first _

/-- The words of the sentence that were queued in a range of numbers. -/
def insertedWords (session : WriteSession) (words : List WordText)
    (first last : Nat) : List WordText :=
  ((placeEdits session words).filter
    (PlacedWord.queuedIn first last)).map PlacedWord.word

theorem editOps_sessionAfter_prefix (session : WriteSession)
    (commands : List WriteMessage) :
    ∃ later, (sessionAfter session commands).editOps =
      session.editOps ++ later := by
  induction commands generalizing session with
  | nil => exact ⟨[], by simp [sessionAfter]⟩
  | cons message commands ih =>
      obtain ⟨later, rest⟩ := ih (writeCommand session message).1
      have first : ∃ own, (writeCommand session message).1.editOps =
          session.editOps ++ own := by
        by_cases accepted : message.tokens ≠ [] ∧
            session.Accepts message.wordIndex message.tokens.length
        · rw [writeCommand_of_accepts accepted.1 accepted.2]
          exact ⟨_, rfl⟩
        · rw [writeCommand_of_rejects fun inhabited accepts =>
            accepted ⟨inhabited, accepts⟩]
          exact ⟨[], (List.append_nil _).symm⟩
      obtain ⟨own, first⟩ := first
      refine ⟨own ++ later, ?_⟩
      rw [← List.append_assoc, ← first]
      exact rest

/-- An acknowledged message queues its words. -/
theorem editOps_of_acknowledged {session : WriteSession}
    {message : WriteMessage}
    (acknowledged : (writeCommand session message).2.msgType = msgAck) :
    (writeCommand session message).1.editOps =
      session.editOps ++ queuedEdits message.wordIndex 0 message.tokens := by
  by_cases empty : message.tokens = []
  · rw [writeCommand_of_rejects fun inhabited => absurd empty inhabited,
      empty, queuedEdits, List.append_nil]
  · have meaning := @commandMeaning session message empty
    exact meaning.queued (meaning.accepted.mp acknowledged)

/-- The words a message inserted, in the order of the sentence. -/
theorem insertedWords_eq {session : WriteSession} {words : List WordText}
    {message : WriteMessage} {earlier later : List EditOperation}
    (counted : session.originalWordCount = words.length)
    (lower : message.tokens ≠ [] → 0 ≤ message.wordIndex)
    (upper : message.tokens ≠ [] →
      message.wordIndex ≤ words.length + earlier.length)
    (queue : session.editOps = earlier ++
      (queuedEdits message.wordIndex 0 message.tokens ++ later)) :
    insertedWords session words earlier.length
        (earlier.length + message.tokens.length) =
      message.tokens.map createWordNode := by
  have offset : (words.length : Int) - session.originalWordCount = 0 := by
    omega
  by_cases empty : message.tokens = []
  · have nothing : ∀ entry : PlacedWord,
        entry.queuedIn earlier.length earlier.length = false := by
      intro entry
      simp only [PlacedWord.queuedIn]
      split
      · simp
      · rfl
    simp [insertedWords, empty, List.filter_eq_nil_iff, nothing]
  -- the sentence before the message, cut at the place of its first word
  generalize middle : earlier.zipIdx.foldl (placeEdit 0)
    (words.map fun word => PlacedWord.mk word none) = before
  have length : before.length = words.length + earlier.length := by
    rw [← middle, length_foldl_placeEdit, List.length_map,
      List.length_zipIdx]
  have place : ((before.take message.wordIndex.toNat).length : Int) =
      message.wordIndex + (0 : Nat) := by
    have := lower empty
    have := upper empty
    rw [List.length_take]
    omega
  have unqueued : before.filter (PlacedWord.queuedIn earlier.length
      (earlier.length + message.tokens.length)) = [] := by
    rw [← middle, filter_foldl_placeEdit]
    · rw [List.filter_eq_nil_iff]
      intro entry member
      obtain ⟨word, _, rfl⟩ := List.mem_map.mp member
      simp [PlacedWord.queuedIn]
    · intro entry member
      have bound := (List.mem_zipIdx member).2.1
      left
      omega
  rw [← List.take_append_drop message.wordIndex.toNat before,
    List.filter_append, List.append_eq_nil_iff] at unqueued
  have placed := @foldl_placeEdit_queuedEdits message.wordIndex 0
    (before.take message.wordIndex.toNat)
    (before.drop message.wordIndex.toNat) place earlier.length
    message.tokens
  rw [List.take_append_drop] at placed
  rw [insertedWords, placeEdits, offset, queue, List.zipIdx_append,
    List.zipIdx_append, List.foldl_append, List.foldl_append, middle,
    Nat.zero_add, placed, filter_foldl_placeEdit, List.filter_append,
    List.filter_append, unqueued.1, unqueued.2, List.nil_append,
    List.append_nil, List.filter_eq_self.mpr, map_word_placedWords]
  · exact fun entry => queuedIn_placedWords
  · intro entry member
    have bound := (List.mem_zipIdx member).1
    rw [queuedEdits_length] at bound
    right
    omega

theorem createWordNode_token {message : WriteMessage} {token : Text}
    (member : token ∈ message.tokens) :
    (createWordNode token).chars = token.take 255 := by
  have nulFree : CText.nul ∉ token := fun found =>
    message.data.nulFree ((CText.mem_strtok member).part.subset found)
  simp [createWordNode, CString.copy, CText.terminated_eq_self nulFree]

theorem length_flatten_map_take_le (limit : Nat) (pieces : List Text) :
    ((pieces.map (List.take limit)).flatten).length ≤
      pieces.flatten.length := by
  induction pieces with
  | nil => rfl
  | cons piece pieces ih =>
      simp only [List.map_cons, List.flatten_cons, List.length_append,
        List.length_take]
      omega

/-- Cutting the pieces of a text changes it unless none is too long. -/
theorem flatten_map_take_iff (limit : Nat) (pieces : List Text) :
    (pieces.map (List.take limit)).flatten = pieces.flatten ↔
      ∀ piece ∈ pieces, piece.length ≤ limit := by
  constructor
  · intro same
    induction pieces with
    | nil => simp
    | cons piece pieces ih =>
        have shorter := length_flatten_map_take_le limit pieces
        have lengths := congrArg List.length same
        simp only [List.map_cons, List.flatten_cons, List.length_append,
          List.length_take] at lengths
        have first : piece.length ≤ limit := by omega
        rw [List.map_cons, List.flatten_cons, List.flatten_cons,
          List.take_of_length_le first] at same
        intro other member
        rcases List.mem_cons.mp member with rfl | later
        · exact first
        · exact ih (List.append_cancel_left same) other later
  · intro short
    rw [List.map_congr_left fun piece member =>
      List.take_of_length_le (short piece member), List.map_id']

theorem writeCommand_response (session : WriteSession)
    (message : WriteMessage) :
    ((writeCommand session message).2.msgType = msgAck ∧
        (writeCommand session message).2.errorCode = errSuccess) ∨
      (writeCommand session message).2.errorCode = errWordOutOfRange := by
  by_cases fits : session.WordsFit message.wordIndex 0 message.tokens.length
  · obtain ⟨found, valid⟩ := validateWords_ok fits (-1)
    unfold WriteMessage.tokens at valid
    left
    simp only [writeCommand, valid]
    exact ⟨trivial, trivial⟩
  · obtain ⟨data, invalid⟩ := @validateWords_error _ _ _ _ (-1) fits
    unfold WriteMessage.tokens at invalid
    right
    simp only [writeCommand, invalid]
    rfl

section Law

variable {opened : WriteSession} {words : List WordText}
  {earlier later : List WriteMessage} {message : WriteMessage}

/-- An acknowledged message puts its cut words into the sentence. -/
theorem insertedWords_of_acknowledged
    (inRange : opened.InRange words.length)
    (acknowledged : (writeCommand (sessionAfter opened earlier)
      message).2.errorCode = errSuccess) :
    insertedWords (sessionAfter opened (earlier ++ message :: later)) words
        (sessionAfter opened earlier).editOps.length
        (sessionAfter opened (earlier ++ [message])).editOps.length =
      message.tokens.map createWordNode := by
  have accepted : (writeCommand (sessionAfter opened earlier)
      message).2.msgType = msgAck := by
    rcases writeCommand_response (sessionAfter opened earlier) message with
      ⟨answer, _⟩ | refused
    · exact answer
    · rw [acknowledged] at refused
      exact absurd refused (by decide)
  have own := editOps_of_acknowledged accepted
  obtain ⟨rest, queue⟩ := editOps_sessionAfter_prefix
    (writeCommand (sessionAfter opened earlier) message).1 later
  have after : sessionAfter opened (earlier ++ message :: later) =
      sessionAfter (writeCommand (sessionAfter opened earlier) message).1
        later := by
    simp [sessionAfter, List.foldl_append]
  have single : sessionAfter opened (earlier ++ [message]) =
      (writeCommand (sessionAfter opened earlier) message).1 := by
    simp [sessionAfter, List.foldl_append]
  have counted := (inRange_sessionAfter inRange earlier).counted
  have bounds : message.tokens ≠ [] → 0 ≤ message.wordIndex ∧
      message.wordIndex ≤
        words.length + (sessionAfter opened earlier).editOps.length := by
    intro inhabited
    obtain ⟨lower, upper, _⟩ :=
      (commandMeaning inhabited).accepted.mp accepted
    rw [counted] at upper
    exact ⟨lower, upper⟩
  rw [single, own, List.length_append, queuedEdits_length]
  apply insertedWords_eq
  · exact (inRange_sessionAfter inRange _).counted
  · exact fun inhabited => (bounds inhabited).1
  · exact fun inhabited => (bounds inhabited).2
  · rw [after, queue, own, List.append_assoc]

theorem insertedText_iff (inRange : opened.InRange words.length)
    (acknowledged : (writeCommand (sessionAfter opened earlier)
      message).2.errorCode = errSuccess) :
    (insertedWords (sessionAfter opened (earlier ++ message :: later)) words
        (sessionAfter opened earlier).editOps.length
        (sessionAfter opened (earlier ++ [message])).editOps.length).flatMap
          CString.chars = message.data.chars.filter (· != ' ') ↔
      ∀ token ∈ message.tokens, token.length ≤ 255 := by
  have cut : (message.tokens.map createWordNode).map CString.chars =
      message.tokens.map (List.take 255) := by
    rw [List.map_map]
    exact List.map_congr_left fun token member => createWordNode_token member
  rw [insertedWords_of_acknowledged inRange acknowledged, List.flatMap_def,
    cut, ← CText.flatten_strtok, ← flatten_map_take_iff]
  rfl

end Law

/-- The text of an acknowledged message is in the sentence unaltered exactly
when none of its words is longer than a word node. -/
theorem stored_text_iff (username : Username) (sentenceIndex : Int)
    (words : List WordText) {earlier later : List WriteMessage}
    {message terminator : WriteMessage}
    (plain : ∀ other ∈ earlier ++ message :: later,
      other.data.chars ≠ etirw)
    (ends : terminator.data.chars = etirw) :
    let opened := newSession username sentenceIndex words.length
    let closed := (receiveCommands opened
      (earlier ++ message :: later ++ [terminator])).1
    (writeCommand (sessionAfter opened earlier) message).2.errorCode =
        errSuccess →
      ((insertedWords closed words
          (sessionAfter opened earlier).editOps.length
          (sessionAfter opened (earlier ++ [message])).editOps.length).flatMap
            CString.chars = message.data.chars.filter (· != ' ') ↔
        ∀ token ∈ message.tokens, token.length ≤ 255) := by
  intro opened closed acknowledged
  have same : closed =
      sessionAfter opened (earlier ++ message :: later) :=
    (receiveCommands_terminated ends plain opened).1
  rw [same]
  exact insertedText_iff
    (inRange_newSession username sentenceIndex words.length) acknowledged

private def redWord : WriteMessage := ⟨0, CString.copy 4095 "red".toList⟩

private def bigWord : WriteMessage := ⟨0, CString.copy 4095 "big".toList⟩

private def endOfWrite : WriteMessage := ⟨0, CString.copy 4095 etirw⟩

theorem stored_text_red :
    let opened := newSession nobody 0 0
    let closed := (receiveCommands opened [redWord, bigWord, endOfWrite]).1
    (insertedWords closed [] 0 1).flatMap CString.chars = "red".toList := by
  intro opened closed
  have law := @stored_text_iff nobody 0 [] [] [bigWord] redWord endOfWrite
    (by decide +kernel) (by decide +kernel) (by decide +kernel)
  exact law.mpr (by decide +kernel)

/-- A word of 256 bytes loses its last byte. -/
theorem stored_text_long_word :
    ¬ ∀ (words : List WordText) (earlier later : List WriteMessage)
        (message terminator : WriteMessage),
      (∀ other ∈ earlier ++ message :: later, other.data.chars ≠ etirw) →
      terminator.data.chars = etirw →
      let opened := newSession nobody 0 words.length
      let closed := (receiveCommands opened
        (earlier ++ message :: later ++ [terminator])).1
      (writeCommand (sessionAfter opened earlier) message).2.errorCode =
          errSuccess →
        (insertedWords closed words
          (sessionAfter opened earlier).editOps.length
          (sessionAfter opened (earlier ++ [message])).editOps.length).flatMap
            CString.chars = message.data.chars.filter (· != ' ') := by
  intro unaltered
  have same := unaltered [] [] []
    ⟨0, CString.copy 4095 (List.replicate 256 'a')⟩ endOfWrite
    (by decide +kernel) (by decide +kernel) (by decide +kernel)
  exact absurd same (by decide +kernel)

end Dfs.StorageServer
