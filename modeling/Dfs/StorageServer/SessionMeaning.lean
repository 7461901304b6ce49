import Dfs.StorageServer.CommittedWords

/-!
# What a write session means

The command loop checks word positions against a sentence it never builds: the
words at the start, the words queued so far and those of the message before.
The commit inserts the queue later, into a sentence that other commits may
have made longer.  This module says which messages are accepted, where their
words are queued, and that the commit inserts every queued word at its place
counted from the words the session started with.
-/

namespace Dfs.StorageServer

/-- The condition under which a message with `count` words is accepted. -/
def WriteSession.Accepts (session : WriteSession) (baseWordIdx : Int)
    (count : Nat) : Prop :=
  0 ≤ baseWordIdx ∧
    baseWordIdx ≤ session.originalWordCount + session.editOps.length ∧
    (session.delimiterIndex < 0 ∨
      baseWordIdx + count - 1 ≤ session.delimiterIndex)

/-- The words of a message at consecutive positions. -/
def queuedEdits (baseWordIdx : Int) (wordOffset : Nat) :
    List Text → List EditOperation
  | [] => []
  | token :: tokens =>
      ⟨baseWordIdx + wordOffset, createWordNode token⟩ ::
        queuedEdits baseWordIdx (wordOffset + 1) tokens

theorem wordIndex_queuedEdits {baseWordIdx : Int} {wordOffset : Nat}
    {tokens : List Text} {position : Nat} {edit : EditOperation}
    (found : (queuedEdits baseWordIdx wordOffset tokens)[position]? =
      some edit) :
    edit.wordIndex = baseWordIdx + wordOffset + position := by
  induction tokens generalizing wordOffset position with
  | nil => simp [queuedEdits] at found
  | cons token tokens ih =>
      cases position with
      | zero =>
          simp only [queuedEdits, List.getElem?_cons_zero,
            Option.some.injEq] at found
          rw [← found]
          simp
      | succ position =>
          simp only [queuedEdits, List.getElem?_cons_succ] at found
          have later := ih found
          push_cast at later ⊢
          omega

/-- The checks on the words of a message from `wordOffset` on. -/
def WriteSession.WordsFit (session : WriteSession) (baseWordIdx : Int)
    (wordOffset count : Nat) : Prop :=
  ∀ step, wordOffset ≤ step → step < wordOffset + count →
    (session.delimiterIndex < 0 ∨
        baseWordIdx + step ≤ session.delimiterIndex) ∧
      0 ≤ baseWordIdx + step ∧
      baseWordIdx ≤ session.originalWordCount + session.editOps.length

theorem validateWords_ok {session : WriteSession} {baseWordIdx : Int}
    {wordOffset : Nat} {tokens : List Text}
    (fits : session.WordsFit baseWordIdx wordOffset tokens.length)
    (firstDelimiter : Int) :
    ∃ found, validateWords session baseWordIdx wordOffset firstDelimiter
      tokens = .ok found := by
  induction tokens generalizing wordOffset firstDelimiter with
  | nil => exact ⟨firstDelimiter, rfl⟩
  | cons token tokens ih =>
      obtain ⟨boundary, lower, upper⟩ := fits wordOffset (Nat.le_refl _)
        (by simp)
      have later : session.WordsFit baseWordIdx (wordOffset + 1)
          tokens.length := by
        intro step after before
        apply fits step (by omega)
        rw [List.length_cons]
        omega
      rw [validateWords]
      rw [if_neg (by omega), if_neg (by omega)]
      exact ih later _

theorem validateWords_error {session : WriteSession} {baseWordIdx : Int}
    {wordOffset : Nat} {tokens : List Text} {firstDelimiter : Int}
    (misfit : ¬ session.WordsFit baseWordIdx wordOffset tokens.length) :
    ∃ data, validateWords session baseWordIdx wordOffset firstDelimiter
      tokens = .error (wordError data) := by
  induction tokens generalizing wordOffset firstDelimiter with
  | nil =>
      exfalso
      apply misfit
      intro step after before
      simp only [List.length_nil] at before
      omega
  | cons token tokens ih =>
      rw [validateWords]
      split
      · exact ⟨_, rfl⟩
      · rename_i inside
        split
        · exact ⟨_, rfl⟩
        · rename_i inRange
          apply ih
          intro later
          apply misfit
          intro step after before
          rw [List.length_cons] at before
          by_cases here : step = wordOffset
          · subst here
            omega
          · exact later step (by omega) (by omega)

theorem wordsFit_iff {session : WriteSession} {baseWordIdx : Int}
    {count : Nat} (inhabited : 0 < count) :
    session.WordsFit baseWordIdx 0 count ↔
      session.Accepts baseWordIdx count := by
  constructor
  · intro fits
    have first := fits 0 (Nat.le_refl _) (by omega)
    have last := fits (count - 1) (Nat.zero_le _) (by omega)
    unfold WriteSession.Accepts
    omega
  · rintro ⟨lower, upper, boundary⟩ step _ before
    omega

theorem editOps_storeWords (baseWordIdx : Int) (session : WriteSession)
    (wordOffset : Nat) (tokens : List Text) :
    (storeWords baseWordIdx session wordOffset tokens).editOps =
      session.editOps ++ queuedEdits baseWordIdx wordOffset tokens := by
  induction tokens generalizing session wordOffset with
  | nil => simp [storeWords, queuedEdits]
  | cons token tokens ih =>
      rw [storeWords, ih]
      simp [queuedEdits]

/-- The words of a message. -/
def WriteMessage.tokens (message : WriteMessage) : List Text :=
  CText.strtok ' ' message.data.chars

/-- What a message with at least one word does to the session. -/
structure CommandMeaning (session : WriteSession) (message : WriteMessage) :
    Prop where
  accepted : (writeCommand session message).2.msgType = msgAck ↔
    session.Accepts message.wordIndex message.tokens.length
  rejected : ¬ session.Accepts message.wordIndex message.tokens.length →
    (writeCommand session message).1 = session
  queued : session.Accepts message.wordIndex message.tokens.length →
    (writeCommand session message).1.editOps =
      session.editOps ++ queuedEdits message.wordIndex 0 message.tokens

theorem editOps_writeCommand {session : WriteSession}
    {message : WriteMessage} {firstDelimiter : Int}
    (valid : validateWords session message.wordIndex 0 (-1) message.tokens =
      .ok firstDelimiter) :
    (writeCommand session message).1.editOps =
        session.editOps ++ queuedEdits message.wordIndex 0 message.tokens ∧
      (writeCommand session message).2.msgType = msgAck := by
  have stored := editOps_storeWords message.wordIndex session 0
    message.tokens
  unfold WriteMessage.tokens at valid stored ⊢
  simp only [writeCommand, valid]
  split
  · exact ⟨stored, trivial⟩
  · exact ⟨stored, trivial⟩

theorem commandMeaning {session : WriteSession} {message : WriteMessage}
    (inhabited : message.tokens ≠ []) : CommandMeaning session message := by
  have some_ : 0 < message.tokens.length :=
    List.length_pos_of_ne_nil inhabited
  by_cases fits : session.WordsFit message.wordIndex 0 message.tokens.length
  · obtain ⟨found, valid⟩ := validateWords_ok fits (-1)
    obtain ⟨edits, answer⟩ := editOps_writeCommand valid
    have accepts := (wordsFit_iff some_).mp fits
    exact ⟨⟨fun _ => accepts, fun _ => answer⟩,
      fun rejects => (rejects accepts).elim, fun _ => edits⟩
  · obtain ⟨data, invalid⟩ := @validateWords_error _ _ _ _ (-1) fits
    have rejects := fun accepts => fits ((wordsFit_iff some_).mpr accepts)
    have unchanged : writeCommand session message =
        (session, wordError data) := by
      unfold WriteMessage.tokens at invalid
      simp only [writeCommand, invalid]
    refine ⟨?_, ?_, fun accepts => (rejects accepts).elim⟩
    · rw [unchanged]
      have different : ¬ msgError = msgAck := by decide
      exact ⟨fun answer => (different answer).elim,
        fun accepts => (rejects accepts).elim⟩
    · intro _
      rw [unchanged]

/-- The session after these messages. -/
def sessionAfter (session : WriteSession) (commands : List WriteMessage) :
    WriteSession :=
  commands.foldl (fun session message => (writeCommand session message).1)
    session

theorem receiveCommands_terminated {commands : List WriteMessage}
    {terminator : WriteMessage} (ends : terminator.data.chars = etirw)
    (plain : ∀ message ∈ commands, message.data.chars ≠ etirw)
    (session : WriteSession) :
    (receiveCommands session (commands ++ [terminator])).1 =
        sessionAfter session commands ∧
      (receiveCommands session (commands ++ [terminator])).2.1 = true := by
  induction commands generalizing session with
  | nil => simp [receiveCommands, ends, sessionAfter]
  | cons message commands ih =>
      have rest := ih (fun other member => plain other (by simp [member]))
        (writeCommand session message).1
      have other : message.data.chars ≠ etirw := plain message (by simp)
      simpa [receiveCommands, other, sessionAfter] using rest

/-- Every queued word has a position in the sentence as it is then. -/
structure WriteSession.InRange (session : WriteSession)
    (originalWordCount : Nat) : Prop where
  counted : session.originalWordCount = originalWordCount
  indices : ∀ (position : Nat) (edit : EditOperation),
    session.editOps[position]? = some edit →
      0 ≤ edit.wordIndex ∧ edit.wordIndex ≤ originalWordCount + position

theorem WriteSession.InRange.writeCommand {session : WriteSession}
    {originalWordCount : Nat} (inRange : session.InRange originalWordCount)
    (message : WriteMessage) :
    (writeCommand session message).1.InRange originalWordCount := by
  have fields := writeCommand_fields session message
  refine ⟨by rw [fields.2.2.1, inRange.counted], ?_⟩
  intro position edit found
  by_cases empty : message.tokens = []
  · obtain ⟨_, valid⟩ := @validateWords_ok session message.wordIndex 0
      message.tokens (by simp [WordsFit, empty]) (-1)
    rw [(editOps_writeCommand valid).1, empty, queuedEdits,
      List.append_nil] at found
    exact inRange.indices position edit found
  · have meaning := @commandMeaning session message empty
    by_cases accepts : session.Accepts message.wordIndex
        message.tokens.length
    · rw [meaning.queued accepts] at found
      obtain ⟨lower, upper, _⟩ := accepts
      rw [inRange.counted] at upper
      by_cases earlier : position < session.editOps.length
      · rw [List.getElem?_append_left earlier] at found
        exact inRange.indices position edit found
      · rw [List.getElem?_append_right (by omega)] at found
        have index := wordIndex_queuedEdits found
        rw [index]
        omega
    · rw [meaning.rejected accepts] at found
      exact inRange.indices position edit found

theorem inRange_sessionAfter {session : WriteSession}
    {originalWordCount : Nat} (inRange : session.InRange originalWordCount)
    (commands : List WriteMessage) :
    (sessionAfter session commands).InRange originalWordCount := by
  induction commands generalizing session with
  | nil => exact inRange
  | cons message commands ih => exact ih (inRange.writeCommand message)

theorem inRange_newSession (username : Username) (sentenceIndex : Int)
    (originalWordCount : Nat) :
    (newSession username sentenceIndex originalWordCount).InRange
      originalWordCount :=
  ⟨rfl, by simp [newSession]⟩

theorem sentenceIndex_sessionAfter (session : WriteSession)
    (commands : List WriteMessage) :
    (sessionAfter session commands).sentenceIndex =
      session.sentenceIndex := by
  induction commands generalizing session with
  | nil => rfl
  | cons message commands ih =>
      exact (ih _).trans (writeCommand_fields session message).2.1

/-- The walk of the commit to the predecessor, `steps` nodes past the first
but not past the last; without a predecessor the word is lost. -/
def insertAfter (newWord : WordText) : Nat → List WordText → List WordText
  | _, [] => []
  | 0, prev :: rest => prev :: newWord :: rest
  | _ + 1, [prev] => [prev, newWord]
  | steps + 1, prev :: next :: rest =>
      prev :: insertAfter newWord steps (next :: rest)

/-- One turn of the loop over the queue, pointer by pointer. -/
def walkEdit (wordOffset : Int) (words : List WordText)
    (edit : EditOperation) : List WordText :=
  let adjustedIdx := edit.wordIndex + wordOffset
  let adjustedIdx := if adjustedIdx < 0 then 0 else adjustedIdx
  let adjustedIdx :=
    if adjustedIdx > words.length then (words.length : Int) else adjustedIdx
  let newWord := createWordNode edit.word.chars
  if adjustedIdx = 0 then newWord :: words
  else insertAfter newWord (adjustedIdx - 1).toNat words

theorem insertAfter_eq_insertIdx (newWord : WordText) {steps : Nat}
    {words : List WordText} (inRange : steps < words.length) :
    insertAfter newWord steps words =
      words.insertIdx (steps + 1) newWord := by
  induction words generalizing steps with
  | nil => simp at inRange
  | cons prev rest ih =>
      cases steps with
      | zero => rfl
      | succ steps =>
          cases rest with
          | nil => simp at inRange
          | cons next rest =>
              rw [insertAfter, ih (by simpa using inRange)]
              rfl

/-- The walk inserts where the model does. -/
theorem walkEdit_eq_applyEdit (wordOffset : Int) (words : List WordText)
    (edit : EditOperation) :
    walkEdit wordOffset words edit = applyEdit wordOffset words edit := by
  have within : ∀ index : Int, 0 ≤ index → index ≤ words.length →
      (if index = 0 then createWordNode edit.word.chars :: words
        else insertAfter (createWordNode edit.word.chars)
          (index - 1).toNat words) =
        words.insertIdx index.toNat (createWordNode edit.word.chars) := by
    intro index lower upper
    split
    · rename_i head
      rw [head]
      rfl
    · rw [insertAfter_eq_insertIdx _ (by omega)]
      congr 1
      omega
  apply within
  · split
    · omega
    · split
      · omega
      · omega
  · split
    · omega
    · omega

/-- The queued words inserted one after another at their own positions. -/
def insertQueue (edits : List EditOperation) (words : List WordText) :
    List WordText :=
  edits.foldl
    (fun words edit => words.insertIdx edit.wordIndex.toNat edit.word) words

theorem insertIdx_append_right {α : Type} (front back : List α)
    (index : Nat) (word : α) :
    (front ++ back).insertIdx (front.length + index) word =
      front ++ back.insertIdx index word := by
  induction front with
  | nil => simp
  | cons first front ih =>
      have shifted : (first :: front).length + index =
          (front.length + index) + 1 := by
        simp only [List.length_cons]
        omega
      rw [List.cons_append, shifted, List.insertIdx_succ_cons, ih,
        List.cons_append]

/-- A word in range is inserted behind the words other commits added. -/
theorem applyEdit_append {front back : List WordText} {edit : EditOperation}
    (lower : 0 ≤ edit.wordIndex) (upper : edit.wordIndex ≤ back.length) :
    applyEdit front.length (front ++ back) edit =
      front ++ back.insertIdx edit.wordIndex.toNat edit.word := by
  have index : (edit.wordIndex + front.length).toNat =
      front.length + edit.wordIndex.toNat := by omega
  have positive : ¬ edit.wordIndex + front.length < 0 := by omega
  have inside : ¬ edit.wordIndex + front.length >
      ((front ++ back).length : Int) := by
    rw [List.length_append]
    omega
  simp only [applyEdit, createWordNode, CString.copy_chars]
  rw [if_neg positive, if_neg inside, index]
  exact insertIdx_append_right front back _ edit.word

theorem foldl_applyEdit_append {front back : List WordText}
    {edits : List EditOperation}
    (inRange : ∀ (position : Nat) (edit : EditOperation),
      edits[position]? = some edit →
        0 ≤ edit.wordIndex ∧ edit.wordIndex ≤ back.length + position) :
    edits.foldl (applyEdit front.length) (front ++ back) =
      front ++ insertQueue edits back := by
  induction edits generalizing back with
  | nil => rfl
  | cons edit edits ih =>
      obtain ⟨lower, upper⟩ := inRange 0 edit (by simp)
      have grown : (back.insertIdx edit.wordIndex.toNat edit.word).length =
          back.length + 1 := by
        apply List.length_insertIdx_of_le_length
        have bound : edit.wordIndex ≤ back.length := by simpa using upper
        omega
      rw [List.foldl_cons,
        applyEdit_append lower (by simpa using upper)]
      apply ih
      intro position other found
      have bounds := inRange (position + 1) other (by simpa using found)
      rw [grown]
      push_cast at bounds ⊢
      omega

/-- The commit of a session whose words are in range. -/
theorem applyEdits_eq {session : WriteSession} {originalWordCount : Nat}
    (inRange : session.InRange originalWordCount) {words : List WordText}
    (grown : originalWordCount ≤ words.length) :
    applyEdits session words =
      words.take (words.length - originalWordCount) ++
        insertQueue session.editOps
          (words.drop (words.length - originalWordCount)) := by
  have back : (words.drop (words.length - originalWordCount)).length =
      originalWordCount := by
    rw [List.length_drop]
    omega
  have front : (words.take (words.length - originalWordCount)).length =
      words.length - originalWordCount := by
    rw [List.length_take]
    omega
  have inserted := @foldl_applyEdit_append
    (words.take (words.length - originalWordCount)) _ session.editOps
    (by rw [back]; exact inRange.indices)
  rw [List.take_append_drop, front] at inserted
  unfold applyEdits
  rw [inRange.counted, ← Int.ofNat_sub grown]
  exact inserted

/-- Every queued word is inserted, none at a clamped position. -/
structure InsertsAll (session : WriteSession) (originalWordCount : Nat)
    (words : List WordText) : Prop where
  walk : session.editOps.foldl
    (walkEdit (words.length - originalWordCount)) words =
      applyEdits session words
  unclamped : ∀ (position : Nat) (edit : EditOperation),
    session.editOps[position]? = some edit →
      0 ≤ edit.wordIndex + ((words.length : Int) - originalWordCount) ∧
        edit.wordIndex + ((words.length : Int) - originalWordCount) ≤
          ((session.editOps.take position).foldl
            (walkEdit (words.length - originalWordCount)) words).length
  undropped : (applyEdits session words).length =
    words.length + session.editOps.length

theorem insertsAll {session : WriteSession} {originalWordCount : Nat}
    (inRange : session.InRange originalWordCount) {words : List WordText}
    (grown : originalWordCount ≤ words.length) :
    InsertsAll session originalWordCount words := by
  have same : walkEdit ((words.length : Int) - originalWordCount) =
      applyEdit (words.length - originalWordCount) := by
    funext words edit
    exact walkEdit_eq_applyEdit _ words edit
  have lengths : ∀ edits : List EditOperation,
      (edits.foldl (applyEdit (words.length - originalWordCount))
        words).length = words.length + edits.length := by
    intro edits
    have added := (foldl_applyEdit_spec (words.length - originalWordCount)
      edits words).2.length_eq
    simpa using added
  refine ⟨?_, ?_, ?_⟩
  · rw [same, applyEdits, inRange.counted]
  · intro position edit found
    have bounds := inRange.indices position edit found
    have reached := (List.getElem?_eq_some_iff.mp found).1
    rw [same, lengths, List.length_take_of_le (by omega)]
    push_cast
    omega
  · rw [applyEdits, inRange.counted]
    exact lengths session.editOps

/-- What a session means that opened on `originalWordCount` words, received
`commands` and was then closed. -/
structure SessionMeaning (opened closed : WriteSession)
    (originalWordCount : Nat) (commands : List WriteMessage) : Prop where
  counted : ∀ earlier later, commands = earlier ++ later →
    (sessionAfter opened earlier).originalWordCount = originalWordCount
  command : ∀ earlier message later,
    commands = earlier ++ message :: later → message.tokens ≠ [] →
      CommandMeaning (sessionAfter opened earlier) message
  final : closed = sessionAfter opened commands
  indices : ∀ (position : Nat) (edit : EditOperation),
    closed.editOps[position]? = some edit →
      0 ≤ edit.wordIndex ∧ edit.wordIndex ≤ originalWordCount + position
  inserts : ∀ words : List WordText, originalWordCount ≤ words.length →
    InsertsAll closed originalWordCount words
  commit : ∀ (document : Document) (sentence : SentenceNode),
    document.sentenceAt opened.sentenceIndex = some sentence →
    originalWordCount ≤ sentence.words.length →
      document.commit closed = some
        (document.setSentence opened.sentenceIndex
          { sentence with
            words :=
              sentence.words.take
                  (sentence.words.length - originalWordCount) ++
                insertQueue closed.editOps
                  (sentence.words.drop
                    (sentence.words.length - originalWordCount)) })
  append : ∀ document : Document,
    document.sentenceAt opened.sentenceIndex = none →
    opened.sentenceIndex = document.sentenceCount →
    originalWordCount = 0 →
      document.commit closed = some
        { sentences := document.sentences ++
            [{ createSentenceNode CText.nul with
               words := insertQueue closed.editOps [] }]
          sentenceCount := document.sentenceCount + 1 }

/-- The exact meaning of a session that ends with `ETIRW`. -/
theorem write_session_meaning (username : Username) (sentenceIndex : Int)
    (originalWordCount : Nat) {commands : List WriteMessage}
    {terminator : WriteMessage} (ends : terminator.data.chars = etirw)
    (plain : ∀ message ∈ commands, message.data.chars ≠ etirw) :
    (receiveCommands (newSession username sentenceIndex originalWordCount)
        (commands ++ [terminator])).2.1 = true ∧
      SessionMeaning (newSession username sentenceIndex originalWordCount)
        (receiveCommands
          (newSession username sentenceIndex originalWordCount)
          (commands ++ [terminator])).1
        originalWordCount commands := by
  obtain ⟨closed, completed⟩ := receiveCommands_terminated ends plain
    (newSession username sentenceIndex originalWordCount)
  have start := inRange_newSession username sentenceIndex originalWordCount
  have inRange := inRange_sessionAfter start commands
  have target : (sessionAfter
      (newSession username sentenceIndex originalWordCount)
      commands).sentenceIndex = sentenceIndex :=
    sentenceIndex_sessionAfter _ commands
  refine ⟨completed, ?_⟩
  rw [closed]
  refine ⟨?_, ?_, rfl, inRange.indices, ?_, ?_, ?_⟩
  · intro earlier _ _
    exact (inRange_sessionAfter start earlier).counted
  · intro earlier message _ _ inhabited
    exact commandMeaning inhabited
  · intro words grown
    exact insertsAll inRange grown
  · intro document sentence found grown
    have foundHere : document.sentenceAt sentenceIndex = some sentence :=
      found
    simp only [Document.commit, target, foundHere,
      applyEdits_eq inRange grown]
    rfl
  · intro document absent next empty
    have absentHere : document.sentenceAt sentenceIndex = none := absent
    have nextHere : sentenceIndex = document.sentenceCount := next
    have inserted := @applyEdits_eq _ _ inRange [] (by simp [empty])
    simp only [List.take_nil, List.drop_nil, List.nil_append] at inserted
    simp only [Document.commit, target, absentHere, inserted]
    rw [if_pos nextHere]

private def twoWords : WriteMessage :=
  ⟨0, CString.copy 4095 "big red".toList⟩

private def closing : WriteMessage := ⟨0, CString.copy 4095 etirw⟩

/-- Two words queued before the only word, which has company by then. -/
theorem write_session_two_words :
    let opened := newSession (CString.copy 63 "ann".toList) 0 1
    let closed := (receiveCommands opened [twoWords, closing]).1
    closed.editOps.map EditOperation.wordIndex = [0, 1] ∧
      SessionMeaning opened closed 1 [twoWords] ∧
      wordsText (applyEdits closed
        ("the apple".toList.splitOn ' ' |>.map createWordNode)) =
          "the big red apple".toList :=
  ⟨by decide +kernel,
    (@write_session_meaning (CString.copy 63 "ann".toList) 0 1 [twoWords]
      closing (by decide +kernel) (by decide +kernel)).2,
    by decide +kernel⟩

end Dfs.StorageServer
