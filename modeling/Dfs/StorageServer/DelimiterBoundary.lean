import Dfs.StorageServer.SessionMeaning

/-!
# The sentence delimiter during a session

The command loop keeps one index, the place of a word that ended in a delimiter
when it was queued, and refuses words behind it.  Other words can end in a
delimiter too: words that the sentence had before the session, words queued
while the index was set, later words of the message that set it, and words cut
at a delimiter byte.  This module follows the words of the sentence during a
session together with that one record, and says when no word is accepted behind
a delimiter.
-/

namespace Dfs.StorageServer

/-- The delimiter index after an accepted message. -/
def WriteSession.delimiterAfter (session : WriteSession) (baseWordIdx : Int)
    (tokens : List Text) : Int :=
  if session.delimiterIndex ≥ 0 then session.delimiterIndex + tokens.length
  else
    match tokens.findIdx? endsInDelimiter with
    | some position => baseWordIdx + position
    | none => session.delimiterIndex

theorem validateWords_found {session : WriteSession}
    {baseWordIdx firstDelimiter found : Int} {wordOffset : Nat}
    {tokens : List Text}
    (valid : validateWords session baseWordIdx wordOffset firstDelimiter
      tokens = .ok found) :
    found =
      if firstDelimiter ≥ 0 then firstDelimiter
      else
        match tokens.findIdx? endsInDelimiter with
        | some position => baseWordIdx + wordOffset + position
        | none => firstDelimiter := by
  induction tokens generalizing wordOffset firstDelimiter with
  | nil =>
      simp only [validateWords, Except.ok.injEq] at valid
      simp [valid]
  | cons token tokens ih =>
      rw [validateWords] at valid
      split at valid
      · exact absurd valid (by simp)
      split at valid
      · exact absurd valid (by simp)
      rename_i inRange
      rw [ih valid, List.findIdx?_cons]
      by_cases known : firstDelimiter ≥ 0
      · simp [known, show ¬ firstDelimiter < 0 by omega]
      · by_cases ended : endsInDelimiter token = true
        · simp [ended, known, show firstDelimiter < 0 by omega,
            show 0 ≤ baseWordIdx + (wordOffset : Int) by omega]
        · simp only [ended, known]
          cases tokens.findIdx? endsInDelimiter with
          | none => simp [known]
          | some position =>
              simp [known]
              omega

theorem delimiterIndex_storeWords {baseWordIdx : Int}
    {session : WriteSession} {wordOffset : Nat} {tokens : List Text}
    (before : session.delimiterIndex < 0 ∨
      baseWordIdx + wordOffset ≤ session.delimiterIndex) :
    (storeWords baseWordIdx session wordOffset tokens).delimiterIndex =
      if session.delimiterIndex ≥ 0 then
        session.delimiterIndex + tokens.length
      else session.delimiterIndex := by
  induction tokens generalizing session wordOffset with
  | nil => simp [storeWords]
  | cons token tokens ih =>
      rw [storeWords, ih]
      · by_cases known : session.delimiterIndex ≥ 0
        · have inside : baseWordIdx + wordOffset ≤ session.delimiterIndex := by
            omega
          have later : session.delimiterIndex + 1 ≥ 0 := by omega
          simp only [known, inside, and_self, if_true, later,
            List.length_cons]
          push_cast
          omega
        · simp [known]
      · dsimp only
        split
        · omega
        · omega

theorem delimiterIndex_writeCommand {session : WriteSession}
    {message : WriteMessage} {firstDelimiter : Int}
    (valid : validateWords session message.wordIndex 0 (-1) message.tokens =
      .ok firstDelimiter)
    (accepts : session.Accepts message.wordIndex message.tokens.length)
    (inhabited : message.tokens ≠ []) :
    (writeCommand session message).1.delimiterIndex =
      session.delimiterAfter message.wordIndex message.tokens := by
  obtain ⟨lower, _, boundary⟩ := accepts
  have some_ := List.length_pos_of_ne_nil inhabited
  have stored := @delimiterIndex_storeWords message.wordIndex session 0
    message.tokens (by omega)
  have found := validateWords_found valid
  unfold WriteMessage.tokens at valid stored found ⊢
  simp only [writeCommand, valid, WriteSession.delimiterAfter]
  by_cases known : session.delimiterIndex ≥ 0
  · rw [if_pos known] at stored ⊢
    have later : ¬ (storeWords message.wordIndex session 0
        (CText.strtok ' ' message.data.chars)).delimiterIndex < 0 := by
      rw [stored]
      omega
    simp only [later, and_false, if_false]
    exact stored
  · rw [if_neg known] at stored ⊢
    have unknown : (storeWords message.wordIndex session 0
        (CText.strtok ' ' message.data.chars)).delimiterIndex < 0 := by
      rw [stored]
      omega
    cases ended : List.findIdx? endsInDelimiter
        (CText.strtok ' ' message.data.chars) with
    | none =>
        simp only [ended] at found
        simp [found, stored]
    | some position =>
        simp only [ended] at found
        have placed : firstDelimiter = message.wordIndex + position := by
          simpa using found
        have positive : firstDelimiter ≥ 0 := by omega
        simp only [positive, unknown, and_self, if_true]
        exact placed

/-- Everything an accepted message does to the session. -/
theorem writeCommand_of_accepts {session : WriteSession}
    {message : WriteMessage} (inhabited : message.tokens ≠ [])
    (accepts : session.Accepts message.wordIndex message.tokens.length) :
    (writeCommand session message).1 =
      { session with
        editOps := session.editOps ++
          queuedEdits message.wordIndex 0 message.tokens
        delimiterIndex :=
          session.delimiterAfter message.wordIndex message.tokens } := by
  have fits := (wordsFit_iff (List.length_pos_of_ne_nil inhabited)).mpr
    accepts
  obtain ⟨_, valid⟩ := validateWords_ok fits (-1)
  have editOps := (editOps_writeCommand valid).1
  have delimiterIndex := delimiterIndex_writeCommand valid accepts inhabited
  obtain ⟨username, sentenceIndex, originalWordCount, committing⟩ :=
    writeCommand_fields session message
  generalize (writeCommand session message).1 = after at *
  cases after
  simp_all

theorem writeCommand_of_rejects {session : WriteSession}
    {message : WriteMessage}
    (rejects : message.tokens ≠ [] →
      ¬ session.Accepts message.wordIndex message.tokens.length) :
    (writeCommand session message).1 = session := by
  by_cases empty : message.tokens = []
  · unfold WriteMessage.tokens at empty
    simp [writeCommand, empty, validateWords, storeWords]
  · exact (commandMeaning empty).rejected (rejects empty)

/-- Each word of the queue is placed behind no word that ends in a
delimiter. -/
def BoundaryKept : List WordText → List EditOperation → Prop
  | _, [] => True
  | words, edit :: edits =>
      (∀ word ∈ words.take edit.wordIndex.toNat,
        endsInDelimiter word.chars = false) ∧
      BoundaryKept (applyEdit 0 words edit) edits

instance : ∀ (words : List WordText) (edits : List EditOperation),
    Decidable (BoundaryKept words edits)
  | _, [] => .isTrue trivial
  | words, edit :: edits =>
      have : Decidable (BoundaryKept (applyEdit 0 words edit) edits) :=
        instDecidableBoundaryKept (applyEdit 0 words edit) edits
      inferInstanceAs (Decidable (_ ∧ _))

theorem boundaryKept_append (words : List WordText)
    (edits later : List EditOperation) :
    BoundaryKept words (edits ++ later) ↔
      BoundaryKept words edits ∧
        BoundaryKept (edits.foldl (applyEdit 0) words) later := by
  induction edits generalizing words with
  | nil => simp [BoundaryKept]
  | cons edit edits ih =>
      rw [List.cons_append, BoundaryKept, BoundaryKept, ih, and_assoc,
        List.foldl_cons]

theorem applyEdit_between {edit : EditOperation} {front back : List WordText}
    (place : (front.length : Int) = edit.wordIndex) :
    applyEdit 0 (front ++ back) edit = front ++ edit.word :: back := by
  have inserted := @applyEdit_append [] (front ++ back) edit (by omega)
    (by rw [List.length_append]; omega)
  have index : edit.wordIndex.toNat = front.length + 0 := by omega
  rw [index, insertIdx_append_right] at inserted
  simpa using inserted

section OneMessage

variable {baseWordIdx : Int} {wordOffset : Nat} {front back : List WordText}

/-- The words of a message are inserted as one block. -/
theorem foldl_queuedEdits
    (place : (front.length : Int) = baseWordIdx + wordOffset)
    (tokens : List Text) :
    (queuedEdits baseWordIdx wordOffset tokens).foldl (applyEdit 0)
        (front ++ back) =
      front ++ tokens.map createWordNode ++ back := by
  induction tokens generalizing wordOffset front with
  | nil => simp [queuedEdits]
  | cons token tokens ih =>
      have next : ((front ++ [createWordNode token]).length : Int) =
          baseWordIdx + (wordOffset + 1 : Nat) := by
        rw [List.length_append, List.length_singleton]
        omega
      have rest := ih next
      rw [queuedEdits, List.foldl_cons,
        @applyEdit_between ⟨_, createWordNode token⟩ front back place]
      simpa using rest

theorem boundaryKept_queuedEdits
    (place : (front.length : Int) = baseWordIdx + wordOffset)
    {tokens : List Text} (inhabited : tokens ≠ []) :
    BoundaryKept (front ++ back)
        (queuedEdits baseWordIdx wordOffset tokens) ↔
      (∀ word ∈ front, endsInDelimiter word.chars = false) ∧
        ∀ token ∈ tokens.dropLast,
          endsInDelimiter (createWordNode token).chars = false := by
  induction tokens generalizing wordOffset front with
  | nil => exact absurd rfl inhabited
  | cons token tokens ih =>
      have index : (baseWordIdx + (wordOffset : Int)).toNat =
          front.length := by omega
      rw [queuedEdits, BoundaryKept, index, List.take_left,
        @applyEdit_between ⟨_, createWordNode token⟩ front back place]
      cases tokens with
      | nil => simp [queuedEdits, BoundaryKept]
      | cons next tokens =>
          have further : ((front ++ [createWordNode token]).length : Int) =
              baseWordIdx + (wordOffset + 1 : Nat) := by
            rw [List.length_append, List.length_singleton]
            omega
          have rest := ih further (by simp)
          rw [List.append_assoc, List.singleton_append] at rest
          rw [rest, List.dropLast_cons_cons]
          constructor
          · rintro ⟨clear, placed, later⟩
            refine ⟨clear, ?_⟩
            intro other member
            rcases List.mem_cons.mp member with rfl | member
            · exact placed _ (by simp)
            · exact later other member
          · rintro ⟨clear, words⟩
            refine ⟨clear, ?_, fun other member =>
              words other (List.mem_cons_of_mem _ member)⟩
            intro word member
            rcases List.mem_append.mp member with before | same
            · exact clear word before
            · rw [List.mem_singleton.mp same]
              exact words token List.mem_cons_self

end OneMessage

/-- A word of the sentence; `recorded` marks the word whose place the
delimiter index keeps. -/
structure DraftWord where
  word : WordText
  recorded : Bool

/-- The session with the sentence as its accepted words make it. -/
structure Draft where
  session : WriteSession
  words : List DraftWord

def openDraft (username : Username) (sentenceIndex : Int)
    (words : List WordText) : Draft :=
  { session := newSession username sentenceIndex words.length
    words := words.map fun word => ⟨word, false⟩ }

/-- The words of a message; the first that ends in a delimiter is recorded
when the index is still unset. -/
def recordWords : Bool → List Text → List DraftWord
  | _, [] => []
  | searching, token :: tokens =>
      ⟨createWordNode token, searching && endsInDelimiter token⟩ ::
        recordWords (searching && !endsInDelimiter token) tokens

instance (session : WriteSession) (baseWordIdx : Int) (count : Nat) :
    Decidable (session.Accepts baseWordIdx count) :=
  inferInstanceAs (Decidable (_ ∧ _ ∧ (_ ∨ _)))

def Draft.command (draft : Draft) (message : WriteMessage) : Draft :=
  let index := message.wordIndex.toNat
  { session := (writeCommand draft.session message).1
    words :=
      if draft.session.Accepts message.wordIndex message.tokens.length then
        draft.words.take index ++
          recordWords (draft.session.delimiterIndex < 0) message.tokens ++
            draft.words.drop index
      else draft.words }

/-- No stored word of the message but its last ends in a delimiter, and a word
before its index that does is the recorded one. -/
def Draft.Clear (draft : Draft) (message : WriteMessage) : Prop :=
  (∀ token ∈ message.tokens.dropLast,
    endsInDelimiter (createWordNode token).chars = false) ∧
  ∀ entry ∈ draft.words.take message.wordIndex.toNat,
    endsInDelimiter entry.word.chars = true → entry.recorded = true

/-- Every accepted message with a word is clear when it arrives. -/
def Draft.CommandsClear : Draft → List WriteMessage → Prop
  | _, [] => True
  | draft, message :: messages =>
      if message.data.chars = etirw then True
      else
        (message.tokens ≠ [] →
          draft.session.Accepts message.wordIndex message.tokens.length →
          draft.Clear message) ∧
        (draft.command message).CommandsClear messages

theorem length_recordWords (searching : Bool) (tokens : List Text) :
    (recordWords searching tokens).length = tokens.length := by
  induction tokens generalizing searching with
  | nil => rfl
  | cons token tokens ih => simp [recordWords, ih]

theorem map_word_recordWords (searching : Bool) (tokens : List Text) :
    (recordWords searching tokens).map DraftWord.word =
      tokens.map createWordNode := by
  induction tokens generalizing searching with
  | nil => rfl
  | cons token tokens ih => simp [recordWords, ih]

theorem recorded_recordWords_false {tokens : List Text} {entry : DraftWord}
    (member : entry ∈ recordWords false tokens) :
    entry.recorded = false := by
  induction tokens with
  | nil => simp [recordWords] at member
  | cons token tokens ih =>
      rw [recordWords, Bool.false_and, Bool.false_and] at member
      rcases List.mem_cons.mp member with rfl | later
      · rfl
      · exact ih later

/-- One word of a list is recorded, at this place. -/
def RecordedAt (words : List DraftWord) (place : Int) : Prop :=
  ∃ front entry back, words = front ++ entry :: back ∧
    (front.length : Int) = place ∧ entry.recorded = true ∧
    ∀ other ∈ front ++ back, other.recorded = false

def NoneRecorded (words : List DraftWord) : Prop :=
  ∀ entry ∈ words, entry.recorded = false

theorem RecordedAt.surround {words front back : List DraftWord} {place : Int}
    (recorded : RecordedAt words place) (frontNone : NoneRecorded front)
    (backNone : NoneRecorded back) :
    RecordedAt (front ++ words ++ back) (front.length + place) := by
  obtain ⟨before, entry, after, rfl, length, isRecorded, others⟩ := recorded
  refine ⟨front ++ before, entry, after ++ back, by simp, ?_, isRecorded, ?_⟩
  · rw [List.length_append]
    omega
  · intro other member
    simp only [List.mem_append] at member others
    rcases member with (inFront | inBefore) | (inAfter | inBack)
    · exact frontNone other inFront
    · exact others other (.inl inBefore)
    · exact others other (.inr inAfter)
    · exact backNone other inBack

theorem RecordedAt.drop {words : List DraftWord} {place : Int} {count : Nat}
    (recorded : RecordedAt words place) (before : (count : Int) ≤ place) :
    RecordedAt (words.drop count) (place - count) := by
  obtain ⟨front, entry, back, rfl, length, isRecorded, others⟩ := recorded
  have within : count ≤ front.length := by omega
  refine ⟨front.drop count, entry, back, List.drop_append_of_le_length within,
    ?_, isRecorded, ?_⟩
  · rw [List.length_drop]
    omega
  · intro other member
    apply others other
    rcases List.mem_append.mp member with inFront | inBack
    · exact List.mem_append_left _ (List.mem_of_mem_drop inFront)
    · exact List.mem_append_right _ inBack

theorem NoneRecorded.append {front back : List DraftWord}
    (frontNone : NoneRecorded front) (backNone : NoneRecorded back) :
    NoneRecorded (front ++ back) := by
  intro entry member
  rcases List.mem_append.mp member with inFront | inBack
  · exact frontNone entry inFront
  · exact backNone entry inBack

theorem recordWords_true (tokens : List Text) :
    match tokens.findIdx? endsInDelimiter with
    | some position => RecordedAt (recordWords true tokens) position
    | none => NoneRecorded (recordWords true tokens) := by
  induction tokens with
  | nil => simp [recordWords, NoneRecorded]
  | cons token tokens ih =>
      rw [List.findIdx?_cons, recordWords]
      by_cases ended : endsInDelimiter token = true
      · simp only [ended, if_true, Bool.true_and, Bool.not_true]
        refine ⟨[], _, _, rfl, rfl, rfl, ?_⟩
        intro other member
        exact recorded_recordWords_false member
      · have unended : endsInDelimiter token = false := by simpa using ended
        have first : NoneRecorded [⟨createWordNode token, false⟩] := by
          intro entry member
          rw [List.mem_singleton.mp member]
        simp only [unended, Bool.false_eq_true, if_false, Bool.and_false,
          Bool.not_false, Bool.and_true]
        cases found : tokens.findIdx? endsInDelimiter with
        | none =>
            simp only [found] at ih
            intro entry member
            rcases List.mem_cons.mp member with rfl | later
            · rfl
            · exact ih entry later
        | some position =>
            simp only [found] at ih
            have last : NoneRecorded [] := by simp [NoneRecorded]
            have shifted := ih.surround first last
            simpa [Int.add_comm] using shifted

/-- The index keeps the place of the recorded word. -/
structure Draft.Tracks (draft : Draft) : Prop where
  counted : draft.session.originalWordCount + draft.session.editOps.length =
    draft.words.length
  unset : draft.session.delimiterIndex < 0 → NoneRecorded draft.words
  kept : draft.session.delimiterIndex ≥ 0 →
    RecordedAt draft.words draft.session.delimiterIndex

theorem tracks_openDraft (username : Username) (sentenceIndex : Int)
    (words : List WordText) :
    (openDraft username sentenceIndex words).Tracks := by
  refine ⟨by simp [openDraft, newSession], ?_, ?_⟩
  · intro _ entry member
    obtain ⟨word, _, rfl⟩ := List.mem_map.mp member
    rfl
  · intro known
    simp [openDraft, newSession] at known

section Command

variable {draft : Draft} {message : WriteMessage}

theorem Draft.command_of_accepts
    (inhabited : message.tokens ≠ [])
    (accepts : draft.session.Accepts message.wordIndex
      message.tokens.length) :
    draft.command message =
      { session :=
          { draft.session with
            editOps := draft.session.editOps ++
              queuedEdits message.wordIndex 0 message.tokens
            delimiterIndex := draft.session.delimiterAfter
              message.wordIndex message.tokens }
        words := draft.words.take message.wordIndex.toNat ++
          recordWords (draft.session.delimiterIndex < 0) message.tokens ++
            draft.words.drop message.wordIndex.toNat } := by
  simp only [Draft.command]
  rw [if_pos accepts, writeCommand_of_accepts inhabited accepts]

theorem Draft.command_of_rejects
    (rejects : message.tokens ≠ [] →
      ¬ draft.session.Accepts message.wordIndex message.tokens.length) :
    draft.command message = draft := by
  simp only [Draft.command]
  rw [writeCommand_of_rejects rejects]
  split
  · rename_i accepts
    have empty : message.tokens = [] := by
      by_contra inhabited
      exact rejects inhabited accepts
    simp [empty, recordWords]
  · rfl

/-- No word before an accepted message is the recorded one. -/
theorem Draft.Tracks.noneRecorded_take (tracks : draft.Tracks)
    (inhabited : message.tokens ≠ [])
    (accepts : draft.session.Accepts message.wordIndex
      message.tokens.length) :
    NoneRecorded (draft.words.take message.wordIndex.toNat) := by
  have some_ := List.length_pos_of_ne_nil inhabited
  by_cases known : draft.session.delimiterIndex ≥ 0
  · obtain ⟨front, entry, back, words, length, _, others⟩ :=
      tracks.kept known
    have within : message.wordIndex.toNat ≤ front.length := by
      obtain ⟨_, _, boundary⟩ := accepts
      omega
    rw [words, List.take_append_of_le_length within]
    intro other member
    exact others other
      (List.mem_append_left _ (List.mem_of_mem_take member))
  · intro entry member
    exact tracks.unset (by omega) entry (List.mem_of_mem_take member)

theorem queuedEdits_length (baseWordIdx : Int) (wordOffset : Nat)
    (tokens : List Text) :
    (queuedEdits baseWordIdx wordOffset tokens).length = tokens.length := by
  induction tokens generalizing wordOffset with
  | nil => rfl
  | cons token tokens ih => simp [queuedEdits, ih]

theorem Draft.Tracks.length_take (tracks : draft.Tracks)
    (inhabited : message.tokens ≠ [])
    (accepts : draft.session.Accepts message.wordIndex
      message.tokens.length) :
    ((draft.words.take message.wordIndex.toNat).length : Int) =
      message.wordIndex := by
  have counted := tracks.counted
  have some_ := List.length_pos_of_ne_nil inhabited
  obtain ⟨lower, upper, _⟩ := accepts
  rw [List.length_take]
  omega

/-- Words put before the recorded one move it by their number. -/
theorem Draft.Tracks.recordedAt_shifted (tracks : draft.Tracks)
    (inhabited : message.tokens ≠ [])
    (accepts : draft.session.Accepts message.wordIndex
      message.tokens.length)
    (known : draft.session.delimiterIndex ≥ 0) :
    RecordedAt (draft.words.take message.wordIndex.toNat ++
        recordWords false message.tokens ++
          draft.words.drop message.wordIndex.toNat)
      (draft.session.delimiterIndex + message.tokens.length) := by
  have before := tracks.noneRecorded_take inhabited accepts
  have front := tracks.length_take inhabited accepts
  have some_ := List.length_pos_of_ne_nil inhabited
  obtain ⟨lower, upper, boundary⟩ := accepts
  have within : (message.wordIndex.toNat : Int) ≤
      draft.session.delimiterIndex := by omega
  have behind := (tracks.kept known).drop within
  have first : NoneRecorded (draft.words.take message.wordIndex.toNat ++
      recordWords false message.tokens) :=
    before.append fun _ => recorded_recordWords_false
  have last : NoneRecorded [] := by simp [NoneRecorded]
  have shifted := behind.surround first last
  have place : ((draft.words.take message.wordIndex.toNat ++
      recordWords false message.tokens).length : Int) +
        (draft.session.delimiterIndex - message.wordIndex.toNat) =
      draft.session.delimiterIndex + message.tokens.length := by
    rw [List.length_append, length_recordWords]
    omega
  rwa [place, List.append_nil] at shifted

/-- While no word is recorded, the first delimiter of a message is. -/
theorem Draft.Tracks.recorded_first (tracks : draft.Tracks)
    (inhabited : message.tokens ≠ [])
    (accepts : draft.session.Accepts message.wordIndex
      message.tokens.length)
    (unset : draft.session.delimiterIndex < 0) :
    match message.tokens.findIdx? endsInDelimiter with
    | some position =>
        RecordedAt (draft.words.take message.wordIndex.toNat ++
            recordWords true message.tokens ++
              draft.words.drop message.wordIndex.toNat)
          (message.wordIndex + position)
    | none =>
        NoneRecorded (draft.words.take message.wordIndex.toNat ++
          recordWords true message.tokens ++
            draft.words.drop message.wordIndex.toNat) := by
  have before := tracks.noneRecorded_take inhabited accepts
  have front := tracks.length_take inhabited accepts
  have behind : NoneRecorded (draft.words.drop message.wordIndex.toNat) :=
    fun entry member =>
      tracks.unset unset entry (List.mem_of_mem_drop member)
  have block := recordWords_true message.tokens
  cases ended : message.tokens.findIdx? endsInDelimiter with
  | none =>
      simp only [ended] at block
      exact (before.append block).append behind
  | some position =>
      simp only [ended] at block
      have shifted := block.surround before behind
      rwa [front] at shifted

theorem Draft.Tracks.command (tracks : draft.Tracks)
    (message : WriteMessage) : (draft.command message).Tracks := by
  by_cases accepted : message.tokens ≠ [] ∧
      draft.session.Accepts message.wordIndex message.tokens.length
  case neg =>
    rw [Draft.command_of_rejects fun inhabited accepts =>
      accepted ⟨inhabited, accepts⟩]
    exact tracks
  obtain ⟨inhabited, accepts⟩ := accepted
  have counted := tracks.counted
  have front := tracks.length_take inhabited accepts
  have grown : draft.session.originalWordCount +
      ((draft.session.editOps ++ queuedEdits message.wordIndex 0
        message.tokens).length : Int) =
        (draft.words.take message.wordIndex.toNat ++
          recordWords (draft.session.delimiterIndex < 0) message.tokens ++
            draft.words.drop message.wordIndex.toNat).length := by
    simp only [List.length_append, queuedEdits_length, length_recordWords,
      List.length_take, List.length_drop] at front ⊢
    omega
  rw [Draft.command_of_accepts inhabited accepts]
  by_cases known : draft.session.delimiterIndex ≥ 0
  · have searching : decide (draft.session.delimiterIndex < 0) = false := by
      simpa using known
    have index : draft.session.delimiterAfter message.wordIndex
        message.tokens =
          draft.session.delimiterIndex + message.tokens.length := by
      rw [WriteSession.delimiterAfter, if_pos known]
    refine ⟨grown, ?_, ?_⟩
    · intro unset
      simp only [index] at unset
      omega
    · intro _
      simp only [searching, index]
      exact tracks.recordedAt_shifted inhabited accepts known
  · have searching : decide (draft.session.delimiterIndex < 0) = true := by
      simpa using known
    have first := tracks.recorded_first inhabited accepts (by omega)
    have lower := accepts.1
    cases ended : message.tokens.findIdx? endsInDelimiter with
    | none =>
        have index : draft.session.delimiterAfter message.wordIndex
            message.tokens = draft.session.delimiterIndex := by
          simp [WriteSession.delimiterAfter, known, ended]
        simp only [ended] at first
        refine ⟨grown, ?_, ?_⟩
        · intro _
          simp only [searching]
          exact first
        · intro kept
          simp only [index] at kept
          exact absurd kept known
    | some position =>
        have index : draft.session.delimiterAfter message.wordIndex
            message.tokens = message.wordIndex + position := by
          simp [WriteSession.delimiterAfter, known, ended]
        simp only [ended] at first
        refine ⟨grown, ?_, ?_⟩
        · intro unset
          simp only [index] at unset
          omega
        · intro _
          simp only [searching, index]
          exact first

/-- The words of the draft, cut where a message puts its own. -/
theorem Draft.map_word_split (draft : Draft) (count : Nat) :
    draft.words.map DraftWord.word =
      (draft.words.take count).map DraftWord.word ++
        (draft.words.drop count).map DraftWord.word := by
  rw [← List.map_append, List.take_append_drop]

theorem Draft.Tracks.place_take (tracks : draft.Tracks)
    (inhabited : message.tokens ≠ [])
    (accepts : draft.session.Accepts message.wordIndex
      message.tokens.length) :
    (((draft.words.take message.wordIndex.toNat).map
      DraftWord.word).length : Int) = message.wordIndex + (0 : Nat) := by
  rw [List.length_map, tracks.length_take inhabited accepts]
  simp

/-- An accepted message keeps the boundary exactly when it is clear. -/
theorem Draft.Tracks.boundaryKept_iff (tracks : draft.Tracks)
    (inhabited : message.tokens ≠ [])
    (accepts : draft.session.Accepts message.wordIndex
      message.tokens.length) :
    BoundaryKept (draft.words.map DraftWord.word)
        (queuedEdits message.wordIndex 0 message.tokens) ↔
      draft.Clear message := by
  have before := tracks.noneRecorded_take inhabited accepts
  have place := tracks.place_take inhabited accepts
  rw [draft.map_word_split message.wordIndex.toNat,
    boundaryKept_queuedEdits place inhabited, and_comm]
  apply and_congr_right
  intro _
  constructor
  · intro unended entry member ended
    rw [unended entry.word (List.mem_map_of_mem member)] at ended
    exact absurd ended (by simp)
  · intro recorded word member
    obtain ⟨entry, inFront, rfl⟩ := List.mem_map.mp member
    by_contra ended
    have both := recorded entry inFront (by simpa using ended)
    rw [before entry inFront] at both
    exact absurd both (by simp)

/-- The words of the draft are the accepted words inserted one by one. -/
theorem Draft.Tracks.map_word_command (tracks : draft.Tracks)
    (inhabited : message.tokens ≠ [])
    (accepts : draft.session.Accepts message.wordIndex
      message.tokens.length) :
    (draft.command message).words.map DraftWord.word =
      (queuedEdits message.wordIndex 0 message.tokens).foldl (applyEdit 0)
        (draft.words.map DraftWord.word) := by
  have place := tracks.place_take inhabited accepts
  rw [Draft.command_of_accepts inhabited accepts,
    draft.map_word_split message.wordIndex.toNat, foldl_queuedEdits place,
    List.map_append, List.map_append, map_word_recordWords]

end Command

/-- The messages from here on queue more words, and keep the boundary exactly
when each of them is clear. -/
theorem Draft.Tracks.receiveCommands {draft : Draft} (tracks : draft.Tracks)
    (messages : List WriteMessage) :
    ∃ later, (receiveCommands draft.session messages).1.editOps =
        draft.session.editOps ++ later ∧
      (BoundaryKept (draft.words.map DraftWord.word) later ↔
        draft.CommandsClear messages) := by
  induction messages generalizing draft with
  | nil =>
      exact ⟨[], by simp [StorageServer.receiveCommands],
        by simp [BoundaryKept, Draft.CommandsClear]⟩
  | cons message messages ih =>
      by_cases ends : message.data.chars = etirw
      · exact ⟨[], by simp [StorageServer.receiveCommands, ends],
          by simp [BoundaryKept, Draft.CommandsClear, ends]⟩
      obtain ⟨later, edits, clear⟩ := ih (tracks.command message)
      have received : (StorageServer.receiveCommands draft.session
          (message :: messages)).1 =
            (StorageServer.receiveCommands (draft.command message).session
              messages).1 := by
        simp [StorageServer.receiveCommands, ends, Draft.command]
      rw [received, edits, Draft.CommandsClear, if_neg ends, ← clear]
      by_cases accepted : message.tokens ≠ [] ∧
          draft.session.Accepts message.wordIndex message.tokens.length
      · obtain ⟨inhabited, accepts⟩ := accepted
        refine ⟨queuedEdits message.wordIndex 0 message.tokens ++ later,
          ?_, ?_⟩
        · rw [Draft.command_of_accepts inhabited accepts, List.append_assoc]
        · rw [boundaryKept_append, tracks.boundaryKept_iff inhabited accepts,
            ← tracks.map_word_command inhabited accepts]
          apply and_congr_left
          intro _
          exact ⟨fun isClear _ _ => isClear,
            fun isClear => isClear inhabited accepts⟩
      · have rejects : message.tokens ≠ [] →
            ¬ draft.session.Accepts message.wordIndex
              message.tokens.length :=
          fun inhabited accepts => accepted ⟨inhabited, accepts⟩
        rw [Draft.command_of_rejects rejects]
        refine ⟨later, rfl, ?_⟩
        constructor
        · exact fun kept => ⟨fun inhabited accepts =>
            (rejects inhabited accepts).elim, kept⟩
        · exact And.right

/-- No word of a session is placed behind a delimiter exactly when every
message is clear. -/
theorem session_boundary_iff (username : Username) (sentenceIndex : Int)
    (words : List WordText) (messages : List WriteMessage) :
    BoundaryKept words
        (receiveCommands (newSession username sentenceIndex words.length)
          messages).1.editOps ↔
      (openDraft username sentenceIndex words).CommandsClear messages := by
  have tracks := tracks_openDraft username sentenceIndex words
  obtain ⟨later, edits, clear⟩ := tracks.receiveCommands messages
  have start : (openDraft username sentenceIndex words).session =
      newSession username sentenceIndex words.length := rfl
  have original : (openDraft username sentenceIndex words).words.map
      DraftWord.word = words := by
    simp [openDraft, Function.comp_def]
  rw [original] at clear
  rw [start] at edits
  rw [edits]
  exact clear

/-- An original word that ends the sentence does not stop the session. -/
theorem session_boundary_ended_sentence :
    ¬ ∀ (username : Username) (sentenceIndex : Int) (words : List WordText)
        (messages : List WriteMessage),
      BoundaryKept words
        (receiveCommands (newSession username sentenceIndex words.length)
          messages).1.editOps := by
  intro kept
  have failing := kept nobody 0 [createWordNode "Hi.".toList]
    [⟨1, CString.copy 4095 "x".toList⟩]
  exact absurd failing (by decide +kernel)

end Dfs.StorageServer
