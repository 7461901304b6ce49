import Dfs.StorageServer.StoredText

/-!
# The word behind the delimiter index

The command loop never sees the sentence that its queue describes; it keeps
the place of one word and moves it with every word that it queues in front.
Here the sentence is laid out with the number of the queued word at each place,
and the index is found to follow the word that set it.
-/

namespace Dfs.StorageServer

/-- The sentence with the queued words inserted one after another. -/
def virtualSentence (words : List WordText) (edits : List EditOperation) :
    List PlacedWord :=
  edits.zipIdx.foldl (placeEdit 0) (words.map fun word => ⟨word, none⟩)

/-- A queued word by its number, and how long the queue was after its
command. -/
structure QueuedWord where
  number : Nat
  queued : Nat
  deriving DecidableEq, Repr

/-- The first word that ends in a delimiter, in the first accepted command with
such a word. -/
def firstEnder : WriteSession → List WriteMessage → Option QueuedWord
  | _, [] => none
  | session, message :: messages =>
      if session.Accepts message.wordIndex message.tokens.length then
        match message.tokens.findIdx? endsInDelimiter with
        | some position =>
            some ⟨session.editOps.length + position,
              session.editOps.length + message.tokens.length⟩
        | none => firstEnder (writeCommand session message).1 messages
      else firstEnder (writeCommand session message).1 messages

theorem firstEnder_append (session : WriteSession)
    (messages later : List WriteMessage) :
    firstEnder session (messages ++ later) =
      (firstEnder session messages).or
        (firstEnder (sessionAfter session messages) later) := by
  induction messages generalizing session with
  | nil => rfl
  | cons message messages ih =>
      have rest := ih (writeCommand session message).1
      have started : sessionAfter session (message :: messages) =
          sessionAfter (writeCommand session message).1 messages := rfl
      rw [started, List.cons_append, firstEnder, firstEnder]
      split
      · cases message.tokens.findIdx? endsInDelimiter with
        | some position => rfl
        | none => exact rest
      · exact rest

section

variable {α : Type} {items block : List α} {count place : Nat}

theorem getElem?_block (within : count ≤ items.length)
    (inside : place < block.length) :
    (items.take count ++ block ++ items.drop count)[count + place]? =
      block[place]? := by
  have front : (items.take count).length = count :=
    List.length_take_of_le within
  rw [List.append_assoc, List.getElem?_append_right (by omega), front,
    Nat.add_sub_cancel_left, List.getElem?_append_left inside]

theorem getElem?_behind_block (within : count ≤ items.length)
    (behind : count ≤ place) :
    (items.take count ++ block ++ items.drop count)[place + block.length]? =
      items[place]? := by
  have front : (items.take count ++ block).length = count + block.length := by
    rw [List.length_append, List.length_take_of_le within]
  rw [List.getElem?_append_right (by omega), front, List.getElem?_drop]
  congr 1
  omega

end

theorem take_queuedEdits (baseWordIdx : Int) (wordOffset count : Nat)
    (tokens : List Text) :
    (queuedEdits baseWordIdx wordOffset tokens).take count =
      queuedEdits baseWordIdx wordOffset (tokens.take count) := by
  induction tokens generalizing wordOffset count with
  | nil => simp [queuedEdits]
  | cons token tokens ih =>
      cases count with
      | zero => simp [queuedEdits]
      | succ count => simp [queuedEdits, ih]

theorem getElem?_placedWords {first place : Nat} {tokens : List Text}
    {token : Text} (here : tokens[place]? = some token) :
    (placedWords first tokens)[place]? =
      some ⟨createWordNode token, some (first + place)⟩ := by
  unfold placedWords
  rw [List.getElem?_map, List.getElem?_zipIdx, List.getElem?_map, here]
  rfl

theorem length_placedWords (first : Nat) (tokens : List Text) :
    (placedWords first tokens).length = tokens.length := by
  simp [placedWords]

theorem length_virtualSentence (words : List WordText)
    (edits : List EditOperation) :
    (virtualSentence words edits).length = words.length + edits.length := by
  simp [virtualSentence, length_foldl_placeEdit]

/-- The words of a command lie in the sentence as one block. -/
theorem virtualSentence_append {words : List WordText}
    {edits : List EditOperation} {baseWordIdx : Int} (lower : 0 ≤ baseWordIdx)
    (upper : baseWordIdx ≤ words.length + edits.length) (tokens : List Text) :
    virtualSentence words (edits ++ queuedEdits baseWordIdx 0 tokens) =
      (virtualSentence words edits).take baseWordIdx.toNat ++
        placedWords edits.length tokens ++
          (virtualSentence words edits).drop baseWordIdx.toNat := by
  have length := length_virtualSentence words edits
  have place : (((virtualSentence words edits).take
      baseWordIdx.toNat).length : Int) = baseWordIdx + (0 : Nat) := by
    rw [List.length_take]
    omega
  have inserted := @foldl_placeEdit_queuedEdits baseWordIdx 0 _
    ((virtualSentence words edits).drop baseWordIdx.toNat) place edits.length
    tokens
  rw [List.take_append_drop] at inserted
  rw [← inserted, virtualSentence, List.zipIdx_append, List.foldl_append,
    Nat.zero_add]
  rfl

theorem getElem?_queuedEdits {baseWordIdx : Int} {wordOffset place : Nat}
    {tokens : List Text} {token : Text} (here : tokens[place]? = some token) :
    (queuedEdits baseWordIdx wordOffset tokens)[place]? =
      some ⟨baseWordIdx + wordOffset + place, createWordNode token⟩ := by
  induction tokens generalizing wordOffset place with
  | nil => cases here
  | cons first tokens ih =>
      cases place with
      | zero =>
          cases here
          simp [queuedEdits]
      | succ place =>
          rw [List.getElem?_cons_succ] at here
          rw [queuedEdits, List.getElem?_cons_succ, ih here]
          congr 2
          omega

/-- The queued word at this place of the queue was inserted no later in the
sentence than the word with this number stood. -/
def NotBehind (words : List WordText) (edits : List EditOperation)
    (place number : Nat) : Prop :=
  ∀ edit, edits[place]? = some edit →
    ∃ (ahead : Nat) (word : WordText),
      (virtualSentence words (edits.take place))[ahead]? =
        some ⟨word, some number⟩ ∧
      edit.wordIndex ≤ ahead

/-- The word at the delimiter index is the queued word with this number. -/
def IndexesWord (words : List WordText) (session : WriteSession)
    (number : Nat) : Prop :=
  ∃ edit, session.editOps[number]? = some edit ∧
    (virtualSentence words session.editOps)[session.delimiterIndex.toNat]? =
      some ⟨edit.word, some number⟩

/-- The index follows the word that set it, if one has. -/
structure EnderKept (words : List WordText) (session : WriteSession)
    (ender : Option QueuedWord) : Prop where
  counted : session.originalWordCount = words.length
  unset : ender = none → session.delimiterIndex < 0
  kept : ∀ queued, ender = some queued →
    0 ≤ session.delimiterIndex ∧ IndexesWord words session queued.number
  before : ∀ queued, ender = some queued → ∀ place, queued.queued ≤ place →
    NotBehind words session.editOps place queued.number

section

variable {words : List WordText} {session : WriteSession}
  {message : WriteMessage} {ender : Option QueuedWord} {queued : QueuedWord}

theorem NotBehind.append {edits later : List EditOperation}
    {place number : Nat} (notBehind : NotBehind words edits place number)
    (inside : place < edits.length) :
    NotBehind words (edits ++ later) place number := by
  intro edit found
  rw [List.getElem?_append_left inside] at found
  rw [List.take_append_of_le_length inside.le]
  exact notBehind edit found

theorem NotBehind.beyond {edits : List EditOperation} {place : Nat}
    (later : edits.length ≤ place) (number : Nat) :
    NotBehind words edits place number := by
  intro edit found
  rw [List.getElem?_eq_none later] at found
  cases found

/-- Words queued before the kept one move it by their number. -/
theorem indexesWord_shifted
    (counted : session.originalWordCount = words.length)
    (known : 0 ≤ session.delimiterIndex)
    (accepts : session.Accepts message.wordIndex message.tokens.length)
    (inhabited : message.tokens ≠ []) (count : Nat) :
    (virtualSentence words (session.editOps ++
        queuedEdits message.wordIndex 0 (message.tokens.take count)))[
          session.delimiterIndex.toNat + (message.tokens.take count).length]? =
      (virtualSentence words session.editOps)[
        session.delimiterIndex.toNat]? := by
  have some_ := List.length_pos_of_ne_nil inhabited
  obtain ⟨lower, upper, boundary⟩ := accepts
  have length := length_virtualSentence words session.editOps
  rw [virtualSentence_append lower (by omega)]
  have moved := @getElem?_behind_block _ (virtualSentence words session.editOps)
    (placedWords session.editOps.length (message.tokens.take count))
    message.wordIndex.toNat session.delimiterIndex.toNat (by omega) (by omega)
  rwa [length_placedWords] at moved

theorem EnderKept.command_of_known
    (inv : EnderKept words session (some queued))
    (inhabited : message.tokens ≠ [])
    (accepts : session.Accepts message.wordIndex message.tokens.length) :
    EnderKept words (writeCommand session message).1 (some queued) := by
  obtain ⟨known, kept⟩ := inv.kept queued rfl
  have moved := indexesWord_shifted inv.counted known accepts inhabited
  obtain ⟨edit, stored, here⟩ := kept
  have inside := (List.getElem?_eq_some_iff.mp stored).1
  have index : session.delimiterAfter message.wordIndex message.tokens =
      session.delimiterIndex + message.tokens.length := by
    rw [WriteSession.delimiterAfter, if_pos known]
  rw [writeCommand_of_accepts inhabited accepts]
  refine ⟨inv.counted, by simp, ?_, ?_⟩
  · rintro _ ⟨⟩
    refine ⟨by simp only [index]; omega, edit, ?_, ?_⟩
    · rw [List.getElem?_append_left inside]
      exact stored
    · have whole := moved message.tokens.length
      rw [List.take_length] at whole
      have place : (session.delimiterIndex + message.tokens.length).toNat =
          session.delimiterIndex.toNat + message.tokens.length := by
        omega
      simp only [index, place]
      rw [whole]
      exact here
  · rintro _ ⟨⟩ place later
    by_cases old : place < session.editOps.length
    · exact (inv.before queued rfl place later).append old
    · intro new found
      obtain ⟨offset, rfl⟩ := Nat.exists_eq_add_of_le (not_lt.mp old)
      rw [List.getElem?_append_right (by omega),
        Nat.add_sub_cancel_left] at found
      have wordIndex := wordIndex_queuedEdits found
      have within := (List.getElem?_eq_some_iff.mp found).1
      rw [queuedEdits_length] at within
      have so_far := moved offset
      rw [List.length_take_of_le within.le, here] at so_far
      refine ⟨session.delimiterIndex.toNat + offset, edit.word, ?_, ?_⟩
      · rw [List.take_append, List.take_of_length_le (by omega),
          Nat.add_sub_cancel_left, take_queuedEdits]
        exact so_far
      · obtain ⟨_, _, boundary⟩ := accepts
        push_cast
        omega

/-- A word of the command stands in the sentence where it was inserted. -/
theorem indexesWord_inserted
    (counted : session.originalWordCount = words.length)
    (accepts : session.Accepts message.wordIndex message.tokens.length)
    {position : Nat} (inside : position < message.tokens.length) :
    IndexesWord words
      { session with
        editOps := session.editOps ++
          queuedEdits message.wordIndex 0 message.tokens
        delimiterIndex := message.wordIndex + position }
      (session.editOps.length + position) := by
  obtain ⟨lower, upper, _⟩ := accepts
  have token := List.getElem?_eq_getElem inside
  have length := length_virtualSentence words session.editOps
  refine ⟨⟨message.wordIndex + (0 : Nat) + position,
    createWordNode message.tokens[position]⟩, ?_, ?_⟩
  · simp only
    rw [List.getElem?_append_right (by omega), Nat.add_sub_cancel_left]
    exact @getElem?_queuedEdits message.wordIndex 0 _ _ _ token
  · have here := @getElem?_block _ (virtualSentence words session.editOps)
      (placedWords session.editOps.length message.tokens)
      message.wordIndex.toNat position (by omega)
      (by rwa [length_placedWords])
    have place : (message.wordIndex + position).toNat =
        message.wordIndex.toNat + position := by
      omega
    simp only [place]
    rw [virtualSentence_append lower (by omega), here]
    exact getElem?_placedWords token

theorem EnderKept.command_of_unset (inv : EnderKept words session none)
    (inhabited : message.tokens ≠ [])
    (accepts : session.Accepts message.wordIndex message.tokens.length) :
    EnderKept words (writeCommand session message).1
      (firstEnder session [message]) := by
  have unset : ¬ session.delimiterIndex ≥ 0 := by
    have negative := inv.unset rfl
    omega
  have lower := accepts.1
  rw [writeCommand_of_accepts inhabited accepts, firstEnder, if_pos accepts]
  cases ended : message.tokens.findIdx? endsInDelimiter with
  | none =>
      have index : session.delimiterAfter message.wordIndex message.tokens =
          session.delimiterIndex := by
        simp [WriteSession.delimiterAfter, unset, ended]
      refine ⟨inv.counted, ?_, ?_, ?_⟩
      · intro _
        simp only [index]
        omega
      · intro queued found
        cases found
      · intro queued found
        cases found
  | some position =>
      have index : session.delimiterAfter message.wordIndex message.tokens =
          message.wordIndex + position := by
        simp [WriteSession.delimiterAfter, unset, ended]
      have inside := (List.findIdx?_eq_some_iff_findIdx_eq.mp ended).1
      rw [index]
      refine ⟨inv.counted, by simp, ?_, ?_⟩
      · rintro _ ⟨⟩
        refine ⟨?_, indexesWord_inserted inv.counted accepts inside⟩
        simp only
        omega
      · rintro _ ⟨⟩ place later
        apply NotBehind.beyond
        simp only [List.length_append, queuedEdits_length]
        exact later

theorem EnderKept.command (inv : EnderKept words session ender)
    (message : WriteMessage) :
    EnderKept words (writeCommand session message).1
      (ender.or (firstEnder session [message])) := by
  by_cases accepted : message.tokens ≠ [] ∧
      session.Accepts message.wordIndex message.tokens.length
  · obtain ⟨inhabited, accepts⟩ := accepted
    cases ender with
    | none => exact inv.command_of_unset inhabited accepts
    | some queued => exact inv.command_of_known inhabited accepts
  · have rejects : message.tokens ≠ [] →
        ¬ session.Accepts message.wordIndex message.tokens.length :=
      fun inhabited accepts => accepted ⟨inhabited, accepts⟩
    have none : firstEnder session [message] = none := by
      rw [firstEnder]
      split
      · rename_i accepts
        have empty : message.tokens = [] := by
          by_contra inhabited
          exact rejects inhabited accepts
        rw [empty]
        rfl
      · rfl
    rw [writeCommand_of_rejects rejects, none, Option.or_none]
    exact inv

end

theorem enderKept_sessionAfter (username : Username) (sentenceIndex : Int)
    (words : List WordText) (messages : List WriteMessage) :
    EnderKept words
      (sessionAfter (newSession username sentenceIndex words.length) messages)
      (firstEnder (newSession username sentenceIndex words.length)
        messages) := by
  induction messages using List.reverseRecOn with
  | nil =>
      refine ⟨rfl, ?_, ?_, ?_⟩
      · intro _
        simp [sessionAfter, newSession]
      · intro queued found
        cases found
      · intro queued found
        cases found
  | append_singleton messages message ih =>
      have next := ih.command message
      rw [firstEnder_append]
      have after : sessionAfter
          (newSession username sentenceIndex words.length)
          (messages ++ [message]) =
          (writeCommand (sessionAfter
            (newSession username sentenceIndex words.length) messages)
            message).1 := by
        simp [sessionAfter]
      rw [after]
      exact next

/-- After any commands the delimiter index, if it is set, is the place of the
word that set it in the virtual sentence, and no word of a later command was
inserted behind that word. -/
theorem delimiter_index_follows_word (username : Username)
    (sentenceIndex : Int) (words : List WordText)
    (messages : List WriteMessage) :
    let start := newSession username sentenceIndex words.length
    let session := sessionAfter start messages
    (0 ≤ session.delimiterIndex →
      ∃ queued, firstEnder start messages = some queued ∧
        IndexesWord words session queued.number) ∧
    ∀ queued, firstEnder start messages = some queued →
      ∀ place, queued.queued ≤ place →
        NotBehind words session.editOps place queued.number := by
  intro start session
  have kept := enderKept_sessionAfter username sentenceIndex words messages
  constructor
  · intro known
    cases ended : firstEnder start messages with
    | none =>
        exact absurd (kept.unset ended) (Int.not_lt.mpr known)
    | some queued =>
        exact ⟨queued, rfl, (kept.kept queued ended).2⟩
  · exact kept.before

end Dfs.StorageServer
