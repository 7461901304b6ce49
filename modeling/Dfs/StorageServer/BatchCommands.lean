import Dfs.StorageServer.DelimiterBoundary

/-!
# A message with several words

The words of a message are checked together and queued together.  This module
compares that with the same words sent one message each.  The range check
counts the words before, the delimiter check does not: it compares every word
with the index as it was before the message.
-/

namespace Dfs.StorageServer

/-- The words of a message, one message each. -/
def singleCommands (baseWordIdx : Int) (wordOffset : Nat) :
    List Text → List WriteMessage
  | [] => []
  | token :: tokens =>
      ⟨baseWordIdx + wordOffset, CString.copy 4095 token⟩ ::
        singleCommands baseWordIdx (wordOffset + 1) tokens

def WriteMessage.oneByOne (message : WriteMessage) : List WriteMessage :=
  singleCommands message.wordIndex 0 message.tokens

/-- Every message is taken as a command and acknowledged. -/
def AllAccepted (session : WriteSession) (messages : List WriteMessage) :
    Prop :=
  (receiveCommands session messages).2.1 = false ∧
    ∀ response ∈ (receiveCommands session messages).2.2,
      response.msgType = msgAck

instance (session : WriteSession) (messages : List WriteMessage) :
    Decidable (AllAccepted session messages) :=
  inferInstanceAs (Decidable (_ ∧ _))

theorem allAccepted_nil (session : WriteSession) :
    AllAccepted session [] := by
  simp [AllAccepted, receiveCommands]

theorem allAccepted_cons (session : WriteSession) (message : WriteMessage)
    (messages : List WriteMessage) :
    AllAccepted session (message :: messages) ↔
      message.data.chars ≠ etirw ∧
        (writeCommand session message).2.msgType = msgAck ∧
        AllAccepted (writeCommand session message).1 messages := by
  by_cases ends : message.data.chars = etirw
  · simp [AllAccepted, receiveCommands, ends]
  · simp only [AllAccepted, receiveCommands, ends, if_false,
      List.mem_cons, forall_eq_or_imp, not_false_eq_true, ne_eq, true_and]
    tauto

theorem receiveCommands_cons {session : WriteSession} {message : WriteMessage}
    (command : message.data.chars ≠ etirw) (messages : List WriteMessage) :
    (receiveCommands session (message :: messages)).1 =
      (receiveCommands (writeCommand session message).1 messages).1 := by
  simp [receiveCommands, command]

/-- A word that can be sent in a message of its own. -/
structure Sendable (token : Text) : Prop where
  inhabited : token ≠ []
  solid : ' ' ∉ token
  nulFree : CText.nul ∉ token
  short : token.length ≤ 4095

theorem sendable_of_mem_tokens {message : WriteMessage} {token : Text}
    (member : token ∈ message.tokens) : Sendable token := by
  have facts := CText.mem_strtok member
  exact ⟨facts.inhabited, facts.solid,
    fun found => message.data.nulFree (facts.part.subset found),
    facts.part.length_le.trans message.data.fits⟩

section Single

variable {token : Text}

theorem Sendable.copy_chars (sendable : Sendable token) :
    (CString.copy 4095 token).chars = token := by
  simp [CString.copy, CText.terminated_eq_self sendable.nulFree,
    List.take_of_length_le sendable.short]

theorem Sendable.tokens (sendable : Sendable token) (wordIndex : Int) :
    (WriteMessage.mk wordIndex (CString.copy 4095 token)).tokens =
      [token] := by
  rw [WriteMessage.tokens, sendable.copy_chars,
    CText.strtok_of_not_mem sendable.solid, if_neg sendable.inhabited]

/-- What a message of one word without delimiter does. -/
def WriteSession.queueWord (session : WriteSession) (wordIndex : Int)
    (token : Text) : WriteSession :=
  { session with
    editOps := session.editOps ++ [⟨wordIndex, createWordNode token⟩]
    delimiterIndex :=
      if session.delimiterIndex ≥ 0 then session.delimiterIndex + 1
      else session.delimiterIndex }

theorem Sendable.writeCommand (sendable : Sendable token)
    (unended : endsInDelimiter token = false) {session : WriteSession}
    {wordIndex : Int} (accepts : session.Accepts wordIndex 1) :
    (writeCommand session ⟨wordIndex, CString.copy 4095 token⟩).1 =
      session.queueWord wordIndex token := by
  have tokens := sendable.tokens wordIndex
  rw [writeCommand_of_accepts (by simp [tokens]) (by simpa [tokens]), tokens]
  simp [WriteSession.queueWord, WriteSession.delimiterAfter, queuedEdits,
    unended]

theorem Sendable.accepted_iff (sendable : Sendable token)
    (session : WriteSession) (wordIndex : Int) :
    (StorageServer.writeCommand session
        ⟨wordIndex, CString.copy 4095 token⟩).2.msgType = msgAck ↔
      session.Accepts wordIndex 1 := by
  have tokens := sendable.tokens wordIndex
  rw [(commandMeaning (by simp [tokens])).accepted, tokens]
  rfl

end Single

/-- Behind an accepted word the next one is accepted. -/
theorem WriteSession.Accepts.queueWord {session : WriteSession}
    {wordIndex : Int} (accepts : session.Accepts wordIndex 1)
    (token : Text) :
    (session.queueWord wordIndex token).Accepts (wordIndex + 1) 1 := by
  obtain ⟨lower, upper, boundary⟩ := accepts
  simp only [WriteSession.Accepts, WriteSession.queueWord,
    List.length_append, List.length_singleton]
  push_cast
  split
  · omega
  · omega

section Singles

variable {baseWordIdx : Int} {wordOffset : Nat} {tokens : List Text}

/-- Only the place of the first word and the words themselves matter. -/
theorem allAccepted_singleCommands
    (sendable : ∀ token ∈ tokens, Sendable token)
    (unended : ∀ token ∈ tokens, endsInDelimiter token = false)
    (session : WriteSession) :
    AllAccepted session (singleCommands baseWordIdx wordOffset tokens) ↔
      etirw ∉ tokens ∧
        (tokens ≠ [] → session.Accepts (baseWordIdx + wordOffset) 1) := by
  induction tokens generalizing session wordOffset with
  | nil => simp [singleCommands, allAccepted_nil]
  | cons token tokens ih =>
      have first := sendable token (by simp)
      have rest := @ih (wordOffset + 1)
        (fun other member => sendable other (by simp [member]))
        (fun other member => unended other (by simp [member]))
        (session.queueWord (baseWordIdx + wordOffset) token)
      rw [singleCommands, allAccepted_cons, first.accepted_iff,
        first.copy_chars, List.mem_cons, not_or]
      constructor
      · rintro ⟨command, accepts, later⟩
        rw [first.writeCommand (unended token (by simp)) accepts, rest]
          at later
        exact ⟨⟨command.symm, later.1⟩, fun _ => accepts⟩
      · rintro ⟨⟨command, others⟩, accepted⟩
        have accepts := accepted (by simp)
        refine ⟨fun same => command same.symm, accepts, ?_⟩
        rw [first.writeCommand (unended token (by simp)) accepts, rest]
        refine ⟨others, fun _ => ?_⟩
        have next := accepts.queueWord token
        rw [Int.add_assoc] at next
        exact_mod_cast next

/-- The session after all words. -/
theorem receiveCommands_singleCommands
    (sendable : ∀ token ∈ tokens, Sendable token)
    (unended : ∀ token ∈ tokens, endsInDelimiter token = false)
    {session : WriteSession}
    (accepted : AllAccepted session
      (singleCommands baseWordIdx wordOffset tokens)) :
    (receiveCommands session
        (singleCommands baseWordIdx wordOffset tokens)).1 =
      { session with
        editOps := session.editOps ++
          queuedEdits baseWordIdx wordOffset tokens
        delimiterIndex :=
          if session.delimiterIndex ≥ 0 then
            session.delimiterIndex + tokens.length
          else session.delimiterIndex } := by
  induction tokens generalizing session wordOffset with
  | nil => simp [singleCommands, receiveCommands, queuedEdits]
  | cons token tokens ih =>
      have first := sendable token (by simp)
      rw [singleCommands, allAccepted_cons, first.accepted_iff] at accepted
      obtain ⟨command, accepts, later⟩ := accepted
      rw [singleCommands, receiveCommands_cons command]
      rw [first.writeCommand (unended token (by simp)) accepts] at later ⊢
      rw [ih (fun other member => sendable other (by simp [member]))
        (fun other member => unended other (by simp [member])) later]
      by_cases known : session.delimiterIndex ≥ 0
      · have next : session.delimiterIndex + 1 ≥ 0 := by omega
        have sum : session.delimiterIndex + 1 + (tokens.length : Int) =
            session.delimiterIndex + ((tokens.length + 1 : Nat) : Int) := by
          push_cast
          omega
        simp [WriteSession.queueWord, queuedEdits, known, next, sum]
      · simp [WriteSession.queueWord, queuedEdits, known]

end Singles

section Comparison

variable {session : WriteSession} {message : WriteMessage}

theorem allAccepted_single :
    AllAccepted session [message] ↔
      message.data.chars ≠ etirw ∧
        (message.tokens ≠ [] →
          session.Accepts message.wordIndex message.tokens.length) := by
  rw [allAccepted_cons]
  by_cases empty : message.tokens = []
  · have answer := (@editOps_writeCommand session message (-1)
      (by rw [empty]; rfl)).2
    simp [answer, allAccepted_nil, empty]
  · rw [(commandMeaning empty).accepted]
    simp [allAccepted_nil, empty]

/-- The place of the delimiter index does not matter for this message: its
words are out of range, or none of them is the terminator and all or none are
behind the index, or one is the terminator and the last is behind the index. -/
def WriteSession.Uniform (session : WriteSession) (message : WriteMessage) :
    Prop :=
  ¬ (0 ≤ message.wordIndex ∧
      message.wordIndex ≤
        session.originalWordCount + session.editOps.length) ∨
    message.data.chars = etirw ∨
    (etirw ∉ message.tokens ∧
      (session.delimiterIndex < 0 ∨
        session.delimiterIndex < message.wordIndex ∨
        message.wordIndex + message.tokens.length - 1 ≤
          session.delimiterIndex)) ∨
    (etirw ∈ message.tokens ∧
      0 ≤ session.delimiterIndex ∧
        session.delimiterIndex <
          message.wordIndex + message.tokens.length - 1)

instance : Decidable (session.Uniform message) :=
  inferInstanceAs (Decidable (¬ (_ ∧ _) ∨ _ ∨ (_ ∧ (_ ∨ _ ∨ _)) ∨ (_ ∧ _ ∧ _)))

/-- Both ways are accepted at once exactly for a uniform message. -/
theorem accepted_together_iff
    (unended : ∀ token ∈ message.tokens, endsInDelimiter token = false) :
    (AllAccepted session [message] ↔
        AllAccepted session message.oneByOne) ↔
      session.Uniform message := by
  have singles := @allAccepted_singleCommands message.wordIndex 0
    message.tokens (fun _ => sendable_of_mem_tokens) unended session
  rw [allAccepted_single, WriteMessage.oneByOne, singles]
  by_cases ends : message.data.chars = etirw
  · have tokens : message.tokens = [etirw] := by
      rw [WriteMessage.tokens, ends,
        CText.strtok_of_not_mem (by decide), if_neg (by decide)]
    simp [WriteSession.Uniform, ends, tokens]
  by_cases empty : message.tokens = []
  · have uniform : session.delimiterIndex < 0 ∨
        session.delimiterIndex < message.wordIndex ∨
        message.wordIndex + ((0 : Nat) : Int) - 1 ≤
          session.delimiterIndex := by omega
    simp [WriteSession.Uniform, ends, empty] at uniform ⊢
    omega
  · have some_ := List.length_pos_of_ne_nil empty
    simp only [WriteSession.Uniform, WriteSession.Accepts, ends, empty,
      ne_eq, not_false_eq_true, true_implies, true_and, false_or]
    by_cases terminator : etirw ∈ message.tokens
    · simp only [terminator, not_true_eq_false, false_and, true_and,
        false_or, iff_false]
      omega
    · simp only [terminator, not_false_eq_true, true_and, false_and,
        or_false]
      omega

/-- Accepted both ways, the words leave the same session. -/
theorem same_session
    (unended : ∀ token ∈ message.tokens, endsInDelimiter token = false)
    (batch : AllAccepted session [message])
    (singles : AllAccepted session message.oneByOne) :
    (receiveCommands session [message]).1 =
      (receiveCommands session message.oneByOne).1 := by
  have separate := receiveCommands_singleCommands
    (fun _ => sendable_of_mem_tokens) unended singles
  rw [WriteMessage.oneByOne, separate]
  obtain ⟨command, accepted⟩ := allAccepted_single.mp batch
  rw [receiveCommands_cons command, receiveCommands]
  by_cases empty : message.tokens = []
  · rw [writeCommand_of_rejects fun inhabited => absurd empty inhabited,
      empty]
    simp [queuedEdits]
  · rw [writeCommand_of_accepts empty (accepted empty)]
    have none : message.tokens.findIdx? endsInDelimiter = none :=
      List.findIdx?_eq_none_iff.mpr unended
    simp [WriteSession.delimiterAfter, none]

/-- A message without delimiters is its words one by one exactly when it is
uniform. -/
theorem batch_equals_words_iff
    (unended : ∀ token ∈ message.tokens, endsInDelimiter token = false) :
    ((AllAccepted session [message] ↔
        AllAccepted session message.oneByOne) ∧
      (AllAccepted session [message] →
        (receiveCommands session [message]).1 =
          (receiveCommands session message.oneByOne).1)) ↔
      session.Uniform message := by
  rw [accepted_together_iff unended]
  constructor
  · exact And.left
  · intro uniform
    refine ⟨uniform, fun batch => ?_⟩
    exact same_session unended batch
      (((accepted_together_iff unended).mpr uniform).mp batch)

end Comparison

/-- One word before the delimiter. -/
theorem batch_equals_words_before :
    let session : WriteSession :=
      { newSession nobody 0 3 with delimiterIndex := 2 }
    let message : WriteMessage := ⟨0, CString.copy 4095 "so it".toList⟩
    (AllAccepted session [message] ↔
        AllAccepted session message.oneByOne) ∧
      (AllAccepted session [message] →
        (receiveCommands session [message]).1 =
          (receiveCommands session message.oneByOne).1) := by
  intro session message
  apply (@batch_equals_words_iff session message (by decide +kernel)).mpr
  decide +kernel

/-- Two words at the place of the delimiter go one by one only. -/
theorem batch_at_delimiter :
    ¬ ∀ (session : WriteSession) (message : WriteMessage),
      (∀ token ∈ message.tokens, endsInDelimiter token = false) →
      ((AllAccepted session [message] ↔
          AllAccepted session message.oneByOne) ∧
        (AllAccepted session [message] →
          (receiveCommands session [message]).1 =
            (receiveCommands session message.oneByOne).1)) := by
  intro same
  have both := same { newSession nobody 0 1 with delimiterIndex := 0 }
    ⟨0, CString.copy 4095 "so it".toList⟩ (by decide +kernel)
  have refused : ¬ AllAccepted
      { newSession nobody 0 1 with delimiterIndex := 0 }
      [⟨0, CString.copy 4095 "so it".toList⟩] := by decide +kernel
  exact refused (both.1.mpr (by decide +kernel))

end Dfs.StorageServer
