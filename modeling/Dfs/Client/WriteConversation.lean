import Dfs.Library.CInput
import Dfs.Library.Completion
import Dfs.Client.FileTransfer

/-!
# A WRITE session between a client and a storage server

`send_write_request` of `client/client_ss_comm.c` and `handle_write_request` of
the storage server run at the same time, joined by a connection that carries
messages in both directions.  Each takes its steps when it likes.  The client
and the server are shown to move in lockstep, every run ends, and the file is
then what the handler makes of the lines that were typed.
-/

namespace Dfs.Client

open CInput Completion Dfs.StorageServer

/-- The arguments of `send_write_request`, with the user of the client. -/
structure WriteOrder where
  username : Username
  filename : Filename
  sentenceIndex : Int
  deriving DecidableEq, Repr

/-- The fields that the two ends use; the operation is `OP_WRITE` in all of
these messages. -/
structure ClientMessage extends WriteMessage where
  username : Username
  filename : Filename
  sentenceIndex : Int
  deriving DecidableEq, Repr

def WriteOrder.message (order : WriteOrder) : ClientMessage :=
  { wordIndex := 0
    data := CString.copy 4095 []
    username := order.username
    filename := order.filename
    sentenceIndex := order.sentenceIndex }

/-- A message inside the session has neither a user nor a file. -/
def sessionMessage (command : WriteMessage) : ClientMessage :=
  { command with
    username := CString.copy 63 []
    filename := CString.copy 255 []
    sentenceIndex := 0 }

/-- Where `send_write_request` stands; `returned` has its result. -/
inductive ClientPhase where
  | requesting
  | awaitingLock
  | prompting
  | awaitingAck
  | awaitingFinal
  | returned (result : Int)
  deriving DecidableEq, Repr

/-- Where `handle_write_request` stands. -/
inductive ServerPhase where
  | listening
  | editing (filename : Filename) (session : WriteSession)
  | closed
  deriving DecidableEq, Repr

/-- `commands` and `responses` are on their way, and `answers` are the
responses that the client has read. -/
structure Conversation where
  stdin : Text
  terminal : Terminal
  client : ClientPhase
  answers : List Response
  commands : List ClientMessage
  responses : List Response
  server : ServerPhase
  store : FileHandler

def startConversation (store : FileHandler) (stdin : Text) : Conversation :=
  { stdin := stdin
    terminal := Terminal.blank
    client := .requesting
    answers := []
    commands := []
    responses := []
    server := .listening
    store := store }

/-- The room of `char input[MAX_DATA_SIZE]`. -/
def inputRoom : Nat := maxDataSize - 1

/-- `sscanf(input, "%d %4095[^\\n]", &word_index, content)`, when it returns
2. -/
def scanCommand (input : Text) : Option WriteMessage :=
  match scanInt input with
  | none => none
  | some (wordIndex, rest) =>
      let content :=
        ((rest.dropWhile CText.isSpace).takeWhile (· ≠ '\n')).take 4095
      if content = [] then none
      else some ⟨wordIndex, CString.copy 4095 content⟩

def etirwMessage : WriteMessage := ⟨0, CString.copy 4095 etirw⟩

def lockErrorText (order : WriteOrder) (errorCode : Int) : Text :=
  if errorCode = errNoWriteAccess then
    "Error: No write access to file '".toList ++ order.filename.chars ++
      "'\n".toList
  else if errorCode = errSentenceLocked then
    "Error: Sentence ".toList ++ intText order.sentenceIndex ++
      " is currently locked by another user\n".toList
  else if errorCode = errSentenceOutOfRange then
    "Error: Sentence index ".toList ++ intText order.sentenceIndex ++
      " out of range\n".toList
  else "Error: ".toList ++ intText errorCode ++ "\n".toList

def lockedNotice (sentenceIndex : Int) : Text :=
  "Sentence ".toList ++ intText sentenceIndex ++
    " locked. Enter write commands:\n".toList ++
    "Format: <word_index> <content>\n".toList ++
    "Enter 'ETIRW' to finish writing\n\n".toList

def commandErrorText (errorCode : Int) : Text :=
  if errorCode = errWordOutOfRange then
    "Error: Word index out of range\n".toList
  else "Error: ".toList ++ intText errorCode ++ "\n".toList

namespace Conversation

variable (order : WriteOrder) (early : Bool)

def hasClosed (c : Conversation) : Bool := c.server = .closed

/-- The client closes its socket. -/
def failing (c : Conversation) (text : Text) : Conversation :=
  { c with terminal := c.terminal.complain text, client := .returned (-1) }

/-- `send_message`, which may notice already that the server is gone. -/
def sending (c : Conversation) (message : ClientMessage)
    (phase : ClientPhase) (text : Text) : Conversation :=
  if early = true ∧ c.hasClosed = true then c.failing text
  else { c with commands := c.commands ++ [message], client := phase }

/-- `receive_message`, which waits for an answer or for the end of the
connection. -/
def receiving (c : Conversation) (text : Text)
    (goOn : Conversation → Response → Conversation) :
    Option Conversation :=
  match c.responses with
  | response :: responses =>
      some (goOn
        { c with
          responses := responses
          answers := c.answers ++ [response] } response)
  | [] => if c.hasClosed then some (c.failing text) else none

def takeLock (c : Conversation) (response : Response) : Conversation :=
  if response.msgType = msgError then
    c.failing (lockErrorText order response.errorCode)
  else
    { c with
      terminal := c.terminal.print (lockedNotice order.sentenceIndex)
      client := .prompting }

def takeAck (c : Conversation) (response : Response) : Conversation :=
  { c with
    terminal :=
      if response.msgType = msgError then
        c.terminal.complain (commandErrorText response.errorCode)
      else c.terminal
    client := .prompting }

def takeFinal (c : Conversation) (response : Response) : Conversation :=
  { c with
    terminal := c.terminal.print (response.data ++ ['\n'])
    client := .returned 0 }

/-- One turn of the loop up to its message. -/
def prompt (c : Conversation) : Conversation :=
  let (line, rest) := fgets inputRoom c.stdin
  let c := { c with
    stdin := rest
    terminal := c.terminal.print "> ".toList }
  if line = [] then { c with client := .returned 0 }
  else
    let input := chomp line
    if input = etirw then
      c.sending early (sessionMessage etirwMessage) .awaitingFinal
        "Failed to send ETIRW\n".toList
    else
      match scanCommand input with
      | none =>
          { c with
            terminal := c.terminal.complain
              "Invalid format. Use: <word_index> <content>\n".toList }
      | some command =>
          c.sending early (sessionMessage command) .awaitingAck
            "Failed to send write command\n".toList

def clientStep (c : Conversation) : Option Conversation :=
  match c.client with
  | .requesting =>
      some (c.sending early order.message .awaitingLock
        "Failed to send WRITE request\n".toList)
  | .awaitingLock =>
      c.receiving "Failed to receive lock response\n".toList
        (takeLock order)
  | .prompting => some (c.prompt early)
  | .awaitingAck =>
      c.receiving "Failed to receive write response\n".toList takeAck
  | .awaitingFinal =>
      c.receiving "Failed to receive final response\n".toList takeFinal
  | .returned _ => none

def clientGone (c : Conversation) : Bool :=
  match c.client with
  | .returned _ => true
  | _ => false

/-- The first message opens the session. -/
def serverOpens (c : Conversation) (message : ClientMessage) : Conversation :=
  match openWrite c.store message.filename message.username
      message.sentenceIndex with
  | (store, response, none) =>
      { c with
        responses := c.responses ++ [response]
        server := .closed
        store := store }
  | (store, response, some session) =>
      { c with
        responses := c.responses ++ [response]
        server := .editing message.filename session
        store := store }

/-- A later message is a command or ends the session. -/
def serverEdits (now : TimeText) (c : Conversation) (filename : Filename)
    (session : WriteSession) (message : ClientMessage) : Conversation :=
  if message.data.chars = etirw then
    let store := (unlockSentenceLl c.store filename session.sentenceIndex
      session.username).1
    let (store, final) := commitWrite store filename session now
    { c with
      responses := c.responses ++ [final]
      server := .closed
      store := store }
  else
    let (session, response) := writeCommand session message.toWriteMessage
    { c with
      responses := c.responses ++ [response]
      server := .editing filename session }

/-- The server waits for a message or for the end of the connection. -/
def serverStep (now : TimeText) (c : Conversation) : Option Conversation :=
  match c.server, c.commands with
  | .listening, [] => none
  | .listening, message :: messages =>
      some ({ c with commands := messages }.serverOpens message)
  | .editing filename session, [] =>
      if c.clientGone then
        some { c with
          server := .closed
          store := rollbackWrite c.store filename session }
      else none
  | .editing filename session, message :: messages =>
      some ({ c with commands := messages }.serverEdits now filename session
        message)
  | .closed, _ => none

end Conversation

/-- A step of either side. -/
def converses (order : WriteOrder) (now : TimeText)
    (c next : Conversation) : Prop :=
  (∃ early, c.clientStep order early = some next) ∨
    c.serverStep now = some next

/-- The client has returned and the server has closed the connection. -/
def Conversation.Over (c : Conversation) : Prop :=
  c.clientGone = true ∧ c.server = .closed

/-- The messages of a session in which these lines are typed. -/
def typedCommands (stdin : Text) : List WriteMessage :=
  let line := (fgets inputRoom stdin).1
  if line = [] then []
  else if chomp line = etirw then [etirwMessage]
  else
    match scanCommand (chomp line) with
    | none => typedCommands (fgets inputRoom stdin).2
    | some command => command :: typedCommands (fgets inputRoom stdin).2
termination_by stdin.length
decreasing_by
  all_goals exact length_fgets_lt ‹_›

/-- What is left of the input behind the session.  A command whose content is
`ETIRW` ends it at the server only, and the next one is typed in vain. -/
def unreadInput (ended : Bool) (stdin : Text) : Text :=
  let line := (fgets inputRoom stdin).1
  if line = [] then (fgets inputRoom stdin).2
  else if chomp line = etirw then (fgets inputRoom stdin).2
  else
    match scanCommand (chomp line) with
    | none => unreadInput ended (fgets inputRoom stdin).2
    | some command =>
        if ended then (fgets inputRoom stdin).2
        else
          unreadInput (command.data.chars = etirw) (fgets inputRoom stdin).2
termination_by stdin.length
decreasing_by
  all_goals exact length_fgets_lt ‹_›

/-- What the shell reads after the request. -/
def inputAfterWrite (order : WriteOrder) (store : FileHandler)
    (stdin : Text) : Text :=
  match (openWrite store order.filename order.username
      order.sentenceIndex).2.2 with
  | none => stdin
  | some _ => unreadInput false stdin

/-- The line that a user types for a command. -/
def commandLine (command : WriteMessage) : Text :=
  decimal command.wordIndex ++ ' ' :: command.data.chars

/-- The line fits the buffer, and the content is found behind the number. -/
structure Typeable (command : WriteMessage) : Prop where
  isInt : IsInt command.wordIndex
  inhabited : command.data.chars ≠ []
  starts : ∀ byte ∈ command.data.chars.head?, CText.isSpace byte = false
  oneLine : '\n' ∉ command.data.chars
  fits : (commandLine command).length < inputRoom

theorem not_mem_decimal {byte : Char} (plain : byte.isDigit = false)
    (different : byte ≠ '-') (value : Int) : byte ∉ decimal value := by
  rw [← intText_eq_decimal]
  exact not_mem_intText plain different value

section

variable {command : WriteMessage}

theorem newline_not_mem_commandLine (typeable : Typeable command) :
    '\n' ∉ commandLine command := by
  rw [commandLine, List.mem_append, List.mem_cons]
  rintro (inNumber | space | inContent)
  · exact not_mem_decimal (by decide) (by decide) _ inNumber
  · cases space
  · exact typeable.oneLine inContent

theorem chomp_commandLine (typeable : Typeable command) :
    chomp (commandLine command ++ ['\n']) = commandLine command := by
  apply chomp_typed (newline_not_mem_commandLine typeable)
  rw [commandLine, List.mem_append, List.mem_cons]
  rintro (inNumber | space | inContent)
  · exact not_mem_decimal (by decide) (by decide) _ inNumber
  · cases space
  · exact command.data.nulFree inContent

theorem scanCommand_commandLine (typeable : Typeable command) :
    scanCommand (commandLine command) = some command := by
  have content : ((' ' :: command.data.chars).dropWhile
      CText.isSpace).takeWhile (· ≠ '\n') = command.data.chars := by
    have space : CText.isSpace ' ' = true := rfl
    have whole : command.data.chars.takeWhile (· ≠ '\n') =
        command.data.chars := by
      apply List.takeWhile_eq_self_iff.mpr
      intro byte member
      simpa using fun same : byte = '\n' => typeable.oneLine (same ▸ member)
    rw [List.dropWhile_cons, if_pos space]
    cases text : command.data.chars with
    | nil => exact (typeable.inhabited text).elim
    | cons byte rest =>
        have first := typeable.starts byte (by rw [text]; rfl)
        rw [List.dropWhile_cons, if_neg (by simp [first]), ← text, whole]
  have short : command.data.chars.take 4095 = command.data.chars :=
    List.take_of_length_le command.data.fits
  have scanned := @scanInt_decimal command.wordIndex typeable.isInt
    (' ' :: command.data.chars) (by simp [StopsDigits])
  unfold scanCommand commandLine
  rw [scanned]
  simp only [content, short, if_neg typeable.inhabited, CString.copy_chars]

theorem commandLine_ne_etirw (command : WriteMessage) :
    commandLine command ≠ etirw := by
  intro same
  have letter : 'E' ∈ commandLine command → 'E' ∈ command.data.chars := by
    rw [commandLine, List.mem_append, List.mem_cons]
    rintro (inNumber | space | inContent)
    · exact (not_mem_decimal (by decide) (by decide) _ inNumber).elim
    · cases space
    · exact inContent
  have space : ' ' ∈ commandLine command := by simp [commandLine]
  rw [same] at space
  revert space
  decide

end

/-- The lines of a session, and what the shell reads after it. -/
def typedSession (commands : List WriteMessage) (rest : Text) : Text :=
  (commands.map fun command => commandLine command ++ ['\n']).flatten ++
    etirw ++ '\n' :: rest

/-- Typed commands are the messages that are sent. -/
theorem typedCommands_typedSession {commands : List WriteMessage}
    (typeable : ∀ command ∈ commands, Typeable command) (rest : Text) :
    typedCommands (typedSession commands rest) =
      commands ++ [etirwMessage] := by
  induction commands with
  | nil =>
      have line := @fgets_line inputRoom etirw (by decide) (by decide) rest
      have stdin : typedSession [] rest = etirw ++ '\n' :: rest := by
        simp [typedSession]
      have terminator : chomp (etirw ++ ['\n']) = etirw := by decide
      rw [stdin, typedCommands.eq_def, line]
      simp only [terminator, if_true]
      rfl
  | cons command commands ih =>
      have first := typeable command List.mem_cons_self
      have later := ih fun other member =>
        typeable other (List.mem_cons_of_mem _ member)
      have stdin : typedSession (command :: commands) rest =
          commandLine command ++ '\n' :: typedSession commands rest := by
        simp [typedSession]
      rw [stdin, typedCommands.eq_def,
        fgets_line (newline_not_mem_commandLine first) first.fits]
      have read : commandLine command ++ ['\n'] ≠ [] := by simp
      simp only [chomp_commandLine first, scanCommand_commandLine first,
        if_neg read, if_neg (commandLine_ne_etirw command), later]
      rfl

/-- If no content is `ETIRW`, the session ends where its last line does. -/
theorem unreadInput_typedSession {commands : List WriteMessage}
    (typeable : ∀ command ∈ commands, Typeable command)
    (goesOn : ∀ command ∈ commands, command.data.chars ≠ etirw)
    (rest : Text) :
    unreadInput false (typedSession commands rest) = rest := by
  induction commands with
  | nil =>
      have line := @fgets_line inputRoom etirw (by decide) (by decide) rest
      have stdin : typedSession [] rest = etirw ++ '\n' :: rest := by
        simp [typedSession]
      have terminator : chomp (etirw ++ ['\n']) = etirw := by decide
      rw [stdin, unreadInput.eq_def, line]
      simp only [terminator, if_true]
      rfl
  | cons command commands ih =>
      have first := typeable command List.mem_cons_self
      have later := ih
        (fun other member =>
          typeable other (List.mem_cons_of_mem _ member))
        (fun other member => goesOn other (List.mem_cons_of_mem _ member))
      have stdin : typedSession (command :: commands) rest =
          commandLine command ++ '\n' :: typedSession commands rest := by
        simp [typedSession]
      rw [stdin, unreadInput.eq_def,
        fgets_line (newline_not_mem_commandLine first) first.fits]
      have read : commandLine command ++ ['\n'] ≠ [] := by simp
      simp only [chomp_commandLine first, scanCommand_commandLine first,
        if_neg read, if_neg (commandLine_ne_etirw command),
        goesOn command List.mem_cons_self, decide_false, later]
      rfl

/-- The rest of `handle_write_request`, given the messages that come. -/
def finishWrite (s : FileHandler) (filename : Filename)
    (session : WriteSession) (messages : List WriteMessage)
    (now : TimeText) : FileHandler × List Response :=
  let (session, completed, responses) := receiveCommands session messages
  if completed then
    let s := (unlockSentenceLl s filename session.sentenceIndex
      session.username).1
    let (s, final) := commitWrite s filename session now
    (s, responses ++ [final])
  else (rollbackWrite s filename session, responses)

section

variable {s : FileHandler} {filename : Filename} {session : WriteSession}
  {now : TimeText}

theorem handleWriteRequest_opened {username : Username}
    {sentenceIndex : Int} {t : FileHandler} {response : Response}
    (opened : openWrite s filename username sentenceIndex =
      (t, response, some session)) (messages : List WriteMessage) :
    handleWriteRequest s filename username sentenceIndex messages now =
      ((finishWrite t filename session messages now).1,
        response :: (finishWrite t filename session messages now).2) := by
  unfold handleWriteRequest finishWrite
  rw [opened]
  simp only
  split <;> rfl

theorem handleWriteRequest_refused {username : Username}
    {sentenceIndex : Int} {t : FileHandler} {response : Response}
    (refused : openWrite s filename username sentenceIndex =
      (t, response, none)) (messages : List WriteMessage) :
    handleWriteRequest s filename username sentenceIndex messages now =
      (t, [response]) := by
  unfold handleWriteRequest
  rw [refused]

theorem finishWrite_nil :
    finishWrite s filename session [] now =
      (rollbackWrite s filename session, []) :=
  rfl

theorem finishWrite_etirw {message : WriteMessage}
    (ends : message.data.chars = etirw) (messages : List WriteMessage) :
    finishWrite s filename session (message :: messages) now =
      let t := (unlockSentenceLl s filename session.sentenceIndex
        session.username).1
      ((commitWrite t filename session now).1,
        [(commitWrite t filename session now).2]) := by
  simp only [finishWrite, receiveCommands, if_pos ends]
  rfl

theorem finishWrite_command {message : WriteMessage}
    (goesOn : message.data.chars ≠ etirw) (messages : List WriteMessage) :
    finishWrite s filename session (message :: messages) now =
      let (session, response) := writeCommand session message
      ((finishWrite s filename session messages now).1,
        response :: (finishWrite s filename session messages now).2) := by
  simp only [finishWrite, receiveCommands, if_neg goesOn]
  split <;> rfl

/-- A session is opened with an acknowledgement. -/
theorem msgType_of_openWrite {username : Username} {sentenceIndex : Int}
    {t : FileHandler} {response : Response}
    (opened : openWrite s filename username sentenceIndex =
      (t, response, some session)) : response.msgType ≠ msgError := by
  unfold openWrite at opened
  simp only at opened
  split at opened
  · cases opened
  · split at opened
    · cases opened
    · split at opened
      · cases opened
      · split at opened
        · cases opened
        · cases opened
          decide

theorem msgType_of_validateWrite {content : Option Text}
    {size : Option Nat} {sentenceIndex : Int} {response : Response}
    (refused : validateWrite content size sentenceIndex = some response) :
    response.msgType = msgError := by
  unfold validateWrite at refused
  split at refused
  · cases refused
    rfl
  · split at refused
    · cases refused
      rfl
    · cases refused

theorem msgType_of_refused {username : Username} {sentenceIndex : Int}
    {t : FileHandler} {response : Response}
    (refused : openWrite s filename username sentenceIndex =
      (t, response, none)) : response.msgType = msgError := by
  unfold openWrite at refused
  simp only at refused
  split at refused
  · cases refused
    rfl
  · split at refused
    · rename_i invalid
      cases refused
      exact msgType_of_validateWrite invalid
    · split at refused
      · cases refused
        rfl
      · split at refused
        · cases refused
          rfl
        · cases refused

end

/-- Where the two sides and the messages between them can stand together. -/
inductive Lockstep (order : WriteOrder) (c : Conversation) : Prop where
  | before (server : c.server = .listening) (client : c.client = .requesting)
      (commands : c.commands = []) (responses : c.responses = [])
  | requested (server : c.server = .listening)
      (client : c.client = .awaitingLock)
      (commands : c.commands = [order.message]) (responses : c.responses = [])
  | opened {filename : Filename} {session : WriteSession}
      {response : Response} (server : c.server = .editing filename session)
      (client : c.client = .awaitingLock) (commands : c.commands = [])
      (responses : c.responses = [response])
      (granted : response.msgType ≠ msgError)
  | idle {filename : Filename} {session : WriteSession}
      (server : c.server = .editing filename session)
      (client : c.client = .prompting) (commands : c.commands = [])
      (responses : c.responses = [])
  | commanded {filename : Filename} {session : WriteSession}
      {message : ClientMessage} (server : c.server = .editing filename session)
      (client : c.client = .awaitingAck) (commands : c.commands = [message])
      (responses : c.responses = [])
  | acknowledged {filename : Filename} {session : WriteSession}
      {response : Response} (server : c.server = .editing filename session)
      (client : c.client = .awaitingAck) (commands : c.commands = [])
      (responses : c.responses = [response])
  | terminated {filename : Filename} {session : WriteSession}
      (server : c.server = .editing filename session)
      (client : c.client = .awaitingFinal)
      (commands : c.commands = [sessionMessage etirwMessage])
      (responses : c.responses = [])
  | left {filename : Filename} {session : WriteSession}
      (server : c.server = .editing filename session)
      (client : c.clientGone = true) (commands : c.commands = [])
      (responses : c.responses = [])
  | answered {response : Response} (server : c.server = .closed)
      (client : c.client = .awaitingLock ∧ response.msgType = msgError ∨
        c.client = .awaitingAck ∨ c.client = .awaitingFinal)
      (responses : c.responses = [response])
  | alone (server : c.server = .closed) (client : c.client ≠ .requesting)
      (responses : c.responses = [])

theorem lockstep_start (order : WriteOrder) (store : FileHandler)
    (stdin : Text) : Lockstep order (startConversation store stdin) :=
  .before rfl rfl rfl rfl

/-- The commands on their way and those that will still be typed. -/
def Conversation.coming (c : Conversation) : List WriteMessage :=
  c.commands.map ClientMessage.toWriteMessage ++
    match c.client with
    | .awaitingFinal => []
    | .returned _ => []
    | _ => typedCommands c.stdin

/-- What the storage server and the answers will be in the end. -/
def outcome (order : WriteOrder) (now : TimeText) (c : Conversation) :
    FileHandler × List Response :=
  match c.server with
  | .listening =>
      let (store, responses) := handleWriteRequest c.store order.filename
        order.username order.sentenceIndex (typedCommands c.stdin) now
      (store, c.answers ++ c.responses ++ responses)
  | .editing filename session =>
      let (store, responses) :=
        finishWrite c.store filename session c.coming now
      (store, c.answers ++ c.responses ++ responses)
  | .closed => (c.store, c.answers ++ c.responses)

/-- What the client will leave of its input. -/
def unread (order : WriteOrder) (c : Conversation) : Text :=
  match c.client with
  | .requesting => inputAfterWrite order c.store c.stdin
  | .awaitingLock =>
      match c.server with
      | .listening => inputAfterWrite order c.store c.stdin
      | .editing _ _ => unreadInput false c.stdin
      | .closed => c.stdin
  | .prompting => unreadInput c.hasClosed c.stdin
  | .awaitingAck =>
      match c.server with
      | .closed =>
          if c.responses = [] then c.stdin else unreadInput true c.stdin
      | _ =>
          unreadInput (c.commands.any fun message =>
            message.data.chars = etirw) c.stdin
  | .awaitingFinal => c.stdin
  | .returned _ => c.stdin

def ClientPhase.weight : ClientPhase → Nat
  | .requesting => 5
  | .awaitingLock => 2
  | .prompting => 1
  | .awaitingAck => 2
  | .awaitingFinal => 2
  | .returned _ => 0

def ServerPhase.weight : ServerPhase → Nat
  | .listening => 2
  | .editing _ _ => 1
  | .closed => 0

/-- What is left to do; a line that is typed can still become a message, an
answer and a turn of the loop. -/
def Conversation.weight (c : Conversation) : Nat :=
  5 * c.stdin.length + 2 * c.commands.length + c.responses.length +
    c.client.weight + c.server.weight

/-- One step forward with the same end in sight. -/
structure Advances (order : WriteOrder) (now : TimeText)
    (c next : Conversation) : Prop where
  lockstep : Lockstep order next
  outcome : outcome order now next = outcome order now c
  unread : unread order next = unread order c
  weight : next.weight < c.weight

section

variable {order : WriteOrder} {now : TimeText} {early : Bool}
  {c next : Conversation} {filename : Filename} {session : WriteSession}

theorem Conversation.hasClosed_of_editing
    (server : c.server = .editing filename session) :
    c.hasClosed = false := by
  simp [hasClosed, server]

theorem outcome_editing (server : c.server = .editing filename session) :
    outcome order now c =
      ((finishWrite c.store filename session c.coming now).1,
        c.answers ++ c.responses ++
          (finishWrite c.store filename session c.coming now).2) := by
  rw [outcome, server]

/-- A step of the client keeps the end in sight if it keeps what comes. -/
theorem outcome_of_coming (server : c.server = .editing filename session)
    (sameServer : next.server = c.server) (store : next.store = c.store)
    (shown : next.answers ++ next.responses = c.answers ++ c.responses)
    (coming : next.coming = c.coming) :
    outcome order now next = outcome order now c := by
  rw [outcome_editing server, outcome_editing (sameServer.trans server),
    store, shown, coming]

theorem sending_of_open (reached : c.hasClosed = false)
    (message : ClientMessage) (phase : ClientPhase) (text : Text) :
    c.sending early message phase text =
      { c with commands := c.commands ++ [message], client := phase } := by
  simp [Conversation.sending, reached]

/-- The next turn of the loop, while the server waits for it. -/
theorem prompt_advances_editing
    (server : c.server = .editing filename session)
    (client : c.client = .prompting) (commands : c.commands = [])
    (responses : c.responses = []) :
    Advances order now c (c.prompt early) := by
  have coming : c.coming = typedCommands c.stdin := by
    simp [Conversation.coming, commands, client]
  have weight : c.weight = 5 * c.stdin.length + 2 := by
    simp [Conversation.weight, commands, responses, client, server,
      ClientPhase.weight, ServerPhase.weight]
  have shorter : (fgets inputRoom c.stdin).1 ≠ [] →
      (fgets inputRoom c.stdin).2.length < c.stdin.length := length_fgets_lt
  have whole := congrArg List.length (fgets_append inputRoom c.stdin)
  have typed := typedCommands.eq_def c.stdin
  have unreadBefore : unread order c = unreadInput false c.stdin := by
    rw [unread, client, Conversation.hasClosed_of_editing server]
  rw [unreadInput.eq_def] at unreadBefore
  unfold Conversation.prompt
  generalize fgets inputRoom c.stdin = read
    at shorter whole typed unreadBefore
  obtain ⟨line, rest⟩ := read
  simp only at shorter whole typed unreadBefore ⊢
  have reached : ({ c with
      stdin := rest
      terminal := c.terminal.print "> ".toList } :
        Conversation).hasClosed = false :=
    Conversation.hasClosed_of_editing server
  by_cases ended : line = []
  · rw [if_pos ended] at typed unreadBefore ⊢
    refine ⟨.left server rfl commands responses,
      outcome_of_coming server rfl rfl rfl ?_, unreadBefore.symm, ?_⟩
    · rw [coming, typed]
      simp [Conversation.coming, commands]
    · rw [ended] at whole
      simp [Conversation.weight, commands, responses, server,
        ClientPhase.weight, ServerPhase.weight] at weight whole ⊢
      omega
  · have less := shorter ended
    rw [if_neg ended] at typed unreadBefore ⊢
    by_cases terminator : chomp line = etirw
    · rw [if_pos terminator] at typed unreadBefore ⊢
      rw [sending_of_open reached]
      refine ⟨.terminated server rfl (by simp [commands]) responses,
        outcome_of_coming server rfl rfl rfl ?_, unreadBefore.symm, ?_⟩
      · rw [coming, typed]
        simp [Conversation.coming, commands, sessionMessage]
      · rw [weight]
        simp [Conversation.weight, commands, responses, server,
          ClientPhase.weight, ServerPhase.weight]
        omega
    · rw [if_neg terminator] at typed unreadBefore ⊢
      cases scanned : scanCommand (chomp line) with
      | none =>
          rw [scanned] at typed unreadBefore
          refine ⟨.idle server client commands responses,
            outcome_of_coming server rfl rfl rfl ?_, ?_, ?_⟩
          · rw [coming, typed]
            simp [Conversation.coming, commands, client]
          · rw [unreadBefore]
            simp [unread, Conversation.hasClosed, client, server]
          · rw [weight]
            simp [Conversation.weight, commands, responses, server, client,
              ClientPhase.weight, ServerPhase.weight]
            omega
      | some command =>
          rw [scanned] at typed unreadBefore
          simp only [sending_of_open reached]
          refine ⟨.commanded server rfl
              (congrArg (· ++ [sessionMessage command]) commands) responses,
            outcome_of_coming server rfl rfl rfl ?_, ?_, ?_⟩
          · rw [coming, typed]
            simp [Conversation.coming, commands, sessionMessage]
          · rw [unreadBefore]
            simp [unread, server, commands, sessionMessage]
          · rw [weight]
            simp [Conversation.weight, commands, responses, server,
              ClientPhase.weight, ServerPhase.weight]
            omega

/-- A turn of the loop behind the end of the connection. -/
theorem prompt_advances_closed (server : c.server = .closed)
    (client : c.client = .prompting) (responses : c.responses = []) :
    Advances order now c (c.prompt early) := by
  have shorter : (fgets inputRoom c.stdin).1 ≠ [] →
      (fgets inputRoom c.stdin).2.length < c.stdin.length := length_fgets_lt
  have whole := congrArg List.length (fgets_append inputRoom c.stdin)
  have weight : c.weight = 5 * c.stdin.length + 2 * c.commands.length + 1 := by
    simp [Conversation.weight, responses, client, server,
      ClientPhase.weight, ServerPhase.weight]
  have unreadBefore : unread order c = unreadInput true c.stdin := by
    simp [unread, client, Conversation.hasClosed, server]
  rw [unreadInput.eq_def] at unreadBefore
  unfold Conversation.prompt
  generalize fgets inputRoom c.stdin = read at shorter whole unreadBefore
  obtain ⟨line, rest⟩ := read
  simp only at shorter whole unreadBefore ⊢
  by_cases ended : line = []
  · rw [if_pos ended] at unreadBefore ⊢
    refine ⟨.alone server (by simp) responses, by simp [outcome, server],
      unreadBefore.symm, ?_⟩
    rw [ended] at whole
    rw [weight]
    simp [Conversation.weight, responses, server,
      ClientPhase.weight, ServerPhase.weight] at whole ⊢
    omega
  · have less := shorter ended
    rw [if_neg ended] at unreadBefore ⊢
    have sends : ∀ (message : ClientMessage) (phase : ClientPhase)
        (text : Text), phase = .awaitingAck ∨ phase = .awaitingFinal →
        unread order c = rest → Advances order now c
          (({ c with
              stdin := rest
              terminal := c.terminal.print "> ".toList } :
                Conversation).sending early message phase text) := by
      intro message phase text waiting left
      have waits : phase.weight = 2 := by
        rcases waiting with rfl | rfl <;> rfl
      have later : phase ≠ .requesting := by
        rintro rfl
        cases waits
      unfold Conversation.sending
      split
      · refine ⟨.alone server (by simp [Conversation.failing]) responses,
          by simp [outcome, Conversation.failing, server], left.symm, ?_⟩
        rw [weight]
        simp [Conversation.weight, Conversation.failing, responses, server,
          ClientPhase.weight, ServerPhase.weight]
        omega
      · refine ⟨.alone server later responses, by simp [outcome, server],
          ?_, ?_⟩
        · rw [left]
          rcases waiting with rfl | rfl <;>
            simp [unread, server, responses]
        rw [weight]
        simp [Conversation.weight, responses, server, waits,
          ServerPhase.weight]
        omega
    by_cases terminator : chomp line = etirw
    · rw [if_pos terminator] at unreadBefore ⊢
      exact sends _ _ _ (.inr rfl) unreadBefore
    · rw [if_neg terminator] at unreadBefore ⊢
      cases scanned : scanCommand (chomp line) with
      | none =>
          rw [scanned] at unreadBefore
          refine ⟨.alone server (by simp [client]) responses,
            by simp [outcome, server], ?_, ?_⟩
          · rw [unreadBefore]
            simp [unread, Conversation.hasClosed, client, server]
          · rw [weight]
            simp [Conversation.weight, responses, server, client,
              ClientPhase.weight, ServerPhase.weight]
            omega
      | some command =>
          rw [scanned] at unreadBefore
          exact sends _ _ _ (.inl rfl) (by simpa using unreadBefore)

/-- The client reads the answer that is there. -/
theorem receiving_cons {response : Response} {rest : List Response}
    (responses : c.responses = response :: rest) (text : Text)
    (goOn : Conversation → Response → Conversation) :
    c.receiving text goOn =
      some (goOn { c with
        responses := rest
        answers := c.answers ++ [response] } response) := by
  simp [Conversation.receiving, responses]

theorem receiving_blocked (responses : c.responses = [])
    (reached : c.hasClosed = false) (text : Text)
    (goOn : Conversation → Response → Conversation) :
    c.receiving text goOn = none := by
  simp [Conversation.receiving, responses, reached]

theorem receiving_closed (responses : c.responses = [])
    (server : c.server = .closed) (text : Text)
    (goOn : Conversation → Response → Conversation) :
    c.receiving text goOn = some (c.failing text) := by
  simp [Conversation.receiving, responses, Conversation.hasClosed, server]

/-- The end of the connection is noticed. -/
theorem failing_advances (server : c.server = .closed)
    (client : c.client = .awaitingLock ∨ c.client = .awaitingAck ∨
      c.client = .awaitingFinal) (responses : c.responses = [])
    (text : Text) : Advances order now c (c.failing text) := by
  have waits : c.client.weight = 2 := by
    rcases client with client | client | client <;> rw [client] <;> rfl
  refine ⟨.alone server (by simp [Conversation.failing]) responses,
    by simp [outcome, Conversation.failing, server], ?_, ?_⟩
  · rcases client with client | client | client <;>
      simp [unread, Conversation.failing, client, server, responses]
  have done : (ClientPhase.returned (-1)).weight = 0 := rfl
  simp only [Conversation.weight, Conversation.failing, waits, done]
  omega

theorem client_advances (lockstep : Lockstep order c)
    (taken : c.clientStep order early = some next) :
    Advances order now c next := by
  unfold Conversation.clientStep at taken
  cases lockstep with
  | before server client commands responses =>
      have reached : c.hasClosed = false := by
        simp [Conversation.hasClosed, server]
      simp only [client, sending_of_open reached, Option.some.injEq] at taken
      rw [← taken]
      refine ⟨.requested server rfl
          (congrArg (· ++ [order.message]) commands) responses,
        by simp [outcome, server], by simp [unread, client, server], ?_⟩
      simp [Conversation.weight, commands, client, ClientPhase.weight]
      omega
  | requested server client commands responses =>
      have reached : c.hasClosed = false := by
        simp [Conversation.hasClosed, server]
      simp only [client, receiving_blocked responses reached] at taken
      cases taken
  | opened server client commands responses granted =>
      simp only [client, receiving_cons responses, Conversation.takeLock,
        if_neg granted, Option.some.injEq] at taken
      rw [← taken]
      refine ⟨.idle server rfl commands rfl,
        outcome_of_coming server rfl rfl ?_ ?_, ?_, ?_⟩
      · simp [responses]
      · simp [Conversation.coming, client]
      · simp [unread, Conversation.hasClosed, client, server]
      · simp [Conversation.weight, responses, client, ClientPhase.weight]
  | idle server client commands responses =>
      simp only [client, Option.some.injEq] at taken
      rw [← taken]
      exact prompt_advances_editing server client commands responses
  | commanded server client commands responses =>
      simp only [client, receiving_blocked responses
        (Conversation.hasClosed_of_editing server)] at taken
      cases taken
  | acknowledged server client commands responses =>
      simp only [client, receiving_cons responses, Conversation.takeAck,
        Option.some.injEq] at taken
      rw [← taken]
      refine ⟨.idle server rfl commands rfl,
        outcome_of_coming server rfl rfl ?_ ?_, ?_, ?_⟩
      · simp [responses]
      · simp [Conversation.coming, client]
      · simp [unread, Conversation.hasClosed, client, server, commands]
      · simp [Conversation.weight, responses, client, ClientPhase.weight]
  | terminated server client commands responses =>
      simp only [client, receiving_blocked responses
        (Conversation.hasClosed_of_editing server)] at taken
      cases taken
  | left server client commands responses =>
      unfold Conversation.clientGone at client
      split at client
      · rename_i returned
        rw [returned] at taken
        cases taken
      · cases client
  | answered server client responses =>
      rename_i response
      -- each way to read the last answer leaves an empty connection
      have reads : ∀ read : Conversation, read.server = c.server →
          read.store = c.store → read.stdin = c.stdin →
          read.commands = c.commands → read.responses = [] →
          read.answers = c.answers ++ [response] →
          unread order read = unread order c → c.client.weight = 2 →
          read.client.weight ≤ 1 → Advances order now c read := by
        intro read sameServer store stdin commands none answers left heavy
          light
        refine ⟨.alone (sameServer.trans server) ?_ none, ?_, left, ?_⟩
        · intro requesting
          rw [requesting] at light
          exact absurd light (by decide)
        · simp [outcome, sameServer, server, store, answers, none, responses]
        · simp only [Conversation.weight, stdin, commands, none, responses,
            sameServer, heavy, List.length_nil, List.length_singleton]
          omega
      rcases client with ⟨client, refused⟩ | client | client
      · simp only [client, receiving_cons responses, Conversation.takeLock,
          if_pos refused, Option.some.injEq] at taken
        rw [← taken]
        exact reads _ rfl rfl rfl rfl rfl rfl
          (by simp [unread, Conversation.failing, client, server])
          (by rw [client]; rfl) (Nat.zero_le 1)
      · simp only [client, receiving_cons responses,
          Option.some.injEq] at taken
        rw [← taken]
        exact reads _ rfl rfl rfl rfl rfl rfl
          (by simp [unread, Conversation.takeAck, Conversation.hasClosed,
            client, server, responses])
          (by rw [client]; rfl) (Nat.le_refl 1)
      · simp only [client, receiving_cons responses,
          Option.some.injEq] at taken
        rw [← taken]
        exact reads _ rfl rfl rfl rfl rfl rfl
          (by simp [unread, Conversation.takeFinal, client])
          (by rw [client]; rfl) (Nat.zero_le 1)
  | alone server client responses =>
      cases phase : c.client with
      | requesting => exact (client phase).elim
      | prompting =>
          simp only [phase, Option.some.injEq] at taken
          rw [← taken]
          exact prompt_advances_closed server phase responses
      | returned result =>
          rw [phase] at taken
          cases taken
      | awaitingLock =>
          simp only [phase, receiving_closed responses server,
            Option.some.injEq] at taken
          rw [← taken]
          exact failing_advances server (.inl phase) responses _
      | awaitingAck =>
          simp only [phase, receiving_closed responses server,
            Option.some.injEq] at taken
          rw [← taken]
          exact failing_advances server (.inr (.inl phase)) responses _
      | awaitingFinal =>
          simp only [phase, receiving_closed responses server,
            Option.some.injEq] at taken
          rw [← taken]
          exact failing_advances server (.inr (.inr phase)) responses _

/-- `ETIRW` commits the session and closes the connection. -/
theorem etirw_advances {message : ClientMessage}
    (server : c.server = .editing filename session)
    (client : c.client = .awaitingAck ∨ c.client = .awaitingFinal)
    (commands : c.commands = [message]) (responses : c.responses = [])
    (ends : message.data.chars = etirw) :
    Advances order now c
      ({ c with commands := [] }.serverEdits now filename session
        message) := by
  unfold Conversation.serverEdits
  rw [if_pos ends]
  refine ⟨.answered rfl (.inr client) (congrArg (· ++ [_]) responses), ?_,
    ?_, ?_⟩
  · have rest : c.coming = message.toWriteMessage :: c.coming.tail := by
      simp [Conversation.coming, commands]
    rw [outcome_editing server, rest, finishWrite_etirw ends]
    simp [outcome, responses]
  · rcases client with client | client <;>
      simp [unread, client, server, commands, ends]
  · simp only [Conversation.weight, commands, responses, server,
      ServerPhase.weight, List.length_nil, List.length_singleton,
      List.length_append]
    omega

theorem command_advances {message : ClientMessage}
    (server : c.server = .editing filename session)
    (client : c.client = .awaitingAck) (commands : c.commands = [message])
    (responses : c.responses = []) (goesOn : message.data.chars ≠ etirw) :
    Advances order now c
      ({ c with commands := [] }.serverEdits now filename session
        message) := by
  unfold Conversation.serverEdits
  rw [if_neg goesOn]
  generalize edited : writeCommand session message.toWriteMessage = result
  obtain ⟨updated, response⟩ := result
  refine ⟨.acknowledged rfl client rfl (congrArg (· ++ [response]) responses),
    ?_, ?_, ?_⟩
  · have rest : c.coming =
        message.toWriteMessage :: typedCommands c.stdin := by
      simp [Conversation.coming, commands, client]
    rw [outcome_editing server, rest, finishWrite_command goesOn, edited]
    simp [outcome, Conversation.coming, client, responses]
  · simp [unread, client, server, commands, goesOn]
  · simp only [Conversation.weight, commands, responses, server,
      ServerPhase.weight, List.length_nil, List.length_singleton,
      List.length_append]
    omega

theorem opens_advances (server : c.server = .listening)
    (client : c.client = .awaitingLock)
    (commands : c.commands = [order.message])
    (responses : c.responses = []) :
    Advances order now c
      ({ c with commands := [] }.serverOpens order.message) := by
  have before : outcome order now c =
      ((handleWriteRequest c.store order.filename order.username
          order.sentenceIndex (typedCommands c.stdin) now).1,
        c.answers ++ (handleWriteRequest c.store order.filename
          order.username order.sentenceIndex (typedCommands c.stdin)
          now).2) := by
    simp [outcome, server, responses]
  have lower : c.weight = 5 * c.stdin.length + 6 := by
    simp [Conversation.weight, commands, responses, client, server,
      ClientPhase.weight, ServerPhase.weight]
  unfold Conversation.serverOpens
  simp only [WriteOrder.message]
  generalize result : openWrite c.store order.filename order.username
    order.sentenceIndex = opening
  obtain ⟨store, response, session⟩ := opening
  cases session with
  | none =>
      refine ⟨.answered rfl (.inl ⟨client, msgType_of_refused result⟩)
        (congrArg (· ++ [response]) responses), ?_, ?_, ?_⟩
      · rw [before, handleWriteRequest_refused result]
        simp [outcome, responses]
      · simp [unread, client, server, inputAfterWrite, result]
      · rw [lower]
        simp [Conversation.weight, responses, client, ClientPhase.weight,
          ServerPhase.weight]
  | some session =>
      refine ⟨.opened rfl client rfl (congrArg (· ++ [response]) responses)
        (msgType_of_openWrite result), ?_, ?_, ?_⟩
      · rw [before, handleWriteRequest_opened result]
        simp [outcome, Conversation.coming, client, responses]
      · simp [unread, client, server, inputAfterWrite, result]
      · rw [lower]
        simp [Conversation.weight, responses, client, ClientPhase.weight,
          ServerPhase.weight]

/-- Without a message the server takes the end of the connection for the end
of the session. -/
theorem rollback_advances (server : c.server = .editing filename session)
    (client : c.clientGone = true) (commands : c.commands = [])
    (responses : c.responses = []) :
    Advances order now c
      { c with
        server := .closed
        store := rollbackWrite c.store filename session } := by
  cases phase : c.client with
  | returned result =>
      refine ⟨.alone rfl (by simp) responses, ?_, by simp [unread, phase],
        ?_⟩
      · have nothing : c.coming = [] := by
          simp [Conversation.coming, commands, phase]
        rw [outcome_editing server, nothing, finishWrite_nil]
        simp [outcome, responses]
      · simp only [Conversation.weight, server, phase, ServerPhase.weight]
        omega
  | _ => simp [Conversation.clientGone, phase] at client

theorem server_advances (lockstep : Lockstep order c)
    (taken : c.serverStep now = some next) : Advances order now c next := by
  unfold Conversation.serverStep at taken
  cases lockstep with
  | before server client commands responses =>
      simp [server, commands] at taken
  | requested server client commands responses =>
      simp only [server, commands, Option.some.injEq] at taken
      rw [← taken]
      exact opens_advances server client commands responses
  | opened server client commands responses granted =>
      simp [server, commands, Conversation.clientGone, client] at taken
  | idle server client commands responses =>
      simp [server, commands, Conversation.clientGone, client] at taken
  | @commanded filename session message server client commands responses =>
      simp only [server, commands, Option.some.injEq] at taken
      rw [← taken]
      by_cases ends : message.data.chars = etirw
      · exact etirw_advances server (.inl client) commands responses ends
      · exact command_advances server client commands responses ends
  | acknowledged server client commands responses =>
      simp [server, commands, Conversation.clientGone, client] at taken
  | terminated server client commands responses =>
      simp only [server, commands, Option.some.injEq] at taken
      rw [← taken]
      exact etirw_advances server (.inr client) commands responses rfl
  | left server client commands responses =>
      simp only [server, commands, client, if_true,
        Option.some.injEq] at taken
      rw [← taken]
      have rolled := @rollback_advances order now c _ _ server client
        commands responses
      rwa [commands] at rolled
  | answered server client responses => simp [server] at taken
  | alone server client responses => simp [server] at taken

theorem advances (lockstep : Lockstep order c)
    (taken : converses order now c next) : Advances order now c next := by
  rcases taken with ⟨early, taken⟩ | taken
  · exact client_advances lockstep taken
  · exact server_advances lockstep taken

theorem exists_of_client (can : (c.clientStep order false).isSome) :
    ∃ next, converses order now c next := by
  obtain ⟨next, taken⟩ := Option.isSome_iff_exists.mp can
  exact ⟨next, .inl ⟨false, taken⟩⟩

theorem exists_of_server (can : (c.serverStep now).isSome) :
    ∃ next, converses order now c next := by
  obtain ⟨next, taken⟩ := Option.isSome_iff_exists.mp can
  exact ⟨next, .inr taken⟩

/-- Somebody can go on until both have closed the connection. -/
theorem converses_proceeds (lockstep : Lockstep order c) :
    c.Over ∨ ∃ next, converses order now c next := by
  cases lockstep with
  | before server client commands responses =>
      exact .inr (exists_of_client
        (by simp [Conversation.clientStep, client]))
  | requested server client commands responses =>
      exact .inr (exists_of_server
        (by simp [Conversation.serverStep, server, commands]))
  | opened server client commands responses granted =>
      exact .inr (exists_of_client
        (by simp [Conversation.clientStep, client, receiving_cons responses]))
  | idle server client commands responses =>
      exact .inr (exists_of_client
        (by simp [Conversation.clientStep, client]))
  | commanded server client commands responses =>
      exact .inr (exists_of_server
        (by simp [Conversation.serverStep, server, commands]))
  | acknowledged server client commands responses =>
      exact .inr (exists_of_client
        (by simp [Conversation.clientStep, client, receiving_cons responses]))
  | terminated server client commands responses =>
      exact .inr (exists_of_server
        (by simp [Conversation.serverStep, server, commands]))
  | left server client commands responses =>
      exact .inr (exists_of_server
        (by simp [Conversation.serverStep, server, commands, client]))
  | answered server client responses =>
      refine .inr (exists_of_client ?_)
      rcases client with client | client | client <;>
        simp [Conversation.clientStep, client, receiving_cons responses]
  | alone server client responses =>
      cases phase : c.client with
      | requesting => exact (client phase).elim
      | returned result =>
          exact .inl ⟨by simp [Conversation.clientGone, phase], server⟩
      | _ =>
          refine .inr (exists_of_client ?_)
          simp [Conversation.clientStep, phase,
            receiving_closed responses server]

/-- Whatever is typed and whoever is faster, the session ends, and it leaves
the storage server, and has shown the client, what the handler makes of the
typed commands, and it has read its own lines only: none if it is refused, and
else the typed commands up to ETIRW. -/
theorem write_conversation (order : WriteOrder) (now : TimeText)
    (store : FileHandler) (stdin : Text) :
    let start := startConversation store stdin
    Completes (converses order now) Conversation.Over start ∧
      (∀ c, Reachable (converses order now) start c → c.Over →
        (c.store, c.answers) =
          handleWriteRequest store order.filename order.username
            order.sentenceIndex (typedCommands stdin) now ∧
        c.stdin = inputAfterWrite order store stdin) ∧
      ∀ commands rest, (∀ command ∈ commands, Typeable command) →
        stdin = typedSession commands rest →
          typedCommands stdin = commands ++ [etirwMessage] ∧
          ((∀ command ∈ commands, command.data.chars ≠ etirw) →
            unreadInput false stdin = rest) := by
  intro start
  have initial : Lockstep order start := lockstep_start order store stdin
  have keeps : ∀ c next, Lockstep order c → converses order now c next →
      Lockstep order next := fun c next lockstep taken =>
    (advances lockstep taken).lockstep
  refine ⟨completes_of_measure Conversation.weight keeps
    (fun c next lockstep taken => (advances lockstep taken).weight)
    (fun c lockstep => converses_proceeds lockstep) initial, ?_, ?_⟩
  case refine_2 =>
    rintro commands rest typeable rfl
    exact ⟨typedCommands_typedSession typeable rest,
      fun goesOn => unreadInput_typedSession typeable goesOn rest⟩
  intro c reachable ended
  have same := outcome_of_reachable (outcome order now) keeps
    (fun c next lockstep taken => (advances lockstep taken).outcome) initial
    reachable
  have left := outcome_of_reachable (unread order) keeps
    (fun c next lockstep taken => (advances lockstep taken).unread) initial
    reachable
  have read : c.responses = [] := by
    cases invariant_of_reachable keeps initial reachable with
    | answered server client responses =>
        have gone := ended.1
        rcases client with ⟨client, -⟩ | client | client <;>
          simp [Conversation.clientGone, client] at gone
    | alone server client responses => exact responses
    | before server client commands responses => exact responses
    | requested server client commands responses => exact responses
    | idle server client commands responses => exact responses
    | commanded server client commands responses => exact responses
    | terminated server client commands responses => exact responses
    | left server client commands responses => exact responses
    | opened server => cases ended.2.symm.trans server
    | acknowledged server => cases ended.2.symm.trans server
  have last : outcome order now c = (c.store, c.answers) := by
    simp [outcome, ended.2, read]
  have rest : unread order c = c.stdin := by
    cases phase : c.client with
    | returned result => rw [unread, phase]
    | _ =>
        have gone := ended.1
        simp [Conversation.clientGone, phase] at gone
  constructor
  · rw [← last, same]
    simp [start, outcome, startConversation]
  · rw [← rest, left]
    rfl

end

end Dfs.Client
