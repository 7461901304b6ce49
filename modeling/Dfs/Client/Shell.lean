import Dfs.Client.Requests
import Dfs.Client.WriteConversation
import Dfs.NameServer.SystemRuns

/-!
# The shell

The loop of `start_client_shell` over what is typed, down to the servers: each
line is read, parsed and sent, and WRITE reads its own lines from the same
input.  Between the requests of the shell other clients do as they like.
-/

namespace Dfs.Client

open Dfs.NameServer Dfs.StorageServer CInput ItemRuns ByteStream

/-- What a command meets on its way. -/
structure Surroundings where
  /-- What happens before the request to the name server. -/
  before : List SystemEvent
  toName : Option Wire
  now : Int
  context : NmContext
  link : Link
  /-- The answer about the location arrives. -/
  answered : Bool
  /-- What happens before the request to the storage server. -/
  between : List SystemEvent
  /-- The storage server that listens at an address. -/
  listening : IpText → Int → Option Nat
  toStorage : Wire
  stamp : TimeText

/-- The handlers of the name server, with the location that GET_SS_INFO
answers.  The other answers are printed only. -/
def Surroundings.handleCall (around : Surroundings) (sys : System) :
    HandlerCall → System × Option LocationResponse
  | .storageServerRegistration msg => (sys.register around.now msg, none)
  | .clientRegistration _ _ _ => (sys, none)
  | .getSsInfo _ filename =>
      let (sys, response) := handleGetSsInfo sys around.now filename
      (sys, some response)
  | .listFiles _ => (sys, none)
  | .viewFiles _ _ => (sys, none)
  | .infoRequest username filename =>
      ((handleInfoRequest sys around.context around.link filename
        username).1, none)
  | .exec _ _ => (sys, none)
  | .remaccess username filename data =>
      ((handleRemaccess sys around.context around.link filename username
        data).1, none)
  | .viewfolder _ _ => (sys, none)
  | .listcheckpoints username filename =>
      ((handleListcheckpoints sys around.context around.link filename
        username).1, none)
  | .viewrequests _ => (sys, none)
  | .command username command =>
      (callStep sys
        { context := around.context
          now := around.now
          link := around.link
          username := username
          command := command }, none)
  | .unknown => (sys, none)

/-- The check of `get_ss_info`, and who listens at the address. -/
def Surroundings.locate (around : Surroundings)
    (response : LocationResponse) : Option Nat :=
  if around.answered = false ∨ response.msgType = msgError ∨
      response.errorCode ≠ errSuccess then none
  else around.listening response.ip response.port1

/-- What a storage server reads of the first message of `send_write_request`. -/
def orderOf (request : Message) : WriteOrder :=
  { username := stringOf request.username
    filename := stringOf request.filename
    sentenceIndex := request.sentenceIndex.toInt }

/-- The second message of a command, if it has one; the lines of a WRITE are
read from the input of the shell. -/
def askStorageServer (sys : System) (around : Surroundings)
    (server : Nat) (type : CommandType) (request : Message) (stdin : Text) :
    System × Text :=
  let sys := StepRun.run systemStep sys around.between
  let received := around.toStorage.deliver request
  let (username, asked) := routeClientMessage received (typedCommands stdin)
  (sys.serve server username around.stamp asked,
    if type = .write then
      inputAfterWrite (orderOf received) (sys.stores server) stdin
    else stdin)

/-- The call of `handle_command`, with what it leaves of the input. -/
def runCommand (sys : System) (around : Surroundings) (username : Username)
    (cmd : ParsedCommand) (stdin : Text) : System × Text :=
  let sys := StepRun.run systemStep sys around.before
  let requests := handleCommand username cmd
  match requests.nameServer with
  | none => (sys, stdin)
  | some msg =>
      match around.toName with
      | none => (sys, stdin)
      | some wire =>
          let (sys, response) :=
            around.handleCall sys (routeMessage (wire.deliver msg))
          match requests.storageServer, response.bind around.locate with
          | some request, some server =>
              askStorageServer sys around server cmd.type request stdin
          | _, _ => (sys, stdin)

theorem unreadInput_isSuffix (ended : Bool) (stdin : Text) :
    unreadInput ended stdin <:+ stdin := by
  induction size : stdin.length using Nat.strong_induction_on
    generalizing ended stdin with
  | h size ih =>
      have rest : (fgets inputRoom stdin).2 <:+ stdin :=
        ⟨_, fgets_append inputRoom stdin⟩
      rw [unreadInput.eq_def]
      simp only
      split
      · exact rest
      · rename_i read
        have less := length_fgets_lt read
        rw [size] at less
        split
        · exact rest
        · split
          · exact (ih _ less ended _ rfl).trans rest
          · split
            · exact rest
            · exact (ih _ less _ _ rfl).trans rest

theorem runCommand_isSuffix (sys : System) (around : Surroundings)
    (username : Username) (cmd : ParsedCommand) (stdin : Text) :
    (runCommand sys around username cmd stdin).2 <:+ stdin := by
  unfold runCommand
  simp only
  split
  · exact List.suffix_rfl
  · split
    · exact List.suffix_rfl
    · split
      · simp only [askStorageServer]
        split
        · unfold inputAfterWrite
          split
          · exact List.suffix_rfl
          · exact unreadInput_isSuffix false stdin
        · exact List.suffix_rfl
      · exact List.suffix_rfl

/-- The room of `char input[1024]`. -/
def lineRoom : Nat := 1023

/-- The loop of the shell, where `served` commands were run already. -/
def startClientShell (username : Username) (around : Nat → Surroundings)
    (served : Nat) (sys : System) (stdin : Text) : System × Text :=
  let line := (fgets lineRoom stdin).1
  let rest := (fgets lineRoom stdin).2
  if line = [] then (sys, rest)
  else if chomp line = [] then
    startClientShell username around served sys rest
  else
    let (type, cmd) := parseCommand (chomp line)
    if type = .exit then (sys, rest)
    else if type = .unknown then
      startClientShell username around served sys rest
    else
      let result := runCommand sys (around served) username cmd rest
      startClientShell username around (served + 1) result.1 result.2
termination_by stdin.length
decreasing_by
  · exact length_fgets_lt ‹_›
  · exact length_fgets_lt ‹_›
  · exact (runCommand_isSuffix _ _ _ _ _).length_le.trans_lt
      (length_fgets_lt ‹_›)

section

variable (around : Surroundings) (username : Username) (sys : System)

/-- The system when the request for the storage server is sent, and the server
that it goes to. -/
def located (command : ShellCommand) : System × Option Nat :=
  let sys := StepRun.run systemStep sys around.before
  match command.call username, around.toName with
  | some call, some _ =>
      let (sys, response) := around.handleCall sys call
      match response.bind around.locate with
      | none => (sys, none)
      | some server =>
          (StepRun.run systemStep sys around.between, some server)
  | _, _ => (sys, none)

/-- A command, with the messages of a session in which it stands first. -/
def perform (command : ShellCommand) (messages : List WriteMessage) :
    System :=
  match located around username sys command with
  | (sys, none) => sys
  | (sys, some server) =>
      match command.clientRequest messages with
      | none => sys
      | some request => sys.serve server username around.stamp request

def inputAfter (command : ShellCommand) (stdin : Text) : Text :=
  match command, located around username sys command with
  | .write filename sentenceIndex _, (sys, some server) =>
      inputAfterWrite ⟨username, filename.toCString, sentenceIndex⟩
        (sys.stores server) stdin
  | _, _ => stdin

end

section

variable {around : Surroundings} {username : Username} {sys : System}
  {command : ShellCommand}

theorem inputAfter_of_unlocated
    (unlocated : (located around username sys command).2 = none)
    (stdin : Text) : inputAfter around username sys command stdin = stdin := by
  unfold inputAfter
  split
  · rename_i place
    rw [place] at unlocated
    cases unlocated
  · rfl

theorem perform_of_unlocated
    (unlocated : (located around username sys command).2 = none)
    (messages : List WriteMessage) :
    perform around username sys command messages =
      (located around username sys command).1 := by
  unfold perform
  split
  · rename_i place
    rw [place]
  · rename_i place
    rw [place] at unlocated
    cases unlocated

/-- Only the commands for a storage server ask where it is. -/
theorem isSome_clientRequest {call : HandlerCall}
    (asks : command.call username = some call) {response : LocationResponse}
    (located : (around.handleCall sys call).2 = some response)
    (messages : List WriteMessage) :
    (command.clientRequest messages).isSome := by
  cases command <;> cases asks <;> first | rfl | cases located

theorem orderOf_of_route {request : Message} {messages : List WriteMessage}
    {filename : Filename} {sentenceIndex : Int}
    (routed : routeClientMessage request messages =
      (username, .write filename sentenceIndex messages)) :
    orderOf request = ⟨username, filename, sentenceIndex⟩ := by
  unfold routeClientMessage at routed
  simp only [Prod.mk.injEq] at routed
  obtain ⟨user, asked⟩ := routed
  split at asked
  · cases asked
  · split at asked
    · cases asked
      rw [← user]
      rfl
    · split at asked
      · cases asked
      · split at asked <;> cases asked

theorem type_parsed (command : ShellCommand) :
    command.parsed.type = command.type := by
  cases command <;> rfl

theorem runCommand_parsed (userBytes : IsBytes username.chars)
    (bytes : command.Bytes) (stdin : Text) :
    runCommand sys around username command.parsed stdin =
      (perform around username sys command (typedCommands stdin),
        inputAfter around username sys command stdin) := by
  have handled := routeMessage_nameServer userBytes bytes
  have asked := routeClientMessage_storageServer userBytes bytes
    (typedCommands stdin)
  have unlocated : ∀ after, located around username sys command =
      (after, none) → (after, stdin) =
        (perform around username sys command (typedCommands stdin),
          inputAfter around username sys command stdin) := by
    intro after place
    have nowhere : (located around username sys command).2 = none := by
      rw [place]
    rw [perform_of_unlocated nowhere, inputAfter_of_unlocated nowhere, place]
  unfold runCommand
  simp only [Wire.deliver_eq]
  split
  · rename_i silent
    rw [silent] at handled
    exact unlocated _ (by simp only [located, ← handled]; rfl)
  · rename_i msg sent
    rw [sent, Option.map_some] at handled
    split
    · rename_i unreached
      exact unlocated _ (by simp only [located, ← handled, unreached])
    · rename_i wire reached
      split
      · rename_i request server second found
        have place : located around username sys command =
            (StepRun.run systemStep (around.handleCall
              (StepRun.run systemStep sys around.before)
              (routeMessage msg)).1 around.between, some server) := by
          simp only [located, ← handled, reached, found]
        rw [second, Option.map_some] at asked
        obtain ⟨wanted, kind, routed⟩ := Option.map_eq_some_iff.mp asked.symm
        rw [askStorageServer]
        simp only [Wire.deliver_eq, ← routed, perform, place, kind]
        congr 1
        rw [type_parsed]
        cases command with
        | write filename sentenceIndex isInt =>
            cases kind
            rw [orderOf_of_route routed.symm]
            simp [ShellCommand.type, inputAfter, place]
        | _ => rfl
      · rename_i other
        cases found : (around.handleCall (StepRun.run systemStep sys
            around.before) (routeMessage msg)).2.bind around.locate with
        | none =>
            exact unlocated _ (by
              simp only [located, ← handled, reached, found])
        | some server =>
            obtain ⟨response, answer, -⟩ := Option.bind_eq_some_iff.mp found
            have direct := isSome_clientRequest handled.symm answer
              (typedCommands stdin)
            rw [← Option.isSome_map, ← asked, Option.isSome_map] at direct
            obtain ⟨request, second⟩ := Option.isSome_iff_exists.mp direct
            exact (other request server second found).elim

end

/-- The words of a record are bytes. -/
structure ParsedCommand.Bytes (cmd : ParsedCommand) : Prop where
  filename : IsBytes cmd.filename.chars
  targetUser : IsBytes cmd.targetUser.chars
  checkpointTag : IsBytes cmd.checkpointTag.chars
  targetPath : IsBytes cmd.targetPath.chars
  requestId : IsBytes cmd.requestId.chars

theorem bytes_clearedCommand (type : CommandType) :
    (clearedCommand type).Bytes := by
  have none : ∀ capacity, IsBytes (CString.copy capacity []).chars :=
    IsBytes.copy (by simp [IsBytes])
  exact ⟨none 255, none 63, none 255, none 1023, none 255⟩

section

variable {cmd : ParsedCommand} {tokens : List Text}

theorem bytes_parseFilename
    {more : ParsedCommand → List Text → CommandType × ParsedCommand}
    (bytes : cmd.Bytes) (words : ∀ token ∈ tokens, IsBytes token)
    (goOn : ∀ cmd rest, cmd.Bytes → (∀ token ∈ rest, IsBytes token) →
      (more cmd rest).2.Bytes) :
    (parseFilename cmd more tokens).2.Bytes := by
  cases tokens with
  | nil => exact bytes
  | cons token tokens =>
      apply goOn
      · exact { bytes with
          filename := (words token List.mem_cons_self).copy 255 }
      · exact fun other member => words other (List.mem_cons_of_mem _ member)

theorem bytes_parseTargetUser (bytes : cmd.Bytes)
    (words : ∀ token ∈ tokens, IsBytes token) :
    (parseTargetUser cmd tokens).2.Bytes := by
  cases tokens with
  | nil => exact bytes
  | cons token tokens =>
      exact { bytes with
        targetUser := (words token List.mem_cons_self).copy 63 }

theorem bytes_parseCheckpointTag (bytes : cmd.Bytes)
    (words : ∀ token ∈ tokens, IsBytes token) :
    (parseCheckpointTag cmd tokens).2.Bytes := by
  cases tokens with
  | nil => exact bytes
  | cons token tokens =>
      exact { bytes with
        checkpointTag := (words token List.mem_cons_self).copy 255 }

theorem bytes_parseTargetPath (bytes : cmd.Bytes)
    (words : ∀ token ∈ tokens, IsBytes token) :
    (parseTargetPath cmd tokens).2.Bytes := by
  cases tokens with
  | nil => exact bytes
  | cons token tokens =>
      exact { bytes with
        targetPath := (words token List.mem_cons_self).copy 1023 }

theorem bytes_parseRequestId (bytes : cmd.Bytes)
    (words : ∀ token ∈ tokens, IsBytes token) :
    (parseRequestId cmd tokens).2.Bytes := by
  cases tokens with
  | nil => exact bytes
  | cons token tokens =>
      exact { bytes with
        requestId := (words token List.mem_cons_self).copy 255 }

theorem bytes_parseSentenceIndex (bytes : cmd.Bytes) :
    (parseSentenceIndex cmd tokens).2.Bytes := by
  cases tokens with
  | nil => exact bytes
  | cons token tokens => exact { bytes with }

theorem bytes_parseAccess
    {more : ParsedCommand → List Text → CommandType × ParsedCommand}
    (bytes : cmd.Bytes) (words : ∀ token ∈ tokens, IsBytes token)
    (goOn : ∀ cmd rest, cmd.Bytes → (∀ token ∈ rest, IsBytes token) →
      (more cmd rest).2.Bytes) :
    (parseAccess cmd more tokens).2.Bytes := by
  cases tokens with
  | nil => exact bytes
  | cons token tokens =>
      have rest : ∀ other ∈ tokens, IsBytes other := fun other member =>
        words other (List.mem_cons_of_mem _ member)
      simp only [parseAccess]
      split
      · split
        · exact bytes_parseFilename { bytes with } rest goOn
        · split
          · exact bytes_parseFilename { bytes with } rest goOn
          · exact bytes
      · exact bytes

theorem bytes_parseView (tokens : List Text) :
    (parseView tokens).2.Bytes := by
  have bytes := bytes_clearedCommand .view
  unfold parseView
  cases tokens with
  | nil => exact bytes
  | cons token tokens =>
      simp only
      split
      · split
        · exact { bytes with }
        · split
          · exact { bytes with }
          · split
            · exact { bytes with }
            · exact bytes
      · exact bytes

theorem bytes_parseArguments (type : CommandType)
    (words : ∀ token ∈ tokens, IsBytes token) :
    (parseArguments type tokens).2.Bytes := by
  have cleared := bytes_clearedCommand type
  have named : (parseFilename (clearedCommand type) acceptCommand
      tokens).2.Bytes :=
    bytes_parseFilename cleared words fun _ _ bytes _ => bytes
  have user := @bytes_parseFilename _ _ parseTargetUser cleared words
    fun _ _ => bytes_parseTargetUser
  have path := @bytes_parseFilename _ _ parseTargetPath cleared words
    fun _ _ => bytes_parseTargetPath
  have tag := @bytes_parseFilename _ _ parseCheckpointTag cleared words
    fun _ _ => bytes_parseCheckpointTag
  cases type with
  | view => exact bytes_parseView tokens
  | write =>
      exact bytes_parseFilename cleared words fun _ _ bytes _ =>
        bytes_parseSentenceIndex bytes
  | addaccess =>
      exact bytes_parseAccess cleared words fun _ _ => bytes_parseTargetUser
  | requestaccess =>
      exact bytes_parseAccess cleared words fun _ _ bytes _ => bytes
  | remaccess => exact user
  | move => exact path
  | checkpoint => exact tag
  | viewcheckpoint => exact tag
  | revert => exact tag
  | approverequest => exact bytes_parseRequestId cleared words
  | rejectrequest => exact bytes_parseRequestId cleared words
  | list => exact cleared
  | viewrequests => exact cleared
  | exit => exact cleared
  | help => exact cleared
  | unknown => exact bytes_clearedCommand .view
  | _ => exact named

end

theorem bytes_parseCommand {input : Text} (bytes : IsBytes input) :
    (parseCommand input).2.Bytes := by
  have words : ∀ token ∈ commandTokens input, IsBytes token := by
    intro token member
    have derivation := runsOf_runs commandBreak
      ((CText.terminated input).take 1023)
    apply bytes.subset
    intro byte inside
    exact (List.takeWhile_sublist _).subset
      (List.mem_of_mem_take (derivation.subset member inside))
  unfold parseCommand
  cases tokens : commandTokens input with
  | nil => exact bytes_clearedCommand .view
  | cons token rest =>
      rw [tokens] at words
      exact bytes_parseArguments _ fun other member =>
        words other (List.mem_cons_of_mem _ member)

theorem isBytes_decimal (value : Int) : IsBytes (decimal value) := by
  intro char member
  by_contra large
  have other : char.isDigit = false := by
    rw [Bool.eq_false_iff]
    intro digit
    have small := (Char.isDigit_iff_toNat.mp digit).2
    exact large (small.trans_lt (by decide))
  refine not_mem_decimal other ?_ value member
  rintro rfl
  exact large (by decide)

theorem ParsedCommand.Bytes.words {command : ShellCommand}
    (bytes : command.parsed.Bytes) : command.Bytes := by
  obtain ⟨filename, targetUser, checkpointTag, targetPath, requestId⟩ := bytes
  unfold ShellCommand.Bytes
  cases command with
  | view flags =>
      cases flags <;> simp [ShellCommand.words, ViewFlags.words, IsBytes]
  | addaccess access filename targetUser =>
      cases access <;>
        simp_all [ShellCommand.parsed, ShellCommand.words, AccessType.word,
          IsBytes]
  | requestaccess access filename =>
      cases access <;>
        simp_all [ShellCommand.parsed, ShellCommand.words, AccessType.word,
          IsBytes]
  | _ =>
      simp_all [ShellCommand.parsed, ShellCommand.words, isBytes_decimal]

/-- The events that the handlers of the name server are. -/
def Surroundings.events (around : Surroundings) :
    HandlerCall → List SystemEvent
  | .storageServerRegistration msg => [.register around.now msg]
  | .clientRegistration _ _ _ => []
  | .getSsInfo _ filename => [.locate around.now filename]
  | .listFiles _ => []
  | .viewFiles _ _ => []
  | .infoRequest username filename =>
      [.info around.context around.link filename username]
  | .exec _ _ => []
  | .remaccess username filename data =>
      [.remaccess around.context around.link filename username data]
  | .viewfolder _ _ => []
  | .listcheckpoints username filename =>
      [.listcheckpoints around.context around.link filename username]
  | .viewrequests _ => []
  | .command username command =>
      [.call ⟨around.context, around.now, around.link, username, command⟩]
  | .unknown => []

/-- The event is a request of the user; one for a location names nobody. -/
inductive SentBy (username : Username) : SystemEvent → Prop where
  | call {call : NameServer.Call} (user : call.username = username) :
      SentBy username (.call call)
  | remaccess (context : NmContext) (link : Link) (filename : Filename)
      (data : DataText) :
      SentBy username (.remaccess context link filename username data)
  | locate (now : Int) (filename : Filename) :
      SentBy username (.locate now filename)
  | info (context : NmContext) (link : Link) (filename : Filename) :
      SentBy username (.info context link filename username)
  | listcheckpoints (context : NmContext) (link : Link)
      (filename : Filename) :
      SentBy username (.listcheckpoints context link filename username)
  | direct (server : Nat) (now : TimeText) (request : ClientRequest) :
      SentBy username (.direct server username now request)

/-- The event is a request of the user or comes from the surroundings. -/
def Surroundings.Allows (around : Surroundings) (username : Username)
    (event : SystemEvent) : Prop :=
  SentBy username event ∨ event ∈ around.before ∨ event ∈ around.between

section

variable {username : Username}

theorem handleCall_eq_run (around : Surroundings) (sys : System)
    (call : HandlerCall) :
    (around.handleCall sys call).1 =
      StepRun.run systemStep sys (around.events call) := by
  cases call <;> rfl

theorem sentBy_events {around : Surroundings} {command : ShellCommand}
    {call : HandlerCall} (asks : command.call username = some call)
    {event : SystemEvent} (member : event ∈ around.events call) :
    SentBy username event := by
  have only : ∀ {first : SystemEvent}, event ∈ [first] →
      SentBy username first → SentBy username event := by
    intro first member sent
    rwa [List.mem_singleton.mp member]
  cases command <;> cases asks <;>
    first
      | exact only member (.locate _ _)
      | exact only member (.call rfl)
      | exact only member (.remaccess _ _ _ _)
      | exact only member (.info _ _ _)
      | exact only member (.listcheckpoints _ _ _)
      | cases member

/-- What a command does up to the request to the storage server. -/
theorem located_eq_run (around : Surroundings) (sys : System)
    (command : ShellCommand) :
    ∃ events, (located around username sys command).1 =
        StepRun.run systemStep sys events ∧
      ∀ event ∈ events, around.Allows username event := by
  have others : ∀ event ∈ around.before, around.Allows username event :=
    fun event member => .inr (.inl member)
  unfold located
  simp only
  split
  · rename_i call wire asks reached
    have own : ∀ event ∈ around.before ++ around.events call,
        around.Allows username event := by
      intro event member
      rcases List.mem_append.mp member with early | sent
      · exact others event early
      · exact .inl (sentBy_events asks sent)
    split
    · refine ⟨around.before ++ around.events call, ?_, own⟩
      rw [StepRun.run_append]
      exact handleCall_eq_run around _ call
    · refine ⟨around.before ++ around.events call ++ around.between, ?_, ?_⟩
      · rw [StepRun.run_append, StepRun.run_append]
        exact congrArg (StepRun.run systemStep · around.between)
          (handleCall_eq_run around _ call)
      · intro event member
        rcases List.mem_append.mp member with early | late
        · exact own event early
        · exact .inr (.inr late)
  · exact ⟨around.before, rfl, others⟩

theorem perform_eq_run (around : Surroundings) (sys : System)
    (command : ShellCommand) (messages : List WriteMessage) :
    ∃ events, perform around username sys command messages =
        StepRun.run systemStep sys events ∧
      ∀ event ∈ events, around.Allows username event := by
  obtain ⟨events, reached, allowed⟩ :=
    @located_eq_run username around sys command
  unfold perform
  split
  · rename_i after place
    rw [place] at reached
    exact ⟨events, reached, allowed⟩
  · rename_i after server place
    rw [place] at reached
    split
    · exact ⟨events, reached, allowed⟩
    · rename_i request kind
      refine ⟨events ++ [.direct server username around.stamp request], ?_,
        ?_⟩
      · rw [StepRun.run_append, ← reached]
        rfl
      · intro event member
        rcases List.mem_append.mp member with early | last
        · exact allowed event early
        · cases List.mem_singleton.mp last
          exact .inl (.direct server around.stamp request)

end

/-- A command with the messages of the session behind it. -/
structure Performed where
  command : ShellCommand
  messages : List WriteMessage

/-- How many commands were run, and the servers. -/
structure ShellState where
  served : Nat
  sys : System

section

variable (username : Username) (around : Nat → Surroundings)

def shellStep (state : ShellState) (performed : Performed) : ShellState :=
  { served := state.served + 1
    sys := perform (around state.served) username state.sys
      performed.command performed.messages }

end

/-- A line of a script, and what is typed behind it if it is a WRITE. -/
structure Entry where
  line : Text
  command : ShellCommand
  session : List WriteMessage

namespace Entry

def performed (entry : Entry) : Performed :=
  ⟨entry.command, entry.session ++ [etirwMessage]⟩

def typed (entry : Entry) (rest : Text) : Text :=
  entry.line ++ '\n' ::
    match entry.command with
    | .write _ _ _ => typedSession entry.session rest
    | _ => rest

structure WellTyped (entry : Entry) : Prop where
  said : Says entry.line entry.command
  bytes : IsBytes entry.line
  oneLine : '\n' ∉ entry.line
  fits : entry.line.length < lineRoom
  goesOn : entry.command ≠ .exit
  session : ∀ message ∈ entry.session,
    Typeable message ∧ message.data.chars ≠ etirw

end Entry

def typedScript (script : List Entry) (rest : Text) : Text :=
  script.foldr Entry.typed rest

/-- A WRITE finds its storage server and is granted there. -/
def isGranted (around : Surroundings) (username : Username) (sys : System) :
    ShellCommand → Bool
  | .write filename sentenceIndex isInt =>
      let place := located around username sys
        (.write filename sentenceIndex isInt)
      place.2.any fun server =>
        (openWrite (place.1.stores server) filename.toCString username
          sentenceIndex).2.2.isSome
  | _ => true

section

variable {username : Username} {around : Nat → Surroundings}

theorem not_unknown (command : ShellCommand) : command.type ≠ .unknown := by
  cases command <;> simp [ShellCommand.type]

theorem type_eq_exit {command : ShellCommand} :
    command.type = .exit ↔ command = .exit := by
  cases command <;> simp [ShellCommand.type]

theorem ne_nil_of_said {line : Text} {command : ShellCommand}
    (said : Says line command) : line ≠ [] := by
  rintro rfl
  have parsed := parseCommand_of_said said
  exact not_unknown command (congrArg Prod.fst parsed).symm

/-- What the loop makes of a line that it has read as a whole. -/
theorem startClientShell_line {line : Text} (oneLine : '\n' ∉ line)
    (nulFree : CText.nul ∉ line) (fits : line.length < lineRoom)
    (served : Nat) (sys : System) (rest : Text) :
    startClientShell username around served sys (line ++ '\n' :: rest) =
      if line = [] then startClientShell username around served sys rest
      else if (parseCommand line).1 = .exit then (sys, rest)
      else if (parseCommand line).1 = .unknown then
        startClientShell username around served sys rest
      else
        startClientShell username around (served + 1)
          (runCommand sys (around served) username (parseCommand line).2
            rest).1
          (runCommand sys (around served) username (parseCommand line).2
            rest).2 := by
  have read : line ++ ['\n'] ≠ [] := by simp
  rw [startClientShell.eq_def, fgets_line oneLine fits]
  simp only [if_neg read, chomp_typed oneLine nulFree]

/-- A line that is said runs its command. -/
theorem startClientShell_said (userBytes : IsBytes username.chars)
    {line : Text} {command : ShellCommand} (said : Says line command)
    (bytes : IsBytes line) (oneLine : '\n' ∉ line)
    (fits : line.length < lineRoom) (goesOn : command ≠ .exit)
    (served : Nat) (sys : System) (rest : Text) :
    startClientShell username around served sys (line ++ '\n' :: rest) =
      startClientShell username around (served + 1)
        (perform (around served) username sys command (typedCommands rest))
        (inputAfter (around served) username sys command rest) := by
  rw [startClientShell_line oneLine said.nulFree fits,
    if_neg (ne_nil_of_said said), parseCommand_of_said said]
  simp only [if_neg (not_unknown command),
    if_neg (mt type_eq_exit.mp goesOn),
    runCommand_parsed userBytes (said.bytes bytes)]

theorem opened_of_isGranted {around : Surroundings} {sys : System}
    {filename : Argument 255} {sentenceIndex : Int}
    {isInt : IsInt sentenceIndex}
    (granted : isGranted around username sys
      (.write filename sentenceIndex isInt) = true) :
    ∃ after server writing, located around username sys
        (.write filename sentenceIndex isInt) = (after, some server) ∧
      (openWrite (after.stores server) filename.toCString username
        sentenceIndex).2.2 = some writing := by
  unfold isGranted at granted
  simp only at granted
  generalize located around username sys
    (.write filename sentenceIndex isInt) = place at granted
  obtain ⟨after, found⟩ := place
  cases found with
  | none => cases granted
  | some server =>
      obtain ⟨writing, opened⟩ := Option.isSome_iff_exists.mp granted
      exact ⟨after, server, writing, rfl, opened⟩

/-- An entry of a script is run, and nothing behind it is read. -/
theorem startClientShell_entry (userBytes : IsBytes username.chars)
    {entry : Entry} (typed : entry.WellTyped) (state : ShellState)
    (granted : isGranted (around state.served) username state.sys
      entry.command = true) (rest : Text) :
    startClientShell username around state.served state.sys
        (entry.typed rest) =
      startClientShell username around
        (shellStep username around state entry.performed).served
        (shellStep username around state entry.performed).sys rest := by
  obtain ⟨line, command, session⟩ := entry
  unfold Entry.typed
  rw [startClientShell_said userBytes typed.said typed.bytes typed.oneLine
    typed.fits typed.goesOn]
  have typeable : ∀ message ∈ session, Typeable message :=
    fun message member => (typed.session message member).1
  have goesOn : ∀ message ∈ session, message.data.chars ≠ etirw :=
    fun message member => (typed.session message member).2
  cases command with
  | write filename sentenceIndex isInt =>
      obtain ⟨after, server, writing, place, opened⟩ :=
        opened_of_isGranted granted
      simp only [typedCommands_typedSession typeable, inputAfter, place,
        inputAfterWrite, opened, unreadInput_typedSession typeable goesOn]
      rfl
  | _ => rfl

/-- A script is run entry by entry. -/
theorem startClientShell_script (userBytes : IsBytes username.chars)
    {script : List Entry} (typed : ∀ entry ∈ script, entry.WellTyped)
    (state : ShellState)
    (granted : StepRun.AllSteps (shellStep username around)
      (fun state performed => isGranted (around state.served) username
        state.sys performed.command = true) state (script.map Entry.performed))
    (rest : Text) :
    startClientShell username around state.served state.sys
        (typedScript script rest) =
      startClientShell username around
        (StepRun.run (shellStep username around) state
          (script.map Entry.performed)).served
        (StepRun.run (shellStep username around) state
          (script.map Entry.performed)).sys rest := by
  induction script generalizing state with
  | nil => rfl
  | cons entry script ih =>
      have later := ih
        (fun other member => typed other (List.mem_cons_of_mem _ member))
        (shellStep username around state entry.performed) granted.2
      rw [typedScript, List.foldr_cons,
        startClientShell_entry userBytes (typed entry List.mem_cons_self)
          state granted.1]
      exact later

/-- Commands of the shell are requests of its user. -/
theorem shellSteps_eq_run (state : ShellState) (performed : List Performed) :
    ∃ events, (StepRun.run (shellStep username around) state performed).sys =
        StepRun.run systemStep state.sys events ∧
      ∀ event ∈ events, ∃ turn, (around turn).Allows username event := by
  induction performed generalizing state with
  | nil => exact ⟨[], rfl, by simp⟩
  | cons first performed ih =>
      obtain ⟨now, ran, allowed⟩ := @perform_eq_run username
        (around state.served) state.sys first.command first.messages
      obtain ⟨later, same, others⟩ :=
        ih (shellStep username around state first)
      refine ⟨now ++ later, ?_, ?_⟩
      · rw [StepRun.run_cons, same, StepRun.run_append, ← ran]
        rfl
      · intro event member
        rcases List.mem_append.mp member with early | late
        · exact ⟨state.served, allowed event early⟩
        · exact others event late

/-- Whatever is typed, the servers are sent commands only. -/
theorem startClientShell_performs (userBytes : IsBytes username.chars)
    {stdin : Text} (bytes : IsBytes stdin) (state : ShellState) :
    ∃ performed : List Performed,
      (startClientShell username around state.served state.sys stdin).1 =
        (StepRun.run (shellStep username around) state performed).sys := by
  induction size : stdin.length using Nat.strong_induction_on
    generalizing stdin state with
  | h size ih =>
      have whole := fgets_append lineRoom stdin
      have lineBytes : IsBytes (chomp (fgets lineRoom stdin).1) := by
        apply bytes.subset
        intro byte member
        rw [← whole]
        exact List.mem_append_left _ ((List.takeWhile_sublist _).subset
          ((List.takeWhile_sublist _).subset member))
      have restBytes : IsBytes (fgets lineRoom stdin).2 := by
        apply bytes.subset
        intro byte member
        rw [← whole]
        exact List.mem_append_right _ member
      rw [startClientShell.eq_def]
      simp only
      split
      · exact ⟨[], rfl⟩
      · rename_i read
        have less := length_fgets_lt read
        rw [size] at less
        split
        · exact ih _ less restBytes state rfl
        · split
          · exact ⟨[], rfl⟩
          · split
            · exact ih _ less restBytes state rfl
            · rename_i accepted
              obtain ⟨command, parsed⟩ :=
                (understood_parseCommand _).resolve_left accepted
              have words := bytes_parseCommand lineBytes
              have shorter := runCommand_isSuffix state.sys
                (around state.served) username command.parsed
                (fgets lineRoom stdin).2
              rw [parsed] at words ⊢
              rw [runCommand_parsed userBytes words.words] at shorter ⊢
              obtain ⟨performed, same⟩ := ih _
                (shorter.length_le.trans_lt less)
                (restBytes.subset shorter.subset)
                (shellStep username around state
                  ⟨command, typedCommands (fgets lineRoom stdin).2⟩) rfl
              exact ⟨_ :: performed, same⟩

end

private def plainWire : Wire where
  sender := .littleEndian
  receiver := .littleEndian
  sending := []
  receiving := []
  sends := by simp [Benign, sendRetried]
  receives := by simp [Benign, recvRetried]
  memory := clearedMessage
  behind := []

/-- Nobody else is there, and the only storage server listens. -/
private def alone : Surroundings where
  before := []
  toName := some plainWire
  now := 0
  context := (askCall "ann" 0 (.create askFile)).context
  link := .reliable
  answered := true
  between := []
  listening := fun _ _ => some 0
  toStorage := plainWire
  stamp := CString.copy 63 []

private def notes : Argument 255 where
  chars := "notes".toList
  fits := by decide
  nulFree := by decide
  inhabited := by decide
  solid := by simp [commandBreak]

private def greeting : WriteMessage := ⟨0, CString.copy 4095 "hi".toList⟩

private def morning : List Entry :=
  [⟨"create notes".toList, .create notes, []⟩,
    ⟨"WRITE notes\t0".toList, .write notes 0 (by decide), [greeting]⟩]

private theorem wellTyped_morning : ∀ entry ∈ morning, entry.WellTyped := by
  have text : greeting.data.chars = ['h', 'i'] := by decide +kernel
  have greets : Typeable greeting ∧ greeting.data.chars ≠ etirw := by
    refine ⟨⟨by decide, ?_, ?_, ?_, by decide +kernel⟩, ?_⟩
    · rw [text]
      exact List.cons_ne_nil _ _
    · rw [text]
      rintro byte ⟨⟩
      rfl
    · rw [text]
      decide
    · rw [text]
      decide
  intro entry member
  simp only [morning, List.mem_cons, List.not_mem_nil, or_false] at member
  rcases member with rfl | rfl
  · refine
      { said :=
          { short := by decide
            nulFree := by decide +kernel
            spelled := ⟨"create".toList, [], by decide,
              by simp [ShellCommand.Followed],
              runsOf_iff.mpr (by rfl)⟩ }
        bytes := by simp [IsBytes]
        oneLine := by decide
        fits := by decide
        goesOn := by simp
        session := by simp }
  · refine
      { said :=
          { short := by decide
            nulFree := by decide +kernel
            spelled := ⟨"WRITE".toList, [], by decide,
              by simp [ShellCommand.Followed],
              runsOf_iff.mpr (by rfl)⟩ }
        bytes := by simp [IsBytes]
        oneLine := by decide
        fits := by decide
        goesOn := by simp
        session := by simpa using greets }

end Dfs.Client
