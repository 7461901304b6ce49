import Dfs.Library.CInput
import Dfs.Library.ItemRuns
import Dfs.Protocol

/-!
# Command lines of the client

`parse_command` of `client/command_parser.c`.  A `ShellCommand` is what a user
can ask for; every way to spell one is read as that command, and nothing else
is accepted.
-/

namespace Dfs.Client

open ItemRuns CInput

inductive CommandType where
  | view
  | read
  | create
  | write
  | delete
  | info
  | stream
  | list
  | addaccess
  | remaccess
  | exec
  | undo
  | createfolder
  | move
  | viewfolder
  | checkpoint
  | viewcheckpoint
  | revert
  | listcheckpoints
  | requestaccess
  | viewrequests
  | approverequest
  | rejectrequest
  | exit
  | help
  | unknown
  deriving DecidableEq, Repr

structure ParsedCommand where
  type : CommandType
  filename : Filename
  targetUser : Username
  checkpointTag : Filename
  targetPath : PathText
  requestId : Filename
  accessType : Int
  viewFlags : Int
  sentenceIndex : Int
  deriving DecidableEq, Repr

/-- A record whose memory was cleared, with its type. -/
def clearedCommand (type : CommandType) : ParsedCommand :=
  { type := type
    filename := CString.copy 255 []
    targetUser := CString.copy 63 []
    checkpointTag := CString.copy 255 []
    targetPath := CString.copy 1023 []
    requestId := CString.copy 255 []
    accessType := 0
    viewFlags := 0
    sentenceIndex := 0 }

/-- The separators of `strtok`. -/
def commandBreak (byte : Char) : Bool :=
  byte == ' ' || byte == '\t' || byte == '\n'

def commandNames : List (Text × CommandType) :=
  [("VIEW".toList, .view), ("READ".toList, .read),
    ("CREATE".toList, .create), ("WRITE".toList, .write),
    ("DELETE".toList, .delete), ("INFO".toList, .info),
    ("STREAM".toList, .stream), ("LIST".toList, .list),
    ("ADDACCESS".toList, .addaccess), ("REMACCESS".toList, .remaccess),
    ("EXEC".toList, .exec), ("UNDO".toList, .undo),
    ("CREATEFOLDER".toList, .createfolder), ("MOVE".toList, .move),
    ("VIEWFOLDER".toList, .viewfolder), ("CHECKPOINT".toList, .checkpoint),
    ("VIEWCHECKPOINT".toList, .viewcheckpoint), ("REVERT".toList, .revert),
    ("LISTCHECKPOINTS".toList, .listcheckpoints),
    ("REQUESTACCESS".toList, .requestaccess),
    ("VIEWREQUESTS".toList, .viewrequests),
    ("APPROVEREQUEST".toList, .approverequest),
    ("REJECTREQUEST".toList, .rejectrequest), ("EXIT".toList, .exit),
    ("QUIT".toList, .exit), ("HELP".toList, .help)]

/-- The comparisons with the names, in the order of the source. -/
def commandNamed (command : Text) : CommandType :=
  match commandNames.find? fun entry => entry.1 = command with
  | some entry => entry.2
  | none => .unknown

/-- A command that could not be read, as far as its fields were set. -/
def rejectedCommand (cmd : ParsedCommand) : CommandType × ParsedCommand :=
  (.unknown, cmd)

/-- A flag must match exactly; another second word is passed over. -/
def parseView : List Text → CommandType × ParsedCommand
  | [] => (.view, clearedCommand .view)
  | token :: _ =>
      let cmd := clearedCommand .view
      if token.head? = some '-' then
        if token = "-al".toList ∨ token = "-la".toList then
          (.view, { cmd with viewFlags := viewFlagAllLong })
        else if token = "-a".toList then
          (.view, { cmd with viewFlags := viewFlagAll })
        else if token = "-l".toList then
          (.view, { cmd with viewFlags := viewFlagLong })
        else rejectedCommand cmd
      else (.view, cmd)

/-- The name of a file or a folder, and what the command takes behind it. -/
def parseFilename (cmd : ParsedCommand)
    (more : ParsedCommand → List Text → CommandType × ParsedCommand) :
    List Text → CommandType × ParsedCommand
  | [] => rejectedCommand cmd
  | token :: tokens =>
      more { cmd with filename := CString.copy 255 token } tokens

/-- The words behind the last one a command needs are not looked at. -/
def acceptCommand (cmd : ParsedCommand) (_ : List Text) :
    CommandType × ParsedCommand :=
  (cmd.type, cmd)

def parseSentenceIndex (cmd : ParsedCommand) :
    List Text → CommandType × ParsedCommand
  | [] => rejectedCommand cmd
  | token :: tokens =>
      acceptCommand { cmd with sentenceIndex := atoi token } tokens

def parseTargetUser (cmd : ParsedCommand) :
    List Text → CommandType × ParsedCommand
  | [] => rejectedCommand cmd
  | token :: tokens =>
      acceptCommand { cmd with targetUser := CString.copy 63 token } tokens

def parseCheckpointTag (cmd : ParsedCommand) :
    List Text → CommandType × ParsedCommand
  | [] => rejectedCommand cmd
  | token :: tokens =>
      acceptCommand { cmd with checkpointTag := CString.copy 255 token }
        tokens

def parseTargetPath (cmd : ParsedCommand) :
    List Text → CommandType × ParsedCommand
  | [] => rejectedCommand cmd
  | token :: tokens =>
      acceptCommand { cmd with targetPath := CString.copy 1023 token } tokens

def parseRequestId (cmd : ParsedCommand) :
    List Text → CommandType × ParsedCommand
  | [] => rejectedCommand cmd
  | token :: tokens =>
      acceptCommand { cmd with requestId := CString.copy 255 token } tokens

/-- Only the byte behind the dash of an access flag counts. -/
def parseAccess (cmd : ParsedCommand)
    (more : ParsedCommand → List Text → CommandType × ParsedCommand) :
    List Text → CommandType × ParsedCommand
  | [] => rejectedCommand cmd
  | token :: tokens =>
      if token.head? = some '-' then
        if token[1]? = some 'R' ∨ token[1]? = some 'r' then
          parseFilename { cmd with accessType := accessRead } more tokens
        else if token[1]? = some 'W' ∨ token[1]? = some 'w' then
          parseFilename { cmd with accessType := accessWrite } more tokens
        else rejectedCommand cmd
      else rejectedCommand cmd

/-- The branch of a command, which continues the call of `strtok`. -/
def parseArguments (type : CommandType) :
    List Text → CommandType × ParsedCommand :=
  let cmd := clearedCommand type
  match type with
  | .view => parseView
  | .read => parseFilename cmd acceptCommand
  | .create => parseFilename cmd acceptCommand
  | .write => parseFilename cmd parseSentenceIndex
  | .delete => parseFilename cmd acceptCommand
  | .info => parseFilename cmd acceptCommand
  | .stream => parseFilename cmd acceptCommand
  | .list => acceptCommand cmd
  | .addaccess => parseAccess cmd parseTargetUser
  | .remaccess => parseFilename cmd parseTargetUser
  | .exec => parseFilename cmd acceptCommand
  | .undo => parseFilename cmd acceptCommand
  | .createfolder => parseFilename cmd acceptCommand
  | .move => parseFilename cmd parseTargetPath
  | .viewfolder => parseFilename cmd acceptCommand
  | .checkpoint => parseFilename cmd parseCheckpointTag
  | .viewcheckpoint => parseFilename cmd parseCheckpointTag
  | .revert => parseFilename cmd parseCheckpointTag
  | .listcheckpoints => parseFilename cmd acceptCommand
  | .requestaccess => parseAccess cmd acceptCommand
  | .viewrequests => acceptCommand cmd
  | .approverequest => parseRequestId cmd
  | .rejectrequest => parseRequestId cmd
  | .exit => acceptCommand cmd
  | .help => acceptCommand cmd
  | .unknown => fun _ => rejectedCommand (clearedCommand .view)

/-- The tokens of the 1023 bytes that are copied. -/
def commandTokens (input : Text) : List Text :=
  runs commandBreak ((CText.terminated input).take 1023)

/-- A first word of 63 bytes or more is left without a terminator; no name is
so long. -/
def parseCommand (input : Text) : CommandType × ParsedCommand :=
  match commandTokens input with
  | [] => rejectedCommand (clearedCommand .view)
  | token :: tokens =>
      parseArguments (commandNamed ((token.take 63).map Char.toUpper)) tokens

/-- A word of a command line that fits its array. -/
structure Argument (capacity : Nat) extends CString capacity where
  inhabited : chars ≠ []
  solid : ∀ byte ∈ chars, commandBreak byte = false
  deriving DecidableEq, Repr

inductive ViewFlags where
  | none
  | all
  | long
  | allLong
  deriving DecidableEq, Repr

inductive AccessType where
  | read
  | write
  deriving DecidableEq, Repr

/-- What a user can ask for. -/
inductive ShellCommand where
  | view (flags : ViewFlags)
  | read (filename : Argument 255)
  | create (filename : Argument 255)
  | write (filename : Argument 255) (sentenceIndex : Int)
      (isInt : IsInt sentenceIndex)
  | delete (filename : Argument 255)
  | info (filename : Argument 255)
  | stream (filename : Argument 255)
  | list
  | addaccess (access : AccessType) (filename : Argument 255)
      (targetUser : Argument 63)
  | remaccess (filename : Argument 255) (targetUser : Argument 63)
  | exec (filename : Argument 255)
  | undo (filename : Argument 255)
  | createfolder (foldername : Argument 255)
  | move (filename : Argument 255) (targetPath : Argument 1023)
  | viewfolder (foldername : Argument 255)
  | checkpoint (filename tag : Argument 255)
  | viewcheckpoint (filename tag : Argument 255)
  | revert (filename tag : Argument 255)
  | listcheckpoints (filename : Argument 255)
  | requestaccess (access : AccessType) (filename : Argument 255)
  | viewrequests
  | approverequest (requestId : Argument 255)
  | rejectrequest (requestId : Argument 255)
  | exit
  | help
  deriving DecidableEq, Repr

def ViewFlags.value : ViewFlags → Int
  | .none => viewFlagNone
  | .all => viewFlagAll
  | .long => viewFlagLong
  | .allLong => viewFlagAllLong

def ViewFlags.words : ViewFlags → List Text
  | .none => []
  | .all => ["-a".toList]
  | .long => ["-l".toList]
  | .allLong => ["-al".toList]

def AccessType.value : AccessType → Int
  | .read => accessRead
  | .write => accessWrite

def AccessType.word : AccessType → Text
  | .read => "-R".toList
  | .write => "-W".toList

namespace ShellCommand

def type : ShellCommand → CommandType
  | .view _ => .view
  | .read _ => .read
  | .create _ => .create
  | .write _ _ _ => .write
  | .delete _ => .delete
  | .info _ => .info
  | .stream _ => .stream
  | .list => .list
  | .addaccess _ _ _ => .addaccess
  | .remaccess _ _ => .remaccess
  | .exec _ => .exec
  | .undo _ => .undo
  | .createfolder _ => .createfolder
  | .move _ _ => .move
  | .viewfolder _ => .viewfolder
  | .checkpoint _ _ => .checkpoint
  | .viewcheckpoint _ _ => .viewcheckpoint
  | .revert _ _ => .revert
  | .listcheckpoints _ => .listcheckpoints
  | .requestaccess _ _ => .requestaccess
  | .viewrequests => .viewrequests
  | .approverequest _ => .approverequest
  | .rejectrequest _ => .rejectrequest
  | .exit => .exit
  | .help => .help

/-- The words behind the name of the command, as its help shows them. -/
def words : ShellCommand → List Text
  | .view flags => flags.words
  | .read filename => [filename.chars]
  | .create filename => [filename.chars]
  | .write filename sentenceIndex _ =>
      [filename.chars, decimal sentenceIndex]
  | .delete filename => [filename.chars]
  | .info filename => [filename.chars]
  | .stream filename => [filename.chars]
  | .list => []
  | .addaccess access filename targetUser =>
      [access.word, filename.chars, targetUser.chars]
  | .remaccess filename targetUser => [filename.chars, targetUser.chars]
  | .exec filename => [filename.chars]
  | .undo filename => [filename.chars]
  | .createfolder foldername => [foldername.chars]
  | .move filename targetPath => [filename.chars, targetPath.chars]
  | .viewfolder foldername => [foldername.chars]
  | .checkpoint filename tag => [filename.chars, tag.chars]
  | .viewcheckpoint filename tag => [filename.chars, tag.chars]
  | .revert filename tag => [filename.chars, tag.chars]
  | .listcheckpoints filename => [filename.chars]
  | .requestaccess access filename => [access.word, filename.chars]
  | .viewrequests => []
  | .approverequest requestId => [requestId.chars]
  | .rejectrequest requestId => [requestId.chars]
  | .exit => []
  | .help => []

/-- The record of the command; fields it does not use are zero. -/
def parsed (command : ShellCommand) : ParsedCommand :=
  let cmd := clearedCommand command.type
  match command with
  | .view flags => { cmd with viewFlags := flags.value }
  | .read filename => { cmd with filename := filename.toCString }
  | .create filename => { cmd with filename := filename.toCString }
  | .write filename sentenceIndex _ =>
      { cmd with
        filename := filename.toCString
        sentenceIndex := sentenceIndex }
  | .delete filename => { cmd with filename := filename.toCString }
  | .info filename => { cmd with filename := filename.toCString }
  | .stream filename => { cmd with filename := filename.toCString }
  | .list => cmd
  | .addaccess access filename targetUser =>
      { cmd with
        accessType := access.value
        filename := filename.toCString
        targetUser := targetUser.toCString }
  | .remaccess filename targetUser =>
      { cmd with
        filename := filename.toCString
        targetUser := targetUser.toCString }
  | .exec filename => { cmd with filename := filename.toCString }
  | .undo filename => { cmd with filename := filename.toCString }
  | .createfolder foldername => { cmd with filename := foldername.toCString }
  | .move filename targetPath =>
      { cmd with
        filename := filename.toCString
        targetPath := targetPath.toCString }
  | .viewfolder foldername => { cmd with filename := foldername.toCString }
  | .checkpoint filename tag =>
      { cmd with
        filename := filename.toCString
        checkpointTag := tag.toCString }
  | .viewcheckpoint filename tag =>
      { cmd with
        filename := filename.toCString
        checkpointTag := tag.toCString }
  | .revert filename tag =>
      { cmd with
        filename := filename.toCString
        checkpointTag := tag.toCString }
  | .listcheckpoints filename => { cmd with filename := filename.toCString }
  | .requestaccess access filename =>
      { cmd with
        accessType := access.value
        filename := filename.toCString }
  | .viewrequests => cmd
  | .approverequest requestId => { cmd with requestId := requestId.toCString }
  | .rejectrequest requestId => { cmd with requestId := requestId.toCString }
  | .exit => cmd
  | .help => cmd

end ShellCommand

/-- VIEW without a flag is not followed by a word with a dash. -/
def ShellCommand.Followed (command : ShellCommand) (extra : List Text) :
    Prop :=
  command = .view .none →
    ∀ token ∈ extra.head?, token.head? ≠ some '-'

theorem parseView_words (flags : ViewFlags) {extra : List Text}
    (followed : (ShellCommand.view flags).Followed extra) :
    parseView (flags.words ++ extra) =
      (.view, (ShellCommand.view flags).parsed) := by
  cases flags with
  | none =>
      cases extra with
      | nil => rfl
      | cons token extra =>
          have noFlag := followed rfl token (by simp)
          simp only [ViewFlags.words, List.nil_append, parseView,
            if_neg noFlag]
          rfl
  | all => rfl
  | long => rfl
  | allLong => rfl

theorem parseAccess_word (access : AccessType) (cmd : ParsedCommand)
    (more : ParsedCommand → List Text → CommandType × ParsedCommand)
    (tokens : List Text) :
    parseAccess cmd more (access.word :: tokens) =
      parseFilename { cmd with accessType := access.value } more tokens := by
  cases access <;> rfl

theorem parseArguments_words (command : ShellCommand) {extra : List Text}
    (followed : command.Followed extra) :
    parseArguments command.type (command.words ++ extra) =
      (command.type, command.parsed) := by
  cases command with
  | view flags => exact parseView_words flags followed
  | write filename sentenceIndex isInt =>
      simp [parseArguments, ShellCommand.type, ShellCommand.words,
        parseFilename, parseSentenceIndex, acceptCommand, clearedCommand,
        ShellCommand.parsed, atoi_decimal isInt]
  | _ =>
      simp [parseArguments, ShellCommand.type, ShellCommand.words,
        parseAccess_word, parseFilename, parseTargetUser,
        parseCheckpointTag, parseTargetPath, parseRequestId, acceptCommand,
        clearedCommand, ShellCommand.parsed]

/-- The result of a command, or a rejection. -/
def Understood (result : CommandType × ParsedCommand) : Prop :=
  result.1 = .unknown ∨
    ∃ command : ShellCommand, result = (command.type, command.parsed)

theorem understood_rejected (cmd : ParsedCommand) :
    Understood (rejectedCommand cmd) :=
  .inl rfl

/-- What `strtok` returns. -/
structure IsWord (token : Text) : Prop where
  inhabited : token ≠ []
  solid : ∀ byte ∈ token, commandBreak byte = false
  nulFree : CText.nul ∉ token

/-- A word as it is copied into its array. -/
def IsWord.argument {token : Text} (word : IsWord token) (capacity : Nat) :
    Argument (capacity + 1) :=
  { toCString := CString.copy (capacity + 1) token
    inhabited := by
      simp [CString.copy, CText.terminated_eq_self word.nulFree,
        word.inhabited]
    solid := by
      intro byte member
      have inside := List.mem_of_mem_take member
      rw [CText.terminated_eq_self word.nulFree] at inside
      exact word.solid byte inside }

section

variable {tokens : List Text}

theorem understood_parseView (tokens : List Text) :
    Understood (parseView tokens) := by
  unfold parseView
  cases tokens with
  | nil => exact .inr ⟨.view .none, rfl⟩
  | cons token tokens =>
      simp only
      split
      · split
        · exact .inr ⟨.view .allLong, rfl⟩
        · split
          · exact .inr ⟨.view .all, rfl⟩
          · split
            · exact .inr ⟨.view .long, rfl⟩
            · exact understood_rejected _
      · exact .inr ⟨.view .none, rfl⟩

theorem understood_parseFilename {cmd : ParsedCommand}
    {more : ParsedCommand → List Text → CommandType × ParsedCommand}
    (words : ∀ token ∈ tokens, IsWord token)
    (understood : ∀ (filename : Argument 255) (rest : List Text),
      (∀ token ∈ rest, IsWord token) →
        Understood (more { cmd with filename := filename.toCString } rest)) :
    Understood (parseFilename cmd more tokens) := by
  cases tokens with
  | nil => exact understood_rejected cmd
  | cons token tokens =>
      exact understood ((words token List.mem_cons_self).argument 254) tokens
        fun other member => words other (List.mem_cons_of_mem _ member)

theorem understood_parseTargetUser {cmd : ParsedCommand}
    (words : ∀ token ∈ tokens, IsWord token)
    (understood : ∀ targetUser : Argument 63,
      Understood (cmd.type,
        { cmd with targetUser := targetUser.toCString })) :
    Understood (parseTargetUser cmd tokens) := by
  cases tokens with
  | nil => exact understood_rejected cmd
  | cons token tokens =>
      exact understood ((words token List.mem_cons_self).argument 62)

theorem understood_parseCheckpointTag {cmd : ParsedCommand}
    (words : ∀ token ∈ tokens, IsWord token)
    (understood : ∀ tag : Argument 255,
      Understood (cmd.type, { cmd with checkpointTag := tag.toCString })) :
    Understood (parseCheckpointTag cmd tokens) := by
  cases tokens with
  | nil => exact understood_rejected cmd
  | cons token tokens =>
      exact understood ((words token List.mem_cons_self).argument 254)

theorem understood_parseTargetPath {cmd : ParsedCommand}
    (words : ∀ token ∈ tokens, IsWord token)
    (understood : ∀ targetPath : Argument 1023,
      Understood (cmd.type,
        { cmd with targetPath := targetPath.toCString })) :
    Understood (parseTargetPath cmd tokens) := by
  cases tokens with
  | nil => exact understood_rejected cmd
  | cons token tokens =>
      exact understood ((words token List.mem_cons_self).argument 1022)

theorem understood_parseRequestId {cmd : ParsedCommand}
    (words : ∀ token ∈ tokens, IsWord token)
    (understood : ∀ requestId : Argument 255,
      Understood (cmd.type, { cmd with requestId := requestId.toCString })) :
    Understood (parseRequestId cmd tokens) := by
  cases tokens with
  | nil => exact understood_rejected cmd
  | cons token tokens =>
      exact understood ((words token List.mem_cons_self).argument 254)

theorem understood_parseSentenceIndex {cmd : ParsedCommand}
    (understood : ∀ (sentenceIndex : Int), IsInt sentenceIndex →
      Understood (cmd.type, { cmd with sentenceIndex := sentenceIndex })) :
    Understood (parseSentenceIndex cmd tokens) := by
  cases tokens with
  | nil => exact understood_rejected cmd
  | cons token tokens => exact understood _ (isInt_atoi token)

theorem understood_parseAccess {cmd : ParsedCommand}
    {more : ParsedCommand → List Text → CommandType × ParsedCommand}
    (words : ∀ token ∈ tokens, IsWord token)
    (understood : ∀ (access : AccessType) (rest : List Text),
      (∀ token ∈ rest, IsWord token) →
        Understood (parseFilename { cmd with accessType := access.value }
          more rest)) :
    Understood (parseAccess cmd more tokens) := by
  cases tokens with
  | nil => exact understood_rejected cmd
  | cons token tokens =>
      have rest : ∀ other ∈ tokens, IsWord other := fun other member =>
        words other (List.mem_cons_of_mem _ member)
      simp only [parseAccess]
      split
      · split
        · exact understood .read tokens rest
        · split
          · exact understood .write tokens rest
          · exact understood_rejected cmd
      · exact understood_rejected cmd

theorem understood_parseArguments (type : CommandType)
    (words : ∀ token ∈ tokens, IsWord token) :
    Understood (parseArguments type tokens) := by
  cases type with
  | view => exact understood_parseView tokens
  | read =>
      exact understood_parseFilename words fun filename _ _ =>
        .inr ⟨.read filename, rfl⟩
  | create =>
      exact understood_parseFilename words fun filename _ _ =>
        .inr ⟨.create filename, rfl⟩
  | write =>
      exact understood_parseFilename words fun filename _ _ =>
        understood_parseSentenceIndex fun sentenceIndex isInt =>
          .inr ⟨.write filename sentenceIndex isInt, rfl⟩
  | delete =>
      exact understood_parseFilename words fun filename _ _ =>
        .inr ⟨.delete filename, rfl⟩
  | info =>
      exact understood_parseFilename words fun filename _ _ =>
        .inr ⟨.info filename, rfl⟩
  | stream =>
      exact understood_parseFilename words fun filename _ _ =>
        .inr ⟨.stream filename, rfl⟩
  | list => exact .inr ⟨.list, rfl⟩
  | addaccess =>
      exact understood_parseAccess words fun access _ rest =>
        understood_parseFilename rest fun filename _ others =>
          understood_parseTargetUser others fun targetUser =>
            .inr ⟨.addaccess access filename targetUser, rfl⟩
  | remaccess =>
      exact understood_parseFilename words fun filename _ rest =>
        understood_parseTargetUser rest fun targetUser =>
          .inr ⟨.remaccess filename targetUser, rfl⟩
  | exec =>
      exact understood_parseFilename words fun filename _ _ =>
        .inr ⟨.exec filename, rfl⟩
  | undo =>
      exact understood_parseFilename words fun filename _ _ =>
        .inr ⟨.undo filename, rfl⟩
  | createfolder =>
      exact understood_parseFilename words fun foldername _ _ =>
        .inr ⟨.createfolder foldername, rfl⟩
  | move =>
      exact understood_parseFilename words fun filename _ rest =>
        understood_parseTargetPath rest fun targetPath =>
          .inr ⟨.move filename targetPath, rfl⟩
  | viewfolder =>
      exact understood_parseFilename words fun foldername _ _ =>
        .inr ⟨.viewfolder foldername, rfl⟩
  | checkpoint =>
      exact understood_parseFilename words fun filename _ rest =>
        understood_parseCheckpointTag rest fun tag =>
          .inr ⟨.checkpoint filename tag, rfl⟩
  | viewcheckpoint =>
      exact understood_parseFilename words fun filename _ rest =>
        understood_parseCheckpointTag rest fun tag =>
          .inr ⟨.viewcheckpoint filename tag, rfl⟩
  | revert =>
      exact understood_parseFilename words fun filename _ rest =>
        understood_parseCheckpointTag rest fun tag =>
          .inr ⟨.revert filename tag, rfl⟩
  | listcheckpoints =>
      exact understood_parseFilename words fun filename _ _ =>
        .inr ⟨.listcheckpoints filename, rfl⟩
  | requestaccess =>
      exact understood_parseAccess words fun access _ rest =>
        understood_parseFilename rest fun filename _ _ =>
          .inr ⟨.requestaccess access filename, rfl⟩
  | viewrequests => exact .inr ⟨.viewrequests, rfl⟩
  | approverequest =>
      exact understood_parseRequestId words fun requestId =>
        .inr ⟨.approverequest requestId, rfl⟩
  | rejectrequest =>
      exact understood_parseRequestId words fun requestId =>
        .inr ⟨.rejectrequest requestId, rfl⟩
  | exit => exact .inr ⟨.exit, rfl⟩
  | help => exact .inr ⟨.help, rfl⟩
  | unknown => exact understood_rejected _

end

theorem isWord_commandTokens {input token : Text}
    (member : token ∈ commandTokens input) : IsWord token := by
  have derivation := runsOf_runs commandBreak
    ((CText.terminated input).take 1023)
  obtain ⟨inhabited, solid⟩ := derivation.mem member
  refine ⟨inhabited, solid, fun nul => ?_⟩
  exact CText.nul_not_mem_terminated input
    (List.mem_of_mem_take (derivation.subset member nul))

theorem understood_parseCommand (input : Text) :
    Understood (parseCommand input) := by
  have words := @isWord_commandTokens input
  unfold parseCommand
  cases tokens : commandTokens input with
  | nil => exact understood_rejected _
  | cons token rest =>
      rw [tokens] at words
      exact understood_parseArguments _ fun other member =>
        words (List.mem_cons_of_mem _ member)

theorem Argument.toCString_inj {capacity : Nat}
    {first second : Argument capacity} :
    first.toCString = second.toCString ↔ first = second := by
  cases first
  cases second
  simp

theorem ViewFlags.value_inj {first second : ViewFlags} :
    first.value = second.value ↔ first = second := by
  cases first <;> cases second <;> decide

theorem AccessType.value_inj {first second : AccessType} :
    first.value = second.value ↔ first = second := by
  cases first <;> cases second <;> decide

/-- No two commands have one record. -/
theorem ShellCommand.parsed_injective :
    Function.Injective ShellCommand.parsed := by
  have types : ∀ command : ShellCommand,
      command.parsed.type = command.type := by
    intro command
    cases command <;> rfl
  intro first second same
  have sameType : first.type = second.type := by
    rw [← types, ← types, same]
  clear types
  cases first <;> cases second <;> cases sameType <;> first
    | rfl
    | simpa [ShellCommand.parsed, ShellCommand.type, clearedCommand,
        Argument.toCString_inj, ViewFlags.value_inj, AccessType.value_inj,
        and_comm, and_left_comm, and_assoc] using same

/-- The name of a command, in letters of any case. -/
def Names (keyword : Text) (type : CommandType) : Prop :=
  (keyword.map Char.toUpper, type) ∈ commandNames

instance (keyword : Text) (type : CommandType) :
    Decidable (Names keyword type) :=
  inferInstanceAs (Decidable (_ ∈ _))

theorem commandNamed_of_names {keyword : Text} {type : CommandType}
    (names : Names keyword type) :
    commandNamed ((keyword.take 63).map Char.toUpper) = type := by
  have table : ∀ entry ∈ commandNames,
      commandNamed entry.1 = entry.2 ∧ entry.1.length ≤ 63 := by decide
  obtain ⟨same, short⟩ := table _ names
  rw [List.length_map] at short
  rw [List.take_of_length_le short]
  exact same

/-- A line that says a command: its name and its words, with any white space
around them and perhaps more words behind. -/
structure Says (input : Text) (command : ShellCommand) : Prop where
  short : input.length ≤ 1023
  nulFree : CText.nul ∉ input
  spelled : ∃ keyword extra, Names keyword command.type ∧
    command.Followed extra ∧
    RunsOf commandBreak input (keyword :: (command.words ++ extra))

theorem parseCommand_of_said {input : Text} {command : ShellCommand}
    (said : Says input command) :
    parseCommand input = (command.type, command.parsed) := by
  obtain ⟨keyword, extra, names, followed, spelled⟩ := said.spelled
  have tokens : commandTokens input =
      keyword :: (command.words ++ extra) := by
    rw [commandTokens, CText.terminated_eq_self said.nulFree,
      List.take_of_length_le said.short]
    exact runsOf_iff.mp spelled
  rw [parseCommand, tokens]
  simp only [commandNamed_of_names names]
  exact parseArguments_words command followed

theorem Says.word_subset {input : Text} {command : ShellCommand}
    (said : Says input command) {word : Text} (member : word ∈ command.words) :
    word ⊆ input := by
  obtain ⟨keyword, extra, -, -, spelled⟩ := said.spelled
  exact spelled.subset (List.mem_cons_of_mem _
    (List.mem_append_left _ member))

/-- What is said is read, what is accepted could have been said, and the record
tells which command it was. -/
theorem parse_command_round_trip :
    (∀ input command, Says input command →
        parseCommand input = (command.type, command.parsed)) ∧
      (∀ input, (parseCommand input).1 ≠ .unknown →
        ∃ command : ShellCommand,
          parseCommand input = (command.type, command.parsed)) ∧
      Function.Injective ShellCommand.parsed := by
  refine ⟨fun _ _ => parseCommand_of_said, ?_,
    ShellCommand.parsed_injective⟩
  intro input accepted
  rcases understood_parseCommand input with rejected | understood
  · exact (accepted rejected).elim
  · exact understood

/-- WRITE in mixed letters, with a tab and a word too many. -/
theorem parse_command_round_trip_write :
    ∃ filename : Argument 255, filename.chars = "notes.txt".toList ∧
      parseCommand "wRiTe\tnotes.txt -3 now".toList =
        (.write, { clearedCommand .write with
          filename := filename.toCString
          sentenceIndex := -3 }) := by
  let filename : Argument 255 :=
    { chars := "notes.txt".toList
      fits := by decide
      nulFree := by decide
      inhabited := by decide
      solid := by simp [commandBreak] }
  refine ⟨filename, rfl, ?_⟩
  exact parse_command_round_trip.1 _
    (.write filename (-3) (by decide))
    { short := by decide
      nulFree := by decide +kernel
      spelled := ⟨"wRiTe".toList, ["now".toList], by decide,
        by simp [ShellCommand.Followed], runsOf_iff.mpr (by rfl)⟩ }

end Dfs.Client
