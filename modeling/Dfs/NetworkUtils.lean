import Dfs.Library.ByteStream
import Dfs.Library.Layout
import Dfs.Protocol

/-!
# Messages on a connection

`send_message` and `receive_message` of `common/network_utils.c` move the
memory of a `Message`, with its integers in network order, through a reliable
stream of bytes.  The two ends have the same layout but perhaps another byte
order.  Of a call only the part after the check for NULL is modelled.
-/

namespace Dfs

open ByteStream

/-- The structure `Message`; an `int` is given by its bits. -/
structure Message where
  msgType : Word
  operation : Word
  errorCode : Word
  username : Vector Byte maxUsername
  filename : Vector Byte maxFilename
  checkpointTag : Vector Byte maxFilename
  targetPath : Vector Byte maxPath
  sentenceIndex : Word
  wordIndex : Word
  ip : Vector Byte maxIpLen
  port1 : Word
  port2 : Word
  ssId : Word
  data : Vector Byte maxDataSize
  deriving DecidableEq, Repr

/-- All members are aligned where they follow each other. -/
def messageLayout (order : ByteOrder) : Layout Message :=
  ((Layout.word order).followedBy <|
    (Layout.word order).followedBy <|
    (Layout.word order).followedBy <|
    (Layout.chars maxUsername).followedBy <|
    (Layout.chars maxFilename).followedBy <|
    (Layout.chars maxFilename).followedBy <|
    (Layout.chars maxPath).followedBy <|
    (Layout.word order).followedBy <|
    (Layout.word order).followedBy <|
    (Layout.chars maxIpLen).followedBy <|
    (Layout.word order).followedBy <|
    (Layout.word order).followedBy <|
    (Layout.word order).followedBy <|
    Layout.chars maxDataSize).record
    (fun msg => (msg.msgType, msg.operation, msg.errorCode, msg.username,
      msg.filename, msg.checkpointTag, msg.targetPath, msg.sentenceIndex,
      msg.wordIndex, msg.ip, msg.port1, msg.port2, msg.ssId, msg.data))
    (fun (msgType, operation, errorCode, username, filename, checkpointTag,
        targetPath, sentenceIndex, wordIndex, ip, port1, port2, ssId, data) =>
      { msgType, operation, errorCode, username, filename, checkpointTag,
        targetPath, sentenceIndex, wordIndex, ip, port1, port2, ssId, data })
    (fun _ => rfl)

/-- `sizeof(Message)`. -/
def messageSize : Nat := 5744

theorem size_messageLayout (order : ByteOrder) :
    (messageLayout order).size = messageSize := by
  simp [messageLayout, Layout.record, Layout.followedBy, Layout.word,
    Layout.chars, maxUsername, maxFilename, maxPath, maxIpLen, maxDataSize,
    messageSize]

def messageToNetworkOrder (order : ByteOrder) (msg : Message) : Message :=
  { msg with
    msgType := order.htonl msg.msgType
    operation := order.htonl msg.operation
    errorCode := order.htonl msg.errorCode
    sentenceIndex := order.htonl msg.sentenceIndex
    wordIndex := order.htonl msg.wordIndex
    port1 := order.htonl msg.port1
    port2 := order.htonl msg.port2
    ssId := order.htonl msg.ssId }

def messageToHostOrder (order : ByteOrder) (msg : Message) : Message :=
  { msg with
    msgType := order.ntohl msg.msgType
    operation := order.ntohl msg.operation
    errorCode := order.ntohl msg.errorCode
    sentenceIndex := order.ntohl msg.sentenceIndex
    wordIndex := order.ntohl msg.wordIndex
    port1 := order.ntohl msg.port1
    port2 := order.ntohl msg.port2
    ssId := order.ntohl msg.ssId }

theorem messageToHostOrder_messageToNetworkOrder (order : ByteOrder)
    (msg : Message) :
    messageToHostOrder order (messageToNetworkOrder order msg) = msg := by
  simp [messageToHostOrder, messageToNetworkOrder]

/-- The bytes of a message on the network. -/
def messageBytes (msg : Message) : List Byte :=
  (messageLayout .bigEndian).store msg

theorem length_messageBytes (msg : Message) :
    (messageBytes msg).length = messageSize := by
  rw [messageBytes, (messageLayout .bigEndian).length_store, size_messageLayout]

/-- Whatever the host, a converted message lies in its memory as it goes over
the network. -/
theorem store_messageToNetworkOrder (order : ByteOrder) (msg : Message) :
    (messageLayout order).store (messageToNetworkOrder order msg) =
      messageBytes msg := by
  simp only [messageLayout, messageBytes, Layout.record, Layout.followedBy,
    messageToNetworkOrder, Layout.store_word_htonl]

theorem messageToHostOrder_load_messageBytes (order : ByteOrder)
    (msg : Message) :
    messageToHostOrder order ((messageLayout order).load (messageBytes msg)) =
      msg := by
  rw [← store_messageToNetworkOrder order, (messageLayout order).load_store,
    messageToHostOrder_messageToNetworkOrder]

/-- `send` is repeated after EINTR. -/
def sendRetried : Obstacle → Bool
  | .interrupted => true
  | .timedOut => false
  | .closed => false
  | .failed => false

/-- `recv` is repeated after a timeout as well. -/
def recvRetried : Obstacle → Bool
  | .interrupted => true
  | .timedOut => true
  | .closed => false
  | .failed => false

/-- What a call of `send_message` leaves behind: its result, the message of
the caller, and the bytes that went into the stream. -/
structure Sent where
  result : Int
  msg : Message
  taken : List Byte

/-- The message of the caller and the copy on the stack. -/
structure SendFrame where
  msg : Message
  networkMsg : Message

def sendMessage (order : ByteOrder) (outcomes : List Outcome)
    (msg : Message) : Sent :=
  let stack : SendFrame := { msg := msg, networkMsg := msg }
  let stack :=
    { stack with
      networkMsg := messageToNetworkOrder order stack.networkMsg }
  let (taken, totalSent) :=
    writeAll sendRetried ((messageLayout order).store stack.networkMsg)
      outcomes 0
  { result := totalSent, msg := stack.msg, taken := taken }

/-- What a call of `receive_message` leaves behind, with the rest of the
stream. -/
structure Received where
  result : Int
  msg : Message
  stream : List Byte

/-- `recv` writes into the memory of `msg`. -/
def receiveMessage (order : ByteOrder) (outcomes : List Outcome)
    (msg : Message) (stream : List Byte) : Received :=
  let read :=
    readAll recvRetried messageSize outcomes 0
      ((messageLayout order).store msg) stream
  let msg := (messageLayout order).load read.buffer
  if read.result < 0 then
    { result := -1, msg := msg, stream := read.stream }
  else
    { result := read.result, msg := messageToHostOrder order msg,
      stream := read.stream }

/-- What a caller of `receive_message` gets to see. -/
def Received.report (received : Received) : Int × Option Message :=
  (received.result,
    if received.result < 0 then none else some received.msg)

section

variable {outcomes : List Outcome}

/-- All bytes go out, and the message of the caller is as before. -/
theorem sendMessage_benign (order : ByteOrder)
    (benign : Benign sendRetried outcomes) (msg : Message) :
    sendMessage order outcomes msg =
      ⟨messageSize, msg, messageBytes msg⟩ := by
  have written := @writeAll_benign Byte sendRetried outcomes benign
    (messageBytes msg) 0 (Nat.zero_le _)
  rw [length_messageBytes, List.drop_zero] at written
  rw [sendMessage]
  simp only [store_messageToNetworkOrder, written]

/-- A complete message at the front of the stream is received. -/
theorem receiveMessage_complete (order : ByteOrder)
    (benign : Benign recvRetried outcomes) (memory msg : Message)
    (stream : List Byte) :
    receiveMessage order outcomes memory (messageBytes msg ++ stream) =
      ⟨messageSize, msg, stream⟩ := by
  have size : ((messageLayout order).store memory).length = messageSize := by
    rw [(messageLayout order).length_store, size_messageLayout]
  have read := @readAll_enough Byte recvRetried outcomes benign []
    ((messageLayout order).store memory) (messageBytes msg)
    (by rw [length_messageBytes, size]) stream messageSize
    (by rw [size, List.length_nil, Nat.zero_add])
  rw [List.length_nil, List.nil_append, List.nil_append] at read
  have received : ¬((messageSize : Int) < 0) := by simp
  rw [receiveMessage]
  simp only [read, received, if_false, messageToHostOrder_load_messageBytes]

/-- Where the stream ends inside a message, nothing is reported. -/
theorem receiveMessage_cut (order : ByteOrder)
    (benign : Benign recvRetried outcomes) (memory : Message)
    {stream : List Byte} (short : stream.length < messageSize) :
    (receiveMessage order outcomes memory stream).report = (-1, none) ∧
      (receiveMessage order outcomes memory stream).stream = [] := by
  obtain ⟨fails, emptied⟩ := @readAll_short Byte recvRetried outcomes benign
    messageSize 0 ((messageLayout order).store memory) stream
    (by rwa [Nat.sub_zero])
  have negative : ((-1 : Int) < 0) := by decide
  rw [receiveMessage]
  simp only [fails, negative, if_true, emptied, Received.report, and_self]

end

/-- A call with the outcomes it meets: the message to send, or the memory to
receive into. -/
structure Call where
  outcomes : List Outcome
  msg : Message

/-- Successive calls of `send_message`. -/
def sendMessages (order : ByteOrder) (calls : List Call) : List Sent :=
  calls.map fun call => sendMessage order call.outcomes call.msg

/-- The bytes that the calls have put into the connection. -/
def connectionStream (sent : List Sent) : List Byte :=
  (sent.map Sent.taken).flatten

/-- Successive calls of `receive_message`. -/
def receiveMessages (order : ByteOrder) :
    List Call → List Byte → List Received
  | [], _ => []
  | call :: calls, stream =>
      let received := receiveMessage order call.outcomes call.msg stream
      received :: receiveMessages order calls received.stream

/-- What a call reports when this message, if any, is there for it. -/
def expectedReport : Option Message → Int × Option Message
  | some msg => (messageSize, some msg)
  | none => (-1, none)

/-- The reports of `count` calls on a connection that carries `messages`. -/
def expectedReports (count : Nat) (messages : List Message) :
    List (Int × Option Message) :=
  (List.range count).map fun call => expectedReport messages[call]?

theorem expectedReports_succ (count : Nat) (messages : List Message) :
    expectedReports (count + 1) messages =
      expectedReport messages.head? ::
        expectedReports count messages.tail := by
  unfold expectedReports
  rw [List.range_succ_eq_map, List.map_cons, List.map_map]
  cases messages with
  | nil => rfl
  | cons msg messages => rfl

section

variable {sends receives : List Call}

theorem sendMessages_benign (order : ByteOrder)
    (benign : ∀ call ∈ sends, Benign sendRetried call.outcomes) :
    sendMessages order sends =
      sends.map fun call =>
        ⟨messageSize, call.msg, messageBytes call.msg⟩ := by
  apply List.map_congr_left
  intro call member
  exact sendMessage_benign order (benign call member) call.msg

/-- Each call takes the next complete message, and every call after the last
of them fails. -/
theorem receiveMessages_reports (order : ByteOrder)
    (benign : ∀ call ∈ receives, Benign recvRetried call.outcomes)
    (messages : List Message) {tail : List Byte}
    (short : tail.length < messageSize) :
    (receiveMessages order receives
        ((messages.map messageBytes).flatten ++ tail)).map Received.report =
      expectedReports receives.length messages := by
  induction receives generalizing messages tail with
  | nil => rfl
  | cons call calls ih =>
      have first := benign call List.mem_cons_self
      have later := ih fun other member =>
        benign other (List.mem_cons_of_mem _ member)
      rw [receiveMessages, List.map_cons, List.length_cons,
        expectedReports_succ]
      cases messages with
      | nil =>
          obtain ⟨report, rest⟩ :=
            receiveMessage_cut order first call.msg short
          have next := @later [] [] (by decide)
          rw [List.map_nil, List.flatten_nil, List.nil_append] at next ⊢
          rw [report, rest, next]
          rfl
      | cons msg messages =>
          rw [List.map_cons, List.flatten_cons, List.append_assoc,
            receiveMessage_complete order first, later messages short]
          rfl

/-- Messages arrive as they were sent, and a connection that ends early
delivers the complete ones. -/
theorem framing_round_trip (sender receiver : ByteOrder)
    (sending : ∀ call ∈ sends, Benign sendRetried call.outcomes)
    (receiving : ∀ call ∈ receives, Benign recvRetried call.outcomes) :
    let sent := sendMessages sender sends
    let stream := connectionStream sent
    (sent.map fun call => (call.result, call.msg)) =
        (sends.map fun call => ((messageSize : Int), call.msg)) ∧
      (receiveMessages receiver receives stream).map Received.report =
        expectedReports receives.length (sends.map Call.msg) ∧
      ∀ length,
        (receiveMessages receiver receives (stream.take length)).map
            Received.report =
          expectedReports receives.length
            ((sends.map Call.msg).take (length / messageSize)) := by
  intro sent stream
  have written := sendMessages_benign sender sending
  have frames : stream =
      ((sends.map Call.msg).map messageBytes).flatten := by
    change connectionStream (sendMessages sender sends) = _
    rw [connectionStream, written, List.map_map, List.map_map]
    rfl
  have sized : ∀ bytes ∈ (sends.map Call.msg).map messageBytes,
      bytes.length = messageSize := by
    intro bytes member
    obtain ⟨msg, -, rfl⟩ := List.mem_map.mp member
    exact length_messageBytes msg
  refine ⟨?_, ?_, ?_⟩
  · change (sendMessages sender sends).map _ = _
    rw [written, List.map_map]
    rfl
  · have whole := receiveMessages_reports receiver receiving
      (sends.map Call.msg) (show ([] : List Byte).length < messageSize by
        decide)
    rwa [List.append_nil, ← frames] at whole
  · intro length
    obtain ⟨tail, short, cut⟩ :=
      take_flatten_frames (by decide) sized length
    rw [frames, cut, ← List.map_take]
    exact receiveMessages_reports receiver receiving _ short

end

/-- A request with these bytes at the start of `data`. -/
private def wireMessage (operation : Word) (byte : Byte) : Message :=
  { msgType := 1
    operation := operation
    errorCode := 0
    username := Vector.replicate _ 0
    filename := Vector.replicate _ 97
    checkpointTag := Vector.replicate _ 0
    targetPath := Vector.replicate _ 0
    sentenceIndex := -1
    wordIndex := 2
    ip := Vector.replicate _ 0
    port1 := 8080
    port2 := 8081
    ssId := 3
    data := Vector.replicate _ byte }

/-- The first message goes out in two parts. -/
private def twoSends : List Call :=
  [⟨[.moved 99, .stopped .interrupted], wireMessage 102 98⟩,
    ⟨[], wireMessage 101 99⟩]

/-- It arrives in three, after a timeout. -/
private def twoReceives : List Call :=
  [⟨[.moved 0, .stopped .timedOut, .moved 5000], wireMessage 0 0⟩,
    ⟨[.stopped .interrupted], wireMessage 0 1⟩]

/-- The second message is lost when the connection ends inside it. -/
theorem framing_round_trip_two_messages :
    let stream := connectionStream (sendMessages .littleEndian twoSends)
    (receiveMessages .bigEndian twoReceives stream).map Received.report =
        expectedReports 2 [wireMessage 102 98, wireMessage 101 99] ∧
      (receiveMessages .bigEndian twoReceives (stream.take 6000)).map
          Received.report =
        expectedReports 2 [wireMessage 102 98] := by
  have sending : ∀ call ∈ twoSends, Benign sendRetried call.outcomes := by
    simp [twoSends, Benign, sendRetried]
  have receiving : ∀ call ∈ twoReceives,
      Benign recvRetried call.outcomes := by
    simp [twoReceives, Benign, recvRetried]
  obtain ⟨-, whole, cut⟩ :=
    framing_round_trip .littleEndian .bigEndian sending receiving
  exact ⟨whole, cut 6000⟩

end Dfs
