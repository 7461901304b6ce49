import Dfs.Library.BoundedRows
import Dfs.StorageServer.Queries

/-!
# Registered clients

`register_client` and LIST of `name_server/client_handler.c`.  Both run under
one mutex, so that a run is a list of registrations.  The table is what a
history of registrations leaves of it: the first users in the order of their
first registration, each with the address of the last one.
-/

namespace Dfs.NameServer

open Dfs.StorageServer BoundedRows

def maxClients : Nat := 100

structure ClientInfo where
  username : Username
  ip : IpText
  port : Int
  lastActivity : Int
  isConnected : Bool
  deriving DecidableEq, Repr

/-- The fields of a registration, with the time at which it is handled. -/
structure ClientMessage where
  username : Username
  ip : IpText
  port1 : Int
  now : Int
  deriving DecidableEq, Repr

/-- The entry that a registration leaves. -/
def ClientMessage.info (msg : ClientMessage) : ClientInfo where
  username := msg.username
  ip := msg.ip
  port := msg.port1
  lastActivity := msg.now
  isConnected := true

def findClient (clients : List ClientInfo) (username : Username) :
    Option Nat :=
  clients.findIdx? fun client => client.username = username

def registerClient (clients : List ClientInfo) (msg : ClientMessage) :
    List ClientInfo × Int :=
  match findClient clients msg.username with
  | some index =>
      (clients.modify index fun client =>
        { client with
          ip := msg.ip
          port := msg.port1
          lastActivity := msg.now
          isConnected := true }, errSuccess)
  | none =>
      if clients.length ≥ maxClients then (clients, errServerError)
      else (clients ++ [msg.info], errSuccess)

def handleClientRegistration (clients : List ClientInfo)
    (msg : ClientMessage) : List ClientInfo × Response :=
  let (clients, result) := registerClient clients msg
  (clients, ⟨msgAck, opClientRegister, result,
    if result = errSuccess then "Client registration successful".toList
    else "Client registration failed".toList⟩)

def userRow (username : Username) : Text :=
  "--> ".toList ++ username.chars ++ ['\n']

/-- LIST. -/
def handleListFiles (clients : List ClientInfo) : Response :=
  ⟨msgResponse, opList, errSuccess,
    if clients.length = 0 then "No users found".toList
    else
      (printRows maxDataSize []
        (clients.map fun client => userRow client.username)).2⟩

/-- The table after a history of registrations. -/
def registeredClients (history : List ClientMessage) : List ClientInfo :=
  history.foldl (fun clients msg => (registerClient clients msg).1) []

section

variable {clients : List ClientInfo} {msg : ClientMessage}

theorem findClient_eq_none (unknown : msg.username ∉
    clients.map ClientInfo.username) :
    findClient clients msg.username = none := by
  rw [findClient, List.findIdx?_eq_none_iff]
  intro client member
  have different : client.username ≠ msg.username := fun same =>
    unknown (List.mem_map.mpr ⟨client, member, same⟩)
  simpa using different

/-- A known user is found at the first entry of this name, which becomes the
entry of the registration. -/
theorem registerClient_known
    (known : msg.username ∈ clients.map ClientInfo.username) :
    ∃ front old back, clients = front ++ old :: back ∧
      old.username = msg.username ∧
      registerClient clients msg = (front ++ msg.info :: back, errSuccess) := by
  obtain ⟨client, member, same⟩ := List.mem_map.mp known
  obtain ⟨index, found⟩ : ∃ index, findClient clients msg.username =
      some index := by
    apply Option.ne_none_iff_exists'.mp
    intro none
    rw [findClient, List.findIdx?_eq_none_iff] at none
    simpa [same] using none client member
  have place := List.findIdx?_eq_some_iff_getElem.mp found
  obtain ⟨within, here, -⟩ := place
  have sameName : clients[index].username = msg.username := by simpa using here
  refine ⟨clients.take index, clients[index], clients.drop (index + 1), ?_,
    sameName, ?_⟩
  · rw [← List.drop_eq_getElem_cons within, List.take_append_drop]
  · rw [registerClient, found]
    simp only [List.modify_eq_take_cons_drop within, ClientMessage.info,
      sameName]

theorem registerClient_unknown
    (unknown : msg.username ∉ clients.map ClientInfo.username) :
    registerClient clients msg =
      if clients.length ≥ maxClients then (clients, errServerError)
      else (clients ++ [msg.info], errSuccess) := by
  rw [registerClient, findClient_eq_none unknown]

/-- A registration adds its user behind the others if there is room and the
user is new. -/
theorem usernames_registerClient :
    (registerClient clients msg).1.map ClientInfo.username =
      if msg.username ∈ clients.map ClientInfo.username ∨
          clients.length ≥ maxClients then
        clients.map ClientInfo.username
      else clients.map ClientInfo.username ++ [msg.username] := by
  by_cases known : msg.username ∈ clients.map ClientInfo.username
  · obtain ⟨front, old, back, split, same, result⟩ := registerClient_known known
    rw [if_pos (.inl known), result, split]
    simp only [List.map_append, List.map_cons, same, ClientMessage.info]
  · rw [registerClient_unknown known]
    by_cases full : clients.length ≥ maxClients
    · rw [if_pos full, if_pos (.inr full)]
    · have open' : ¬ (msg.username ∈ clients.map ClientInfo.username ∨
          clients.length ≥ maxClients) := not_or.mpr ⟨known, full⟩
      rw [if_neg full, if_neg open', List.map_append]
      rfl

/-- The answer is success exactly when the user is in the table afterwards. -/
theorem registerClient_result :
    (registerClient clients msg).2 =
      if msg.username ∈ (registerClient clients msg).1.map
        ClientInfo.username then errSuccess else errServerError := by
  by_cases known : msg.username ∈ clients.map ClientInfo.username
  · obtain ⟨front, old, back, _, _, result⟩ := registerClient_known known
    have listed : msg.username ∈ (front ++ msg.info :: back).map
        ClientInfo.username :=
      List.mem_map.mpr ⟨msg.info, by simp, rfl⟩
    rw [result]
    exact (if_pos listed).symm
  · rw [registerClient_unknown known]
    by_cases full : clients.length ≥ maxClients
    · rw [if_pos full]
      exact (if_neg known).symm
    · have listed : msg.username ∈ (clients ++ [msg.info]).map
          ClientInfo.username :=
        List.mem_map.mpr ⟨msg.info, by simp, rfl⟩
      rw [if_neg full]
      exact (if_pos listed).symm

/-- The other entries are as they were. -/
theorem mem_registerClient
    (nodup : (clients.map ClientInfo.username).Nodup) {client : ClientInfo}
    (member : client ∈ (registerClient clients msg).1) :
    client = msg.info ∨
      client ∈ clients ∧ client.username ≠ msg.username := by
  by_cases known : msg.username ∈ clients.map ClientInfo.username
  · obtain ⟨front, old, back, rfl, same, result⟩ := registerClient_known known
    rw [result] at member
    simp only [List.map_append, List.map_cons, List.nodup_append,
      List.nodup_cons, List.mem_map, List.mem_cons] at nodup
    obtain ⟨-, ⟨notBehind, -⟩, notBefore⟩ := nodup
    rcases List.mem_append.mp member with before | behind
    · refine .inr ⟨List.mem_append_left _ before, ?_⟩
      rw [← same]
      exact notBefore _ ⟨client, before, rfl⟩ _ (.inl rfl)
    · rcases List.mem_cons.mp behind with here | behind
      · exact .inl here
      · refine .inr ⟨by simp [behind], fun equal => ?_⟩
        exact notBehind ⟨client, behind, equal.trans same.symm⟩
  · have other : client ∈ clients → client.username ≠ msg.username :=
      fun member same => known (List.mem_map.mpr ⟨client, member, same⟩)
    rw [registerClient_unknown known] at member
    split at member
    · exact .inr ⟨member, other member⟩
    · rcases List.mem_append.mp member with member | member
      · exact .inr ⟨member, other member⟩
      · exact .inl (List.mem_singleton.mp member)

end

theorem registeredClients_append (history : List ClientMessage)
    (msg : ClientMessage) :
    registeredClients (history ++ [msg]) =
      (registerClient (registeredClients history) msg).1 :=
  List.foldl_append ..

theorem registeredClients_nodup (history : List ClientMessage) :
    ((registeredClients history).map ClientInfo.username).Nodup := by
  induction history using List.reverseRecOn with
  | nil => exact List.nodup_nil
  | append_singleton history msg ih =>
      rw [registeredClients_append, usernames_registerClient]
      split
      · exact ih
      · rename_i room
        have new := (not_or.mp room).1
        exact List.nodup_append.mpr ⟨ih, by simp, by
          rintro name member _ last rfl
          exact new (List.mem_singleton.mp last ▸ member)⟩

/-- The users of the table are the first ones, in the order of their first
registration. -/
theorem usernames_registeredClients (history : List ClientMessage) :
    (registeredClients history).map ClientInfo.username =
      (history.map ClientMessage.username).eraseDups.take maxClients := by
  induction history using List.reverseRecOn with
  | nil => rfl
  | append_singleton history msg ih =>
      have size : (registeredClients history).length = min maxClients
          (history.map ClientMessage.username).eraseDups.length := by
        rw [← List.length_take, ← ih, List.length_map]
      rw [registeredClients_append, usernames_registerClient, ih,
        List.map_append, List.eraseDups_append]
      by_cases seen : msg.username ∈ history.map ClientMessage.username
      · -- an old user: nothing is added behind the others
        have none : (([msg].map ClientMessage.username).removeAll
            (history.map ClientMessage.username)) = [] := by
          simpa [List.removeAll] using seen
        rw [none, List.eraseDups_nil, List.append_nil, if_pos]
        by_cases full : (registeredClients history).length ≥ maxClients
        · exact .inr full
        · left
          rw [List.take_of_length_le (by omega)]
          exact List.mem_eraseDups.mpr seen
      · have one : (([msg].map ClientMessage.username).removeAll
            (history.map ClientMessage.username)).eraseDups =
              [msg.username] := by
          have kept : (([msg].map ClientMessage.username).removeAll
              (history.map ClientMessage.username)) = [msg.username] := by
            simpa [List.removeAll] using seen
          rw [kept, List.eraseDups_cons, List.filter_nil, List.eraseDups_nil]
        have new : msg.username ∉ (history.map
            ClientMessage.username).eraseDups.take maxClients := fun member =>
          seen (List.mem_eraseDups.mp (List.mem_of_mem_take member))
        rw [one]
        by_cases full : (registeredClients history).length ≥ maxClients
        · rw [if_pos (.inr full), List.take_append_of_le_length (by omega)]
        · rw [if_neg (not_or.mpr ⟨new, full⟩),
            List.take_of_length_le (by omega),
            List.take_of_length_le (by simp; omega)]

/-- Each entry is the one of the last registration of its user. -/
theorem registeredClients_last (history : List ClientMessage)
    {client : ClientInfo} (member : client ∈ registeredClients history) :
    ∃ earlier msg later, history = earlier ++ msg :: later ∧
      msg.info = client ∧
        ∀ other ∈ later, other.username ≠ client.username := by
  induction history using List.reverseRecOn with
  | nil => exact absurd member (List.not_mem_nil)
  | append_singleton history msg ih =>
      rw [registeredClients_append] at member
      rcases mem_registerClient (registeredClients_nodup history) member with
        rfl | ⟨old, different⟩
      · exact ⟨history, msg, [], rfl, rfl, by simp⟩
      · obtain ⟨earlier, first, later, rfl, same, others⟩ := ih old
        refine ⟨earlier, first, later ++ [msg], by simp, same, ?_⟩
        intro other last
        rcases List.mem_append.mp last with last | last
        · exact others other last
        · rw [List.mem_singleton.mp last]
          exact different.symm

/-- After any history of registrations the table holds the first users in the
order of their first registration, each with the address and the time of the
last one.  The next registration is answered with success exactly when its
user is in the table afterwards, and LIST shows the users of the table as far
as the answer has room. -/
theorem client_registrations (history : List ClientMessage) :
    let clients := registeredClients history
    let names := (history.map ClientMessage.username).eraseDups.take maxClients
    clients.map ClientInfo.username = names ∧
      (∀ client ∈ clients, ∃ earlier msg later,
        history = earlier ++ msg :: later ∧ msg.info = client ∧
          ∀ other ∈ later, other.username ≠ client.username) ∧
      (∀ msg,
        ((handleClientRegistration clients msg).2.errorCode = errSuccess ↔
          msg.username ∈ ((history ++ [msg]).map
            ClientMessage.username).eraseDups.take maxClients)) ∧
      (handleListFiles clients).data =
        if history = [] then "No users found".toList
        else ((names.map userRow).flatten).take (maxDataSize - 1) := by
  intro clients names
  have shown := usernames_registeredClients history
  refine ⟨shown, fun client => registeredClients_last history, ?_, ?_⟩
  · intro msg
    rw [← usernames_registeredClients, registeredClients_append]
    change (registerClient clients msg).2 = errSuccess ↔ _
    rw [registerClient_result]
    change (if msg.username ∈ (registerClient clients msg).1.map
      ClientInfo.username then _ else _) = _ ↔ msg.username ∈
        (registerClient clients msg).1.map ClientInfo.username
    split
    · exact ⟨fun _ => ‹_›, fun _ => rfl⟩
    · exact ⟨fun impossible => absurd impossible (by decide),
        fun listed => absurd listed ‹_›⟩
  · rw [handleListFiles]
    have empty : clients.length = 0 ↔ history = [] := by
      rw [← List.length_map ClientInfo.username, shown]
      cases history with
      | nil => exact ⟨fun _ => rfl, fun _ => rfl⟩
      | cons msg history =>
          simp [List.eraseDups_cons, maxClients]
    by_cases none : history = []
    · rw [if_pos (empty.mpr none), if_pos none]
    · rw [if_neg (empty.not.mpr none), if_neg none]
      rw [printRows_buffer _ (by decide), List.nil_append]
      change _ = ((List.take maxClients _).map userRow).flatten.take _
      rw [← shown, List.map_map]
      rfl

end Dfs.NameServer
