import Dfs.Library.Rotation
import Dfs.NameServer.FileLists
import Dfs.NameServer.SystemMoves

/-!
# Choosing storage servers in turn

`get_available_storage_server` searches the registered servers in a circle,
from the one behind the last choice.  It takes turns in the sense of
`Rotation`: as many calls as servers are online choose each of them once, in
the order of the circle, whatever the pattern of servers that are offline.
Whatever requests and registrations come between the calls, the index stays
within the servers.
-/

namespace Dfs.NameServer

open Dfs.StorageServer

/-- The index of the next search is that of a server, if there is one. -/
def IndexInRange (nm : NmState) : Prop :=
  nm.nextSsIndex = 0 ∨ nm.nextSsIndex < nm.storageServers.length

theorem IndexInRange.lt {nm : NmState} (inRange : IndexInRange nm)
    (inhabited : 0 < nm.storageServers.length) :
    nm.nextSsIndex < nm.storageServers.length := by
  rcases inRange with first | inside
  · rw [first]
    exact inhabited
  · exact inside

/-- The id of the server at this position. -/
def ssIdAt (nm : NameServerState) (server : Nat) : Int :=
  (nm.storageServers[server]?.map (·.ssId)).getD (-1)

/-- The servers in the order of the next search. -/
def searchOrder (nm : NmState) : List Nat :=
  Rotation.places nm.storageServers.length nm.nextSsIndex

/-- A call makes the turn of the circle of servers. -/
theorem getAvailableStorageServer_eq (nm : NmState) :
    getAvailableStorageServer nm =
      match Rotation.turn (isOnline nm.toNameServerState) (searchOrder nm) with
      | none => (nm, -1)
      | some (current, _) =>
          ({ nm with
              nextSsIndex := (current + 1) % nm.storageServers.length },
            ssIdAt nm.toNameServerState current) := by
  unfold searchOrder
  rw [Rotation.turn_places]
  unfold getAvailableStorageServer
  cases found : (List.range nm.storageServers.length).find? fun step =>
      isOnline nm.toNameServerState
        ((nm.nextSsIndex + step) % nm.storageServers.length) with
  | none => simp [found]
  | some step =>
      have inside : step < nm.storageServers.length :=
        List.mem_range.mp (List.mem_of_find?_eq_some found)
      have current : (nm.nextSsIndex + step) % nm.storageServers.length <
          nm.storageServers.length :=
        Nat.mod_lt _ (Nat.zero_lt_of_lt inside)
      simp [found, ssIdAt, List.getElem?_eq_getElem current]

/-- The circle behind the server that was chosen. -/
theorem searchOrder_choose {nm : NmState} {current : Nat} {next : List Nat}
    (taken : Rotation.turn (isOnline nm.toNameServerState) (searchOrder nm) =
      some (current, next)) :
    searchOrder (getAvailableStorageServer nm).1 = next := by
  rw [getAvailableStorageServer_eq, taken]
  unfold searchOrder at taken ⊢
  rw [Rotation.turn_places] at taken
  obtain ⟨step, _, same⟩ := Option.map_eq_some_iff.mp taken
  cases same
  rfl

theorem storageServers_choose (nm : NmState) :
    (getAvailableStorageServer nm).1.toNameServerState =
      nm.toNameServerState := by
  rw [getAvailableStorageServer_eq]
  split
  · rfl
  · rfl

theorem indexInRange_choose {nm : NmState} (inRange : IndexInRange nm) :
    IndexInRange (getAvailableStorageServer nm).1 := by
  rw [getAvailableStorageServer_eq]
  split
  · exact inRange
  · rename_i current next taken
    by_cases empty : nm.storageServers.length = 0
    · simp [searchOrder, Rotation.places, empty, Rotation.turn] at taken
    · exact .inr (Nat.mod_lt _ (Nat.pos_of_ne_zero empty))

/-- Calls in a row, with the ids they return. -/
def placements : Nat → NmState → NmState × List Int
  | 0, nm => (nm, [])
  | count + 1, nm =>
      let (nm, ssId) := getAvailableStorageServer nm
      let (nm, ssIds) := placements count nm
      (nm, ssId :: ssIds)

theorem placements_succ (count : Nat) (nm : NmState) :
    placements (count + 1) nm =
      ((placements count (getAvailableStorageServer nm).1).1,
        (getAvailableStorageServer nm).2 ::
          (placements count (getAvailableStorageServer nm).1).2) :=
  rfl

/-- The calls change the index and nothing else. -/
theorem placements_keep (count : Nat) (nm : NmState) :
    (placements count nm).1.toNameServerState = nm.toNameServerState ∧
      (IndexInRange nm → IndexInRange (placements count nm).1) := by
  induction count generalizing nm with
  | zero => exact ⟨rfl, id⟩
  | succ count ih =>
      obtain ⟨servers, inRange⟩ := ih (getAvailableStorageServer nm).1
      rw [placements_succ]
      exact ⟨servers.trans (storageServers_choose nm),
        fun before => inRange (indexInRange_choose before)⟩

/-- While a server is online, the calls take turns. -/
theorem placements_eq_turns {nm : NmState} (count : Nat)
    (someone : ∃ server ∈ searchOrder nm,
      isOnline nm.toNameServerState server = true) :
    (placements count nm).2 =
      (Rotation.turns (isOnline nm.toNameServerState) count
        (searchOrder nm)).map (ssIdAt nm.toNameServerState) := by
  induction count generalizing nm with
  | zero => rfl
  | succ count ih =>
      rw [placements_succ, Rotation.turns]
      cases taken : Rotation.turn (isOnline nm.toNameServerState)
          (searchOrder nm) with
      | none =>
          obtain ⟨server, member, online⟩ := someone
          rw [Rotation.turn_eq_none_iff.mp taken server member] at online
          cases online
      | some result =>
          obtain ⟨current, next⟩ := result
          have servers := storageServers_choose nm
          have order := searchOrder_choose taken
          have result : (getAvailableStorageServer nm).2 =
              ssIdAt nm.toNameServerState current := by
            rw [getAvailableStorageServer_eq, taken]
          have still : ∃ server ∈ searchOrder
              (getAvailableStorageServer nm).1,
                isOnline (getAvailableStorageServer nm).1.toNameServerState
                  server = true := by
            obtain ⟨server, member, online⟩ := someone
            refine ⟨server, ?_, by rw [servers]; exact online⟩
            have here := (Rotation.places_perm _ _).mem_iff.mp member
            apply (Rotation.places_perm _ _).mem_iff.mpr
            rwa [servers]
          have later := ih still
          rw [servers, order] at later
          simp [result, later]

/-- The ids of the servers that are online. -/
def onlineIds (nm : NameServerState) : List Int :=
  (nm.storageServers.filter fun ss => ss.status = .online).map (·.ssId)

/-- The ids of the servers that are online, in the order of the next
search. -/
def onlineOrder (nm : NmState) : List Int :=
  ((searchOrder nm).filter (isOnline nm.toNameServerState)).map
    (ssIdAt nm.toNameServerState)

/-- Choosing from a list is choosing from its positions. -/
private theorem map_filter_positions {α β : Type} (items : List α)
    (keep : α → Bool) (read : α → β) (other : β) :
    ((List.range items.length).filter fun place =>
        items[place]?.any keep).map
      (fun place => (items[place]?.map read).getD other) =
        (items.filter keep).map read := by
  induction items with
  | nil => rfl
  | cons item items ih =>
      rw [List.length_cons, List.range_succ_eq_map, List.filter_cons,
        List.filter_map, List.filter_cons]
      cases kept : keep item with
      | true => simpa [kept, Function.comp_def] using ih
      | false => simpa [kept, Function.comp_def] using ih

theorem onlineIds_eq (nm : NameServerState) :
    onlineIds nm =
      ((List.range nm.storageServers.length).filter (isOnline nm)).map
        (ssIdAt nm) := by
  have online : isOnline nm = fun server =>
      nm.storageServers[server]?.any fun ss => ss.status = .online := by
    funext server
    unfold isOnline
    cases nm.storageServers[server]? with
    | none => rfl
    | some ss => rfl
  rw [online]
  exact (map_filter_positions nm.storageServers _ _ (-1)).symm

theorem onlineOrder_perm (nm : NmState) :
    (onlineOrder nm).Perm (onlineIds nm.toNameServerState) := by
  rw [onlineIds_eq]
  exact ((Rotation.places_perm _ _).filter _).map _

/-- The ids of distinct servers are listed once. -/
theorem onlineIds_nodup {nm : NameServerState}
    (distinct : (nm.storageServers.map (·.ssId)).Nodup) :
    (onlineIds nm).Nodup :=
  distinct.sublist (List.filter_sublist.map _)

/-- As many calls as servers are online return their ids in order. -/
theorem placements_around {nm : NmState}
    (someone : onlineIds nm.toNameServerState ≠ []) :
    (placements (onlineIds nm.toNameServerState).length nm).2 =
      onlineOrder nm := by
  have perm := onlineOrder_perm nm
  have counted : ((searchOrder nm).filter
      (isOnline nm.toNameServerState)).length =
        (onlineIds nm.toNameServerState).length := by
    rw [← perm.length_eq, onlineOrder, List.length_map]
  have online : ∃ server ∈ searchOrder nm,
      isOnline nm.toNameServerState server = true := by
    have inhabited : (searchOrder nm).filter
        (isOnline nm.toNameServerState) ≠ [] := by
      intro empty
      rw [empty, List.length_nil] at counted
      exact someone (List.length_eq_zero_iff.mp counted.symm)
    obtain ⟨server, member⟩ := List.exists_mem_of_ne_nil _ inhabited
    exact ⟨server, List.mem_filter.mp member⟩
  rw [placements_eq_turns _ online, ← counted, Rotation.turns_circle]
  rfl

theorem choose_of_offline {nm : NmState}
    (offline : onlineIds nm.toNameServerState = []) :
    getAvailableStorageServer nm = (nm, -1) := by
  have perm := onlineOrder_perm nm
  rw [offline, List.perm_nil, onlineOrder, List.map_eq_nil_iff,
    List.filter_eq_nil_iff] at perm
  have idle : Rotation.turn (isOnline nm.toNameServerState)
      (searchOrder nm) = none :=
    Rotation.turn_eq_none_iff.mpr fun server member => by
      simpa using perm server member
  rw [getAvailableStorageServer_eq, idle]

theorem length_of_addresses {nm other : NameServerState}
    (same : addresses other = addresses nm) :
    other.storageServers.length = nm.storageServers.length := by
  have lengths := congrArg List.length same
  simpa [addresses] using lengths

theorem length_addFileToServer (now : Int) (nm : NameServerState)
    (ssId : Int) (filename : Filename) (owner : Username) :
    (addFileToServer now nm ssId filename owner).1.storageServers.length =
      nm.storageServers.length := by
  rcases addFileToServer_cases now nm ssId filename owner with
    ⟨result, _, same, _⟩ | ⟨server, ss, _, _, _, _, added⟩
  · rw [same]
  · rw [added]
    exact length_of_addresses (addresses_appendFile _)

theorem length_removeFileFromServer (nm : NameServerState) (ssId : Int)
    (filename : Filename) :
    (removeFileFromServer nm ssId filename).1.storageServers.length =
      nm.storageServers.length := by
  rcases removeFileFromServer_cases nm ssId filename with
    ⟨result, _, same, _⟩ | ⟨server, ss, slot, _, _, _, removed⟩
  · rw [same]
  · rw [removed]
    exact length_of_addresses addresses_dropSlot

theorem length_moveFile (nm : NameServerState) (filename : Filename)
    (targetPath : PathText) :
    (moveFile nm filename targetPath).storageServers.length =
      nm.storageServers.length := by
  unfold moveFile
  split
  · rfl
  · simp [hashInsertFile, hashRemoveFile, modifyServer]

theorem length_registerFiles (now ssId : Int) (server : Nat)
    (tokens : List Text) (nm : NameServerState) :
    (registerFiles now ssId server nm tokens).storageServers.length =
      nm.storageServers.length := by
  induction tokens generalizing nm with
  | nil => rfl
  | cons token tokens ih =>
      unfold registerFiles
      split
      · rfl
      · split
        · rw [ih]
          exact length_of_addresses (addresses_appendFile _)
        · rfl

theorem length_registerStorageServer (now : Int) (nm : NameServerState)
    (msg : RegisterMessage) :
    nm.storageServers.length ≤
      (registerStorageServer now nm msg).1.storageServers.length := by
  unfold registerStorageServer
  split
  · simp [modifyServer]
  · split
    · exact Nat.le_refl _
    · simp [length_registerFiles]

/-- A state with the same index and at least as many servers. -/
theorem IndexInRange.grow {nm other : NmState} (inRange : IndexInRange nm)
    (index : other.nextSsIndex = nm.nextSsIndex)
    (servers : nm.storageServers.length ≤ other.storageServers.length) :
    IndexInRange other := by
  unfold IndexInRange at inRange ⊢
  omega

theorem indexInRange_register {sys : System} (inRange : IndexInRange sys.nm)
    (now : Int) (msg : RegisterMessage) :
    IndexInRange (sys.register now msg).nm :=
  inRange.grow rfl (length_registerStorageServer now _ msg)

theorem indexInRange_moves : SystemMoves fun before after =>
    IndexInRange before.nm → IndexInRange after.nm where
  refl := fun _ => id
  trans := fun first second => second ∘ first
  deliver := fun _ _ _ _ => id
  choose := fun _ => indexInRange_choose
  addFile := fun _ now ssId filename owner inRange =>
    inRange.grow rfl
      (length_addFileToServer now _ ssId filename owner).ge
  removeFile := fun _ ssId filename inRange =>
    inRange.grow rfl (length_removeFileFromServer _ ssId filename).ge
  moveRecord := fun _ filename targetPath inRange =>
    inRange.grow rfl (length_moveFile _ filename targetPath).ge
  setCache := fun _ _ => id
  setRequests := fun _ _ => id

/-- What happens at the name server: a step of CREATE, DELETE or GET_SS_INFO,
a registration, or another request. -/
inductive ServerEvent where
  | thread (event : ThreadEvent)
  | request (call : Call)

def serverStep (threads : Threads) : ServerEvent → Threads
  | .thread event => threadStep threads event
  | .request call => { threads with sys := callStep threads.sys call }

theorem indexInRange_serverStep {threads : Threads}
    (inRange : IndexInRange threads.sys.nm) (event : ServerEvent) :
    IndexInRange (serverStep threads event).sys.nm := by
  cases event with
  | thread event =>
      cases event with
      | step thread input =>
          exact indexInRange_moves.toFileMoves.taskStep threads.sys input
            (threads.tasks thread) inRange
      | register now msg => exact indexInRange_register inRange now msg
  | request call =>
      exact indexInRange_moves.callStep threads.sys call inRange

/-- The name server after these events, from its start. -/
def reachedState (hosts : Hosts) (tasks : Nat → Task)
    (events : List ServerEvent) : NmState :=
  (StepRun.run serverStep { sys := initSystem hosts, tasks := tasks }
    events).sys.nm

theorem indexInRange_reachedState (hosts : Hosts) (tasks : Nat → Task)
    (events : List ServerEvent) :
    IndexInRange (reachedState hosts tasks events) :=
  @StepRun.invariant _ _ serverStep (fun _ _ => True)
    (fun threads => IndexInRange threads.sys.nm)
    (fun _ event inRange _ => indexInRange_serverStep inRange event)
    { sys := initSystem hosts, tasks := tasks } events (.inl rfl)
    (StepRun.allSteps_of_forall (fun _ _ => trivial) _ _)

/-- In every window of as many calls as servers are online each of them is
chosen once, in the order of the circle. -/
structure TakesTurns (nm : NmState) : Prop where
  order : (placements (onlineIds nm.toNameServerState).length nm).2 =
    onlineOrder nm
  everyone : (onlineOrder nm).Perm (onlineIds nm.toNameServerState)
  once : (onlineOrder nm).Nodup

/-- The index of the next search is in range in every reachable state and
after every registration.  From every state with distinct ids and an index in
range, any window of calls takes turns among the servers online; without one a
call returns -1 and changes nothing. -/
theorem round_robin :
    (∀ (hosts : Hosts) (tasks : Nat → Task) (events : List ServerEvent),
      0 < (reachedState hosts tasks events).storageServers.length →
      (reachedState hosts tasks events).nextSsIndex <
        (reachedState hosts tasks events).storageServers.length) ∧
    (∀ (sys : System) (now : Int) (msg : RegisterMessage),
      sys.nm.nextSsIndex < sys.nm.storageServers.length →
      (sys.register now msg).nm.nextSsIndex <
        (sys.register now msg).nm.storageServers.length) ∧
    ∀ nm : NmState, (nm.storageServers.map (·.ssId)).Nodup →
      nm.nextSsIndex < nm.storageServers.length →
      (∀ before, (placements before nm).1.nextSsIndex <
          nm.storageServers.length ∧
        (placements before nm).1.storageServers = nm.storageServers) ∧
      (onlineIds nm.toNameServerState ≠ [] →
        ∀ before, TakesTurns (placements before nm).1) ∧
      (onlineIds nm.toNameServerState = [] →
        getAvailableStorageServer nm = (nm, -1)) := by
  refine ⟨?_, ?_, ?_⟩
  · intro hosts tasks events inhabited
    exact (indexInRange_reachedState hosts tasks events).lt inhabited
  · intro sys now msg inside
    have grown := length_registerStorageServer now sys.nm.toNameServerState
      msg
    exact (indexInRange_register (.inr inside) now msg).lt
      (Nat.lt_of_lt_of_le (Nat.zero_lt_of_lt inside) grown)
  · intro nm distinct inside
    refine ⟨fun before => ?_, fun someone before => ?_, choose_of_offline⟩
    · obtain ⟨same, inRange⟩ := placements_keep before nm
      have servers := congrArg NameServerState.storageServers same
      have still := inRange (.inr inside)
      unfold IndexInRange at still
      rw [servers] at still
      exact ⟨by omega, servers⟩
    · obtain ⟨same, _⟩ := placements_keep before nm
      rw [← same] at someone distinct
      exact ⟨placements_around someone, onlineOrder_perm _,
        (onlineOrder_perm _).nodup_iff.mpr (onlineIds_nodup distinct)⟩

private def sampleServer (ssId : Int) (status : SsStatus) :
    StorageServerInfo :=
  { ssId := ssId
    ip := CString.copy 15 []
    nmPort := 0
    clientPort := 0
    status := status
    files := fun _ => zeroedFile
    fileCount := 0 }

/-- Three servers, the second of them offline and next in turn. -/
private def threeServers : System :=
  { initSystem freshHosts with
    nm :=
      { (initSystem freshHosts).nm with
        storageServers :=
          [sampleServer 1 .online, sampleServer 2 .offline,
            sampleServer 3 .online]
        nextSsIndex := 1 } }

private def fourthServer : RegisterMessage :=
  ⟨4, CString.copy 15 [], 0, 0, CString.copy 4095 []⟩

private def idleTasks : Nat → Task :=
  fun _ => .getSsInfo (CString.copy 255 []) .start

theorem round_robin_two_of_three :
    (reachedState freshHosts idleTasks
        [.thread (.register 0 fourthServer)]).nextSsIndex <
      (reachedState freshHosts idleTasks
        [.thread (.register 0 fourthServer)]).storageServers.length ∧
    (threeServers.register 0 fourthServer).nm.nextSsIndex <
      (threeServers.register 0 fourthServer).nm.storageServers.length ∧
    (placements 2 threeServers.nm).2 = [3, 1] := by
  obtain ⟨reachable, registered, calls⟩ := round_robin
  have fair := (calls threeServers.nm (by decide) (by decide)).2.1
    (by decide) 0
  exact ⟨reachable freshHosts idleTasks _ (by decide),
    registered threeServers 0 fourthServer (by decide),
    fair.order.trans (by decide)⟩

end Dfs.NameServer
