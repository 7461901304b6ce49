import Dfs.NameServer.ClientHandlers
import Dfs.NameServer.FileLists

/-!
# Where the index says a file is

A removal moves cells, so that a pointer of the index may come to lead to the
record of another file.  It still leads into the array of the right server,
and every record there carries the id of that server.  So the location of a
file can be trusted as long as the index has as many pointers to a server as
its list has entries of the name.
-/

namespace Dfs.NameServer

/-- The storage server that a file is said to be on. -/
def location (nm : NameServerState) (filename : Filename) : Option Int :=
  (findRecord nm filename).map (·.ssId)

/-- A file that has a location keeps it. -/
def KeepsLocations (before after : NameServerState) : Prop :=
  ∀ filename ssId, location before filename = some ssId →
    location after filename = some ssId

theorem KeepsLocations.trans {first second third : NameServerState}
    (left : KeepsLocations first second)
    (right : KeepsLocations second third) : KeepsLocations first third :=
  fun filename ssId located =>
    right filename ssId (left filename ssId located)

/-- Every pointer leads into the array of its server, whose cells in use carry
the id of the server, and the pointers to a server are as many as its entries
of the name. -/
structure Placed (nm : NameServerState) : Prop where
  pointed : ∀ filename, ∀ file ∈ nm.fileIndex.stack hashFilename filename,
    ∃ ss, nm.storageServers[file.server]? = some ss ∧
      (ss.files file.slot).ssId = ss.ssId
  live : ∀ (server : Nat) (ss : StorageServerInfo),
    nm.storageServers[server]? = some ss →
    ∀ slot < ss.fileCount, (ss.files slot).ssId = ss.ssId
  counted : ∀ filename server,
    (nm.fileIndex.stack hashFilename filename).countP
        (fun file => file.server = server) =
      ((serverFiles nm server).map (·.filename)).count filename

namespace Placed

variable {nm : NameServerState} {filename : Filename} {server : Nat}
  {ss : StorageServerInfo}

/-- The location of a file is the id of the server that its pointer leads
to. -/
theorem location_eq (placed : Placed nm) (filename : Filename) :
    location nm filename =
      (nm.fileIndex.stack hashFilename filename).head?.bind fun file =>
        (addresses nm)[file.server]?.map (·.1) := by
  rw [location, findRecord, findFile, hashFindFile,
    ChainedIndex.find_eq_head?]
  cases top : (nm.fileIndex.stack hashFilename filename).head? with
  | none => rfl
  | some file =>
      obtain ⟨ss, found, owned⟩ := placed.pointed filename file
        (List.mem_of_head? top)
      simp [readFile, found, owned, addresses, StorageServerInfo.address]

theorem location_congr {other : NameServerState} (placed : Placed nm)
    (placed' : Placed other)
    (stack : other.fileIndex.stack hashFilename filename =
      nm.fileIndex.stack hashFilename filename)
    (servers : addresses other = addresses nm) :
    location other filename = location nm filename := by
  rw [placed.location_eq, placed'.location_eq, stack, servers]

/-- The index and the ids of the servers decide where a file is. -/
theorem keepsLocations {other : NameServerState} (placed : Placed nm)
    (placed' : Placed other) (index : other.fileIndex = nm.fileIndex)
    (ids : ∀ (place : Nat) ssId, (addresses nm)[place]?.map (·.1) = some ssId →
      (addresses other)[place]?.map (·.1) = some ssId) :
    KeepsLocations nm other := by
  intro filename ssId known
  rw [placed.location_eq] at known
  rw [placed'.location_eq, index]
  obtain ⟨file, top, address⟩ := Option.bind_eq_some_iff.mp known
  rw [top, Option.bind_some]
  exact ids file.server ssId address

/-- One server is changed, and its cells keep carrying its id. -/
theorem pointed_of_cells {after : NameServerState}
    {next : StorageServerInfo} (found : nm.storageServers[server]? = some ss)
    (changed : ∀ place : Nat, after.storageServers[place]? =
      if place = server then some next else nm.storageServers[place]?)
    (cells : ∀ cell, (ss.files cell).ssId = ss.ssId →
      (next.files cell).ssId = next.ssId)
    {pointer : FilePtr}
    (before : ∃ ss, nm.storageServers[pointer.server]? = some ss ∧
      (ss.files pointer.slot).ssId = ss.ssId) :
    ∃ ss, after.storageServers[pointer.server]? = some ss ∧
      (ss.files pointer.slot).ssId = ss.ssId := by
  obtain ⟨owner, located, owned⟩ := before
  rw [changed]
  by_cases here : pointer.server = server
  · rw [if_pos here]
    rw [here, found] at located
    cases located
    exact ⟨next, rfl, cells _ owned⟩
  · rw [if_neg here]
    exact ⟨owner, located, owned⟩

theorem appendFile (placed : Placed nm)
    (found : nm.storageServers[server]? = some ss) {file : FileInfo}
    (owned : file.ssId = ss.ssId) : Placed (appendFile nm server file) := by
  -- Only the first dead cell of this server is written.
  have cells : ∀ slot, (ss.files slot).ssId = ss.ssId →
      (Function.update ss.files ss.fileCount file slot).ssId = ss.ssId := by
    intro slot before
    by_cases last : slot = ss.fileCount
    · simp [last, owned]
    · rwa [Function.update_of_ne last]
  refine ⟨?_, ?_, ?_⟩
  · intro other pointer member
    rw [fileIndex_appendFile found] at member
    by_cases same : other = file.filename
    · subst same
      rw [ChainedIndex.stack_insert_self, List.mem_cons] at member
      rcases member with new | old
      · subst new
        rw [getElem?_appendFile found, if_pos rfl]
        exact ⟨_, rfl, by simp [owned]⟩
      · exact pointed_of_cells found (getElem?_appendFile found file) cells
          (placed.pointed _ pointer old)
    · rw [ChainedIndex.stack_insert_of_ne _ _ same] at member
      exact pointed_of_cells found (getElem?_appendFile found file) cells
        (placed.pointed _ pointer member)
  · intro place owner located slot bound
    rw [getElem?_appendFile found] at located
    by_cases here : place = server
    · rw [if_pos here] at located
      cases located
      by_cases last : slot = ss.fileCount
      · simp [last, owned]
      · have inside : slot < ss.fileCount := by
          simp only at bound
          omega
        exact cells slot (placed.live server ss found slot inside)
    · rw [if_neg here] at located
      exact placed.live place owner located slot bound
  · intro other place
    rw [fileIndex_appendFile found, serverFiles_appendFile found]
    by_cases same : other = file.filename
    · subst same
      rw [ChainedIndex.stack_insert_self, List.countP_cons, placed.counted]
      by_cases here : place = server
      · simp [here]
      · simp [here, Ne.symm here]
    · rw [ChainedIndex.stack_insert_of_ne _ _ same, placed.counted]
      by_cases here : place = server
      · simp [here, Ne.symm same]
      · simp [here]

/-- A removal is in order when the pointer it unlinks leads to the server of
the entry it erases. -/
theorem dropSlot (placed : Placed nm)
    (found : nm.storageServers[server]? = some ss) {slot : Nat}
    (inSlot : findSlot ss filename = some slot)
    (unlinked : ∀ file, findFile nm filename = some file →
      file.server = server) :
    Placed (dropSlot nm filename server slot) := by
  -- A cell keeps its record or gets that of a live cell.
  have cells : ∀ cell, (ss.files cell).ssId = ss.ssId →
      ((shiftFiles ss slot).files cell).ssId = ss.ssId := by
    intro cell before
    simp only [shiftFiles]
    split
    · rename_i moved
      exact placed.live server ss found _ moved.2
    · exact before
  refine ⟨?_, ?_, ?_⟩
  · intro other pointer member
    have before : pointer ∈ nm.fileIndex.stack hashFilename other := by
      rw [fileIndex_dropSlot] at member
      by_cases same : other = filename
      · subst same
        rw [ChainedIndex.stack_remove_self] at member
        exact List.mem_of_mem_tail member
      · rwa [ChainedIndex.stack_remove_of_ne _ _ same] at member
    exact pointed_of_cells found (getElem?_dropSlot found) cells
      (placed.pointed other pointer before)
  · intro place owner located cell bound
    rw [getElem?_dropSlot found] at located
    by_cases here : place = server
    · rw [if_pos here] at located
      cases located
      have inside : cell < ss.fileCount := by
        simp only [shiftFiles] at bound
        omega
      exact cells cell (placed.live server ss found cell inside)
    · rw [if_neg here] at located
      exact placed.live place owner located cell bound
  · intro other place
    rw [fileIndex_dropSlot, serverFiles_dropSlot found inSlot]
    by_cases same : other = filename
    · subst same
      have before := placed.counted other place
      rw [ChainedIndex.stack_remove_self]
      rw [findFile, hashFindFile, ChainedIndex.find_eq_head?] at unlinked
      cases stack : nm.fileIndex.stack hashFilename other with
      | nil =>
          rw [stack, List.countP_nil] at before
          by_cases here : place = server
          · rw [if_pos here, names_eraseP, List.count_erase_self, ← here,
              ← before]
            rfl
          · rw [if_neg here, ← before]
            rfl
      | cons first rest =>
          rw [stack] at before unlinked
          have own := unlinked first rfl
          rw [List.countP_cons, own] at before
          by_cases here : place = server
          · rw [if_pos here, names_eraseP, List.count_erase_self, ← here,
              ← before]
            simp [here]
          · rw [if_neg here, ← before]
            simp [Ne.symm here]
    · rw [ChainedIndex.stack_remove_of_ne _ _ same, placed.counted]
      by_cases here : place = server
      · rw [if_pos here, names_eraseP, List.count_erase_of_ne same, here]
      · rw [if_neg here]

theorem registerFiles (placed : Placed nm) (now ssId : Int)
    (tokens : List Text)
    (owned : ∀ ss, nm.storageServers[server]? = some ss → ss.ssId = ssId) :
    Placed (registerFiles now ssId server nm tokens) := by
  induction tokens generalizing nm with
  | nil => exact placed
  | cons token tokens ih =>
      cases found : nm.storageServers[server]? with
      | none => simpa [NameServer.registerFiles, found] using placed
      | some ss =>
          by_cases room : ss.fileCount < maxFilesPerServer
          · have appended := placed.appendFile found
              (by exact (owned ss found).symm :
                (parseFileEntry now ssId token).ssId = ss.ssId)
            have still := ssId_appendFile (parseFileEntry now ssId token)
              found (owned ss found)
            simpa [NameServer.registerFiles, found, room] using
              ih appended still
          · simpa [NameServer.registerFiles, found, room] using placed

/-- A server that comes back keeps its list. -/
theorem refresh (placed : Placed nm) (server : Nat)
    (change : StorageServerInfo → StorageServerInfo)
    (kept : ∀ ss, (change ss).ssId = ss.ssId ∧ (change ss).files = ss.files ∧
      (change ss).fileCount = ss.fileCount) :
    Placed (modifyServer nm server change) := by
  have servers : ∀ place : Nat, ∃ next : StorageServerInfo → StorageServerInfo,
      (∀ ss, (next ss).ssId = ss.ssId ∧ (next ss).files = ss.files ∧
        (next ss).fileCount = ss.fileCount) ∧
      (modifyServer nm server change).storageServers[place]? =
        nm.storageServers[place]?.map next := by
    intro place
    by_cases here : server = place
    · exact ⟨change, kept, by simp [modifyServer, here]⟩
    · exact ⟨id, fun _ => ⟨rfl, rfl, rfl⟩, by simp [modifyServer, here]⟩
  refine ⟨?_, ?_, ?_⟩
  · intro filename file member
    obtain ⟨ss, found, owned⟩ := placed.pointed filename file member
    obtain ⟨next, same, located⟩ := servers file.server
    obtain ⟨ssId, files, -⟩ := same ss
    refine ⟨next ss, by rw [located, found]; rfl, ?_⟩
    rw [ssId, files]
    exact owned
  · intro place ss located slot bound
    obtain ⟨next, same, modified⟩ := servers place
    rw [modified] at located
    obtain ⟨before, found, rfl⟩ := Option.map_eq_some_iff.mp located
    obtain ⟨ssId, files, fileCount⟩ := same before
    rw [fileCount] at bound
    rw [ssId, files]
    exact placed.live place before found slot bound
  · intro filename place
    obtain ⟨next, same, modified⟩ := servers place
    have listed : serverFiles (modifyServer nm server change) place =
        serverFiles nm place := by
      rw [serverFiles, serverFiles, modified]
      cases nm.storageServers[place]? with
      | none => rfl
      | some ss =>
          obtain ⟨-, files, fileCount⟩ := same ss
          simp [liveFiles, files, fileCount]
    rw [listed]
    exact placed.counted filename place

theorem addServer (placed : Placed nm) {added : StorageServerInfo}
    (empty : added.fileCount = 0) :
    Placed { nm with storageServers := nm.storageServers ++ [added] } := by
  refine ⟨?_, ?_, ?_⟩
  · intro filename file member
    obtain ⟨ss, found, owned⟩ := placed.pointed filename file member
    have old := (List.getElem?_eq_some_iff.mp found).1
    exact ⟨ss, by rw [List.getElem?_append_left old]; exact found, owned⟩
  · intro place ss located slot bound
    by_cases old : place < nm.storageServers.length
    · rw [List.getElem?_append_left old] at located
      exact placed.live place ss located slot bound
    · rw [List.getElem?_append_right (Nat.le_of_not_lt old)] at located
      rw [List.mem_singleton.mp (List.mem_of_getElem? located), empty] at bound
      exact (Nat.not_lt_zero slot bound).elim
  · intro filename place
    have listed : serverFiles
        { nm with storageServers := nm.storageServers ++ [added] } place =
        serverFiles nm place := by
      by_cases old : place < nm.storageServers.length
      · rw [serverFiles, serverFiles, List.getElem?_append_left old]
      · have past := Nat.le_of_not_lt old
        rw [serverFiles, serverFiles, List.getElem?_append_right past,
          List.getElem?_eq_none past]
        cases place - nm.storageServers.length with
        | zero => simp [liveFiles, empty]
        | succ _ => simp
    rw [listed]
    exact placed.counted filename place

theorem registerStorageServer (placed : Placed nm) (now : Int)
    (msg : RegisterMessage) :
    Placed (registerStorageServer now nm msg).1 := by
  unfold NameServer.registerStorageServer
  split
  · exact placed.refresh _ _ fun _ => ⟨rfl, rfl, rfl⟩
  · split
    · exact placed
    · apply (placed.addServer rfl).registerFiles
      intro ss located
      simp at located
      rw [← located]

end Placed

theorem placed_initNameServer : Placed initNameServer := by
  refine ⟨?_, ?_, ?_⟩
  · intro filename file member
    cases member
  · intro server ss found
    cases found
  · intro filename server
    rfl

structure Settled (nm : NameServerState) : Prop where
  placed : Placed nm
  single : ∀ filename,
    (nm.fileIndex.stack hashFilename filename).length ≤ 1

theorem stack_eq_nil_iff {nm : NameServerState} {filename : Filename} :
    nm.fileIndex.stack hashFilename filename = [] ↔
      findFile nm filename = none := by
  rw [findFile, hashFindFile, ChainedIndex.find_eq_head?,
    List.head?_eq_none_iff]

theorem location_of_unknown {nm : NameServerState} {filename : Filename}
    (unknown : findFile nm filename = none) : location nm filename = none := by
  simp [location, findRecord, unknown]

namespace Settled

variable {nm : NameServerState} {filename : Filename} {server : Nat}
  {ss : StorageServerInfo}

/-- A new name gets its place and moves nobody else. -/
theorem appendFile (settled : Settled nm)
    (found : nm.storageServers[server]? = some ss) {file : FileInfo}
    (owned : file.ssId = ss.ssId)
    (unknown : findFile nm file.filename = none) :
    Settled (appendFile nm server file) ∧
      KeepsLocations nm (NameServer.appendFile nm server file) := by
  have placed := settled.placed.appendFile found owned
  have empty := stack_eq_nil_iff.mpr unknown
  refine ⟨⟨placed, ?_⟩, ?_⟩
  · intro other
    rw [fileIndex_appendFile found]
    by_cases same : other = file.filename
    · subst same
      rw [ChainedIndex.stack_insert_self, empty]
      exact Nat.le_refl 1
    · rw [ChainedIndex.stack_insert_of_ne _ _ same]
      exact settled.single other
  · intro other ssId known
    have different : other ≠ file.filename := by
      intro same
      rw [same, location_of_unknown unknown] at known
      cases known
    rw [← known]
    apply settled.placed.location_congr placed
    · rw [fileIndex_appendFile found]
      exact ChainedIndex.stack_insert_of_ne _ _ different _
    · exact addresses_appendFile file

theorem addFile (settled : Settled nm) {now ssId : Int} {owner : Username}
    (unknown : findFile nm filename = none ∨
      (addFileToServer now nm ssId filename owner).2 ≠ errSuccess) :
    Settled (addFileToServer now nm ssId filename owner).1 ∧
      KeepsLocations nm (addFileToServer now nm ssId filename owner).1 := by
  rcases addFileToServer_cases now nm ssId filename owner with
    ⟨result, -, refused, -⟩ | ⟨server, ss, known, found, -, -, added⟩
  · rw [refused]
    exact ⟨settled, fun _ _ located => located⟩
  · rw [added] at unknown ⊢
    have owned : ss.ssId = ssId := by
      have first := List.findIdx?_eq_some_iff_getElem.mp known
      obtain ⟨bound, same, -⟩ := first
      rw [List.getElem?_eq_getElem bound] at found
      cases found
      simpa using same
    exact settled.appendFile found (by exact owned.symm)
      (unknown.resolve_right fun failed => failed rfl)

/-- An entry of a list is the only place of its name. -/
theorem removeFile (settled : Settled nm) (ssId : Int)
    (filename : Filename) :
    Settled (removeFileFromServer nm ssId filename).1 ∧
      ∀ other, other ≠ filename →
        location (removeFileFromServer nm ssId filename).1 other =
          location nm other := by
  rcases removeFileFromServer_cases nm ssId filename with
    ⟨result, -, unchanged, -⟩ | ⟨server, ss, slot, -, found, inSlot, dropped⟩
  · rw [unchanged]
    exact ⟨settled, fun _ _ => rfl⟩
  · rw [dropped]
    have own : ∀ file, findFile nm filename = some file →
        file.server = server := by
      intro file indexed
      have listed : filename ∈ (serverFiles nm server).map (·.filename) := by
        rw [serverFiles_of_getElem? found]
        exact findSlot_isSome_iff.mp (by simp [inSlot])
      have counted := settled.placed.counted filename server
      have short := settled.single filename
      rw [findFile, hashFindFile, ChainedIndex.find_eq_head?] at indexed
      obtain ⟨rest, stack⟩ := List.head?_eq_some_iff.mp indexed
      rw [stack, List.length_cons] at short
      have alone : rest = [] := List.length_eq_zero_iff.mp (by omega)
      by_contra elsewhere
      rw [stack, alone] at counted
      have absent := List.count_pos_iff.mpr listed
      simp [elsewhere] at counted
      omega
    have placed := settled.placed.dropSlot found inSlot own
    refine ⟨⟨placed, ?_⟩, ?_⟩
    · intro other
      rw [fileIndex_dropSlot]
      by_cases same : other = filename
      · subst same
        rw [ChainedIndex.stack_remove_self, List.length_tail]
        have before := settled.single other
        omega
      · rw [ChainedIndex.stack_remove_of_ne _ _ same]
        exact settled.single other
    · intro other different
      apply settled.placed.location_congr placed
      · rw [fileIndex_dropSlot]
        exact ChainedIndex.stack_remove_of_ne _ _ different
      · exact addresses_dropSlot

theorem registerFiles (settled : Settled nm) (now ssId : Int)
    {tokens : List Text}
    (owned : ∀ ss, nm.storageServers[server]? = some ss → ss.ssId = ssId)
    (distinct : (tokens.map fun token =>
      (parseFileEntry now ssId token).filename).Nodup)
    (unknown : ∀ token ∈ tokens,
      findFile nm (parseFileEntry now ssId token).filename = none) :
    Settled (registerFiles now ssId server nm tokens) ∧
      KeepsLocations nm
        (NameServer.registerFiles now ssId server nm tokens) := by
  induction tokens generalizing nm with
  | nil => exact ⟨settled, fun _ _ located => located⟩
  | cons token tokens ih =>
      cases found : nm.storageServers[server]? with
      | none =>
          simp only [NameServer.registerFiles, found]
          exact ⟨settled, fun _ _ located => located⟩
      | some ss =>
          by_cases room : ss.fileCount < maxFilesPerServer
          · simp only [NameServer.registerFiles, found, room, ↓reduceIte]
            obtain ⟨fresh, rest⟩ := List.nodup_cons.mp distinct
            obtain ⟨appended, kept⟩ := settled.appendFile found
              (by exact (owned ss found).symm :
                (parseFileEntry now ssId token).ssId = ss.ssId)
              (unknown token List.mem_cons_self)
            have still := ssId_appendFile (parseFileEntry now ssId token)
              found (owned ss found)
            have later := ih appended still rest ?_
            · exact ⟨later.1, kept.trans later.2⟩
            · intro next member
              have different : (parseFileEntry now ssId next).filename ≠
                  (parseFileEntry now ssId token).filename := by
                intro same
                exact fresh (List.mem_map.mpr ⟨next, member, same⟩)
              have before := unknown next (List.mem_cons_of_mem _ member)
              rw [← stack_eq_nil_iff] at before ⊢
              rw [fileIndex_appendFile found,
                ChainedIndex.stack_insert_of_ne _ _ different]
              exact before
          · simp only [NameServer.registerFiles, found, room, ↓reduceIte]
            exact ⟨settled, fun _ _ located => located⟩

theorem registerStorageServer (settled : Settled nm) (now : Int)
    (msg : RegisterMessage)
    (fresh : findStorageServer nm msg.ssId = none →
      ((CText.strtok ',' msg.data.chars).map fun token =>
        (parseFileEntry now msg.ssId token).filename).Nodup ∧
      ∀ token ∈ CText.strtok ',' msg.data.chars,
        findFile nm (parseFileEntry now msg.ssId token).filename = none) :
    Settled (registerStorageServer now nm msg).1 ∧
      KeepsLocations nm (NameServer.registerStorageServer now nm msg).1 := by
  unfold NameServer.registerStorageServer
  split
  · rename_i server known
    have placed := settled.placed.refresh server
      (fun ss => { ss with
        ip := msg.ip
        nmPort := msg.port1
        clientPort := msg.port2
        status := .online }) fun _ => ⟨rfl, rfl, rfl⟩
    refine ⟨⟨placed, settled.single⟩,
      settled.placed.keepsLocations placed rfl ?_⟩
    intro place ssId address
    rw [← address]
    by_cases here : server = place
    · subst here
      simp [addresses, modifyServer, Function.comp_def,
        StorageServerInfo.address]
    · simp [addresses, modifyServer, here]
  · rename_i unknown
    obtain ⟨distinct, names⟩ := fresh unknown
    split
    · exact ⟨settled, fun _ _ located => located⟩
    · have placed := settled.placed.addServer
        (rfl : (⟨msg.ssId, msg.ip, msg.port1, msg.port2, .online,
          fun _ => zeroedFile, 0⟩ : StorageServerInfo).fileCount = 0)
      have added : KeepsLocations nm _ :=
        settled.placed.keepsLocations placed rfl (by
          intro place ssId address
          obtain ⟨entry, found, same⟩ := Option.map_eq_some_iff.mp address
          have old := (List.getElem?_eq_some_iff.mp found).1
          simp only [addresses, List.map_append] at old found ⊢
          rw [List.getElem?_append_left old, found, Option.map_some, same])
      have listed := (⟨placed, settled.single⟩ : Settled _).registerFiles now
        msg.ssId (by
          intro ss located
          rw [List.getElem?_concat_length] at located
          cases located
          rfl) distinct names
      exact ⟨listed.1, added.trans listed.2⟩

end Settled

theorem settled_initNameServer : Settled initNameServer :=
  ⟨placed_initNameServer, fun _ => Nat.zero_le 1⟩

end Dfs.NameServer
