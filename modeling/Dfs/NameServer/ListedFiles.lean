import Dfs.NameServer.FileDetails
import Dfs.NameServer.FileSets
import Dfs.NameServer.SystemRuns

/-!
# What users see of the files

With one storage server that starts empty, the list of the name server and
the records of the storage server have the same names and owners along a run
of all requests, as long as those on files do what they say.  So VIEW shows
what is stored.
-/

namespace Dfs.NameServer

open Dfs.StorageServer

def entriesOf (s : FileHandler) : List (Filename × Username) :=
  s.metadataList.map recordEntry

theorem entriesOf_sameRights {s t : FileHandler} (same : SameRights s t) :
    entriesOf t = entriesOf s := by
  have entries : ∀ s : FileHandler, entriesOf s =
      s.rights.map fun rights => (rights.1, rights.2.1) := by
    intro s
    rw [FileHandler.rights, List.map_map]
    rfl
  rw [entries, entries, same]

/-- The request leaves the names and owners of all records. -/
def KeepsEntries : NmRequest → Prop
  | .createFile _ _ => False
  | .createfolder _ _ => False
  | .deleteFile _ _ => False
  | _ => True

theorem entriesOf_handleNmConnection {context : NmContext} {s : FileHandler}
    {request : NmRequest} (kind : KeepsEntries request) :
    entriesOf (handleNmConnection context s request).1 = entriesOf s := by
  cases request with
  | createFile filename username => exact kind.elim
  | createfolder filename username => exact kind.elim
  | deleteFile filename username => exact kind.elim
  | info filename username => rfl
  | viewcheckpoint filename tag username => rfl
  | listcheckpoints filename username => rfl
  | move filename targetPath username =>
      exact entriesOf_sameRights (sameRights_nmMove targetPath)
  | checkpoint filename tag username =>
      exact entriesOf_sameRights (sameRights_nmCheckpoint tag)
  | revert filename tag username =>
      exact entriesOf_sameRights (sameRights_nmRevert tag context.now)
  | addaccess filename username data accessType =>
      have added : entriesOf (addUserAccessLl s filename
          (CString.copy 63 data.chars) accessType).1 = entriesOf s := by
        unfold addUserAccessLl
        split
        · rfl
        · exact map_updateMetadata (by exact fun _ => rfl)
      simp only [handleNmConnection, nmAddaccess]
      generalize addUserAccessLl s filename (CString.copy 63 data.chars)
        accessType = result at added ⊢
      split
      · exact added
      · exact added
  | remaccess filename username data =>
      have removed : entriesOf (removeUserAccessLl s filename
          (CString.copy 63 data.chars)).1 = entriesOf s := by
        unfold removeUserAccessLl
        split
        · rfl
        · exact map_updateMetadata (by exact fun _ => rfl)
      simp only [handleNmConnection, nmRemaccess]
      generalize removeUserAccessLl s filename (CString.copy 63 data.chars) =
        result at removed ⊢
      split
      · exact removed
      · exact removed

/-- The file lists, and the names and owners of the records, are kept. -/
structure SameTables (before after : System) : Prop where
  files : after.nm.toNameServerState = before.nm.toNameServerState
  entries : ∀ server,
    entriesOf (after.stores server) = entriesOf (before.stores server)

section

variable {sys middle after : System} {context : NmContext} {now : Int}
  {link : Link} {filename : Filename} {username : Username}

theorem SameTables.refl (sys : System) : SameTables sys sys :=
  ⟨rfl, fun _ => rfl⟩

theorem SameTables.trans (first : SameTables sys middle)
    (second : SameTables middle after) : SameTables sys after :=
  ⟨second.files.trans first.files,
    fun server => (second.entries server).trans (first.entries server)⟩

theorem sameTables_deliver (server : Nat) {request : NmRequest}
    (kind : KeepsEntries request) :
    SameTables sys (sys.deliver context server request) := by
  refine ⟨rfl, fun other => ?_⟩
  by_cases here : other = server
  · subst here
    simp only [System.deliver, Function.update_self]
    exact entriesOf_handleNmConnection kind
  · simp only [System.deliver, Function.update_of_ne here]

theorem sameTables_exchange (server : Nat) {request : NmRequest}
    (kind : KeepsEntries request) :
    SameTables sys (sys.exchange context server request link).1 := by
  cases link with
  | refused => exact .refl sys
  | broken => exact .refl sys
  | lost buffer => exact sameTables_deliver server kind
  | reliable => exact sameTables_deliver server kind

theorem sameTables_forward {operation ssId : Int} {request : NmRequest}
    {unanswered : Response → Response}
    {answered : System → Response → System × Response}
    (kind : KeepsEntries request)
    (continues : ∀ sys response, SameTables sys (answered sys response).1) :
    SameTables sys (sys.forward context link operation ssId request
      unanswered answered).1 := by
  unfold System.forward
  split
  · exact .refl sys
  · rename_i server online
    have exchanged :=
      @sameTables_exchange sys context link server request kind
    generalize sys.exchange context server request link = result
      at exchanged ⊢
    obtain ⟨after, reply⟩ := result
    cases reply with
    | unconnected => exact exchanged
    | unsent => exact exchanged
    | unanswered buffer => exact exchanged
    | answered response => exact exchanged.trans (continues after response)

theorem sameTables_unlessError {failed : Response → Response}
    {succeeded : System → System × Response}
    (continues : ∀ sys, SameTables sys (succeeded sys).1) (sys : System)
    (response : Response) :
    SameTables sys (unlessError failed succeeded sys response).1 := by
  unfold unlessError
  split
  · exact .refl sys
  · exact continues sys

theorem sameTables_handleAddaccess (data : DataText) (accessType : Int) :
    SameTables sys (handleAddaccess sys context link filename username data
      accessType).1 := by
  unfold handleAddaccess
  split
  · exact .refl sys
  · split
    · exact .refl sys
    · simp only
      split
      · exact .refl sys
      · rename_i server located
        have exchanged := @sameTables_exchange sys context link server
          (.addaccess filename username data accessType) trivial
        split
        · exact .refl sys
        · rename_i same
          rwa [same] at exchanged
        · rename_i same
          rwa [same] at exchanged
        · rename_i same
          rwa [same] at exchanged

theorem sameTables_handleRemaccess (data : DataText) :
    SameTables sys
      (handleRemaccess sys context link filename username data).1 :=
  related_handleRemaccess (.refl sys) fun server =>
    sameTables_exchange server trivial

theorem sameTables_handleInfoRequest :
    SameTables sys
      (handleInfoRequest sys context link filename username).1 :=
  related_handleInfoRequest (.refl sys) fun server =>
    sameTables_exchange server trivial

theorem sameTables_handleListcheckpoints :
    SameTables sys
      (handleListcheckpoints sys context link filename username).1 :=
  related_handleListcheckpoints (.refl sys) fun server =>
    sameTables_exchange server trivial

theorem sameTables_handleRequestaccess (accessType : Int) :
    SameTables sys
      (handleRequestaccess sys now filename username accessType).1 := by
  unfold handleRequestaccess
  split
  · exact .refl sys
  · split
    · exact .refl sys
    · split
      · exact .refl sys
      · split
        · exact .refl sys
        · exact ⟨rfl, fun _ => rfl⟩

theorem sameTables_handleApproverequest (requestId : Filename) :
    SameTables sys
      (handleApproverequest sys context link requestId username).1 := by
  unfold handleApproverequest
  split
  · exact .refl sys
  · rename_i request pending
    have marked : SameTables sys (sys.setStatus requestId .approved) :=
      ⟨rfl, fun _ => rfl⟩
    simp only
    split
    · exact marked
    · split
      · exact marked
      · exact marked.trans (sameTables_exchange _ trivial)

theorem sameTables_handleRejectrequest (requestId : Filename) :
    SameTables sys (handleRejectrequest sys requestId username).1 := by
  unfold handleRejectrequest
  split
  · exact .refl sys
  · exact ⟨rfl, fun _ => rfl⟩

theorem sameTables_handleCheckpoint (tag : Filename) :
    SameTables sys
      (handleCheckpoint sys context link filename tag username).1 := by
  unfold handleCheckpoint
  split
  · exact .refl sys
  · exact sameTables_forward trivial (sameTables_unlessError .refl)

theorem sameTables_handleViewcheckpoint (tag : Filename) :
    SameTables sys
      (handleViewcheckpoint sys context link filename tag username).1 := by
  unfold handleViewcheckpoint
  split
  · exact .refl sys
  · exact sameTables_forward trivial fun sys _ => .refl sys

theorem sameTables_handleRevert (tag : Filename) :
    SameTables sys
      (handleRevert sys context link filename tag username).1 := by
  unfold handleRevert
  split
  · exact .refl sys
  · split
    · exact .refl sys
    · exact sameTables_forward trivial (sameTables_unlessError .refl)

theorem sameTables_handleGetSsInfo :
    SameTables sys (handleGetSsInfo sys now filename).1 := by
  simp only [handleGetSsInfo, lookupLocation]
  split
  · exact ⟨rfl, fun _ => rfl⟩
  · split
    · exact ⟨rfl, fun _ => rfl⟩
    · exact ⟨rfl, fun _ => rfl⟩

theorem sameTables_serve (server : Nat) (time : TimeText)
    (request : ClientRequest) :
    SameTables sys (sys.serve server username time request) := by
  refine ⟨rfl, fun other => ?_⟩
  by_cases here : other = server
  · subst here
    simp only [System.serve, Function.update_self]
    exact entriesOf_sameRights (sameRights_handleClientConnection time request)
  · simp only [System.serve, Function.update_of_ne here]

end

/-- A call that reaches the storage server and, if it is about files, does what
it says; no further storage server registers. -/
def KeepsListing (sys : System) : SystemEvent → Prop
  | .call call => call.link = .reliable ∧ KeepsFileSets sys call
  | .register _ _ => False
  | _ => True

section

variable {sys other : System} {ss : StorageServerInfo}

theorem Synced.sameTables (synced : Synced sys ss)
    (same : SameTables sys other) : Synced other ss := by
  refine ⟨same.files ▸ synced.only, ?_, synced.distinct⟩
  have entries : (other.stores 0).metadataList.map recordEntry =
      (sys.stores 0).metadataList.map recordEntry := same.entries 0
  rw [entries]
  exact synced.same

theorem Synced.callStep {call : Call} (synced : Synced sys ss)
    (reliable : call.link = .reliable) (condition : KeepsFileSets sys call) :
    ∃ ss', Synced (callStep sys call) ss' := by
  by_cases about : call.command.ChangesFiles
  · exact synced.step reliable about condition
  · refine ⟨ss, synced.sameTables ?_⟩
    obtain ⟨context, now, link, username, command⟩ := call
    cases command with
    | create filename => exact (about trivial).elim
    | delete filename => exact (about trivial).elim
    | createfolder filename => exact (about trivial).elim
    | move filename targetPath => exact (about trivial).elim
    | addaccess filename data accessType =>
        exact sameTables_handleAddaccess data accessType
    | requestaccess filename accessType =>
        exact sameTables_handleRequestaccess accessType
    | approverequest requestId =>
        exact sameTables_handleApproverequest requestId
    | rejectrequest requestId =>
        exact sameTables_handleRejectrequest requestId
    | checkpoint filename tag => exact sameTables_handleCheckpoint tag
    | viewcheckpoint filename tag => exact sameTables_handleViewcheckpoint tag
    | revert filename tag => exact sameTables_handleRevert tag

theorem Synced.systemStep {event : SystemEvent} (synced : Synced sys ss)
    (kept : KeepsListing sys event) :
    ∃ ss', Synced (systemStep sys event) ss' := by
  cases event with
  | call call => exact synced.callStep kept.1 kept.2
  | remaccess context link filename username data =>
      exact ⟨ss, synced.sameTables (sameTables_handleRemaccess data)⟩
  | locate now filename =>
      exact ⟨ss, synced.sameTables sameTables_handleGetSsInfo⟩
  | info context link filename username =>
      exact ⟨ss, synced.sameTables sameTables_handleInfoRequest⟩
  | listcheckpoints context link filename username =>
      exact ⟨ss, synced.sameTables sameTables_handleListcheckpoints⟩
  | register now msg => exact kept.elim
  | direct server username now request =>
      exact ⟨ss, synced.sameTables (sameTables_serve server now request)⟩

theorem synced_run {hosts : Hosts} {now : Int} {msg : RegisterMessage}
    (empty : CText.strtok ',' msg.data.chars = []) {events : List SystemEvent}
    (kept : StepRun.AllSteps systemStep KeepsListing
      ((initSystem hosts).register now msg) events) :
    ∃ ss, Synced (StepRun.run systemStep
      ((initSystem hosts).register now msg) events) ss :=
  @StepRun.invariant _ _ systemStep _ (fun sys => ∃ ss, Synced sys ss)
    (fun _ _ ⟨_, synced⟩ met => synced.systemStep met) _ _
    (synced_register hosts now msg empty) kept

end

/-- VIEW shows the record to the user. -/
def shownRecord (viewFlags : Int) (username : Username)
    (record : FileMetadata) : Bool :=
  showsAll viewFlags || infoAdmits (infoText record) username

namespace Synced

variable {sys : System} {ss : StorageServerInfo}

theorem files_livePtrs (synced : Synced sys ss) :
    (livePtrs sys.nm.toNameServerState).map
        (readFile sys.nm.toNameServerState) = liveFiles ss := by
  have first := synced.only.serverFiles_zero
  have count : sys.nm.storageServers.length = 1 := by
    rw [synced.only.servers]
    rfl
  rw [livePtrs, count]
  simp only [List.range_one, List.flatMap_singleton, first, length_liveFiles,
    List.map_map]
  unfold liveFiles
  apply List.map_congr_left
  intro slot _
  simp only [Function.comp_apply, readFile, synced.only.getElem?_zero]

theorem server_of_livePtrs (synced : Synced sys ss) {ptr : FilePtr}
    (live : ptr ∈ livePtrs sys.nm.toNameServerState) :
    findStorageServer sys.nm.toNameServerState
      (readFile sys.nm.toNameServerState ptr).ssId = some 0 := by
  have count : sys.nm.storageServers.length = 1 := by
    rw [synced.only.servers]
    rfl
  rw [livePtrs, count] at live
  simp only [List.range_one, List.flatMap_singleton,
    synced.only.serverFiles_zero, length_liveFiles, List.mem_map,
    List.mem_range] at live
  obtain ⟨slot, inside, rfl⟩ := live
  have owned := synced.only.placed.live 0 ss synced.only.getElem?_zero slot
    inside
  simp only [readFile, synced.only.getElem?_zero, owned]
  exact synced.only.findStorageServer_self

theorem nodup_names (synced : Synced sys ss) :
    ((sys.stores 0).metadataList.map FileMetadata.filename).Nodup :=
  synced.names.nodup_iff.mp synced.distinct

/-- No record is behind another of its name. -/
theorem findMetadata_of_mem (synced : Synced sys ss) {record : FileMetadata}
    (member : record ∈ (sys.stores 0).metadataList) :
    findMetadata (sys.stores 0) record.filename = some record := by
  cases found : findMetadata (sys.stores 0) record.filename with
  | none =>
      have absent := findMetadata_eq_none_iff.mp found
      exact (absent (List.mem_map.mpr ⟨record, member, rfl⟩)).elim
  | some other =>
      have named : other.filename = record.filename := by
        simpa using List.find?_some found
      have same := List.inj_on_of_nodup_map synced.nodup_names
        (List.mem_of_find?_eq_some found) member named
      rw [same]

/-- The record of a file that is listed. -/
theorem record_of_livePtrs (synced : Synced sys ss) {ptr : FilePtr}
    (live : ptr ∈ livePtrs sys.nm.toNameServerState) :
    ∃ record ∈ (sys.stores 0).metadataList, recordEntry record =
      fileEntry (readFile sys.nm.toNameServerState ptr) := by
  have listed : readFile sys.nm.toNameServerState ptr ∈ liveFiles ss := by
    rw [← synced.files_livePtrs]
    exact List.mem_map.mpr ⟨ptr, live, rfl⟩
  have entry := synced.same.mem_iff.mp (List.mem_map.mpr ⟨_, listed, rfl⟩)
  obtain ⟨record, member, same⟩ := List.mem_map.mp entry
  exact ⟨record, member, same⟩

/-- A listed file is shown when its record is. -/
theorem isShown_eq (synced : Synced sys ss) {context : NmContext}
    {links : ViewLinks} (answers : ∀ ptr, links.access ptr = .reliable)
    {viewFlags : Int} {username : Username} {ptr : FilePtr}
    (live : ptr ∈ livePtrs sys.nm.toNameServerState) {record : FileMetadata}
    (member : record ∈ (sys.stores 0).metadataList)
    (same : recordEntry record =
      fileEntry (readFile sys.nm.toNameServerState ptr)) :
    isShown sys context links viewFlags username ptr =
      shownRecord viewFlags username record := by
  obtain ⟨name, owner⟩ := Prod.mk.inj same
  have found := synced.findMetadata_of_mem member
  rw [name] at found
  have asked : userHasAccess sys context (links.access ptr)
      (readFile sys.nm.toNameServerState ptr).filename username
      (readFile sys.nm.toNameServerState ptr).ssId =
        infoAdmits (infoText record) username := by
    rw [Bool.eq_iff_iff, userHasAccess_answer]
    simp [synced.server_of_livePtrs live, answers, found]
  unfold isShown shownRecord
  simp only [asked]
  by_cases owned : (readFile sys.nm.toNameServerState ptr).owner = username
  · have named := infoAdmits_owner record
    rw [owner, owned] at named
    simp [owned, named]
  · simp [owned]

/-- The files that are shown are those whose records are. -/
theorem shown_perm (synced : Synced sys ss) {context : NmContext}
    {links : ViewLinks} (answers : ∀ ptr, links.access ptr = .reliable)
    (viewFlags : Int) (username : Username) :
    (((shownPtrs sys context links viewFlags username).map
        (readFile sys.nm.toNameServerState)).map fileEntry).Perm
      (((sys.stores 0).metadataList.filter
        (shownRecord viewFlags username)).map recordEntry) := by
  let shows := fun entry : Filename × Username =>
    (findMetadata (sys.stores 0) entry.1).any (shownRecord viewFlags username)
  have ofRecord : ∀ record ∈ (sys.stores 0).metadataList,
      shows (recordEntry record) = shownRecord viewFlags username record := by
    intro record member
    have found := synced.findMetadata_of_mem member
    simp only [shows, recordEntry, found, Option.any_some]
  have ofFile : ∀ ptr ∈ livePtrs sys.nm.toNameServerState,
      isShown sys context links viewFlags username ptr =
        shows (fileEntry (readFile sys.nm.toNameServerState ptr)) := by
    intro ptr live
    obtain ⟨record, member, same⟩ := synced.record_of_livePtrs live
    rw [synced.isShown_eq answers live member same, ← same,
      ofRecord record member]
  have files : ((shownPtrs sys context links viewFlags username).map
      (readFile sys.nm.toNameServerState)).map fileEntry =
        ((liveFiles ss).map fileEntry).filter shows := by
    rw [← synced.files_livePtrs, shownPtrs, List.filter_congr ofFile,
      List.map_map, List.map_map, List.filter_map]
    rfl
  have records : ((sys.stores 0).metadataList.filter
      (shownRecord viewFlags username)).map recordEntry =
        ((sys.stores 0).metadataList.map recordEntry).filter shows := by
    rw [List.filter_map]
    congr 1
    exact List.filter_congr fun record member =>
      (ofRecord record member).symm
  rw [files, records]
  exact synced.same.filter shows

end Synced

/-- After every run with one storage server that starts empty, in which calls
reach it and no MOVE and no failed folder tears the tables apart, VIEW shows
exactly the records of the storage server that are the user's or whose text
names the user, with `-a` all of them; nobody who may read is passed over. -/
theorem view_shows_what_is_stored {hosts : Hosts} {now : Int}
    {msg : RegisterMessage}
    (empty : CText.strtok ',' msg.data.chars = [])
    {events : List SystemEvent}
    (kept : StepRun.AllSteps systemStep KeepsListing
      ((initSystem hosts).register now msg) events)
    {links : ViewLinks} (answers : ∀ ptr, links.access ptr = .reliable)
    (context : NmContext) (viewFlags : Int) (username : Username) :
    let sys := StepRun.run systemStep ((initSystem hosts).register now msg)
      events
    let records := (sys.stores 0).metadataList
    ∃ shown : List FileInfo,
      (shown.map fileEntry).Perm
        ((records.filter (shownRecord viewFlags username)).map
          recordEntry) ∧
      (∀ record ∈ records, InfoFits record → ReadAllowed record username →
        shownRecord viewFlags username record = true) ∧
      (showsLong viewFlags = false →
        (handleViewFiles sys context links viewFlags username).data =
          if shown = [] then noFilesFound
          else (shown.map shortRow).flatten.take (maxDataSize - 1)) := by
  intro sys records
  obtain ⟨ss, synced⟩ := synced_run empty kept
  refine ⟨(shownPtrs sys context links viewFlags username).map
    (readFile sys.nm.toNameServerState),
    synced.shown_perm answers viewFlags username, ?_, ?_⟩
  · intro record _ fits allowed
    rw [shownRecord, infoAdmits_of_allowed fits allowed, Bool.or_true]
  · intro short
    rw [data_handleViewFiles, short]
    simp only [Bool.false_eq_true, if_false]
    split
    · rename_i none
      rw [none]
      exact shortListing_nil
    · rename_i some
      exact shortListing_map some

/-- `alice` lets `bob` read her new file, and he does. -/
private def sharedFile : List SystemEvent :=
  [.call (askCall "alice" 0 (.create askFile)),
    .call (askCall "alice" 1 (.addaccess askFile
      (CString.copy 4095 "bob".toList) accessRead)),
    .direct 0 (askUser "bob") (CString.copy 63 []) (.read askFile)]

private def reliableLinks : ViewLinks :=
  ⟨fun _ => .reliable, fun _ => .reliable⟩

theorem view_shows_what_is_stored_shared :
    ∃ shown : List FileInfo,
      (shown.map fileEntry).Perm [(askFile, askUser "alice")] := by
  have kept : StepRun.AllSteps systemStep KeepsListing askServer sharedFile :=
    ⟨⟨rfl, trivial⟩, ⟨rfl, trivial⟩, trivial, trivial⟩
  obtain ⟨shown, same, -⟩ := view_shows_what_is_stored rfl kept
    (fun _ => rfl : ∀ ptr, reliableLinks.access ptr = .reliable)
    (askCall "bob" 2 (.create askFile)).context viewFlagNone (askUser "bob")
  have records : ((((StepRun.run systemStep askServer sharedFile).stores
      0).metadataList.filter
        (shownRecord viewFlagNone (askUser "bob"))).map recordEntry) =
      [(askFile, askUser "alice")] := by
    decide +kernel
  exact ⟨shown, records ▸ same⟩

end Dfs.NameServer
