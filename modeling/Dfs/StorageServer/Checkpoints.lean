import Dfs.StorageServer.CompleteRequests
import Dfs.StorageServer.DiskFrames
import Dfs.StorageServer.Queries
import Dfs.StorageServer.RequestEffects

/-!
# Checkpoints

The checkpoint of the file `f` under the tag `t` is the file `f.t`, so two
pairs with the same path share one checkpoint, and the list of a file is read
back from the names that start with `f.`.  A log beside the server notes what
was saved under each pair; as long as no other request writes to the paths, the
answers of the server are those of the log.
-/

namespace Dfs.StorageServer

section

variable {s : FileHandler} {filename tag : Filename}

/-- The last name of the path of a checkpoint. -/
def checkpointName (filename tag : Filename) : Text :=
  (filename.chars.splitOn '/').getLast?.getD [] ++ '.' :: tag.chars

/-- A tag without slashes ends the last name of the path. -/
theorem checkpointPath_eq (solid : '/' ∉ tag.chars) (storage : StorageDir) :
    checkpointPath storage filename tag =
      (storage.location ++
        "checkpoints".toList :: (filename.chars.splitOn '/').dropLast) ++
        [checkpointName filename tag] := by
  have split := @splitOn_in_folder "checkpoints".toList (by decide)
    (filename.chars ++ '.' :: tag.chars)
  have whole : "checkpoints/".toList ++ filename.chars ++ '.' :: tag.chars =
      "checkpoints".toList ++ '/' :: (filename.chars ++ '.' :: tag.chars) :=
    rfl
  have ending : '/' ∉ '.' :: tag.chars := by simpa using solid
  rw [checkpointPath, StorageDir.path, whole, split, splitOn_append ending,
    checkpointName, List.append_assoc, List.cons_append]

theorem checkpointName_ne (storage : StorageDir) :
    checkpointName filename tag ≠ (filePaths storage filename).name := by
  simp [checkpointName, filePaths]

/-- A file and its checkpoint are two files. -/
theorem checkpoint_apart_file (solid : '/' ∉ tag.chars) {fs : FileSystem}
    {storage : StorageDir} {place : Location}
    (opens : fs.target (checkpointPath storage filename tag) =
      some place) :
    fs.locate (filePaths storage filename).file ≠ some place := by
  rw [checkpointPath_eq solid] at opens
  exact FileSystem.locate_ne_of_target (checkpointName_ne storage) opens

theorem file_apart_checkpoint (solid : '/' ∉ tag.chars) {fs : FileSystem}
    {storage : StorageDir} {place : Location}
    (opens : fs.target (filePaths storage filename).file = some place) :
    fs.locate (checkpointPath storage filename tag) ≠ some place := by
  rw [checkpointPath_eq solid]
  exact FileSystem.locate_ne_of_target (checkpointName_ne storage).symm opens

/-- A CHECKPOINT fails after it has looked for its folder, or copies the file
to another one. -/
theorem nmCheckpoint_cases
    (apart : ∀ place,
      (checkpointDisk s).target (checkpointPath s.storage filename tag) =
        some place →
      (checkpointDisk s).locate (filePaths s.storage filename).file ≠
        some place) :
    ((nmCheckpoint s filename tag).1 = { s with disk := checkpointDisk s } ∧
        (nmCheckpoint s filename tag).2.errorCode ≠ errSuccess) ∨
      ∃ content place,
        (checkpointDisk s).read (filePaths s.storage filename).file =
          some content ∧
        (checkpointDisk s).target (checkpointPath s.storage filename tag) =
          some place ∧
        (nmCheckpoint s filename tag).2.errorCode = errSuccess ∧
        (nmCheckpoint s filename tag).1 =
          { s with disk := (checkpointDisk s).put place content } := by
  have missing : errFileNotFound ≠ errSuccess := by decide
  have failed : errServerError ≠ errSuccess := by decide
  have made : s.disk.tryMkdir (checkpointDir s.storage) =
      checkpointDisk s := rfl
  unfold nmCheckpoint
  rw [getFilePath_eq]
  simp only [made]
  cases opened : (checkpointDisk s).openRead
      (filePaths s.storage filename).file with
  | none => exact .inl ⟨rfl, missing⟩
  | some file =>
      have readable : (checkpointDisk s).read
          (filePaths s.storage filename).file = some file.bytes := by
        rw [FileSystem.read, opened]
        rfl
      cases opens : (checkpointDisk s).target
          (checkpointPath s.storage filename tag) with
      | none =>
          have uncopied := @FileSystem.copy_eq_none (checkpointDisk s)
            (checkpointPath s.storage filename tag)
            (filePaths s.storage filename).file (.inl opens)
          simp only [uncopied]
          exact .inl ⟨trivial, failed⟩
      | some place =>
          have copied := FileSystem.copy_apart opens (apart place opens)
            readable
          simp only [copied]
          exact .inr ⟨file.bytes, place, readable, rfl, rfl, rfl⟩

end

/-- A server and the content that each pair of file and tag last saved. -/
structure Logged where
  server : FileHandler
  saved : Filename → Filename → Option Text

def Logged.start (s : FileHandler) : Logged :=
  ⟨s, fun _ _ => none⟩

/-- A CHECKPOINT that succeeds is noted with the disk content of its file. -/
def Logged.step (c : Logged) (request : Request) : Logged :=
  { server := handleRequest c.server request
    saved := fun filename tag =>
      if request = .checkpoint filename tag ∧
          (nmCheckpoint c.server filename tag).2.errorCode = errSuccess then
        (checkpointDisk c.server).read
          (filePaths c.server.storage filename).file
      else c.saved filename tag }

def Logged.run : Logged → List Request → Logged :=
  StepRun.run Logged.step

/-- The CHECKPOINT of the pair itself, or a request that writes nothing where
the checkpoint of the pair stands. -/
def Request.Apart (storage : StorageDir) (filename tag : Filename)
    (request : Request) : Prop :=
  request = .checkpoint filename tag ∨
    request.Leaves storage (checkpointPath storage filename tag)

/-- Nothing that the request makes or moves gets a name that is listed for the
file, except by a CHECKPOINT of the file itself. -/
def Request.Unlisted (storage : StorageDir) (filename : Filename)
    (request : Request) : Prop :=
  (∃ tag : Filename, request = .checkpoint filename tag ∧
      '/' ∉ tag.chars) ∨
    ∀ name, (filename.chars ++ ['.']).isPrefixOf name = true →
      (checkpointDir storage).resolve ++ [name] ∉ request.makes storage ∧
        ∀ moved targetPath, request = .move moved targetPath →
          ¬moveGoal storage moved targetPath <+:
            (checkpointDir storage).resolve ++ [name]

section

variable {c : Logged} {filename tag : Filename} {storage : StorageDir}

/-- The checkpoint stands with what its pair saved. -/
structure Logged.Holds (storage : StorageDir) (filename tag : Filename)
    (c : Logged) : Prop where
  server : c.server.storage = storage
  stored : ∀ content, c.saved filename tag = some content →
    c.server.disk.read (checkpointPath storage filename tag) = some content

theorem Logged.saved_of_ne {request : Request}
    (other : request ≠ .checkpoint filename tag) :
    (c.step request).saved filename tag = c.saved filename tag :=
  if_neg fun both => other both.1

theorem Logged.holds_step (solid : '/' ∉ tag.chars) {request : Request}
    (holds : c.Holds storage filename tag)
    (apart : request.Apart storage filename tag) :
    (c.step request).Holds storage filename tag := by
  obtain ⟨rfl, stored⟩ := holds
  refine ⟨storage_handleRequest c.server request, ?_⟩
  intro content saved
  by_cases own : request = .checkpoint filename tag
  · subst own
    rcases nmCheckpoint_cases fun _ => checkpoint_apart_file solid with
      ⟨same, failed⟩ | ⟨written, place, readable, opens, success, result⟩
    · have kept : (c.step (.checkpoint filename tag)).saved filename tag =
          c.saved filename tag := if_neg fun both => failed both.2
      rw [kept] at saved
      have before := stored content saved
      have stands : c.server.disk.PathExists
          (checkpointPath c.server.storage filename tag) := by
        rw [← FileSystem.read_isSome_iff, before]
        rfl
      have made : FileSystem.ChangedAt [] c.server.disk
          (checkpointDisk c.server) := .tryMkdir _
      rw [← before, Logged.step, handleRequest, same]
      exact (made.sameAt stands (by simp)).read
    · have noted : (c.step (.checkpoint filename tag)).saved filename tag =
          some written := (if_pos ⟨rfl, success⟩).trans readable
      rw [noted] at saved
      rw [← saved, Logged.step, handleRequest, result]
      exact FileSystem.read_put opens
  · rw [Logged.saved_of_ne own] at saved
    have before := stored content saved
    have stands : c.server.disk.PathExists
        (checkpointPath c.server.storage filename tag) := by
      rw [← FileSystem.read_isSome_iff, before]
      rfl
    rw [← before]
    exact (sameAt_handleRequest stands (apart.resolve_left own)).read

theorem Logged.holds_run (solid : '/' ∉ tag.chars) {requests : List Request}
    (holds : c.Holds storage filename tag)
    (apart : ∀ request ∈ requests, request.Apart storage filename tag) :
    (c.run requests).Holds storage filename tag :=
  @StepRun.invariant _ _ Logged.step
    (fun _ request => request.Apart storage filename tag)
    (Logged.Holds storage filename tag)
    (fun _ _ holds met => Logged.holds_step solid holds met) c requests holds
    (StepRun.allSteps_of_mem c apart)

/-- What is listed for the file was saved under one of its own pairs. -/
structure Logged.Lists (storage : StorageDir) (filename : Filename)
    (c : Logged) : Prop where
  server : c.server.storage = storage
  own : ∀ name, (filename.chars ++ ['.']).isPrefixOf name = true →
    c.server.disk.Exists ((checkpointDir storage).resolve ++ [name]) →
    ∃ tag : Filename, name = filename.chars ++ '.' :: tag.chars ∧
      (c.saved filename tag).isSome

/-- Nothing is taken out of the log. -/
theorem Logged.isSome_saved_step {request : Request}
    (noted : (c.saved filename tag).isSome) :
    ((c.step request).saved filename tag).isSome := by
  by_cases own : request = .checkpoint filename tag ∧
      (nmCheckpoint c.server filename tag).2.errorCode = errSuccess
  · have readable : ((checkpointDisk c.server).read
        (filePaths c.server.storage filename).file).isSome := by
      by_contra missing
      rw [FileSystem.read, Option.isSome_map, Bool.not_eq_true,
        Option.isSome_eq_false_iff, Option.isNone_iff_eq_none] at missing
      have failed := own.2
      have made : c.server.disk.tryMkdir
          (checkpointDir c.server.storage) = checkpointDisk c.server := rfl
      unfold nmCheckpoint at failed
      rw [getFilePath_eq] at failed
      simp only [made, missing] at failed
      exact absurd failed (by decide)
    exact (congrArg Option.isSome (if_pos own)).trans readable
  · exact (congrArg Option.isSome (if_neg own)).trans noted

/-- A checkpoint of the file that is listed for it has its tag in the name. -/
theorem checkpointName_of_listed {name : Text}
    (listed : (filename.chars ++ ['.']).isPrefixOf name = true)
    (same : name = checkpointName filename tag) (solid : '/' ∉ tag.chars) :
    name = filename.chars ++ '.' :: tag.chars := by
  have last : '/' ∉ (filename.chars.splitOn '/').getLast?.getD [] := by
    cases found : (filename.chars.splitOn '/').getLast? with
    | none => simp
    | some piece =>
        intro slash
        have apart : '/' ∈ (filename.chars.splitOn '/').flatten :=
          List.mem_flatten.mpr
            ⟨piece, List.mem_of_getLast? found, slash⟩
        rw [CText.flatten_splitOn] at apart
        simp at apart
  have inside : '/' ∉ filename.chars := by
    intro slash
    have begins : '/' ∈ name := by
      obtain ⟨rest, rfl⟩ := List.isPrefixOf_iff_prefix.mp listed
      simp [slash]
    rw [same, checkpointName] at begins
    simp [last, solid] at begins
  rw [same, checkpointName, List.splitOn_eq_singleton inside]
  rfl

theorem Logged.lists_step {request : Request}
    (lists : c.Lists storage filename)
    (unlisted : request.Unlisted storage filename) :
    (c.step request).Lists storage filename := by
  obtain ⟨rfl, own⟩ := lists
  refine ⟨storage_handleRequest c.server request, ?_⟩
  intro name listed stands
  have before : c.server.disk.Exists
      ((checkpointDir c.server.storage).resolve ++ [name]) →
      ∃ tag : Filename, name = filename.chars ++ '.' :: tag.chars ∧
        ((c.step request).saved filename tag).isSome := by
    intro stood
    obtain ⟨tag, same, noted⟩ := own name listed stood
    exact ⟨tag, same, Logged.isSome_saved_step noted⟩
  rcases unlisted with ⟨tag, rfl, solid⟩ | elsewhere
  · have made : FileSystem.Adds
        [(checkpointDir c.server.storage).resolve] c.server.disk
        (checkpointDisk c.server) := .tryMkdir List.mem_cons_self
    have apart : (checkpointDir c.server.storage).resolve ++ [name] ∉
        [(checkpointDir c.server.storage).resolve] := by simp
    rcases nmCheckpoint_cases fun _ => checkpoint_apart_file solid with
      ⟨result, _⟩ | ⟨content, place, readable, opens, success, result⟩
    · rw [Logged.step, handleRequest, result] at stands
      exact before ((made _ stands).resolve_right apart)
    · rw [Logged.step, handleRequest, result] at stands
      have added : FileSystem.Adds [place] (checkpointDisk c.server)
          ((checkpointDisk c.server).put place content) :=
        .put List.mem_cons_self
      rcases added _ stands with stood | here
      · exact before ((made _ stood).resolve_right apart)
      · rw [List.mem_singleton] at here
        rw [checkpointPath_eq solid] at opens
        obtain ⟨folder, _, _, _, _, same, _⟩ :=
          FileSystem.target_concat.mp opens
        rw [same] at here
        have names := congrArg List.getLast? here
        simp only [List.getLast?_concat, Option.some.injEq] at names
        refine ⟨tag, checkpointName_of_listed listed names solid, ?_⟩
        have noted : (c.step (.checkpoint filename tag)).saved filename
            tag = some content := (if_pos ⟨rfl, success⟩).trans readable
        rw [noted]
        rfl
  · obtain ⟨unmade, unmoved⟩ := elsewhere name listed
    rcases exists_handleRequest stands with stood | made | ⟨moved,
      targetPath, same, below⟩
    · exact before stood
    · exact (unmade made).elim
    · exact (unmoved moved targetPath same below).elim

theorem Logged.lists_run {requests : List Request}
    (lists : c.Lists storage filename)
    (unlisted : ∀ request ∈ requests, request.Unlisted storage filename) :
    (c.run requests).Lists storage filename :=
  @StepRun.invariant _ _ Logged.step
    (fun _ request => request.Unlisted storage filename)
    (Logged.Lists storage filename)
    (fun _ _ lists met => Logged.lists_step lists met) c requests lists
    (StepRun.allSteps_of_mem c unlisted)

end

/-- VIEWCHECKPOINT and REVERT yield what the pair last saved, and no
CHECKPOINT that writes elsewhere changes that. -/
structure YieldsSaved (filename tag : Filename) (c : Logged) : Prop where
  viewed : ∀ content, c.saved filename tag = some content →
    content.length < maxDataSize →
    nmViewcheckpoint c.server filename tag =
      nmResponse opViewcheckpoint errSuccess content
  reverted : ∀ content now, c.saved filename tag = some content →
    (view c.server filename).writable = true →
    (nmRevert c.server filename tag now).2.errorCode = errSuccess ∧
      (nmRevert c.server filename tag now).1.diskText filename =
        some content
  kept : ∀ other otherTag, (c.saved filename tag).isSome →
    (Request.checkpoint other otherTag).Leaves c.server.storage
      (checkpointPath c.server.storage filename tag) →
    nmViewcheckpoint (nmCheckpoint c.server other otherTag).1 filename tag =
      nmViewcheckpoint c.server filename tag

/-- No line of the list is cut off. -/
def TagsFit : Nat → List Text → Prop
  | _, [] => True
  | offset, tag :: tags =>
      offset < maxDataSize - 100 →
        tag.length + 1 ≤ maxDataSize - offset - 2 ∧
          TagsFit (offset + (tag.length + 1)) tags

/-- LISTCHECKPOINTS prints lines of tags under which the file itself was
saved, or says that there are none. -/
def ListsOwn (filename : Filename) (c : Logged) : Prop :=
  (nmListcheckpoints c.server filename).data =
      "No checkpoints found".toList ∨
    (nmListcheckpoints c.server filename).data =
      "No checkpoints found for this file".toList ∨
    ∃ tags : List Filename,
      (∀ tag ∈ tags, (c.saved filename tag).isSome) ∧
      (nmListcheckpoints c.server filename).data =
        tags.flatMap fun tag => tag.chars ++ ['\n']

section

variable {c : Logged} {filename tag : Filename}

theorem yieldsSaved_of_holds (solid : '/' ∉ tag.chars)
    (holds : c.Holds c.server.storage filename tag) :
    YieldsSaved filename tag c := by
  refine ⟨?_, ?_, ?_⟩
  · intro content saved short
    have whole : content.take (maxDataSize - 1) = content :=
      List.take_of_length_le (by omega)
    simp [nmViewcheckpoint, holds.stored content saved, whole]
  · intro content now saved writable
    have stored := holds.stored content saved
    have stands : c.server.disk.PathExists
        (checkpointPath c.server.storage filename tag) := by
      rw [← FileSystem.read_isSome_iff, stored]
      rfl
    obtain ⟨place, opens⟩ := FileView.writable_iff.mp writable
    have copied := FileSystem.copy_apart opens
      (file_apart_checkpoint solid opens) stored
    unfold view at opens copied
    simp only at opens copied
    have result : nmRevert c.server filename tag now =
        ((updateFileModifiedTimeLl
            { c.server with disk := c.server.disk.put place content }
            filename now).1,
          nmResponse opRevert errSuccess
            "File reverted successfully".toList) := by
      simp [nmRevert, getFilePath_eq, stands, copied]
    rw [result]
    refine ⟨rfl, ?_⟩
    rw [← view_disk]
    unfold updateFileModifiedTimeLl
    split
    · exact FileSystem.load_put opens
    · exact FileSystem.load_put opens
  · intro other otherTag noted leaves
    obtain ⟨content, saved⟩ := Option.isSome_iff_exists.mp noted
    have stands : c.server.disk.PathExists
        (checkpointPath c.server.storage filename tag) := by
      rw [← FileSystem.read_isSome_iff, holds.stored content saved]
      rfl
    have same := sameAt_handleRequest stands leaves
    have storage := storage_handleRequest c.server
      (.checkpoint other otherTag)
    rw [handleRequest] at same storage
    simp only [nmViewcheckpoint, storage, same.read]

/-- The printed lines are a first part of the tags. -/
theorem printTags_of_fits (data : Text) (offset : Nat) (tags : List Text)
    (fits : TagsFit offset tags) :
    ∃ printed : List Text, (∀ tag ∈ printed, tag ∈ tags) ∧
      printTags data offset tags =
        data ++ printed.flatMap fun tag => tag ++ ['\n'] := by
  induction tags generalizing data offset with
  | nil => exact ⟨[], by simp, by simp [printTags]⟩
  | cons tag tags ih =>
      by_cases room : offset < maxDataSize - 100
      · obtain ⟨short, rest⟩ := fits room
        have whole : (tag ++ ['\n']).take (maxDataSize - offset - 2) =
            tag ++ ['\n'] :=
          List.take_of_length_le (by simpa using short)
        obtain ⟨printed, members, equal⟩ := ih (data ++ (tag ++ ['\n']))
          (offset + (tag ++ ['\n']).length) (by simpa using rest)
        refine ⟨tag :: printed, ?_, ?_⟩
        · intro other member
          rcases List.mem_cons.mp member with rfl | later
          · exact List.mem_cons_self
          · exact List.mem_cons_of_mem _ (members other later)
        · simp only [printTags, room, ↓reduceIte, whole, equal]
          simp
      · exact ⟨[], by simp, by simp [printTags, room]⟩

/-- The directory itself and its parent are not listed for a proper name. -/
theorem not_prefix_dots
    (named : filename.chars ≠ [] ∧ filename.chars ≠ ".".toList) :
    (filename.chars ++ ['.']).isPrefixOf ".".toList = false ∧
      (filename.chars ++ ['.']).isPrefixOf "..".toList = false := by
  obtain ⟨nonempty, different⟩ := named
  cases chars : filename.chars with
  | nil => exact (nonempty chars).elim
  | cons first rest =>
      cases rest with
      | nil =>
          have unequal : first ≠ '.' := by
            rintro rfl
            exact different chars
          simp [List.isPrefixOf, unequal]
      | cons second rest => simp [List.isPrefixOf]

/-- A name that is listed for the file is that of one of its own pairs. -/
theorem mem_matchingTags (lists : c.Lists c.server.storage filename)
    (named : filename.chars ≠ [] ∧ filename.chars ≠ ".".toList)
    {names : List Text} (found : checkpointNames c.server = some names)
    {text : Text} (listed : text ∈ matchingTags filename names) :
    ∃ tag : Filename, tag.chars = text ∧
      (c.saved filename tag).isSome := by
  unfold matchingTags at listed
  rw [List.mem_filterMap] at listed
  obtain ⟨name, member, extracted⟩ := listed
  obtain ⟨here, parent⟩ := not_prefix_dots named
  split at extracted
  case isFalse => cases extracted
  rename_i begins
  obtain ⟨place, reached, folder⟩ := Option.bind_eq_some_iff.mp found
  split at folder
  case isFalse => cases folder
  cases folder
  rcases List.mem_cons.mp member with rfl | member
  · rw [here] at begins
    cases begins
  rcases List.mem_cons.mp member with rfl | entry
  · rw [parent] at begins
    cases begins
  have stands := FileSystem.exists_of_mem_entries entry
  rw [← FileSystem.resolve_of_locate reached] at stands
  obtain ⟨tag, same, noted⟩ := lists.own name begins stands
  refine ⟨tag, ?_, noted⟩
  rw [← Option.some.inj extracted, same]
  simp

theorem exists_tags {printed : List Text}
    (each : ∀ text ∈ printed, ∃ tag : Filename, tag.chars = text ∧
      (c.saved filename tag).isSome) :
    ∃ tags : List Filename, (∀ tag ∈ tags, (c.saved filename tag).isSome) ∧
      tags.map CString.chars = printed := by
  induction printed with
  | nil => exact ⟨[], by simp, rfl⟩
  | cons text printed ih =>
      obtain ⟨tag, same, saved⟩ := each text (by simp)
      obtain ⟨tags, all, mapped⟩ := ih fun other member =>
        each other (by simp [member])
      refine ⟨tag :: tags, ?_, by simp [same, mapped]⟩
      intro other member
      rcases List.mem_cons.mp member with rfl | later
      · exact saved
      · exact all other later

theorem listsOwn_of_lists (lists : c.Lists c.server.storage filename)
    (named : filename.chars ≠ [] ∧ filename.chars ≠ ".".toList)
    (fits : ∀ names ∈ checkpointNames c.server,
      TagsFit 0 (matchingTags filename names)) :
    ListsOwn filename c := by
  unfold ListsOwn nmListcheckpoints
  cases found : checkpointNames c.server with
  | none => exact .inl rfl
  | some names =>
      simp only
      split
      · exact .inr (.inl rfl)
      · refine .inr (.inr ?_)
        obtain ⟨printed, members, equal⟩ :=
          printTags_of_fits [] 0 _ (fits names found)
        obtain ⟨tags, all, mapped⟩ := exists_tags fun text member =>
          mem_matchingTags lists named found (members text member)
        refine ⟨tags, all, ?_⟩
        simp only [nmResponse, equal, List.nil_append, ← mapped]
        simp [List.flatMap_map]

end

/-- After every run, a pair whose checkpoint no other request wrote yields
what it saved last, and a file lists only its own tags if nothing else got a
name that is listed for it. -/
theorem checkpoints_of_apart (s : FileHandler) (requests : List Request)
    (filename : Filename) :
    (∀ tag : Filename, '/' ∉ tag.chars →
      (∀ request ∈ requests, request.Apart s.storage filename tag) →
      SparesMetadata s.storage (getFilePath s.storage filename) →
      SparesMetadata s.storage (checkpointPath s.storage filename tag) →
      YieldsSaved filename tag ((Logged.start s).run requests)) ∧
    ((∀ request ∈ requests, request.Unlisted s.storage filename) →
      (∀ name, (filename.chars ++ ['.']).isPrefixOf name = true →
        ¬s.disk.Exists ((checkpointDir s.storage).resolve ++ [name])) →
      (filename.chars ≠ [] ∧ filename.chars ≠ ".".toList) →
      (∀ names ∈ checkpointNames ((Logged.start s).run requests).server,
        TagsFit 0 (matchingTags filename names)) →
      ListsOwn filename ((Logged.start s).run requests)) := by
  constructor
  · intro tag solid apart _ _
    have initially : (Logged.start s).Holds s.storage filename tag :=
      ⟨rfl, by simp [Logged.start]⟩
    have holds := Logged.holds_run solid initially apart
    exact yieldsSaved_of_holds solid (holds.server ▸ holds)
  · intro unlisted blank named fits
    have initially : (Logged.start s).Lists s.storage filename :=
      ⟨rfl, fun name begins stands => (blank name begins stands).elim⟩
    have lists := Logged.lists_run initially unlisted
    exact listsOwn_of_lists (lists.server ▸ lists) named fits

private def dottedName (text : String) : Filename :=
  CString.copy 255 text.toList

/-- Two files, one of them named like a checkpoint of the other. -/
private def dottedServer : FileHandler :=
  runRequests freshServer
    [.createFile (dottedName "a") sampleUser sampleTime,
      .write (dottedName "a") sampleUser 0 (sampleMessages "one".toList)
        sampleTime,
      .createFile (dottedName "a.b") sampleUser sampleTime,
      .write (dottedName "a.b") sampleUser 0 (sampleMessages "two".toList)
        sampleTime]

theorem checkpoint_of_apart_sample :
    YieldsSaved (dottedName "a") (dottedName "b.c")
      ((Logged.start dottedServer).run
        [.checkpoint (dottedName "a") (dottedName "b.c"),
          .checkpoint (dottedName "a.b") (dottedName "d")]) := by
  apply (checkpoints_of_apart _ _ _).1
  · decide
  · intro request member
    simp only [List.mem_cons, List.not_mem_nil, or_false] at member
    rcases member with rfl | rfl
    · exact .inl rfl
    · refine .inr ?_
      unfold Request.Leaves
      decide +kernel
  · decide +kernel
  · decide +kernel

/-- The checkpoint `c` of `a.b` replaces the checkpoint `b.c` of `a`. -/
theorem dotted_checkpoints_interfere :
    ¬YieldsSaved (dottedName "a") (dottedName "b.c")
      ((Logged.start dottedServer).run
        [.checkpoint (dottedName "a") (dottedName "b.c"),
          .checkpoint (dottedName "a.b") (dottedName "c")]) := by
  intro yields
  have viewed := yields.viewed "one".toList (by decide +kernel)
    (by decide)
  exact absurd viewed (by decide +kernel)

end Dfs.StorageServer
