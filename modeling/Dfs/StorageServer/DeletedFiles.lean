import Dfs.StorageServer.CommittedWords
import Dfs.StorageServer.RequestEffects

/-!
# Deleted and created again

Deletion drops the cached document only when no reference to it is left, and
the operations on a file leave references behind.  A file created under an old
name is blank as long as every deletion of that name found the document
without references or without sentences, and no UNDO of it finds another backup.
-/

namespace Dfs.StorageServer

/-- What a run keeps about the file: a name without a record has no document
with sentences. -/
structure Tracked (filename : Filename) (s : FileHandler) : Prop where
  nodup : s.names.Nodup
  stable : Stable s filename
  counted : ∀ document, (view s filename).cached = some document →
    document.Counted
  gone : filename ∉ s.names →
    ∀ document, (view s filename).cached = some document →
      document.sentences = []

/-- UNDO would load a document without sentences, if it loads one. -/
def RestoresBlank (filename : Filename) (s : FileHandler) : Prop :=
  (view s filename).writable = true →
    ∀ backup ∈ (view s filename).backup,
      (loadDocument backup).sentences = []

instance (filename : Filename) (s : FileHandler) :
    Decidable (RestoresBlank filename s) :=
  inferInstanceAs (Decidable (_ → ∀ backup ∈ (view s filename).backup, _))

/-- A DELETE request that removes the file finds no document, one without
references, or one without sentences.  While the name has no record, an UNDO
finds no backup with sentences. -/
def DeletesBlank (filename : Filename) (s : FileHandler) : Request → Prop
  | .deleteFile target =>
      target = filename → filename ∈ s.names →
        (s.disk.unlink (filePaths s.storage filename).file).isSome →
        ∀ file ∈ s.fileCache.get filename,
          file.refcount = 0 ∨ file.sentences = []
  | .undo target =>
      target = filename → filename ∉ s.names → RestoresBlank filename s
  | _ => True

section

variable {s t : FileHandler} {filename : Filename}

theorem Tracked.orderly (tracked : Tracked filename s) :
    Orderly filename s :=
  ⟨tracked.nodup, tracked.stable,
    FileView.document_holds tracked.counted counted_loadDocument⟩

/-- Besides what every run keeps, only a name without a record matters. -/
theorem Orderly.tracked (orderly : Orderly filename s)
    (gone : filename ∉ s.names →
      ∀ document, (view s filename).cached = some document →
        document.sentences = []) :
    Tracked filename s := by
  refine ⟨orderly.nodup, orderly.stable, ?_, gone⟩
  intro document cached
  apply orderly.counted document
  simp [FileView.document, cached]

theorem tracked_of_started (started : s.Started) (filename : Filename) :
    Tracked filename s := by
  apply (orderly_of_started started filename).tracked
  intro _
  simp [view, started.cache]

theorem Tracked.of_untouched (tracked : Tracked filename s)
    (same : Untouched filename s t) : Tracked filename t := by
  apply (tracked.orderly.of_cache (same.nodup tracked.nodup)
    same.cache).tracked
  intro unknown
  rw [same.view]
  exact tracked.gone (fun known => unknown (same.member.mpr known))

theorem tracked_nmCreateFile (tracked : Tracked filename s)
    (username : Username) (now : TimeText) :
    Tracked filename (nmCreateFile s filename username now).1 := by
  apply (orderly_nmCreateFile tracked.orderly username now).tracked
  intro unknown
  rcases (view_nmCreateFile tracked.stable username now).2 with
    ⟨known, names, _⟩ | ⟨_, same, _⟩ | ⟨_, names, _⟩
  · exact (unknown (names ▸ known)).elim
  · rw [same] at unknown ⊢
    exact tracked.gone unknown
  · simp [names] at unknown

theorem tracked_nmDeleteFile (tracked : Tracked filename s)
    (blank : DeletesBlank filename s (.deleteFile filename)) :
    Tracked filename (nmDeleteFile s filename).1 := by
  apply (orderly_nmDeleteFile tracked.orderly).tracked
  intro unknown
  have names := (@frame_markForDeletion s filename).names
  rcases nmDeleteFile_cases s filename with
    ⟨_, result⟩ | ⟨known, _, result⟩ | ⟨known, stored, _, cache⟩
  · rw [result] at unknown ⊢
    exact tracked.gone unknown
  · rw [result, names] at unknown
    exact (unknown known).elim
  · have cached : (view (nmDeleteFile s filename).1 filename).cached =
        (view (markForDeletion s filename) filename).cached := by
      simp [view, cache]
    rw [cached]
    intro document found
    rcases (cached_markForDeletion tracked.stable).2 with
      dropped | ⟨kept, used⟩
    · rw [dropped] at found
      cases found
    · rw [kept] at found
      obtain ⟨file, inCache, rfl⟩ := Option.map_eq_some_iff.mp found
      rcases blank rfl known stored file inCache with unused | empty
      · exact (used file inCache unused).elim
      · exact empty

theorem tracked_handleWriteRequest (tracked : Tracked filename s)
    (username : Username) (sentenceIndex : Int)
    (messages : List WriteMessage) (now : TimeText) :
    Tracked filename (handleWriteRequest s filename username sentenceIndex
      messages now).1 := by
  apply (orderly_handleWriteRequest tracked.orderly username sentenceIndex
    messages now).tracked
  intro unknown
  rw [(frame_handleWriteRequest username sentenceIndex messages now).names]
    at unknown
  rw [view_handleWriteRequest_of_unknown tracked.stable unknown username
    sentenceIndex messages now]
  exact tracked.gone unknown

/-- A restored document without sentences, or what was cached. -/
theorem cached_handleUndoRequest (stable : Stable s filename)
    (blank : RestoresBlank filename s) {document : Document}
    (cached : (view (handleUndoRequest s filename).1 filename).cached =
      some document) :
    (view s filename).cached = some document ∨ document.sentences = [] := by
  rw [(view_handleUndoRequest stable).1] at cached
  rcases FileView.restore_cases (view s filename) with
    same | ⟨backup, place, saved, opens, restored⟩
  · rw [same] at cached
    exact .inl cached
  · rw [restored] at cached
    cases cached
    exact .inr
      (blank (FileView.writable_iff.mpr ⟨place, opens⟩) backup saved)

theorem tracked_handleUndoRequest (tracked : Tracked filename s)
    (blank : DeletesBlank filename s (.undo filename)) :
    Tracked filename (handleUndoRequest s filename).1 := by
  apply (orderly_handleUndoRequest tracked.orderly).tracked
  intro unknown document cached
  rw [frame_handleUndoRequest.names] at unknown
  rcases cached_handleUndoRequest tracked.stable (blank rfl unknown) cached
    with same | empty
  · exact tracked.gone unknown document same
  · exact empty

theorem tracked_nmCreatefolder (tracked : Tracked filename s)
    (username : Username) (now : TimeText) :
    Tracked filename (nmCreatefolder s filename username now).1 := by
  apply (orderly_nmCreatefolder tracked.orderly username now).tracked
  intro unknown
  obtain ⟨_, cache, names⟩ := nmCreatefolder_cases s filename username now
  have cached :
      (view (nmCreatefolder s filename username now).1 filename).cached =
        (view s filename).cached := by
    simp [view, cache]
  rw [cached]
  rcases names with same | ⟨fresh, added⟩
  · exact tracked.gone (same ▸ unknown)
  · simp [added] at unknown

theorem tracked_step (tracked : Tracked filename s) {request : Request}
    (blank : DeletesBlank filename s request) :
    Tracked filename (handleRequest s request) := by
  by_cases touches : request.Touches filename
  · rcases Request.touches_cases touches with
      ⟨username, now, rfl⟩ | rfl | ⟨username, now, rfl⟩ |
      ⟨username, sentenceIndex, messages, now, rfl⟩ | rfl
    · exact tracked_nmCreateFile tracked username now
    · exact tracked_nmDeleteFile tracked blank
    · exact tracked_nmCreatefolder tracked username now
    · exact tracked_handleWriteRequest tracked username sentenceIndex
        messages now
    · exact tracked_handleUndoRequest tracked blank
  · exact tracked.of_untouched (untouched_handleRequest touches)

theorem tracked_run (tracked : Tracked filename s) {requests : List Request}
    (blank : StepRun.AllSteps handleRequest (DeletesBlank filename) s
      requests) :
    Tracked filename (runRequests s requests) :=
  @StepRun.invariant _ _ handleRequest (DeletesBlank filename)
    (Tracked filename) (fun _ _ holds met => tracked_step holds met) s
    requests tracked blank

end

/-- The file was created and not written since. -/
structure Pristine (filename : Filename) (s : FileHandler) : Prop where
  stable : Stable s filename
  known : filename ∈ s.names
  cached : ∃ document, (view s filename).cached = some document ∧
    document.sentences = [] ∧ document.Counted

/-- The request opens no session on the file, a DELETE of it fails and leaves
the document, and an UNDO finds no backup with sentences. -/
def Waits (filename : Filename) (s : FileHandler) : Request → Prop
  | .write target username sentenceIndex _ _ =>
      target = filename →
        (openWrite s filename username sentenceIndex).2.2 = none
  | .deleteFile target =>
      target = filename →
        s.disk.unlink (filePaths s.storage filename).file = none ∧
          ∀ file ∈ s.fileCache.get filename, file.refcount ≠ 0
  | .undo target => target = filename → RestoresBlank filename s
  | _ => True

section

variable {s t : FileHandler} {filename : Filename}

theorem Pristine.document (pristine : Pristine filename s) :
    ∃ document, (view s filename).document = some document ∧
      document.sentences = [] ∧ document.Counted := by
  obtain ⟨document, cached, empty, counted⟩ := pristine.cached
  exact ⟨document, by simp [FileView.document, cached], empty, counted⟩

theorem Pristine.of_untouched (pristine : Pristine filename s)
    (same : Untouched filename s t) : Pristine filename t := by
  refine ⟨same.stable pristine.stable, same.member.mpr pristine.known, ?_⟩
  rw [same.view]
  exact pristine.cached

/-- The backup of a document without sentences, and what can be read where it
could not be saved. -/
theorem saveBackup_of_empty {v : FileView} {document : Document}
    (loaded : v.document = some document)
    (empty : document.sentences = []) :
    v.saveBackup.cached = some document ∧
      (∀ place, v.saveBackup.world.target v.saveBackup.paths.backup =
        some place → v.saveBackup.backup = some []) ∧
      ∀ text, v.saveBackup.backup = some text → text = [] := by
  rw [FileView.saveBackup_of_document loaded, empty]
  have folders := FilePaths.folders_saveBackup v.paths v.world []
  have saved : ∀ place,
      (v.world.makeParents v.paths.backup).target v.paths.backup =
        some place →
      (v.paths.saveBackup v.world []).read v.paths.backup = some [] :=
    fun _ opens => FilePaths.read_saveBackup opens
  refine ⟨rfl, ?_, ?_⟩
  · intro place opens
    exact saved place
      ((FileView.target_congr folders v.paths.backup).symm.trans opens)
  · intro text stored
    change (v.paths.saveBackup v.world []).read v.paths.backup = some text
      at stored
    rcases Option.eq_none_or_eq_some
        ((v.world.makeParents v.paths.backup).target v.paths.backup) with
      blocked | ⟨place, opens⟩
    · rw [FilePaths.saveBackup_eq, blocked] at stored
      exact FileSystem.read_of_target_none blocked stored
    · rw [saved place opens] at stored
      exact (Option.some.inj stored).symm

theorem blank_created (tracked : Tracked filename s)
    (unknown : filename ∉ s.names) {username : Username} {now : TimeText}
    (success : (nmCreateFile s filename username now).2.errorCode =
      errSuccess) :
    ∃ (v : FileView) (document : Document),
      v.document = some document ∧ document.sentences = [] ∧
      document.Counted ∧
      Stable (nmCreateFile s filename username now).1 filename ∧
      filename ∈ (nmCreateFile s filename username now).1.names ∧
      view (nmCreateFile s filename username now).1 filename =
        v.saveBackup := by
  obtain ⟨stable, cases⟩ := view_nmCreateFile tracked.stable username now
  rcases cases with
    ⟨known, _⟩ | ⟨_, _, failed⟩ | ⟨_, names, place, opens, saved⟩
  · exact (unknown known).elim
  · exact (failed success).elim
  · have disk := FileView.disk_emptied opens
    have named : filename ∈ (nmCreateFile s filename username now).1.names :=
      by simp [names]
    cases cached : (view s filename).cached with
    | some document =>
        refine ⟨_, document, ?_, tracked.gone unknown document cached,
          tracked.counted document cached, stable, named, saved⟩
        simp [FileView.document, FileView.emptied, cached]
    | none =>
        have uncached : ((view s filename).emptied place).cached = none :=
          cached
        refine ⟨_, loadDocument [], ?_, rfl, counted_loadDocument [], stable,
          named, saved⟩
        rw [FileView.document, uncached]
        exact congrArg (Option.map loadDocument) disk

theorem pristine_created (tracked : Tracked filename s)
    (unknown : filename ∉ s.names) {username : Username} {now : TimeText}
    (success : (nmCreateFile s filename username now).2.errorCode =
      errSuccess) :
    Pristine filename (nmCreateFile s filename username now).1 := by
  obtain ⟨v, document, loaded, empty, counted, stable, known, saved⟩ :=
    blank_created tracked unknown success
  refine ⟨stable, known, document, ?_, empty, counted⟩
  rw [saved]
  exact (saveBackup_of_empty loaded empty).1

theorem pristine_nmCreateFile (pristine : Pristine filename s)
    (username : Username) (now : TimeText) :
    Pristine filename (nmCreateFile s filename username now).1 := by
  obtain ⟨stable, cases⟩ := view_nmCreateFile pristine.stable username now
  rcases cases with
    ⟨known, names, saved⟩ | ⟨unknown, _⟩ | ⟨unknown, _⟩
  · obtain ⟨document, loaded, empty, counted⟩ := pristine.document
    refine ⟨stable, names ▸ known, document, ?_, empty, counted⟩
    rw [saved]
    exact (saveBackup_of_empty loaded empty).1
  · exact (unknown pristine.known).elim
  · exact (unknown pristine.known).elim

theorem pristine_nmDeleteFile (pristine : Pristine filename s)
    (waits : Waits filename s (.deleteFile filename)) :
    Pristine filename (nmDeleteFile s filename).1 := by
  obtain ⟨absent, used⟩ := waits rfl
  rcases nmDeleteFile_cases s filename with
    ⟨unknown, _⟩ | ⟨known, _, result⟩ | ⟨_, stored, _⟩
  · exact (unknown pristine.known).elim
  · obtain ⟨stable, marked⟩ := cached_markForDeletion pristine.stable
    have kept : (view (markForDeletion s filename) filename).cached =
        (view s filename).cached := by
      rcases marked with dropped | ⟨kept, _⟩
      · obtain ⟨document, cached, _⟩ := pristine.cached
        obtain ⟨file, inCache, _⟩ := Option.map_eq_some_iff.mp cached
        have stays := used file inCache
        unfold markForDeletion at dropped
        simp [inCache, stays, view, FileHandler.cache] at dropped
      · exact kept
    rw [result]
    refine ⟨stable, (@frame_markForDeletion s filename).names ▸ known, ?_⟩
    rw [kept]
    exact pristine.cached
  · rw [absent] at stored
    cases stored

theorem pristine_refused (pristine : Pristine filename s)
    {username : Username} {sentenceIndex : Int}
    (refused : (openWrite s filename username sentenceIndex).2.2 = none)
    (messages : List WriteMessage) (now : TimeText) :
    Pristine filename (handleWriteRequest s filename username sentenceIndex
      messages now).1 := by
  obtain ⟨written, stable⟩ := view_handleWriteRequest pristine.stable
    username sentenceIndex messages now
  rw [(view_openWrite pristine.stable username sentenceIndex).2.1] at refused
  obtain ⟨_, keepsCached, _⟩ := FileView.write_of_refused messages refused
  obtain ⟨document, cached, empty, counted⟩ := pristine.cached
  have names := (@frame_handleWriteRequest filename s username sentenceIndex
    messages now).names
  refine ⟨stable, names ▸ pristine.known, document, ?_, empty, counted⟩
  rw [written]
  exact keepsCached document cached

theorem pristine_handleUndoRequest (pristine : Pristine filename s)
    (waits : Waits filename s (.undo filename)) :
    Pristine filename (handleUndoRequest s filename).1 := by
  obtain ⟨restored, stable⟩ := view_handleUndoRequest pristine.stable
  have known : filename ∈ (handleUndoRequest s filename).1.names :=
    (@frame_handleUndoRequest filename s).names ▸ pristine.known
  refine ⟨stable, known, ?_⟩
  rw [restored]
  rcases FileView.restore_cases (view s filename) with
    same | ⟨backup, place, saved, opens, reloaded⟩
  · rw [same]
    exact pristine.cached
  · rw [reloaded]
    exact ⟨loadDocument backup, rfl,
      waits rfl (FileView.writable_iff.mpr ⟨place, opens⟩) backup saved,
      counted_loadDocument backup⟩

theorem pristine_nmCreatefolder (pristine : Pristine filename s)
    (username : Username) (now : TimeText) :
    Pristine filename (nmCreatefolder s filename username now).1 := by
  obtain ⟨_, cache, names⟩ := nmCreatefolder_cases s filename username now
  rcases names with same | ⟨fresh, _⟩
  · exact pristine.of_untouched
      ⟨congrArg (fun store => store.get filename) cache,
        Iff.of_eq (congrArg (filename ∈ ·) same),
        fun nodup => same ▸ nodup⟩
  · exact (fresh pristine.known).elim

theorem pristine_step (pristine : Pristine filename s) {request : Request}
    (waits : Waits filename s request) :
    Pristine filename (handleRequest s request) := by
  by_cases touches : request.Touches filename
  · rcases Request.touches_cases touches with
      ⟨username, now, rfl⟩ | rfl | ⟨username, now, rfl⟩ |
      ⟨username, sentenceIndex, messages, now, rfl⟩ | rfl
    · exact pristine_nmCreateFile pristine username now
    · exact pristine_nmDeleteFile pristine waits
    · exact pristine_nmCreatefolder pristine username now
    · exact pristine_refused pristine (waits rfl) messages now
    · exact pristine_handleUndoRequest pristine waits
  · exact pristine.of_untouched (untouched_handleRequest touches)

theorem pristine_run (pristine : Pristine filename s)
    {requests : List Request}
    (waits : StepRun.AllSteps handleRequest (Waits filename) s requests) :
    Pristine filename (runRequests s requests) :=
  @StepRun.invariant _ _ handleRequest (Waits filename) (Pristine filename)
    (fun _ _ holds met => pristine_step holds met) s requests pristine waits

end

/-- A text on disk consists of words of the queue. -/
def OnlyWords (queue : List WordText) (disk : Option Text) : Prop :=
  ∀ text, disk = some text →
    ∃ words, words.Subperm queue ∧ text = wordsText words

/-- A commit can replace the file, or there is nothing to replace. -/
def Replaceable (filename : Filename) (s : FileHandler) : Prop :=
  (view s filename).Openable ∨
    ∀ text, (view s filename).made.disk = some text → text = []

/-- No old content is in the file `created` when its first session opens in
the state `s`. -/
structure Blank (filename : Filename) (created s : FileHandler) : Prop where
  saved : ∀ place,
    created.disk.target (filePaths created.storage filename).backup =
      some place →
    (view created filename).backup = some []
  backup : ∀ text, (view created filename).backup = some text → text = []
  document : ∀ username sentenceIndex session,
    (openWrite s filename username sentenceIndex).2.2 = some session →
    ∃ file,
      (openWrite s filename username sentenceIndex).1.fileCache.get
        filename = some file ∧ file.sentences = []
  disk : ∀ username sentenceIndex session messages now,
    (openWrite s filename username sentenceIndex).2.2 = some session →
    (receiveCommands session messages).2.1 = true →
    Replaceable filename s →
    OnlyWords (receiveCommands session messages).1.queue
      ((handleRequest s (.write filename username sentenceIndex messages
        now)).diskText filename)

section

variable {s : FileHandler} {filename : Filename}

theorem sentences_of_content {left right : Document}
    (same : left.content = right.content) (empty : right.sentences = []) :
    left.sentences = [] := by
  apply List.eq_nil_of_length_eq_zero
  rw [Document.length_sentences_of_content same, empty]
  rfl

theorem Pristine.opened (pristine : Pristine filename s)
    {username : Username} {sentenceIndex : Int} {session : WriteSession}
    (granted : (openWrite s filename username sentenceIndex).2.2 =
      some session) :
    ∃ file,
      (openWrite s filename username sentenceIndex).1.fileCache.get
        filename = some file ∧ file.sentences = [] := by
  obtain ⟨viewed, answered, _⟩ :=
    view_openWrite pristine.stable username sentenceIndex
  obtain ⟨document, loaded, empty, _⟩ := pristine.document
  rcases FileView.openWrite_cases (view s filename)
      (hasWriteAccessLl s filename username).1 username sentenceIndex with
    ⟨refused, _⟩ | ⟨found, locked, foundLoaded, _, rfl, opened⟩
  · rw [answered, refused] at granted
    cases granted
  · rw [loaded] at foundLoaded
    cases foundLoaded
    have cached : (view (openWrite s filename username sentenceIndex).1
        filename).cached =
        some (document.lockSentence sentenceIndex username).1 := by
      rw [viewed, opened]
    obtain ⟨file, inCache, same⟩ := Option.map_eq_some_iff.mp cached
    refine ⟨file, inCache, ?_⟩
    rw [same]
    exact sentences_of_content
      (Document.content_lockSentence document sentenceIndex username) empty

/-- A commit to a document without sentences writes the queue alone. -/
theorem writeLinkedListToFile_commit_empty {document committed : Document}
    {session : WriteSession} (empty : document.sentences = [])
    (done : document.commit session = some committed) :
    ∃ words : List WordText, words.Perm session.queue ∧
      writeLinkedListToFile committed.sentences = wordsText words := by
  have added := Document.words_commit done
  rcases Document.commit_cases done with ⟨sentence, found, _⟩ | ⟨_, _, rfl⟩
  · simp [Document.sentenceAt, empty] at found
  · refine ⟨applyEdits session [], ?_, ?_⟩
    · simpa [Document.words, empty] using added
    · simp [writeLinkedListToFile, empty, delimiterText, createSentenceNode,
        CText.joinSpaces_singleton]

theorem Pristine.committed (pristine : Pristine filename s)
    {username : Username} {sentenceIndex : Int} {session : WriteSession}
    {messages : List WriteMessage} (now : TimeText)
    (granted : (openWrite s filename username sentenceIndex).2.2 =
      some session)
    (completed : (receiveCommands session messages).2.1 = true)
    (replaceable : Replaceable filename s) :
    OnlyWords (receiveCommands session messages).1.queue
      ((handleRequest s (.write filename username sentenceIndex messages
        now)).diskText filename) := by
  obtain ⟨document, loaded, empty, counted⟩ := pristine.document
  rw [(view_openWrite pristine.stable username sentenceIndex).2.1] at granted
  have countedAll : ∀ other, (view s filename).document = some other →
      other.Counted := by
    intro other found
    rw [loaded] at found
    cases found
    exact counted
  obtain ⟨found, unlocked, committed, open_, done, written⟩ :=
    FileView.write_of_completed messages countedAll granted completed
  have foundLoaded := open_.loaded
  rw [loaded] at foundLoaded
  cases foundLoaded
  obtain ⟨words, queued, rendered⟩ := writeLinkedListToFile_commit_empty
    (sentences_of_content open_.content empty) done
  have disk : (handleRequest s (.write filename username sentenceIndex
      messages now)).diskText filename =
      if (view s filename).Openable then
        some (writeLinkedListToFile committed.sentences)
      else (view s filename).made.disk := by
    rw [← FileView.disk_received, ← FileView.disk_committed, ← written,
      ← (view_handleWriteRequest pristine.stable username sentenceIndex
        messages now).1]
    exact view_disk.symm
  intro text stored
  rw [disk] at stored
  split at stored
  · cases stored
    exact ⟨words, queued.subperm, rendered⟩
  · rename_i blocked
    rcases replaceable with opens | nothing
    · exact (blocked opens).elim
    · exact ⟨[], List.nil_subperm, nothing text stored⟩

end

/-- A file that is created holds nothing of an earlier file of its name: the
backup is empty, the first session edits a document without sentences, and
its commit leaves only its own words on disk.  Every earlier DELETE of the
name must have found the document disposable. -/
theorem recreated_file_is_blank {start : FileHandler} (started : start.Started)
    {filename : Filename} {before between : List Request}
    {owner : Username} {now : TimeText}
    (blank : StepRun.AllSteps handleRequest (DeletesBlank filename) start
      before)
    (unknown : filename ∉ (runRequests start before).names)
    (success : (nmCreateFile (runRequests start before) filename owner
      now).2.errorCode = errSuccess)
    (waits : StepRun.AllSteps handleRequest (Waits filename)
      (runRequests start (before ++ [.createFile filename owner now]))
      between)
    (_spared : SparesMetadata start.storage
      (getFilePath start.storage filename)) :
    Blank filename
      (runRequests start (before ++ [.createFile filename owner now]))
      (runRequests start
        (before ++ .createFile filename owner now :: between)) := by
  have tracked := tracked_run (tracked_of_started started filename) blank
  obtain ⟨v, document, loaded, empty, _, _, _, viewed⟩ :=
    blank_created tracked unknown success
  obtain ⟨_, saved, backup⟩ := saveBackup_of_empty loaded empty
  rw [← viewed] at saved backup
  have created : Pristine filename
      (runRequests start (before ++ [.createFile filename owner now])) := by
    unfold runRequests
    rw [StepRun.run_append]
    exact pristine_created tracked unknown success
  have reached : runRequests start
      (before ++ .createFile filename owner now :: between) =
      runRequests (runRequests start
        (before ++ [.createFile filename owner now])) between := by
    unfold runRequests
    rw [← StepRun.run_append, List.append_assoc]
    rfl
  have pristine := pristine_run created waits
  have last : runRequests start (before ++ [.createFile filename owner now]) =
      (nmCreateFile (runRequests start before) filename owner now).1 := by
    unfold runRequests
    rw [StepRun.run_append]
    rfl
  rw [reached]
  exact ⟨last ▸ saved, last ▸ backup,
    fun _ _ _ granted => pristine.opened granted,
    fun _ _ _ _ now granted completed replaceable =>
      pristine.committed now granted completed replaceable⟩

/-- After UNDO no reference to the document is left. -/
theorem blank_after_undo :
    Blank sampleFile
      (runRequests freshServer
        ([sampleCreate, sampleWrite 0 "old".toList, sampleWrite 0 "new".toList,
          .undo sampleFile, .deleteFile sampleFile] ++ [sampleCreate]))
      (runRequests freshServer
        ([sampleCreate, sampleWrite 0 "old".toList, sampleWrite 0 "new".toList,
          .undo sampleFile, .deleteFile sampleFile] ++ sampleCreate ::
          [.undo sampleFile])) := by
  apply recreated_file_is_blank started_freshServer
  · refine ⟨trivial, trivial, trivial, ?_, ?_, trivial⟩
    · unfold DeletesBlank
      decide +kernel
    · unfold DeletesBlank
      decide +kernel
  · decide +kernel
  · decide +kernel
  · refine ⟨?_, trivial⟩
    unfold Waits
    decide +kernel
  · decide +kernel

/-- A file that was written and deleted is created again with its old word:
in the backup, in the document the next session edits, and on disk once that
session commits. -/
theorem deleted_word_returns :
    (nmDeleteFile (runRequests freshServer
        [sampleCreate, sampleWrite 0 "secret".toList]) sampleFile).2.errorCode =
        errSuccess ∧
      sampleFile ∉ (runRequests freshServer
        [sampleCreate, sampleWrite 0 "secret".toList,
          .deleteFile sampleFile]).names ∧
      (nmCreateFile (runRequests freshServer
        [sampleCreate, sampleWrite 0 "secret".toList, .deleteFile sampleFile])
        sampleFile sampleUser sampleTime).2.errorCode = errSuccess ∧
      (view (runRequests freshServer
        [sampleCreate, sampleWrite 0 "secret".toList, .deleteFile sampleFile,
          sampleCreate]) sampleFile).backup = some "secret".toList ∧
      (view (openWrite (runRequests freshServer
        [sampleCreate, sampleWrite 0 "secret".toList, .deleteFile sampleFile,
          sampleCreate]) sampleFile sampleUser 0).1 sampleFile).cached.map
        Document.words = some [createWordNode "secret".toList] ∧
      (runRequests freshServer
        [sampleCreate, sampleWrite 0 "secret".toList, .deleteFile sampleFile,
          sampleCreate, sampleWrite 0 "x".toList]).diskText sampleFile =
        some "x secret".toList := by
  refine ⟨?_, ?_, ?_, ?_, ?_, ?_⟩
  · decide +kernel
  · decide +kernel
  · decide +kernel
  · decide +kernel
  · decide +kernel
  · decide +kernel

end Dfs.StorageServer
