import Dfs.StorageServer.CompleteRequests

/-!
# The effect of each request on one file

DELETE and CREATEFOLDER by their outcomes, and the requests that leave a file
alone.  The last part is the invariant that no request breaks: names are
unique, every cached document is counted, and none is about to be freed while
an operation holds it.
-/

namespace Dfs.StorageServer

section

variable {s t : FileHandler} {filename : Filename}

theorem frame_markForDeletion :
    Frame filename s (markForDeletion s filename) := by
  unfold markForDeletion
  split
  · exact .refl filename s
  · split
    · exact frame_uncache
    · exact frame_cache _

/-- Only the cache changes. -/
theorem markForDeletion_eq (s : FileHandler) (filename : Filename) :
    ∃ fileCache, markForDeletion s filename =
      { s with fileCache := fileCache } := by
  unfold markForDeletion
  split
  · exact ⟨s.fileCache, rfl⟩
  · split
    · exact ⟨_, rfl⟩
    · exact ⟨_, rfl⟩

/-- A document without references is dropped, any other one stays as it is. -/
theorem cached_markForDeletion (stable : Stable s filename) :
    Stable (markForDeletion s filename) filename ∧
      ((view (markForDeletion s filename) filename).cached = none ∨
        (view (markForDeletion s filename) filename).cached =
            (view s filename).cached ∧
          ∀ file, s.fileCache.get filename = some file →
            file.refcount ≠ 0) := by
  unfold markForDeletion
  cases found : s.fileCache.get filename with
  | none => exact ⟨stable, .inl (by simp [view, found])⟩
  | some file =>
      have held := stable file found
      by_cases unused : file.refcount = 0
      · simp only [unused, ↓reduceIte]
        refine ⟨?_, .inl ?_⟩
        · intro other cached
          simp [FileHandler.uncache] at cached
        · simp [view, FileHandler.uncache]
      · simp only [unused, ↓reduceIte]
        refine ⟨stable_cache ⟨held.1, ?_⟩, .inr ⟨?_, ?_⟩⟩
        · intro _
          have nonnegative := held.1
          simp only
          omega
        · simp [view, found, FileHandler.cache]
        · intro other same
          cases same
          exact unused

/-- The record of the file is taken out. -/
theorem names_eraseRecord (records : List FileMetadata) :
    (records.eraseIdx (records.findIdx
        fun record => record.filename = filename)).map
      FileMetadata.filename =
      (records.map FileMetadata.filename).erase filename := by
  induction records with
  | nil => rfl
  | cons record records ih =>
      by_cases same : record.filename = filename
      · simp [List.findIdx_cons, same]
      · simp [List.findIdx_cons, same, ih]

/-- A DELETE request finds no record, fails after marking the document, or
removes file, backup and record. -/
theorem nmDeleteFile_cases (s : FileHandler) (filename : Filename) :
    (filename ∉ s.names ∧ (nmDeleteFile s filename).1 = s) ∨
      (filename ∈ s.names ∧
        s.disk.unlink (filePaths s.storage filename).file = none ∧
        (nmDeleteFile s filename).1 = markForDeletion s filename) ∨
      filename ∈ s.names ∧
        (s.disk.unlink (filePaths s.storage filename).file).isSome ∧
        (nmDeleteFile s filename).1.names = s.names.erase filename ∧
        (nmDeleteFile s filename).1.fileCache =
          (markForDeletion s filename).fileCache := by
  obtain ⟨fileCache, marked⟩ := markForDeletion_eq s filename
  unfold nmDeleteFile deleteFileLl
  cases record : findMetadata s filename with
  | none => exact .inl ⟨findMetadata_eq_none_iff.mp record, rfl⟩
  | some metadata =>
      have known : filename ∈ s.names := by
        by_contra unknown
        rw [findMetadata_eq_none_iff.mpr unknown] at record
        cases record
      simp only [marked, getFilePath_eq]
      cases unlinked : s.disk.unlink (filePaths s.storage filename).file with
      | none => exact .inr (.inl ⟨known, rfl, rfl⟩)
      | some disk =>
          exact .inr (.inr ⟨known, rfl, names_eraseRecord _, rfl⟩)

end

/-- Nothing that is kept about the file in memory changes. -/
structure Untouched (filename : Filename) (s t : FileHandler) : Prop where
  cache : t.fileCache.get filename = s.fileCache.get filename
  member : filename ∈ t.names ↔ filename ∈ s.names
  nodup : s.names.Nodup → t.names.Nodup

/-- The requests that change document or record of the file. -/
def Request.Touches (filename : Filename) : Request → Prop
  | .createFile target _ _ => target = filename
  | .deleteFile target => target = filename
  | .createfolder target _ _ => target = filename
  | .write target _ _ _ _ => target = filename
  | .undo target => target = filename
  | _ => False

theorem Request.touches_cases {filename : Filename} {request : Request}
    (touches : request.Touches filename) :
    (∃ username now, request = .createFile filename username now) ∨
      request = .deleteFile filename ∨
      (∃ username now, request = .createfolder filename username now) ∨
      (∃ username sentenceIndex messages now,
        request = .write filename username sentenceIndex messages now) ∨
      request = .undo filename := by
  cases request with
  | createFile target username now =>
      cases touches
      exact .inl ⟨username, now, rfl⟩
  | deleteFile target =>
      cases touches
      exact .inr (.inl rfl)
  | createfolder target username now =>
      cases touches
      exact .inr (.inr (.inl ⟨username, now, rfl⟩))
  | write target username sentenceIndex messages now =>
      cases touches
      exact .inr (.inr (.inr (.inl
        ⟨username, sentenceIndex, messages, now, rfl⟩)))
  | undo target =>
      cases touches
      exact .inr (.inr (.inr (.inr rfl)))
  | addaccess _ _ _ => exact touches.elim
  | remaccess _ _ => exact touches.elim
  | move _ _ => exact touches.elim
  | checkpoint _ _ => exact touches.elim
  | revert _ _ _ => exact touches.elim
  | transfer _ _ _ => exact touches.elim
  | query => exact touches.elim

section

variable {s t u : FileHandler} {filename : Filename}

theorem Untouched.refl (filename : Filename) (s : FileHandler) :
    Untouched filename s s :=
  ⟨rfl, Iff.rfl, id⟩

theorem Untouched.trans (first : Untouched filename s t)
    (second : Untouched filename t u) : Untouched filename s u :=
  ⟨second.cache.trans first.cache, second.member.trans first.member,
    fun nodup => second.nodup (first.nodup nodup)⟩

theorem Frame.untouched {target : Filename} (frame : Frame target s t)
    (different : filename ≠ target) : Untouched filename s t :=
  ⟨frame.cache filename different, by rw [frame.names],
    fun nodup => frame.names ▸ nodup⟩

theorem Silent.untouched (silent : Silent s t) : Untouched filename s t :=
  ⟨by rw [silent.cache], by rw [silent.names],
    fun nodup => silent.names ▸ nodup⟩

theorem nodup_concat {names : List Filename} {added : Filename}
    (nodup : names.Nodup) (fresh : added ∉ names) :
    (names ++ [added]).Nodup := by
  rw [List.nodup_append]
  refine ⟨nodup, by simp, ?_⟩
  intro name member other same equal
  rw [List.mem_singleton.mp same] at equal
  exact fresh (equal ▸ member)

theorem untouched_nmCreateFile {target : Filename}
    (different : filename ≠ target) (username : Username)
    (now : TimeText) :
    Untouched filename s (nmCreateFile s target username now).1 := by
  rcases nmCreateFile_cases s target username now with
    ⟨_, result⟩ | ⟨_, result, _⟩ | ⟨unknown, place, t, created, result⟩
  · rw [result]
    exact frame_saveUndoBackupLl.untouched different
  · rw [result]
    exact .refl filename s
  · rw [result]
    have made : Untouched filename s t := by
      refine ⟨by rw [created.fileCache], ?_, ?_⟩
      · simp [created.names, different]
      · intro nodup
        rw [created.names]
        exact nodup_concat nodup unknown
    exact made.trans (frame_saveUndoBackupLl.untouched different)

theorem untouched_nmDeleteFile {target : Filename}
    (different : filename ≠ target) :
    Untouched filename s (nmDeleteFile s target).1 := by
  rcases nmDeleteFile_cases s target with
    ⟨_, result⟩ | ⟨_, _, result⟩ | ⟨_, _, names, cache⟩
  · rw [result]
    exact .refl filename s
  · rw [result]
    exact frame_markForDeletion.untouched different
  · refine ⟨?_, ?_, ?_⟩
    · rw [cache]
      exact frame_markForDeletion.cache filename different
    · rw [names]
      exact List.mem_erase_of_ne different
    · intro nodup
      rw [names]
      exact nodup.erase target

theorem untouched_handleRequest {request : Request}
    (elsewhere : ¬request.Touches filename) :
    Untouched filename s (handleRequest s request) := by
  cases request with
  | createFile target username now =>
      exact untouched_nmCreateFile (Ne.symm elsewhere) username now
  | deleteFile target => exact untouched_nmDeleteFile (Ne.symm elsewhere)
  | addaccess target data accessType =>
      exact (silent_nmAddaccess data accessType).untouched
  | remaccess target data => exact (silent_nmRemaccess data).untouched
  | createfolder target username now =>
      have different : filename ≠ target := Ne.symm elsewhere
      obtain ⟨_, cache, names⟩ := nmCreatefolder_cases s target username now
      refine ⟨congrArg (fun store => store.get filename) cache, ?_, ?_⟩
      · rcases names with same | ⟨_, added⟩
        · rw [handleRequest, same]
        · simp [handleRequest, added, different]
      · intro nodup
        rcases names with same | ⟨fresh, added⟩
        · rw [handleRequest, same]
          exact nodup
        · rw [handleRequest, added]
          exact nodup_concat nodup fresh
  | move target targetPath => exact (silent_nmMove targetPath).untouched
  | checkpoint target tag => exact (silent_nmCheckpoint tag).untouched
  | revert target tag now => exact (silent_nmRevert tag now).untouched
  | transfer target username now =>
      exact (silent_handleTransferRequest username now).untouched
  | write target username sentenceIndex messages now =>
      exact (frame_handleWriteRequest username sentenceIndex messages
        now).untouched (Ne.symm elsewhere)
  | undo target =>
      exact frame_handleUndoRequest.untouched (Ne.symm elsewhere)
  | query => exact .refl filename s

theorem Untouched.view (same : Untouched filename s t) :
    (view t filename).cached = (view s filename).cached := by
  simp [StorageServer.view, same.cache]

theorem Untouched.stable (same : Untouched filename s t)
    (stable : Stable s filename) : Stable t filename := by
  intro file found
  exact stable file (same.cache ▸ found)

end

/-- What every request keeps about a file. -/
structure Orderly (filename : Filename) (s : FileHandler) : Prop where
  nodup : s.names.Nodup
  stable : Stable s filename
  counted : ∀ document, (view s filename).document = some document →
    document.Counted

section

variable {s t : FileHandler} {filename : Filename}

theorem orderly_of_started (started : s.Started) (filename : Filename) :
    Orderly filename s := by
  have uncached : (view s filename).cached = none := by
    simp [view, started.cache filename]
  refine ⟨started.nodup, ?_, ?_⟩
  · intro file found
    rw [started.cache filename] at found
    cases found
  · exact FileView.document_holds (by simp [uncached]) counted_loadDocument

theorem Orderly.of_cache (orderly : Orderly filename s)
    (nodup : t.names.Nodup)
    (cache : t.fileCache.get filename = s.fileCache.get filename) :
    Orderly filename t := by
  refine ⟨nodup, ?_, ?_⟩
  · intro file found
    exact orderly.stable file (cache ▸ found)
  · apply FileView.document_holds _ counted_loadDocument
    intro document cached
    apply orderly.counted document
    have same : (view s filename).cached = some document := by
      rw [← cached]
      simp [view, cache]
    simp [FileView.document, same]

theorem orderly_nmCreateFile (orderly : Orderly filename s)
    (username : Username) (now : TimeText) :
    Orderly filename (nmCreateFile s filename username now).1 := by
  obtain ⟨stable, cases⟩ := view_nmCreateFile orderly.stable username now
  rcases cases with
    ⟨_, names, saved⟩ | ⟨_, same, _⟩ |
    ⟨unknown, names, place, opens, saved⟩
  · refine ⟨names ▸ orderly.nodup, stable, ?_⟩
    rw [saved, FileView.document_saveBackup]
    exact orderly.counted
  · rw [same]
    exact orderly
  · refine ⟨names ▸ nodup_concat orderly.nodup unknown, stable, ?_⟩
    rw [saved, FileView.document_saveBackup]
    apply FileView.document_holds _ counted_loadDocument
    intro document cached
    apply orderly.counted document
    have same : (view s filename).cached = some document := cached
    simp [FileView.document, same]

theorem orderly_markForDeletion (orderly : Orderly filename s) :
    Orderly filename (markForDeletion s filename) := by
  obtain ⟨stable, marked⟩ := cached_markForDeletion orderly.stable
  have names := (@frame_markForDeletion s filename).names
  refine ⟨names ▸ orderly.nodup, stable, ?_⟩
  apply FileView.document_holds _ counted_loadDocument
  intro document cached
  rcases marked with dropped | ⟨kept, _⟩
  · rw [dropped] at cached
    cases cached
  · apply orderly.counted document
    simp [FileView.document, kept ▸ cached]

theorem orderly_nmDeleteFile (orderly : Orderly filename s) :
    Orderly filename (nmDeleteFile s filename).1 := by
  rcases nmDeleteFile_cases s filename with
    ⟨_, result⟩ | ⟨_, _, result⟩ | ⟨_, _, erased, cache⟩
  · rw [result]
    exact orderly
  · rw [result]
    exact orderly_markForDeletion orderly
  · exact (orderly_markForDeletion orderly).of_cache
      (erased ▸ orderly.nodup.erase filename) (by rw [cache])

theorem orderly_nmCreatefolder (orderly : Orderly filename s)
    (username : Username) (now : TimeText) :
    Orderly filename (nmCreatefolder s filename username now).1 := by
  obtain ⟨_, cache, names⟩ := nmCreatefolder_cases s filename username now
  apply orderly.of_cache _ (by rw [cache])
  rcases names with same | ⟨fresh, added⟩
  · exact same ▸ orderly.nodup
  · exact added ▸ nodup_concat orderly.nodup fresh

theorem orderly_handleWriteRequest (orderly : Orderly filename s)
    (username : Username) (sentenceIndex : Int)
    (messages : List WriteMessage) (now : TimeText) :
    Orderly filename (handleWriteRequest s filename username sentenceIndex
      messages now).1 := by
  obtain ⟨written, stable⟩ := view_handleWriteRequest orderly.stable username
    sentenceIndex messages now
  have names := (@frame_handleWriteRequest filename s username sentenceIndex
    messages now).names
  refine ⟨names ▸ orderly.nodup, stable, ?_⟩
  rw [written]
  exact FileView.counted_write messages orderly.counted

theorem orderly_handleUndoRequest (orderly : Orderly filename s) :
    Orderly filename (handleUndoRequest s filename).1 := by
  obtain ⟨restored, stable⟩ := view_handleUndoRequest orderly.stable
  have names := (@frame_handleUndoRequest filename s).names
  refine ⟨names ▸ orderly.nodup, stable, ?_⟩
  rw [restored]
  exact FileView.counted_restore orderly.counted

theorem orderly_step (orderly : Orderly filename s) (request : Request) :
    Orderly filename (handleRequest s request) := by
  by_cases touches : request.Touches filename
  · rcases Request.touches_cases touches with
      ⟨username, now, rfl⟩ | rfl | ⟨username, now, rfl⟩ |
      ⟨username, sentenceIndex, messages, now, rfl⟩ | rfl
    · exact orderly_nmCreateFile orderly username now
    · exact orderly_nmDeleteFile orderly
    · exact orderly_nmCreatefolder orderly username now
    · exact orderly_handleWriteRequest orderly username sentenceIndex
        messages now
    · exact orderly_handleUndoRequest orderly
  · have same := @untouched_handleRequest s filename request touches
    exact orderly.of_cache (same.nodup orderly.nodup) same.cache

/-- Whatever requests a fresh server got, its documents are in order. -/
theorem orderly_run (started : s.Started) (filename : Filename)
    (requests : List Request) :
    Orderly filename (runRequests s requests) :=
  @StepRun.invariant _ _ handleRequest (fun _ _ => True) (Orderly filename)
    (fun _ request holds _ => orderly_step holds request) s requests
    (orderly_of_started started filename)
    (StepRun.allSteps_of_forall (fun _ _ => trivial) s requests)

end

end Dfs.StorageServer
