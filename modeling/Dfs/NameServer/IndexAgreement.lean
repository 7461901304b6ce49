import Dfs.Library.StepRun
import Dfs.NameServer.FileIndex

/-!
# Agreement of the hash index with the file lists

The index holds raw pointers into arrays whose cells move when a file is
removed.  Seen from one name the index is a stack of pointers; it is coherent
when that stack lists, without repetition, exactly the live slots holding the
name.  Every operation keeps it coherent except a removal that moves cells or
that unlinks a node of another slot with the same name.
-/

namespace Dfs.NameServer

/-- The pointer denotes a live slot and the record there has this name. -/
def Holds (nm : NameServerState) (file : FilePtr) (filename : Filename) :
    Prop :=
  ∃ ss, nm.storageServers[file.server]? = some ss ∧
    file.slot < ss.fileCount ∧ (ss.files file.slot).filename = filename

/-- The index answers for every name as the file lists do. -/
def IndexAgrees (nm : NameServerState) : Prop :=
  ∀ filename,
    (findFile nm filename = none ↔ ∀ file, ¬Holds nm file filename) ∧
      ∀ file, findFile nm filename = some file → Holds nm file filename

inductive IndexOp where
  | register (now : Int) (msg : RegisterMessage)
  | addFile (now ssId : Int) (filename : Filename) (owner : Username)
  | removeFile (ssId : Int) (filename : Filename)
  | moveFile (filename : Filename) (targetPath : PathText)

def indexStep (nm : NameServerState) : IndexOp → NameServerState
  | .register now msg => (registerStorageServer now nm msg).1
  | .addFile now ssId filename owner =>
      (addFileToServer now nm ssId filename owner).1
  | .removeFile ssId filename => (removeFileFromServer nm ssId filename).1
  | .moveFile filename targetPath => moveFile nm filename targetPath

/-- The slot a removal frees, with the number of live slots of its server. -/
def removedSlot (nm : NameServerState) (ssId : Int) (filename : Filename) :
    Option (FilePtr × Nat) := do
  let server ← findStorageServer nm ssId
  let ss ← nm.storageServers[server]?
  let slot ← findSlot ss filename
  return (⟨server, slot⟩, ss.fileCount)

/-- A removal frees the last live slot of its server, and that slot is the one
the index has for the name. -/
def RemovesLastSlot (nm : NameServerState) : IndexOp → Prop
  | .removeFile ssId filename =>
      ∀ freed ∈ removedSlot nm ssId filename,
        freed.1.slot + 1 = freed.2 ∧ findFile nm filename = some freed.1
  | _ => True

instance (nm : NameServerState) : ∀ op, Decidable (RemovesLastSlot nm op)
  | .removeFile ssId filename =>
      inferInstanceAs (Decidable (∀ freed ∈ removedSlot nm ssId filename, _))
  | .register _ _ => inferInstanceAs (Decidable True)
  | .addFile _ _ _ _ => inferInstanceAs (Decidable True)
  | .moveFile _ _ => inferInstanceAs (Decidable True)

/-- New servers bring only names the index does not know, and so do
additions. -/
def FreshNames (nm : NameServerState) : IndexOp → Prop
  | .register _ msg =>
      findStorageServer nm msg.ssId = none ∧
        ∀ token ∈ CText.strtok ',' msg.data.chars,
          findFile nm (parseFileEntry 0 msg.ssId token).filename = none
  | .addFile _ _ filename _ => findFile nm filename = none
  | _ => True

instance (nm : NameServerState) : ∀ op, Decidable (FreshNames nm op)
  | .register _ _ => inferInstanceAs (Decidable (_ ∧ _))
  | .addFile _ _ _ _ => inferInstanceAs (Decidable (_ = _))
  | .removeFile _ _ => inferInstanceAs (Decidable True)
  | .moveFile _ _ => inferInstanceAs (Decidable True)

/-- The index tracks which live slots hold which names. -/
def Coherent (nm : NameServerState) : Prop :=
  ChainedIndex.Tracks hashFilename nm.fileIndex (Holds nm)

theorem Coherent.indexAgrees {nm : NameServerState} (coherent : Coherent nm) :
    IndexAgrees nm := by
  intro filename
  constructor
  · exact ChainedIndex.Tracks.find_eq_none_iff coherent filename
  · intro file found
    exact ChainedIndex.Tracks.related_of_find coherent found

theorem coherent_initNameServer : Coherent initNameServer := by
  constructor
  · intro filename
    exact List.nodup_nil
  · intro filename file
    simp [initNameServer, Holds]

private theorem Holds.unique {nm : NameServerState} {file : FilePtr}
    {left right : Filename} (first : Holds nm file left)
    (second : Holds nm file right) : left = right := by
  obtain ⟨ss, found, -, named⟩ := first
  obtain ⟨ss', found', -, named'⟩ := second
  cases found.symm.trans found'
  exact named.symm.trans named'

private theorem holds_hashInsertFile (nm : NameServerState)
    (inserted : Filename) (target file : FilePtr) (filename : Filename) :
    Holds (hashInsertFile nm inserted target) file filename ↔
      Holds nm file filename :=
  Iff.rfl

private theorem holds_hashRemoveFile (nm : NameServerState)
    (removed : Filename) (file : FilePtr) (filename : Filename) :
    Holds (hashRemoveFile nm removed) file filename ↔
      Holds nm file filename :=
  Iff.rfl

private theorem holds_modifyServer {nm : NameServerState} {server : Nat}
    {ss : StorageServerInfo} (found : nm.storageServers[server]? = some ss)
    (change : StorageServerInfo → StorageServerInfo)
    (file : FilePtr) (filename : Filename) :
    Holds (modifyServer nm server change) file filename ↔
      if file.server = server then
        file.slot < (change ss).fileCount ∧
          ((change ss).files file.slot).filename = filename
      else Holds nm file filename := by
  by_cases here : file.server = server
  · simp [Holds, modifyServer, here, found]
  · simp [Holds, modifyServer, here, Ne.symm here]

/-- Adding a record makes exactly one more slot live. -/
theorem holds_appendFile {nm : NameServerState} {server : Nat}
    {ss : StorageServerInfo} (found : nm.storageServers[server]? = some ss)
    (added : FileInfo) (file : FilePtr) (filename : Filename) :
    Holds (appendFile nm server added) file filename ↔
      Holds nm file filename ∨
        file = ⟨server, ss.fileCount⟩ ∧ added.filename = filename := by
  have filled : (modifyServer nm server fun ss =>
      { ss with files := Function.update ss.files ss.fileCount added }
        ).storageServers[server]? =
      some { ss with
        files := Function.update ss.files ss.fileCount added } := by
    simp [modifyServer, found]
  simp only [appendFile, found]
  rw [holds_modifyServer (by exact filled)]
  obtain ⟨fileServer, slot⟩ := file
  by_cases here : fileServer = server
  · subst here
    by_cases last : slot = ss.fileCount
    · subst last
      simp [Holds, found]
    · have unchanged :
          Function.update ss.files ss.fileCount added slot = ss.files slot :=
        Function.update_of_ne last added ss.files
      have bound : slot < ss.fileCount + 1 ↔ slot < ss.fileCount := by omega
      simp [Holds, found, last, bound]
  · rw [if_neg here, holds_hashInsertFile, holds_modifyServer found,
      if_neg here]
    simp [here]

/-- Dropping the last live slot makes exactly that slot dead. -/
theorem holds_shiftFiles_last {nm : NameServerState} {server slot : Nat}
    {ss : StorageServerInfo} (found : nm.storageServers[server]? = some ss)
    (last : slot + 1 = ss.fileCount) (file : FilePtr) (filename : Filename) :
    Holds (modifyServer nm server fun ss => shiftFiles ss slot) file
        filename ↔
      Holds nm file filename ∧ file ≠ ⟨server, slot⟩ := by
  rw [holds_modifyServer found]
  obtain ⟨fileServer, fileSlot⟩ := file
  by_cases here : fileServer = server
  · subst here
    have bound : fileSlot < ss.fileCount - 1 ↔
        fileSlot < ss.fileCount ∧ fileSlot ≠ slot := by omega
    have unmoved : ¬(slot ≤ fileSlot ∧ fileSlot + 1 < ss.fileCount) := by
      omega
    simp only [shiftFiles, bound, unmoved, ↓reduceIte, Holds, found,
      Option.some.injEq, exists_eq_left', ne_eq, FilePtr.mk.injEq, true_and]
    tauto
  · simp [here]

/-- Overwriting the name in one slot renames that slot only. -/
theorem holds_rename {nm : NameServerState} {file : FilePtr}
    {ss : StorageServerInfo} (found : nm.storageServers[file.server]? = some ss)
    (live : file.slot < ss.fileCount) (newPath : Filename)
    (other : FilePtr) (filename : Filename) :
    Holds (modifyServer nm file.server fun ss =>
        { ss with
          files := Function.update ss.files file.slot
            { ss.files file.slot with filename := newPath } }) other filename ↔
      if other = file then newPath = filename
      else Holds nm other filename := by
  rw [holds_modifyServer found]
  obtain ⟨server, slot⟩ := other
  obtain ⟨fileServer, fileSlot⟩ := file
  by_cases here : server = fileServer
  · subst here
    by_cases same : slot = fileSlot
    · subst same
      simp only [↓reduceIte, Function.update_self]
      exact and_iff_right live
    · simp [same, Holds, found]
  · simp [here]

private theorem Coherent.appendFile {nm : NameServerState}
    (coherent : Coherent nm) (server : Nat) (file : FileInfo) :
    Coherent (appendFile nm server file) := by
  cases found : nm.storageServers[server]? with
  | none =>
      simpa [NameServer.appendFile, found] using coherent
  | some ss =>
      have dead : ¬Holds nm ⟨server, ss.fileCount⟩ file.filename := by
        rintro ⟨ss', found', live, -⟩
        cases found.symm.trans found'
        exact Nat.lt_irrefl _ live
      have index : (NameServer.appendFile nm server file).fileIndex =
          nm.fileIndex.insert hashFilename file.filename
            ⟨server, ss.fileCount⟩ := by
        simp [NameServer.appendFile, found, modifyServer, hashInsertFile]
      have tracks := ChainedIndex.Tracks.insert coherent dead
      rw [← index] at tracks
      exact tracks.congr (holds_appendFile found file)

private theorem Coherent.registerFiles {nm : NameServerState}
    (coherent : Coherent nm) (now ssId : Int) (server : Nat)
    (tokens : List Text) :
    Coherent (registerFiles now ssId server nm tokens) := by
  induction tokens generalizing nm with
  | nil => exact coherent
  | cons token tokens ih =>
      cases found : nm.storageServers[server]? with
      | none => simpa [NameServer.registerFiles, found] using coherent
      | some ss =>
          by_cases room : ss.fileCount < maxFilesPerServer
          · simpa [NameServer.registerFiles, found, room] using
              ih (coherent.appendFile server (parseFileEntry now ssId token))
          · simpa [NameServer.registerFiles, found, room] using coherent

private theorem Coherent.registerStorageServer {nm : NameServerState}
    (coherent : Coherent nm) (now : Int) (msg : RegisterMessage) :
    Coherent (registerStorageServer now nm msg).1 := by
  unfold NameServer.registerStorageServer
  split
  · rename_i server found
    obtain ⟨ss, located⟩ : ∃ ss, nm.storageServers[server]? = some ss := by
      have bound := (List.findIdx?_eq_some_iff_getElem.mp found).1
      exact ⟨_, List.getElem?_eq_getElem bound⟩
    refine ChainedIndex.Tracks.congr coherent fun file filename => ?_
    rw [holds_modifyServer located]
    by_cases here : file.server = server
    · simp [Holds, here, located]
    · simp [here]
  · split
    · exact coherent
    · apply Coherent.registerFiles
      refine ChainedIndex.Tracks.congr coherent fun file filename => ?_
      simp only [Holds, List.getElem?_append]
      by_cases old : file.server < nm.storageServers.length
      · simp [old]
      · have absent : nm.storageServers[file.server]? = none :=
          List.getElem?_eq_none (Nat.le_of_not_lt old)
        simp only [absent, old, ↓reduceIte]
        constructor
        · rintro ⟨ss, appended, live, -⟩
          have empty : ss.fileCount = 0 := by
            have member := List.mem_of_getElem? appended
            rw [List.mem_singleton.mp member]
          omega
        · rintro ⟨ss, impossible, -⟩
          cases impossible

private theorem Coherent.addFileToServer {nm : NameServerState}
    (coherent : Coherent nm) (now ssId : Int) (filename : Filename)
    (owner : Username) :
    Coherent (addFileToServer now nm ssId filename owner).1 := by
  unfold NameServer.addFileToServer
  split
  · exact coherent
  · split
    · exact coherent
    · split
      · exact coherent
      · split
        · exact coherent
        · exact coherent.appendFile _ _

private theorem Coherent.removeFileFromServer {nm : NameServerState}
    (coherent : Coherent nm) (ssId : Int) (filename : Filename)
    (condition : RemovesLastSlot nm (.removeFile ssId filename)) :
    Coherent (removeFileFromServer nm ssId filename).1 := by
  unfold NameServer.removeFileFromServer
  split
  · exact coherent
  · rename_i server foundServer
    split
    · exact coherent
    · rename_i slot foundSlot
      obtain ⟨ss, located, inSlot⟩ := Option.bind_eq_some_iff.mp foundSlot
      obtain ⟨last, indexed⟩ := condition (⟨server, slot⟩, ss.fileCount)
        (by simp [removedSlot, foundServer, located, inSlot])
      have held := ChainedIndex.Tracks.related_of_find coherent indexed
      have tracks := ChainedIndex.Tracks.remove coherent indexed
        fun other heldOther => heldOther.unique held
      have unlinked : (hashRemoveFile nm filename).storageServers[server]? =
          some ss := located
      exact tracks.congr (holds_shiftFiles_last unlinked last)

private theorem Coherent.moveFile {nm : NameServerState}
    (coherent : Coherent nm) (filename : Filename) (targetPath : PathText) :
    Coherent (moveFile nm filename targetPath) := by
  unfold NameServer.moveFile
  split
  · exact coherent
  · rename_i file found
    have held := ChainedIndex.Tracks.related_of_find coherent found
    have unlinked := ChainedIndex.Tracks.remove coherent found
      fun other heldOther => heldOther.unique held
    obtain ⟨ss, located, live, -⟩ := held
    let newPath : Filename :=
      CString.copy 255 (targetPath.chars ++ '/' :: filename.chars)
    have cleared : ¬(Holds nm file newPath ∧ file ≠ file) := by simp
    refine (unlinked.insert cleared).congr fun other otherName => ?_
    have inPlace : (hashRemoveFile nm filename).storageServers[file.server]? =
        some ss := located
    rw [holds_hashInsertFile, holds_rename inPlace live, holds_hashRemoveFile]
    by_cases same : other = file
    · simp [same, newPath]
    · simp [same]

/-- One operation keeps the index coherent when a removal takes the last
slot. -/
theorem Coherent.step {nm : NameServerState} (coherent : Coherent nm)
    (op : IndexOp) (condition : RemovesLastSlot nm op) :
    Coherent (indexStep nm op) := by
  cases op with
  | register now msg => exact coherent.registerStorageServer now msg
  | addFile now ssId filename owner =>
      exact coherent.addFileToServer now ssId filename owner
  | removeFile ssId filename =>
      exact coherent.removeFileFromServer ssId filename condition
  | moveFile filename targetPath =>
      exact coherent.moveFile filename targetPath

/-- In every run whose removals take the last slot of their server, and the
slot the index has for the name, the index and the file lists agree. -/
theorem indexAgrees_of_removesLastSlot (ops : List IndexOp)
    (steps : StepRun.AllSteps indexStep RemovesLastSlot initNameServer ops) :
    IndexAgrees (StepRun.run indexStep initNameServer ops) := by
  have coherent : Coherent (StepRun.run indexStep initNameServer ops) :=
    StepRun.invariant (fun _ op before condition => before.step op condition)
      coherent_initNameServer steps
  exact coherent.indexAgrees

private def sampleName (text : String) : Filename :=
  CString.copy 255 text.toList

private def sampleOps (removed : String) : List IndexOp :=
  [.register 0 ⟨1, CString.copy 15 [], 0, 0, CString.copy 4095 []⟩,
    .addFile 0 1 (sampleName "a") (CString.copy 63 "u".toList),
    .addFile 0 1 (sampleName "b") (CString.copy 63 "u".toList),
    .removeFile 1 (sampleName removed)]

theorem indexAgrees_removing_last :
    StepRun.AllSteps indexStep RemovesLastSlot initNameServer
        (sampleOps "b") ∧
      IndexAgrees (StepRun.run indexStep initNameServer (sampleOps "b")) :=
  have steps : StepRun.AllSteps indexStep RemovesLastSlot initNameServer
      (sampleOps "b") := by decide
  ⟨steps, indexAgrees_of_removesLastSlot _ steps⟩

/-- Removing the first of two files leaves the index with a pointer to the
dead second slot although the second file is now in the first one. -/
theorem not_indexAgrees_removing_first :
    StepRun.AllSteps indexStep FreshNames initNameServer (sampleOps "a") ∧
      ¬IndexAgrees
        (StepRun.run indexStep initNameServer (sampleOps "a")) := by
  refine ⟨by decide, fun agrees => ?_⟩
  have stale : findFile (StepRun.run indexStep initNameServer (sampleOps "a"))
      (sampleName "b") = some ⟨0, 1⟩ := by decide
  obtain ⟨ss, located, live, -⟩ := (agrees (sampleName "b")).2 _ stale
  have counts : (StepRun.run indexStep initNameServer
      (sampleOps "a")).storageServers[0]?.map (·.fileCount) = some 1 := by
    decide
  rw [located] at counts
  simp only [Option.map_some, Option.some.injEq] at counts
  have beyond : 1 < ss.fileCount := live
  omega

end Dfs.NameServer
