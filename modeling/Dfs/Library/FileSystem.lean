import Mathlib.Data.List.DropRight
import Mathlib.Data.List.Infix
import Dfs.Library.CText
import Dfs.Library.Store

/-!
# A tree of files and folders behind its system calls

A path is the list of names between its slashes, read from the root.  It is
resolved name by name against the folders that exist: an empty name and `.`
stay, `..` goes up, and a name may have at most 255 bytes.  Two paths that
resolve to one location mean one file.  There are no links, no missing
permissions, and reading and writing an open file succeeds.
-/

/-- The names that lead from the root to a file or folder. -/
abbrev Location := List Text

/-- The names between the slashes of a path. -/
abbrev PathName := List Text

def nameMax : Nat := 255

/-- `LONG_MAX`. -/
def longMax : Nat := 9223372036854775807

inductive Errno where
  | enoent
  | enotdir
  | eisdir
  | eexist
  | enotempty
  | einval
  | ebusy
  | enametoolong
  deriving DecidableEq, Repr

/-- `folderEnd` is what `ftell` reports at the end of an opened folder, and
`folderSize` what `stat` does; both differ between file systems. -/
structure FileSystem where
  files : Store Location Text
  folders : List Location
  folderEnd : Location → Nat
  folderSize : Location → Nat

/-- A file opened for reading: its bytes and where `ftell` finds its end. -/
structure OpenFile where
  bytes : Text
  size : Nat
  deriving DecidableEq, Repr

/-- The last name is that of an entry, not of a folder reached otherwise. -/
def IsPlain (name : Text) : Prop :=
  name ≠ [] ∧ name ≠ ['.'] ∧ name ≠ ['.', '.']

instance (name : Text) : Decidable (IsPlain name) :=
  inferInstanceAs (Decidable (_ ∧ _ ∧ _))

def PathName.EndsPlain (path : PathName) : Prop :=
  ∃ name ∈ path.getLast?, IsPlain name

instance (path : PathName) : Decidable path.EndsPlain :=
  match found : path.getLast? with
  | none => isFalse (by simp [PathName.EndsPlain, found])
  | some name =>
      decidable_of_iff (IsPlain name) (by simp [PathName.EndsPlain, found])

/-- A path without the slashes at its end. -/
def PathName.trim (path : PathName) : PathName := path.rdropWhile (· = [])

namespace FileSystem

def IsFolder (fs : FileSystem) (place : Location) : Prop :=
  place = [] ∨ place ∈ fs.folders

instance (fs : FileSystem) (place : Location) :
    Decidable (fs.IsFolder place) :=
  inferInstanceAs (Decidable (_ ∨ _))

def Exists (fs : FileSystem) (place : Location) : Prop :=
  fs.IsFolder place ∨ (fs.files.get place).isSome

instance (fs : FileSystem) (place : Location) : Decidable (fs.Exists place) :=
  inferInstanceAs (Decidable (_ ∨ _))

/-- One name of a path, looked up in the folder reached so far.  What holds a
folder is one. -/
def enter (fs : FileSystem) (here : Location) (name : Text) :
    Option Location :=
  if ¬fs.IsFolder here then none
  else if name = [] ∨ name = ['.'] then some here
  else if name = ['.', '.'] then
    if fs.IsFolder here.dropLast then some here.dropLast else none
  else if name.length ≤ nameMax then some (here ++ [name])
  else none

/-- Where a path leads; nothing need exist there. -/
def locate (fs : FileSystem) (path : PathName) : Option Location :=
  path.foldlM fs.enter []

/-- Why a path leads nowhere. -/
def locateError (fs : FileSystem) : Location → PathName → Errno
  | _, [] => .enoent
  | here, name :: path =>
      match fs.enter here name with
      | some place => fs.locateError place path
      | none =>
          if fs.IsFolder here then .enametoolong
          else if (fs.files.get here).isSome then .enotdir
          else .enoent

/-- `access(path, F_OK)`. -/
def PathExists (fs : FileSystem) (path : PathName) : Prop :=
  ∃ place ∈ fs.locate path, fs.Exists place

instance (fs : FileSystem) (path : PathName) : Decidable (fs.PathExists path) :=
  match found : fs.locate path with
  | none => isFalse (by simp [PathExists, found])
  | some place =>
      decidable_of_iff (fs.Exists place) (by simp [PathExists, found])

/-- `fopen(path, "r")`.  A folder can be opened too, and gives no bytes. -/
def openRead (fs : FileSystem) (path : PathName) : Option OpenFile :=
  (fs.locate path).bind fun place =>
    if fs.IsFolder place then some ⟨[], fs.folderEnd place⟩
    else (fs.files.get place).map fun bytes => ⟨bytes, bytes.length⟩

/-- The bytes that can be read at a path. -/
def read (fs : FileSystem) (path : PathName) : Option Text :=
  (fs.openRead path).map OpenFile.bytes

/-- The bytes read into a buffer allocated for them.  The end of a folder may
be too far away for one. -/
def load (fs : FileSystem) (path : PathName) : Option Text :=
  (fs.locate path).bind fun place =>
    if fs.IsFolder place then
      if fs.folderEnd place < longMax then some [] else none
    else fs.files.get place

/-- The `st_size` of `stat`. -/
def statSize (fs : FileSystem) (path : PathName) : Option Nat :=
  (fs.locate path).bind fun place =>
    if fs.IsFolder place then some (fs.folderSize place)
    else (fs.files.get place).map List.length

/-- The file that `fopen(path, "w")` opens, which need not exist before. -/
def target (fs : FileSystem) (path : PathName) : Option Location :=
  if path.EndsPlain then
    (fs.locate path).filter fun place => ¬fs.IsFolder place
  else none

def put (fs : FileSystem) (place : Location) (content : Text) : FileSystem :=
  { fs with files := fs.files.set place content }

def remove (fs : FileSystem) (place : Location) : FileSystem :=
  { fs with files := fs.files.erase place }

/-- `fopen(path, "w")` and all that is written until the file is closed. -/
def write (fs : FileSystem) (path : PathName) (content : Text) :
    Option FileSystem :=
  (fs.target path).map fun place => fs.put place content

/-- Copy one file over another.  Both are open before the first byte is read,
so that a file copied over itself is lost. -/
def copy (fs : FileSystem) (source path : PathName) : Option FileSystem :=
  (fs.openRead source).bind fun _ =>
    (fs.write path []).bind fun opened =>
      opened.write path ((opened.read source).getD [])

def unlink (fs : FileSystem) (path : PathName) : Option FileSystem :=
  (fs.target path).bind fun place =>
    if (fs.files.get place).isSome then some (fs.remove place) else none

/-- `unlink` where a failure is ignored. -/
def tryUnlink (fs : FileSystem) (path : PathName) : FileSystem :=
  (fs.unlink path).getD fs

def addFolder (fs : FileSystem) (place : Location) : FileSystem :=
  { fs with folders := fs.folders ++ [place] }

/-- Slashes after the new name are allowed. -/
def mkdir (fs : FileSystem) (path : PathName) : Except Errno FileSystem :=
  match fs.locate path.trim with
  | none => .error (fs.locateError [] path.trim)
  | some place =>
      if path.trim.EndsPlain ∧ ¬fs.Exists place then
        .ok (fs.addFolder place)
      else .error .eexist

/-- `mkdir` where a failure is ignored. -/
def tryMkdir (fs : FileSystem) (path : PathName) : FileSystem :=
  match fs.mkdir path with
  | .ok made => made
  | .error _ => fs

/-- `mkdir` for every folder on the way, from the root on. -/
def makeParents (fs : FileSystem) (path : PathName) : FileSystem :=
  path.dropLast.inits.foldl tryMkdir fs

/-- The names in a folder. -/
def entries (fs : FileSystem) (place : Location) : List Text :=
  (fs.files.entries.map Prod.fst ++ fs.folders).filterMap fun entry =>
    if entry ≠ [] ∧ entry.dropLast = place then entry.getLast? else none

/-- The location after `source` was moved to `goal`. -/
def rebase (source goal place : Location) : Location :=
  if source <+: place then goal ++ place.drop source.length else place

/-- The folder in which the last name of a path is looked up. -/
def parent (fs : FileSystem) (path : PathName) : Except Errno Location :=
  match fs.locate path.trim.dropLast with
  | none => .error (fs.locateError [] path.trim.dropLast)
  | some place =>
      if fs.IsFolder place then .ok place
      else if (fs.files.get place).isSome then .error .enotdir
      else .error .enoent

/-- Give the file at `source` the place `goal`. -/
def renameFile (fs : FileSystem) (source goal : Location) (content : Text) :
    Except Errno FileSystem :=
  if source = goal then .ok fs
  else if fs.IsFolder goal then .error .eisdir
  else .ok ((fs.remove source).put goal content)

/-- Give the folder `source`, and all below it, the place `goal`. -/
def renameFolder (fs : FileSystem) (source goal : Location) :
    Except Errno FileSystem :=
  if source = goal then .ok fs
  else if ¬fs.IsFolder goal ∧ (fs.files.get goal).isSome then .error .enotdir
  else if fs.entries goal ≠ [] then .error .enotempty
  else
    .ok { fs with
      files := ⟨fs.files.entries.map fun entry =>
        (rebase source goal entry.1, entry.2)⟩
      folders := (fs.folders.filter (· ≠ goal)).map (rebase source goal) }

/-- `rename(path, other)`, checked in the order of the system call. -/
def rename (fs : FileSystem) (path other : PathName) :
    Except Errno FileSystem := do
  let sourceParent ← fs.parent path
  let goalParent ← fs.parent other
  match path.trim.getLast?, other.trim.getLast? with
  | some name, some newName =>
      if ¬(IsPlain name ∧ IsPlain newName) then .error .ebusy
      else if nameMax < name.length then .error .enametoolong
      else
        let source := sourceParent ++ [name]
        let goal := goalParent ++ [newName]
        if ¬fs.Exists source then .error .enoent
        else if nameMax < newName.length then .error .enametoolong
        else if fs.IsFolder source then
          if source <+: goalParent then .error .einval
          else if goal <+: sourceParent then .error .enotempty
          else fs.renameFolder source goal
        else if path.trim ≠ path ∨ other.trim ≠ other then .error .enotdir
        else if goal <+: sourceParent then .error .enotempty
        else
          fs.renameFile source goal ((fs.files.get source).getD [])
  | _, _ => .error .ebusy

section Resolving

variable {fs gs : FileSystem} {path : PathName} {place : Location} {name : Text}

@[simp] theorem isFolder_put {content : Text} {other : Location} :
    (fs.put other content).IsFolder place ↔ fs.IsFolder place := Iff.rfl

@[simp] theorem locate_put {content : Text} :
    (fs.put place content).locate path = fs.locate path := rfl

@[simp] theorem target_put {content : Text} :
    (fs.put place content).target path = fs.target path := rfl

theorem locate_concat : fs.locate (path ++ [name]) =
    (fs.locate path).bind fun here => fs.enter here name := by
  simp [locate, List.foldlM_append]

theorem endsPlain_concat : (path ++ [name]).EndsPlain ↔ IsPlain name := by
  simp [PathName.EndsPlain]

theorem trim_concat (inhabited : name ≠ []) :
    PathName.trim (path ++ [name]) = path ++ [name] := by
  simp [PathName.trim, inhabited]

/-- Looking up the name of an entry. -/
theorem enter_plain (plain : IsPlain name) {here : Location} :
    fs.enter here name =
      if fs.IsFolder here ∧ name.length ≤ nameMax then some (here ++ [name])
      else none := by
  obtain ⟨inhabited, notHere, notUp⟩ := plain
  unfold enter
  by_cases folder : fs.IsFolder here
  · simp [folder, inhabited, notHere, notUp]
  · simp [folder]

/-- What opening a file for writing asks of its path. -/
theorem target_concat : fs.target (path ++ [name]) = some place ↔
    ∃ here, fs.locate path = some here ∧ fs.IsFolder here ∧ IsPlain name ∧
      name.length ≤ nameMax ∧ place = here ++ [name] ∧
      ¬fs.IsFolder place := by
  unfold target
  by_cases plain : IsPlain name
  · rw [if_pos (endsPlain_concat.mpr plain), locate_concat]
    simp only [enter_plain plain, Option.filter_eq_some_iff,
      Option.bind_eq_some_iff, decide_eq_true_eq]
    constructor
    · rintro ⟨⟨here, found, entered⟩, free⟩
      split at entered
      · rename_i fits
        exact ⟨here, found, fits.1, plain, fits.2,
          (Option.some.inj entered).symm, free⟩
      · cases entered
    · rintro ⟨here, found, folder, _, fits, rfl, free⟩
      exact ⟨⟨here, found, if_pos ⟨folder, fits⟩⟩, free⟩
  · rw [if_neg fun ends => plain (endsPlain_concat.mp ends)]
    simp [plain]

/-- The end of a path that is no entry's name is a folder. -/
theorem isFolder_of_locate (special : ¬IsPlain name)
    (reached : fs.locate (path ++ [name]) = some place) :
    fs.IsFolder place := by
  rw [locate_concat, Option.bind_eq_some_iff] at reached
  obtain ⟨here, _, entered⟩ := reached
  unfold enter at entered
  split at entered
  · cases entered
  rename_i folder
  rw [not_not] at folder
  split at entered
  · cases entered
    exact folder
  rename_i notHere
  split at entered
  · split at entered
    · cases entered
      assumption
    · cases entered
  rename_i notUp
  exact absurd ⟨fun same => notHere (.inl same),
    fun same => notHere (.inr same), notUp⟩ special

theorem locate_of_target (found : fs.target path = some place) :
    fs.locate path = some place := by
  unfold target at found
  split at found
  · exact (Option.filter_eq_some_iff.mp found).1
  · cases found

theorem not_isFolder_of_target (found : fs.target path = some place) :
    ¬fs.IsFolder place := by
  unfold target at found
  split at found
  · simpa using (Option.filter_eq_some_iff.mp found).2
  · cases found

/-- Paths whose last names differ do not lead to one file. -/
theorem locate_ne_of_target {folder : PathName} {other : Text}
    (different : name ≠ other)
    (opens : fs.target (path ++ [name]) = some place) :
    fs.locate (folder ++ [other]) ≠ some place := by
  intro reached
  obtain ⟨here, _, _, _, _, rfl, file⟩ := target_concat.mp opens
  by_cases plain : IsPlain other
  · rw [locate_concat, Option.bind_eq_some_iff] at reached
    obtain ⟨there, _, entered⟩ := reached
    rw [enter_plain plain] at entered
    split at entered
    · have ends := congrArg List.getLast? (Option.some.inj entered)
      simp only [List.getLast?_concat, Option.some.injEq] at ends
      exact different ends.symm
    · cases entered
  · exact file (isFolder_of_locate plain reached)

/-- The folders of the first are folders of the second. -/
def Grows (fs gs : FileSystem) : Prop :=
  ∀ place, fs.IsFolder place → gs.IsFolder place

theorem enter_of_grows (grows : fs.Grows gs) {here : Location}
    (found : fs.enter here name = some place) :
    gs.enter here name = some place := by
  unfold enter at found ⊢
  by_cases folder : fs.IsFolder here
  · rw [if_neg (not_not_intro (grows here folder))]
    rw [if_neg (not_not_intro folder)] at found
    by_cases stays : name = [] ∨ name = ['.']
    · rwa [if_pos stays] at found ⊢
    · rw [if_neg stays] at found ⊢
      by_cases up : name = ['.', '.']
      · rw [if_pos up] at found ⊢
        by_cases above : fs.IsFolder here.dropLast
        · rw [if_pos above] at found
          rwa [if_pos (grows _ above)]
        · rw [if_neg above] at found
          cases found
      · rwa [if_neg up] at found ⊢
  · rw [if_pos folder] at found
    cases found

/-- A path that leads somewhere still leads there when folders are added. -/
theorem locate_of_grows (grows : fs.Grows gs)
    (found : fs.locate path = some place) : gs.locate path = some place := by
  induction path using List.reverseRecOn generalizing place with
  | nil => exact found
  | append_singleton path name ih =>
      rw [locate_concat, Option.bind_eq_some_iff] at found ⊢
      obtain ⟨here, reached, entered⟩ := found
      exact ⟨here, ih reached, enter_of_grows grows entered⟩

theorem isFolder_addFolder {other : Location} :
    (fs.addFolder other).IsFolder place ↔
      fs.IsFolder place ∨ place = other := by
  simp [IsFolder, addFolder, or_assoc]

theorem grows_addFolder (place : Location) : fs.Grows (fs.addFolder place) :=
  fun _ folder => isFolder_addFolder.mpr (.inl folder)

/-- When a folder is made, and what is there then. -/
theorem mkdir_eq_ok : fs.mkdir path = .ok gs ↔
    ∃ place, fs.locate path.trim = some place ∧ path.trim.EndsPlain ∧
      ¬fs.Exists place ∧ gs = fs.addFolder place := by
  unfold mkdir
  cases found : fs.locate path.trim with
  | none => simp
  | some place =>
      by_cases free : path.trim.EndsPlain ∧ ¬fs.Exists place
      · simp [free, eq_comm]
      · simp only [if_neg free, Option.some.injEq, exists_eq_left',
          reduceCtorEq, false_iff]
        rintro ⟨plain, absent, _⟩
        exact free ⟨plain, absent⟩

/-- Making a folder adds one where nothing was, or does nothing. -/
theorem tryMkdir_cases (fs : FileSystem) (path : PathName) :
    fs.tryMkdir path = fs ∨
      ∃ place, fs.locate path.trim = some place ∧ ¬fs.Exists place ∧
        fs.tryMkdir path = fs.addFolder place := by
  unfold tryMkdir
  cases made : fs.mkdir path with
  | error reason => exact .inl rfl
  | ok gs =>
      obtain ⟨place, found, _, free, rfl⟩ := mkdir_eq_ok.mp made
      exact .inr ⟨place, found, free, rfl⟩

/-- A relation of file systems that adding a folder respects holds between the
file systems before and after `makeParents`. -/
theorem makeParents_induction {related : FileSystem → FileSystem → Prop}
    (refl : ∀ fs, related fs fs)
    (trans : ∀ {fs gs hs}, related fs gs → related gs hs → related fs hs)
    (add : ∀ fs place, ¬fs.Exists place → related fs (fs.addFolder place))
    (fs : FileSystem) (path : PathName) : related fs (fs.makeParents path) := by
  unfold makeParents
  induction path.dropLast.inits generalizing fs with
  | nil => exact refl fs
  | cons folder folders ih =>
      refine trans ?_ (ih (fs.tryMkdir folder))
      rcases tryMkdir_cases fs folder with same | ⟨place, _, free, made⟩
      · rw [same]
        exact refl fs
      · rw [made]
        exact add fs place free

end Resolving

section Frames

variable {fs gs : FileSystem} {path : PathName} {place other : Location}
  {content : Text}

/-- A path leads to the same place in both, and the same is there. -/
structure SameAt (fs gs : FileSystem) (path : PathName) : Prop where
  located : gs.locate path = fs.locate path
  folder : ∀ place ∈ fs.locate path, (gs.IsFolder place ↔ fs.IsFolder place)
  file : ∀ place ∈ fs.locate path, gs.files.get place = fs.files.get place
  folderEnd : gs.folderEnd = fs.folderEnd
  folderSize : gs.folderSize = fs.folderSize

namespace SameAt

theorem refl : SameAt fs fs path :=
  ⟨rfl, fun _ _ => Iff.rfl, fun _ _ => rfl, rfl, rfl⟩

theorem trans {hs : FileSystem} (first : SameAt fs gs path)
    (second : SameAt gs hs path) : SameAt fs hs path where
  located := second.located.trans first.located
  folder := fun place reached =>
    (second.folder place (first.located ▸ reached)).trans
      (first.folder place reached)
  file := fun place reached =>
    (second.file place (first.located ▸ reached)).trans
      (first.file place reached)
  folderEnd := second.folderEnd.trans first.folderEnd
  folderSize := second.folderSize.trans first.folderSize

variable (same : SameAt fs gs path)

include same

theorem openRead : gs.openRead path = fs.openRead path := by
  unfold FileSystem.openRead
  rw [same.located]
  cases found : fs.locate path with
  | none => rfl
  | some place =>
      simp only [Option.bind_some, same.folder place found,
        same.file place found, same.folderEnd]

theorem read : gs.read path = fs.read path := by
  rw [FileSystem.read, same.openRead, FileSystem.read]

theorem load : gs.load path = fs.load path := by
  unfold FileSystem.load
  rw [same.located]
  cases found : fs.locate path with
  | none => rfl
  | some place =>
      simp only [Option.bind_some, same.folder place found,
        same.file place found, same.folderEnd]

theorem target : gs.target path = fs.target path := by
  unfold FileSystem.target
  rw [same.located]
  cases found : fs.locate path with
  | none => rfl
  | some place =>
      simp only [Option.filter_some, same.folder place found]

end SameAt

theorem sameAt_put (apart : fs.locate path ≠ some place) :
    SameAt fs (fs.put place content) path where
  located := rfl
  folder := fun _ _ => Iff.rfl
  file := by
    intro other reached
    refine Store.get_set_of_ne _ ?_ content
    rintro rfl
    exact apart reached
  folderEnd := rfl
  folderSize := rfl

theorem sameAt_remove (apart : fs.locate path ≠ some place) :
    SameAt fs (fs.remove place) path where
  located := rfl
  folder := fun _ _ => Iff.rfl
  file := by
    intro other reached
    refine Store.get_erase_of_ne _ ?_
    rintro rfl
    exact apart reached
  folderEnd := rfl
  folderSize := rfl

/-- New folders do not change what stands at a path. -/
theorem sameAt_addFolder (reached : fs.locate path = some place)
    (stands : fs.Exists place) (free : ¬fs.Exists other) :
    SameAt fs (fs.addFolder other) path where
  located :=
    (locate_of_grows (grows_addFolder other) reached).trans reached.symm
  folder := by
    intro here same
    obtain rfl := Option.some.inj (reached.symm.trans same)
    rw [isFolder_addFolder]
    refine or_iff_left ?_
    rintro rfl
    exact free stands
  file := fun _ _ => rfl
  folderEnd := rfl
  folderSize := rfl

theorem pathExists_of_load (loaded : fs.load path = some content) :
    fs.PathExists path := by
  obtain ⟨place, reached, stored⟩ := Option.bind_eq_some_iff.mp loaded
  refine ⟨place, reached, ?_⟩
  split at stored
  · exact .inl (by assumption)
  · exact .inr (by simp [stored])

theorem read_of_load (loaded : fs.load path = some content) :
    fs.read path = some content := by
  obtain ⟨place, reached, stored⟩ := Option.bind_eq_some_iff.mp loaded
  rw [read, openRead, reached, Option.bind_some]
  by_cases folder : fs.IsFolder place
  · rw [if_pos folder] at stored ⊢
    split at stored
    · exact stored
    · cases stored
  · rw [if_neg folder] at stored ⊢
    rw [stored]
    rfl

theorem SameAt.pathExists (same : SameAt fs gs path)
    (stands : fs.PathExists path) : gs.PathExists path := by
  obtain ⟨place, reached, here⟩ := stands
  refine ⟨place, same.located.trans reached, ?_⟩
  rw [Exists, same.folder place reached, same.file place reached]
  exact here

theorem sameAt_makeParents (stands : fs.PathExists path) (parents : PathName) :
    SameAt fs (fs.makeParents parents) path := by
  have both := @makeParents_induction
    (fun fs gs => fs.PathExists path → SameAt fs gs path)
    (fun _ _ => SameAt.refl)
    (fun first second stands =>
      (first stands).trans (second ((first stands).pathExists stands)))
    (fun fs other free stands => by
      obtain ⟨place, reached, here⟩ := stands
      exact sameAt_addFolder reached here free) fs parents
  exact both stands

variable (opens : fs.target path = some place)

include opens

@[simp] theorem openRead_put :
    (fs.put place content).openRead path =
      some ⟨content, content.length⟩ := by
  have reached := locate_of_target opens
  have file := not_isFolder_of_target opens
  simp only [openRead, locate_put, reached, Option.bind_some, isFolder_put,
    if_neg file]
  simp [put]

theorem read_put : (fs.put place content).read path = some content := by
  rw [read, openRead_put opens, Option.map_some]

theorem load_put : (fs.put place content).load path = some content := by
  have reached := locate_of_target opens
  have file := not_isFolder_of_target opens
  simp only [load, locate_put, reached, Option.bind_some, isFolder_put,
    if_neg file]
  simp [put]

theorem load_of_target : fs.load path = fs.files.get place := by
  have reached := locate_of_target opens
  have file := not_isFolder_of_target opens
  simp only [load, reached, Option.bind_some, if_neg file]

theorem openRead_of_target :
    fs.openRead path =
      (fs.files.get place).map fun bytes => ⟨bytes, bytes.length⟩ := by
  have reached := locate_of_target opens
  have file := not_isFolder_of_target opens
  simp only [openRead, reached, Option.bind_some, if_neg file]

theorem read_of_target : fs.read path = fs.files.get place := by
  rw [read, openRead_of_target opens, Option.map_map]
  cases fs.files.get place <;> rfl

theorem statSize_of_target :
    fs.statSize path = (fs.files.get place).map List.length := by
  have reached := locate_of_target opens
  have file := not_isFolder_of_target opens
  simp only [statSize, reached, Option.bind_some, if_neg file]

theorem write_of_target :
    fs.write path content = some (fs.put place content) := by
  rw [write, opens, Option.map_some]

omit opens

theorem write_eq_none (fails : fs.target path = none) :
    fs.write path content = none := by
  rw [write, fails, Option.map_none]

theorem put_put {first second : Text} :
    (fs.put place first).put place second = fs.put place second := by
  simp [put, Store.set_set]

theorem remove_remove : (fs.remove place).remove place = fs.remove place := by
  simp [remove, Store.erase_erase]

/-- Removing one file and writing another twice is doing so once. -/
theorem remove_put_twice {first second : Text} :
    ((((fs.remove place).put other first).remove place).put other second) =
      (fs.remove place).put other second := by
  have same : (((fs.files.erase place).set other first).erase place).erase
      other = (fs.files.erase place).erase other := by
    rw [Store.erase_comm _ place other, Store.erase_set,
      Store.erase_comm _ other place, Store.erase_erase]
  simp only [remove, put, Store.set] at same ⊢
  rw [same]

theorem remove_put : (fs.put place content).remove place = fs.remove place := by
  simp [put, remove, Store.erase_set]

/-- The file at a path becomes a copy of what can be read at another.  Copied
over itself it is empty. -/
theorem copy_of_target {source : PathName} (opens : fs.target path = some place)
    (readable : fs.read source = some content) :
    fs.copy source path =
      some (fs.put place
        (if fs.locate source = some place then [] else content)) := by
  obtain ⟨file, opened, rfl⟩ := Option.map_eq_some_iff.mp readable
  have emptied : ((fs.put place []).read source).getD [] =
      if fs.locate source = some place then [] else file.bytes := by
    split
    · rename_i same
      have stays := not_isFolder_of_target opens
      simp only [read, openRead, locate_put, same, Option.bind_some,
        isFolder_put, if_neg stays]
      simp [put]
    · rename_i apart
      have kept := (@sameAt_put fs source place [] apart).read
      rw [kept, readable, Option.getD_some]
  unfold copy
  rw [opened, Option.bind_some, write_of_target opens, Option.bind_some,
    emptied, write_of_target (by exact opens), put_put]

theorem copy_apart {source : PathName} (opens : fs.target path = some place)
    (apart : fs.locate source ≠ some place)
    (readable : fs.read source = some content) :
    fs.copy source path = some (fs.put place content) := by
  rw [copy_of_target opens readable, if_neg apart]

/-- A copy writes the file at its path. -/
theorem copy_cases {source : PathName}
    (copied : fs.copy source path = some gs) :
    ∃ place content, fs.target path = some place ∧
      gs = fs.put place content := by
  simp only [copy, Option.bind_eq_some_iff] at copied
  obtain ⟨_, _, opened, written, again⟩ := copied
  obtain ⟨place, opens, rfl⟩ := Option.map_eq_some_iff.mp written
  obtain ⟨other, same, rfl⟩ := Option.map_eq_some_iff.mp again
  obtain rfl := Option.some.inj (opens.symm.trans same)
  exact ⟨place, _, opens, put_put⟩

/-- What can be opened is what is there. -/
theorem openRead_isSome_iff :
    (fs.openRead path).isSome ↔ fs.PathExists path := by
  unfold openRead PathExists
  cases found : fs.locate path with
  | none => simp
  | some place =>
      by_cases folder : fs.IsFolder place
      · simp [folder, Exists]
      · simp [folder, Exists]

/-- What is found in a folder is there. -/
theorem exists_of_mem_entries {here : Location} {name : Text}
    (member : name ∈ fs.entries here) : fs.Exists (here ++ [name]) := by
  obtain ⟨entry, stands, found⟩ := List.mem_filterMap.mp member
  split at found
  case isFalse => cases found
  rename_i inside
  have whole : entry = here ++ [name] := by
    rw [← inside.2]
    exact (List.dropLast_append_getLast? name found).symm
  rw [← whole]
  rcases List.mem_append.mp stands with file | folder
  · exact .inr ((Store.isSome_get_iff _).mpr file)
  · exact .inl (.inr folder)

/-- Where no file can be written, a folder may stand. -/
theorem read_of_target_none {name : Text}
    (blocked : fs.target (path ++ [name]) = none)
    (readable : fs.read (path ++ [name]) = some content) : content = [] := by
  obtain ⟨file, opened, rfl⟩ := Option.map_eq_some_iff.mp readable
  obtain ⟨place, reached, stored⟩ := Option.bind_eq_some_iff.mp opened
  by_cases folder : fs.IsFolder place
  · rw [if_pos folder] at stored
    cases stored
    rfl
  · have plain : IsPlain name := by
      by_contra special
      exact folder (isFolder_of_locate special reached)
    simp [target, endsPlain_concat.mpr plain, reached, folder] at blocked

theorem read_isSome_iff : (fs.read path).isSome ↔ fs.PathExists path := by
  rw [read, Option.isSome_map, openRead_isSome_iff]

/-- Copying needs something to read and a file to write. -/
theorem copy_isSome_iff {source : PathName} :
    (fs.copy source path).isSome ↔
      fs.PathExists source ∧ (fs.target path).isSome := by
  rw [← openRead_isSome_iff]
  unfold copy
  cases fs.openRead source with
  | none => simp
  | some file =>
      cases opens : fs.target path with
      | none => simp [write, opens]
      | some place => simp [write, opens]

theorem copy_eq_none {source : PathName}
    (fails : fs.target path = none ∨ fs.read source = none) :
    fs.copy source path = none := by
  unfold copy
  cases opened : fs.openRead source with
  | none => rfl
  | some file =>
      rcases fails with fails | fails
      · rw [Option.bind_some, write_eq_none fails, Option.bind_none]
      · simp [read, opened] at fails

end Frames

section Renaming

variable {fs : FileSystem} {folder : PathName} {name swapName : Text}
  {source : Location} {content : Text}

theorem parent_of_locate {here : Location} (inhabited : name ≠ [])
    (reached : fs.locate folder = some here) (stands : fs.IsFolder here) :
    fs.parent (folder ++ [name]) = .ok here := by
  simp [parent, trim_concat inhabited, reached, stands]

/-- Renaming a file to another name in its folder works if that name can be
opened for writing. -/
theorem rename_beside {goal : Location} (different : swapName ≠ name)
    (opens : fs.target (folder ++ [swapName]) = some source)
    (stored : fs.files.get source = some content)
    (goalOpens : fs.target (folder ++ [name]) = some goal) :
    fs.rename (folder ++ [swapName]) (folder ++ [name]) =
      .ok ((fs.remove source).put goal content) := by
  obtain ⟨here, reached, stands, plain, fits, rfl, file⟩ :=
    target_concat.mp opens
  obtain ⟨goalHere, goalReached, _, goalPlain, goalFits, rfl, goalFile⟩ :=
    target_concat.mp goalOpens
  obtain rfl := Option.some.inj (reached.symm.trans goalReached)
  have outside : ¬here ++ [name] <+: here := by
    intro inside
    have lengths := inside.length_le
    simp only [List.length_append, List.length_singleton] at lengths
    omega
  have apart : here ++ [swapName] ≠ here ++ [name] := by simpa using different
  have found : fs.Exists (here ++ [swapName]) := .inr (by simp [stored])
  unfold rename
  rw [parent_of_locate plain.1 reached stands,
    parent_of_locate goalPlain.1 reached stands]
  simp [trim_concat plain.1, trim_concat goalPlain.1, plain, goalPlain,
    Nat.not_lt.mpr fits, Nat.not_lt.mpr goalFits, found, file, outside,
    stored, renameFile, apart, goalFile, bind, Except.bind]

theorem locate_of_parent {path : PathName} {here : Location}
    (found : fs.parent path = .ok here) (last : path.trim.getLast? = some name)
    (plain : IsPlain name) (fits : name.length ≤ nameMax) :
    fs.locate path.trim = some (here ++ [name]) ∧ fs.IsFolder here := by
  have whole := List.dropLast_append_getLast? name last
  unfold parent at found
  cases reached : fs.locate path.trim.dropLast with
  | none => simp [reached] at found
  | some place =>
      rw [reached] at found
      simp only at found
      split at found
      · rename_i folder
        cases found
        rw [← whole, locate_concat, reached, Option.bind_some,
          enter_plain plain, if_pos ⟨folder, fits⟩]
        exact ⟨rfl, folder⟩
      · split at found <;> cases found

/-- What a `rename` that succeeds has done. -/
theorem rename_cases {gs : FileSystem} {path other : PathName}
    (renamed : fs.rename path other = .ok gs) :
    ∃ source goal, fs.locate path.trim = some source ∧
      fs.locate other.trim = some goal ∧ fs.Exists source ∧
      path.trim.EndsPlain ∧ other.trim.EndsPlain ∧
      if fs.IsFolder source then fs.renameFolder source goal = .ok gs
      else path.trim = path ∧ other.trim = other ∧
        fs.renameFile source goal ((fs.files.get source).getD []) =
          .ok gs := by
  unfold rename at renamed
  cases first : fs.parent path with
  | error reason => simp [first, bind, Except.bind] at renamed
  | ok sourceParent =>
  cases second : fs.parent other with
  | error reason => simp [first, second, bind, Except.bind] at renamed
  | ok goalParent =>
  simp only [first, second, bind, Except.bind] at renamed
  split at renamed
  case h_2 => cases renamed
  rename_i name newName last newLast
  split at renamed
  · cases renamed
  rename_i plain
  rw [not_not] at plain
  split at renamed
  · cases renamed
  rename_i fits
  split at renamed
  · cases renamed
  rename_i stands
  split at renamed
  · cases renamed
  rename_i newFits
  obtain ⟨reached, _⟩ :=
    locate_of_parent first last plain.1 (Nat.not_lt.mp fits)
  obtain ⟨newReached, _⟩ :=
    locate_of_parent second newLast plain.2 (Nat.not_lt.mp newFits)
  refine ⟨_, _, reached, newReached, not_not.mp stands,
    ⟨name, last, plain.1⟩, ⟨newName, newLast, plain.2⟩, ?_⟩
  split at renamed
  · rename_i folder
    rw [if_pos folder]
    split at renamed
    · cases renamed
    · split at renamed
      · cases renamed
      · exact renamed
  · rename_i folder
    rw [if_neg folder]
    split at renamed
    · cases renamed
    · rename_i slashes
      split at renamed
      · cases renamed
      · push Not at slashes
        exact ⟨slashes.1, slashes.2, renamed⟩

/-- A file cannot be renamed to what cannot be opened for writing. -/
theorem rename_eq_error {path other : PathName}
    (opens : fs.target path = some source) (trimmed : path.trim = path)
    (fails : fs.target other = none) :
    ∃ reason, fs.rename path other = .error reason := by
  cases renamed : fs.rename path other with
  | error reason => exact ⟨reason, rfl⟩
  | ok gs =>
      obtain ⟨place, goal, reached, goalReached, _, _, plain, moved⟩ :=
        rename_cases renamed
      rw [trimmed] at reached
      obtain rfl := Option.some.inj
        (reached.symm.trans (locate_of_target opens))
      rw [if_neg (not_isFolder_of_target opens)] at moved
      obtain ⟨_, goalTrimmed, moved⟩ := moved
      rw [goalTrimmed] at plain goalReached
      have file : ¬fs.IsFolder goal := by
        unfold renameFile at moved
        split at moved
        · rename_i same
          exact same ▸ not_isFolder_of_target opens
        · split at moved
          · cases moved
          · assumption
      simp [target, plain, goalReached, file] at fails

/-- Write a swap file and rename it to its place. -/
theorem write_rename (different : swapName ≠ name) :
    (fs.target (folder ++ [swapName]) = none ∧
        fs.write (folder ++ [swapName]) content = none) ∨
      ∃ source disk, fs.target (folder ++ [swapName]) = some source ∧
        fs.write (folder ++ [swapName]) content = some disk ∧
        ((∃ goal, fs.target (folder ++ [name]) = some goal ∧
            disk.rename (folder ++ [swapName]) (folder ++ [name]) =
              .ok ((fs.remove source).put goal content)) ∨
          ∃ reason, fs.target (folder ++ [name]) = none ∧
            disk.rename (folder ++ [swapName]) (folder ++ [name]) =
              .error reason ∧
            disk.tryUnlink (folder ++ [swapName]) = fs.remove source) := by
  cases opens : fs.target (folder ++ [swapName]) with
  | none => exact .inl ⟨rfl, write_eq_none opens⟩
  | some source =>
      refine .inr ⟨source, fs.put source content, rfl,
        write_of_target opens, ?_⟩
      have opened : (fs.put source content).target (folder ++ [swapName]) =
          some source := opens
      obtain ⟨_, _, _, plain, _⟩ := target_concat.mp opens
      cases goalOpens : fs.target (folder ++ [name]) with
      | some goal =>
          refine .inl ⟨goal, rfl, ?_⟩
          have stored : (fs.put source content).files.get source =
              some content := Store.get_set_self _ _ _
          rw [rename_beside different opened stored (by exact goalOpens),
            remove_put]
      | none =>
          obtain ⟨reason, failed⟩ := rename_eq_error opened
            (trim_concat plain.1) (by exact goalOpens)
          refine .inr ⟨reason, rfl, failed, ?_⟩
          have stored : ((fs.put source content).files.get source).isSome :=
            by rw [put, Store.get_set_self]; rfl
          rw [tryUnlink, unlink, opened, Option.bind_some, if_pos stored,
            remove_put]
          rfl

end Renaming

section Changing

variable {fs : FileSystem} {path : PathName} {place : Location}
  {text : Option Text} {changes : List (Location × Option Text)}

/-- A file gets another text or is removed. -/
def change (fs : FileSystem) (place : Location) :
    Option Text → FileSystem
  | some text => fs.put place text
  | none => fs.remove place

/-- One change after the other. -/
def changeAll (fs : FileSystem)
    (changes : List (Location × Option Text)) : FileSystem :=
  changes.foldl (fun fs entry => fs.change entry.1 entry.2) fs

theorem changeAll_append (first second : List (Location × Option Text)) :
    fs.changeAll (first ++ second) = (fs.changeAll first).changeAll second :=
  List.foldl_append

@[simp] theorem locate_change :
    (fs.change place text).locate path = fs.locate path := by
  cases text <;> rfl

@[simp] theorem isFolder_change {other : Location} :
    (fs.change place text).IsFolder other ↔ fs.IsFolder other := by
  cases text <;> exact Iff.rfl

theorem read_change (reached : fs.locate path = some place)
    (file : ¬fs.IsFolder place) :
    (fs.change place text).read path = text := by
  have stored : (fs.change place text).files.get place = text := by
    cases text with
    | none => exact Store.get_erase_self _ _
    | some text => exact Store.get_set_self _ _ _
  rw [read, openRead, locate_change, reached, Option.bind_some,
    if_neg (mt isFolder_change.mp file), stored, Option.map_map]
  cases text <;> rfl

theorem sameAt_change (apart : fs.locate path ≠ some place) :
    SameAt fs (fs.change place text) path := by
  cases text with
  | none => exact sameAt_remove apart
  | some text => exact sameAt_put apart

theorem sameAt_changeAll
    (apart : ∀ entry ∈ changes, fs.locate path ≠ some entry.1) :
    SameAt fs (fs.changeAll changes) path := by
  induction changes generalizing fs with
  | nil => exact .refl
  | cons entry changes ih =>
      have first := @sameAt_change fs path entry.1 entry.2
        (apart entry (by simp))
      refine first.trans (ih fun other listed => ?_)
      rw [locate_change]
      exact apart other (by simp [listed])

/-- No place is changed twice, so that each change is what is found. -/
theorem read_changeAll (distinct : (changes.map Prod.fst).Nodup)
    (listed : (place, text) ∈ changes)
    (reached : fs.locate path = some place) (file : ¬fs.IsFolder place) :
    (fs.changeAll changes).read path = text := by
  induction changes generalizing fs with
  | nil => cases listed
  | cons entry changes ih =>
      rw [List.map_cons, List.nodup_cons] at distinct
      rcases List.mem_cons.mp listed with rfl | later
      · have kept : SameAt (fs.change place text)
            ((fs.change place text).changeAll changes) path := by
          refine sameAt_changeAll fun other otherListed same => ?_
          rw [locate_change, reached] at same
          exact distinct.1 (List.mem_map.mpr
            ⟨other, otherListed, (Option.some.inj same).symm⟩)
        exact kept.read.trans (read_change reached file)
      · exact ih distinct.2 later (locate_change.trans reached)
          (mt isFolder_change.mp file)

end Changing

end FileSystem
