import Dfs.Library.FileSystem

/-!
# What a change of files and folders leaves alone

There are no links, so a path leads to one place whatever folders exist, if it
leads anywhere.  A change is described by the places where it may write or
remove files, and by those where something new may stand; what stands at the
end of any other path stays as it is.
-/

namespace PathName

/-- Where one name leads if it leads anywhere. -/
def step (here : Location) (name : Text) : Location :=
  if name = [] ∨ name = ['.'] then here
  else if name = ['.', '.'] then here.dropLast
  else here ++ [name]

/-- Where a path leads if it leads anywhere. -/
def resolve (path : PathName) : Location := path.foldl step []

theorem resolve_concat (path : PathName) (name : Text) :
    resolve (path ++ [name]) = step path.resolve name := by
  simp [resolve]

/-- Slashes at the end do not matter. -/
theorem resolve_trim (path : PathName) : resolve path.trim = path.resolve := by
  induction path using List.reverseRecOn with
  | nil => rfl
  | append_singleton path name ih =>
      by_cases blank : name = []
      · subst blank
        rw [resolve_concat, ← ih]
        simp [trim, step]
      · rw [FileSystem.trim_concat blank]

/-- The path does not go through this place. -/
def Avoids (source : Location) (path : PathName) : Prop :=
  ∀ front ∈ path.inits, ¬source <+: resolve front

instance (source : Location) (path : PathName) :
    Decidable (Avoids source path) :=
  inferInstanceAs (Decidable (∀ front ∈ path.inits, _))

theorem Avoids.of_prefix {source : Location} {front path : PathName}
    (avoids : Avoids source path) (inside : front <+: path) :
    Avoids source front :=
  fun before member => avoids before
    ((List.mem_inits _ _).mpr (((List.mem_inits _ _).mp member).trans inside))

theorem Avoids.resolve {source : Location} {path : PathName}
    (avoids : Avoids source path) : ¬source <+: PathName.resolve path :=
  avoids path ((List.mem_inits _ _).mpr List.prefix_rfl)

end PathName

namespace FileSystem

variable {fs gs hs : FileSystem} {path : PathName} {place other : Location}
  {places more : List Location} {content : Text}

theorem step_of_enter {here : Location} {name : Text}
    (entered : fs.enter here name = some place) :
    PathName.step here name = place := by
  unfold enter at entered
  unfold PathName.step
  split at entered
  · cases entered
  · split at entered
    · rename_i stays
      rw [if_pos stays]
      exact Option.some.inj entered
    · rename_i goes
      rw [if_neg goes]
      split at entered
      · rename_i up
        rw [if_pos up]
        split at entered
        · exact Option.some.inj entered
        · cases entered
      · rename_i down
        rw [if_neg down]
        split at entered
        · exact Option.some.inj entered
        · cases entered

theorem resolve_of_locate (reached : fs.locate path = some place) :
    path.resolve = place := by
  induction path using List.reverseRecOn generalizing place with
  | nil => exact Option.some.inj reached
  | append_singleton path name ih =>
      rw [locate_concat, Option.bind_eq_some_iff] at reached
      obtain ⟨here, found, entered⟩ := reached
      rw [PathName.resolve_concat, ih found]
      exact step_of_enter entered

theorem resolve_of_target (opens : fs.target path = some place) :
    path.resolve = place :=
  resolve_of_locate (locate_of_target opens)

/-- Only the files at these places differ, and a new folder is where no file
was or at one of them. -/
structure ChangedAt (places : List Location) (fs gs : FileSystem) : Prop where
  files : ∀ place, place ∉ places → gs.files.get place = fs.files.get place
  grows : fs.Grows gs
  fresh : ∀ place, gs.IsFolder place → fs.IsFolder place ∨ place ∈ places ∨
    fs.files.get place = none
  folderEnd : gs.folderEnd = fs.folderEnd
  folderSize : gs.folderSize = fs.folderSize

namespace ChangedAt

theorem refl (places : List Location) (fs : FileSystem) :
    ChangedAt places fs fs :=
  ⟨fun _ _ => rfl, fun _ folder => folder, fun _ => .inl, rfl, rfl⟩

theorem trans (first : ChangedAt places fs gs)
    (second : ChangedAt places gs hs) : ChangedAt places fs hs where
  files := fun place elsewhere =>
    (second.files place elsewhere).trans (first.files place elsewhere)
  grows := fun place folder => second.grows place (first.grows place folder)
  fresh := by
    intro place folder
    rcases second.fresh place folder with before | here | free
    · exact first.fresh place before
    · exact .inr (.inl here)
    · by_cases here : place ∈ places
      · exact .inr (.inl here)
      · exact .inr (.inr (first.files place here ▸ free))
  folderEnd := second.folderEnd.trans first.folderEnd
  folderSize := second.folderSize.trans first.folderSize

theorem mono (changed : ChangedAt places fs gs) (subset : places ⊆ more) :
    ChangedAt more fs gs where
  files := fun place elsewhere =>
    changed.files place fun here => elsewhere (subset here)
  grows := changed.grows
  fresh := fun place folder =>
    (changed.fresh place folder).imp_right (Or.imp_left fun here =>
      subset here)
  folderEnd := changed.folderEnd
  folderSize := changed.folderSize

theorem put (here : place ∈ places) :
    ChangedAt places fs (fs.put place content) where
  files := by
    intro other elsewhere
    refine Store.get_set_of_ne _ ?_ content
    rintro rfl
    exact elsewhere here
  grows := fun _ folder => folder
  fresh := fun _ => .inl
  folderEnd := rfl
  folderSize := rfl

theorem remove (here : place ∈ places) :
    ChangedAt places fs (fs.remove place) where
  files := by
    intro other elsewhere
    refine Store.get_erase_of_ne _ ?_
    rintro rfl
    exact elsewhere here
  grows := fun _ folder => folder
  fresh := fun _ => .inl
  folderEnd := rfl
  folderSize := rfl

theorem addFolder (free : ¬fs.Exists place) :
    ChangedAt places fs (fs.addFolder place) where
  files := fun _ _ => rfl
  grows := grows_addFolder place
  fresh := by
    intro other folder
    rcases isFolder_addFolder.mp folder with before | rfl
    · exact .inl before
    · refine .inr (.inr ?_)
      by_contra stored
      exact free (.inr (Option.isSome_iff_ne_none.mpr stored))
  folderEnd := rfl
  folderSize := rfl

theorem tryMkdir (path : PathName) :
    ChangedAt places fs (fs.tryMkdir path) := by
  rcases tryMkdir_cases fs path with same | ⟨made, _, free, added⟩
  · rw [same]
    exact .refl places fs
  · rw [added]
    exact .addFolder free

theorem makeParents (path : PathName) :
    ChangedAt places fs (fs.makeParents path) :=
  makeParents_induction (.refl places) .trans (fun _ _ => .addFolder) fs path

theorem mkdir (made : fs.mkdir path = .ok gs) : ChangedAt places fs gs := by
  obtain ⟨place, _, _, free, rfl⟩ := mkdir_eq_ok.mp made
  exact .addFolder free

theorem write (here : path.resolve ∈ places)
    (written : fs.write path content = some gs) :
    ChangedAt places fs gs := by
  obtain ⟨place, opens, rfl⟩ := Option.map_eq_some_iff.mp written
  exact .put (resolve_of_target opens ▸ here)

theorem copy {source : PathName} (here : path.resolve ∈ places)
    (copied : fs.copy source path = some gs) : ChangedAt places fs gs := by
  obtain ⟨place, text, opens, rfl⟩ := copy_cases copied
  exact .put (resolve_of_target opens ▸ here)

theorem unlink (here : path.resolve ∈ places)
    (unlinked : fs.unlink path = some gs) : ChangedAt places fs gs := by
  obtain ⟨place, opens, removed⟩ := Option.bind_eq_some_iff.mp unlinked
  split at removed
  · obtain rfl := Option.some.inj removed
    exact .remove (resolve_of_target opens ▸ here)
  · cases removed

theorem tryUnlink (here : path.resolve ∈ places) :
    ChangedAt places fs (fs.tryUnlink path) := by
  unfold FileSystem.tryUnlink
  cases unlinked : fs.unlink path with
  | none => exact .refl places fs
  | some gs => exact .unlink here unlinked

/-- What stands at the end of a path elsewhere is not touched. -/
theorem sameAt (changed : ChangedAt places fs gs)
    (stands : fs.PathExists path) (apart : path.resolve ∉ places) :
    SameAt fs gs path := by
  obtain ⟨place, reached, here⟩ := stands
  rw [resolve_of_locate reached] at apart
  have only : ∀ other, fs.locate path = some other → other = place :=
    fun other found => Option.some.inj (found.symm.trans reached)
  refine ⟨(locate_of_grows changed.grows reached).trans reached.symm, ?_, ?_,
    changed.folderEnd, changed.folderSize⟩
  · intro other found
    obtain rfl := only other found
    refine ⟨fun folder => ?_, changed.grows _⟩
    rcases changed.fresh _ folder with before | inside | free
    · exact before
    · exact (apart inside).elim
    · exact here.resolve_right (by simp [free])
  · intro other found
    obtain rfl := only other found
    exact changed.files _ apart

end ChangedAt

/-- Whatever is new stands at one of these places. -/
def Adds (places : List Location) (fs gs : FileSystem) : Prop :=
  ∀ place, gs.Exists place → fs.Exists place ∨ place ∈ places

namespace Adds

theorem refl (places : List Location) (fs : FileSystem) :
    Adds places fs fs :=
  fun _ => .inl

theorem trans (first : Adds places fs gs) (second : Adds places gs hs) :
    Adds places fs hs :=
  fun place stands => (second place stands).elim (first place) .inr

theorem mono (adds : Adds places fs gs) (subset : places ⊆ more) :
    Adds more fs gs :=
  fun place stands => (adds place stands).imp_right fun here => subset here

theorem put (here : place ∈ places) :
    Adds places fs (fs.put place content) := by
  intro other stands
  rcases stands with folder | stored
  · exact .inl (.inl folder)
  · by_cases same : other = place
    · exact .inr (same ▸ here)
    · refine .inl (.inr ?_)
      rwa [FileSystem.put, Store.get_set_of_ne _ same] at stored

theorem remove : Adds places fs (fs.remove place) := by
  intro other stands
  refine .inl (stands.imp_right fun stored => ?_)
  by_cases same : other = place
  · simp [FileSystem.remove, same] at stored
  · rwa [FileSystem.remove, Store.get_erase_of_ne _ same] at stored

theorem addFolder (here : place ∈ places) :
    Adds places fs (fs.addFolder place) := by
  intro other stands
  rcases stands with folder | stored
  · rcases isFolder_addFolder.mp folder with before | rfl
    · exact .inl (.inl before)
    · exact .inr here
  · exact .inl (.inr stored)

theorem tryMkdir (here : path.resolve ∈ places) :
    Adds places fs (fs.tryMkdir path) := by
  rcases tryMkdir_cases fs path with same | ⟨made, reached, _, added⟩
  · rw [same]
    exact .refl places fs
  · rw [added]
    refine .addFolder ?_
    rwa [← resolve_of_locate reached, PathName.resolve_trim]

theorem mkdir (here : path.resolve ∈ places)
    (made : fs.mkdir path = .ok gs) : Adds places fs gs := by
  obtain ⟨place, reached, _, _, rfl⟩ := mkdir_eq_ok.mp made
  refine .addFolder ?_
  rwa [← resolve_of_locate reached, PathName.resolve_trim]

theorem write (here : path.resolve ∈ places)
    (written : fs.write path content = some gs) : Adds places fs gs := by
  obtain ⟨place, opens, rfl⟩ := Option.map_eq_some_iff.mp written
  exact .put (resolve_of_target opens ▸ here)

theorem copy {source : PathName} (here : path.resolve ∈ places)
    (copied : fs.copy source path = some gs) : Adds places fs gs := by
  obtain ⟨place, text, opens, rfl⟩ := copy_cases copied
  exact .put (resolve_of_target opens ▸ here)

theorem unlink (unlinked : fs.unlink path = some gs) :
    Adds places fs gs := by
  obtain ⟨place, _, removed⟩ := Option.bind_eq_some_iff.mp unlinked
  split at removed
  · obtain rfl := Option.some.inj removed
    exact .remove
  · cases removed

theorem tryUnlink : Adds places fs (fs.tryUnlink path) := by
  unfold FileSystem.tryUnlink
  cases unlinked : fs.unlink path with
  | none => exact .refl places fs
  | some gs => exact .unlink unlinked

theorem makeParents (ways : path.dropLast.inits.map PathName.resolve ⊆ places) :
    Adds places fs (fs.makeParents path) := by
  unfold FileSystem.makeParents
  generalize path.dropLast.inits = folders at ways
  induction folders generalizing fs with
  | nil => exact .refl places fs
  | cons folder folders ih =>
      rw [List.map_cons, List.cons_subset] at ways
      exact (tryMkdir ways.1).trans (ih ways.2)

end Adds

section Renaming

variable {source goal : Location}

theorem rebase_of_apart (apart : ¬source <+: place) :
    rebase source goal place = place :=
  if_neg apart

theorem rebase_eq_iff (left : ¬source <+: place) (right : ¬goal <+: place) :
    rebase source goal other = place ↔ other = place := by
  constructor
  · intro moved
    unfold rebase at moved
    split at moved
    · exact (right (moved ▸ List.prefix_append goal _)).elim
    · exact moved
  · rintro rfl
    exact rebase_of_apart left

/-- The folder that is moved, with all below it. -/
private def moved (fs : FileSystem) (source goal : Location) : FileSystem :=
  { fs with
    files := ⟨fs.files.entries.map fun entry =>
      (rebase source goal entry.1, entry.2)⟩
    folders := (fs.folders.filter (· ≠ goal)).map (rebase source goal) }

private theorem renameFolder_cases
    (renamed : fs.renameFolder source goal = .ok gs) :
    gs = fs ∨ source ≠ goal ∧ gs = fs.moved source goal := by
  unfold renameFolder at renamed
  split at renamed
  · exact .inl (Except.ok.inj renamed).symm
  · rename_i different
    split at renamed
    · cases renamed
    · split at renamed
      · cases renamed
      · exact .inr ⟨different, (Except.ok.inj renamed).symm⟩

private theorem isFolder_moved (folder : fs.IsFolder source)
    (different : source ≠ goal) (stands : fs.IsFolder place)
    (apart : ¬source <+: place) : (fs.moved source goal).IsFolder place := by
  rcases stands with rfl | member
  · exact .inl rfl
  · refine .inr (List.mem_map.mpr ?_)
    by_cases same : place = goal
    · have proper : source ≠ [] := by
        rintro rfl
        exact apart (List.nil_prefix)
      refine ⟨source, List.mem_filter.mpr
        ⟨folder.resolve_left proper, by simpa using different⟩, ?_⟩
      rw [same, rebase, if_pos List.prefix_rfl]
      simp
    · exact ⟨place, List.mem_filter.mpr ⟨member, by simpa using same⟩,
        rebase_of_apart apart⟩

private theorem locate_moved (folder : fs.IsFolder source)
    (different : source ≠ goal) (avoids : PathName.Avoids source path)
    (reached : fs.locate path = some place) :
    (fs.moved source goal).locate path = some place := by
  induction path using List.reverseRecOn generalizing place with
  | nil => exact reached
  | append_singleton path name ih =>
      rw [locate_concat, Option.bind_eq_some_iff] at reached ⊢
      obtain ⟨here, found, entered⟩ := reached
      have before := avoids.of_prefix (List.prefix_append path [name])
      have apart : ¬source <+: here := by
        rw [← resolve_of_locate found]
        exact before.resolve
      refine ⟨here, ih before found, ?_⟩
      have stays : ∀ other, fs.IsFolder other → ¬source <+: other →
          (fs.moved source goal).IsFolder other :=
        fun _ => isFolder_moved folder different
      unfold enter at entered ⊢
      split at entered
      · cases entered
      · rename_i open_
        rw [not_not] at open_
        rw [if_neg (not_not_intro (stays here open_ apart))]
        split at entered
        · rename_i same
          rwa [if_pos same]
        · rename_i goes
          rw [if_neg goes]
          split at entered
          · rename_i up
            rw [if_pos up]
            split at entered
            · rename_i above
              have apartAbove : ¬source <+: here.dropLast := fun inside =>
                apart (inside.trans (List.dropLast_prefix here))
              rwa [if_pos (stays _ above apartAbove)]
            · cases entered
          · rename_i down
            rwa [if_neg down]

/-- Only files at or below the old and the new place differ. -/
theorem files_rename {from_ to_ : PathName}
    (renamed : fs.rename from_ to_ = .ok gs)
    (outside : ¬from_.resolve <+: place) (apart : ¬to_.resolve <+: place) :
    gs.files.get place = fs.files.get place := by
  obtain ⟨source, goal, fromReached, toReached, _, _, _, done⟩ :=
    rename_cases renamed
  rw [← PathName.resolve_trim, resolve_of_locate fromReached] at outside
  rw [← PathName.resolve_trim to_, resolve_of_locate toReached] at apart
  split at done
  · rcases renameFolder_cases done with rfl | ⟨_, rfl⟩
    · rfl
    · exact Store.get_map_keys fs.files fun _ => rebase_eq_iff outside apart
  · obtain ⟨_, _, done⟩ := done
    unfold renameFile at done
    split at done
    · obtain rfl := Except.ok.inj done
      rfl
    · split at done
      · cases done
      · obtain rfl := Except.ok.inj done
        have first : place ≠ source := fun same =>
          outside (same ▸ List.prefix_rfl)
        have second : place ≠ goal := fun same =>
          apart (same ▸ List.prefix_rfl)
        exact (Store.get_set_of_ne _ second _).trans
          (Store.get_erase_of_ne _ first)

/-- Renaming leaves alone what stands at the end of a path that does not go
through the old place and does not end at or below the new one. -/
theorem sameAt_rename {from_ to_ : PathName}
    (renamed : fs.rename from_ to_ = .ok gs) (stands : fs.PathExists path)
    (avoids : PathName.Avoids from_.resolve path)
    (apart : ¬to_.resolve <+: path.resolve) : SameAt fs gs path := by
  obtain ⟨place, reached, here⟩ := stands
  have whole := resolve_of_locate reached
  have only : ∀ other, fs.locate path = some other → other = place :=
    fun other found => Option.some.inj (found.symm.trans reached)
  have files : ∀ other ∈ fs.locate path,
      gs.files.get other = fs.files.get other := by
    intro other found
    obtain rfl := only other found
    exact files_rename renamed (whole ▸ avoids.resolve) (whole ▸ apart)
  obtain ⟨source, goal, fromReached, toReached, _, _, _, done⟩ :=
    rename_cases renamed
  rw [← PathName.resolve_trim, resolve_of_locate fromReached] at avoids
  rw [← PathName.resolve_trim to_, resolve_of_locate toReached, whole] at apart
  have outside : ¬source <+: place := whole ▸ avoids.resolve
  split at done
  · rename_i folder
    rcases renameFolder_cases done with rfl | ⟨different, rfl⟩
    · exact .refl
    · refine ⟨(locate_moved folder different avoids reached).trans
        reached.symm, ?_, files, rfl, rfl⟩
      intro other found
      obtain rfl := only other found
      refine ⟨fun open_ => ?_, fun open_ =>
        isFolder_moved folder different open_ outside⟩
      rcases open_ with root | member
      · exact .inl root
      · obtain ⟨before, kept, same⟩ := List.mem_map.mp member
        rw [rebase_eq_iff outside apart] at same
        exact .inr (same ▸ (List.mem_filter.mp kept).1)
  · obtain ⟨_, _, done⟩ := done
    unfold renameFile at done
    split at done
    · obtain rfl := Except.ok.inj done
      exact .refl
    · split at done
      · cases done
      · obtain rfl := Except.ok.inj done
        exact ⟨rfl, fun _ _ => Iff.rfl, files, rfl, rfl⟩

/-- What is new after a renaming stands at or below the new place. -/
theorem exists_rename {from_ to_ : PathName}
    (renamed : fs.rename from_ to_ = .ok gs) (stands : gs.Exists place) :
    fs.Exists place ∨ to_.resolve <+: place := by
  obtain ⟨source, goal, _, toReached, _, _, _, done⟩ := rename_cases renamed
  rw [← PathName.resolve_trim to_, resolve_of_locate toReached]
  by_cases below : goal <+: place
  · exact .inr below
  refine .inl ?_
  have origin : ∀ other, rebase source goal other = place → other = place := by
    intro other same
    unfold rebase at same
    split at same
    · exact (below (same ▸ List.prefix_append goal _)).elim
    · exact same
  split at done
  · rcases renameFolder_cases done with rfl | ⟨_, rfl⟩
    · exact stands
    · rcases stands with (root | member) | stored
      · exact .inl (.inl root)
      · obtain ⟨before, kept, same⟩ := List.mem_map.mp member
        exact .inl (.inr (origin before same ▸ (List.mem_filter.mp kept).1))
      · obtain ⟨entry, member, same⟩ := List.mem_map.mp
          ((Store.isSome_get_iff _).mp stored)
        obtain ⟨before, kept, rfl⟩ := List.mem_map.mp member
        refine .inr ((Store.isSome_get_iff _).mpr (List.mem_map.mpr
          ⟨before, kept, origin before.1 same⟩))
  · obtain ⟨_, _, done⟩ := done
    unfold renameFile at done
    split at done
    · obtain rfl := Except.ok.inj done
      exact stands
    · split at done
      · cases done
      · obtain rfl := Except.ok.inj done
        have added := @Adds.put (fs.remove source) goal [goal]
          ((fs.files.get source).getD []) List.mem_cons_self
        rcases added place stands with before | same
        · exact (@Adds.remove fs source [] place before).resolve_right
            (List.not_mem_nil)
        · exact (below (List.mem_singleton.mp same ▸ List.prefix_rfl)).elim

end Renaming

end FileSystem
