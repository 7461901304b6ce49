import Dfs.Library.StepRun
import Dfs.NameServer.SearchCache

/-!
# The location cache over its history

A valid entry stands in the slot of its name and comes from the last insertion
of that name: nothing that ended the binding, an insertion or an invalidation
of the name or a clearing of the cache, happened since.  Names that share the
slot can only make a binding disappear.
-/

namespace Dfs.NameServer

/-- A call on the cache, with the clock reading it takes. -/
inductive CacheCall where
  | insert (now : Int) (filename : Filename) (ssId : Int)
  | lookup (now : Int) (filename : Filename)
  | invalidate (filename : Filename)
  | clear
  deriving DecidableEq, Repr

def cacheStep (cache : SearchCache) : CacheCall → SearchCache
  | .insert now filename ssId => cacheInsert now cache filename ssId
  | .lookup now filename => (cacheLookup now cache filename).1
  | .invalidate filename => cacheInvalidate cache filename
  | .clear => cacheClear

/-- The cache after these calls, from its start. -/
def cacheAfter (calls : List CacheCall) : SearchCache :=
  StepRun.run cacheStep initFileCache calls

/-- The call gives the name another binding or none. -/
def CacheCall.Rebinds (filename : Filename) : CacheCall → Prop
  | .insert _ name _ => name = filename
  | .lookup _ _ => False
  | .invalidate name => name = filename
  | .clear => True

/-- The last call that bound the name or ended its binding is this
insertion. -/
def BoundAt (calls : List CacheCall) (time : Int) (filename : Filename)
    (ssId : Int) : Prop :=
  ∃ before after, calls = before ++ .insert time filename ssId :: after ∧
    ∀ call ∈ after, ¬ call.Rebinds filename

section

variable {calls : List CacheCall} {call : CacheCall} {time : Int}
  {filename : Filename} {ssId : Int}

theorem boundAt_insert :
    BoundAt (calls ++ [.insert time filename ssId]) time filename ssId :=
  ⟨calls, [], rfl, by simp⟩

theorem BoundAt.concat (bound : BoundAt calls time filename ssId)
    (kept : ¬ call.Rebinds filename) :
    BoundAt (calls ++ [call]) time filename ssId := by
  obtain ⟨before, after, rfl, quiet⟩ := bound
  refine ⟨before, after ++ [call], by simp, ?_⟩
  intro other member
  rcases List.mem_append.mp member with old | new
  · exact quiet other old
  · rw [List.mem_singleton.mp new]
    exact kept

/-- A valid entry stands in the slot of its name, as it was inserted. -/
def Traced (calls : List CacheCall) (cache : SearchCache) (slot : Nat) :
    Prop :=
  (cache slot).valid = true →
    cacheHash (cache slot).filename = slot ∧
      BoundAt calls (cache slot).timestamp (cache slot).filename
        (cache slot).ssId

variable {cache : SearchCache} {slot : Nat}

theorem Traced.concat (traced : Traced calls cache slot)
    (kept : (cache slot).valid = true →
      ¬ call.Rebinds (cache slot).filename) :
    Traced (calls ++ [call]) cache slot :=
  fun valid => ⟨(traced valid).1, (traced valid).2.concat (kept valid)⟩

theorem traced_insert (traced : ∀ slot, Traced calls cache slot)
    (now : Int) (filename : Filename) (ssId : Int) (slot : Nat) :
    Traced (calls ++ [.insert now filename ssId])
      (cacheInsert now cache filename ssId) slot := by
  rw [cacheInsert_eq]
  by_cases here : slot = cacheHash filename
  · subst here
    intro _
    rw [Function.update_self]
    exact ⟨rfl, boundAt_insert⟩
  · intro valid
    rw [Function.update_of_ne here] at valid ⊢
    refine (traced slot).concat ?_ valid
    intro _ same
    have named : filename = (cache slot).filename := same
    exact here (by rw [named]; exact (traced slot valid).1.symm)

/-- A slot whose entry is made invalid is no concern. -/
theorem traced_drop (entry : CacheEntry) (dropped : entry.valid = false)
    (others : slot ≠ cacheHash filename →
      Traced (calls ++ [call]) cache slot) :
    Traced (calls ++ [call])
      (Function.update cache (cacheHash filename) entry) slot := by
  intro valid
  by_cases here : slot = cacheHash filename
  · subst here
    rw [Function.update_self, dropped] at valid
    cases valid
  · rw [Function.update_of_ne here] at valid ⊢
    exact others here valid

theorem traced_lookup (traced : ∀ slot, Traced calls cache slot)
    (now : Int) (filename : Filename) (slot : Nat) :
    Traced (calls ++ [.lookup now filename])
      (cacheLookup now cache filename).1 slot := by
  have kept : Traced (calls ++ [.lookup now filename]) cache slot :=
    (traced slot).concat fun _ => id
  unfold cacheLookup
  simp only
  split
  · split
    · exact kept
    · exact traced_drop _ rfl fun _ => kept
  · exact kept

theorem traced_invalidate (traced : ∀ slot, Traced calls cache slot)
    (filename : Filename) (slot : Nat) :
    Traced (calls ++ [.invalidate filename])
      (cacheInvalidate cache filename) slot := by
  -- An entry of this name is the one in the slot of the name.
  have placed : (cache slot).valid = true → filename = (cache slot).filename →
      slot = cacheHash filename := by
    intro valid named
    rw [named]
    exact (traced slot valid).1.symm
  unfold cacheInvalidate
  simp only
  split
  · apply traced_drop _ rfl
    intro elsewhere
    apply (traced slot).concat
    intro valid named
    exact elsewhere (placed valid named)
  · rename_i unmatched
    apply (traced slot).concat
    intro valid named
    have here := placed valid named
    rw [← here] at unmatched
    exact unmatched (CacheEntry.matches_iff.mpr ⟨valid, Eq.symm named⟩)

theorem traced_step (traced : ∀ slot, Traced calls cache slot)
    (call : CacheCall) (slot : Nat) :
    Traced (calls ++ [call]) (cacheStep cache call) slot := by
  cases call with
  | insert now filename ssId =>
      exact traced_insert traced now filename ssId slot
  | lookup now filename => exact traced_lookup traced now filename slot
  | invalidate filename => exact traced_invalidate traced filename slot
  | clear =>
      intro valid
      cases valid

theorem traced_cacheAfter (calls : List CacheCall) (slot : Nat) :
    Traced calls (cacheAfter calls) slot := by
  induction calls using List.reverseRecOn generalizing slot with
  | nil =>
      intro valid
      cases valid
  | append_singleton calls call ih =>
      have run : cacheAfter (calls ++ [call]) =
          cacheStep (cacheAfter calls) call := by
        simp [cacheAfter]
      rw [run]
      exact traced_step ih call slot

end

/-- Over every history of calls, whatever the clock reads, a hit comes from
the last insertion of the name, which is younger than `CACHE_TTL` and was not
undone since; and what was just inserted is found. -/
theorem cache_never_stale (calls : List CacheCall) (now : Int)
    (filename : Filename) (ssId : Int) :
    ((cacheLookup now (cacheAfter calls) filename).2 = some ssId →
      ∃ time, BoundAt calls time filename ssId ∧ now - time < cacheTtl) ∧
    (cacheLookup now (cacheAfter (calls ++ [.insert now filename ssId]))
      filename).2 = some ssId := by
  constructor
  · intro hit
    obtain ⟨matched, fresh, stored⟩ := cacheLookup_hit_iff.mp hit
    obtain ⟨valid, named⟩ := CacheEntry.matches_iff.mp matched
    obtain ⟨_, bound⟩ := traced_cacheAfter calls (cacheHash filename) valid
    rw [named, stored] at bound
    exact ⟨_, bound, fresh⟩
  · have inserted : cacheAfter (calls ++ [.insert now filename ssId]) =
        cacheInsert now (cacheAfter calls) filename ssId := by
      simp [cacheAfter, cacheStep]
    have young : now - now < cacheTtl := by
      rw [Int.sub_self]
      decide
    rw [inserted, cacheInsert_eq, cacheLookup_hit_iff, Function.update_self]
    exact ⟨CacheEntry.matches_iff.mpr ⟨rfl, rfl⟩, young, rfl⟩

end Dfs.NameServer
