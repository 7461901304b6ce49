import Dfs.Library.LinkedBuckets
import Dfs.NameServer.FileIndex

/-!
# The hash table in memory

The nodes of the file index as the C code allocates, links and frees them.  The
table represents the chained index that the other modules use, and each
operation on it does what its counterpart on the index does.  Seen from one
file name it is a stack of pointers.
-/

namespace Dfs.NameServer

/-- `FileHashNode` in memory, and the buckets that point to them. -/
abbrev FileHashTable := LinkedBuckets Filename FilePtr

def initFileHashTable : FileHashTable := LinkedBuckets.empty

namespace FileHashTable

variable (table : FileHashTable)

/-- `address` is what `malloc` returns. -/
def hashInsertFile (address : Nat) (filename : Filename) (file : FilePtr) :
    FileHashTable :=
  table.insertAt address (hashFilename filename) filename file

/-- The loops have no result if they take more than `bound` steps. -/
def hashRemoveFile (bound : Nat) (filename : Filename) :
    Option FileHashTable :=
  table.removeFrom (hashFilename filename) filename bound none
    (table.heads (hashFilename filename))

def hashFindFile (bound : Nat) (filename : Filename) :
    Option (Option FilePtr) :=
  LinkedBuckets.findFrom table.heap filename bound
    (table.heads (hashFilename filename))

end FileHashTable

section

variable {table : FileHashTable} {nm : NameServerState} {bound : Nat}

/-- Every chain has fewer nodes than this. -/
def ChainsWithin (nm : NameServerState) (bound : Nat) : Prop :=
  ∀ bucket, (nm.fileIndex.buckets bucket).length < bound

theorem represents_hashInsertFile
    (represents : table.Represents nm.fileIndex) {address : Nat}
    (allocated : table.heap address = none) (filename : Filename)
    (file : FilePtr) :
    (table.hashInsertFile address filename file).Represents
      (hashInsertFile nm filename file).fileIndex :=
  represents.insertAt allocated filename file

theorem represents_hashRemoveFile
    (represents : table.Represents nm.fileIndex)
    (within : ChainsWithin nm bound) (filename : Filename) :
    ∃ after, table.hashRemoveFile bound filename = some after ∧
      after.Represents (hashRemoveFile nm filename).fileIndex :=
  represents.removeFrom filename (within _)

theorem hashFindFile_eq (represents : table.Represents nm.fileIndex)
    (within : ChainsWithin nm bound) (filename : Filename) :
    table.hashFindFile bound filename = some (hashFindFile nm filename) :=
  represents.findFrom filename (within _)

theorem ChainsWithin.insert (within : ChainsWithin nm bound)
    (filename : Filename) (file : FilePtr) :
    ChainsWithin (hashInsertFile nm filename file) (bound + 1) := by
  intro bucket
  have before := within bucket
  simp only [hashInsertFile, ChainedIndex.insert]
  by_cases same : bucket = hashFilename filename
  · subst same
    rw [Function.update_self, List.length_cons]
    omega
  · rw [Function.update_of_ne same]
    omega

theorem ChainsWithin.remove (within : ChainsWithin nm bound)
    (filename : Filename) :
    ChainsWithin (hashRemoveFile nm filename) bound := by
  intro bucket
  simp only [hashRemoveFile, ChainedIndex.remove]
  by_cases same : bucket = hashFilename filename
  · subst same
    rw [Function.update_self]
    exact (List.length_eraseP_le).trans_lt (within _)
  · rw [Function.update_of_ne same]
    exact within bucket

end

/-- A call of one of the three functions; an insertion with the address that
it gets from `malloc`. -/
inductive HashCall where
  | insert (address : Nat) (filename : Filename) (file : FilePtr)
  | remove (filename : Filename)
  | find (filename : Filename)
  deriving DecidableEq, Repr

def hashStep (bound : Nat) (table : FileHashTable) :
    HashCall → Option FileHashTable
  | .insert address filename file =>
      some (table.hashInsertFile address filename file)
  | .remove filename => table.hashRemoveFile bound filename
  | .find filename =>
      (table.hashFindFile bound filename).map fun _ => table

def hashRun (bound : Nat) : FileHashTable → List HashCall →
    Option FileHashTable
  | table, [] => some table
  | table, call :: calls =>
      (hashStep bound table call).bind fun after => hashRun bound after calls

/-- `malloc` returns memory that is not in use. -/
def AllocatesUnused (bound : Nat) : FileHashTable → List HashCall → Prop
  | _, [] => True
  | table, call :: calls =>
      (∀ address filename file, call = .insert address filename file →
        table.heap address = none) ∧
      ∀ after ∈ hashStep bound table call, AllocatesUnused bound after calls

/-- The pointers inserted under each name and not removed again, the latest
first. -/
def stackStep (stackOf : Filename → List FilePtr) :
    HashCall → Filename → List FilePtr
  | .insert _ filename file =>
      Function.update stackOf filename (file :: stackOf filename)
  | .remove filename => Function.update stackOf filename (stackOf filename).tail
  | .find _ => stackOf

def nameStacks (calls : List HashCall) : Filename → List FilePtr :=
  calls.foldl stackStep fun _ => []

/-- The table represents an index whose stacks are these, with chains shorter
than the bound. -/
structure FollowsStacks (table : FileHashTable)
    (stackOf : Filename → List FilePtr) (nm : NameServerState) (bound : Nat) :
    Prop where
  represents : table.Represents nm.fileIndex
  within : ChainsWithin nm bound
  stackOf : ∀ filename,
    nm.fileIndex.stack hashFilename filename = stackOf filename

section

variable {table : FileHashTable} {stackOf : Filename → List FilePtr}
  {nm : NameServerState} {bound count : Nat}

theorem followsStacks_init :
    FollowsStacks initFileHashTable (fun _ => []) initNameServer 1 where
  represents := LinkedBuckets.represents_empty
  within := fun _ => Nat.zero_lt_one
  stackOf := fun _ => rfl

theorem FollowsStacks.find (follows : FollowsStacks table stackOf nm count)
    (enough : count ≤ bound) (filename : Filename) :
    table.hashFindFile bound filename = some (stackOf filename).head? := by
  have within : ChainsWithin nm bound := fun bucket =>
    (follows.within bucket).trans_le enough
  rw [hashFindFile_eq follows.represents within, hashFindFile,
    ChainedIndex.find_eq_head?, follows.stackOf]

theorem FollowsStacks.remove (follows : FollowsStacks table stackOf nm count)
    (enough : count ≤ bound) (filename : Filename) :
    ∃ after, table.hashRemoveFile bound filename = some after ∧
      FollowsStacks after (stackStep stackOf (.remove filename))
        (hashRemoveFile nm filename) count := by
  have within : ChainsWithin nm bound := fun bucket =>
    (follows.within bucket).trans_le enough
  obtain ⟨after, removed, represents⟩ :=
    represents_hashRemoveFile follows.represents within filename
  refine ⟨after, removed, represents, follows.within.remove filename, ?_⟩
  intro other
  by_cases same : other = filename
  · subst same
    rw [stackStep, Function.update_self, ← follows.stackOf]
    exact ChainedIndex.stack_remove_self hashFilename nm.fileIndex other
  · rw [stackStep, Function.update_of_ne same, ← follows.stackOf]
    exact ChainedIndex.stack_remove_of_ne hashFilename nm.fileIndex same

theorem FollowsStacks.insert (follows : FollowsStacks table stackOf nm count)
    {address : Nat} (unused : table.heap address = none)
    (filename : Filename) (file : FilePtr) :
    FollowsStacks (table.hashInsertFile address filename file)
      (stackStep stackOf (.insert address filename file))
      (hashInsertFile nm filename file) (count + 1) := by
  refine ⟨represents_hashInsertFile follows.represents unused filename file,
    follows.within.insert filename file, ?_⟩
  intro other
  by_cases same : other = filename
  · subst same
    rw [stackStep, Function.update_self, ← follows.stackOf]
    exact ChainedIndex.stack_insert_self hashFilename nm.fileIndex other file
  · rw [stackStep, Function.update_of_ne same, ← follows.stackOf]
    exact ChainedIndex.stack_insert_of_ne hashFilename nm.fileIndex same file

/-- A call ends and does to the table what it does to the stacks. -/
theorem FollowsStacks.step (follows : FollowsStacks table stackOf nm count)
    (enough : count ≤ bound) (call : HashCall)
    (unused : ∀ address filename file,
      call = .insert address filename file → table.heap address = none) :
    ∃ after nm', hashStep bound table call = some after ∧
      FollowsStacks after (stackStep stackOf call) nm' (count + 1) := by
  have longer : ∀ {table stackOf nm}, FollowsStacks table stackOf nm count →
      FollowsStacks table stackOf nm (count + 1) := by
    intro table stackOf nm follows
    exact ⟨follows.represents, fun bucket =>
      (follows.within bucket).trans (Nat.lt_succ_self count), follows.stackOf⟩
  cases call with
  | insert address filename file =>
      exact ⟨_, _, rfl,
        follows.insert (unused address filename file rfl) filename file⟩
  | remove filename =>
      obtain ⟨after, removed, next⟩ := follows.remove enough filename
      exact ⟨after, _, removed, longer next⟩
  | find filename =>
      refine ⟨table, nm, ?_, longer follows⟩
      rw [hashStep, follows.find enough filename]
      rfl

theorem FollowsStacks.run (follows : FollowsStacks table stackOf nm count)
    {calls : List HashCall} (enough : count + calls.length ≤ bound)
    (allocated : AllocatesUnused bound table calls) :
    ∃ after nm', hashRun bound table calls = some after ∧
      FollowsStacks after (calls.foldl stackStep stackOf) nm'
        (count + calls.length) := by
  induction calls generalizing table stackOf nm count with
  | nil => exact ⟨table, nm, rfl, follows⟩
  | cons call calls ih =>
      rw [List.length_cons] at enough ⊢
      obtain ⟨unused, rest⟩ := allocated
      obtain ⟨next, nm', stepped, follows'⟩ :=
        follows.step (show count ≤ bound by omega) call unused
      obtain ⟨after, nm'', ran, done⟩ :=
        ih follows' (by omega) (rest next stepped)
      refine ⟨after, nm'', ?_, ?_⟩
      · rw [hashRun, stepped, Option.bind_some, ran]
      · rw [List.foldl_cons, show count + (calls.length + 1) =
          count + 1 + calls.length by omega]
        exact done

end

/-- After any calls a search returns the latest pointer under the name that is
still there, and a removal changes no other name.  No loop takes more steps
than there were calls. -/
theorem hash_index_keeps_stacks (calls : List HashCall) {bound : Nat}
    (enough : calls.length < bound)
    (allocated : AllocatesUnused bound initFileHashTable calls) :
    ∃ table, hashRun bound initFileHashTable calls = some table ∧
      (∀ filename, table.hashFindFile bound filename =
        some (nameStacks calls filename).head?) ∧
      ∀ filename, ∃ after,
        table.hashRemoveFile bound filename = some after ∧
        (after.hashFindFile bound filename =
          some (nameStacks calls filename).tail.head?) ∧
        ∀ other, other ≠ filename →
          after.hashFindFile bound other =
            table.hashFindFile bound other := by
  obtain ⟨table, nm, ran, follows⟩ :=
    followsStacks_init.run (show 1 + calls.length ≤ bound by omega) allocated
  have short : 1 + calls.length ≤ bound := by
    omega
  refine ⟨table, ran, follows.find short, ?_⟩
  intro filename
  obtain ⟨after, removed, next⟩ := follows.remove short filename
  refine ⟨after, removed, ?_, ?_⟩
  · rw [next.find short, stackStep, Function.update_self]
    rfl
  · intro other different
    rw [next.find short, follows.find short, stackStep,
      Function.update_of_ne different]

/-- Two insertions under one name and a removal leave the first pointer. -/
theorem hash_index_after_reinsertion :
    ∃ table, hashRun 4 initFileHashTable
        [.insert 1 (CString.copy 255 ['a']) ⟨0, 0⟩,
          .insert 2 (CString.copy 255 ['a']) ⟨1, 0⟩,
          .remove (CString.copy 255 ['a'])] = some table ∧
      table.hashFindFile 4 (CString.copy 255 ['a']) = some (some ⟨0, 0⟩) := by
  have allocated : AllocatesUnused 4 initFileHashTable
      [.insert 1 (CString.copy 255 ['a']) ⟨0, 0⟩,
        .insert 2 (CString.copy 255 ['a']) ⟨1, 0⟩,
        .remove (CString.copy 255 ['a'])] := by
    refine ⟨?_, ?_⟩
    · intro address filename file call
      rfl
    · intro first inserted
      cases inserted
      refine ⟨?_, ?_⟩
      · intro address filename file call
        cases call
        rfl
      · intro second inserted
        cases inserted
        refine ⟨?_, ?_⟩
        · intro address filename file call
          cases call
        · intro third removed
          trivial
  obtain ⟨table, ran, found, _⟩ :=
    hash_index_keeps_stacks _ (show 3 < 4 by omega) allocated
  refine ⟨table, ran, ?_⟩
  rw [found, nameStacks]
  rfl

end Dfs.NameServer
