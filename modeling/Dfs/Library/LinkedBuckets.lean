import Mathlib.Data.List.Nodup
import Dfs.Library.ChainedIndex

/-!
# Buckets of linked nodes

The same index as a heap of nodes that point to one another.  An address is a
number, a loop over a chain takes a bound on its steps, and reading through a
pointer that denotes no node has no result.  `Segment` reads a chain of nodes
off the heap, and `Represents` says that the chains of all buckets are those
of a chained index.
-/

structure LinkedNode (κ ν : Type) where
  key : κ
  value : ν
  next : Option Nat
  deriving DecidableEq, Repr

/-- The nodes in use, and where each bucket begins. -/
structure LinkedBuckets (κ ν : Type) where
  heap : Nat → Option (LinkedNode κ ν)
  heads : Nat → Option Nat

namespace LinkedBuckets

variable {κ ν : Type}

def empty : LinkedBuckets κ ν :=
  { heap := fun _ => none, heads := fun _ => none }

/-- Put a new node in front of a bucket, at an address from the allocator. -/
def insertAt (table : LinkedBuckets κ ν) (address bucket : Nat) (key : κ)
    (value : ν) : LinkedBuckets κ ν :=
  { heap := Function.update table.heap address
      (some ⟨key, value, table.heads bucket⟩)
    heads := Function.update table.heads bucket (some address) }

/-- From this pointer on the heap holds these nodes, each with its address. -/
def Segment (heap : Nat → Option (LinkedNode κ ν)) :
    Option Nat → List (Nat × κ × ν) → Prop
  | pointer, [] => pointer = none
  | pointer, (address, key, value) :: cells =>
      pointer = some address ∧
        ∃ next, heap address = some ⟨key, value, next⟩ ∧
          Segment heap next cells

/-- The addresses of a chain. -/
def addresses (cells : List (Nat × κ × ν)) : List Nat := cells.map Prod.fst

namespace Segment

variable {heap other : Nat → Option (LinkedNode κ ν)} {pointer : Option Nat}
  {cells front : List (Nat × κ × ν)} {address : Nat}

/-- A chain depends on the nodes at its addresses only. -/
theorem congr (segment : Segment heap pointer cells)
    (same : ∀ address ∈ addresses cells, other address = heap address) :
    Segment other pointer cells := by
  induction cells generalizing pointer with
  | nil => exact segment
  | cons cell cells ih =>
      obtain ⟨address, key, value⟩ := cell
      obtain ⟨here, next, node, rest⟩ := segment
      have kept : other address = heap address :=
        same address List.mem_cons_self
      refine ⟨here, next, kept.trans node, ih rest ?_⟩
      intro later member
      exact same later (List.mem_cons_of_mem _ member)

theorem update (segment : Segment heap pointer cells)
    (outside : address ∉ addresses cells) (node : Option (LinkedNode κ ν)) :
    Segment (Function.update heap address node) pointer cells := by
  apply segment.congr
  intro other member
  apply Function.update_of_ne
  rintro rfl
  exact outside member

theorem isSome_of_mem (segment : Segment heap pointer cells)
    (member : address ∈ addresses cells) : (heap address).isSome = true := by
  induction cells generalizing pointer with
  | nil => cases member
  | cons cell cells ih =>
      obtain ⟨first, key, value⟩ := cell
      obtain ⟨here, next, node, rest⟩ := segment
      rcases List.mem_cons.mp member with same | later
      · rw [show address = first from same, node]
        rfl
      · exact ih rest later

/-- The node behind the front of a chain can be cut out. -/
theorem cut {next : Option Nat} {node : LinkedNode κ ν}
    {last removed : Nat × κ × ν}
    (segment : Segment heap pointer (front ++ last :: removed :: cells))
    (distinct : (addresses (front ++ last :: removed :: cells)).Nodup)
    (before : heap last.1 = some node) (behind : Segment heap next cells) :
    Segment (Function.update
        (Function.update heap last.1 (some { node with next := next }))
        removed.1 none) pointer (front ++ last :: cells) := by
  induction front generalizing pointer with
  | nil =>
      obtain ⟨lastAddress, key, value⟩ := last
      obtain ⟨here, old, stored, _⟩ := segment
      rw [stored] at before
      cases before
      obtain ⟨lastOut, removedOut, _⟩ :
          lastAddress ∉ removed.1 :: addresses cells ∧
            removed.1 ∉ addresses cells ∧ (addresses cells).Nodup := by
        simpa [addresses] using distinct
      refine ⟨here, next, ?_, ?_⟩
      · have apart : lastAddress ≠ removed.1 := fun same =>
          lastOut (same ▸ List.mem_cons_self)
        rw [Function.update_of_ne apart, Function.update_self]
      · apply (behind.update _ _).update removedOut
        exact fun member => lastOut (List.mem_cons_of_mem _ member)
  | cons cell front ih =>
      obtain ⟨first, key, value⟩ := cell
      obtain ⟨here, old, stored, rest⟩ := segment
      obtain ⟨out, later⟩ := List.nodup_cons.mp distinct
      refine ⟨here, old, ?_, ih rest later⟩
      have inside : last.1 ∈ addresses (front ++ last :: removed :: cells) ∧
          removed.1 ∈ addresses (front ++ last :: removed :: cells) := by
        simp [addresses]
      rw [Function.update_of_ne, Function.update_of_ne]
      · exact stored
      · exact fun same => out (same ▸ inside.1)
      · exact fun same => out (same ▸ inside.2)

end Segment

/-- Let the node before, or the bucket, point past a node. -/
def unlink (table : LinkedBuckets κ ν) (bucket : Nat) (prev next : Option Nat) :
    Option (LinkedBuckets κ ν) :=
  match prev with
  | none => some { table with heads := Function.update table.heads bucket next }
  | some address =>
      match table.heap address with
      | none => none
      | some node =>
          some { table with
            heap := Function.update table.heap address
              (some { node with next := next }) }

def free (table : LinkedBuckets κ ν) (address : Nat) : LinkedBuckets κ ν :=
  { table with heap := Function.update table.heap address none }

section

variable {table after : LinkedBuckets κ ν} {bucket : Nat} {prev : Option Nat}
  {front cells : List (Nat × κ × ν)}

/-- What a removal leaves: a chain of this bucket, the other buckets, and all
nodes outside the old chain. -/
structure Removed (table after : LinkedBuckets κ ν) (bucket : Nat)
    (cells kept : List (Nat × κ × ν)) : Prop where
  segment : Segment after.heap (after.heads bucket) kept
  heads : ∀ other, other ≠ bucket → after.heads other = table.heads other
  frame : ∀ address, address ∉ addresses cells →
    after.heap address = table.heap address

/-- The node that is unlinked and freed lies behind the front of the chain. -/
theorem removed_of_unlink {current : Nat} {removed : κ × ν}
    {next : Option Nat}
    (whole : Segment table.heap (table.heads bucket)
      (front ++ (current, removed) :: cells))
    (behind : Segment table.heap next cells)
    (distinct : (addresses (front ++ (current, removed) :: cells)).Nodup)
    (last : prev = front.getLast?.map Prod.fst) :
    ∃ after, (table.unlink bucket prev next).map (fun unlinked =>
        unlinked.free current) = some after ∧
      Removed table after bucket (front ++ (current, removed) :: cells)
        (front ++ cells) := by
  rcases List.eq_nil_or_concat front with empty | ⟨initial, lastCell, more⟩
  · subst empty
    rw [show prev = none from last]
    have out : current ∉ addresses cells := (List.nodup_cons.mp distinct).1
    refine ⟨_, rfl, ?_, ?_, ?_⟩
    · simp only [free, Function.update_self]
      exact behind.update out none
    · intro other different
      exact Function.update_of_ne different _ _
    · intro address outside
      apply Function.update_of_ne
      rintro rfl
      exact outside List.mem_cons_self
  · rw [List.concat_eq_append] at more
    subst more
    rw [List.append_assoc, List.singleton_append] at whole distinct ⊢
    have inside : lastCell.1 ∈
        addresses (initial ++ lastCell :: (current, removed) :: cells) := by
      simp [addresses]
    obtain ⟨node, before⟩ :=
      Option.isSome_iff_exists.mp (whole.isSome_of_mem inside)
    have previous : prev = some lastCell.1 := by
      rw [last, List.getLast?_concat]
      rfl
    have cut := whole.cut distinct before behind
    have unlinked : table.unlink bucket prev next =
        some { table with
          heap := Function.update table.heap lastCell.1
            (some { node with next := next }) } := by
      simp only [unlink, previous, before]
    rw [List.append_assoc, List.singleton_append, unlinked, Option.map_some]
    refine ⟨_, rfl, cut, fun _ _ => rfl, ?_⟩
    intro address outside
    have apart : address ≠ current ∧ address ≠ lastCell.1 := by
      simp only [addresses, List.map_append, List.map_cons, List.mem_append,
        List.mem_cons, not_or] at outside
      exact ⟨outside.2.2.1, outside.2.1⟩
    simp only [free]
    rw [Function.update_of_ne apart.1, Function.update_of_ne apart.2]

end

/-- The chains hold the nodes of the index, each at an address of its own. -/
structure ChainsOf (table : LinkedBuckets κ ν) (index : ChainedIndex κ ν)
    (cells : Nat → List (Nat × κ × ν)) : Prop where
  segment : ∀ bucket,
    Segment table.heap (table.heads bucket) (cells bucket)
  nodes : ∀ bucket, (cells bucket).map Prod.snd = index.buckets bucket
  distinct : ∀ bucket, (addresses (cells bucket)).Nodup
  apart : ∀ bucket other, bucket ≠ other → ∀ address,
    address ∈ addresses (cells bucket) → address ∉ addresses (cells other)

/-- The table represents the index. -/
def Represents (table : LinkedBuckets κ ν) (index : ChainedIndex κ ν) : Prop :=
  ∃ cells, ChainsOf table index cells

theorem represents_empty :
    Represents (empty : LinkedBuckets κ ν) ChainedIndex.empty := by
  refine ⟨fun _ => [], ?_, ?_, ?_, ?_⟩
  · intro bucket
    rfl
  · intro bucket
    rfl
  · intro bucket
    exact List.nodup_nil
  · intro bucket other different address member
    cases member

/-- A bucket changes, and the others keep their chains. -/
theorem ChainsOf.change {table after : LinkedBuckets κ ν}
    {index : ChainedIndex κ ν} {bucket : Nat}
    {cells : Nat → List (Nat × κ × ν)} {kept : List (Nat × κ × ν)}
    (chains : ChainsOf table index cells)
    (segment : Segment after.heap (after.heads bucket) kept)
    (others : ∀ other, other ≠ bucket →
      Segment after.heap (after.heads other) (cells other))
    (distinct : (addresses kept).Nodup)
    (apart : ∀ other, other ≠ bucket → ∀ address,
      address ∈ addresses kept → address ∉ addresses (cells other)) :
    ChainsOf after
      ⟨Function.update index.buckets bucket (kept.map Prod.snd)⟩
      (Function.update cells bucket kept) := by
  constructor
  · intro other
    by_cases same : other = bucket
    · rw [same, Function.update_self]
      exact segment
    · rw [Function.update_of_ne same]
      exact others other same
  · intro other
    by_cases same : other = bucket
    · rw [same, Function.update_self]
      exact (Function.update_self bucket _ index.buckets).symm
    · rw [Function.update_of_ne same, chains.nodes other]
      exact (Function.update_of_ne same _ index.buckets).symm
  · intro other
    by_cases same : other = bucket
    · rw [same, Function.update_self]
      exact distinct
    · rw [Function.update_of_ne same]
      exact chains.distinct other
  · intro first second different address member
    by_cases here : first = bucket
    · have there : second ≠ bucket := fun same =>
        different (here.trans same.symm)
      rw [here, Function.update_self] at member
      rw [Function.update_of_ne there]
      exact apart second there address member
    · rw [Function.update_of_ne here] at member
      by_cases there : second = bucket
      · rw [there, Function.update_self]
        intro inside
        exact apart first here address inside member
      · rw [Function.update_of_ne there]
        exact chains.apart first second different address member

/-- A new node may lie at any address that is not in use. -/
theorem Represents.insertAt {table : LinkedBuckets κ ν}
    {index : ChainedIndex κ ν} {hash : κ → Nat}
    (represents : Represents table index) {address : Nat}
    (unused : table.heap address = none) (key : κ) (value : ν) :
    Represents (table.insertAt address (hash key) key value)
      (index.insert hash key value) := by
  obtain ⟨cells, chains⟩ := represents
  have outside : ∀ bucket, address ∉ addresses (cells bucket) := by
    intro bucket member
    have used := (chains.segment bucket).isSome_of_mem member
    rw [unused] at used
    cases used
  let after := table.insertAt address (hash key) key value
  have segment : Segment after.heap (after.heads (hash key))
      ((address, key, value) :: cells (hash key)) := by
    refine ⟨Function.update_self _ _ _, table.heads (hash key),
      Function.update_self _ _ _, ?_⟩
    exact (chains.segment (hash key)).update (outside _) _
  have others : ∀ other, other ≠ hash key →
      Segment after.heap (after.heads other) (cells other) := by
    intro other different
    have head : after.heads other = table.heads other :=
      Function.update_of_ne different _ _
    rw [head]
    exact (chains.segment other).update (outside other) _
  have changed := chains.change segment others
    (List.nodup_cons.mpr ⟨outside _, chains.distinct _⟩) (by
      intro other different place member
      rcases List.mem_cons.mp member with new | old
      · rw [show place = address from new]
        exact outside other
      · exact chains.apart _ other (Ne.symm different) place old)
  rw [List.map_cons, chains.nodes] at changed
  exact ⟨_, changed⟩

variable [DecidableEq κ]

/-- The loop of a search, `none` where it does not end within the bound. -/
def findFrom (heap : Nat → Option (LinkedNode κ ν)) (key : κ) :
    Nat → Option Nat → Option (Option ν)
  | 0, _ => none
  | _ + 1, none => some none
  | bound + 1, some current =>
      match heap current with
      | none => none
      | some node =>
          if node.key = key then some (some node.value)
          else findFrom heap key bound node.next

/-- The loop that unlinks and frees the first node of a key. -/
def removeFrom (table : LinkedBuckets κ ν) (bucket : Nat) (key : κ) :
    Nat → Option Nat → Option Nat → Option (LinkedBuckets κ ν)
  | 0, _, _ => none
  | _ + 1, _, none => some table
  | bound + 1, prev, some current =>
      match table.heap current with
      | none => none
      | some node =>
          if node.key = key then
            (table.unlink bucket prev node.next).map fun unlinked =>
              unlinked.free current
          else removeFrom table bucket key bound (some current) node.next

section

variable {table after : LinkedBuckets κ ν} {bucket bound : Nat}
  {prev pointer : Option Nat} {front cells : List (Nat × κ × ν)} {key : κ}

/-- A search sees the first node of the key. -/
theorem findFrom_eq {heap : Nat → Option (LinkedNode κ ν)}
    (segment : Segment heap pointer cells) (enough : cells.length < bound) :
    findFrom heap key bound pointer =
      some (((cells.map Prod.snd).find? fun node => node.1 = key).map
        Prod.snd) := by
  induction cells generalizing pointer bound with
  | nil =>
      cases bound with
      | zero => cases enough
      | succ bound =>
          rw [show pointer = none from segment]
          rfl
  | cons cell cells ih =>
      obtain ⟨address, first, value⟩ := cell
      obtain ⟨here, next, node, rest⟩ := segment
      cases bound with
      | zero => cases enough
      | succ bound =>
          have later := ih rest (Nat.lt_of_succ_lt_succ enough)
          rw [here, findFrom, node]
          by_cases found : first = key
          · simp [found]
          · simp [found, later]

/-- The loop has passed the front of the chain without finding the key. -/
theorem removeFrom_segment
    (whole : Segment table.heap (table.heads bucket) (front ++ cells))
    (here : Segment table.heap pointer cells)
    (distinct : (addresses (front ++ cells)).Nodup)
    (last : prev = front.getLast?.map Prod.fst)
    (enough : cells.length < bound) :
    ∃ after, removeFrom table bucket key bound prev pointer = some after ∧
      Removed table after bucket (front ++ cells)
        (front ++ cells.eraseP fun cell => cell.2.1 = key) := by
  induction cells generalizing front prev pointer bound with
  | nil =>
      cases bound with
      | zero => cases enough
      | succ bound =>
          rw [show pointer = none from here]
          exact ⟨table, rfl, whole, fun _ _ => rfl, fun _ _ => rfl⟩
  | cons cell cells ih =>
      obtain ⟨current, found, value⟩ := cell
      obtain ⟨rfl, next, node, behind⟩ := here
      cases bound with
      | zero => cases enough
      | succ bound =>
          by_cases same : found = key
          · subst same
            have erased : List.eraseP (fun cell => cell.2.1 = found)
                ((current, found, value) :: cells) = cells := by
              simp
            rw [removeFrom, node, erased]
            simp only [if_true]
            exact removed_of_unlink whole behind distinct last
          · have kept : List.eraseP (fun cell => cell.2.1 = key)
                ((current, found, value) :: cells) =
                (current, found, value) ::
                  List.eraseP (fun cell => cell.2.1 = key) cells := by
              simp [same]
            rw [removeFrom, node, kept]
            simp only [same, if_false]
            have passed := @ih bound (some current) next
              (front ++ [(current, found, value)]) (by simpa using whole)
              behind (by simpa using distinct) (by simp)
              (Nat.lt_of_succ_lt_succ enough)
            simpa using passed

end

section

variable {table : LinkedBuckets κ ν} {index : ChainedIndex κ ν}
  {hash : κ → Nat} {bound : Nat}

theorem Represents.removeFrom (represents : Represents table index) (key : κ)
    (enough : (index.buckets (hash key)).length < bound) :
    ∃ after, table.removeFrom (hash key) key bound none
        (table.heads (hash key)) = some after ∧
      Represents after (index.remove hash key) := by
  obtain ⟨cells, chains⟩ := represents
  have whole := chains.segment (hash key)
  have distinct := chains.distinct (hash key)
  have long : (cells (hash key)).length < bound := by
    rw [← chains.nodes, List.length_map] at enough
    exact enough
  obtain ⟨after, removed, segment, heads, frame⟩ :=
    @removeFrom_segment _ _ _ table (hash key) bound none _ []
      (cells (hash key)) key whole whole distinct rfl long
  refine ⟨after, removed, ?_⟩
  have fewer : (addresses ((cells (hash key)).eraseP
      fun cell => cell.2.1 = key)).Sublist (addresses (cells (hash key))) :=
    List.eraseP_sublist.map Prod.fst
  have nodes : ((cells (hash key)).eraseP fun cell => cell.2.1 = key).map
      Prod.snd = (index.buckets (hash key)).eraseP
        fun node => node.1 = key := by
    rw [← chains.nodes, List.eraseP_map]
    rfl
  have others : ∀ other, other ≠ hash key →
      Segment after.heap (after.heads other) (cells other) := by
    intro other different
    rw [heads other different]
    apply (chains.segment other).congr
    intro address member
    exact frame address (chains.apart other _ different address member)
  have changed := chains.change segment others (distinct.sublist fewer) (by
    intro other different address member
    exact chains.apart _ other (Ne.symm different) address
      (fewer.subset member))
  rw [List.nil_append, nodes] at changed
  exact ⟨_, changed⟩

theorem Represents.findFrom (represents : Represents table index) (key : κ)
    (enough : (index.buckets (hash key)).length < bound) :
    LinkedBuckets.findFrom table.heap key bound (table.heads (hash key)) =
      some (index.find hash key) := by
  obtain ⟨cells, chains⟩ := represents
  rw [← chains.nodes, List.length_map] at enough
  rw [findFrom_eq (chains.segment (hash key)) enough, chains.nodes]
  rfl

end

end LinkedBuckets
