import Mathlib.Algebra.BigOperators.Group.Finset.Basic
import Mathlib.Algebra.Order.BigOperators.Group.Finset
import Mathlib.Data.Finset.Max
import Mathlib.Data.Fintype.BigOperators
import Dfs.Library.Completion

/-!
# Locks taken in order

The lock calls of a function form a `Conduct`: critical sections nest, and
branches and loops may go any way.  A conduct may also wait for a peer, which
may fall silent at any wait and then stays silent for ever.  If the locks of
every conduct are taken in the order of a rank, and a peer that may fall silent
is waited for without a lock, any number of threads can run at the same time:
no two hold a lock that excludes them, and every run goes on until each thread
is done or left waiting.
-/

namespace LockOrder

open Completion

/-- A mutex, or a lock for writing, is held exclusively. -/
inductive Mode where
  | shared
  | exclusive
  deriving DecidableEq, Repr

inductive Action (L P : Type) where
  | acquire (lock : L) (mode : Mode)
  | release (lock : L) (mode : Mode)
  | wait (peer : P)
  deriving DecidableEq, Repr

inductive Conduct (L P : Type) where
  | skip
  | wait (peer : P)
  | hold (lock : L) (mode : Mode) (body : Conduct L P)
  | sequence (first second : Conduct L P)
  | choice (branches : Nat → Conduct L P)
  | loop (body : Nat → Conduct L P)

variable {L P ι : Type}

/-- The lock calls of one run of a conduct. -/
inductive Performs : Conduct L P → List (Action L P) → Prop where
  | skip : Performs .skip []
  | wait (peer : P) : Performs (.wait peer) [.wait peer]
  | hold {lock mode body actions} (inside : Performs body actions) :
      Performs (.hold lock mode body)
        (.acquire lock mode :: (actions ++ [.release lock mode]))
  | sequence {first second before after}
      (begins : Performs first before) (ends : Performs second after) :
      Performs (.sequence first second) (before ++ after)
  | choice {branches actions} (index : Nat)
      (taken : Performs (branches index) actions) :
      Performs (.choice branches) actions
  | leave {body} : Performs (.loop body) []
  | again {body before after} (index : Nat)
      (round : Performs (body index) before)
      (rest : Performs (.loop body) after) :
      Performs (.loop body) (before ++ after)

/-- All locks have at least the rank `bound`, and those inside a section a
higher one than its lock.  A peer that may fall silent is waited for outside
all sections, where the bound is 0. -/
def Conduct.Ordered (rank : L → Nat) (silent : P → Prop) :
    Nat → Conduct L P → Prop
  | _, .skip => True
  | bound, .wait peer => silent peer → bound = 0
  | bound, .hold lock _ body =>
      bound ≤ rank lock ∧ body.Ordered rank silent (rank lock + 1)
  | bound, .sequence first second =>
      first.Ordered rank silent bound ∧ second.Ordered rank silent bound
  | bound, .choice branches =>
      ∀ index, (branches index).Ordered rank silent bound
  | bound, .loop body => ∀ index, (body index).Ordered rank silent bound

namespace Conduct

def mutex (lock : L) (body : Conduct L P) : Conduct L P :=
  .hold lock .exclusive body

def steps (conducts : List (Conduct L P)) : Conduct L P :=
  conducts.foldr .sequence .skip

def either (first second : Conduct L P) : Conduct L P :=
  .choice fun index => if index = 0 then first else second

/-- What may be left out, or comes after an early return. -/
def perhaps (conduct : Conduct L P) : Conduct L P := .either conduct .skip

section

variable {rank : L → Nat} {silent : P → Prop} {bound : Nat}

@[simp]
theorem ordered_skip : (skip : Conduct L P).Ordered rank silent bound :=
  trivial

@[simp]
theorem ordered_wait {peer : P} :
    (wait peer : Conduct L P).Ordered rank silent bound ↔
      (silent peer → bound = 0) := Iff.rfl

@[simp]
theorem ordered_hold {lock : L} {mode : Mode} {body : Conduct L P} :
    (hold lock mode body).Ordered rank silent bound ↔
      bound ≤ rank lock ∧ body.Ordered rank silent (rank lock + 1) := Iff.rfl

@[simp]
theorem ordered_mutex {lock : L} {body : Conduct L P} :
    (mutex lock body).Ordered rank silent bound ↔
      bound ≤ rank lock ∧ body.Ordered rank silent (rank lock + 1) := Iff.rfl

@[simp]
theorem ordered_choice {branches : Nat → Conduct L P} :
    (choice branches).Ordered rank silent bound ↔
      ∀ index, (branches index).Ordered rank silent bound := Iff.rfl

@[simp]
theorem ordered_loop {body : Nat → Conduct L P} :
    (loop body).Ordered rank silent bound ↔
      ∀ index, (body index).Ordered rank silent bound := Iff.rfl

@[simp]
theorem ordered_steps {conducts : List (Conduct L P)} :
    (steps conducts).Ordered rank silent bound ↔
      ∀ conduct ∈ conducts, conduct.Ordered rank silent bound := by
  induction conducts with
  | nil => simp [steps]
  | cons first conducts ih =>
      rw [List.forall_mem_cons, ← ih]
      rfl

@[simp]
theorem ordered_either {first second : Conduct L P} :
    (either first second).Ordered rank silent bound ↔
      first.Ordered rank silent bound ∧
        second.Ordered rank silent bound := by
  constructor
  · intro ordered
    exact ⟨ordered 0, ordered 1⟩
  · rintro ⟨ordered, others⟩ index
    by_cases first : index = 0
    · simpa [first] using ordered
    · simpa [first] using others

@[simp]
theorem ordered_perhaps {conduct : Conduct L P} :
    (perhaps conduct).Ordered rank silent bound ↔
      conduct.Ordered rank silent bound := by
  simp [perhaps]

end

end Conduct

theorem Performs.cons {first : Conduct L P} {conducts : List (Conduct L P)}
    {before after : List (Action L P)} (begins : Performs first before)
    (ends : Performs (.steps conducts) after) :
    Performs (.steps (first :: conducts)) (before ++ after) :=
  .sequence begins ends

/-- The locks that a thread holds and the calls it will still perform. -/
structure Thread (L P : Type) where
  held : List (L × Mode)
  rest : List (Action L P)
  deriving DecidableEq, Repr

/-- No thread, the caller included, holds the lock in a way that excludes
this mode. -/
def Available (threads : ι → Thread L P) (lock : L) (mode : Mode) : Prop :=
  ∀ i, ∀ other ∈ (threads i).held, other.1 = lock →
    other.2 = .shared ∧ mode = .shared

section

variable [DecidableEq L] [DecidableEq ι]

/-- Any wait may be answered.  When a peer falls silent instead, its thread
performs nothing any more and keeps the locks it holds. -/
inductive Step (silent : ι → P → Prop) (threads : ι → Thread L P) :
    (ι → Thread L P) → Prop where
  | acquire (i : ι) {lock : L} {mode : Mode} {rest : List (Action L P)}
      (next : (threads i).rest = .acquire lock mode :: rest)
      (available : Available threads lock mode) :
      Step silent threads (Function.update threads i
        ⟨(lock, mode) :: (threads i).held, rest⟩)
  | release (i : ι) {lock : L} {mode : Mode} {rest : List (Action L P)}
      (next : (threads i).rest = .release lock mode :: rest) :
      Step silent threads (Function.update threads i
        ⟨(threads i).held.erase (lock, mode), rest⟩)
  | wait (i : ι) {peer : P} {rest : List (Action L P)}
      (next : (threads i).rest = .wait peer :: rest) :
      Step silent threads (Function.update threads i
        ⟨(threads i).held, rest⟩)
  | abandon (i : ι) {peer : P} {rest : List (Action L P)}
      (next : (threads i).rest = .wait peer :: rest)
      (quiet : silent i peer) :
      Step silent threads (Function.update threads i
        ⟨(threads i).held, []⟩)

end

/-- Every thread is done or left waiting. -/
def Settled (threads : ι → Thread L P) : Prop := ∀ i, (threads i).rest = []

def Exclusive (threads : ι → Thread L P) : Prop :=
  ∀ i j, i ≠ j → ∀ here ∈ (threads i).held, ∀ there ∈ (threads j).held,
    here.1 = there.1 → here.2 = .shared ∧ there.2 = .shared

/-- The calls that are left nest with the locks held, each lock ranks above
those held when it is taken, and a peer that may fall silent is waited for
without one. -/
def Follows (rank : L → Nat) (silent : P → Prop) :
    List (L × Mode) → List (Action L P) → Prop
  | held, [] => held = []
  | held, .acquire lock mode :: rest =>
      (∀ other ∈ held, rank other.1 < rank lock) ∧
        Follows rank silent ((lock, mode) :: held) rest
  | held, .release lock mode :: rest =>
      ∃ outer, held = (lock, mode) :: outer ∧ Follows rank silent outer rest
  | held, .wait peer :: rest =>
      (silent peer → held = []) ∧ Follows rank silent held rest

variable {rank : L → Nat} {silent : P → Prop}

theorem Follows.append {held : List (L × Mode)} {bound : Nat}
    {conduct : Conduct L P} {actions rest : List (Action L P)}
    (performs : Performs conduct actions)
    (ordered : conduct.Ordered rank silent bound)
    (below : ∀ other ∈ held, rank other.1 < bound)
    (follows : Follows rank silent held rest) :
    Follows rank silent held (actions ++ rest) := by
  induction performs generalizing held bound rest with
  | skip => exact follows
  | wait peer =>
      refine ⟨fun quiet => ?_, follows⟩
      cases held with
      | nil => rfl
      | cons other held =>
          have lower := below other List.mem_cons_self
          rw [ordered quiet] at lower
          exact absurd lower (Nat.not_lt_zero _)
  | @hold lock mode body actions inside ih =>
      have inner : Follows rank silent ((lock, mode) :: held)
          (.release lock mode :: rest) := ⟨held, rfl, follows⟩
      have lower : ∀ other ∈ (lock, mode) :: held,
          rank other.1 < rank lock + 1 := by
        intro other member
        rcases List.mem_cons.mp member with same | outer
        · rw [same]
          exact Nat.lt_succ_self _
        · have := below other outer
          have := ordered.1
          omega
      refine ⟨fun other outer => ?_, ?_⟩
      · exact Nat.lt_of_lt_of_le (below other outer) ordered.1
      · have further := ih ordered.2 lower inner
        rw [List.append_cons] at further
        exact further
  | sequence begins ends ihFirst ihSecond =>
      rw [List.append_assoc]
      exact ihFirst ordered.1 below (ihSecond ordered.2 below follows)
  | choice index taken ih => exact ih (ordered index) below follows
  | leave => exact follows
  | again index round rest ihRound ihRest =>
      rw [List.append_assoc]
      exact ihRound (ordered index) below (ihRest ordered below follows)

theorem Follows.of_performs {conduct : Conduct L P}
    {actions : List (Action L P)} (performs : Performs conduct actions)
    (ordered : conduct.Ordered rank silent 0) :
    Follows rank silent [] actions := by
  have follows : Follows rank silent [] (actions ++ []) :=
    Follows.append performs ordered (by simp) rfl
  rwa [List.append_nil] at follows

/-- A thread that will perform nothing any more holds no lock. -/
theorem Follows.held_of_settled {thread : Thread L P}
    (follows : Follows rank silent thread.held thread.rest)
    (settled : thread.rest = []) : thread.held = [] := by
  rw [settled] at follows
  exact follows

def AllFollow (rank : L → Nat) (silent : ι → P → Prop)
    (threads : ι → Thread L P) : Prop :=
  ∀ i, Follows rank (silent i) (threads i).held (threads i).rest

variable {silent : ι → P → Prop}

section

variable [DecidableEq ι]

theorem Exclusive.acquire {threads : ι → Thread L P}
    (exclusive : Exclusive threads) {i : ι} {lock : L} {mode : Mode}
    (rest : List (Action L P)) (available : Available threads lock mode) :
    Exclusive (Function.update threads i
      ⟨(lock, mode) :: (threads i).held, rest⟩) := by
  intro j k apart here inHere there inThere same
  by_cases left : j = i
  · subst left
    rw [Function.update_self] at inHere
    rw [Function.update_of_ne (Ne.symm apart)] at inThere
    rcases List.mem_cons.mp inHere with fresh | old
    · subst fresh
      have free := available k there inThere same.symm
      exact ⟨free.2, free.1⟩
    · exact exclusive j k apart here old there inThere same
  · rw [Function.update_of_ne left] at inHere
    by_cases right : k = i
    · subst right
      rw [Function.update_self] at inThere
      rcases List.mem_cons.mp inThere with fresh | old
      · subst fresh
        exact available j here inHere same
      · exact exclusive j k apart here inHere there old same
    · rw [Function.update_of_ne right] at inThere
      exact exclusive j k apart here inHere there inThere same

theorem Exclusive.keep {threads : ι → Thread L P}
    (exclusive : Exclusive threads) {i : ι} (held : List (L × Mode))
    (rest : List (Action L P)) (fewer : held ⊆ (threads i).held) :
    Exclusive (Function.update threads i ⟨held, rest⟩) := by
  have before : ∀ j, (Function.update threads i ⟨held, rest⟩ j).held ⊆
      (threads j).held := by
    intro j
    by_cases same : j = i
    · subst same
      rw [Function.update_self]
      exact fewer
    · rw [Function.update_of_ne same]
      exact List.Subset.refl _
  intro j k apart here inHere there inThere
  exact exclusive j k apart here (before j inHere) there (before k inThere)

end

section

variable [DecidableEq L] [DecidableEq ι]

/-- A step leaves its thread with fewer calls. -/
theorem Step.changes {threads next : ι → Thread L P}
    (step : Step silent threads next) :
    ∃ i held rest, rest.length < (threads i).rest.length ∧
      next = Function.update threads i ⟨held, rest⟩ := by
  cases step with
  | acquire i next available => exact ⟨i, _, _, by simp [next], rfl⟩
  | release i next => exact ⟨i, _, _, by simp [next], rfl⟩
  | wait i next => exact ⟨i, _, _, by simp [next], rfl⟩
  | abandon i next quiet => exact ⟨i, _, _, by simp [next], rfl⟩

theorem AllFollow.step {threads next : ι → Thread L P}
    (follow : AllFollow rank silent threads)
    (step : Step silent threads next) : AllFollow rank silent next := by
  intro j
  cases step with
  | @acquire i lock mode rest taken available =>
      by_cases same : j = i
      · subst same
        have here := follow j
        rw [taken] at here
        rw [Function.update_self]
        exact here.2
      · rw [Function.update_of_ne same]
        exact follow j
  | @release i lock mode rest taken =>
      by_cases same : j = i
      · subst same
        have here := follow j
        rw [taken] at here
        obtain ⟨outer, held, follows⟩ := here
        rw [Function.update_self, held, List.erase_cons_head]
        exact follows
      · rw [Function.update_of_ne same]
        exact follow j
  | @wait i peer rest taken =>
      by_cases same : j = i
      · subst same
        have here := follow j
        rw [taken] at here
        rw [Function.update_self]
        exact here.2
      · rw [Function.update_of_ne same]
        exact follow j
  | @abandon i peer rest taken quiet =>
      by_cases same : j = i
      · subst same
        have here := follow j
        rw [taken] at here
        rw [Function.update_self]
        exact here.1 quiet
      · rw [Function.update_of_ne same]
        exact follow j

theorem Exclusive.step {threads next : ι → Thread L P}
    (exclusive : Exclusive threads) (step : Step silent threads next) :
    Exclusive next := by
  cases step with
  | acquire i taken available => exact exclusive.acquire _ available
  | release i taken => exact exclusive.keep _ _ List.erase_subset
  | wait i taken => exact exclusive.keep _ _ (List.Subset.refl _)
  | abandon i taken quiet => exact exclusive.keep _ _ (List.Subset.refl _)

/-- A thread gets through its calls while nobody else holds a lock. -/
theorem AllFollow.alone {threads : ι → Thread L P}
    (follow : AllFollow rank silent threads) {i : ι}
    (free : ∀ j, j ≠ i → (threads j).held = [])
    {front rest : List (Action L P)}
    (calls : (threads i).rest = front ++ rest) :
    ∃ next, Reachable (Step silent) threads next ∧ (next i).rest = rest ∧
      ∀ j, j ≠ i → next j = threads j := by
  induction front generalizing threads with
  | nil => exact ⟨threads, .refl, calls, fun _ _ => rfl⟩
  | cons action front ih =>
      obtain ⟨held, step⟩ : ∃ held, Step silent threads
          (Function.update threads i ⟨held, front ++ rest⟩) := by
        have here := follow i
        rw [calls] at here
        match action with
        | .release lock mode => exact ⟨_, .release i calls⟩
        | .wait peer => exact ⟨_, .wait i calls⟩
        | .acquire lock mode =>
            refine ⟨_, .acquire i calls fun j other holds same => ?_⟩
            by_cases mine : j = i
            · subst mine
              have above := here.1 other holds
              rw [same] at above
              exact absurd above (Nat.lt_irrefl _)
            · rw [free j mine] at holds
              exact absurd holds List.not_mem_nil
      obtain ⟨next, reachable, left, others⟩ := ih (follow.step step)
        (fun j other => by rw [Function.update_of_ne other, free j other])
        (by rw [Function.update_self])
      refine ⟨next, .head step reachable, left, fun j other => ?_⟩
      rw [others j other, Function.update_of_ne other]

/-- Threads that have not begun; each will perform the calls given for it. -/
def unstarted (actions : ι → List (Action L P)) : ι → Thread L P :=
  fun i => ⟨[], actions i⟩

/-- At every wait of a thread its peer can be the one that falls silent. -/
theorem falls_silent {conducts : ι → Conduct L P}
    (ordered : ∀ i, (conducts i).Ordered rank (silent i) 0)
    {actions : ι → List (Action L P)}
    (performs : ∀ i, Performs (conducts i) (actions i)) {i : ι} {peer : P}
    {front rest : List (Action L P)}
    (calls : actions i = front ++ .wait peer :: rest)
    (quiet : silent i peer) :
    ∃ threads, Reachable (Step silent) (unstarted actions) threads ∧
      (threads i).rest = [] ∧
      ∀ j, j ≠ i → threads j = unstarted actions j := by
  have follow : AllFollow rank silent (unstarted actions) := fun j =>
    Follows.of_performs (performs j) (ordered j)
  obtain ⟨middle, reachable, left, others⟩ :=
    follow.alone (fun _ _ => rfl) calls
  refine ⟨_, reachable.tail (.abandon i left quiet), ?_, fun j other => ?_⟩
  · rw [Function.update_self]
  · rw [Function.update_of_ne other, others j other]

variable [Fintype ι]

def work (threads : ι → Thread L P) : Nat := ∑ i, (threads i).rest.length

theorem work_step {threads next : ι → Thread L P}
    (step : Step silent threads next) : work next < work threads := by
  obtain ⟨i, held, rest, fewer, rfl⟩ := step.changes
  refine Finset.sum_lt_sum (fun j _ => ?_) ⟨i, Finset.mem_univ i, ?_⟩
  · by_cases same : j = i
    · subst same
      rw [Function.update_self]
      exact fewer.le
    · rw [Function.update_of_ne same]
  · rw [Function.update_self]
    exact fewer

/-- The rank of the lock that a thread wants next. -/
def wanted (rank : L → Nat) (thread : Thread L P) : Nat :=
  match thread.rest with
  | .acquire lock _ :: _ => rank lock
  | _ => 0

/-- Among the threads that have calls left, one that wants a lock of the
highest rank can go on, or else the thread that holds this lock can. -/
theorem AllFollow.proceeds {threads : ι → Thread L P}
    (follow : AllFollow rank silent threads) :
    Settled threads ∨ ∃ next, Step silent threads next := by
  classical
  let busy := Finset.univ.filter fun i => (threads i).rest ≠ []
  have inBusy : ∀ i, i ∈ busy ↔ (threads i).rest ≠ [] := fun i =>
    ⟨fun member => (Finset.mem_filter.mp member).2,
      fun restless => Finset.mem_filter.mpr ⟨Finset.mem_univ i, restless⟩⟩
  by_cases none : busy = ∅
  · left
    intro i
    by_contra restless
    have member : i ∈ busy := (inBusy i).mpr restless
    rw [none] at member
    exact Finset.notMem_empty i member
  right
  obtain ⟨i, member, highest⟩ := Finset.exists_max_image busy
    (fun i => wanted rank (threads i)) (Finset.nonempty_iff_ne_empty.mpr none)
  have restless : (threads i).rest ≠ [] := (inBusy i).mp member
  match ahead : (threads i).rest with
  | [] => exact absurd ahead restless
  | .release lock mode :: rest => exact ⟨_, .release i ahead⟩
  | .wait peer :: rest => exact ⟨_, .wait i ahead⟩
  | .acquire lock mode :: rest =>
      by_cases available : Available threads lock mode
      · exact ⟨_, .acquire i ahead available⟩
      obtain ⟨j, other, holds, same, -⟩ :
          ∃ j, ∃ other ∈ (threads j).held, other.1 = lock ∧
            ¬ (other.2 = .shared ∧ mode = .shared) := by
        simpa [Available] using available
      have goesOn : (threads j).rest ≠ [] := fun settled => by
        rw [(follow j).held_of_settled settled] at holds
        exact List.not_mem_nil holds
      match next : (threads j).rest with
      | [] => exact absurd next goesOn
      | .release inner _ :: _ => exact ⟨_, .release j next⟩
      | .wait peer :: _ => exact ⟨_, .wait j next⟩
      | .acquire inner _ :: _ =>
          have here := follow j
          have above : rank lock < rank inner := by
            rw [next] at here
            rw [← same]
            exact here.1 other holds
          have below : rank inner ≤ rank lock := by
            have most := highest j ((inBusy j).mpr goesOn)
            simpa [wanted, next, ahead] using most
          exact absurd above (Nat.not_lt.mpr below)

/-- Threads whose conducts are ordered exclude each other and always come to
an end, wherever peers fall silent, and a thread that was left waiting holds
no lock. -/
theorem ordered_complete {conducts : ι → Conduct L P}
    (ordered : ∀ i, (conducts i).Ordered rank (silent i) 0)
    {actions : ι → List (Action L P)}
    (performs : ∀ i, Performs (conducts i) (actions i)) :
    Completes (Step silent) Settled (unstarted actions) ∧
      ∀ threads, Reachable (Step silent) (unstarted actions) threads →
        Exclusive threads ∧
          ∀ i, (threads i).rest = [] → (threads i).held = [] := by
  have initial : AllFollow rank silent (unstarted actions) := fun i =>
    Follows.of_performs (performs i) (ordered i)
  have apart : Exclusive (unstarted actions) := by
    intro i j _ here inHere
    exact absurd inHere List.not_mem_nil
  have keeps : ∀ threads next : ι → Thread L P,
      AllFollow rank silent threads → Step silent threads next →
        AllFollow rank silent next :=
    fun _ _ follow step => follow.step step
  have excludes : ∀ threads next : ι → Thread L P, Exclusive threads →
      Step silent threads next → Exclusive next :=
    fun _ _ exclusive step => exclusive.step step
  refine ⟨completes_of_measure work keeps
    (fun _ _ _ step => work_step step)
    (fun _ follow => follow.proceeds) initial, ?_⟩
  intro threads reachable
  constructor
  · exact invariant_of_reachable excludes apart reachable
  · intro i settled
    have follow := invariant_of_reachable keeps initial reachable i
    exact follow.held_of_settled settled

end

end LockOrder
