import Dfs.NameServer.FileLists
import Dfs.NameServer.ForwardedRequests
import Dfs.NameServer.RequestSteps

/-!
# Concurrent creations of one name

CREATE checks the index in one critical section and extends a file list in
another, and the second one looks for duplicates in the list of its own server
only.  As long as no other server has the name when a list is extended, at
most one thread holds the name and at most one request succeeds.
-/

namespace Dfs.NameServer

open Dfs.StorageServer

/-- Nothing has begun yet, and every thread is to create the same name. -/
def createThreads (sys : System) (filename : Filename)
    (users : Nat → Username) : Threads :=
  { sys := sys, tasks := fun thread => .create filename (users thread) .start }

/-- A thread and what its next step finds. -/
abbrev Scheduled := Nat × StepInput

def scheduleStep (threads : Threads) (event : Scheduled) : Threads :=
  threadStep threads (.step event.1 event.2)

/-- The request of the thread is answered with success. -/
def Succeeded (threads : Threads) (thread : Nat) : Prop :=
  ∃ filename username response,
    threads.tasks thread = .create filename username (.answered response) ∧
      response.errorCode = errSuccess

/-- A list is extended only when no other list contains the name. -/
def AddsAlone (threads : Threads) (event : Scheduled) : Prop :=
  ∀ filename username ssId,
    threads.tasks event.1 = .create filename username (.chosen ssId) →
    ∀ server, Lists threads.sys.nm.toNameServerState server filename →
      findStorageServer threads.sys.nm.toNameServerState ssId = some server

/-- The thread put the name into a list and has not taken it out again. -/
def CreatePhase.Holds : CreatePhase → Prop
  | .registered _ => True
  | .failed _ _ => True
  | .answered response => response.errorCode = errSuccess
  | _ => False

/-- The server to which the thread will go back. -/
def CreatePhase.server : CreatePhase → Option Int
  | .registered ssId => some ssId
  | .failed ssId _ => some ssId
  | _ => none

/-- At most one list has the name, at most one thread holds it, and what a
thread holds is in a list. -/
structure Exclusive (filename : Filename) (nm : NameServerState)
    (phases : Nat → CreatePhase) : Prop where
  lists : ∀ server other, Lists nm server filename →
    Lists nm other filename → server = other
  holders : ∀ thread other, (phases thread).Holds → (phases other).Holds →
    thread = other
  listed : ∀ thread, (phases thread).Holds → ∃ server,
    Lists nm server filename
  once : ∀ thread ssId, (phases thread).server = some ssId →
    ∃ server, findStorageServer nm ssId = some server ∧
      ((serverFiles nm server).map (·.filename)).count filename = 1
  failing : ∀ thread ssId response, phases thread = .failed ssId response →
    response.errorCode ≠ errSuccess

theorem server_afterReply {ssId : Int} {reply : Reply} :
    ∀ other, (afterReply ssId reply).server = some other →
      some ssId = some other := by
  intro other server
  cases reply with
  | unconnected => exact server
  | unsent => exact server
  | unanswered buffer => exact server
  | answered response =>
      simp only [afterReply] at server
      split at server
      · cases server
      · exact server

theorem failing_afterReply {ssId : Int} {reply : Reply} :
    ∀ other response, afterReply ssId reply = .failed other response →
      response.errorCode ≠ errSuccess := by
  have lost : errConnectionFailed ≠ errSuccess := by decide
  intro other response phase
  cases reply with
  | unconnected =>
      cases phase
      exact lost
  | unsent =>
      cases phase
      exact lost
  | unanswered buffer =>
      cases phase
      exact lost
  | answered answer =>
      simp only [afterReply] at phase
      split at phase
      · cases phase
      · rename_i failed
        cases phase
        exact failed

namespace Exclusive

variable {filename : Filename} {nm : NameServerState}
  {phases : Nat → CreatePhase} {thread : Nat}

theorem holds_of_server {phase : CreatePhase} {ssId : Int}
    (server : phase.server = some ssId) : phase.Holds := by
  cases phase with
  | registered _ => trivial
  | failed _ _ => trivial
  | start => cases server
  | checked => cases server
  | chosen _ => cases server
  | answered _ => cases server

/-- A step that leaves the lists alone and takes nothing up. -/
theorem keep (exclusive : Exclusive filename nm phases) {next : CreatePhase}
    (held : next.Holds → (phases thread).Holds)
    (server : ∀ ssId, next.server = some ssId →
      (phases thread).server = some ssId)
    (failing : ∀ ssId response, next = .failed ssId response →
      response.errorCode ≠ errSuccess) :
    Exclusive filename nm (Function.update phases thread next) := by
  have before : ∀ other, (Function.update phases thread next other).Holds →
      (phases other).Holds := by
    intro other holds
    by_cases same : other = thread
    · subst same
      rw [Function.update_self] at holds
      exact held holds
    · rwa [Function.update_of_ne same] at holds
  refine ⟨exclusive.lists, ?_, ?_, ?_, ?_⟩
  · intro first second left right
    exact exclusive.holders first second (before first left)
      (before second right)
  · intro other holds
    exact exclusive.listed other (before other holds)
  · intro other ssId pending
    by_cases same : other = thread
    · subst same
      rw [Function.update_self] at pending
      exact exclusive.once other ssId (server ssId pending)
    · rw [Function.update_of_ne same] at pending
      exact exclusive.once other ssId pending
  · intro other ssId response phase
    by_cases same : other = thread
    · subst same
      rw [Function.update_self] at phase
      exact failing ssId response phase
    · rw [Function.update_of_ne same] at phase
      exact exclusive.failing other ssId response phase

/-- A phase that holds nothing can always be entered. -/
theorem idle (exclusive : Exclusive filename nm phases) {next : CreatePhase}
    (unheld : ¬next.Holds) :
    Exclusive filename nm (Function.update phases thread next) := by
  apply exclusive.keep (fun holds => (unheld holds).elim)
  · intro ssId server
    cases next with
    | registered _ => exact (unheld trivial).elim
    | failed _ _ => exact (unheld trivial).elim
    | start => cases server
    | checked => cases server
    | chosen _ => cases server
    | answered _ => cases server
  · intro ssId response same
    subst same
    exact (unheld trivial).elim

/-- No list has the name and no thread holds it. -/
theorem of_nobody {nm : NameServerState} {phases : Nat → CreatePhase}
    (unlisted : ∀ server, ¬Lists nm server filename)
    (free : ∀ thread, ¬(phases thread).Holds) :
    Exclusive filename nm phases := by
  refine ⟨?_, ?_, ?_, ?_, ?_⟩
  · intro server _ here _
    exact (unlisted server here).elim
  · intro thread _ holds _
    exact (free thread holds).elim
  · intro thread holds
    exact (free thread holds).elim
  · intro thread ssId server
    exact (free thread (holds_of_server server)).elim
  · intro thread ssId response phase
    exact (free thread (by rw [phase]; trivial)).elim

/-- A list gets the name that no list had. -/
theorem add (exclusive : Exclusive filename nm phases) {ssId : Int}
    {server : Nat} {ss : StorageServerInfo} {file : FileInfo}
    (known : findStorageServer nm ssId = some server)
    (found : nm.storageServers[server]? = some ss)
    (named : file.filename = filename)
    (unlisted : ∀ other, ¬Lists nm other filename) :
    Exclusive filename (appendFile nm server file)
      (Function.update phases thread (.registered ssId)) := by
  have only : ∀ other, Lists (appendFile nm server file) other filename →
      other = server := by
    intro other listed
    by_contra different
    rw [Lists, serverFiles_appendFile found, if_neg different] at listed
    exact unlisted other listed
  have once : ((serverFiles (appendFile nm server file) server).map
      (·.filename)).count filename = 1 := by
    have absent := List.count_eq_zero_of_not_mem (unlisted server)
    rw [serverFiles_appendFile found, if_pos rfl, List.map_append,
      List.count_append, absent]
    simp [named]
  have servers : findStorageServer (appendFile nm server file) ssId =
      some server :=
    (findStorageServer_eq_of_addresses (addresses_appendFile file)
      ssId).trans known
  have holder : ∀ other,
      (Function.update phases thread (.registered ssId) other).Holds →
      other = thread := by
    intro other holds
    by_contra different
    rw [Function.update_of_ne different] at holds
    obtain ⟨place, listed⟩ := exclusive.listed other holds
    exact unlisted place listed
  refine ⟨?_, ?_, ?_, ?_, ?_⟩
  · intro first second left right
    exact (only first left).trans (only second right).symm
  · intro first second left right
    exact (holder first left).trans (holder second right).symm
  · intro other _
    exact ⟨server, List.count_pos_iff.mp (by omega)⟩
  · intro other requested pending
    obtain rfl := holder other (holds_of_server pending)
    rw [Function.update_self] at pending
    cases pending
    exact ⟨server, servers, once⟩
  · intro other requested response phase
    obtain rfl := holder other (by rw [phase]; trivial)
    rw [Function.update_self] at phase
    cases phase

/-- The only list with the name loses it. -/
theorem rollback (exclusive : Exclusive filename nm phases) {ssId : Int}
    {response : Response} (phase : phases thread = .failed ssId response) :
    Exclusive filename (removeFileFromServer nm ssId filename).1
      (Function.update phases thread (.answered response)) := by
  obtain ⟨server, known, once⟩ := exclusive.once thread ssId
    (by rw [phase]; rfl)
  have listed : Lists nm server filename :=
    List.count_pos_iff.mp (by omega)
  have failed := exclusive.failing thread ssId response phase
  apply of_nobody
  · intro other still
    rcases removeFileFromServer_cases nm ssId filename with
      ⟨result, -, unchanged, absent⟩ | ⟨place, ss, slot, again, found, inSlot,
        dropped⟩
    · exact absent server known listed
    · cases known.symm.trans again
      rw [dropped, Lists, serverFiles_dropSlot found inSlot] at still
      by_cases here : other = server
      · rw [if_pos here, names_eraseP] at still
        have gone := List.count_pos_iff.mpr still
        rw [List.count_erase_self, once] at gone
        exact Nat.lt_irrefl 0 gone
      · rw [if_neg here] at still
        exact here (exclusive.lists other server still listed)
  · intro other holds
    by_cases same : other = thread
    · subst same
      rw [Function.update_self] at holds
      exact failed holds
    · rw [Function.update_of_ne same] at holds
      exact same (exclusive.holders other thread holds
        (by rw [phase]; trivial))

theorem createStep {sys : System}
    (exclusive : Exclusive filename sys.nm.toNameServerState phases)
    (username : Username) (input : StepInput)
    (alone : ∀ ssId, phases thread = .chosen ssId → ∀ server,
      Lists sys.nm.toNameServerState server filename →
      findStorageServer sys.nm.toNameServerState ssId = some server) :
    Exclusive filename
      (createStep sys filename username input
        (phases thread)).1.nm.toNameServerState
      (Function.update phases thread
        (createStep sys filename username input (phases thread)).2) := by
  cases phase : phases thread with
  | start =>
      have failed : errFileExists ≠ errSuccess := by decide
      simp only [NameServer.createStep]
      split
      · exact exclusive.idle failed
      · exact exclusive.idle id
  | checked =>
      obtain ⟨files, -⟩ := getAvailableStorageServer_records sys.nm
      have failed : errServerError ≠ errSuccess := by decide
      simp only [NameServer.createStep, files]
      split
      · exact exclusive.idle failed
      · exact exclusive.idle id
  | chosen ssId =>
      simp only [NameServer.createStep, System.addFile]
      rcases addFileToServer_cases input.now sys.nm.toNameServerState ssId
          filename username with
        ⟨result, failed, refused, -⟩ | ⟨server, ss, known, found, -, new,
          added⟩
      · simp only [refused, ne_eq, failed, not_false_eq_true, ↓reduceIte]
        exact exclusive.idle failed
      · simp only [added, ne_eq, not_true_eq_false, ↓reduceIte]
        apply exclusive.add known found rfl
        intro other listed
        have here := alone ssId phase other listed
        cases known.symm.trans here
        rw [Lists, serverFiles_of_getElem? found] at listed
        exact new listed
  | registered ssId =>
      have replied : ∀ reply, Exclusive filename sys.nm.toNameServerState
          (Function.update phases thread (afterReply ssId reply)) := by
        intro reply
        apply exclusive.keep
        · intro _
          rw [phase]
          trivial
        · rw [phase]
          exact server_afterReply
        · exact failing_afterReply
      simp only [NameServer.createStep]
      split
      · exact replied .unconnected
      · simp only [nm_exchange]
        exact replied _
  | failed ssId response => exact exclusive.rollback phase
  | answered response =>
      simp only [NameServer.createStep]
      apply exclusive.keep
      · rw [phase]
        exact id
      · simp [CreatePhase.server]
      · simp

end Exclusive

/-- All threads create one name, and their phases exclude each other. -/
def Racing (filename : Filename) (threads : Threads) : Prop :=
  ∃ phases, Exclusive filename threads.sys.nm.toNameServerState phases ∧
    ∀ thread, ∃ username,
      threads.tasks thread = .create filename username (phases thread)

section

variable {filename : Filename} {threads : Threads} {event : Scheduled}

theorem Racing.step (racing : Racing filename threads)
    (alone : AddsAlone threads event) :
    Racing filename (scheduleStep threads event) := by
  obtain ⟨phases, exclusive, creates⟩ := racing
  obtain ⟨thread, input⟩ := event
  obtain ⟨username, task⟩ := creates thread
  refine ⟨Function.update phases thread (createStep threads.sys filename
    username input (phases thread)).2, ?_, ?_⟩
  · have next := exclusive.createStep username input fun ssId phase =>
      alone filename username ssId (by rw [task, phase])
    simpa only [scheduleStep, threadStep, task, taskStep] using next
  · intro other
    simp only [scheduleStep, threadStep, task, taskStep]
    by_cases same : other = thread
    · subst same
      exact ⟨username, by simp⟩
    · obtain ⟨user, waiting⟩ := creates other
      exact ⟨user, by simp [Function.update_of_ne same, waiting]⟩

theorem Racing.unique (racing : Racing filename threads) {thread other : Nat}
    (first : Succeeded threads thread) (second : Succeeded threads other) :
    thread = other := by
  obtain ⟨phases, exclusive, creates⟩ := racing
  have holds : ∀ thread, Succeeded threads thread →
      (phases thread).Holds := by
    rintro thread ⟨_, _, response, task, success⟩
    obtain ⟨username, same⟩ := creates thread
    have phase : phases thread = .answered response := by
      have equal := task.symm.trans same
      simp only [Task.create.injEq] at equal
      exact equal.2.2.symm
    rw [phase]
    exact success
  exact exclusive.holders thread other (holds thread first)
    (holds other second)

end

/-- If every list is extended only while no other list has the name, then at
most one of the requests to create it succeeds and at most one list contains
it. -/
theorem created_at_most_once (sys : System) (filename : Filename)
    (users : Nat → Username) (schedule : List Scheduled)
    (single : ∀ server other, Lists sys.nm.toNameServerState server filename →
      Lists sys.nm.toNameServerState other filename → server = other)
    (alone : StepRun.AllSteps scheduleStep AddsAlone
      (createThreads sys filename users) schedule) :
    let threads := StepRun.run scheduleStep
      (createThreads sys filename users) schedule
    (∀ thread other, Succeeded threads thread → Succeeded threads other →
      thread = other) ∧
    ∀ server other, Lists threads.sys.nm.toNameServerState server filename →
      Lists threads.sys.nm.toNameServerState other filename →
      server = other := by
  have racing : Racing filename (StepRun.run scheduleStep
      (createThreads sys filename users) schedule) := by
    apply StepRun.invariant (fun _ _ racing alone => racing.step alone) _
      alone
    refine ⟨fun _ => .start, ⟨single, ?_, ?_, ?_, ?_⟩, ?_⟩
    · exact fun _ _ holds => holds.elim
    · exact fun _ holds => holds.elim
    · simp [CreatePhase.server]
    · simp
    · exact fun thread => ⟨users thread, rfl⟩
  refine ⟨fun thread other first second => racing.unique first second, ?_⟩
  obtain ⟨phases, exclusive, -⟩ := racing
  exact exclusive.lists

private def raceInput : StepInput :=
  { context :=
      { now := CString.copy 63 []
        leftover := newMetadata (CString.copy 255 []) (CString.copy 63 [])
          (CString.copy 63 []) }
    now := 0
    link := .reliable }

private def racedFile : Filename := CString.copy 255 "f".toList

private def raceUsers (thread : Nat) : Username :=
  CString.copy 63 (if thread = 0 then "alice".toList else "bob".toList)

/-- Two storage servers without files. -/
private def twoServers : System :=
  ((initSystem freshHosts).register 0
      ⟨1, CString.copy 15 [], 0, 0, CString.copy 4095 []⟩).register 0
    ⟨2, CString.copy 15 [], 0, 0, CString.copy 4095 []⟩

private def inTurn : List Scheduled :=
  [0, 0, 0, 0, 1].map fun thread => (thread, raceInput)

private def bothCheckFirst : List Scheduled :=
  [0, 1, 0, 1, 0, 1, 0, 1].map fun thread => (thread, raceInput)

private theorem not_lists_of_empty {nm : NameServerState}
    (empty : ∀ ss ∈ nm.storageServers, ss.fileCount = 0) (server : Nat)
    (filename : Filename) : ¬Lists nm server filename := by
  intro listed
  cases found : nm.storageServers[server]? with
  | none => simp [Lists, serverFiles, found] at listed
  | some ss =>
      have none := empty ss (List.mem_of_getElem? found)
      rw [Lists, serverFiles_of_getElem? found, liveFiles, none] at listed
      cases listed

private theorem addsAlone_of_empty {threads : Threads} {event : Scheduled}
    (empty : ∀ ss ∈ threads.sys.nm.storageServers, ss.fileCount = 0) :
    AddsAlone threads event := by
  intro filename _ _ _ server listed
  exact (not_lists_of_empty empty server filename listed).elim

private def hasChosen : Task → Bool
  | .create _ _ (.chosen _) => true
  | _ => false

private theorem addsAlone_of_waiting {threads : Threads} {event : Scheduled}
    (waiting : hasChosen (threads.tasks event.1) = false) :
    AddsAlone threads event := by
  intro filename username ssId task
  rw [task] at waiting
  cases waiting

theorem created_at_most_once_in_turn :
    (∀ server other, Lists twoServers.nm.toNameServerState server racedFile →
      Lists twoServers.nm.toNameServerState other racedFile →
      server = other) ∧
    StepRun.AllSteps scheduleStep AddsAlone
      (createThreads twoServers racedFile raceUsers) inTurn ∧
    ∀ thread other,
      Succeeded (StepRun.run scheduleStep
        (createThreads twoServers racedFile raceUsers) inTurn) thread →
      Succeeded (StepRun.run scheduleStep
        (createThreads twoServers racedFile raceUsers) inTurn) other →
      thread = other := by
  have empty : ∀ ss ∈ twoServers.nm.storageServers, ss.fileCount = 0 := by
    decide +kernel
  have single : ∀ server other,
      Lists twoServers.nm.toNameServerState server racedFile →
      Lists twoServers.nm.toNameServerState other racedFile →
      server = other :=
    fun server _ listed =>
      (not_lists_of_empty empty server racedFile listed).elim
  have alone : StepRun.AllSteps scheduleStep AddsAlone
      (createThreads twoServers racedFile raceUsers) inTurn := by
    refine ⟨addsAlone_of_empty empty, addsAlone_of_empty ?_,
      addsAlone_of_empty ?_, addsAlone_of_waiting ?_,
      addsAlone_of_waiting ?_, trivial⟩
    · decide +kernel
    · decide +kernel
    · decide +kernel
    · decide +kernel
  exact ⟨single, alone,
    (created_at_most_once twoServers racedFile raceUsers inTurn single
      alone).1⟩

/-- When both threads check before one of them adds, the round robin sends
them to different servers and both succeed. -/
theorem created_twice :
    ¬(∀ thread other,
      Succeeded (StepRun.run scheduleStep
        (createThreads twoServers racedFile raceUsers) bothCheckFirst)
        thread →
      Succeeded (StepRun.run scheduleStep
        (createThreads twoServers racedFile raceUsers) bothCheckFirst)
        other →
      thread = other) ∧
    ∀ server < 2, Lists (StepRun.run scheduleStep
      (createThreads twoServers racedFile raceUsers)
      bothCheckFirst).sys.nm.toNameServerState server racedFile := by
  constructor
  · intro unique
    have equal := unique 0 1
      ⟨racedFile, raceUsers 0, createAnswer errSuccess [], by decide +kernel,
        rfl⟩
      ⟨racedFile, raceUsers 1, createAnswer errSuccess [], by decide +kernel,
        rfl⟩
    cases equal
  · unfold Lists
    decide +kernel

end Dfs.NameServer
