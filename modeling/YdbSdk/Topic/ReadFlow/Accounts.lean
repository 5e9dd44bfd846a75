import YdbSdk.Data.Tally
import YdbSdk.Topic.ReadFlow.Flow

namespace YdbSdk.Topic.ReadFlow

open YdbSdk.Control YdbSdk.Data List

/-! # What the counters of a session stand for

A task has a part in the counters of its info and a share in those of the session.  The
two differ while the task has told its info but not yet the session.
-/

namespace DecompressionTask

variable {tasks : List DecompressionTask}

def compressedPart (task : DecompressionTask) : Int :=
  match task.phase with
  | .planned | .started => task.sourceDataSize
  | _ => 0

def decompressedPart (task : DecompressionTask) : Int :=
  match task.phase with
  | .decompressed | .accounted | .finished => task.held.sum
  | _ => 0

def compressedShare (task : DecompressionTask) : Int :=
  match task.phase with
  | .planned | .started | .decompressed => task.sourceDataSize
  | _ => 0

/-- A started task is counted with its estimate. -/
def decompressedShare (task : DecompressionTask) : Int :=
  match task.phase with
  | .started | .decompressed => task.estimatedDecompressedSize
  | .accounted | .finished => task.held.sum
  | _ => 0

def serverShare (task : DecompressionTask) : Int :=
  match task.phase with
  | .decompressed => task.serverBytesSize
  | _ => 0

/-- Only a finished task has announced its messages or given them up. -/
structure Sound (task : DecompressionTask) : Prop where
  finished : task.state = .ready ∨ task.state = .abandoned → task.phase = .finished

theorem nonneg (task : DecompressionTask) :
    0 ≤ task.compressedPart ∧ 0 ≤ task.decompressedPart ∧ 0 ≤ task.compressedShare ∧
      0 ≤ task.decompressedShare := by
  unfold compressedPart decompressedPart compressedShare decompressedShare
  refine ⟨?_, ?_, ?_, ?_⟩ <;> cases task.phase <;> exact Int.natCast_nonneg _

end DecompressionTask

def total (weight : DecompressionTask → Int) (tasks : List DecompressionTask) : Int :=
  (tasks.map weight).sum

@[simp] theorem total_nil (weight : DecompressionTask → Int) : total weight [] = 0 := rfl

@[simp] theorem total_cons (weight : DecompressionTask → Int) (task : DecompressionTask)
    (rest : List DecompressionTask) : total weight (task :: rest) = weight task + total weight rest := by
  simp [total]

theorem total_nonneg (nonneg : ∀ task, 0 ≤ weight task)
    (tasks : List DecompressionTask) : 0 ≤ total weight tasks := by
  induction tasks with
  | nil => exact Int.le_refl 0
  | cons task rest ih =>
    rw [total_cons]
    have here := nonneg task
    omega

theorem total_modify (weight : DecompressionTask → Int)
    (change : DecompressionTask → DecompressionTask)
    (found : tasks[index]? = some task) :
    total weight (tasks.modify index change) = total weight tasks - weight task +
      weight (change task) := by
  have moved := sum_map_modify weight change found
  unfold total
  omega

namespace DataDecompressionInfo

def compressedShare (info : DataDecompressionInfo) : Int :=
  info.unplanned + total DecompressionTask.compressedShare info.tasks

def decompressedShare (info : DataDecompressionInfo) : Int :=
  total DecompressionTask.decompressedShare info.tasks

def serverShare (info : DataDecompressionInfo) : Int :=
  info.serverBytesSize + total DecompressionTask.serverShare info.tasks

structure Sound (info : DataDecompressionInfo) : Prop where
  tasks : ∀ task ∈ info.tasks, task.Sound
  compressed : info.compressedDataSize =
    info.unplanned + total DecompressionTask.compressedPart info.tasks
  decompressed : info.decompressedDataSize = total DecompressionTask.decompressedPart info.tasks

theorem Sound.empty : ({} : DataDecompressionInfo).Sound := ⟨by simp, rfl, rfl⟩

theorem compressedShare_nonneg (info : DataDecompressionInfo) : 0 ≤ info.compressedShare := by
  have tasks := total_nonneg (fun task => task.nonneg.2.2.1) info.tasks
  unfold compressedShare
  omega

theorem decompressedShare_nonneg (info : DataDecompressionInfo) : 0 ≤ info.decompressedShare :=
  total_nonneg (fun task => task.nonneg.2.2.2) info.tasks

end DataDecompressionInfo

inductive Account where
  | compressedPart
  | decompressedPart
  | compressedShare
  | decompressedShare
  | serverShare

namespace Account

def weight : Account → DecompressionTask → Int
  | .compressedPart => DecompressionTask.compressedPart
  | .decompressedPart => DecompressionTask.decompressedPart
  | .compressedShare => DecompressionTask.compressedShare
  | .decompressedShare => DecompressionTask.decompressedShare
  | .serverShare => DecompressionTask.serverShare

theorem weight_eq (account : Account) (task : DecompressionTask) :
    account.weight task = match task.phase, account with
      | .planned, .compressedPart | .planned, .compressedShare | .started, .compressedPart
      | .started, .compressedShare | .decompressed, .compressedShare => (task.sourceDataSize : Int)
      | .started, .decompressedShare | .decompressed, .decompressedShare =>
        task.estimatedDecompressedSize
      | .decompressed, .decompressedPart | .accounted, .decompressedPart
      | .accounted, .decompressedShare | .finished, .decompressedPart
      | .finished, .decompressedShare => task.held.sum
      | .decompressed, .serverShare => task.serverBytesSize
      | _, _ => 0 := by
  cases account <;> cases phase : task.phase <;>
    simp [weight, DecompressionTask.compressedPart, DecompressionTask.decompressedPart,
      DecompressionTask.compressedShare, DecompressionTask.decompressedShare,
      DecompressionTask.serverShare, phase]

end Account

/-- Compressed data is counted alike by the info and by the session, decompressed data is
not. -/
def moved (compressed decompressedPart decompressedShare : Int) : Account → Int
  | .compressedPart | .compressedShare => compressed
  | .decompressedPart => decompressedPart
  | .decompressedShare => decompressedShare
  | .serverShare => 0

/-- The tasks of an info change, what they are counted with follows `change`, and they
stay sound. -/
structure Shifts (before after : List DecompressionTask) (change : Account → Int) : Prop where
  counts : ∀ account, total account.weight after = total account.weight before + change account
  sound : (∀ task ∈ before, task.Sound) → ∀ task ∈ after, task.Sound

section

variable {before after tasks : List DecompressionTask} {change : Account → Int}

theorem Shifts.refl (tasks : List DecompressionTask) : Shifts tasks tasks (moved 0 0 0) := by
  refine ⟨fun account => ?_, id⟩
  cases account <;> simp [moved]

theorem Shifts.cons {old new : DecompressionTask} {whole : Account → Int}
    (shifts : Shifts before after change)
    (here : ∀ account, account.weight new + change account = account.weight old + whole account)
    (kept : old.Sound → new.Sound) : Shifts (old :: before) (new :: after) whole := by
  refine ⟨fun account => ?_, fun sound => ?_⟩
  · have counted := shifts.counts account
    have first := here account
    rw [total_cons, total_cons]
    omega
  · rw [forall_mem_cons] at sound ⊢
    exact ⟨kept sound.1, shifts.sound sound.2⟩

theorem Shifts.modify
    {change : DecompressionTask → DecompressionTask} (found : tasks[index]? = some task)
    (kept : task.Sound → (change task).Sound) :
    Shifts tasks (tasks.modify index change)
      fun account => account.weight (change task) - account.weight task := by
  refine ⟨fun account => ?_, fun sound other member => ?_⟩
  · rw [total_modify account.weight change found]
    omega
  · rw [modify_eq_set_getElem?, found] at member
    rcases mem_or_eq_of_mem_set member with member | rfl
    · exact sound other member
    · exact kept (sound task (mem_of_getElem? found))

namespace DecompressionTask

theorem Sound.of_phase {before after : DecompressionTask} (sound : before.Sound)
    (sameState : after.state = before.state)
    (samePhase : before.phase = .finished → after.phase = .finished) : after.Sound := by
  refine ⟨fun announced => ?_⟩
  rw [sameState] at announced
  exact samePhase (sound.finished announced)

theorem startTasks_shifts (availableMemory : Int) (tasks : List DecompressionTask) :
    Shifts tasks (startTasks availableMemory tasks).1
        (moved 0 0 (startTasks availableMemory tasks).2) ∧
      0 ≤ (startTasks availableMemory tasks).2 := by
  induction tasks generalizing availableMemory with
  | nil => exact ⟨.refl [], Int.le_refl 0⟩
  | cons task rest ih =>
    rw [startTasks]
    split
    · rename_i planned
      split
      · obtain ⟨shifts, nonneg⟩ := ih (availableMemory - task.estimatedDecompressedSize)
        refine ⟨shifts.cons ?_ fun sound => sound.of_phase rfl (by simp [planned]), ?_⟩
        · intro account
          cases account <;> simp [Account.weight_eq, moved, planned]
        · dsimp only
          omega
      · exact ⟨.refl _, Int.le_refl 0⟩
    · obtain ⟨shifts, nonneg⟩ := ih availableMemory
      exact ⟨shifts.cons (fun _ => rfl) id, nonneg⟩

theorem Sound.take {size : Nat} (sound : task.Sound)
    (ready : task.state = .ready) (count : Nat)
    (shifts : Shifts before after (moved 0 (-size) (-size))) :
    Shifts (task :: before) ({ task with held := task.held.drop count } :: after)
      (moved 0 (-((task.held.take count).sum + size : Nat))
        (-((task.held.take count).sum + size : Nat))) := by
  have finished := sound.finished (.inl ready)
  have split : task.held.sum = (task.held.take count).sum + (task.held.drop count).sum := by
    rw [← sum_append, take_append_drop]
  refine shifts.cons (fun account => ?_) fun sound => sound.of_phase rfl id
  cases account <;> simp only [Account.weight_eq, moved, finished] <;> omega

theorem takeReady_shifts (counts : List Nat) (sound : ∀ task ∈ tasks, task.Sound) :
    Shifts tasks (takeReady counts tasks).1
      (moved 0 (-(takeReady counts tasks).2) (-(takeReady counts tasks).2)) := by
  induction counts generalizing tasks with
  | nil => exact .refl tasks
  | cons count counts ih =>
    cases tasks with
    | nil => exact .refl []
    | cons task rest =>
      rw [forall_mem_cons] at sound
      simp only [takeReady]
      split
      · rename_i ready
        exact sound.1.take ready count (ih sound.2)
      · exact (ih sound.2).cons (fun _ => rfl) id

theorem dropMessages_shifts (counts : List Nat) (sound : ∀ task ∈ tasks, task.Sound) :
    Shifts tasks (dropMessages counts tasks).1
      (moved 0 (-(dropMessages counts tasks).2.1) (-(dropMessages counts tasks).2.1)) := by
  induction counts generalizing tasks with
  | nil => exact .refl tasks
  | cons count counts ih =>
    cases tasks with
    | nil => cases count <;> exact .refl []
    | cons task rest =>
      rw [forall_mem_cons] at sound
      have others := ih sound.2
      cases count with
      | zero => exact others.cons (fun _ => rfl) id
      | succ count =>
        simp only [dropMessages]
        split
        · -- The cleanup claims a task that has not yet announced its messages.
          refine others.cons (fun account => ?_) fun _ => ⟨by simp⟩
          rw [Account.weight_eq, Account.weight_eq]
        · rename_i ready
          exact sound.1.take ready (count + 1) others
        · exact others.cons (fun _ => rfl) id

theorem cancelPlanned_shifts (tasks : List DecompressionTask) :
    Shifts tasks (tasks.map cancelPlanned) (moved (-plannedSize tasks) 0 0) := by
  induction tasks with
  | nil => exact .refl []
  | cons task rest ih =>
    by_cases planned : task.phase = .planned
    · refine ih.cons (fun account => ?_) fun sound => ?_
      · cases account <;>
          simp [Account.weight_eq, moved, cancelPlanned, plannedSize, planned]
      · exact sound.of_phase (by simp [cancelPlanned, planned]) (by simp [planned])
    · refine ih.cons (fun account => ?_) fun sound => ?_
      · simp [cancelPlanned, plannedSize, planned]
      · simpa [cancelPlanned, planned] using sound

end DecompressionTask

end

end YdbSdk.Topic.ReadFlow
