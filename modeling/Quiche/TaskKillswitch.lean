import Mathlib.Logic.Function.Basic
import Quiche.Data.Machine

namespace Quiche

abbrev TaskId := Nat

/-- An abort handle is known by the id of its task, which is its key in the map. -/
inductive TaskEntry where
  /-- Task was added and not yet removed. -/
  | handle
  /-- Task was removed before it was added. -/
  | tombstone
deriving DecidableEq, Repr

structure ActiveTasks where
  tasks : TaskId → Option TaskEntry

namespace ActiveTasks

def empty : ActiveTasks := ⟨fun _ => none⟩

def set (storage : ActiveTasks) (id : TaskId) (entry : Option TaskEntry) : ActiveTasks :=
  ⟨Function.update storage.tasks id entry⟩

/-- `kill_all` removes all elements of the shard that it visits, -/
def retain (storage : ActiveTasks) (visited : TaskId → Bool) : ActiveTasks :=
  ⟨fun id => if visited id then none else storage.tasks id⟩

def aborts (storage : ActiveTasks) (visited : TaskId → Bool) (id : TaskId) : Bool :=
  visited id && storage.tasks id == some .handle

/-- `none` is the panic of an id in use, and an error hands the handle back. -/
def addTaskIf (storage : ActiveTasks) (id : TaskId) (cond : Bool) : Option (ActiveTasks × Except TaskId Unit) :=
  match storage.tasks id with
  | none =>
    if !cond then some (storage, .error id)
    else some (storage.set id (some .handle), .ok ())
  -- Task was removed before it was added. Clear the map entry and drop the handle.
  | some .tombstone => some (storage.set id none, .ok ())
  | some .handle => none

def removeTask (storage : ActiveTasks) (id : TaskId) : ActiveTasks :=
  match storage.tasks id with
  -- Task was not added yet, set a tombstone instead.
  | none => storage.set id (some .tombstone)
  | some .tombstone => storage
  | some .handle => storage.set id none

end ActiveTasks

/-- How far the runtime is with a task; the drop guard lives while it runs. -/
inductive TaskPhase where
  | scheduled
  | running
  | completed
deriving DecidableEq, Repr

structure Task where
  phase : TaskPhase
  aborted : Bool
deriving DecidableEq, Repr

namespace Task

def spawn : Task := ⟨.scheduled, false⟩

def abort (task : Task) : Task := { task with aborted := true }

def poll (task : Task) : Task := { task with phase := .running }

def complete (task : Task) : Task := { task with phase := .completed }

end Task

/-- How far a call of `spawn_task` is; a refused one has still to abort its task. -/
inductive SpawnCall where
  | notStarted
  | unactivated
  | spawned
  | refused
  | returned
deriving DecidableEq, Repr

/-- The killswitch among the threads that use it. A call of `spawn_task` is named by the id of
its task; `visited` is the number of shards that `kill_all` has visited. -/
structure TaskKillswitch where
  activated : Bool
  storage : ActiveTasks
  calls : TaskId → SpawnCall
  tasks : TaskId → Option Task
  visited : Nat

namespace TaskKillswitch

def new : TaskKillswitch where
  activated := false
  storage := .empty
  calls := fun _ => .notStarted
  tasks := fun _ => none
  visited := 0

def setCall (switch : TaskKillswitch) (id : TaskId) (call : SpawnCall) : TaskKillswitch :=
  { switch with calls := Function.update switch.calls id call }

def setTask (switch : TaskKillswitch) (id : TaskId) (task : Option Task) : TaskKillswitch :=
  { switch with tasks := Function.update switch.tasks id task }

inductive Op where
  /-- `spawn_task` reads the flag. -/
  | spawnTask (id : TaskId)
  | spawn (id : TaskId)
  /-- `add_task_if`, which evaluates its condition under the lock of the shard. -/
  | addTaskIf (id : TaskId)
  /-- `handle.abort()` in `spawn_task`. -/
  | abort (id : TaskId)
  /-- The runtime polls a task for the first time. -/
  | poll (id : TaskId)
  /-- The future of a running task ends or is cancelled, and its guard is dropped. -/
  | complete (id : TaskId)
  /-- A task that was aborted before its first poll is dropped without a guard. -/
  | discard (id : TaskId)
  | activate
  /-- `kill_all` visits the next shard. -/
  | visit
deriving DecidableEq, Repr

section Steps

variable {shards : Nat} (shard : TaskId → Fin shards)

/-- `none` is a panic. -/
def step (switch : TaskKillswitch) : Op → Option TaskKillswitch
  | .spawnTask id => some (switch.setCall id (if switch.activated then .returned else .unactivated))
  | .spawn id => some ((switch.setTask id (some .spawn)).setCall id .spawned)
  | .addTaskIf id => do
    let (storage, res) ← switch.storage.addTaskIf id (!switch.activated)
    let switch := { switch with storage }
    match res with
    | .ok () => return switch.setCall id .returned
    -- Killswitch was activated by the time we got a lock on the map shard.
    | .error _ => return switch.setCall id .refused
  | .abort id => some ((switch.setTask id ((switch.tasks id).map Task.abort)).setCall id .returned)
  | .poll id => some (switch.setTask id ((switch.tasks id).map Task.poll))
  | .complete id =>
    let removed := { switch with storage := switch.storage.removeTask id }
    some (removed.setTask id ((switch.tasks id).map Task.complete))
  | .discard id => some (switch.setTask id ((switch.tasks id).map Task.complete))
  -- The killswitch can't be used twice.
  | .activate => if switch.activated then none else some { switch with activated := true }
  | .visit =>
    let visited := fun id => decide ((shard id).val = switch.visited)
    some { switch with
      storage := switch.storage.retain visited
      tasks := fun id =>
        if switch.storage.aborts visited id then (switch.tasks id).map Task.abort else switch.tasks id
      visited := switch.visited + 1 }

/-- What a thread may do next. A task runs once it is polled unless it was aborted before, and
`kill_all` runs on the thread that the one activation starts. -/
def Enabled (shards : Nat) (switch : TaskKillswitch) : Op → Prop
  | .spawnTask id => switch.calls id = .notStarted
  | .spawn id => switch.calls id = .unactivated
  | .addTaskIf id => switch.calls id = .spawned
  | .abort id => switch.calls id = .refused
  | .poll id => switch.tasks id = some ⟨.scheduled, false⟩
  | .complete id => (switch.tasks id).any (·.phase == .running)
  | .discard id => switch.tasks id = some ⟨.scheduled, true⟩
  | .activate => switch.activated = false
  | .visit => switch.activated ∧ switch.visited < shards

instance (switch : TaskKillswitch) : ∀ op, Decidable (Enabled shards switch op)
  | .spawnTask _ | .spawn _ | .addTaskIf _ | .abort _ => inferInstanceAs (Decidable (_ = _))
  | .poll _ | .complete _ | .discard _ | .activate => inferInstanceAs (Decidable (_ = _))
  | .visit => inferInstanceAs (Decidable (_ ∧ _))

def machine : Data.Machine TaskKillswitch Op := ⟨step shard⟩

end Steps

variable {shards : Nat} {shard : TaskId → Fin shards} {switch next : TaskKillswitch} {id : TaskId}
variable {entry : Option TaskEntry} {task : Task} {call : SpawnCall} {activated : Bool}

/-- `kill_all` and every call of `spawn_task` that was started have returned. -/
def Settled (shards : Nat) (switch : TaskKillswitch) : Prop :=
  switch.activated ∧ switch.visited = shards ∧ ∀ id, switch.calls id = .notStarted ∨ switch.calls id = .returned

/-- The task has ended or is aborted. -/
def Task.Over (task : Task) : Prop := task.phase = .completed ∨ task.aborted = true

/-- The activation has visited the shard of the task. -/
def Swept (shard : TaskId → Fin shards) (switch : TaskKillswitch) (id : TaskId) : Prop :=
  (shard id).val < switch.visited

/-- The handle of the task is not yet stored. -/
structure Unadded (activated : Bool) (entry : Option TaskEntry) (task : Task) : Prop where
  entry_cases : entry = none ∨ entry = some .tombstone ∧ task.phase = .completed
  kept : activated = false → task.aborted = false ∧ (entry = none → task.phase ≠ .completed)

/-- What may stand there once the call has returned. -/
structure Added (activated : Bool) (swept : Prop) (entry : Option TaskEntry) (task : Task) : Prop where
  unhandled : entry ≠ some .handle → Task.Over task
  handled : entry = some .handle → ¬swept ∧ task.phase ≠ .completed ∧ task.aborted = false
  tombstone : entry = some .tombstone → activated = true
  aborted : task.aborted = true → activated = true

/-- The entry, the task and the progress of its spawn agree. -/
def Linked (activated : Bool) (swept : Prop) (entry : Option TaskEntry) : Option Task → SpawnCall → Prop
  | none, call => entry = none ∧ call ∈ [.notStarted, .unactivated, .returned]
  | some task, .spawned => Unadded activated entry task
  | some _, .refused => activated = true ∧ entry ≠ some .handle
  | some task, .returned => Added activated swept entry task
  | some _, _ => False

/-- Every task agrees with its entry, and shards are only visited after the activation. -/
structure Sound (shard : TaskId → Fin shards) (switch : TaskKillswitch) : Prop where
  unswept : switch.activated = false → switch.visited = 0
  linked : ∀ id, Linked switch.activated (Swept shard switch id) (switch.storage.tasks id) (switch.tasks id)
    (switch.calls id)

/-- The step changes nothing but the task. -/
structure Elsewhere (id : TaskId) (switch next : TaskKillswitch) : Prop where
  activated : next.activated = switch.activated
  visited : next.visited = switch.visited
  entry : ∀ other, other ≠ id → next.storage.tasks other = switch.storage.tasks other
  task : ∀ other, other ≠ id → next.tasks other = switch.tasks other
  call : ∀ other, other ≠ id → next.calls other = switch.calls other

theorem Sound.step_at (sound : Sound shard switch) (elsewhere : Elsewhere id switch next)
    (linked : Linked switch.activated (Swept shard switch id) (next.storage.tasks id) (next.tasks id)
      (next.calls id)) : Sound shard next where
  unswept unactivated := by
    rw [elsewhere.visited]
    exact sound.unswept (elsewhere.activated ▸ unactivated)
  linked other := by
    have swept : Swept shard next other = Swept shard switch other := by
      rw [Swept, Swept, elsewhere.visited]
    rw [elsewhere.activated, swept]
    by_cases same : other = id
    · rw [same]
      exact linked
    · rw [elsewhere.entry other same, elsewhere.task other same, elsewhere.call other same]
      exact sound.linked other

theorem Sound.not_swept (sound : Sound shard switch) (unactivated : switch.activated = false) :
    ¬Swept shard switch id := by
  rw [Swept, sound.unswept unactivated]
  exact Nat.not_lt_zero _

section Frames

theorem elsewhere_refl : Elsewhere id switch switch := ⟨rfl, rfl, fun _ _ => rfl, fun _ _ => rfl, fun _ _ => rfl⟩

section

variable (elsewhere : Elsewhere id switch next)

include elsewhere

theorem Elsewhere.setCall (call : SpawnCall) :
    Elsewhere id switch (next.setCall id call) :=
  { elsewhere with call := fun other differs =>
      (Function.update_of_ne differs _ _).trans (elsewhere.call other differs) }

theorem Elsewhere.setTask (task : Option Task) :
    Elsewhere id switch (next.setTask id task) :=
  { elsewhere with task := fun other differs =>
      (Function.update_of_ne differs _ _).trans (elsewhere.task other differs) }

theorem Elsewhere.setStorage {storage : ActiveTasks}
    (kept : ∀ other, other ≠ id → storage.tasks other = next.storage.tasks other) :
    Elsewhere id switch { next with storage } :=
  { elsewhere with entry := fun other differs => (kept other differs).trans (elsewhere.entry other differs) }

end

@[simp] theorem setCall_calls : (switch.setCall id call).calls id = call := Function.update_self ..
@[simp] theorem setCall_tasks : (switch.setCall id call).tasks = switch.tasks := rfl
@[simp] theorem setCall_storage : (switch.setCall id call).storage = switch.storage := rfl
@[simp] theorem setTask_calls {task : Option Task} : (switch.setTask id task).calls = switch.calls := rfl
@[simp] theorem setTask_tasks {task : Option Task} : (switch.setTask id task).tasks id = task := Function.update_self ..
@[simp] theorem setTask_storage {task : Option Task} :
    (switch.setTask id task).storage = switch.storage := rfl

end Frames

section Map

variable {storage : ActiveTasks} {other : TaskId}

@[simp] theorem set_tasks : (storage.set id entry).tasks id = entry := Function.update_self ..

theorem set_tasks_of_ne (differs : other ≠ id) : (storage.set id entry).tasks other = storage.tasks other :=
  Function.update_of_ne differs ..

/-- The entry that `remove_task` leaves for its own id. -/
def removed : Option TaskEntry → Option TaskEntry
  | some .handle => none
  | _ => some .tombstone

theorem removeTask_tasks : (storage.removeTask id).tasks id = removed (storage.tasks id) := by
  rw [ActiveTasks.removeTask]
  split
  next absent => rw [absent, set_tasks, removed]; simp
  next buried => rw [buried]; rfl
  next handled => rw [handled, set_tasks, removed]

theorem removeTask_of_ne (differs : other ≠ id) : (storage.removeTask id).tasks other = storage.tasks other := by
  rw [ActiveTasks.removeTask]
  split
  · exact set_tasks_of_ne differs
  · rfl
  · exact set_tasks_of_ne differs

end Map

section Calls

variable {swept : Prop} {task? : Option Task}

theorem Linked.absent (linked : Linked activated swept entry task? call)
    (early : call = .notStarted ∨ call = .unactivated) : task? = none ∧ entry = none := by
  cases task? with
  | none => exact ⟨rfl, linked.1⟩
  | some task => rcases early with rfl | rfl <;> exact linked.elim

theorem Linked.spawned (linked : Linked activated swept entry task? .spawned) :
    ∃ task, task? = some task ∧ Unadded activated entry task := by
  cases task? with
  | none => simp [Linked] at linked
  | some task => exact ⟨task, rfl, linked⟩

theorem Linked.refused (linked : Linked activated swept entry task? .refused) :
    ∃ task, task? = some task ∧ activated = true ∧ entry ≠ some .handle := by
  cases task? with
  | none => simp [Linked] at linked
  | some task => exact ⟨task, rfl, linked⟩

theorem Unadded.activated_of_aborted (unadded : Unadded activated entry task) (aborted : task.aborted = true) :
    activated = true := by
  cases flag : activated with
  | true => rfl
  | false => simp [(unadded.kept flag).1] at aborted

theorem Added.of_over (ended : Task.Over task) (unhandled : entry ≠ some .handle) (isActivated : activated = true) :
    Added activated swept entry task where
  unhandled _ := ended
  handled handled := (unhandled handled).elim
  tombstone _ := isActivated
  aborted _ := isActivated

theorem Linked.map {changed : Task} {entry' : Option TaskEntry} (linked : Linked activated swept entry (some task) call)
    (spawned : Unadded activated entry task → Unadded activated entry' changed)
    (refused : activated = true → entry ≠ some .handle → entry' ≠ some .handle)
    (returned : Added activated swept entry task → Added activated swept entry' changed) :
    Linked activated swept entry' (some changed) call := by
  cases call with
  | notStarted => exact linked.elim
  | unactivated => exact linked.elim
  | spawned => exact spawned linked
  | refused => exact ⟨linked.1, refused linked.1 linked.2⟩
  | returned => exact returned linked

end Calls

section Steps

section

variable (sound : Sound shard switch)

include sound

theorem spawnTask_sound (fresh : switch.calls id = .notStarted) :
    Sound shard (switch.setCall id (if switch.activated then .returned else .unactivated)) := by
  apply sound.step_at (elsewhere_refl.setCall _)
  obtain ⟨untasked, vacant⟩ := (sound.linked id).absent (.inl fresh)
  rw [setCall_calls, setCall_tasks, setCall_storage, untasked]
  refine ⟨vacant, ?_⟩
  cases switch.activated <;> simp

theorem spawn_sound (checked : switch.calls id = .unactivated) :
    Sound shard ((switch.setTask id (some .spawn)).setCall id .spawned) := by
  apply sound.step_at ((elsewhere_refl.setTask _).setCall _)
  obtain ⟨_, vacant⟩ := (sound.linked id).absent (.inr checked)
  rw [setCall_calls, setCall_tasks, setTask_tasks, setCall_storage, setTask_storage, vacant]
  exact ⟨.inl rfl, fun _ => ⟨rfl, fun _ => by decide⟩⟩

theorem addTaskIf_sound (spawned : switch.calls id = .spawned) :
    ∃ next, step shard switch (.addTaskIf id) = some next ∧ Sound shard next := by
  have linked := sound.linked id
  rw [spawned] at linked
  obtain ⟨task, found, unadded⟩ := linked.spawned
  have step_at (storage : ActiveTasks) (call : SpawnCall)
      (stepped : step shard switch (.addTaskIf id) = some ({ switch with storage }.setCall id call))
      (kept : ∀ other, other ≠ id → storage.tasks other = switch.storage.tasks other)
      (linked : Linked switch.activated (Swept shard switch id) (storage.tasks id) (some task) call) :
      ∃ next, step shard switch (.addTaskIf id) = some next ∧ Sound shard next := by
    refine ⟨_, stepped, sound.step_at ((elsewhere_refl.setStorage kept).setCall _) ?_⟩
    rw [setCall_calls, setCall_tasks, setCall_storage, found]
    exact linked
  rcases unadded.entry_cases with vacant | ⟨buried, completed⟩
  · cases flag : switch.activated with
    | true =>
      apply step_at switch.storage .refused (by simp [step, ActiveTasks.addTaskIf, vacant, flag])
        (fun _ _ => rfl)
      exact ⟨flag, by simp [vacant]⟩
    | false =>
      obtain ⟨unaborted, live⟩ := unadded.kept flag
      apply step_at (switch.storage.set id (some .handle)) .returned
        (by simp [step, ActiveTasks.addTaskIf, vacant, flag]) (fun _ => set_tasks_of_ne)
      rw [set_tasks]
      exact ⟨fun unhandled => (unhandled rfl).elim, fun _ => ⟨sound.not_swept flag, live vacant, unaborted⟩,
        nofun, fun aborted => by simp [unaborted] at aborted⟩
  · apply step_at (switch.storage.set id none) .returned (by simp [step, ActiveTasks.addTaskIf, buried])
      (fun _ => set_tasks_of_ne)
    rw [set_tasks]
    exact ⟨fun _ => .inl completed, nofun, nofun, unadded.activated_of_aborted⟩

theorem abort_sound (refused : switch.calls id = .refused) :
    Sound shard ((switch.setTask id ((switch.tasks id).map Task.abort)).setCall id .returned) := by
  have linked := sound.linked id
  rw [refused] at linked
  obtain ⟨task, found, activated, unhandled⟩ := linked.refused
  apply sound.step_at ((elsewhere_refl.setTask _).setCall _)
  rw [setCall_calls, setCall_tasks, setTask_tasks, setCall_storage, setTask_storage, found]
  exact Added.of_over (.inr rfl) unhandled activated

theorem poll_sound (scheduled : switch.tasks id = some ⟨.scheduled, false⟩) :
    Sound shard (switch.setTask id ((switch.tasks id).map Task.poll)) := by
  have linked := sound.linked id
  rw [scheduled] at linked
  apply sound.step_at (elsewhere_refl.setTask _)
  rw [setTask_calls, setTask_tasks, setTask_storage, scheduled]
  refine linked.map (fun unadded => ?_) (fun _ unhandled => unhandled) (fun added => ?_)
  · rcases unadded.entry_cases with vacant | ⟨_, completed⟩
    · exact ⟨.inl vacant, fun _ => ⟨rfl, fun _ => by decide⟩⟩
    · cases completed
  · exact ⟨fun unhandled => absurd (added.unhandled unhandled) (by simp [Task.Over]),
      fun handled => ⟨(added.handled handled).1, by decide, rfl⟩, added.tombstone, nofun⟩

end

theorem removed_unhandled : removed entry ≠ some .handle := by
  rcases entry with _ | _ | _ <;> simp [removed]

section

variable (sound : Sound shard switch)

include sound

theorem complete_sound (running : switch.tasks id = some task) (runs : task.phase = .running) :
    Sound shard ({ switch with storage := switch.storage.removeTask id }.setTask id (some task.complete)) := by
  have linked := sound.linked id
  rw [running] at linked
  apply sound.step_at ((elsewhere_refl.setStorage fun _ => removeTask_of_ne).setTask _)
  rw [setTask_calls, setTask_tasks, setTask_storage, removeTask_tasks]
  refine linked.map (fun unadded => ?_) (fun _ _ => removed_unhandled) (fun added => ?_)
  · rcases unadded.entry_cases with vacant | ⟨_, completed⟩
    · rw [vacant]
      exact ⟨.inr ⟨rfl, rfl⟩, fun flag => ⟨(unadded.kept flag).1, nofun⟩⟩
    · rw [runs] at completed
      cases completed
  · refine ⟨fun _ => .inl rfl, fun handled => (removed_unhandled handled).elim, fun buried => ?_, added.aborted⟩
    -- Only a task that was aborted runs on without its handle.
    have unhandled : switch.storage.tasks id ≠ some .handle := by
      intro handled
      rw [handled] at buried
      cases buried
    rcases added.unhandled unhandled with completed | aborted
    · rw [runs] at completed
      cases completed
    · exact added.aborted aborted

theorem discard_sound (aborted : switch.tasks id = some ⟨.scheduled, true⟩) :
    Sound shard (switch.setTask id ((switch.tasks id).map Task.complete)) := by
  have linked := sound.linked id
  rw [aborted] at linked
  apply sound.step_at (elsewhere_refl.setTask _)
  rw [setTask_calls, setTask_tasks, setTask_storage, aborted]
  refine linked.map (fun unadded => ?_) (fun _ unhandled => unhandled) (fun added => ?_)
  · have activated := unadded.activated_of_aborted rfl
    rcases unadded.entry_cases with vacant | ⟨_, completed⟩
    · exact ⟨.inl vacant, fun flag => by simp [activated] at flag⟩
    · cases completed
  · exact Added.of_over (.inr rfl) (fun handled => by simpa using (added.handled handled).2.2)
      (added.aborted rfl)

theorem activate_sound : Sound shard { switch with activated := true } where
  unswept := nofun
  linked id := by
    have linked := sound.linked id
    show Linked true _ (switch.storage.tasks id) (switch.tasks id) (switch.calls id)
    cases found : switch.tasks id with
    | none =>
      rw [found] at linked
      exact linked
    | some task =>
      rw [found] at linked
      generalize switch.calls id = call at linked ⊢
      cases call with
      | notStarted => exact linked.elim
      | unactivated => exact linked.elim
      | spawned => exact ⟨Unadded.entry_cases linked, nofun⟩
      | refused => exact ⟨rfl, linked.2⟩
      | returned => exact ⟨Added.unhandled linked, Added.handled linked, fun _ => rfl, fun _ => rfl⟩

end

theorem Linked.visit {task? : Option Task} (linked : Linked true False entry task? call) :
    Linked true True none (if entry = some .handle then task?.map Task.abort else task?) call := by
  cases task? with
  | none =>
    rw [Option.map_none, ite_self]
    exact ⟨rfl, linked.2⟩
  | some task =>
    by_cases handled : entry = some .handle
    · rw [if_pos handled, Option.map_some]
      cases call with
      | notStarted => exact linked.elim
      | unactivated => exact linked.elim
      | spawned =>
        rcases Unadded.entry_cases linked with vacant | ⟨buried, _⟩
        · cases handled.symm.trans vacant
        · cases handled.symm.trans buried
      | refused => exact ⟨rfl, nofun⟩
      | returned => exact Added.of_over (.inr rfl) nofun rfl
    · rw [if_neg handled]
      cases call with
      | notStarted => exact linked.elim
      | unactivated => exact linked.elim
      | spawned => exact ⟨.inl rfl, nofun⟩
      | refused => exact ⟨rfl, nofun⟩
      | returned => exact Added.of_over (Added.unhandled linked handled) nofun rfl

theorem visit_sound (sound : Sound shard switch) (activated : switch.activated = true) :
    ∃ next, step shard switch .visit = some next ∧ Sound shard next := by
  refine ⟨_, rfl, fun flag => ?_, fun id => ?_⟩
  · simp [activated] at flag
  have linked := sound.linked id
  rw [activated] at linked
  dsimp only [Swept, ActiveTasks.retain, ActiveTasks.aborts]
  rw [activated]
  by_cases here : (shard id).val = switch.visited
  · have unswept : Swept shard switch id = False := eq_false (by rw [Swept, here]; exact Nat.lt_irrefl _)
    have swept : ((shard id).val < switch.visited + 1) = True := eq_true (by omega)
    rw [unswept] at linked
    have visited := linked.visit
    simpa [here, swept] using visited
  · have same : ((shard id).val < switch.visited + 1) = Swept shard switch id := by
      rw [Swept, eq_iff_iff]
      omega
    rw [same]
    simpa [here] using linked

theorem step_sound (sound : Sound shard switch) {op : Op} (enabled : Enabled shards switch op) :
    ∃ next, step shard switch op = some next ∧ Sound shard next := by
  cases op with
  | spawnTask id => exact ⟨_, rfl, spawnTask_sound sound enabled⟩
  | spawn id => exact ⟨_, rfl, spawn_sound sound enabled⟩
  | addTaskIf id => exact addTaskIf_sound sound enabled
  | abort id => exact ⟨_, rfl, abort_sound sound enabled⟩
  | poll id => exact ⟨_, rfl, poll_sound sound enabled⟩
  | complete id =>
    obtain ⟨task, running, runs⟩ := Option.any_eq_true _ _ |>.mp enabled
    refine ⟨_, rfl, ?_⟩
    rw [running]
    exact complete_sound sound running (beq_iff_eq.mp runs)
  | discard id => exact ⟨_, rfl, discard_sound sound enabled⟩
  | activate => exact ⟨_, if_neg (by rw [show switch.activated = false from enabled]; decide), activate_sound sound⟩
  | visit => exact visit_sound sound enabled.1

theorem new_sound : Sound shard .new := ⟨fun _ => rfl, fun _ => ⟨rfl, by simp [new]⟩⟩

end Steps

/-- However spawning and ending tasks and one activation of the killswitch interleave, no call
panics; once everything has returned every task that was spawned is over, and before the
activation a task that completed has left nothing in the map. -/
theorem no_survivor (shard : TaskId → Fin shards) (ops : List Op)
    (guarded : (machine shard).Guarded (Enabled shards) .new ops) : ∃ final, (machine shard).run .new ops = some final ∧
      (final.Settled shards → ∀ id task, final.tasks id = some task → Task.Over task) ∧
      (final.activated = false → ∀ id task, final.calls id = .returned → final.tasks id = some task →
        task.phase = .completed → final.storage.tasks id = none) := by
  have preserved : ∀ switch op, Sound shard switch → Enabled shards switch op →
      ∃ next, (machine shard).step switch op = some next ∧ Sound shard next :=
    fun _ _ sound enabled => step_sound sound enabled
  obtain ⟨final, completed, sound⟩ := (machine shard).run_total_of_guarded preserved new_sound guarded
  refine ⟨final, completed, fun settled id task spawned => ?_, fun flag id task returned spawned ends => ?_⟩
  · obtain ⟨_, visited, calls⟩ := settled
    have linked := sound.linked id
    rw [spawned] at linked
    rcases calls id with idle | returned
    · rw [idle] at linked
      exact linked.elim
    · rw [returned] at linked
      have swept : Swept shard final id := by
        rw [Swept, visited]
        exact (shard id).isLt
      exact Added.unhandled linked fun handled => (Added.handled linked handled).1 swept
  · have linked := sound.linked id
    rw [spawned, returned] at linked
    cases found : final.storage.tasks id with
    | none => rfl
    | some entry =>
      cases entry with
      | handle => exact ((Added.handled linked found).2.1 ends).elim
      | tombstone => simp [Added.tombstone linked found] at flag

def race : List Op :=
  [.spawnTask 1, .spawnTask 2, .spawnTask 3, .spawn 1, .spawn 2, .spawn 3, .poll 2, .complete 2, .addTaskIf 2,
    .addTaskIf 1, .poll 3, .activate, .visit, .addTaskIf 3, .visit, .abort 3, .complete 3, .discard 1]

theorem no_survivor_race : ∃ final, (machine fun id => Fin.ofNat 2 id).run .new race = some final ∧ final.Settled 2 ∧
      ∀ id task, final.tasks id = some task → Task.Over task := by
  obtain ⟨final, completed, ended, _⟩ := no_survivor (fun id => Fin.ofNat 2 id) race (by decide)
  refine ⟨final, completed, ?settled, ended ?settled⟩
  cases completed
  refine ⟨rfl, rfl, fun id => ?_⟩
  by_cases first : id = 1
  · exact .inr (by rw [first]; rfl)
  by_cases second : id = 2
  · exact .inr (by rw [second]; rfl)
  by_cases third : id = 3
  · exact .inr (by rw [third]; rfl)
  exact .inl (by simp [setCall, setTask, new, first, second, third])

end TaskKillswitch

end Quiche
