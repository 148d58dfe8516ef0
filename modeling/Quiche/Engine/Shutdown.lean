import Mathlib.Data.List.TakeDrop
import Quiche.Engine.Write

namespace Quiche

open Data

/-- The application's thread has woken the loop for its `CLOSE`. -/
def AppPhase.isLate (app : AppPhase) : Bool := app == .breaking || app == .joining || app == .returned

namespace Engine

variable {engine next : Engine}

/-- `shutdown` pushed its `CLOSE`, after which nothing is pushed any more. -/
def Closing (cmds : List Command) : Prop := ∃ earlier appError reason, cmds = earlier ++ [.close appError reason]

/-- When `shutdown` has returned, its `CLOSE` and all that was pushed before it are executed, in
this order, and nothing is queued. Every packet that was made went to the socket. -/
structure Orderly (engine : Engine) : Prop where
  drained : engine.app = .returned → engine.cmdQueue = []
  executed : engine.app = .returned → engine.executed = engine.pushed ∧ Closing engine.pushed
  passed : engine.passed = engine.produced

/-- Every batch of a `flushEgress` goes to the socket as a whole: no packet fails while others
of its batch wait, and `sendmmsg` leaves nothing out. -/
def passesAll (batch : List Packet) (socket : List Nat) : List SendResult → Bool
  | [] | .done :: _ => batch.isEmpty || socket.headD 0 == 0
  | .failed :: _ => batch.isEmpty
  | .packet bytes :: calls =>
    let batch := batch ++ [bytes]
    if batch.length < batchSize then passesAll batch socket calls
    else socket.headD 0 == 0 && passesAll [] socket.tail calls

/-- The loop only ends after the wake-up of `shutdown`, and not while a wake-up is pending for a
command in the queue. Each `flushEgress` passes all of its packets. -/
def outlasts (engine : Engine) : Op → Bool
  | .endIteration => !engine.loopDone ||
      ((!engine.asyncSent || engine.cmdQueue.isEmpty) && (engine.app == .breaking || engine.app == .joining))
  | .flushEgress socket calls _ => passesAll [] socket calls
  | .processCommand _ socket calls _ => passesAll [] socket calls
  | _ => true

theorem sendmmsg_all (batch : List Packet) : sendmmsg batch 0 = batch := by
  rw [sendmmsg, Nat.sub_zero, List.take_length]

theorem sendmmsg_eq_iff {batch : List Packet} {leftOut : Nat} :
    sendmmsg batch leftOut = batch ↔ batch = [] ∨ leftOut = 0 := by
  rw [sendmmsg, List.take_eq_self_iff]
  constructor
  · intro all
    by_contra neither
    rw [not_or] at neither
    have := List.length_pos_of_ne_nil neither.1
    omega
  · rintro (rfl | rfl)
    · exact Nat.zero_le _
    · exact Nat.le_refl _

theorem sendmmsg_length_le (batch : List Packet) (leftOut : Nat) : (sendmmsg batch leftOut).length ≤ batch.length :=
  List.length_take_le' ..

theorem passed_length_le (batch : List Packet) (socket : List Nat) (calls : List SendResult) :
    (sendBatches batch socket calls).passed.length ≤ (sendBatches batch socket calls).produced.length := by
  induction calls generalizing batch socket with
  | nil => exact sendmmsg_length_le ..
  | cons call calls ih =>
    cases call with
    | done => exact sendmmsg_length_le ..
    | failed => exact Nat.zero_le _
    | packet bytes =>
      rw [sendBatches]
      dsimp only
      split
      · exact ih ..
      · have first := sendmmsg_length_le (batch ++ [bytes]) (socket.headD 0)
        have later := ih [] socket.tail
        simp only [List.length_append] at first later ⊢
        omega

theorem passesAll_iff (batch : List Packet) (socket : List Nat) (calls : List SendResult) :
    passesAll batch socket calls = true ↔
      (sendBatches batch socket calls).passed = (sendBatches batch socket calls).produced := by
  induction calls generalizing batch socket with
  | nil => simp [passesAll, sendBatches, sendmmsg_eq_iff]
  | cons call calls ih =>
    cases call with
    | done => simp [passesAll, sendBatches, sendmmsg_eq_iff]
    | failed => rw [passesAll, sendBatches, List.isEmpty_iff, eq_comm (a := [])]
    | packet bytes =>
      rw [passesAll, sendBatches]
      dsimp only
      split
      · exact ih ..
      · rw [Bool.and_eq_true, beq_iff_eq, ih]
        constructor
        · rintro ⟨all, later⟩
          rw [all, sendmmsg_all, later]
        · intro same
          have first := sendmmsg_length_le (batch ++ [bytes]) (socket.headD 0)
          have later := passed_length_le [] socket.tail calls
          have lengths := congrArg List.length same
          simp only [List.length_append] at first lengths
          obtain ⟨batches, rest⟩ := List.append_inj same (by simp only [List.length_append]; omega)
          rw [sendmmsg_eq_iff] at batches
          exact ⟨batches.resolve_left (by simp), rest⟩

/-- Commands that wait have woken the event loop, or will. -/
structure Awaited (engine : Engine) : Prop where
  fifo : engine.Fifo
  woken : engine.cmdQueue ≠ [] → engine.asyncSent = true ∨ engine.loop = .callbacks true ∨
    engine.loop = .commands ∨ engine.app = .writing ∨ engine.app = .closing
  late : engine.app = .closing ∨ engine.app.isLate = true → Closing engine.pushed
  ended : engine.loop = .ended → engine.app.isLate = true ∧ engine.cmdQueue = []
  stopped : engine.isRunning = false → engine.loop = .ended
  returned : engine.app = .returned → engine.loop = .ended
  passed : engine.passed = engine.produced

theorem start_awaited (streamId : Nat) : (start streamId).Awaited where
  fifo := rfl
  woken waiting := (waiting rfl).elim
  late closing := by simp [start, AppPhase.isLate] at closing
  ended ended := by cases ended
  stopped stopped := by cases stopped
  returned returned := by cases returned
  passed := rfl

/-- The step leaves the commands and both threads as they are. -/
structure Still (engine next : Engine) : Prop where
  cmdQueue : next.cmdQueue = engine.cmdQueue
  pushed : next.pushed = engine.pushed
  executed : next.executed = engine.executed
  app : next.app = engine.app
  loop : next.loop = engine.loop
  asyncSent : next.asyncSent = engine.asyncSent
  isRunning : next.isRunning = engine.isRunning

theorem Awaited.still (awaited : engine.Awaited) (same : Still engine next) (passed : next.passed = next.produced) :
    next.Awaited where
  fifo := by
    rw [Fifo, same.pushed, same.executed, same.cmdQueue]
    exact awaited.fifo
  woken := by
    rw [same.cmdQueue, same.asyncSent, same.loop, same.app]
    exact awaited.woken
  late := by
    rw [same.app, same.pushed]
    exact awaited.late
  ended := by
    rw [same.loop, same.app, same.cmdQueue]
    exact awaited.ended
  stopped := by
    rw [same.isRunning, same.loop]
    exact awaited.stopped
  returned := by
    rw [same.app, same.loop]
    exact awaited.returned
  passed := passed

variable {socket order : List Nat} {calls : List SendResult}

theorem flushEgress_passed (before : engine.passed = engine.produced) (all : passesAll [] socket calls = true)
    (flushed : engine.flushEgress socket calls order = some next) : next.passed = next.produced := by
  obtain ⟨_, same⟩ := flushEgress_spec flushed
  subst same
  rw [passesAll_iff] at all
  simp only [before, all]

theorem flushEgress_still (flushed : engine.flushEgress socket calls order = some next) : Still engine next := by
  obtain ⟨_, same⟩ := flushEgress_spec flushed
  subst same
  exact ⟨rfl, rfl, rfl, rfl, rfl, rfl, rfl⟩

section

variable (awaited : engine.Awaited)

include awaited

theorem Awaited.write (idle : engine.app = .idle) (data : List UInt8) (fin : Bool) :
    (engine.write data fin).1.Awaited := by
  rw [Engine.write]
  split
  · exact awaited
  · exact {
      fifo := by
        have fifo := awaited.fifo
        rw [Fifo] at fifo ⊢
        simp only [push, fifo, List.append_assoc]
      woken := fun _ => .inr (.inr (.inr (.inl rfl)))
      late := fun closing => by simp [AppPhase.isLate] at closing
      ended := fun ended => by
        have late := (awaited.ended ended).1
        rw [idle] at late
        cases late
      stopped := awaited.stopped
      returned := fun returned => by cases returned
      passed := awaited.passed }

theorem Awaited.shutdown (idle : engine.app = .idle) (appError : Nat)
    (reason : List UInt8) : (engine.shutdown appError reason).Awaited := by
  have unended : engine.loop ≠ .ended := fun ended => by
    have late := (awaited.ended ended).1
    rw [idle] at late
    cases late
  rw [Engine.shutdown]
  split
  · exact {
      fifo := by
        have fifo := awaited.fifo
        rw [Fifo] at fifo ⊢
        simp only [push, fifo, List.append_assoc]
      woken := fun _ => .inr (.inr (.inr (.inr rfl)))
      late := fun _ => ⟨engine.pushed, _, _, rfl⟩
      ended := fun ended => (unended ended).elim
      stopped := awaited.stopped
      returned := fun returned => by cases returned
      passed := awaited.passed }
  · rename_i stopped
    exact (unended (awaited.stopped (Bool.eq_false_iff.mpr stopped))).elim

theorem Awaited.asyncSend (stepped : engine.step .asyncSend = some next) : next.Awaited := by
  rw [step] at stepped
  split at stepped
  · rename_i writing
    cases stepped
    exact {
      fifo := awaited.fifo
      woken := fun _ => .inl rfl
      late := fun closing => by simp [AppPhase.isLate] at closing
      ended := fun ended => by
        have late := (awaited.ended ended).1
        rw [writing] at late
        cases late
      stopped := awaited.stopped
      returned := fun returned => by cases returned
      passed := awaited.passed }
  · rename_i closing
    cases stepped
    exact {
      fifo := awaited.fifo
      woken := fun _ => .inl rfl
      late := fun _ => awaited.late (.inl closing)
      ended := fun ended => by
        have late := (awaited.ended ended).1
        rw [closing] at late
        cases late
      stopped := awaited.stopped
      returned := fun returned => by cases returned
      passed := awaited.passed }
  · cases stepped

theorem Awaited.endIteration (outlasts : engine.outlasts .endIteration = true)
    (stepped : engine.step .endIteration = some next) : next.Awaited := by
  rw [step, Option.ite_none_right_eq_some] at stepped
  obtain ⟨⟨loop, _⟩, stepped⟩ := stepped
  cases stepped
  have idle : engine.cmdQueue ≠ [] → engine.asyncSent = true ∨ engine.app = .writing ∨ engine.app = .closing := by
    intro waiting
    have woken := awaited.woken waiting
    simpa [loop] using woken
  exact {
    fifo := awaited.fifo
    woken := fun waiting => by
      rcases idle waiting with sent | app | app
      · exact .inl sent
      · exact .inr (.inr (.inr (.inl app)))
      · exact .inr (.inr (.inr (.inr app)))
    late := awaited.late
    ended := fun ended => by
      have done : engine.loopDone = true := by
        by_contra unbroken
        simp [unbroken] at ended
      rw [Engine.outlasts, done] at outlasts
      simp only [Bool.not_true, Bool.false_or, Bool.and_eq_true, Bool.not_eq_true', Bool.or_eq_true,
        beq_iff_eq, List.isEmpty_iff] at outlasts
      refine ⟨?_, ?_⟩
      · rcases outlasts.2 with app | app <;> simp [AppPhase.isLate, app]
      · by_contra waiting
        have woken := idle waiting
        have unsent := outlasts.1.resolve_right waiting
        rcases outlasts.2 with app | app <;> simp [unsent, app] at woken
    stopped := fun stopped => by
      have ended := awaited.stopped stopped
      rw [loop] at ended
      cases ended
    returned := fun returned => by
      have ended := awaited.returned returned
      rw [loop] at ended
      cases ended
    passed := awaited.passed }

theorem Awaited.processCommand {room : Nat}
    (commands : engine.loop = .commands) (all : passesAll [] socket calls = true)
    (processed : engine.processCommand room socket calls order = some next) : next.Awaited := by
  have running : engine.loop ≠ .ended := by simp [commands]
  have executed : ∀ cmd cmdQueue, engine.cmdQueue = cmd :: cmdQueue → ∀ outgoing loopDone,
      { engine with cmdQueue, executed := engine.executed ++ [cmd], outgoing, loopDone : Engine }.Awaited := by
    intro cmd cmdQueue queued outgoing loopDone
    exact {
      fifo := by
        have fifo := awaited.fifo
        rw [Fifo, queued] at fifo
        rw [Fifo]
        simp only [fifo, List.append_assoc, List.singleton_append]
      woken := fun _ => .inr (.inr (.inl commands))
      late := awaited.late
      ended := fun ended => (running ended).elim
      stopped := awaited.stopped
      returned := awaited.returned
      passed := awaited.passed }
  rw [Engine.processCommand] at processed
  split at processed
  · rename_i empty
    cases processed
    exact {
      fifo := awaited.fifo
      woken := fun waiting => (waiting empty).elim
      late := awaited.late
      ended := fun ended => by cases ended
      stopped := fun stopped => (running (awaited.stopped stopped)).elim
      returned := fun returned => (running (awaited.returned returned)).elim
      passed := awaited.passed }
  · rename_i cmd cmdQueue queued
    cases cmd with
    | write streamId data fin =>
      have before := executed _ _ queued (Function.update engine.outgoing streamId
        ((engine.outgoing streamId).streamSend room data fin)) engine.loopDone
      exact before.still (flushEgress_still processed) (flushEgress_passed before.passed all processed)
    | close errorCode reason =>
      have before := executed _ _ queued engine.outgoing engine.loopDone
      exact before.still (flushEgress_still processed) (flushEgress_passed before.passed all processed)
    | stop =>
      cases processed
      exact executed _ _ queued engine.outgoing true

theorem Awaited.step {op : Op} (outlasts : engine.outlasts op = true)
    (stepped : engine.step op = some next) : next.Awaited := by
  cases op with
  | write data fin =>
    rw [Engine.step, Option.ite_none_right_eq_some] at stepped
    obtain ⟨idle, stepped⟩ := stepped
    cases stepped
    exact awaited.write idle data fin
  | asyncSend => exact awaited.asyncSend stepped
  | read bufLen =>
    cases stepped
    exact awaited.still ⟨rfl, rfl, rfl, rfl, rfl, rfl, rfl⟩ awaited.passed
  | shutdown appError reason =>
    rw [Engine.step, Option.ite_none_right_eq_some] at stepped
    obtain ⟨idle, stepped⟩ := stepped
    cases stepped
    exact awaited.shutdown idle appError reason
  | breakLoop =>
    rw [Engine.step, Option.ite_none_right_eq_some] at stepped
    obtain ⟨breaking, stepped⟩ := stepped
    cases stepped
    have late := awaited.late (.inr (by rw [breaking]; rfl))
    exact {
      fifo := awaited.fifo
      woken := fun waiting => by simpa [breaking] using awaited.woken waiting
      late := fun _ => late
      ended := fun ended => ⟨rfl, (awaited.ended ended).2⟩
      stopped := awaited.stopped
      returned := fun returned => by cases returned
      passed := awaited.passed }
  | join =>
    rw [Engine.step, Option.ite_none_right_eq_some] at stepped
    obtain ⟨⟨joining, ended, _⟩, stepped⟩ := stepped
    cases stepped
    have late := awaited.late (.inr (by rw [joining]; rfl))
    exact {
      fifo := awaited.fifo
      woken := fun waiting => (waiting (awaited.ended ended).2).elim
      late := fun _ => late
      ended := fun ended => ⟨rfl, (awaited.ended ended).2⟩
      stopped := awaited.stopped
      returned := fun _ => ended
      passed := awaited.passed }
  | poll =>
    rw [Engine.step, Option.ite_none_right_eq_some] at stepped
    obtain ⟨polling, stepped⟩ := stepped
    cases stepped
    have running : engine.loop ≠ .ended := by simp [polling]
    exact {
      fifo := awaited.fifo
      woken := fun waiting => by simpa [polling, or_assoc] using awaited.woken waiting
      late := awaited.late
      ended := fun ended => by cases ended
      stopped := fun stopped => (running (awaited.stopped stopped)).elim
      returned := fun returned => (running (awaited.returned returned)).elim
      passed := awaited.passed }
  | recv id maxData maxWindow chunk =>
    rw [Engine.step, Option.ite_none_right_eq_some] at stepped
    obtain ⟨session, _, same⟩ := Option.map_eq_some_iff.mp stepped.2
    subst same
    exact awaited.still ⟨rfl, rfl, rfl, rfl, rfl, rfl, rfl⟩ awaited.passed
  | reset id errorCode finalSize =>
    rw [Engine.step, Option.ite_none_right_eq_some] at stepped
    obtain ⟨session, _, stepped⟩ := Option.bind_eq_some_iff.mp stepped.2
    obtain ⟨⟨recv, result⟩, _, same⟩ := Option.map_eq_some_iff.mp stepped
    subst same
    exact awaited.still ⟨rfl, rfl, rfl, rfl, rfl, rfl, rfl⟩ awaited.passed
  | raiseMaxData id maxData =>
    rw [Engine.step, Option.ite_none_right_eq_some] at stepped
    obtain ⟨session, _, same⟩ := Option.map_eq_some_iff.mp stepped.2
    subst same
    exact awaited.still ⟨rfl, rfl, rfl, rfl, rfl, rfl, rfl⟩ awaited.passed
  | flushEgress socket calls order =>
    rw [Engine.step, Option.ite_none_right_eq_some] at stepped
    exact awaited.still (flushEgress_still stepped.2) (flushEgress_passed awaited.passed outlasts stepped.2)
  | readFromQuicheToBuffer =>
    rw [Engine.step] at stepped
    split at stepped
    · cases stepped
    · rw [readFromQuicheToBuffer_spec stepped]
      exact awaited.still ⟨rfl, rfl, rfl, rfl, rfl, rfl, rfl⟩ awaited.passed
  | asyncCallback =>
    rw [Engine.step, Option.ite_none_right_eq_some] at stepped
    obtain ⟨⟨loop, _⟩, stepped⟩ := stepped
    cases stepped
    have running : engine.loop ≠ .ended := by simp [loop]
    exact {
      fifo := awaited.fifo
      woken := fun _ => .inr (.inr (.inl rfl))
      late := awaited.late
      ended := fun ended => by cases ended
      stopped := fun stopped => (running (awaited.stopped stopped)).elim
      returned := fun returned => (running (awaited.returned returned)).elim
      passed := awaited.passed }
  | processCommand room socket calls order =>
    rw [Engine.step, Option.ite_none_right_eq_some] at stepped
    exact awaited.processCommand stepped.1.1 outlasts stepped.2
  | connectionClosed =>
    rw [Engine.step, Option.ite_none_right_eq_some] at stepped
    obtain ⟨_, stepped⟩ := stepped
    cases stepped
    exact awaited.still ⟨rfl, rfl, rfl, rfl, rfl, rfl, rfl⟩ awaited.passed
  | endIteration => exact awaited.endIteration outlasts stepped
  | exit =>
    rw [Engine.step, Option.ite_none_right_eq_some] at stepped
    obtain ⟨ended, stepped⟩ := stepped
    cases stepped
    exact { awaited with stopped := fun _ => ended }

theorem Awaited.orderly : engine.Orderly where
  drained returned := (awaited.ended (awaited.returned returned)).2
  executed returned := by
    have fifo := awaited.fifo
    rw [Fifo, (awaited.ended (awaited.returned returned)).2, List.append_nil] at fifo
    exact ⟨fifo.symm, awaited.late (.inr (by rw [returned]; rfl))⟩
  passed := awaited.passed

end

/-- In a run whose loop outlasts the wake-up of `shutdown` and whose batches go to the socket
as a whole, shutdown is orderly. -/
theorem shutdown_orderly {streamId : Nat} {ops : List Op} {final : Engine}
    (outlasting : machine.Guarded (fun engine op => engine.outlasts op = true) (start streamId) ops)
    (completed : machine.run (start streamId) ops = some final) : final.Orderly := by
  have preserved : ∀ engine op next, engine.Awaited → engine.outlasts op = true →
      machine.step engine op = some next → next.Awaited :=
    fun _ _ _ awaited outlasts stepped => awaited.step outlasts stepped
  exact (machine.run_keeps_of_guarded preserved (start_awaited streamId) outlasting completed).orderly

/-- A write and a shutdown, with the loop in an iteration when `shutdown` is called. -/
def lateBreak (before after : List Op) : List Op :=
  [.write [1] true, .asyncSend, .poll, .asyncCallback, .processCommand 10 [0] [.packet [7], .done] [],
    .processCommand 10 [] [] []] ++ before ++ [.shutdown 0 [], .asyncSend, .breakLoop] ++ after ++
    [.endIteration, .exit, .join]

theorem shutdown_orderly_next_iteration : ∃ final, machine.run (start 4) (lateBreak [.endIteration]
      [.poll, .asyncCallback, .processCommand 10 [0] [.packet [8], .done] [], .processCommand 10 [] [] []]) =
        some final ∧ final.Orderly :=
  exists_reached_of (fun _ => True) (by decide +kernel) fun _ completed _ =>
    shutdown_orderly (by decide +kernel) completed

/-- The loop ends with the iteration that was under way, and `CLOSE` stays in the queue. -/
theorem lateBreak_queued : (machine.run (start 4) (lateBreak [] [])).any fun final =>
      final.app == .returned && final.cmdQueue == [.close 0 []] := by
  decide +kernel

end Engine

end Quiche
