import Quiche.Engine

namespace Quiche

open Data

namespace Command

def bytes (id : Nat) : Command → List UInt8
  | .write streamId data _ => if streamId = id then data else []
  | _ => []

def isWrite (id : Nat) : Command → Bool
  | .write streamId _ _ => streamId == id
  | _ => false

def isFin (id : Nat) : Command → Bool
  | .write streamId _ fin => streamId == id && fin
  | _ => false

def fits (room : Nat) : Command → Bool
  | .write _ data _ => data.length ≤ room
  | _ => true

variable {id : Nat} {cmd : Command}

theorem bytes_eq_nil (other : cmd.isWrite id = false) : cmd.bytes id = [] := by
  cases cmd with
  | write streamId data fin =>
    rw [isWrite, beq_eq_false_iff_ne] at other
    rw [bytes, if_neg other]
  | close errorCode reason => rfl
  | stop => rfl

end Command

namespace Engine

variable {engine next : Engine} {id : Nat}

def written (id : Nat) (cmds : List Command) : List UInt8 := cmds.flatMap (·.bytes id)

theorem written_append (id : Nat) (first second : List Command) :
    written id (first ++ second) = written id first ++ written id second := List.flatMap_append

/-- What was sent and what waits in the queue make up what was written, and FIN was sent only at its end. -/
structure Intact (engine : Engine) (id : Nat) : Prop where
  complete : (engine.outgoing id).sent ++ written id engine.cmdQueue = written id engine.pushed
  finLast : (engine.outgoing id).fin = true → (engine.outgoing id).sent = written id engine.pushed

def findsRoom (engine : Engine) : Op → Bool
  | .write _ _ => engine.pushed.all fun cmd => !cmd.isFin engine.streamId
  | .processCommand room _ _ _ => engine.cmdQueue.head?.all (·.fits room)
  | _ => true

/-- A `WRITE` command hands its bytes to its stream, any other command none. -/
def Handed (engine : Engine) (op : Op) (next : Engine) : Command → Prop
  | .write streamId data fin => ∃ room socket calls order, op = .processCommand room socket calls order ∧
      next.outgoing = Function.update engine.outgoing streamId
        ((engine.outgoing streamId).streamSend room data fin)
  | _ => next.outgoing = engine.outgoing

/-- A step adds one command, executes the first, or leaves them all. -/
inductive Commands (engine : Engine) (op : Op) (next : Engine) : Prop
  | kept (queue : next.cmdQueue = engine.cmdQueue) (pushed : next.pushed = engine.pushed)
      (executed : next.executed = engine.executed) (outgoing : next.outgoing = engine.outgoing)
  | added (cmd : Command) (queue : next.cmdQueue = engine.cmdQueue ++ [cmd])
      (pushed : next.pushed = engine.pushed ++ [cmd]) (executed : next.executed = engine.executed)
      (outgoing : next.outgoing = engine.outgoing)
      (writes : ∀ id, cmd.isWrite id = true → id = engine.streamId ∧ ∃ data fin, op = .write data fin)
  | done (cmd : Command) (queue : engine.cmdQueue = cmd :: next.cmdQueue)
      (pushed : next.pushed = engine.pushed) (executed : next.executed = engine.executed ++ [cmd])
      (outgoing : Handed engine op next cmd)

variable {socket order : List Nat} {calls : List SendResult} {streamId room : Nat}

theorem flushEgress_spec (flushed : engine.flushEgress socket calls order = some next) :
    engine.Readable order ∧ next = { engine with
      produced := engine.produced ++ (sendBatches [] socket calls).produced
      passed := engine.passed ++ (sendBatches [] socket calls).passed
      readable := if (sendBatches [] socket calls).completed then order else []
      flushed := true } := by
  rw [flushEgress] at flushed
  split at flushed
  · rename_i readable
    exact ⟨readable, (Option.some.inj flushed).symm⟩
  · cases flushed

theorem readFromQuicheToBuffer_spec (read : engine.readFromQuicheToBuffer streamId = some next) :
    next = { engine with incoming := next.incoming, streamBuffers := next.streamBuffers } := by
  rw [readFromQuicheToBuffer] at read
  split at read
  · cases read
    rfl
  · obtain ⟨⟨session, result⟩, _, same⟩ := Option.map_eq_some_iff.mp read
    subst same
    cases result <;> rfl

theorem processCommand_commands (processed : engine.processCommand room socket calls order = some next) :
    Commands engine (.processCommand room socket calls order) next := by
  rw [processCommand] at processed
  split at processed
  · cases processed
    exact .kept rfl rfl rfl rfl
  · rename_i cmd cmdQueue queued
    cases cmd with
    | write streamId data fin =>
      obtain ⟨_, same⟩ := flushEgress_spec processed
      subst same
      exact .done _ queued rfl rfl ⟨room, socket, calls, order, rfl, rfl⟩
    | close errorCode reason =>
      obtain ⟨_, same⟩ := flushEgress_spec processed
      subst same
      exact .done _ queued rfl rfl rfl
    | stop =>
      cases processed
      exact .done _ queued rfl rfl rfl

theorem step_commands {op : Op} (stepped : engine.step op = some next) : Commands engine op next := by
  cases op with
  | write data fin =>
    rw [step, Option.ite_none_right_eq_some] at stepped
    obtain ⟨_, stepped⟩ := stepped
    cases stepped
    rw [write]
    split
    · exact .kept rfl rfl rfl rfl
    · refine .added (.write engine.streamId data fin) rfl rfl rfl rfl fun id writes => ?_
      exact ⟨(beq_iff_eq.mp writes).symm, data, fin, rfl⟩
  | asyncSend =>
    rw [step] at stepped
    split at stepped <;> cases stepped <;> exact .kept rfl rfl rfl rfl
  | read bufLen =>
    cases stepped
    exact .kept rfl rfl rfl rfl
  | shutdown appError reason =>
    rw [step, Option.ite_none_right_eq_some] at stepped
    obtain ⟨_, stepped⟩ := stepped
    cases stepped
    rw [shutdown]
    split
    · refine .added _ rfl rfl rfl rfl fun id writes => ?_
      cases writes
    · exact .kept rfl rfl rfl rfl
  | recv id maxData maxWindow chunk =>
    rw [step, Option.ite_none_right_eq_some] at stepped
    obtain ⟨session, _, same⟩ := Option.map_eq_some_iff.mp stepped.2
    subst same
    exact .kept rfl rfl rfl rfl
  | reset id errorCode finalSize =>
    rw [step, Option.ite_none_right_eq_some] at stepped
    obtain ⟨session, _, stepped⟩ := Option.bind_eq_some_iff.mp stepped.2
    obtain ⟨⟨recv, result⟩, _, same⟩ := Option.map_eq_some_iff.mp stepped
    subst same
    exact .kept rfl rfl rfl rfl
  | raiseMaxData id maxData =>
    rw [step, Option.ite_none_right_eq_some] at stepped
    obtain ⟨session, _, same⟩ := Option.map_eq_some_iff.mp stepped.2
    subst same
    exact .kept rfl rfl rfl rfl
  | flushEgress socket calls order =>
    rw [step, Option.ite_none_right_eq_some] at stepped
    obtain ⟨_, same⟩ := flushEgress_spec stepped.2
    subst same
    exact .kept rfl rfl rfl rfl
  | readFromQuicheToBuffer =>
    rw [step] at stepped
    split at stepped
    · cases stepped
    · have kept := readFromQuicheToBuffer_spec stepped
      rw [kept]
      exact .kept rfl rfl rfl rfl
  | processCommand room socket calls order =>
    rw [step, Option.ite_none_right_eq_some] at stepped
    exact processCommand_commands stepped.2
  | breakLoop | join | poll | asyncCallback | connectionClosed | endIteration | exit =>
    rw [step, Option.ite_none_right_eq_some] at stepped
    obtain ⟨_, stepped⟩ := stepped
    cases stepped
    exact .kept rfl rfl rfl rfl

/-- Commands are executed once, in the order in which they were pushed. -/
def Fifo (engine : Engine) : Prop := engine.pushed = engine.executed ++ engine.cmdQueue

theorem Fifo.step {op : Op} (fifo : engine.Fifo) (stepped : engine.step op = some next) : next.Fifo := by
  rw [Fifo] at fifo ⊢
  cases step_commands stepped with
  | kept queue pushed executed outgoing => rw [queue, pushed, executed, fifo]
  | added cmd queue pushed executed outgoing writes => rw [queue, pushed, executed, fifo, List.append_assoc]
  | done cmd queue pushed executed outgoing =>
    rw [pushed, executed, fifo, queue, List.append_assoc, List.singleton_append]

/-- Commands are executed in order and each executed `WRITE` was taken whole. -/
structure Whole (engine : Engine) : Prop where
  fifo : engine.Fifo
  sent : ∀ id, (engine.outgoing id).sent = written id engine.executed
  fin : ∀ id, (engine.outgoing id).fin = true → ∃ cmd ∈ engine.executed, cmd.isFin id = true
  last : engine.pushed.Pairwise fun first second => ∀ id, first.isFin id = true → second.isWrite id = false

theorem start_whole (streamId : Nat) : (start streamId).Whole where
  fifo := rfl
  sent _ := rfl
  fin _ isFin := by cases isFin
  last := .nil

theorem streamSend_all {outgoing : Outgoing} {data : List UInt8} {fin : Bool}
    (roomy : data.length ≤ room) (unfinished : outgoing.fin = false) :
    outgoing.streamSend room data fin = ⟨outgoing.sent ++ data, fin⟩ := by
  rw [Outgoing.streamSend, if_neg (by omega), if_neg (by simp [unfinished]), List.take_of_length_le roomy,
    unfinished, Bool.false_or, decide_eq_true roomy, Bool.and_true]

theorem Whole.execute {cmd : Command} (whole : engine.Whole) (queue : engine.cmdQueue = cmd :: next.cmdQueue)
    (pushed : next.pushed = engine.pushed) (executed : next.executed = engine.executed ++ [cmd])
    (sent : ∀ id, (next.outgoing id).sent = (engine.outgoing id).sent ++ cmd.bytes id)
    (fin : ∀ id, (next.outgoing id).fin = true → (engine.outgoing id).fin = true ∨ cmd.isFin id = true) :
    next.Whole where
  fifo := by
    have fifo := whole.fifo
    rw [Fifo] at fifo ⊢
    rw [pushed, executed, fifo, queue, List.append_assoc, List.singleton_append]
  sent id := by
    rw [sent, whole.sent, executed, written_append]
    simp [written]
  fin id isFin := by
    rw [executed]
    rcases fin id isFin with before | ours
    · obtain ⟨earlier, member, isFin⟩ := whole.fin id before
      exact ⟨earlier, List.mem_append_left _ member, isFin⟩
    · exact ⟨cmd, List.mem_append_right _ (List.mem_singleton_self cmd), ours⟩
  last := by
    rw [pushed]
    exact whole.last

theorem Whole.step {op : Op} (whole : engine.Whole) (room : engine.findsRoom op = true)
    (stepped : engine.step op = some next) : next.Whole := by
  cases step_commands stepped with
  | kept queue pushed executed outgoing =>
    refine ⟨whole.fifo.step stepped, fun id => ?_, fun id => ?_, ?_⟩
    · rw [outgoing, executed]
      exact whole.sent id
    · rw [outgoing, executed]
      exact whole.fin id
    · rw [pushed]
      exact whole.last
  | added cmd queue pushed executed outgoing writes =>
    refine ⟨whole.fifo.step stepped, fun id => ?_, fun id => ?_, ?_⟩
    · rw [outgoing, executed]
      exact whole.sent id
    · rw [outgoing, executed]
      exact whole.fin id
    · rw [pushed, List.pairwise_append]
      refine ⟨whole.last, List.pairwise_singleton .., fun earlier member other same => ?_⟩
      rw [List.mem_singleton] at same
      subst same
      intro id isFin
      by_contra idle
      obtain ⟨rfl, data, fin, rfl⟩ := writes id ((Bool.not_eq_false _).mp idle)
      have unfinished := List.all_eq_true.mp room earlier member
      simp [isFin] at unfinished
  | done cmd queue pushed executed outgoing =>
    cases cmd with
    | write streamId data fin =>
      obtain ⟨space, socket, calls, order, rfl, outgoing⟩ := outgoing
      have fits : data.length ≤ space := by
        rw [findsRoom, queue, List.head?_cons, Option.all_some] at room
        exact of_decide_eq_true room
      have unfinished : (engine.outgoing streamId).fin = false := by
        by_contra finished
        obtain ⟨earlier, member, isFin⟩ := whole.fin streamId ((Bool.not_eq_false _).mp finished)
        have last := whole.last
        rw [whole.fifo, queue, List.pairwise_append] at last
        have other := last.2.2 earlier member _ List.mem_cons_self streamId isFin
        simp [Command.isWrite] at other
      rw [streamSend_all fits unfinished] at outgoing
      refine whole.execute queue pushed executed (fun id => ?_) (fun id => ?_)
      · rw [outgoing]
        by_cases same : id = streamId
        · subst same
          simp [Command.bytes]
        · rw [Function.update_of_ne same, Command.bytes, if_neg (Ne.symm same), List.append_nil]
      · rw [outgoing]
        by_cases same : id = streamId
        · subst same
          rw [Function.update_self]
          exact fun isFin => .inr (by simpa [Command.isFin] using isFin)
        · rw [Function.update_of_ne same]
          exact .inl
    | close errorCode reason =>
      have outgoing : next.outgoing = engine.outgoing := outgoing
      refine whole.execute queue pushed executed (fun id => ?_) (fun id => ?_)
      · rw [outgoing]
        exact (List.append_nil _).symm
      · rw [outgoing]
        exact .inl
    | stop =>
      have outgoing : next.outgoing = engine.outgoing := outgoing
      refine whole.execute queue pushed executed (fun id => ?_) (fun id => ?_)
      · rw [outgoing]
        exact (List.append_nil _).symm
      · rw [outgoing]
        exact .inl

theorem Whole.intact (whole : engine.Whole) (id : Nat) : engine.Intact id where
  complete := by rw [whole.sent, ← written_append, whole.fifo]
  finLast finished := by
    obtain ⟨earlier, member, isFin⟩ := whole.fin id finished
    have last := whole.last
    rw [whole.fifo, List.pairwise_append] at last
    have rest : written id engine.cmdQueue = [] :=
      List.flatMap_eq_nil_iff.mpr fun cmd queued => Command.bytes_eq_nil (last.2.2 earlier member cmd queued id isFin)
    rw [whole.sent, whole.fifo, written_append, rest, List.append_nil]

/-- In a run in which the transport has room for each command when it is executed, the write
path of every stream is intact. -/
theorem write_path_intact {ops : List Op} {final : Engine}
    (room : machine.Guarded (fun engine op => engine.findsRoom op = true) (start streamId) ops)
    (completed : machine.run (start streamId) ops = some final) (id : Nat) : final.Intact id := by
  have preserved : ∀ engine op next, engine.Whole → engine.findsRoom op = true →
      machine.step engine op = some next → next.Whole := fun _ _ _ whole room stepped => whole.step room stepped
  exact (machine.run_keeps_of_guarded preserved (start_whole streamId) room completed).intact id

def twoWrites (room : Nat) : List Op :=
  [.write [1, 2, 3, 4] false, .asyncSend, .write [5, 6] true, .asyncSend, .poll, .asyncCallback,
    .processCommand room [] [.done] [], .processCommand room [] [.done] []]

theorem write_path_intact_two : ∃ final, machine.run (start 4) (twoWrites 4) = some final ∧ final.Intact 4 := by
  obtain ⟨final, completed⟩ : ∃ final, machine.run (start 4) (twoWrites 4) = some final :=
    Option.isSome_iff_exists.mp (by decide +kernel)
  exact ⟨final, completed, write_path_intact (by decide +kernel) completed 4⟩

/-- With room for two bytes the rest of the first write is gone, and the FIN goes out without it. -/
theorem twoWrites_lost : (machine.run (start 4) (twoWrites 2)).any fun final =>
      decide (¬ (final.outgoing 4).sent <+: written 4 final.pushed) && (final.outgoing 4).fin := by
  decide +kernel

end Engine

end Quiche
