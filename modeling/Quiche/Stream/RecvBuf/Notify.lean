import Quiche.Stream.RecvBuf.Reassembly

namespace Quiche.RecvBuf

open Data

namespace Session

variable {session : Session}

/-- Calls of `emit` with the given capacities, one after the other. -/
def emits (caps : Nat → Nat) (count : Nat) : List Call := (List.range count).map fun place => .emit (caps place)

theorem emits_succ (caps : Nat → Nat) (count : Nat) :
    emits caps (count + 1) = .emit (caps 0) :: emits (fun place => caps (place + 1)) count := by
  simp [emits, List.range_succ_eq_map, Function.comp_def]

/-- The accepted chunks make up the whole stream of `size` bytes, its end included. -/
structure Complete (session : Session) (size : Nat) : Prop where
  covered : ∀ index, index < size → (firstByte session.accepted index).isSome
  ended : ∃ chunk ∈ session.accepted, chunk.fin ∧ chunk.maxOff = size

/-- Once everything arrived, the stream is readable and reading it reports the FIN. -/
def SignalsFin (session : Session) : Prop :=
  ∀ size, session.Complete size → session.finSeen = false → session.recv.ready = true ∧
      ∀ caps : Nat → Nat, (∀ place, 0 < caps place) → ∃ count final,
        machine.run session (emits caps count) = some final ∧ final.finSeen = true

/-- The call is not a FIN that comes on top of data that was all read already. The
early return of `write` for duplicate data drops such a FIN. -/
def Admits (session : Session) : Call → Prop
  | .write chunk => ¬ (chunk.fin ∧ chunk.bytes ≠ [] ∧ session.recv.finOff = none ∧
      chunk.maxOff = session.recv.off ∧ session.recv.off = session.recv.len)
  | .emit _ => True

/-- While the FIN is not reported, something is stored that ends where the stream ends. -/
structure FinKept (session : Session) : Prop where
  faithful : session.Faithful
  kept : session.finSeen = false → ∀ final, session.recv.finOff = some final → session.recv.EndsAt final

theorem FinKept.write {next : Session} {chunk : Chunk} (finKept : session.FinKept)
    (admitted : session.Admits (.write chunk)) (same : next.finSeen = session.finSeen)
    (nextFaithful : next.Faithful) (accepted : Accepted session.recv chunk.buf next.recv) : next.FinKept where
  faithful := nextFaithful
  kept := by
    intro unseen final known
    cases before : session.recv.finOff with
    | some earlier =>
      have unchanged := accepted.finOff_kept earlier before
      rw [known, Option.some.injEq] at unchanged
      subst unchanged
      exact accepted.ends final known
        (.inl (finKept.kept (same ▸ unseen) final before))
    | none =>
      refine accepted.ends final known (.inr ⟨before, ?_⟩)
      by_contra dropped
      obtain ⟨read, nonempty⟩ := not_or.mp dropped
      rw [Chunk.buf_maxOff] at read
      have isFin : chunk.fin = true := by
        by_contra plain
        rw [accepted.finOff, Chunk.buf_fin, if_neg plain, before] at known
        contradiction
      have ended : chunk.maxOff = final := by
        rw [accepted.finOff, Chunk.buf_fin, if_pos isFin, Chunk.buf_maxOff] at known
        exact Option.some.inj known
      have large := nextFaithful.valid.len_le_fin final known
      have grown := accepted.len_le
      have order := finKept.faithful.valid.off_le_len
      refine admitted ⟨isFin, ?_, before, by omega, by omega⟩
      intro empty
      exact nonempty (by simp [Chunk.buf, RangeBuf.isEmpty, empty])

theorem FinKept.emit {next : Session} {cap : Nat} {out : List UInt8} (finKept : session.FinKept)
    (seen : next.finSeen = (session.finSeen || next.recv.isFin))
    (nextFaithful : next.Faithful) (emitted : Emitted session.recv cap out next.recv) : next.FinKept where
  faithful := nextFaithful
  kept := by
    intro unseen final known
    rw [seen, Bool.or_eq_false_iff] at unseen
    have recorded := emitted.finOff ▸ known
    cases emitted.ends final recorded (finKept.kept unseen.1 final recorded) with
    | inl ends => exact ends
    | inr reached =>
      have reported : next.recv.isFin = true := by simp [isFin, known, reached]
      rw [reported] at unseen
      exact absurd unseen.2 (by decide)

theorem FinKept.step (finKept : session.FinKept) (call : Call) (admitted : session.Admits call) :
    ∃ next, session.step call = some next ∧ next.FinKept := by
  cases call with
  | write chunk =>
    obtain ⟨next, stepped, outcome⟩ := finKept.faithful.step_write chunk
    refine ⟨next, stepped, ?_⟩
    cases outcome with
    | inl same =>
      subst same
      exact finKept
    | inr recorded =>
      obtain ⟨history, same, unseen, accepted⟩ := recorded
      exact finKept.write admitted unseen (finKept.faithful.accept history same accepted) accepted
  | emit cap =>
    obtain ⟨next, stepped, history, outcome⟩ := finKept.faithful.step_emit cap
    refine ⟨next, stepped, ?_⟩
    cases outcome with
    | inl nothing =>
      obtain ⟨_, rfl⟩ := nothing
      exact finKept
    | inr written =>
      obtain ⟨out, _, extended, seen, emitted⟩ := written
      exact finKept.emit seen (finKept.faithful.deliver history extended emitted) emitted

theorem start_finKept (maxData maxWindow : UInt64) : (start maxData.toNat maxWindow.toNat).FinKept where
  faithful := start_faithful maxData maxWindow
  kept := by simp [start, RecvBuf.new]

theorem Complete.finOff {size : Nat} (complete : session.Complete size)
    (faithful : session.Faithful) : session.recv.finOff = some size := by
  obtain ⟨chunk, member, isFin, ended⟩ := complete.ended
  exact ended ▸ faithful.fin_recorded chunk member isFin

theorem Complete.off_le {size : Nat} (complete : session.Complete size)
    (faithful : session.Faithful) : session.recv.off ≤ size := Nat.le_trans faithful.valid.off_le_len
    (faithful.valid.len_le_fin size (complete.finOff faithful))

theorem FinKept.ready {size : Nat} (finKept : session.FinKept) (complete : session.Complete size)
    (unseen : session.finSeen = false) : session.recv.ready = true := by
  have valid := finKept.faithful.valid
  have known := complete.finOff finKept.faithful
  obtain ⟨last, member, ends⟩ := finKept.kept unseen size known
  by_contra idle
  rw [Bool.not_eq_true] at idle
  cases Nat.lt_or_ge session.recv.off size with
  | inl unread =>
    have missing := finKept.faithful.missing_of_not_ready idle
    have := complete.covered _ unread
    simp [missing] at this
  | inr read =>
    cases entries : session.recv.data.entries with
    | nil => simp [entries] at member
    | cons head rest =>
      obtain ⟨_, lower, upper⟩ := valid.first_facts entries
      have large := valid.len_le_fin size known
      have order := head.2.off_le_maxOff
      rw [ready_of_first entries, beq_eq_false_iff_ne] at idle
      exact idle (by omega)

theorem FinKept.reports {size : Nat} (finKept : session.FinKept) (complete : session.Complete size)
    (caps : Nat → Nat) (nonempty : ∀ place, 0 < caps place) :
    ∃ count final, machine.run session (emits caps count) = some final ∧ final.finSeen = true := by
  -- Every `emit` reports the end or delivers at least one of the bytes up to it.
  induction distance : size - session.recv.off using Nat.strong_induction_on
    generalizing session caps with
  | _ distance ih =>
    by_cases seen : session.finSeen = true
    · exact ⟨0, session, rfl, seen⟩
    rw [Bool.not_eq_true] at seen
    have readyNow := finKept.ready complete seen
    obtain ⟨next, count, stepped, gapFree, delivered⟩ := finKept.faithful.emit_exact (caps 0)
    obtain ⟨next', stepped', history, outcome⟩ := finKept.faithful.step_emit (caps 0)
    obtain rfl : next' = next := Option.some.inj (stepped'.symm.trans stepped)
    rcases outcome with ⟨idle, _⟩ | ⟨out, _, extended, reported, emitted⟩
    · exact absurd readyNow (by simp [idle])
    have nextFaithful := finKept.faithful.deliver history extended emitted
    have nextKept := finKept.emit reported nextFaithful emitted
    have nextComplete : next'.Complete size := ⟨history ▸ complete.covered, history ▸ complete.ended⟩
    have offset := emitted.off
    have within := nextComplete.off_le nextFaithful
    rw [extended, List.length_append] at delivered
    by_cases finished : next'.recv.off = size
    · refine ⟨1, next', ?_, ?_⟩
      · simp [emits, machine, Machine.run, stepped]
      · simp [reported, isFin, nextComplete.finOff nextFaithful, finished]
    · have progress : 0 < count := by
        cases Nat.eq_zero_or_pos count with
        | inl same =>
          subst same
          have missing : firstByte session.accepted session.recv.off = none := gapFree.2
          have unread : session.recv.off < size := by omega
          have present := complete.covered _ unread
          simp [missing] at present
        | inr positive => exact positive
      have room := nonempty 0
      obtain ⟨more, final, completed, reported⟩ := ih (size - next'.recv.off) (by omega)
        nextKept nextComplete (fun place => caps (place + 1)) (fun place => nonempty (place + 1)) rfl
      refine ⟨more + 1, final, ?_, reported⟩
      rw [emits_succ]
      simpa [Machine.run, machine, stepped] using completed

/-- In a run without a FIN on top of data that was already read, the end of the
stream is always reported. -/
theorem fin_signalled (maxData maxWindow : UInt64) (calls : List Call)
    (admitted : machine.Guarded Admits (start maxData.toNat maxWindow.toNat) calls) :
    ∃ session, machine.run (start maxData.toNat maxWindow.toNat) calls = some session ∧ session.SignalsFin := by
  obtain ⟨session, completed, finKept⟩ := machine.run_total_of_guarded
    (fun session call finKept admitted => FinKept.step finKept call admitted)
    (start_finKept maxData maxWindow) admitted
  exact ⟨session, completed, fun size complete unseen =>
    ⟨finKept.ready complete unseen, finKept.reports complete⟩⟩

/-- A FIN on its own, after all data was read, is reported. -/
theorem fin_signalled_after_read : ∃ session, machine.run (start (100 : UInt64).toNat (100 : UInt64).toNat)
      [.write ⟨[7, 8], 0, false, by decide⟩, .emit 10, .write ⟨[], 2, true, by decide⟩] =
        some session ∧ session.SignalsFin := fin_signalled 100 100 _ (by
    refine ⟨by simp [Admits], fun first firstStep => ⟨trivial, fun second secondStep => ⟨?_, ?_⟩⟩⟩
    · simp [Admits]
    · exact fun _ _ => trivial)

/-- The FIN repeated on the two bytes that were read is accepted and never reported. -/
theorem fin_lost_on_read_data : ∃ session, machine.run (start 100 100)
      [.write ⟨[7, 8], 0, false, by decide⟩, .emit 10, .write ⟨[7, 8], 0, true, by decide⟩] =
        some session ∧ ¬ session.SignalsFin := by
  refine ⟨_, rfl, fun signals => ?_⟩
  have idle := (signals 2 ⟨by decide, by decide⟩ (by decide)).1
  exact absurd idle (by decide)

end Session

section Reset

variable {recv : RecvBuf} {errorCode finalSize : Nat}

/-- The stream is readable, and reading it gives the error of the reset. -/
def NotifiesReset (recv : RecvBuf) (errorCode : Nat) : Prop :=
  recv.ready = true ∧ ∀ cap, ∃ next, recv.emit cap = some (next, .error (.streamReset errorCode))

theorem notifiesReset_iff (reset : recv.error = some errorCode) : recv.NotifiesReset errorCode ↔ recv.ready = true := by
  refine ⟨And.left, fun readyNow => ⟨readyNow, fun cap => ⟨{ recv with data := .empty }, ?_⟩⟩⟩
  simp [emit, readyNow, reset]

theorem writeLoop_empty_fin (open_ : recv.drain = false) (cleared : recv.data = .empty) (end_ : recv.off = finalSize) :
    writeLoop 1 recv [.fromBytes [] finalSize true] = some (recv.store (.fromBytes [] finalSize true)) := by
  have nothingRead : recv.discardRead (.fromBytes [] finalSize true) = some (.fromBytes [] finalSize true) :=
    if_neg (by simp [offFront, end_])
  have noOverlap : recv.handleOverlap (.fromBytes [] finalSize true) [] =
      some (some (.fromBytes [] finalSize true), []) := by
    rw [handleOverlap, if_pos (.inr rfl), cleared]
    rfl
  simp only [writeLoop, nothingRead, noOverlap, Option.bind_eq_bind, Option.bind_some, open_,
    Bool.false_eq_true, if_false, store]

theorem write_empty_fin (open_ : recv.drain = false) (cleared : recv.data = .empty)
    (unknown : recv.finOff = none) (end_ : recv.off = finalSize) (large : recv.len ≤ finalSize)
    (small : finalSize < 2 ^ 64) (limit : finalSize ≤ recv.maxData) : recv.write (.fromBytes [] finalSize true) =
      some ({ recv with finOff := some finalSize }.store (.fromBytes [] finalSize true), .ok ()) := by
  have noOverflow : ¬ (RangeBuf.fromBytes [] finalSize true).maxOff ≥ 2 ^ 64 := Nat.not_le.mpr small
  have within : ¬ (RangeBuf.fromBytes [] finalSize true).maxOff > recv.maxData := Nat.not_lt.mpr limit
  have enough : ¬ finalSize < recv.len := by omega
  have stored : writeLoop 1 { recv with finOff := some finalSize } [.fromBytes [] finalSize true] = _ :=
    writeLoop_empty_fin open_ cleared end_
  rw [write, if_neg noOverflow, if_neg within]
  simp [enough, unknown, stored]

theorem write_empty_known {known : Nat} (same : recv.finOff = some known) {result : Except Error Unit} {next : RecvBuf}
    (written : recv.write (.fromBytes [] finalSize true) = some (next, result)) : next = recv := by
  simp only [write, same, RangeBuf.fromBytes_isEmpty, List.length_nil, BEq.rfl, Option.isSome_some,
    and_self, if_true] at written
  repeat' split at written
  all_goals simp_all

theorem reset_ok {next : RecvBuf} {delta : Nat} (alive : recv.error = none)
    (reset : recv.reset errorCode finalSize = some (next, .ok delta)) :
    recv.len ≤ finalSize ∧ { recv with error := some errorCode, off := finalSize, data := .empty }.write
        (.fromBytes [] finalSize true) = some (next, .ok ()) := by
  simp only [RecvBuf.reset, alive, Option.isSome_none, Bool.false_eq_true, if_false] at reset
  split at reset
  · simp at reset
  split at reset
  · simp at reset
  rename_i _ large
  refine ⟨Nat.not_lt.mp large, ?_⟩
  obtain ⟨⟨written, result⟩, wrote, outcome⟩ := Option.bind_eq_some_iff.mp reset
  cases result with
  | error error => simp at outcome
  | ok _ =>
    simp only [Option.some.injEq, Prod.mk.injEq] at outcome
    rw [wrote, outcome.1]

/-- The application learns of a reset exactly when the final size was not known
before: otherwise `write` returns before it stores the zero-length buffer. -/
theorem reset_notifies_iff {next : RecvBuf} {delta : Nat} (open_ : recv.drain = false) (alive : recv.error = none)
    (reset : recv.reset errorCode finalSize = some (next, .ok delta)) :
    next.NotifiesReset errorCode ↔ recv.finOff = none := by
  obtain ⟨large, written⟩ := reset_ok alive reset
  generalize cleared : { recv with error := some errorCode, off := finalSize, data := .empty } = middle
    at written
  have middleFin : middle.finOff = recv.finOff := by rw [← cleared]
  have middleData : middle.data = .empty := by rw [← cleared]
  have middleError : middle.error = some errorCode := by rw [← cleared]
  cases known : recv.finOff with
  | some final =>
    obtain rfl := write_empty_known (middleFin.trans known) written
    rw [notifiesReset_iff middleError]
    simp [ready, middleData, OrderedMap.first?, OrderedMap.empty]
  | none =>
    have small : finalSize < 2 ^ 64 := by
      by_contra overflow
      have huge : (RangeBuf.fromBytes [] finalSize true).maxOff ≥ 2 ^ 64 := Nat.not_lt.mp overflow
      rw [write, if_pos huge] at written
      contradiction
    have limit : finalSize ≤ middle.maxData := by
      by_contra beyond
      have fits : ¬ (RangeBuf.fromBytes [] finalSize true).maxOff ≥ 2 ^ 64 := Nat.not_le.mpr small
      have beyondLimit : (RangeBuf.fromBytes [] finalSize true).maxOff > middle.maxData := Nat.not_le.mp beyond
      rw [write, if_neg fits, if_pos beyondLimit] at written
      simp at written
    have stored := write_empty_fin (show middle.drain = false by rw [← cleared]; exact open_) middleData
      (middleFin.trans known) (by rw [← cleared]) (by rw [← cleared]; exact large) small limit
    rw [stored, Option.some.injEq, Prod.mk.injEq] at written
    obtain ⟨rfl, _⟩ := written
    rw [notifiesReset_iff (by exact middleError)]
    have endOffset : middle.off = finalSize := by rw [← cleared]
    simp [ready, store, middleData, OrderedMap.first?, OrderedMap.empty, OrderedMap.insert,
      OrderedMap.insertEntry, endOffset]

def resetAtTen : RecvBuf :=
  { RecvBuf.new 100 100 with
    error := some 42
    off := 10
    len := 10
    finOff := some 10
    data := OrderedMap.empty.insert 10 (.fromBytes [] 10 true) }

theorem reset_notifies_at_ten : (RecvBuf.new 100 100).reset 42 10 = some (resetAtTen, .ok 10) ∧
      (resetAtTen.NotifiesReset 42 ↔ (RecvBuf.new 100 100).finOff = none) :=
  have done : (RecvBuf.new 100 100).reset 42 10 = some (resetAtTen, .ok 10) := by decide
  ⟨done, reset_notifies_iff rfl rfl done⟩

/-- A reset after the FIN was received: `reset` succeeds and nobody is told. -/
theorem reset_lost_after_fin :
    ∃ recv next delta, (RecvBuf.new 100 100).write (.fromBytes [7, 8] 0 true) = some (recv, .ok ()) ∧
      recv.drain = false ∧ recv.error = none ∧ recv.reset 42 2 = some (next, .ok delta) ∧ ¬ next.NotifiesReset 42 := by
  refine ⟨_, _, _, rfl, rfl, rfl, rfl, fun notified => ?_⟩
  exact absurd notified.1 (by decide)

end Reset

end Quiche.RecvBuf
