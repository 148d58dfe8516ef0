import Quiche.Stream.SendBuf.Delivery

namespace Quiche.SendBuf

open Data

variable {stream : List UInt8} {send : SendBuf}

section OffFront

theorem Valid.not_unread (valid : Valid stream send) (finished : send.offFront = send.off)
    (place : Nat) : ¬ Unread send.data place := by
  obtain ⟨base, _, queue⟩ := valid.contiguous
  apply not_unread_of_isEmpty
  intro buf member
  rw [← List.take_append_drop send.pos send.data] at member
  cases List.mem_append.mp member with
  | inl passed => exact valid.consumed buf passed
  | inr ahead =>
    by_contra waits
    rw [offFront] at finished
    cases found : (send.data.drop send.pos).find? fun buf => !buf.isEmpty with
    | none =>
      have empty := List.find?_eq_none.mp found buf ahead
      simp [waits] at empty
    | some first =>
      rw [found] at finished
      have nonempty := List.find?_some found
      have inside := (queue.bounds first (List.mem_of_mem_drop (List.mem_of_find?_eq_some found))).2
      have order := first.off_le_maxOff
      have same : first.off = first.maxOff := by
        simp only at finished
        omega
      simp [RangeBuf.isEmpty_iff.mpr same] at nonempty

theorem offFront_eq_off (allRead : ∀ place, ¬ Unread send.data place) : send.offFront = send.off := by
  rw [offFront]
  cases found : (send.data.drop send.pos).find? fun buf => !buf.isEmpty with
  | none => rfl
  | some first =>
    have nonempty := List.find?_some found
    have order := first.off_le_maxOff
    have differ : first.off ≠ first.maxOff := by
      intro same
      simp [RangeBuf.isEmpty_iff.mpr same] at nonempty
    exact absurd ⟨first, List.mem_of_mem_drop (List.mem_of_find?_eq_some found), Nat.le_refl _,
      by omega⟩ (allRead first.off)

end OffFront

namespace Session

variable {session : Session}

section Drain

/-- Calls of `emit` with the given capacities, one after the other. -/
def emits (caps : Nat → Nat) (count : Nat) : List Call := (List.range count).map fun place => .emit (caps place)

theorem emits_succ (caps : Nat → Nat) (count : Nat) :
    emits caps (count + 1) = .emit (caps 0) :: emits (fun place => caps (place + 1)) count := by
  simp [emits, List.range_succ_eq_map, Function.comp_def]

/-- `emit` is called until it writes nothing: the frames it writes before that carry
every offset of `wanted`, and nothing waits afterwards. -/
def Drains (session : Session) (caps : Nat → Nat) (wanted : Nat → Prop) : Prop :=
  ∃ (sent : List SentFrame) (final : Session) (fin : Bool),
    machine.run session (emits caps (sent.length + 1)) = some final ∧
    final.log = .emitted ⟨final.send.off, 0, fin⟩ :: (sent.map .emitted ++ session.log) ∧
    (∀ frame ∈ sent, 0 < frame.len) ∧ (∀ place, wanted place → ∃ frame ∈ sent, frame.Covers place) ∧
    final.send.offFront = final.send.off

theorem Faithful.drains (faithful : session.Faithful) (caps : Nat → Nat)
    (nonempty : ∀ place, 0 < caps place) : session.Drains caps (Unread session.send.data) := by
  -- Every `emit` that writes something leaves fewer bytes waiting.
  induction waiting : unreadLen session.send.data using Nat.strong_induction_on
    generalizing session caps with
  | _ stillWaits ih =>
    obtain ⟨next, out, fin, written, valid, emitted⟩ := emit_spec faithful.valid (caps 0)
    have kept := faithful.emit valid emitted
    have stepped : machine.step session (.emit (caps 0)) = some { session with
        send := next, log := .emitted ⟨session.send.offFront, out.length, fin⟩ :: session.log } := by
      simp [machine, Session.step, written]
    have size := emitted.unreadLen_eq
    by_cases empty : out = []
    · subst empty
      have finished : session.send.offFront = session.send.off :=
        (emitted.progress rfl).resolve_left (Nat.ne_of_gt (nonempty 0))
      have nothing := faithful.valid.not_unread finished
      refine ⟨[], { session with
        send := next, log := .emitted ⟨session.send.offFront, 0, fin⟩ :: session.log }, fin, ?_, ?_,
        by simp, fun place waits => absurd waits (nothing place), ?_⟩
      · rw [List.length_nil, emits_succ, Machine.run, stepped]
        rfl
      · simp [finished, emitted.off]
      · exact offFront_eq_off fun place waits => nothing place ((emitted.unread place).mp waits).1
    · have positive : 0 < out.length := List.length_pos_of_ne_nil empty
      obtain ⟨sent, final, last, completed, logged, sizes, covered, finished⟩ :=
        ih (unreadLen next.data) (by omega) kept (fun place => caps (place + 1))
          (fun place => nonempty (place + 1)) rfl
      refine ⟨sent ++ [⟨session.send.offFront, out.length, fin⟩], final, last, ?_, ?_, ?_, ?_, finished⟩
      · rw [List.length_append, List.length_singleton, emits_succ, Machine.run, stepped,
          Option.bind_some, completed]
      · simpa using logged
      · intro frame member
        cases List.mem_append.mp member with
        | inl later => exact sizes frame later
        | inr first =>
          rw [List.mem_singleton.mp first]
          exact positive
      · intro place waits
        by_cases now : session.send.offFront ≤ place ∧ place < session.send.offFront + out.length
        · exact ⟨_, List.mem_append_right _ (List.mem_singleton_self _), now⟩
        · obtain ⟨frame, member, covers⟩ := covered place ((emitted.unread place).mpr ⟨waits, now⟩)
          exact ⟨frame, List.mem_append_left _ member, covers⟩

theorem covered_of_lt_firstStop {ranges : List (Nat × Nat)} {place : Nat}
    (below : place < firstStop ranges) : Covered ranges place := by
  unfold firstStop at below
  split at below
  · exact ⟨_, List.mem_cons_self, Nat.zero_le _, below⟩
  · exact absurd below (Nat.not_lt_zero _)

theorem Faithful.unread_of_owed (faithful : session.Faithful) {place : Nat}
    (owed : session.Owed place) : Unread session.send.data place := by
  obtain ⟨inside, never | ⟨lost, above⟩⟩ := owed
  · refine faithful.waiting place inside (Nat.not_lt.mp fun below => ?_) (.inl never)
    obtain ⟨frame, member, covers⟩ := faithful.covered place (covered_of_lt_firstStop below)
    exact never frame member covers
  · exact faithful.waiting place inside above (.inr lost)

/-- In every state that a run reaches, flow control admits all queued data, and
calling `emit` until it writes nothing sends all that is owed. -/
theorem owed_data_drains (maxData : Varint) (calls : List Call) :
    ∃ session, machine.run (start maxData) calls = some session ∧ session.send.off ≤ session.send.maxData ∧
      ∀ caps : Nat → Nat, (∀ place, 0 < caps place) → session.Drains caps session.Owed := by
  obtain ⟨session, completed, faithful⟩ := run_faithful maxData calls
  refine ⟨session, completed, faithful.valid.off_le, ?_⟩
  intro caps nonempty
  obtain ⟨sent, final, fin, done, logged, sizes, covered, finished⟩ := faithful.drains caps nonempty
  exact ⟨sent, final, fin, done, logged, sizes,
    fun place owed => covered place (faithful.unread_of_owed owed), finished⟩

end Drain

section Complete

/-- The buffer is only complete when a frame with FIN was acknowledged. -/
def CompleteOnlyOnFin (session : Session) : Prop :=
  session.send.isComplete = true → ∃ frame, .acked frame ∈ session.log ∧ frame.fin = true

/-- An empty write with FIN does not come when all data was emitted without it. -/
def Admits (session : Session) (call : Call) : Prop := call.request = some (0, true) → session.send.finOff = none →
    ∀ frame ∈ frames session.log, frame.maxOff ≠ session.send.off

/-- Each frame that reaches the final size carries FIN. -/
structure FinSent (session : Session) : Prop where
  faithful : session.Faithful
  carried : ∀ final, session.send.finOff = some final →
    ∀ frame ∈ frames session.log, frame.maxOff = final → frame.fin = true

theorem FinSent.append {next : SendBuf} {len : Nat} {fin : Bool} {bytes : List UInt8} {call : Call}
    (finSent : session.FinSent) (admitted : session.Admits call) (request : call.request = some (len, fin))
    (appended : Appended session.send len fin bytes next) :
    ∀ final, next.finOff = some final → ∀ frame ∈ frames session.log, frame.maxOff = final → frame.fin = true := by
  intro final known frame member ends
  cases appended.finOff with
  | inl same => exact finSent.carried final (same ▸ known) frame member ends
  | inr learned =>
    obtain ⟨isFin, whole, recorded⟩ := learned
    rw [recorded, Option.some.injEq, appended.off] at known
    have within := finSent.faithful.sent_le frame member
    cases old : session.send.finOff with
    | some earlier =>
      have atEnd := finSent.faithful.valid.finOff_eq earlier old
      exact finSent.carried earlier old frame member (by omega)
    | none =>
      -- A frame that ends at the new final offset was sent before: nothing was added.
      have nothing : len = 0 := by omega
      subst nothing isFin
      exact absurd (by omega) (admitted request old frame member)

theorem FinSent.step (finSent : session.FinSent) (call : Call) (admitted : session.Admits call) :
    ∃ next, session.step call = some next ∧ next.FinSent := by
  obtain ⟨next, stepped, faithful, outcome⟩ := finSent.faithful.step call
  refine ⟨next, stepped, faithful, ?_⟩
  cases outcome with
  | unchanged call => exact finSent.carried
  | appended request result => exact finSent.append admitted request result
  | emitted result =>
    intro final known frame member ends
    rw [result.finOff] at known
    cases List.mem_cons.mp member with
    | inl same =>
      subst same
      exact result.fin_iff.mpr (known.trans (congrArg some ends.symm))
    | inr member => exact finSent.carried final known frame member ends
  | acked sent result =>
    intro final known
    exact finSent.carried final (result.finOff ▸ known)
  | lost result =>
    intro final known
    exact finSent.carried final (result.finOff ▸ known)
  | limit limit => exact finSent.carried

theorem start_finSent (maxData : Varint) : (start maxData).FinSent where
  faithful := start_faithful maxData
  carried := by simp [start, new]

theorem FinSent.completeOnlyOnFin (finSent : session.FinSent) : session.CompleteOnlyOnFin := by
  intro complete
  rw [isComplete] at complete
  cases known : session.send.finOff with
  | none => simp [known] at complete
  | some final =>
    rw [known] at complete
    have whole := RangeSet.eqRange_iter complete
    obtain ⟨frame, logged, ends⟩ := finSent.faithful.ends (0, final) (by simp [whole])
    exact ⟨frame, logged, finSent.carried final known frame (finSent.faithful.acked_sent frame logged) ends⟩

/-- In a run without a write of the end alone after all data was sent, a stream is
complete only when a frame with its end was acknowledged. -/
theorem complete_only_on_fin (maxData : Varint) (calls : List Call)
    (admitted : machine.Guarded Admits (start maxData) calls) :
    ∃ session, machine.run (start maxData) calls = some session ∧ session.CompleteOnlyOnFin := by
  obtain ⟨session, completed, finSent⟩ := machine.run_total_of_guarded
    (fun session call finSent admitted => FinSent.step finSent call admitted)
    (start_finSent maxData) admitted
  exact ⟨session, completed, finSent.completeOnlyOnFin⟩

/-- The end goes out with the data. -/
theorem complete_with_data : ∃ session, machine.run (start ⟨100, by decide⟩)
      [.write [104, 105] true, .emit 10, .ackAndDrop 0] = some session ∧ session.CompleteOnlyOnFin :=
  complete_only_on_fin ⟨100, by decide⟩ _ (by
    refine ⟨by simp [Admits, Call.request], fun first firstStep => ⟨by simp [Admits, Call.request], ?_⟩⟩
    exact fun second secondStep => ⟨by simp [Admits, Call.request], fun _ _ => trivial⟩)

/-- The end is written after the data was sent and acknowledged: the stream is
complete, and no frame with the end was ever sent. -/
theorem complete_without_fin : ∃ session, machine.run (start ⟨100, by decide⟩)
      [.write [104, 105] false, .emit 10, .ackAndDrop 0, .write [] true] = some session ∧
        ¬ session.CompleteOnlyOnFin := by
  refine ⟨_, rfl, ?_⟩
  intro onlyOnFin
  obtain ⟨frame, logged, isFin⟩ := onlyOnFin (by decide)
  change Event.acked frame ∈ [.acked ⟨0, 2, false⟩, .emitted ⟨0, 2, false⟩] at logged
  obtain rfl : frame = ⟨0, 2, false⟩ := by simpa using logged
  contradiction

end Complete

end Session

end Quiche.SendBuf
