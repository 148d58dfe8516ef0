import Quiche.Stream.RecvBuf.Length
import Quiche.Stream.RecvBuf.Notify

namespace Quiche.RecvBuf

open Data

variable {recv next : RecvBuf} {errorCode finalSize delta : Nat}

/-- What holds of a receive buffer whatever was called before, resets and shutdowns included. -/
structure Settled (recv : RecvBuf) : Prop where
  valid : recv.Valid
  counted : recv.flowControl.consumed ≤ recv.off
  final : ∀ finOff ∈ recv.finOff, finOff = recv.len
  known : recv.error.isSome → recv.finOff.isSome
  drained : recv.drain = true → recv.data = .empty

theorem new_settled (maxData maxWindow : UInt64) : (RecvBuf.new maxData.toNat maxWindow.toNat).Settled where
  valid := (Session.start_faithful maxData maxWindow).valid
  counted := Nat.le_refl 0
  final := by simp [RecvBuf.new]
  known := by simp [RecvBuf.new]
  drained := by simp [RecvBuf.new]

theorem Settled.spans (settled : recv.Settled) : recv.Spans :=
  ⟨settled.valid.received, settled.valid.off_le_len, settled.final⟩

theorem valid_of_empty (cleared : recv.data = .empty) (off : recv.off ≤ recv.len)
    (final : ∀ finOff ∈ recv.finOff, finOff = recv.len) (limit : recv.len ≤ recv.maxData)
    (bound : recv.maxData < 2 ^ 64) : recv.Valid := by
  refine ⟨?_, ?_, ?_, ?_, ?_, off, fun finOff known => Nat.le_of_eq (final finOff known).symm, limit, bound⟩
  all_goals simp [cleared, OrderedMap.empty]

/-- The length does not shrink, and a known final size stays. -/
structure Grows (recv next : RecvBuf) : Prop where
  settled : next.Settled
  len_le : recv.len ≤ next.len
  finOff : ∀ size ∈ recv.finOff, next.finOff = some size

theorem Grows.refl (settled : recv.Settled) : Grows recv recv := ⟨settled, Nat.le_refl _, fun _ known => known⟩

theorem Grows.trans {middle : RecvBuf} (earlier : Grows recv middle) (later : Grows middle next) : Grows recv next where
  settled := later.settled
  len_le := Nat.le_trans earlier.len_le later.len_le
  finOff := fun size known => later.finOff size (earlier.finOff size known)

section Write

variable {buf : RangeBuf}

theorem Lengthened.len_le (lengthened : Lengthened recv buf next) : recv.len ≤ next.len := by
  rw [lengthened.len]
  split
  · exact Nat.le_refl _
  · exact Nat.le_max_left _ _

theorem Lengthened.finOff_kept (lengthened : Lengthened recv buf next)
    (final : ∀ finOff ∈ recv.finOff, finOff = recv.len) : ∀ size ∈ recv.finOff, next.finOff = some size := by
  intro size known
  have isKnown : recv.finOff.isSome := Option.isSome_iff_exists.mpr ⟨size, known⟩
  obtain ⟨later, same⟩ := Option.isSome_iff_exists.mp (lengthened.finOff (.inr isKnown))
  have within := lengthened.known isKnown
  have len : next.len = recv.len := by
    rw [lengthened.len]
    split
    · rfl
    · exact Nat.max_eq_left within
  rw [same, lengthened.final later same, final size known, len]

theorem writeLoop_cleared (fuel : Nat) (cleared : recv.data = .empty)
    (fresh : buf.off = buf.viewOff) (reach : recv.off ≤ buf.maxOff) :
    ∃ next, writeLoop (fuel + 1) recv [buf] = some next := by
  have unread : ∃ part, recv.discardRead buf = some part := by
    rw [discardRead]
    split
    · rename_i behind
      rw [offFront] at behind ⊢
      obtain ⟨front, back, splitted, _⟩ := splitOff_cut fresh (Nat.le_of_lt behind) reach
      exact ⟨back, by rw [splitted]; rfl⟩
    · exact ⟨buf, rfl⟩
  obtain ⟨part, discarded⟩ := unread
  have alone : recv.handleOverlap part [] = some (some part, []) := by
    rw [handleOverlap, cleared]
    split <;> rfl
  rw [writeLoop]
  simp only [discarded, alone, Option.bind_eq_bind, Option.bind_some]
  cases fuel with
  | zero => exact ⟨_, rfl⟩
  | succ fuel => exact ⟨_, rfl⟩

theorem Settled.write_drained (settled : recv.Settled) (drained : recv.drain = true)
    (fresh : buf.off = buf.viewOff) (bound : buf.maxOff < 2 ^ 64) :
    ∃ next result, recv.write buf = some (next, result) := by
  rcases write_admission recv buf bound with ⟨error, refused⟩ | ⟨admitted, accepted⟩
  · exact ⟨recv, .error error, refused⟩
  rw [accepted]
  split
  · exact ⟨_, _, rfl⟩
  split
  · exact ⟨_, _, rfl⟩
  split
  · exact ⟨_, _, rfl⟩
  · rename_i _ plain duplicate
    rw [mark_off] at duplicate
    have reach : (recv.mark buf).off ≤ buf.maxOff := by
      rw [mark_off]
      by_cases empty : buf.isEmpty = true
      · have isFin : buf.fin = true := by
          by_contra notFin
          exact plain ⟨notFin, empty⟩
        exact Nat.le_trans settled.valid.off_le_len (admitted.received isFin)
      · exact Nat.le_of_not_le fun beyond => duplicate ⟨beyond, empty⟩
    obtain ⟨next, looped⟩ := writeLoop_cleared buf.len
      ((mark_data recv buf).trans (settled.drained drained)) fresh reach
    exact ⟨next, .ok (), by rw [looped]; rfl⟩

theorem Admitted.write_eq (admitted : Admitted recv buf) (bound : buf.maxOff < 2 ^ 64) :
    recv.write buf = if recv.finOff.isSome ∧ buf.isEmpty then some (recv, .ok ())
      else if ¬ buf.fin ∧ buf.isEmpty then some (recv.mark buf, .ok ())
      else if (recv.mark buf).off ≥ buf.maxOff ∧ ¬ buf.isEmpty then some (recv.mark buf, .ok ())
      else (writeLoop (buf.len + 1) (recv.mark buf) [buf]).map (·, .ok ()) := by
  have limit : ¬ buf.maxOff > recv.maxData := Nat.not_lt.mpr admitted.limit
  have within : ¬ recv.finOff.any (buf.maxOff > ·) = true := by
    cases known : recv.finOff with
    | none => simp
    | some final => simpa using admitted.within final known
  have sameFin : ¬ recv.finOff.any (buf.fin && · != buf.maxOff) = true := by
    cases known : recv.finOff with
    | none => simp
    | some final => simpa using fun isFin => admitted.sameFin isFin final known
  have received : ¬ (buf.fin ∧ buf.maxOff < recv.len) := fun both => Nat.not_lt.mpr (admitted.received both.1) both.2
  rw [RecvBuf.write, if_neg (Nat.not_le.mpr bound), if_neg limit, if_neg within, if_neg sameFin, if_neg received]
  rfl

theorem Admitted.write_ok (admitted : Admitted recv buf) (bound : buf.maxOff < 2 ^ 64) {error : Error} :
    recv.write buf ≠ some (next, .error error) := by
  intro failed
  rw [admitted.write_eq bound] at failed
  split at failed
  · cases failed
  split at failed
  · cases failed
  split at failed
  · cases failed
  · obtain ⟨_, _, same⟩ := Option.map_eq_some_iff.mp failed
    cases same

theorem write_failed {error : Error} (failed : recv.write buf = some (next, .error error)) : next = recv := by
  by_cases bound : buf.maxOff < 2 ^ 64
  · rcases write_admission recv buf bound with ⟨other, refused⟩ | ⟨admitted, _⟩
    · cases refused.symm.trans failed
      rfl
    · exact absurd failed (admitted.write_ok bound)
  · rw [RecvBuf.write, if_pos (Nat.not_lt.mp bound)] at failed
    cases failed

theorem Settled.write (settled : recv.Settled) (fresh : buf.off = buf.viewOff) (bound : buf.maxOff < 2 ^ 64) :
    ∃ next result, recv.write buf = some (next, result) ∧ Grows recv next ∧
      ∀ error, result = .error error → next = recv := by
  have returned : ∃ next result, recv.write buf = some (next, result) ∧
      (result = .ok () → recv.drain = false → next.Valid) := by
    cases draining : recv.drain with
    | true =>
      obtain ⟨next, result, written⟩ := settled.write_drained draining fresh bound
      exact ⟨next, result, written, fun _ open_ => absurd open_ (by simp)⟩
    | false =>
      obtain ⟨next, result, written, outcome⟩ := write_spec buf settled.valid draining fresh bound
      refine ⟨next, result, written, fun ok _ => ?_⟩
      rcases outcome with ⟨error, failed, _⟩ | ⟨_, accepted⟩
      · rw [failed] at ok
        cases ok
      · exact accepted.valid
  obtain ⟨next, result, written, stored⟩ := returned
  refine ⟨next, result, written, ?_⟩
  cases result with
  | error error =>
    have same := write_failed written
    subst same
    exact ⟨.refl settled, fun _ _ => rfl⟩
  | ok nothing =>
    obtain ⟨spans, lengthened⟩ := settled.spans.write written
    rcases write_admission recv buf bound with ⟨error, refused⟩ | ⟨admitted, _⟩
    · cases refused.symm.trans written
    refine ⟨⟨⟨?_, ?_, spans.final, ?_, ?_⟩, lengthened.len_le, lengthened.finOff_kept settled.final⟩, nofun⟩
    · cases draining : recv.drain with
      | false => exact stored rfl draining
      | true =>
        have limit : next.len ≤ next.maxData := by
          rw [RecvBuf.maxData, lengthened.flowControl, lengthened.len]
          split
          · exact settled.valid.len_le_maxData
          · exact Nat.max_le.mpr ⟨settled.valid.len_le_maxData, admitted.limit⟩
        refine valid_of_empty ?_ spans.off_le spans.final limit ?_
        · rw [lengthened.drained draining, settled.drained draining]
        · rw [RecvBuf.maxData, lengthened.flowControl]
          exact settled.valid.maxData_lt
    · rw [lengthened.flowControl, lengthened.off]
      exact settled.counted
    · intro reset
      rw [lengthened.error] at reset
      exact lengthened.finOff (.inr (settled.known reset))
    · intro draining
      rw [lengthened.drain] at draining
      rw [lengthened.drained draining, settled.drained draining]

end Write

theorem Settled.emit (settled : recv.Settled) (cap : Nat) :
    ∃ next result, recv.emit cap = some (next, result) ∧ Grows recv next ∧ next.len = recv.len := by
  cases isReady : recv.ready with
  | false => exact ⟨recv, _, emit_idle isReady cap, .refl settled, rfl⟩
  | true =>
    have stored : recv.drain = false := by
      cases draining : recv.drain with
      | false => rfl
      | true =>
        rw [ready, settled.drained draining] at isReady
        cases isReady
    cases alive : recv.error with
    | none =>
      obtain ⟨next, out, emitted, spec⟩ := emit_spec settled.valid alive settled.counted isReady cap
      obtain ⟨advanced, _⟩ := settled.spans.emit emitted
      have counted := settled.counted
      refine ⟨next, _, emitted, ⟨⟨spec.valid, ?_, advanced.spans.final, ?_, ?_⟩, ?_, ?_⟩, advanced.len⟩
      · rw [spec.consumed, spec.off]
        omega
      · intro reset
        rw [spec.error] at reset
        rw [spec.finOff]
        exact settled.known reset
      · intro draining
        rw [spec.drain, stored] at draining
        cases draining
      · exact Nat.le_of_eq advanced.len.symm
      · intro size known
        rw [spec.finOff]
        exact known
    | some code =>
      have valid := settled.valid
      refine ⟨{ recv with data := .empty }, .error (.streamReset code), ?_, ⟨⟨?_, settled.counted, settled.final,
        settled.known, fun _ => rfl⟩, Nat.le_refl _, fun _ known => known⟩, rfl⟩
      · rw [RecvBuf.emit, if_neg (by simp [isReady])]
        simp only [alive]
      · exact valid_of_empty rfl valid.off_le_len settled.final valid.len_le_maxData valid.maxData_lt

theorem reset_delta (reset : recv.reset errorCode finalSize = some (next, .ok delta)) :
    recv.len ≤ finalSize ∧ delta = finalSize - recv.len := by
  rw [RecvBuf.reset] at reset
  split at reset
  · cases reset
  split at reset
  · cases reset
  rename_i large
  refine ⟨Nat.not_lt.mp large, ?_⟩
  dsimp only at reset
  split at reset
  · cases reset
    rfl
  · obtain ⟨⟨written, result⟩, _, outcome⟩ := Option.bind_eq_some_iff.mp reset
    cases result with
    | error error => cases outcome
    | ok _ =>
      cases outcome
      rfl

theorem reset_data (settled : recv.Settled) (alive : recv.error = none)
    (reset : recv.reset errorCode finalSize = some (next, .ok delta)) :
    next.flowControl = recv.flowControl ∧ finalSize ≤ recv.maxData ∧ (next.data = .empty ∨
        recv.drain = false ∧ next.data.entries = [(finalSize, .fromBytes [] finalSize true)] ∧
          next.finOff = some finalSize) := by
  obtain ⟨large, wrote⟩ := reset_ok alive reset
  let cleared : RecvBuf := { recv with error := some errorCode, off := finalSize, data := .empty }
  have lengthened : Lengthened cleared (.fromBytes [] finalSize true) next :=
    write_length (by simp [cleared, OrderedMap.empty]) settled.final (fun nonempty => by simp at nonempty) wrote
  have small : finalSize < 2 ^ 64 := by
    by_contra large
    have beyond : (RangeBuf.fromBytes [] finalSize true).maxOff ≥ 2 ^ 64 := Nat.not_lt.mp large
    rw [write, if_pos beyond] at wrote
    cases wrote
  have limit : finalSize ≤ recv.maxData := by
    rcases write_admission cleared (.fromBytes [] finalSize true) small with ⟨error, refused⟩ | ⟨admitted, _⟩
    · exact absurd (refused.symm.trans wrote) (by simp)
    · exact admitted.limit
  refine ⟨lengthened.flowControl, limit, ?_⟩
  cases known : recv.finOff with
  | some size =>
    have unchanged : cleared.finOff = some size := known
    have same : next = cleared := write_empty_known unchanged wrote
    rw [same]
    exact .inl rfl
  | none =>
    cases draining : recv.drain with
    | true => exact .inl (lengthened.drained draining)
    | false =>
      have stored : cleared.write (.fromBytes [] finalSize true) = _ :=
        write_empty_fin draining rfl known rfl large small limit
      cases stored.symm.trans wrote
      exact .inr ⟨rfl, rfl, rfl⟩

theorem Settled.reset (settled : recv.Settled) (reset : recv.reset errorCode finalSize = some (next, .ok delta)) :
    Grows recv next ∧ recv.len + delta = next.len := by
  have outcome := settled.spans.reset settled.known reset
  obtain ⟨large, _⟩ := reset_delta reset
  refine ⟨⟨?_, ?_, ?_⟩, outcome.charged⟩
  · cases alive : recv.error with
    | some code =>
      rw [outcome.again (by rw [alive]; rfl)]
      exact settled
    | none =>
      obtain ⟨off, len⟩ := outcome.first alive
      obtain ⟨same, limit, data⟩ := reset_data settled alive reset
      have bound : next.maxData = recv.maxData := congrArg FlowControl.maxData same
      have within : next.len ≤ next.maxData := by
        rw [len, bound]
        exact limit
      have small : next.maxData < 2 ^ 64 := bound ▸ settled.valid.maxData_lt
      refine ⟨?_, ?_, outcome.spans.final, fun _ => outcome.finOff, ?_⟩
      · rcases data with cleared | ⟨_, only, known⟩
        · exact valid_of_empty cleared outcome.spans.off_le outcome.spans.final within small
        · refine ⟨?_, ?_, ?_, outcome.spans.received, ?_, outcome.spans.off_le, ?_, within, small⟩
          · intro entry member
            rw [only, List.mem_singleton] at member
            subst member
            rfl
          · intro first member second other order
            rw [only, List.mem_singleton] at member other
            subst member other
            exact absurd order (Nat.lt_irrefl _)
          · intro entry member
            rw [only, List.mem_singleton] at member
            subst member
            exact Nat.le_of_eq off
          · intro entry member _
            rw [only, List.mem_singleton] at member
            subst member
            exact known
          · exact fun size isFinal => Nat.le_of_eq (outcome.spans.final size isFinal).symm
      · have counted := settled.counted
        have order := settled.valid.off_le_len
        rw [same, off]
        omega
      · intro draining
        rcases data with cleared | ⟨stored, _, _⟩
        · exact cleared
        · rw [outcome.drain, stored] at draining
          cases draining
  · have charged := outcome.charged
    omega
  · intro size known
    cases alive : recv.error with
    | some code =>
      rw [outcome.again (by rw [alive]; rfl)]
      exact known
    | none =>
      obtain ⟨later, same⟩ := Option.isSome_iff_exists.mp outcome.finOff
      have length := outcome.spans.final later same
      obtain ⟨_, len⟩ := outcome.first alive
      have unchanged : size = finalSize := by
        rw [RecvBuf.reset] at reset
        split at reset
        · cases reset
        · rename_i agrees
          rw [Option.mem_def.mp known] at agrees
          simpa using agrees
      rw [same, length, len, unchanged]

theorem Settled.shutdown (settled : recv.Settled) : Grows recv recv.shutdown.1 ∧ recv.shutdown.1.len = recv.len := by
  rw [RecvBuf.shutdown]
  split
  · exact ⟨.refl settled, rfl⟩
  · have valid := settled.valid
    refine ⟨⟨⟨?_, ?_, settled.final, settled.known, fun _ => rfl⟩, Nat.le_refl _, fun _ known => known⟩, rfl⟩
    · exact valid_of_empty rfl (Nat.le_refl _) settled.final valid.len_le_maxData valid.maxData_lt
    · exact Nat.le_trans settled.counted valid.off_le_len

/-- A buffer with what was charged for it: the increases of `max_off()` by writes, and what resets
returned. -/
structure Charge where
  recv : RecvBuf
  written : Nat
  returned : Nat
deriving DecidableEq

namespace Charge

inductive Op where
  | write (chunk : Chunk)
  | emit (cap : Nat)
  | reset (errorCode finalSize : Nat)
  | shutdown
deriving DecidableEq

def start (maxData maxWindow : Nat) : Charge := ⟨.new maxData maxWindow, 0, 0⟩

def step (charge : Charge) : Op → Option Charge
  | .write chunk =>
    (charge.recv.write chunk.buf).map fun (recv, _) =>
      { charge with recv, written := charge.written + (recv.maxOff - charge.recv.maxOff) }
  | .emit cap => (charge.recv.emit cap).map fun (recv, _) => { charge with recv }
  | .reset errorCode finalSize =>
    (charge.recv.reset errorCode finalSize).map fun (recv, result) =>
      match result with
      | .ok delta => { charge with recv, returned := charge.returned + delta }
      | .error _ => { charge with recv }
  | .shutdown => some { charge with recv := charge.recv.shutdown.1 }

def machine : Machine Charge Op := ⟨step⟩

def isOk : Option (RecvBuf × Except Error Nat) → Bool
  | some (_, .ok _) => true
  | _ => false

/-- A reset of the operation gives no error. -/
def Succeeds (charge : Charge) : Op → Prop
  | .reset errorCode finalSize => isOk (charge.recv.reset errorCode finalSize) = true
  | _ => True

instance (charge : Charge) : ∀ op, Decidable (charge.Succeeds op)
  | .write _ | .emit _ | .shutdown => .isTrue trivial
  | .reset errorCode finalSize =>
    inferInstanceAs (Decidable (isOk (charge.recv.reset errorCode finalSize) = true))

variable {charge : Charge}

theorem Succeeds.reset (succeeds : charge.Succeeds (.reset errorCode finalSize)) :
    ∃ next delta, charge.recv.reset errorCode finalSize = some (next, .ok delta) := by
  cases returned : charge.recv.reset errorCode finalSize with
  | none =>
    rw [Succeeds, returned] at succeeds
    cases succeeds
  | some outcome =>
    obtain ⟨next, result⟩ := outcome
    cases result with
    | ok delta => exact ⟨next, delta, rfl⟩
    | error error =>
      rw [Succeeds, returned] at succeeds
      cases succeeds

/-- What was charged is what was received, within the limit. -/
structure Consistent (charge : Charge) : Prop where
  off_le : charge.recv.off ≤ charge.recv.len
  limit : charge.recv.len ≤ charge.recv.maxData
  final : ∀ size ∈ charge.recv.finOff, charge.recv.len = size
  charged : charge.written + charge.returned = charge.recv.maxOff

/-- What holds between two states of a run. -/
structure Follows (charge next : Charge) : Prop where
  grows : Grows charge.recv next.recv
  charged : charge.written + charge.returned = charge.recv.len → next.written + next.returned = next.recv.len

theorem Follows.trans {middle next : Charge} (earlier : Follows charge middle) (later : Follows middle next) :
    Follows charge next := ⟨earlier.grows.trans later.grows, fun charged => later.charged (earlier.charged charged)⟩

theorem step_follows (settled : charge.recv.Settled) (op : Op) (succeeds : charge.Succeeds op) :
    ∃ next, charge.step op = some next ∧ Follows charge next := by
  cases op with
  | write chunk =>
    have fresh : chunk.buf.off = chunk.buf.viewOff := rfl
    obtain ⟨recv, result, written, grows, _⟩ := settled.write fresh chunk.fits
    refine ⟨{ charge with recv, written := charge.written + (recv.maxOff - charge.recv.maxOff) },
      by rw [step, written]; rfl, grows, fun charged => ?_⟩
    have bound := grows.len_le
    simp only [maxOff] at bound ⊢
    omega
  | emit cap =>
    obtain ⟨recv, result, emitted, grows, same⟩ := settled.emit cap
    exact ⟨{ charge with recv }, by rw [step, emitted]; rfl, grows, fun charged => charged.trans same.symm⟩
  | reset errorCode finalSize =>
    obtain ⟨recv, delta, returned⟩ := succeeds.reset
    obtain ⟨grows, charged⟩ := settled.reset returned
    refine ⟨{ charge with recv, returned := charge.returned + delta }, by rw [step, returned]; rfl, grows,
      fun before => ?_⟩
    dsimp only
    omega
  | shutdown =>
    obtain ⟨grows, same⟩ := settled.shutdown
    exact ⟨_, rfl, grows, fun charged => charged.trans same.symm⟩

theorem run_follows (settled : charge.recv.Settled) {ops : List Op} (guarded : machine.Guarded Succeeds charge ops) :
    ∃ final, machine.run charge ops = some final ∧ Follows charge final := by
  have preserved (state : Charge) (op : Op) (follows : Follows charge state) (succeeds : state.Succeeds op) :
      ∃ next, machine.step state op = some next ∧ Follows charge next := by
    obtain ⟨next, stepped, later⟩ := step_follows follows.grows.settled op succeeds
    exact ⟨next, stepped, follows.trans later⟩
  exact machine.run_total_of_guarded preserved ⟨.refl settled, fun charged => charged⟩ guarded

/-- The size of a stream only grows, is final once it is known, and every byte of it is charged once,
by a write or by the reset. -/
theorem final_size_consistent (maxData maxWindow : UInt64) (earlier later : List Op)
    (guarded : machine.Guarded Succeeds (start maxData.toNat maxWindow.toNat) (earlier ++ later)) :
    ∃ middle final, machine.run (start maxData.toNat maxWindow.toNat) earlier = some middle ∧
      machine.run middle later = some final ∧
      middle.recv.len ≤ final.recv.len ∧ (∀ size ∈ middle.recv.finOff, final.recv.finOff = some size) ∧
      final.Consistent ∧
      ∀ errorCode finalSize next delta, final.recv.reset errorCode finalSize = some (next, .ok delta) →
        final.recv.maxOff ≤ finalSize ∧ delta = finalSize - final.recv.maxOff := by
  obtain ⟨admitted, rest⟩ := Machine.guarded_append guarded
  obtain ⟨middle, reached, first⟩ := run_follows (new_settled maxData maxWindow) admitted
  obtain ⟨final, finished, second⟩ := run_follows first.grows.settled (rest middle reached)
  have settled := second.grows.settled
  refine ⟨middle, final, reached, finished, second.grows.len_le, second.grows.finOff,
    ⟨settled.valid.off_le_len, settled.valid.len_le_maxData, fun size known => (settled.final size known).symm,
      (first.trans second).charged rfl⟩, ?_⟩
  intro errorCode finalSize next delta reset
  exact reset_delta reset

def shutThenReset : List Op :=
  [.write ⟨[1, 2, 3, 4, 5], 0, false, by decide⟩, .emit 2, .shutdown, .reset 7 10, .reset 7 10]

theorem final_size_consistent_shut : ∃ middle final,
    machine.run (start (UInt64.toNat 10) (UInt64.toNat 10)) (shutThenReset.take 2) = some middle ∧
      machine.run middle (shutThenReset.drop 2) = some final ∧
      middle.recv.len ≤ final.recv.len ∧ (∀ size ∈ middle.recv.finOff, final.recv.finOff = some size) ∧
      final.Consistent ∧
      ∀ errorCode finalSize next delta, final.recv.reset errorCode finalSize = some (next, .ok delta) →
        final.recv.maxOff ≤ finalSize ∧ delta = finalSize - final.recv.maxOff :=
  final_size_consistent 10 10 (shutThenReset.take 2) (shutThenReset.drop 2) (by decide)

end Charge

theorem reset_error_iff (recv : RecvBuf) (errorCode finalSize : Nat) (small : finalSize < 2 ^ 64) :
    (∀ next error, recv.reset errorCode finalSize = some (next, .error error) → next = recv) ↔
      ¬ (recv.error = none ∧ (∀ size ∈ recv.finOff, size = finalSize) ∧ recv.len ≤ finalSize ∧
        recv.maxData < finalSize) := by
  rw [RecvBuf.reset]
  by_cases differs : recv.finOff.any (· != finalSize) = true
  · rw [if_pos differs]
    refine iff_of_true (fun next error failed => by cases failed; rfl) fun passes => ?_
    obtain ⟨size, known, other⟩ := (Option.any_eq_true _ _).mp differs
    exact absurd (passes.2.1 size known) (by simpa using other)
  rw [if_neg differs]
  by_cases short : finalSize < recv.len
  · rw [if_pos short]
    exact iff_of_true (fun next error failed => by cases failed; rfl) fun passes =>
      absurd short (Nat.not_lt.mpr passes.2.2.1)
  rw [if_neg short]
  dsimp only
  by_cases again : recv.error.isSome = true
  · rw [if_pos again]
    refine iff_of_true (fun next error failed => by cases failed) fun passes => ?_
    rw [passes.1] at again
    cases again
  rw [if_neg again]
  have alive : recv.error = none := by simpa using again
  have agrees : ∀ size ∈ recv.finOff, size = finalSize := by
    intro size known
    rw [Option.mem_def.mp known] at differs
    simpa using differs
  let cleared : RecvBuf := { recv with error := some errorCode, off := finalSize, data := .empty }
  by_cases beyond : recv.maxData < finalSize
  · have failed : cleared.write (.fromBytes [] finalSize true) = some (cleared, .error .flowControl) := by
      have bound : ¬ (RangeBuf.fromBytes [] finalSize true).maxOff ≥ 2 ^ 64 := Nat.not_le.mpr small
      have limit : (RangeBuf.fromBytes [] finalSize true).maxOff > cleared.maxData := beyond
      rw [write, if_neg bound, if_pos limit]
    refine iff_of_false (fun unchanged => ?_) (not_not_intro ⟨alive, agrees, Nat.not_lt.mp short, beyond⟩)
    have same := unchanged cleared .flowControl (by simp only [cleared] at failed; rw [failed]; rfl)
    have marked := congrArg RecvBuf.error same
    rw [alive] at marked
    cases marked
  · refine iff_of_true (fun next error failed => ?_) fun passes => beyond passes.2.2.2
    obtain ⟨⟨written, result⟩, wrote, outcome⟩ := Option.bind_eq_some_iff.mp failed
    have admitted : Admitted cleared (.fromBytes [] finalSize true) :=
      ⟨Nat.not_lt.mp beyond, fun size known => Nat.le_of_eq (agrees size known).symm,
        fun _ size known => agrees size known, fun _ => Nat.not_lt.mp short⟩
    cases result with
    | error other => exact absurd wrote (admitted.write_ok small)
    | ok _ => cases outcome

/-- A call that fails leaves the buffer as it is, unless a reset that its own checks let pass goes beyond
the flow control limit. -/
theorem errors_leave_unchanged (recv : RecvBuf) :
    (∀ buf next error, recv.write buf = some (next, .error error) → next = recv) ∧
      ∀ errorCode finalSize, finalSize < 2 ^ 64 →
        ((∀ next error, recv.reset errorCode finalSize = some (next, .error error) → next = recv) ↔
          ¬ (recv.error = none ∧ (∀ size ∈ recv.finOff, size = finalSize) ∧ recv.len ≤ finalSize ∧
            recv.maxData < finalSize)) := ⟨fun _ _ _ failed => write_failed failed, reset_error_iff recv⟩

/-- A reset within the limit of ten bytes. -/
theorem errors_leave_unchanged_within : ∀ next error,
    (RecvBuf.new 10 10).reset 7 10 = some (next, .error error) → next = RecvBuf.new 10 10 :=
  ((errors_leave_unchanged (.new 10 10)).2 7 10 (by decide)).mpr (by decide)

/-- A reset at twenty bytes fails, and has recorded the error code and moved the offset. -/
theorem reset_fails_changed : ∃ recv next : RecvBuf, ∃ error, recv = .new 10 10 ∧
    recv.reset 7 20 = some (next, .error error) ∧ next ≠ recv :=
  ⟨.new 10 10, { RecvBuf.new 10 10 with error := some 7, off := 20 }, .flowControl, rfl, by decide, by decide⟩

end Quiche.RecvBuf
