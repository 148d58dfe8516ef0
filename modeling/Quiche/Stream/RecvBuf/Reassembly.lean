import Mathlib.Order.Nat
import Mathlib.Data.Nat.Find
import Quiche.Stream.RecvBuf.Emit

namespace Quiche.RecvBuf

open Data

structure Chunk where
  bytes : List UInt8
  off : Nat
  fin : Bool
  fits : off + bytes.length < 2 ^ 64
deriving DecidableEq

namespace Chunk

def buf (chunk : Chunk) : RangeBuf := .fromBytes chunk.bytes chunk.off chunk.fin

def maxOff (chunk : Chunk) : Nat := chunk.off + chunk.bytes.length

def byteAt (chunk : Chunk) (index : Nat) : Option UInt8 :=
  if chunk.off ≤ index then chunk.bytes[index - chunk.off]? else none

@[simp] theorem buf_byteAt (chunk : Chunk) (index : Nat) :
    chunk.buf.byteAt index = chunk.byteAt index := by
  simp [buf, byteAt, RangeBuf.byteAt]

@[simp] theorem buf_maxOff (chunk : Chunk) : chunk.buf.maxOff = chunk.maxOff := rfl

@[simp] theorem buf_fin (chunk : Chunk) : chunk.buf.fin = chunk.fin := rfl

end Chunk

def firstByte (chunks : List Chunk) (index : Nat) : Option UInt8 := chunks.findSome? (·.byteAt index)

theorem firstByte_append (chunks : List Chunk) (chunk : Chunk) (index : Nat) :
    firstByte (chunks ++ [chunk]) index = (firstByte chunks index).or (chunk.byteAt index) := by
  simp [firstByte, List.findSome?_append]

inductive Call where
  | write (chunk : Chunk)
  | emit (cap : Nat)
deriving DecidableEq

/-- A receive buffer with the history that its guarantees speak of: the chunks accepted
so far, the bytes delivered so far, and whether an `emit` reported the end. -/
structure Session where
  recv : RecvBuf
  accepted : List Chunk
  delivered : List UInt8
  finSeen : Bool
deriving DecidableEq

namespace Session

def start (maxData maxWindow : Nat) : Session where
  recv := .new maxData maxWindow
  accepted := []
  delivered := []
  finSeen := false

def step (session : Session) : Call → Option Session
  | .write chunk =>
    (session.recv.write chunk.buf).map fun (recv, result) =>
      match result with
      | .ok () => { session with recv, accepted := session.accepted ++ [chunk] }
      | .error _ => { session with recv }
  | .emit cap =>
    (session.recv.emit cap).map fun (recv, result) =>
      match result with
      | .ok (out, fin) =>
        { session with recv, delivered := session.delivered ++ out, finSeen := session.finSeen || fin }
      | .error _ => { session with recv }

def machine : Machine Session Call := ⟨step⟩

/-- What was delivered and what is stored are the first bytes written at their places. -/
structure Faithful (session : Session) : Prop where
  valid : session.recv.Valid
  open_ : session.recv.drain = false
  alive : session.recv.error = none
  counted : session.recv.flowControl.consumed ≤ session.recv.off
  delivered_length : session.delivered.length = session.recv.off
  delivered_first : ∀ index, index < session.recv.off → session.delivered[index]? = firstByte session.accepted index
  stored_first : ∀ index, session.recv.off ≤ index → ∀ byte,
    session.recv.Stored index byte ↔ firstByte session.accepted index = some byte
  fin_recorded : ∀ chunk ∈ session.accepted, chunk.fin → session.recv.finOff = some chunk.maxOff

theorem start_faithful (maxData maxWindow : UInt64) : (start maxData.toNat maxWindow.toNat).Faithful where
  valid := {
    keyed := by simp [start, RecvBuf.new, OrderedMap.empty]
    apart := by simp [start, RecvBuf.new, OrderedMap.empty]
    unread := by simp [start, RecvBuf.new, OrderedMap.empty]
    received := by simp [start, RecvBuf.new, OrderedMap.empty]
    empty_fin := by simp [start, RecvBuf.new, OrderedMap.empty]
    off_le_len := Nat.le_refl _
    len_le_fin := by simp [start, RecvBuf.new]
    len_le_maxData := Nat.zero_le _
    maxData_lt := maxData.toNat_lt }
  open_ := rfl
  alive := rfl
  counted := Nat.le_refl _
  delivered_length := rfl
  delivered_first := by simp [start, RecvBuf.new]
  stored_first := by simp [start, RecvBuf.new, Stored, OrderedMap.empty, firstByte]
  fin_recorded := by simp [start]

variable {session : Session}

section

variable (faithful : session.Faithful)

include faithful

theorem Faithful.step_write (chunk : Chunk) :
    ∃ next, session.step (.write chunk) = some next ∧ (next = session ∨
        (next.accepted = session.accepted ++ [chunk] ∧ next.delivered = session.delivered ∧
          next.finSeen = session.finSeen ∧ Accepted session.recv chunk.buf next.recv)) := by
  obtain ⟨recv, result, written, outcome⟩ := write_spec chunk.buf faithful.valid faithful.open_
    rfl chunk.fits
  cases outcome with
  | inl refused =>
    obtain ⟨error, rfl, rfl⟩ := refused
    exact ⟨session, by simp [step, written], .inl rfl⟩
  | inr last =>
    obtain ⟨rfl, accepted⟩ := last
    exact ⟨{ session with recv, accepted := session.accepted ++ [chunk] },
      by simp [step, written], .inr ⟨rfl, rfl, rfl, accepted⟩⟩

theorem Faithful.step_emit (cap : Nat) :
    ∃ next, session.step (.emit cap) = some next ∧ next.accepted = session.accepted ∧
      ((session.recv.ready = false ∧ next = session) ∨
        ∃ out, session.recv.ready = true ∧ next.delivered = session.delivered ++ out ∧
          next.finSeen = (session.finSeen || next.recv.isFin) ∧ Emitted session.recv cap out next.recv) := by
  cases readyNow : session.recv.ready with
  | false =>
    exact ⟨session, by simp [step, emit_idle readyNow], rfl, .inl ⟨rfl, rfl⟩⟩
  | true =>
    obtain ⟨recv, out, emitted, spec⟩ := emit_spec faithful.valid faithful.alive
      faithful.counted readyNow cap
    exact ⟨{ session with recv, delivered := session.delivered ++ out, finSeen := session.finSeen || recv.isFin },
      by simp [step, emitted], rfl, .inr ⟨out, rfl, rfl, rfl, spec⟩⟩

theorem Faithful.accept {next : Session} {chunk : Chunk}
    (history : next.accepted = session.accepted ++ [chunk]) (same : next.delivered = session.delivered)
    (accepted : Accepted session.recv chunk.buf next.recv) : next.Faithful := by
  have missing : ∀ index, firstByte session.accepted index = none → session.recv.off ≤ index := by
    intro index absent
    by_contra below
    have delivered := faithful.delivered_first index (Nat.not_le.mp below)
    rw [absent, List.getElem?_eq_none_iff, faithful.delivered_length] at delivered
    exact below delivered
  refine ⟨accepted.valid, accepted.drain.trans faithful.open_, accepted.error.trans faithful.alive,
    ?_, ?_, ?_, ?_, ?_⟩
  · rw [accepted.flowControl, accepted.off]
    exact faithful.counted
  · rw [same, accepted.off]
    exact faithful.delivered_length
  · intro index below
    rw [accepted.off] at below
    rw [same, history, firstByte_append, faithful.delivered_first index below]
    cases first : firstByte session.accepted index with
    | some byte => simp
    | none => exact absurd (missing index first) (Nat.not_le.mpr below)
  · intro index lower byte
    rw [accepted.off] at lower
    rw [accepted.stored index lower byte, history, firstByte_append, Chunk.buf_byteAt,
      faithful.stored_first index lower byte]
    simp only [faithful.stored_first index lower]
    cases firstByte session.accepted index with
    | some other => simp
    | none => simp
  · intro other member isFin
    rw [history] at member
    cases List.mem_append.mp member with
    | inl member => exact accepted.finOff_kept _ (faithful.fin_recorded other member isFin)
    | inr member =>
      rw [List.mem_singleton] at member
      subst other
      rw [accepted.finOff, Chunk.buf_fin, if_pos isFin, Chunk.buf_maxOff]

theorem Faithful.deliver {next : Session} {cap : Nat} {out : List UInt8}
    (history : next.accepted = session.accepted)
    (extended : next.delivered = session.delivered ++ out)
    (emitted : Emitted session.recv cap out next.recv) : next.Faithful := by
  have offset := emitted.off
  have length := faithful.delivered_length
  refine ⟨emitted.valid, emitted.drain.trans faithful.open_, emitted.error.trans faithful.alive, ?_, ?_, ?_, ?_, ?_⟩
  · have := faithful.counted
    rw [emitted.consumed]
    omega
  · rw [extended, List.length_append]
    omega
  · intro index below
    rw [extended, history]
    by_cases old : index < session.recv.off
    · rw [List.getElem?_append_left (by omega)]
      exact faithful.delivered_first index old
    · rw [List.getElem?_append_right (by omega)]
      cases found : out[index - session.delivered.length]? with
      | none =>
        rw [List.getElem?_eq_none_iff] at found
        omega
      | some byte =>
        have stored := emitted.bytes _ byte found
        have place : session.recv.off + (index - session.delivered.length) = index := by omega
        rw [place] at stored
        exact ((faithful.stored_first index (Nat.not_lt.mp old) byte).mp stored).symm
  · intro index lower byte
    rw [emitted.stored index lower byte, history]
    exact faithful.stored_first index (by omega) byte
  · intro chunk member isFin
    rw [emitted.finOff]
    exact faithful.fin_recorded chunk (history ▸ member) isFin

theorem Faithful.step (call : Call) :
    ∃ next, session.step call = some next ∧ next.Faithful := by
  cases call with
  | write chunk =>
    obtain ⟨next, stepped, outcome⟩ := faithful.step_write chunk
    refine ⟨next, stepped, ?_⟩
    cases outcome with
    | inl same =>
      subst same
      exact faithful
    | inr recorded =>
      obtain ⟨history, same, _, accepted⟩ := recorded
      exact faithful.accept history same accepted
  | emit cap =>
    obtain ⟨next, stepped, history, outcome⟩ := faithful.step_emit cap
    refine ⟨next, stepped, ?_⟩
    cases outcome with
    | inl nothing =>
      obtain ⟨_, rfl⟩ := nothing
      exact faithful
    | inr written =>
      obtain ⟨out, _, extended, _, emitted⟩ := written
      exact faithful.deliver history extended emitted

end

/-- `count` is the length of the maximal gap-free run of accepted bytes from `off` on. -/
def GapFree (accepted : List Chunk) (off count : Nat) : Prop :=
  (∀ place, place < count → (firstByte accepted (off + place)).isSome) ∧ firstByte accepted (off + count) = none

section

variable (faithful : session.Faithful)

include faithful

theorem Faithful.gapFree_exists : ∃ count, GapFree session.accepted session.recv.off count := by
  have someGap : ∃ count, firstByte session.accepted (session.recv.off + count) = none := by
    refine ⟨session.recv.len, ?_⟩
    cases found : firstByte session.accepted (session.recv.off + session.recv.len) with
    | none => rfl
    | some byte =>
      obtain ⟨entry, member, present⟩ := (faithful.stored_first _ (Nat.le_add_right _ _) byte).mpr found
      have := (RangeBuf.covers_of_byteAt present).2
      have := faithful.valid.received entry member
      omega
  refine ⟨Nat.find someGap, fun place before => ?_, Nat.find_spec someGap⟩
  exact Option.isSome_iff_ne_none.mpr (Nat.find_min someGap before)

theorem Faithful.missing_of_not_ready (idle : session.recv.ready = false) :
    firstByte session.accepted session.recv.off = none := by
  cases found : firstByte session.accepted session.recv.off with
  | none => rfl
  | some byte =>
    exact absurd ((faithful.stored_first _ (Nat.le_refl _) byte).mpr found)
      (faithful.valid.missing_of_not_ready idle byte)

theorem Faithful.emit_exact (cap : Nat) :
    ∃ next count, session.step (.emit cap) = some next ∧ GapFree session.accepted session.recv.off count ∧
      next.delivered.length = session.delivered.length + min cap count := by
  obtain ⟨count, gapFree⟩ := faithful.gapFree_exists
  obtain ⟨next, stepped, history, outcome⟩ := faithful.step_emit cap
  refine ⟨next, count, stepped, gapFree, ?_⟩
  cases outcome with
  | inl nothing =>
    obtain ⟨idle, rfl⟩ := nothing
    have missing := faithful.missing_of_not_ready idle
    have empty : count = 0 := by
      by_contra positive
      have := gapFree.1 0 (Nat.pos_of_ne_zero positive)
      simp [missing] at this
    simp [empty]
  | inr written =>
    obtain ⟨out, _, extended, _, emitted⟩ := written
    have bounded := emitted.bounded
    have within : out.length ≤ count := by
      by_contra beyond
      have inside : count < out.length := by omega
      have stored := emitted.bytes count out[count] (List.getElem?_eq_getElem inside)
      have first := (faithful.stored_first _ (Nat.le_add_right _ _) _).mp stored
      rw [gapFree.2] at first
      contradiction
    rw [extended, List.length_append]
    cases emitted.exhausted with
    | inl full => omega
    | inr idle =>
      have missing := (faithful.deliver history extended emitted).missing_of_not_ready idle
      rw [history, emitted.off] at missing
      have reached : ¬ out.length < count := by
        intro before
        have := gapFree.1 out.length before
        simp [missing] at this
      omega

end

/-- Whatever chunks arrive and however they are read, no call panics, stored chunks
never overlap and are keyed by their ends, the bytes delivered are those written
first, and every `emit` delivers as much as it can. -/
theorem reassembly_exact (maxData maxWindow : UInt64) (calls : List Call) :
    ∃ session, machine.run (start maxData.toNat maxWindow.toNat) calls = some session ∧
      (session.recv.data.entries.Pairwise fun first second => first.2.maxOff ≤ second.2.off) ∧
      (∀ entry ∈ session.recv.data.entries, entry.1 = entry.2.maxOff) ∧
      session.delivered.length = session.recv.off ∧ (∀ index, index < session.recv.off →
        session.delivered[index]? = firstByte session.accepted index) ∧
      ∀ cap, ∃ next count, session.step (.emit cap) = some next ∧ GapFree session.accepted session.recv.off count ∧
        next.delivered.length = session.delivered.length + min cap count := by
  obtain ⟨session, completed, faithful⟩ := machine.run_total
    (fun session call faithful => Faithful.step faithful call)
    (start_faithful maxData maxWindow) calls
  exact ⟨session, completed, faithful.valid.chunks_apart, faithful.valid.keyed,
    faithful.delivered_length, faithful.delivered_first, faithful.emit_exact⟩

end Session

end Quiche.RecvBuf
