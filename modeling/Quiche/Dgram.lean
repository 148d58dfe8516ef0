import Quiche.Error

namespace Quiche

structure DatagramQueue where
  queue : List (List UInt8)
  queueMaxLen : Nat
  queueBytesSize : Nat
deriving DecidableEq

namespace DatagramQueue

def new (queueMaxLen : Nat) : DatagramQueue := ⟨[], queueMaxLen, 0⟩

def len (self : DatagramQueue) : Nat := self.queue.length

def isEmpty (self : DatagramQueue) : Bool := self.len = 0

def isFull (self : DatagramQueue) : Bool := self.len = self.queueMaxLen

def push (data : List UInt8) (self : DatagramQueue) : Except Error DatagramQueue :=
  if self.isFull then .error .done
  else .ok { self with queue := self.queue ++ [data], queueBytesSize := self.queueBytesSize + data.length }

def pop (self : DatagramQueue) : DatagramQueue :=
  match self.queue with
  | [] => self
  | data :: rest => { self with queue := rest, queueBytesSize := self.queueBytesSize - data.length }

def purge (purged : List UInt8 → Bool) (self : DatagramQueue) : DatagramQueue :=
  let queue := self.queue.filter fun data => !purged data
  { self with queue, queueBytesSize := (queue.map List.length).sum }

theorem pop_subset (self : DatagramQueue) : self.pop.queue ⊆ self.queue := by
  rw [pop]
  split
  · exact fun _ member => member
  · rename_i data rest stored
    rw [stored]
    exact List.subset_cons_self data rest

variable {self next : DatagramQueue}

theorem push_queue {data : List UInt8} (pushed : self.push data = .ok next) : next.queue = self.queue ++ [data] := by
  rw [push] at pushed
  split at pushed
  · contradiction
  · cases pushed
    rfl

theorem pop_queueMaxLen (self : DatagramQueue) : self.pop.queueMaxLen = self.queueMaxLen := by
  rw [pop]
  split <;> rfl

theorem push_queueMaxLen {data : List UInt8} (pushed : self.push data = .ok next) :
    next.queueMaxLen = self.queueMaxLen := by
  rw [push] at pushed
  split at pushed
  · contradiction
  · cases pushed
    rfl

theorem push_pop_exists (nonzero : 0 < self.queueMaxLen) (data : List UInt8) :
    ∃ next, (if self.isFull then self.pop else self).push data = .ok next := by
  by_cases full : self.isFull = true
  · rw [if_pos full]
    have length : self.queue.length = self.queueMaxLen := of_decide_eq_true full
    cases stored : self.queue with
    | nil =>
      rw [stored] at length
      exact absurd length (Nat.ne_of_lt nonzero)
    | cons oldest rest =>
      have room : self.pop.isFull = false := by
        rw [stored, List.length_cons] at length
        simp only [pop, stored, isFull, len, decide_eq_false_iff_not]
        omega
      rw [push, if_neg (by simp [room])]
      exact ⟨_, rfl⟩
  · rw [if_neg full, push, if_neg full]
    exact ⟨_, rfl⟩

end DatagramQueue

end Quiche
