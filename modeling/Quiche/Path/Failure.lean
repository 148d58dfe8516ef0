import Quiche.Data.Machine
import Quiche.Path

namespace Quiche

open Data

structure ProbedPath extends Path where
  failureNotified : Bool
deriving DecidableEq

/-- `PathEvent::FailedValidation` -/
structure FailedValidation where
  localAddr : SocketAddr
  peerAddr : SocketAddr
deriving DecidableEq

namespace Path

variable {path : Path} {now rtt : Nat} {isServer : Bool}

def validationFailed (path : Path) : Bool := path.state == .failed

def countsLost (path : Path) (lostProbeTime rtt : Nat) : Bool :=
  match path.lastProbeLostTime with
  | some last => lostProbeTime - last ≥ rtt
  | none => true

/-- A probe is lost at `now` that is one too many, or that a server cannot repeat. -/
def fails (path : Path) (now rtt : Nat) (isServer : Bool) : Bool :=
  match path.inFlightChallenges.find? fun challenge => challenge.sentTime ≤ now with
  | none => false
  | some lost =>
    path.probingLost + (path.countsLost lost.sentTime rtt).toNat ≥ maxProbingTimeouts ||
      (isServer && path.maxSendBytes < minProbingSize)

theorem countProbeLost_spec (path : Path) (lostProbeTime rtt : Nat) :
    (path.countProbeLost lostProbeTime rtt).probingLost = path.probingLost + (path.countsLost lostProbeTime rtt).toNat ∧
      (path.countProbeLost lostProbeTime rtt).maxSendBytes = path.maxSendBytes ∧
      (path.countProbeLost lostProbeTime rtt).state = path.state ∧
      (path.countProbeLost lostProbeTime rtt).localAddr = path.localAddr ∧
      (path.countProbeLost lostProbeTime rtt).peerAddr = path.peerAddr := by
  rw [countProbeLost, countsLost]
  cases path.lastProbeLostTime with
  | none => exact ⟨rfl, rfl, rfl, rfl, rfl⟩
  | some last =>
    by_cases counts : lostProbeTime - last ≥ rtt
    · simp [counts]
    · simp [counts]

theorem onLossDetectionTimeout_spec (path : Path) (now rtt : Nat) (isServer : Bool) :
    (path.onLossDetectionTimeout now rtt isServer).state =
        (if path.fails now rtt isServer then .failed else path.state) ∧
      (path.onLossDetectionTimeout now rtt isServer).localAddr = path.localAddr ∧
      (path.onLossDetectionTimeout now rtt isServer).peerAddr = path.peerAddr := by
  rw [onLossDetectionTimeout, fails]
  cases path.inFlightChallenges.find? fun challenge => challenge.sentTime ≤ now with
  | none => exact ⟨rfl, rfl, rfl⟩
  | some lost =>
    obtain ⟨kept, same⟩ : ∃ kept : Path, kept = { path with
        inFlightChallenges := path.inFlightChallenges.filter fun challenge => challenge.sentTime > now } := ⟨_, rfl⟩
    obtain ⟨lostSoFar, credit, state, localAddr, peerAddr⟩ := kept.countProbeLost_spec lost.sentTime rtt
    have counts : kept.probingLost + (kept.countsLost lost.sentTime rtt).toNat =
        path.probingLost + (path.countsLost lost.sentTime rtt).toNat := by rw [same, countsLost, countsLost]
    have sameCredit : kept.maxSendBytes = path.maxSendBytes := by rw [same]
    have sameState : kept.state = path.state := by rw [same]
    have sameLocal : kept.localAddr = path.localAddr := by rw [same]
    have samePeer : kept.peerAddr = path.peerAddr := by rw [same]
    dsimp only
    rw [← same, lostSoFar, credit, counts, sameCredit, ← sameState, ← sameLocal, ← samePeer]
    by_cases failing : path.probingLost + (path.countsLost lost.sentTime rtt).toNat ≥ maxProbingTimeouts ∨
        isServer ∧ path.maxSendBytes < minProbingSize
    · simp [failing, onFailedValidation, localAddr, peerAddr]
    · simp [failing, requestValidation, state, localAddr, peerAddr]

theorem promoteTo_addrs (path : Path) (state : PathState) :
    (path.promoteTo state).localAddr = path.localAddr ∧ (path.promoteTo state).peerAddr = path.peerAddr := by
  rw [promoteTo]
  split <;> exact ⟨rfl, rfl⟩

theorem promoteTo_failed (path : Path) {state : PathState} (above : state ≠ .failed) :
    (path.promoteTo state).validationFailed = false := by
  rw [promoteTo, validationFailed]
  split
  · exact beq_eq_false_iff_ne.mpr above
  · rename_i higher
    apply beq_eq_false_iff_ne.mpr
    intro failed
    rw [failed] at higher
    cases state with
    | failed => contradiction
    | _ => exact higher (by decide)

theorem onResponseReceived_spec (path : Path) (data : BitVec 64) :
    (path.onResponseReceived data).1.validationFailed = false ∧
      (path.onResponseReceived data).1.localAddr = path.localAddr ∧
      (path.onResponseReceived data).1.peerAddr = path.peerAddr := by
  rw [onResponseReceived]
  dsimp only
  obtain ⟨answered, same⟩ : ∃ answered : Path, answered = { path with
    verifiedPeerAddress := true
    probingLost := 0
    inFlightChallenges := path.inFlightChallenges.filter fun challenge => challenge.data != data } := ⟨_, rfl⟩
  have sameLocal : answered.localAddr = path.localAddr := by rw [same]
  have samePeer : answered.peerAddr = path.peerAddr := by rw [same]
  obtain ⟨promotedLocal, promotedPeer⟩ := answered.promoteTo_addrs .validatingMtu
  have working : (answered.promoteTo .validatingMtu).validationFailed = false := answered.promoteTo_failed (by decide)
  rw [← same]
  split
  · split
    · obtain ⟨validLocal, validPeer⟩ := promoteTo_addrs { answered.promoteTo .validatingMtu with
        maxChallengeSize := max (answered.promoteTo .validatingMtu).maxChallengeSize
          (challengeSize path.inFlightChallenges data) } .validated
      exact ⟨promoteTo_failed _ (by decide), validLocal.trans (promotedLocal.trans sameLocal),
        validPeer.trans (promotedPeer.trans samePeer)⟩
    · exact ⟨working, promotedLocal.trans sameLocal, promotedPeer.trans samePeer⟩
  · exact ⟨working, promotedLocal.trans sameLocal, promotedPeer.trans samePeer⟩

end Path

namespace ProbedPath

def new (localAddr peerAddr : SocketAddr) (isInitial : Bool) : ProbedPath :=
  { Path.new localAddr peerAddr isInitial with failureNotified := false }

/-- What `notify_failed_validations` looks for. -/
def unreported (path : ProbedPath) : Bool := path.validationFailed && !path.failureNotified

def failedValidation (path : ProbedPath) : FailedValidation := ⟨path.localAddr, path.peerAddr⟩

def notifyNext (state : Slab ProbedPath × List FailedValidation) (failed : Nat × ProbedPath) :
    Slab ProbedPath × List FailedValidation :=
  (state.1.update failed.1 fun path => { path with failureNotified := true }, state.2 ++ [failed.2.failedValidation])

/-- `PathMap::notify_failed_validations`, on the paths and the queued events. -/
def notifyFailedValidations (paths : Slab ProbedPath) (events : List FailedValidation) :
    Slab ProbedPath × List FailedValidation :=
  let validationFailed := paths.iter.filter fun (_, path) => path.unreported
  validationFailed.foldl notifyNext (paths, events)

/-- What `notify_failed_validations` does to one path. -/
def notify (path : ProbedPath) : ProbedPath :=
  if path.unreported then { path with failureNotified := true } else path

/-- The events that `notify_failed_validations` queues for one path. -/
def failures (path : ProbedPath) : List FailedValidation :=
  if path.unreported then [path.failedValidation] else []

variable {state : Slab ProbedPath × List FailedValidation}

theorem foldl_notifyNext_get (failed : List (Nat × ProbedPath)) (pid : Nat) :
    (failed.foldl notifyNext state).1.get pid =
      if pid ∈ failed.map (·.1) then (state.1.get pid).map fun path => { path with failureNotified := true }
      else state.1.get pid := by
  induction failed generalizing state with
  | nil => simp
  | cons first rest ih =>
    rw [List.foldl_cons, ih, notifyNext, Slab.get_update]
    by_cases same : pid = first.1
    · have listed : pid ∈ (first :: rest).map (·.1) := List.mem_cons.mpr (.inl same)
      rw [if_pos same, if_pos listed]
      cases state.1.get pid <;> simp
    · have listed : pid ∈ (first :: rest).map (·.1) ↔ pid ∈ rest.map (·.1) := List.mem_cons.trans (or_iff_right same)
      rw [if_neg same, if_congr listed rfl rfl]

theorem foldl_notifyNext_events (failed : List (Nat × ProbedPath)) :
    (failed.foldl notifyNext state).2 = state.2 ++ failed.map (·.2.failedValidation) := by
  induction failed generalizing state with
  | nil => simp
  | cons first rest ih => simp [ih, notifyNext]

/-- Every path of the map is notified by itself. -/
theorem notifyFailedValidations_get (paths : Slab ProbedPath) (events : List FailedValidation) (pid : Nat) :
    (notifyFailedValidations paths events).1.get pid = (paths.get pid).map notify := by
  have listed : pid ∈ (paths.iter.filter fun (_, path) => path.unreported).map (·.1) ↔
      ∃ path, paths.get pid = some path ∧ path.unreported = true := by
    simp [Slab.mem_iter]
  rw [notifyFailedValidations, foldl_notifyNext_get]
  cases found : paths.get pid with
  | none => simp
  | some path => cases failed : path.unreported <;> simp [listed, found, failed, notify]

/-- The events are those of the single paths, in the order of the map. -/
theorem notifyFailedValidations_events (paths : Slab ProbedPath) (events : List FailedValidation) :
    (notifyFailedValidations paths events).2 = events ++ paths.iter.flatMap fun (_, path) => path.failures := by
  rw [notifyFailedValidations, foldl_notifyNext_events]
  congr 1
  induction paths.iter with
  | nil => rfl
  | cons first rest ih => cases failed : first.2.unreported <;> simp [failed, failures, ih]

end ProbedPath

/-- One path of the map with the events about it. -/
structure Probing where
  path : ProbedPath
  events : List FailedValidation
  isServer : Bool
  /-- How often the state became `Failed`. -/
  entered : Nat
deriving DecidableEq

namespace Probing

/-- The probing events of a path, and what changes the credit that a timeout reads. -/
inductive Op where
  | requestValidation
  | addChallengeSent (data : BitVec 64) (pktSize sentTime : Nat)
  | onResponseReceived (data : BitVec 64)
  | onLossDetectionTimeout (now rtt : Nat)
  | setMaxSendBytes (maxSendBytes : Nat)
deriving DecidableEq

def Op.change (isServer : Bool) : Op → Path → Path
  | .requestValidation, path => path.requestValidation
  | .addChallengeSent data pktSize sentTime, path => path.addChallengeSent data pktSize sentTime
  | .onResponseReceived data, path => (path.onResponseReceived data).1
  | .onLossDetectionTimeout now rtt, path => path.onLossDetectionTimeout now rtt isServer
  | .setMaxSendBytes maxSendBytes, path => { path with maxSendBytes }

def apply (probing : Probing) (op : Op) : Probing :=
  let path := op.change probing.isServer probing.path.toPath
  { probing with
    path := { probing.path with toPath := path }
    entered := probing.entered + (path.validationFailed && !probing.path.validationFailed).toNat }

def notify (probing : Probing) : Probing :=
  { probing with path := probing.path.notify, events := probing.events ++ probing.path.failures }

def step (probing : Probing) (op : Op) : Probing :=
  match op with
  | .onLossDetectionTimeout .. => (probing.apply op).notify
  | _ => probing.apply op

def machine : Machine Probing Op where
  step probing op := some (probing.step op)

def start (localAddr peerAddr : SocketAddr) (isInitial isServer : Bool) : Probing :=
  ⟨ProbedPath.new localAddr peerAddr isInitial, [], isServer, 0⟩

/-- The timeout fails no path that left `Failed` after the application was notified. -/
def Reports (probing : Probing) : Op → Prop
  | .onLossDetectionTimeout now rtt =>
    ¬ (probing.path.failureNotified ∧ ¬ probing.path.validationFailed ∧ probing.path.fails now rtt probing.isServer)
  | _ => True

variable {probing : Probing} {localAddr peerAddr : SocketAddr}

/-- The failure of the path was reported once if it ever failed, and its flag says so. -/
structure Notified (localAddr peerAddr : SocketAddr) (probing : Probing) : Prop where
  sameLocal : probing.path.localAddr = localAddr
  samePeer : probing.path.peerAddr = peerAddr
  marked : probing.path.failureNotified = decide (0 < probing.entered)
  events : probing.events = List.replicate (min 1 probing.entered) ⟨localAddr, peerAddr⟩
  failed : probing.path.validationFailed = true → 0 < probing.entered

theorem change_addrs (isServer : Bool) (op : Op) (path : Path) :
    (op.change isServer path).localAddr = path.localAddr ∧ (op.change isServer path).peerAddr = path.peerAddr := by
  cases op with
  | requestValidation | setMaxSendBytes => exact ⟨rfl, rfl⟩
  | addChallengeSent data pktSize sentTime => exact path.promoteTo_addrs .validating
  | onResponseReceived data => exact (path.onResponseReceived_spec data).2
  | onLossDetectionTimeout now rtt => exact (path.onLossDetectionTimeout_spec now rtt isServer).2

theorem timeout_failed (isServer : Bool) (now rtt : Nat) (path : Path) :
    (path.onLossDetectionTimeout now rtt isServer).validationFailed =
      (path.validationFailed || path.fails now rtt isServer) := by
  rw [Path.validationFailed, (path.onLossDetectionTimeout_spec now rtt isServer).1, Path.validationFailed]
  cases path.fails now rtt isServer <;> simp

theorem change_failed {isServer : Bool} {op : Op} {path : Path}
    (quiet : ∀ now rtt, op ≠ .onLossDetectionTimeout now rtt)
    (failed : (op.change isServer path).validationFailed = true) : path.validationFailed = true := by
  cases op with
  | requestValidation | setMaxSendBytes => exact failed
  | addChallengeSent data pktSize sentTime =>
    have working : (path.addChallengeSent data pktSize sentTime).validationFailed = false :=
      path.promoteTo_failed (by decide)
    rw [Op.change, working] at failed
    contradiction
  | onResponseReceived data =>
    rw [Op.change, (path.onResponseReceived_spec data).1] at failed
    contradiction
  | onLossDetectionTimeout now rtt => exact absurd rfl (quiet now rtt)

theorem Notified.quiet (notified : Notified localAddr peerAddr probing) {op : Op}
    (quiet : ∀ now rtt, op ≠ .onLossDetectionTimeout now rtt) :
    Notified localAddr peerAddr (probing.apply op) ∧ (probing.apply op).entered = probing.entered := by
  obtain ⟨sameLocal, samePeer⟩ := change_addrs probing.isServer op probing.path.toPath
  have same : (probing.apply op).entered = probing.entered := by
    cases failed : (op.change probing.isServer probing.path.toPath).validationFailed with
    | false => simp [apply, failed]
    | true => simp [apply, failed, change_failed quiet failed]
  refine ⟨⟨sameLocal.trans notified.sameLocal, samePeer.trans notified.samePeer, ?_, ?_, ?_⟩, same⟩
  · rw [same]
    exact notified.marked
  · rw [same]
    exact notified.events
  · rw [same]
    exact fun failed => notified.failed (change_failed quiet failed)

theorem notify_path (probing : Probing) : probing.notify.path.toPath = probing.path.toPath ∧
      probing.notify.path.failureNotified = (probing.path.failureNotified || probing.path.validationFailed) := by
  rw [notify, ProbedPath.notify, ProbedPath.unreported]
  cases marked : probing.path.failureNotified <;> cases failed : probing.path.validationFailed <;>
    simp [marked]

theorem notify_events (probing : Probing) : probing.notify.events = probing.events ++
      List.replicate (probing.path.validationFailed && !probing.path.failureNotified).toNat
        ⟨probing.path.localAddr, probing.path.peerAddr⟩ := by
  rw [notify, ProbedPath.failures, ProbedPath.unreported]
  cases probing.path.validationFailed && !probing.path.failureNotified with
  | false => rfl
  | true => rfl

theorem timeout_spec (probing : Probing) (now rtt : Nat) :
    (probing.step (.onLossDetectionTimeout now rtt)).path.toPath =
        probing.path.onLossDetectionTimeout now rtt probing.isServer ∧
      (probing.step (.onLossDetectionTimeout now rtt)).path.failureNotified =
        (probing.path.failureNotified || (probing.path.validationFailed ||
          probing.path.fails now rtt probing.isServer)) ∧
      (probing.step (.onLossDetectionTimeout now rtt)).events = probing.events ++
        List.replicate ((probing.path.validationFailed || probing.path.fails now rtt probing.isServer) &&
          !probing.path.failureNotified).toNat ⟨probing.path.localAddr, probing.path.peerAddr⟩ ∧
      (probing.step (.onLossDetectionTimeout now rtt)).entered = probing.entered +
        (probing.path.fails now rtt probing.isServer && !probing.path.validationFailed).toNat := by
  obtain ⟨_, sameLocal, samePeer⟩ := probing.path.onLossDetectionTimeout_spec now rtt probing.isServer
  obtain ⟨samePath, marks⟩ := notify_path (probing.apply (.onLossDetectionTimeout now rtt))
  have events := notify_events (probing.apply (.onLossDetectionTimeout now rtt))
  rw [← timeout_failed]
  refine ⟨samePath, marks, ?_, ?_⟩
  · rw [← sameLocal, ← samePeer]
    exact events
  · show probing.entered + ((probing.path.onLossDetectionTimeout now rtt probing.isServer).validationFailed &&
      !probing.path.validationFailed).toNat = _
    rw [timeout_failed]
    cases probing.path.validationFailed <;> simp

theorem Notified.timeout (notified : Notified localAddr peerAddr probing) (now rtt : Nat) :
    Notified localAddr peerAddr (probing.step (.onLossDetectionTimeout now rtt)) := by
  obtain ⟨_, sameLocal, samePeer⟩ := probing.path.onLossDetectionTimeout_spec now rtt probing.isServer
  obtain ⟨samePath, marks, events, entered⟩ := probing.timeout_spec now rtt
  have failed := timeout_failed probing.isServer now rtt probing.path.toPath
  rw [notified.sameLocal] at sameLocal events
  rw [notified.samePeer] at samePeer events
  rw [notified.marked] at marks events
  rw [notified.events] at events
  have working := notified.failed
  constructor
  · rw [samePath, sameLocal]
  · rw [samePath, samePeer]
  · rw [marks, entered]
    cases before : probing.path.validationFailed with
    | true => simp [working before]
    | false => cases probing.path.fails now rtt probing.isServer <;> simp
  · rw [events, entered, ← List.replicate_add]
    congr 1
    rcases Nat.eq_zero_or_pos probing.entered with fresh | once
    · have valid : probing.path.validationFailed = false :=
        Bool.eq_false_iff.mpr fun before => absurd (working before) (by omega)
      rw [fresh, valid]
      cases probing.path.fails now rtt probing.isServer <;> rfl
    · rw [decide_eq_true once, Bool.not_true, Bool.and_false, Bool.toNat_false]
      omega
  · rw [samePath, failed, entered]
    cases before : probing.path.validationFailed with
    | true =>
      have := working before
      omega
    | false => cases probing.path.fails now rtt probing.isServer <;> simp

theorem Notified.step (notified : Notified localAddr peerAddr probing) (op : Op) :
    Notified localAddr peerAddr (probing.step op) ∧ probing.entered ≤ (probing.step op).entered ∧
      (probing.Reports op → (probing.step op).entered ≤ max 1 probing.entered) ∧
      (¬ probing.Reports op → 1 < (probing.step op).entered) := by
  have unchanged : ∀ op, (∀ now rtt, op ≠ .onLossDetectionTimeout now rtt) →
      Notified localAddr peerAddr (probing.apply op) ∧ probing.entered ≤ (probing.apply op).entered ∧
        (True → (probing.apply op).entered ≤ max 1 probing.entered) ∧ (¬ True → 1 < (probing.apply op).entered) := by
    intro op quiet
    obtain ⟨kept, same⟩ := notified.quiet quiet
    rw [same]
    exact ⟨kept, Nat.le_refl _, fun _ => Nat.le_max_right _ _, fun never => absurd trivial never⟩
  cases op with
  | requestValidation | addChallengeSent | onResponseReceived | setMaxSendBytes => exact unchanged _ (by simp)
  | onLossDetectionTimeout now rtt =>
    obtain ⟨_, _, _, entered⟩ := probing.timeout_spec now rtt
    refine ⟨notified.timeout now rtt, by omega, ?_, ?_⟩
    · intro reports
      rw [entered]
      rcases Nat.eq_zero_or_pos probing.entered with fresh | once
      · have bit := Bool.toNat_le (probing.path.fails now rtt probing.isServer && !probing.path.validationFailed)
        omega
      · have marked : probing.path.failureNotified = true := by rw [notified.marked, decide_eq_true once]
        have stays : (probing.path.fails now rtt probing.isServer && !probing.path.validationFailed) = false := by
          cases before : probing.path.validationFailed with
          | true => simp
          | false =>
            cases fails : probing.path.fails now rtt probing.isServer with
            | true => exact absurd ⟨marked, by simp [before], fails⟩ reports
            | false => rfl
        rw [stays]
        exact Nat.le_max_right _ _
    · intro missed
      obtain ⟨marked, working, fails⟩ := not_not.mp missed
      rw [notified.marked, decide_eq_true_eq] at marked
      rw [entered, fails, Bool.eq_false_iff.mpr working]
      exact Nat.succ_lt_succ marked

theorem start_notified (localAddr peerAddr : SocketAddr) (isInitial isServer : Bool) :
    Notified localAddr peerAddr (start localAddr peerAddr isInitial isServer) where
  sameLocal := rfl
  samePeer := rfl
  marked := rfl
  events := rfl
  failed := by cases isInitial <;> simp [start, ProbedPath.new, Path.new, Path.validationFailed]

theorem run_notified (notified : Notified localAddr peerAddr probing) (ops : List Op) :
    ∃ final, machine.run probing ops = some final ∧ Notified localAddr peerAddr final ∧
      probing.entered ≤ final.entered ∧
      (probing.entered ≤ 1 → (final.entered ≤ 1 ↔ machine.Guarded Reports probing ops)) := by
  induction ops generalizing probing with
  | nil => exact ⟨probing, rfl, notified, Nat.le_refl _, fun once => ⟨fun _ => trivial, fun _ => once⟩⟩
  | cons op ops ih =>
    obtain ⟨stepped, grows, reported, missed⟩ := notified.step op
    obtain ⟨final, completed, finalMore, more, exactly⟩ := ih stepped
    refine ⟨final, completed, finalMore, Nat.le_trans grows more, fun once => ?_⟩
    by_cases reports : probing.Reports op
    · have still : (probing.step op).entered ≤ 1 := by
        have := reported reports
        omega
      rw [exactly still]
      constructor
      · intro guarded
        refine ⟨reports, fun next same => ?_⟩
        cases same
        exact guarded
      · exact fun guarded => guarded.2 _ rfl
    · have twice := missed reports
      exact ⟨fun few => absurd few (by omega), fun guarded => absurd guarded.1 reports⟩

/-- The failures are all reported exactly in the runs where no path fails again after its
first failure was notified. -/
theorem failures_reported (localAddr peerAddr : SocketAddr) (isInitial isServer : Bool) (ops : List Op) :
    ∃ final, machine.run (start localAddr peerAddr isInitial isServer) ops = some final ∧
      (final.events.count ⟨localAddr, peerAddr⟩ = final.entered ↔
        machine.Guarded Reports (start localAddr peerAddr isInitial isServer) ops) := by
  obtain ⟨final, completed, notified, _, exactly⟩ :=
    run_notified (start_notified localAddr peerAddr isInitial isServer) ops
  refine ⟨final, completed, ?_⟩
  rw [← exactly (Nat.zero_le 1), notified.events, List.count_replicate_self]
  omega

def twice : List Op :=
  [.requestValidation, .addChallengeSent 1 1200 0, .onLossDetectionTimeout 10 5, .addChallengeSent 2 1200 10,
    .onLossDetectionTimeout 20 5, .addChallengeSent 3 1200 20, .onLossDetectionTimeout 30 5, .requestValidation,
    .addChallengeSent 4 1200 40, .onLossDetectionTimeout 50 5]

/-- The path fails a second time, and the application hears of it once. -/
theorem failure_unreported :
    ∃ final, machine.run (start ⟨[127, 0, 0, 1], 1⟩ ⟨[127, 0, 0, 1], 2⟩ false false) twice = some final ∧
      final.path.validationFailed = true ∧ final.events.count ⟨⟨[127, 0, 0, 1], 1⟩, ⟨[127, 0, 0, 1], 2⟩⟩ = 1 ∧
      final.entered = 2 := ⟨_, rfl, by decide, by decide, by decide⟩

end Probing

end Quiche
