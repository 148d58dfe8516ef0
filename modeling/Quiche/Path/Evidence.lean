import Quiche.Path.Failure
import Quiche.Path.Index

namespace Quiche

open Data

def Challenge.large (challenge : Challenge) : Bool := minClientInitialLen ≤ challenge.size

namespace Path

variable {path next : Path} {data : BitVec 64}

def enters (path next : Path) : Bool := next.state != path.state && next.state.rank < PathState.validatingMtu.rank

/-- With this challenge enough was received in one datagram to prove the path. -/
def Suffices (path : Path) (data : BitVec 64) : Prop :=
  minClientInitialLen ≤ max path.maxChallengeSize (challengeSize path.inFlightChallenges data)

instance (path : Path) (data : BitVec 64) : Decidable (path.Suffices data) :=
  inferInstanceAs (Decidable (minClientInitialLen ≤ _))

section

variable (path : Path)

theorem promoteTo_inFlight (state : PathState) : (path.promoteTo state).inFlightChallenges = path.inFlightChallenges ∧
      (path.promoteTo state).maxChallengeSize = path.maxChallengeSize := by
  rw [promoteTo]
  split <;> exact ⟨rfl, rfl⟩

theorem promoteTo_state (state : PathState) :
    (path.promoteTo state).state = if path.state.rank < state.rank then state else path.state := by
  rw [promoteTo]
  split <;> rfl

theorem addChallengeSent_spec (data : BitVec 64) (pktSize sentTime : Nat) :
    (path.addChallengeSent data pktSize sentTime).inFlightChallenges =
        path.inFlightChallenges ++ [⟨data, pktSize, sentTime⟩] ∧ (path.addChallengeSent data pktSize sentTime).state =
        if path.state.rank < PathState.validating.rank then .validating else path.state := by
  refine ⟨?_, path.promoteTo_state .validating⟩
  show (path.promoteTo .validating).inFlightChallenges ++ _ = _
  rw [(path.promoteTo_inFlight .validating).1]

theorem countProbeLost_inFlight (lostProbeTime rtt : Nat) :
    (path.countProbeLost lostProbeTime rtt).inFlightChallenges = path.inFlightChallenges := by
  rw [countProbeLost]
  split
  · split <;> rfl
  · rfl

theorem onLossDetectionTimeout_inFlight (now rtt : Nat) (isServer : Bool) :
    (path.onLossDetectionTimeout now rtt isServer).inFlightChallenges =
      path.inFlightChallenges.filter fun challenge => challenge.sentTime > now := by
  rw [onLossDetectionTimeout]
  split
  · rfl
  · dsimp only
    split <;> exact countProbeLost_inFlight _ _ _

theorem onResponseReceived_state (data : BitVec 64) : (path.onResponseReceived data).1.state =
        (if path.state = .validated ∨ path.Suffices data then .validated else .validatingMtu) ∧
      (path.onResponseReceived data).1.inFlightChallenges =
        path.inFlightChallenges.filter fun challenge => challenge.data != data := by
  rw [onResponseReceived]
  dsimp only
  obtain ⟨answered, made⟩ : ∃ answered : Path, answered = { path with
    verifiedPeerAddress := true
    probingLost := 0
    inFlightChallenges := path.inFlightChallenges.filter fun challenge => challenge.data != data } := ⟨_, rfl⟩
  have state : answered.state = path.state := by rw [made]
  have flight : answered.inFlightChallenges = path.inFlightChallenges.filter fun challenge => challenge.data != data := by
    rw [made]
  have credit : answered.maxChallengeSize = path.maxChallengeSize := by rw [made]
  obtain ⟨sameFlight, sameCredit⟩ := answered.promoteTo_inFlight .validatingMtu
  have promoted := answered.promoteTo_state .validatingMtu
  rw [← made, sameCredit, credit]
  cases valid : path.state with
  | validated =>
    have stays : (answered.promoteTo .validatingMtu).state = .validated := by
      rw [promoted, state, valid]
      rfl
    rw [if_neg (by rw [stays]; decide)]
    exact ⟨stays, sameFlight.trans flight⟩
  | _ =>
    have reached : (answered.promoteTo .validatingMtu).state = .validatingMtu := by
      rw [promoted, state, valid]
      rfl
    rw [if_pos reached]
    by_cases enough : path.Suffices data
    · have more : max path.maxChallengeSize (challengeSize path.inFlightChallenges data) ≥ minClientInitialLen := enough
      simp only [enough, or_true, if_true, if_pos more]
      refine ⟨?_, (promoteTo_inFlight _ _).1.trans (sameFlight.trans flight)⟩
      rw [promoteTo_state]
      show (if (answered.promoteTo .validatingMtu).state.rank < _ then _ else _) = _
      rw [reached]
      rfl
    · have less : ¬ max path.maxChallengeSize (challengeSize path.inFlightChallenges data) ≥ minClientInitialLen := enough
      simp only [enough, or_false, if_neg less]
      exact ⟨reached, sameFlight.trans flight⟩

end

theorem challengeSize_exists {challenges : List Challenge} (large : minClientInitialLen ≤ challengeSize challenges data) :
    ∃ challenge ∈ challenges, challenge.data = data ∧ challenge.large = true := by
  rw [challengeSize] at large
  cases last : (challenges.filter fun challenge => challenge.data == data).getLast? with
  | none =>
    rw [last] at large
    exact absurd large (by decide)
  | some challenge =>
    rw [last] at large
    have member := List.mem_filter.mp (List.mem_of_getLast? last)
    exact ⟨challenge, member.1, eq_of_beq member.2, decide_eq_true large⟩

theorem challengeSize_of_mem {challenges : List Challenge} {challenge : Challenge}
    (distinct : (challenges.map (·.data)).Nodup) (member : challenge ∈ challenges) (same : challenge.data = data) :
    challengeSize challenges data = challenge.size := by
  have kept : challenge ∈ challenges.filter fun challenge => challenge.data == data :=
    List.mem_filter.mpr ⟨member, beq_iff_eq.mpr same⟩
  rw [challengeSize]
  cases last : (challenges.filter fun challenge => challenge.data == data).getLast? with
  | none =>
    rw [List.getLast?_eq_none_iff] at last
    rw [last] at kept
    cases kept
  | some found =>
    have foundMember := List.mem_filter.mp (List.mem_of_getLast? last)
    have equal : found = challenge :=
      List.inj_on_of_nodup_map distinct foundMember.1 member ((eq_of_beq foundMember.2).trans same.symm)
    rw [equal]
    rfl

end Path

namespace PathMap

/-- What is known of a path since it last came to a state that says nothing about its MTU. -/
structure Attempt where
  sent : List Challenge
  /-- A large challenge of the attempt was answered. -/
  proven : Bool
deriving DecidableEq

def Attempt.fresh : Attempt := ⟨[], false⟩

/-- The calls that concern the validation of paths, and those that decide which path is active and
which one may be evicted. -/
inductive Op where
  | requestValidation (pathId : Nat)
  | addChallengeSent (pathId : Nat) (data : BitVec 64) (pktSize sentTime : Nat)
  | onResponseReceived (data : BitVec 64)
  | onLossDetectionTimeout (pathId now rtt : Nat)
  | insertPath (localAddr peerAddr : SocketAddr) (isServer : Bool)
  | setActivePath (pathId : Nat)
  | setActiveDcidSeq (pathId : Nat) (seq : Option Nat)
  | setMaxSendBytes (pathId maxSendBytes : Nat)
deriving DecidableEq

def Op.apply (map : PathMap) : Op → PathMap
  | .requestValidation pathId => map.update pathId (·.requestValidation)
  | .addChallengeSent pathId data pktSize sentTime => map.update pathId (·.addChallengeSent data pktSize sentTime)
  | .onResponseReceived data => after (PathMap.onResponseReceived data map)
  | .onLossDetectionTimeout pathId now rtt => map.update pathId (·.onLossDetectionTimeout now rtt map.isServer)
  | .insertPath localAddr peerAddr isServer => after (PathMap.insertPath (Path.new localAddr peerAddr false) isServer map)
  | .setActivePath pathId => after (PathMap.setActivePath pathId map)
  | .setActiveDcidSeq pathId seq => map.update pathId fun path => { path with activeDcidSeq := seq }
  | .setMaxSendBytes pathId maxSendBytes => map.update pathId fun path => { path with maxSendBytes }

/-- What a call adds to what is known of the path `pathId`, which it turned from `path` into `next`. -/
def Op.record (pathId : Nat) (path next : Path) (attempt : Attempt) (op : Op) : Attempt :=
  let attempt := if path.enters next then .fresh else attempt
  match op with
  | .addChallengeSent target data pktSize sentTime =>
    if target = pathId then { attempt with sent := attempt.sent ++ [⟨data, pktSize, sentTime⟩] } else attempt
  -- A challenge is answered when the response takes it out of those in flight.
  | .onResponseReceived data =>
    { attempt with
      proven := attempt.proven || attempt.sent.any fun challenge => challenge.large && challenge.data == data &&
        path.inFlightChallenges.contains challenge && !next.inFlightChallenges.contains challenge }
  -- The path may be another one under the identifier of one that was evicted.
  | .insertPath .. => if next = path then attempt else .fresh
  | _ => attempt

def answers (map : PathMap) (data : BitVec 64) : Option (Nat × Path) :=
  map.getActivePathId.bind fun _ => map.paths.iter.find? fun (_, path) => path.hasPendingChallenge data

structure Trial where
  map : PathMap
  attempts : Nat → Attempt

namespace Trial

def step (trial : Trial) (op : Op) : Trial where
  map := op.apply trial.map
  attempts pathId :=
    match trial.map.get pathId, (op.apply trial.map).get pathId with
    | some path, some next => op.record pathId path next (trial.attempts pathId)
    | _, _ => .fresh

def machine : Machine Trial Op where
  step trial op := some (trial.step op)

def start (localAddr peerAddr : SocketAddr) (isInitial : Bool) (maxConcurrentPaths : Nat) (isServer : Bool) : Trial :=
  ⟨PathMap.new (Path.new localAddr peerAddr isInitial) maxConcurrentPaths isServer, fun _ => .fresh⟩

/-- A path only becomes validated by the response to a pending challenge, with a large one answered since its
attempt began. -/
def Justified (trial : Trial) (op : Op) : Prop :=
  ∀ pathId path next, trial.map.get pathId = some path → (trial.step op).map.get pathId = some next →
    path.state ≠ .validated → next.state = .validated →
      (∃ data, op = .onResponseReceived data ∧ path.hasPendingChallenge data = true) ∧
        ((trial.step op).attempts pathId).proven = true

/-- The operation validates no path without evidence, and paths stay under their addresses. -/
structure Evident (trial : Trial) (op : Op) : Prop where
  justified : trial.Justified op
  indexed : (trial.step op).map.Indexed

/-- The credit of an answer is from the current attempt, and a path that fails leaves no large challenge in flight. -/
def Sound (trial : Trial) : Op → Prop
  -- A path with enough credit from an earlier attempt answers a large challenge now.
  | .onResponseReceived data => ∀ pathId path, trial.map.answers data = some (pathId, path) →
      path.state ≠ .validated → minClientInitialLen ≤ path.maxChallengeSize →
        ∃ challenge ∈ path.inFlightChallenges, challenge.data = data ∧ challenge.large = true
  -- No large challenge outlives the failure of its path.
  | .onLossDetectionTimeout pathId now rtt => ∀ path, trial.map.get pathId = some path →
      path.fails now rtt trial.map.isServer = true →
        ∀ challenge ∈ path.inFlightChallenges, challenge.large = true → challenge.sentTime ≤ now
  | .insertPath localAddr peerAddr _ => trial.map.Admits (localAddr, peerAddr)
  | _ => True

/-- The clock does not go back between a challenge and a timeout, and no challenge is sent again while it is in
flight. -/
def Orderly (trial : Trial) : Op → Prop
  | .onLossDetectionTimeout pathId now _ => ∀ path, trial.map.get pathId = some path →
      ∀ challenge ∈ path.inFlightChallenges, challenge.sentTime ≤ now
  | .addChallengeSent pathId data _ _ => ∀ path, trial.map.get pathId = some path →
      path.hasPendingChallenge data = false
  | _ => True

/-- Large challenges in flight are from the current attempt. -/
structure Honest (attempt : Attempt) (path : Path) : Prop where
  sent : ∀ challenge ∈ path.inFlightChallenges, challenge.large = true → challenge ∈ attempt.sent
  low : path.state.rank < PathState.validating.rank → ∀ challenge ∈ path.inFlightChallenges, challenge.large = false

/-- No challenge is in flight twice, and only a validated path is proven. -/
structure Plain (attempt : Attempt) (path : Path) : Prop where
  distinct : (path.inFlightChallenges.map (·.data)).Nodup
  proven : attempt.proven = true → path.state = .validated

section Paths

variable {attempt : Attempt} {path next : Path} {pathId : Nat} {op : Op}

theorem Honest.kept (honest : Honest attempt path) (state : next.state = path.state)
    (fewer : ∀ challenge ∈ next.inFlightChallenges, challenge ∈ path.inFlightChallenges) : Honest attempt next where
  sent challenge member := honest.sent challenge (fewer challenge member)
  low below challenge member := honest.low (state ▸ below) challenge (fewer challenge member)

theorem Plain.kept (plain : Plain attempt path) (state : next.state = path.state)
    (fewer : next.inFlightChallenges.Sublist path.inFlightChallenges) : Plain attempt next where
  distinct := plain.distinct.sublist (fewer.map _)
  proven proven := state.trans (plain.proven proven)

theorem record_still (state : next.state = path.state) (flight : next.inFlightChallenges = path.inFlightChallenges)
    (other : ∀ data pktSize sentTime, op ≠ .addChallengeSent pathId data pktSize sentTime)
    (same : ∀ localAddr peerAddr isServer, op = .insertPath localAddr peerAddr isServer → next = path) :
    op.record pathId path next attempt = attempt := by
  have stays : path.enters next = false := by simp [Path.enters, state]
  cases op with
  | addChallengeSent target data pktSize sentTime =>
    have elsewhere : target ≠ pathId := by
      rintro rfl
      exact other data pktSize sentTime rfl
    simp [Op.record, stays, elsewhere]
  | onResponseReceived data =>
    have nothing : (attempt.sent.any fun challenge => challenge.large && challenge.data == data &&
        path.inFlightChallenges.contains challenge && !next.inFlightChallenges.contains challenge) = false := by
      rw [flight, List.any_eq_false]
      intro challenge _
      cases path.inFlightChallenges.contains challenge <;> simp
    simp only [Op.record, stays, nothing, Bool.false_eq_true, if_false, Bool.or_false]
  | insertPath localAddr peerAddr isServer =>
    have unchanged := same localAddr peerAddr isServer rfl
    subst unchanged
    simp [Op.record, stays]
  | _ => simp [Op.record, stays]

theorem record_send (data : BitVec 64) (pktSize sentTime : Nat) :
    (Op.addChallengeSent pathId data pktSize sentTime).record pathId path
        (path.addChallengeSent data pktSize sentTime) attempt =
      if path.state.rank < PathState.validating.rank then ⟨[⟨data, pktSize, sentTime⟩], false⟩
      else ⟨attempt.sent ++ [⟨data, pktSize, sentTime⟩], attempt.proven⟩ := by
  have state := (path.addChallengeSent_spec data pktSize sentTime).2
  by_cases low : path.state.rank < PathState.validating.rank
  · rw [if_pos low] at state
    have entered : path.enters (path.addChallengeSent data pktSize sentTime) = true := by
      rw [Path.enters, state]
      cases at_ : path.state <;> rw [at_] at low <;> first | rfl | exact absurd low (by decide)
    simp only [Op.record, entered, if_true, if_pos low, Attempt.fresh, List.nil_append]
  · rw [if_neg low] at state
    have stays : path.enters (path.addChallengeSent data pktSize sentTime) = false := by simp [Path.enters, state]
    simp only [Op.record, stays, if_true, if_neg low, Bool.false_eq_true, if_false]

theorem Honest.send (honest : Honest attempt path) (data : BitVec 64) (pktSize sentTime : Nat) :
    Honest ((Op.addChallengeSent pathId data pktSize sentTime).record pathId path
      (path.addChallengeSent data pktSize sentTime) attempt) (path.addChallengeSent data pktSize sentTime) := by
  obtain ⟨flight, state⟩ := path.addChallengeSent_spec data pktSize sentTime
  rw [record_send]
  by_cases low : path.state.rank < PathState.validating.rank
  · rw [if_pos low] at state ⊢
    refine ⟨?_, ?_⟩
    · intro challenge member large
      rw [flight, List.mem_append] at member
      rcases member with earlier | now
      · rw [honest.low low challenge earlier] at large
        cases large
      · exact now
    · rw [state]
      intro below
      exact absurd below (by decide)
  · rw [if_neg low] at state ⊢
    refine ⟨?_, ?_⟩
    · intro challenge member large
      rw [flight, List.mem_append] at member
      rcases member with earlier | now
      · exact List.mem_append_left _ (honest.sent challenge earlier large)
      · exact List.mem_append_right _ now
    · rw [state]
      exact fun below => absurd below low

theorem Plain.send (plain : Plain attempt path) {data : BitVec 64} (fresh : path.hasPendingChallenge data = false)
    (pktSize sentTime : Nat) : Plain ((Op.addChallengeSent pathId data pktSize sentTime).record pathId path
      (path.addChallengeSent data pktSize sentTime) attempt) (path.addChallengeSent data pktSize sentTime) := by
  obtain ⟨flight, state⟩ := path.addChallengeSent_spec data pktSize sentTime
  rw [record_send]
  constructor
  · rw [flight, List.map_append]
    apply plain.distinct.append (List.nodup_singleton _)
    intro value earlier now
    obtain ⟨challenge, member, rfl⟩ := List.mem_map.mp earlier
    rw [Path.hasPendingChallenge, List.any_eq_false] at fresh
    exact fresh challenge member (beq_iff_eq.mpr (List.mem_singleton.mp now))
  · by_cases low : path.state.rank < PathState.validating.rank
    · rw [if_pos low]
      intro proven
      cases proven
    · rw [if_neg low] at state ⊢
      rw [state]
      exact plain.proven

theorem record_timeout (now rtt : Nat) (isServer : Bool) :
    (Op.onLossDetectionTimeout pathId now rtt).record pathId path (path.onLossDetectionTimeout now rtt isServer) attempt =
      if path.fails now rtt isServer = true ∧ path.state ≠ .failed then .fresh else attempt := by
  have state := (path.onLossDetectionTimeout_spec now rtt isServer).1
  have entered : path.enters (path.onLossDetectionTimeout now rtt isServer) =
      decide (path.fails now rtt isServer = true ∧ path.state ≠ .failed) := by
    rw [Path.enters, state]
    by_cases fails : path.fails now rtt isServer = true
    · rw [if_pos fails]
      by_cases already : path.state = .failed
      · simp [already]
      · simp [fails, already, Ne.symm already, PathState.rank]
    · simp [fails]
  simp only [Op.record, entered, decide_eq_true_eq]

theorem Honest.timeout (honest : Honest attempt path) (now rtt : Nat) (isServer : Bool)
    (outlives : path.fails now rtt isServer = true →
      ∀ challenge ∈ path.inFlightChallenges, challenge.large = true → challenge.sentTime ≤ now) :
    Honest ((Op.onLossDetectionTimeout pathId now rtt).record pathId path
      (path.onLossDetectionTimeout now rtt isServer) attempt) (path.onLossDetectionTimeout now rtt isServer) := by
  have flight := path.onLossDetectionTimeout_inFlight now rtt isServer
  have state := (path.onLossDetectionTimeout_spec now rtt isServer).1
  have fewer : ∀ challenge ∈ (path.onLossDetectionTimeout now rtt isServer).inFlightChallenges,
      challenge ∈ path.inFlightChallenges ∧ now < challenge.sentTime := by
    intro challenge member
    rw [flight] at member
    obtain ⟨earlier, later⟩ := List.mem_filter.mp member
    exact ⟨earlier, of_decide_eq_true later⟩
  rw [record_timeout]
  by_cases fails : path.fails now rtt isServer = true
  · have small : ∀ challenge ∈ (path.onLossDetectionTimeout now rtt isServer).inFlightChallenges,
        challenge.large = false := by
      intro challenge member
      obtain ⟨earlier, later⟩ := fewer challenge member
      rw [← Bool.not_eq_true]
      intro large
      have gone := outlives fails challenge earlier large
      omega
    refine ⟨fun challenge member large => ?_, fun _ => small⟩
    rw [small challenge member] at large
    cases large
  · rw [if_neg fails] at state
    rw [if_neg fun both => fails both.1]
    exact honest.kept state fun challenge member => (fewer challenge member).1

theorem Plain.timeout (plain : Plain attempt path) (now rtt : Nat) (isServer : Bool) :
    Plain ((Op.onLossDetectionTimeout pathId now rtt).record pathId path
      (path.onLossDetectionTimeout now rtt isServer) attempt) (path.onLossDetectionTimeout now rtt isServer) := by
  have state := (path.onLossDetectionTimeout_spec now rtt isServer).1
  have fewer : (path.onLossDetectionTimeout now rtt isServer).inFlightChallenges.Sublist path.inFlightChallenges := by
    rw [path.onLossDetectionTimeout_inFlight now rtt isServer]
    exact List.filter_sublist
  rw [record_timeout]
  by_cases failing : path.fails now rtt isServer = true ∧ path.state ≠ .failed
  · rw [if_pos failing]
    refine ⟨plain.distinct.sublist (fewer.map _), ?_⟩
    intro proven
    cases proven
  · rw [if_neg failing]
    refine plain.kept ?_ fewer
    rw [state]
    by_cases fails : path.fails now rtt isServer = true
    · rw [if_pos fails]
      by_contra other
      exact failing ⟨fails, Ne.symm other⟩
    · exact if_neg fails

section Answers

variable {data : BitVec 64} {answered : Path}
  (state : answered.state = (path.onResponseReceived data).1.state)
  (flight : answered.inFlightChallenges = (path.onResponseReceived data).1.inFlightChallenges)

include state flight

theorem record_answer : (Op.onResponseReceived data).record pathId path answered attempt = { attempt with
      proven := attempt.proven || attempt.sent.any fun challenge => challenge.large && challenge.data == data &&
        path.inFlightChallenges.contains challenge } := by
  obtain ⟨reached, left⟩ := path.onResponseReceived_state data
  have stays : path.enters answered = false := by
    rw [Path.enters, state, reached]
    split <;> simp [PathState.rank]
  have gone : ∀ challenge : Challenge, challenge.data = data →
    answered.inFlightChallenges.contains challenge = false := by
    intro challenge same
    rw [← Bool.not_eq_true, List.contains_iff_mem, flight, left]
    simp [same]
  simp only [Op.record, stays, Bool.false_eq_true, if_false]
  congr 2
  congr 1
  funext challenge
  by_cases same : challenge.data = data
  · rw [gone challenge same, Bool.not_false, Bool.and_true]
  · simp [same]

theorem Honest.answer (honest : Honest attempt path) :
    Honest ((Op.onResponseReceived data).record pathId path answered attempt) answered := by
  obtain ⟨reached, left⟩ := path.onResponseReceived_state data
  rw [record_answer state flight]
  constructor
  · intro challenge member large
    rw [flight, left] at member
    exact honest.sent challenge (List.mem_filter.mp member).1 large
  · rw [state, reached]
    split <;> exact fun below => absurd below (by decide)

theorem Honest.proven (honest : Honest attempt path)
    (large : ∃ challenge ∈ path.inFlightChallenges, challenge.data = data ∧ challenge.large = true) :
    ((Op.onResponseReceived data).record pathId path answered attempt).proven = true := by
  obtain ⟨challenge, member, same, large⟩ := large
  have known := honest.sent challenge member large
  rw [record_answer state flight, Bool.or_eq_true, List.any_eq_true]
  exact .inr ⟨challenge, known, by simp [large, same, member]⟩

theorem Plain.answer (plain : Plain attempt path) :
    Plain ((Op.onResponseReceived data).record pathId path answered attempt) answered := by
  obtain ⟨reached, left⟩ := path.onResponseReceived_state data
  rw [record_answer state flight]
  constructor
  · rw [flight, left]
    exact plain.distinct.sublist (List.filter_sublist.map _)
  · intro proven
    rw [state, reached, if_pos]
    rcases Bool.or_eq_true .. |>.mp proven with before | now
    · exact .inl (plain.proven before)
    · right
      obtain ⟨challenge, _, counted⟩ := List.any_eq_true.mp now
      simp only [Bool.and_eq_true, beq_iff_eq, List.contains_iff_mem] at counted
      obtain ⟨⟨large, same⟩, member⟩ := counted
      have credit := Path.challengeSize_of_mem plain.distinct member same
      have enough : minClientInitialLen ≤ challenge.size := of_decide_eq_true large
      rw [Path.Suffices, credit]
      omega

end Answers

end Paths

section Maps

variable {map : PathMap} {pid : Nat} {path next : Path} {op : Op}

/-- The validation of the path stays as it is. -/
structure Still (next path : Path) : Prop where
  state : next.state = path.state
  flight : next.inFlightChallenges = path.inFlightChallenges
  addrs : next.addrs = path.addrs

theorem still_refl (path : Path) : Still path path := ⟨rfl, rfl, rfl⟩

theorem still_startMigrating (path : Path) : Still (startMigrating path) path := by
  rw [startMigrating]
  split <;> exact ⟨rfl, rfl, rfl⟩

theorem setActivePath_still (pathId : Nat) (map : PathMap) :
    Alike Still (after (PathMap.setActivePath pathId map)) map := .setActivePath still_refl
    (fun _ _ _ later sooner =>
      ⟨later.state.trans sooner.state, later.flight.trans sooner.flight, later.addrs.trans sooner.addrs⟩)
    (fun _ _ => ⟨rfl, rfl, rfl⟩) still_startMigrating pathId map

theorem setActivePath_entries (pathId : Nat) (map : PathMap) :
    (after (PathMap.setActivePath pathId map)).addrsToPaths = map.addrsToPaths := by
  have cleared : map.clearActive.addrsToPaths = map.addrsToPaths := by
    rw [clearActive]
    split <;> rfl
  rw [PathMap.setActivePath]
  dsimp only
  split
  · exact cleared
  · split
    · split <;> exact cleared
    · exact cleared

theorem onResponseReceived_cases (map : PathMap) (data : BitVec 64) :
    (map.answers data = none ∧ after (PathMap.onResponseReceived data map) = map) ∨
      ∃ pid path answered, map.answers data = some (pid, path) ∧
        answered.state = (path.onResponseReceived data).1.state ∧
        answered.inFlightChallenges = (path.onResponseReceived data).1.inFlightChallenges ∧
        answered.addrs = path.addrs ∧ (after (PathMap.onResponseReceived data map)).addrsToPaths = map.addrsToPaths ∧
        ∀ other, (after (PathMap.onResponseReceived data map)).get other =
          (map.update pid fun _ => answered).get other := by
  rw [answers, PathMap.onResponseReceived]
  cases map.getActivePathId with
  | none => exact .inl ⟨rfl, rfl⟩
  | some activePid =>
    simp only [Option.bind_some]
    cases found : map.paths.iter.find? fun (_, path) => path.hasPendingChallenge data with
    | none => exact .inl ⟨rfl, rfl⟩
    | some entry =>
      obtain ⟨pid, path⟩ := entry
      right
      obtain ⟨_, sameLocal, samePeer⟩ := path.onResponseReceived_spec data
      have addrs : (path.onResponseReceived data).1.addrs = path.addrs := by
        rw [Path.addrs, sameLocal, samePeer]
        rfl
      cases validated : (path.onResponseReceived data).2 with
      | true =>
        refine ⟨pid, path, { (path.onResponseReceived data).1 with migrating := false }, rfl, rfl, rfl, addrs, ?_, ?_⟩
        · dsimp only
          rw [if_pos validated]
          split <;> rfl
        · intro other
          dsimp only
          rw [if_pos validated]
          split <;> rfl
      | false =>
        refine ⟨pid, path, (path.onResponseReceived data).1, rfl, rfl, rfl, addrs, ?_, ?_⟩
        · dsimp only
          rw [validated]
          rfl
        · intro other
          dsimp only
          rw [validated]
          rfl

theorem answers_spec {data : BitVec 64} (answers : map.answers data = some (pid, path)) :
    map.get pid = some path ∧ path.hasPendingChallenge data = true := by
  obtain ⟨_, _, found⟩ := Option.bind_eq_some_iff.mp answers
  have pending := List.find?_some found
  exact ⟨Slab.mem_iter.mp (List.mem_of_find?_eq_some found), pending⟩

/-- The calls that concern the validation of the path `pid`. -/
inductive Turns (map : PathMap) : Op → Nat → Path → Path → Prop where
  | sent {pid : Nat} {path : Path} (data : BitVec 64) (pktSize sentTime : Nat) :
      Turns map (.addChallengeSent pid data pktSize sentTime) pid path (path.addChallengeSent data pktSize sentTime)
  | lost {pid : Nat} {path : Path} (now rtt : Nat) :
      Turns map (.onLossDetectionTimeout pid now rtt) pid path (path.onLossDetectionTimeout now rtt map.isServer)
  | answered {pid : Nat} {path next : Path} {data : BitVec 64} (answers : map.answers data = some (pid, path))
      (state : next.state = (path.onResponseReceived data).1.state)
      (flight : next.inFlightChallenges = (path.onResponseReceived data).1.inFlightChallenges) :
      Turns map (.onResponseReceived data) pid path next

/-- Any other call that leaves `path` as it is, as far as its validation is concerned. -/
structure Spares (op : Op) (pid : Nat) (path next : Path) : Prop where
  still : Still next path
  unsent : ∀ data pktSize sentTime, op ≠ .addChallengeSent pid data pktSize sentTime
  same : ∀ localAddr peerAddr isServer, op = .insertPath localAddr peerAddr isServer → next = path

theorem apply_cases (map : PathMap) (op : Op) (found : (op.apply map).get pid = some next) :
    (∃ path, map.get pid = some path ∧ (Turns map op pid path next ∨ Spares op pid path next)) ∨
      ∃ localAddr peerAddr isServer, op = .insertPath localAddr peerAddr isServer ∧
        next = Path.new localAddr peerAddr false := by
  cases op with
  | requestValidation target =>
    obtain ⟨path, present, rfl⟩ := get_update_cases found
    refine .inl ⟨path, present, .inr ⟨?_, by simp, by simp⟩⟩
    split <;> exact ⟨rfl, rfl, rfl⟩
  | addChallengeSent target data pktSize sentTime =>
    obtain ⟨path, present, rfl⟩ := get_update_cases found
    refine .inl ⟨path, present, ?_⟩
    by_cases same : pid = target
    · subst same
      rw [if_pos rfl]
      exact .inl (.sent data pktSize sentTime)
    · rw [if_neg same]
      refine .inr ⟨still_refl path, ?_, by simp⟩
      intro data pktSize sentTime equal
      cases equal
      exact same rfl
  | onResponseReceived data =>
    left
    rcases onResponseReceived_cases map data with ⟨_, unchanged⟩ | ⟨target, path, answered, answers, state,
      flight, _, _, get⟩
    · rw [Op.apply, unchanged] at found
      exact ⟨next, found, .inr ⟨still_refl next, by simp, by simp⟩⟩
    · rw [Op.apply, get] at found
      obtain ⟨old, present, rfl⟩ := get_update_cases found
      refine ⟨old, present, ?_⟩
      by_cases same : pid = target
      · subst same
        cases present.symm.trans (answers_spec answers).1
        rw [if_pos rfl]
        exact .inl (.answered answers state flight)
      · rw [if_neg same]
        exact .inr ⟨still_refl old, by simp, by simp⟩
  | onLossDetectionTimeout target now rtt =>
    obtain ⟨path, present, rfl⟩ := get_update_cases found
    refine .inl ⟨path, present, ?_⟩
    by_cases same : pid = target
    · subst same
      rw [if_pos rfl]
      exact .inl (.lost now rtt)
    · rw [if_neg same]
      exact .inr ⟨still_refl path, by simp, by simp⟩
  | insertPath localAddr peerAddr isServer =>
    have kept : map.get pid = some next → ∃ path, map.get pid = some path ∧
        (Turns map (.insertPath localAddr peerAddr isServer) pid path next ∨
          Spares (.insertPath localAddr peerAddr isServer) pid path next) :=
      fun present => ⟨next, present, .inr ⟨still_refl next, by simp, fun _ _ _ _ => rfl⟩⟩
    rcases insertPath_cases map (Path.new localAddr peerAddr false) isServer with
      ⟨_, unchanged⟩ | ⟨middle, room, recorded⟩
    · rw [Op.apply, unchanged] at found
      exact .inl (kept found)
    · rw [Op.apply, recorded.get] at found
      split at found
      · cases found
        exact .inr ⟨localAddr, peerAddr, isServer, rfl, rfl⟩
      · rcases makeRoomForNewPath_spec map with ⟨_, failed⟩ | ⟨other, made, others, _⟩
        · rw [failed] at room
          cases room
        · rw [made] at room
          cases room
          exact .inl (kept (others pid next found))
  | setActivePath target =>
    obtain ⟨path, present, still⟩ := (setActivePath_still target map).backward found
    exact .inl ⟨path, present, .inr ⟨still, by simp, by simp⟩⟩
  | setActiveDcidSeq target seq =>
    obtain ⟨path, present, rfl⟩ := get_update_cases found
    refine .inl ⟨path, present, .inr ⟨?_, by simp, by simp⟩⟩
    split <;> exact ⟨rfl, rfl, rfl⟩
  | setMaxSendBytes target maxSendBytes =>
    obtain ⟨path, present, rfl⟩ := get_update_cases found
    refine .inl ⟨path, present, .inr ⟨?_, by simp, by simp⟩⟩
    split <;> exact ⟨rfl, rfl, rfl⟩

end Maps

section Steps

variable {trial : Trial} {op : Op}

/-- The addresses of the path stay. -/
def SameAddrs (next path : Path) : Prop := next.addrs = path.addrs

theorem sameAddrs_refl (path : Path) : SameAddrs path path := rfl

theorem apply_entries (map : PathMap) (op : Op)
    (other : ∀ localAddr peerAddr isServer, op ≠ .insertPath localAddr peerAddr isServer) :
    (op.apply map).addrsToPaths = map.addrsToPaths ∧ Alike SameAddrs (op.apply map) map := by
  have updated : ∀ pathId (change : Path → Path), (∀ path, (change path).addrs = path.addrs) →
      Alike SameAddrs (map.update pathId change) map :=
    fun pathId change kept => .update sameAddrs_refl fun path _ => kept path
  cases op with
  | requestValidation pathId => exact ⟨rfl, updated pathId _ fun _ => rfl⟩
  | addChallengeSent pathId data pktSize sentTime =>
    refine ⟨rfl, updated pathId _ fun path => ?_⟩
    obtain ⟨sameLocal, samePeer⟩ := path.promoteTo_addrs .validating
    exact Prod.ext sameLocal samePeer
  | onResponseReceived data =>
    rcases onResponseReceived_cases map data with ⟨_, unchanged⟩ | ⟨target, path, answered, answers, _, _, addrs,
      entries, get⟩
    · rw [Op.apply, unchanged]
      exact ⟨rfl, .refl sameAddrs_refl map⟩
    · refine ⟨entries, fun other => ?_⟩
      rw [Op.apply, get]
      refine Alike.update sameAddrs_refl (fun old present => ?_) other
      cases present.symm.trans (answers_spec answers).1
      exact addrs
  | onLossDetectionTimeout pathId now rtt =>
    refine ⟨rfl, updated pathId _ fun path => ?_⟩
    obtain ⟨_, sameLocal, samePeer⟩ := path.onLossDetectionTimeout_spec now rtt map.isServer
    exact Prod.ext sameLocal samePeer
  | insertPath localAddr peerAddr isServer => exact absurd rfl (other localAddr peerAddr isServer)
  | setActivePath pathId =>
    refine ⟨setActivePath_entries pathId map, ?_⟩
    exact .setActivePath sameAddrs_refl (fun _ _ _ later sooner => later.trans sooner) (fun _ _ => rfl)
      (fun path => (still_startMigrating path).addrs) pathId map
  | setActiveDcidSeq pathId seq => exact ⟨rfl, updated pathId _ fun _ => rfl⟩
  | setMaxSendBytes pathId maxSendBytes => exact ⟨rfl, updated pathId _ fun _ => rfl⟩

theorem indexed_step_iff (indexed : trial.map.Indexed) (op : Op) :
    (trial.step op).map.Indexed ↔ ∀ localAddr peerAddr isServer, op = .insertPath localAddr peerAddr isServer →
        trial.map.Admits (localAddr, peerAddr) := by
  by_cases inserts : ∃ localAddr peerAddr isServer, op = .insertPath localAddr peerAddr isServer
  · obtain ⟨localAddr, peerAddr, isServer, rfl⟩ := inserts
    refine (indexed.insertPath_iff (Path.new localAddr peerAddr false) isServer).trans ?_
    constructor
    · rintro admits _ _ _ same
      cases same
      exact admits
    · exact fun admits => admits localAddr peerAddr isServer rfl
  · have other : ∀ localAddr peerAddr isServer, op ≠ .insertPath localAddr peerAddr isServer :=
      fun localAddr peerAddr isServer same => inserts ⟨localAddr, peerAddr, isServer, same⟩
    obtain ⟨entries, addrs⟩ := apply_entries trial.map op other
    exact iff_of_true (indexed.alike addrs (fun _ _ same => same) entries)
      fun localAddr peerAddr isServer same => absurd same (other localAddr peerAddr isServer)

theorem step_all {good : Attempt → Path → Prop} (trial : Trial) (op : Op)
    (before : ∀ pid path, trial.map.get pid = some path → good (trial.attempts pid) path)
    (still : ∀ attempt path next, good attempt path → Still next path → good attempt next)
    (fresh : ∀ localAddr peerAddr, good .fresh (Path.new localAddr peerAddr false))
    (turns : ∀ pid path next, trial.map.get pid = some path → Turns trial.map op pid path next →
      good (op.record pid path next (trial.attempts pid)) next)
    (pid : Nat) (next : Path) (found : (trial.step op).map.get pid = some next) :
    good ((trial.step op).attempts pid) next := by
  have recorded : ∀ path, trial.map.get pid = some path →
      (trial.step op).attempts pid = op.record pid path next (trial.attempts pid) := by
    intro path present
    have applied : (op.apply trial.map).get pid = some next := found
    simp only [step, present, applied]
  rcases apply_cases trial.map op found with ⟨path, present, turned | spared⟩ | ⟨localAddr, peerAddr, isServer, rfl, rfl⟩
  · rw [recorded path present]
    exact turns pid path next present turned
  · rw [recorded path present, record_still spared.still.state spared.still.flight spared.unsent spared.same]
    exact still _ _ _ (before pid path present) spared.still
  · cases present : trial.map.get pid with
    | none =>
      have unknown : (trial.step (.insertPath localAddr peerAddr isServer)).attempts pid = .fresh := by
        simp only [step, present]
      rw [unknown]
      exact fresh localAddr peerAddr
    | some path =>
      rw [recorded path present]
      by_cases same : Path.new localAddr peerAddr false = path
      · subst same
        rw [record_still rfl rfl (by simp) fun _ _ _ _ => rfl]
        exact before pid _ present
      · simp only [Op.record, if_neg same]
        exact fresh localAddr peerAddr

theorem honest_new (localAddr peerAddr : SocketAddr) : Honest .fresh (Path.new localAddr peerAddr false) :=
  ⟨fun _ member => absurd member List.not_mem_nil, fun _ _ member => absurd member List.not_mem_nil⟩

theorem plain_new (localAddr peerAddr : SocketAddr) : Plain .fresh (Path.new localAddr peerAddr false) :=
  ⟨List.nodup_nil, fun proven => by cases proven⟩

/-- Every path is honest, and stands under its addresses. -/
structure Kept (trial : Trial) : Prop where
  indexed : trial.map.Indexed
  honest : ∀ pid path, trial.map.get pid = some path → Honest (trial.attempts pid) path

/-- Every path is plain. -/
def AllPlain (trial : Trial) : Prop := ∀ pid path, trial.map.get pid = some path → Plain (trial.attempts pid) path

theorem Kept.step (kept : trial.Kept) (sound : trial.Sound op) : (trial.step op).Kept where
  indexed := by
    rw [indexed_step_iff kept.indexed]
    rintro localAddr peerAddr isServer rfl
    exact sound
  honest := by
    apply step_all trial op kept.honest
    · exact fun _ _ _ honest still => honest.kept still.state fun challenge member => still.flight ▸ member
    · exact honest_new
    · intro pid path next present turned
      have honest := kept.honest pid path present
      cases turned with
      | sent data pktSize sentTime => exact honest.send data pktSize sentTime
      | lost now rtt => exact honest.timeout now rtt trial.map.isServer (sound path present)
      | answered answers state flight => exact Honest.answer state flight honest

theorem validated_cases {pid : Nat} {path next : Path} (present : trial.map.get pid = some path)
    (found : (trial.step op).map.get pid = some next) (before : path.state ≠ .validated)
    (valid : next.state = .validated) :
    ∃ data, op = .onResponseReceived data ∧ trial.map.answers data = some (pid, path) ∧ path.Suffices data ∧
      next.state = (path.onResponseReceived data).1.state ∧
      next.inFlightChallenges = (path.onResponseReceived data).1.inFlightChallenges := by
  rcases apply_cases trial.map op found with ⟨old, same, turned | spared⟩ | ⟨localAddr, peerAddr, isServer, _, rfl⟩
  · cases present.symm.trans same
    cases turned with
    | sent data pktSize sentTime =>
      rw [(path.addChallengeSent_spec data pktSize sentTime).2] at valid
      split at valid
      · cases valid
      · exact absurd valid before
    | lost now rtt =>
      rw [(path.onLossDetectionTimeout_spec now rtt trial.map.isServer).1] at valid
      split at valid
      · cases valid
      · exact absurd valid before
    | @answered _ _ _ data answers state flight =>
      refine ⟨data, rfl, answers, ?_, state, flight⟩
      rw [state, (path.onResponseReceived_state data).1] at valid
      by_contra short
      rw [if_neg (not_or.mpr ⟨before, short⟩)] at valid
      cases valid
  · cases present.symm.trans same
    exact absurd (spared.still.state.symm.trans valid) before
  · cases valid

theorem Kept.evident (kept : trial.Kept) (sound : trial.Sound op) : trial.Evident op where
  indexed := (kept.step sound).indexed
  justified := by
    intro pid path next present found before valid
    obtain ⟨data, rfl, answers, enough, state, flight⟩ := validated_cases present found before valid
    refine ⟨⟨data, rfl, (answers_spec answers).2⟩, ?_⟩
    have large : ∃ challenge ∈ path.inFlightChallenges, challenge.data = data ∧ challenge.large = true := by
      by_cases credit : minClientInitialLen ≤ path.maxChallengeSize
      · exact sound pid path answers before credit
      · apply Path.challengeSize_exists
        have either : minClientInitialLen ≤ max path.maxChallengeSize _ := enough
        omega
    have applied : ((Op.onResponseReceived data).apply trial.map).get pid = some next := found
    have recorded : (trial.step (.onResponseReceived data)).attempts pid =
        (Op.onResponseReceived data).record pid path next (trial.attempts pid) := by
      simp only [Trial.step, present, applied]
    rw [recorded]
    exact Honest.proven state flight (kept.honest pid path present) large

theorem AllPlain.step (plain : trial.AllPlain) (orderly : trial.Orderly op) : (trial.step op).AllPlain := by
  apply step_all trial op plain
  · intro _ _ _ plain still
    apply plain.kept still.state
    rw [still.flight]
  · exact plain_new
  · intro pid path next present turned
    have known := plain pid path present
    cases turned with
    | sent data pktSize sentTime => exact known.send (orderly path present) pktSize sentTime
    | lost now rtt => exact known.timeout now rtt trial.map.isServer
    | answered answers state flight => exact Plain.answer state flight known

theorem Kept.sound (kept : trial.Kept) (plain : trial.AllPlain) (orderly : trial.Orderly op)
    (evident : trial.Evident op) : trial.Sound op := by
  cases op with
  | onResponseReceived data =>
    intro pid path answers before credit
    obtain ⟨present, _⟩ := answers_spec answers
    rcases onResponseReceived_cases trial.map data with ⟨absent, _⟩ | ⟨target, found, answered, same, state,
      flight, _, _, get⟩
    · rw [absent] at answers
      cases answers
    rw [answers] at same
    cases same
    have here : (trial.step (.onResponseReceived data)).map.get pid = some answered := by
      refine (get pid).trans ((get_update _ _ _ _).trans ?_)
      rw [if_pos rfl, present]
      rfl
    have enough : path.Suffices data := Nat.le_trans credit (Nat.le_max_left _ _)
    have valid : answered.state = .validated := by
      rw [state, (path.onResponseReceived_state data).1, if_pos (.inr enough)]
    have proven := (evident.justified pid path answered present here before valid).2
    have applied : ((Op.onResponseReceived data).apply trial.map).get pid = some answered := here
    simp only [Trial.step, present, applied] at proven
    rw [record_answer state flight, Bool.or_eq_true] at proven
    rcases proven with earlier | now
    · exact absurd ((plain pid path present).proven earlier) before
    · obtain ⟨challenge, _, counted⟩ := List.any_eq_true.mp now
      simp only [Bool.and_eq_true, beq_iff_eq, List.contains_iff_mem] at counted
      exact ⟨challenge, counted.2, counted.1.2, counted.1.1⟩
  | onLossDetectionTimeout pid now rtt =>
    exact fun path present _ challenge member _ => orderly path present challenge member
  | insertPath localAddr peerAddr isServer => exact (indexed_step_iff kept.indexed _).mp evident.indexed _ _ _ rfl
  | _ => trivial

end Steps

section Runs

variable {localAddr peerAddr : SocketAddr} {isInitial isServer : Bool} {maxConcurrentPaths : Nat}

theorem start_get {pid : Nat} {path : Path}
    (found : (start localAddr peerAddr isInitial maxConcurrentPaths isServer).map.get pid = some path) :
    path = { Path.new localAddr peerAddr isInitial with active := true } := by
  change (Slab.empty.insert _).get pid = some path at found
  rw [Slab.get_insert] at found
  split at found
  · exact (Option.some.inj found).symm
  · simp [Slab.empty, Slab.get] at found

theorem start_kept : (start localAddr peerAddr isInitial maxConcurrentPaths isServer).Kept where
  indexed := new_indexed _ _ _
  honest := by
    intro pid path found
    rw [start_get found]
    exact ⟨fun _ member => absurd member List.not_mem_nil, fun _ _ member => absurd member List.not_mem_nil⟩

theorem start_plain : (start localAddr peerAddr isInitial maxConcurrentPaths isServer).AllPlain := by
  intro pid path found
  rw [start_get found]
  exact ⟨List.nodup_nil, fun proven => by cases proven⟩

/-- Where every step is sound, every path that is validated has proven its MTU, and the addresses of the paths are
indexed; in an orderly run, only there. -/
theorem validated_on_evidence (localAddr peerAddr : SocketAddr) (isInitial : Bool) (maxConcurrentPaths : Nat)
    (isServer : Bool) (ops : List Op) :
    (machine.Guarded Sound (start localAddr peerAddr isInitial maxConcurrentPaths isServer) ops →
      machine.Guarded Evident (start localAddr peerAddr isInitial maxConcurrentPaths isServer) ops) ∧
    (machine.Guarded Orderly (start localAddr peerAddr isInitial maxConcurrentPaths isServer) ops →
      machine.Guarded Evident (start localAddr peerAddr isInitial maxConcurrentPaths isServer) ops →
      machine.Guarded Sound (start localAddr peerAddr isInitial maxConcurrentPaths isServer) ops) := by
  have evident : ∀ (trial : Trial) op, trial.Kept → trial.Sound op → trial.Evident op :=
    fun _ _ kept sound => kept.evident sound
  have sound : ∀ (trial : Trial) op, trial.Kept ∧ trial.AllPlain → trial.Orderly op ∧ trial.Evident op → trial.Sound op :=
    fun _ _ kept both => kept.1.sound kept.2 both.1 both.2
  constructor
  · apply machine.guarded_of_guarded evident _ start_kept
    intro _ _ _ kept sound stepped
    cases stepped
    exact kept.step sound
  · intro orderly shown
    apply machine.guarded_of_guarded sound _ ⟨start_kept, start_plain⟩ (orderly.and shown)
    intro trial op _ kept both stepped
    cases stepped
    exact ⟨kept.1.step (sound trial op kept both), kept.2.step both.1⟩

end Runs

def client : Trial := start ⟨[127, 0, 0, 1], 1⟩ ⟨[127, 0, 0, 1], 2⟩ true 4 false

def probed : List Op := [.insertPath ⟨[127, 0, 0, 1], 3⟩ ⟨[127, 0, 0, 1], 2⟩ false, .addChallengeSent 1 1 1200 0]

theorem validated_on_evidence_probed : machine.Guarded Evident client (probed ++ [.onResponseReceived 1]) := by
  have fresh : ((machine.run client probed).bind fun trial => trial.map.answers 1).map (·.2.maxChallengeSize) =
    some 0 := by
    decide +kernel
  have sound : machine.Guarded Sound client (probed ++ [.onResponseReceived 1]) := by
    refine ⟨admits_of_absent (by decide +kernel), fun middle inserted =>
      ⟨trivial, fun trial sent => ⟨?_, fun _ _ => trivial⟩⟩⟩
    have reached : machine.run client probed = some trial :=
      Option.bind_eq_some_iff.mpr ⟨middle, inserted, Option.bind_eq_some_iff.mpr ⟨trial, sent, rfl⟩⟩
    intro pid path answers _ credit
    rw [reached, Option.bind_some, answers] at fresh
    have zero : path.maxChallengeSize = 0 := Option.some.inj fresh
    rw [zero] at credit
    exact absurd credit (by decide)
  exact (validated_on_evidence _ _ _ _ _ _).1 sound

def revived : List Op :=
  probed ++ [.onResponseReceived 1, .addChallengeSent 1 2 1200 10, .onLossDetectionTimeout 1 20 5,
    .addChallengeSent 1 3 1200 20, .onLossDetectionTimeout 1 30 5, .addChallengeSent 1 4 1200 30,
    .onLossDetectionTimeout 1 40 5, .addChallengeSent 1 5 100 50]

/-- The credit of the earlier attempt validates the path again. -/
theorem earlier_credit_validates : ¬ machine.Guarded Evident client (revived ++ [.onResponseReceived 5]) := by
  intro evident
  have validating : (machine.run client revived).map (fun trial => (trial.map.get 1).map (·.state)) =
      some (some .validating) := by decide +kernel
  have unproven : (machine.run client revived).map (fun trial =>
      (((trial.step (.onResponseReceived 5)).map.get 1).map (·.state),
        ((trial.step (.onResponseReceived 5)).attempts 1).proven)) = some (some .validated, false) := by decide +kernel
  obtain ⟨middle, reached, before⟩ := Option.map_eq_some_iff.mp validating
  obtain ⟨path, present, state⟩ := Option.map_eq_some_iff.mp before
  rw [reached] at unproven
  obtain ⟨valid, bare⟩ := Prod.mk.inj (Option.some.inj unproven)
  obtain ⟨next, found, nextState⟩ := Option.map_eq_some_iff.mp valid
  have last := ((Machine.guarded_append evident).2 middle reached).1
  have proven := (last.justified 1 path next present found (by rw [state]; decide) nextState).2
  rw [bare] at proven
  cases proven

end Trial

end PathMap

end Quiche
