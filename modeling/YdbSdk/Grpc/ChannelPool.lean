import YdbSdk.Control.Run
import YdbSdk.Data.Assoc
import YdbSdk.Data.Multimap

namespace YdbSdk.Grpc.ChannelPool

open YdbSdk.Control YdbSdk.Data Code List

/-! # The pool of channels

A channel is found in the pool by its id, and in the queue by the time of its last use, which is
noted again only after `updateReUseTime`.  Times are in microseconds.
-/

/-- `threeTenths` is what `ExpireTime_ * 0.3` gives. -/
structure Settings where
  expireTime : Nat
  threeTenths : Nat

def Settings.updateReUseTime (settings : Settings) : Nat :=
  if settings.threeTenths < 20000000 then settings.threeTenths else 20000000

/-- `pool` holds the last use times, `handedOut` when the channels were given to callbacks. -/
structure State where
  pool : Assoc String Nat := []
  lastUsedQueue : List (Nat × String) := []
  handedOut : Assoc String Nat := []
  now : Nat := 0

inductive Assertion where
  | dataCorruption

/-- The only exceptions are those of callbacks. -/
abbrev Pool := Code Unit Assertion State

/-- Where `find_if` stops in the equal range of a time: at the entry of the channel, or at the
end of the range, which is the first later entry. -/
def stopsAt (lastUseTime : Nat) (channelId : String) (entry : Nat × String) : Bool :=
  lastUseTime < entry.1 || entry == (lastUseTime, channelId)

def State.dequeue (state : State) (lastUseTime : Nat) (channelId : String) : State :=
  { state with lastUsedQueue := state.lastUsedQueue.eraseP (stopsAt lastUseTime channelId) }

def State.enqueue (state : State) (channelId : String) : State :=
  { state with
    lastUsedQueue := state.lastUsedQueue.orderedInsert (Prod.fst · < Prod.fst ·)
      (state.now, channelId) }

def State.put (state : State) (channelId : String) : State :=
  { state with pool := state.pool.insert channelId state.now }

def State.remove (state : State) (channelId : String) : State :=
  { state with pool := state.pool.erase channelId }

def State.hand (state : State) (channelId : String) : State :=
  { state with handedOut := (channelId, state.now) :: state.handedOut }

/-- Only the end of the whole queue is taken for a failed search. -/
def eraseFromQueueByTime (lastUseTime : Nat) (channelId : String) : Pool Unit := do
  let queue ← .read State.lastUsedQueue
  .require (queue.any (stopsAt lastUseTime channelId)) .dataCorruption
  .update (·.dequeue lastUseTime channelId)

def callback (channelId : String) (throws : Bool) : Pool Unit := do
  .update (·.hand channelId)
  .when throws (.raise ())

/-- The part of `GetStubsHolderLocked` under the shared lock.  The sum of times saturates.  When
there is no channel to use, the call goes on to the part under the unique lock. -/
def getStubsHolderShared (settings : Settings) (channelId : String) (broken throws : Bool) :
    Pool Unit := do
  let state ← .get
  match state.pool.find channelId with
  | some lastUseTime =>
    let reUseEnd := min (lastUseTime + settings.updateReUseTime) (2 ^ 64 - 1)
    .when (!broken && !decide (reUseEnd < state.now)) (callback channelId throws)
  | none => pure ()

def createStubsHolder (channelId : String) (throws : Bool) : Pool Unit := do
  .update fun state => { state.put channelId with handedOut := state.handedOut.erase channelId }
  callback channelId throws
  .update (·.enqueue channelId)

def getStubsHolderUnique (channelId : String) (broken throws : Bool) : Pool Unit := do
  match (← .read State.pool).find channelId with
  | some lastUseTime =>
    eraseFromQueueByTime lastUseTime channelId
    if broken then
      .update (·.remove channelId)
      createStubsHolder channelId throws
    else
      .update (·.enqueue channelId)
      .update (·.put channelId)
      callback channelId throws
  | none => createStubsHolder channelId throws

def deleteChannel (channelId : String) : Pool Unit := do
  match (← .read State.pool).find channelId with
  | some lastUseTime =>
    eraseFromQueueByTime lastUseTime channelId
    .update (·.remove channelId)
  | none => pure ()

def State.expire (state : State) (bound : Nat) : State :=
  { state with
    pool := state.pool.eraseAll ((state.lastUsedQueue.takeWhile (Prod.fst · < bound)).map Prod.snd)
    lastUsedQueue := state.lastUsedQueue.dropWhile (Prod.fst · < bound) }

def deleteExpiredStubsHolders (settings : Settings) : Pool Unit :=
  .update fun state => state.expire (state.now - settings.expireTime)

/-- A call with the state of its channel and whether its callback throws. -/
inductive Call where
  | getShared (channelId : String) (broken throws : Bool)
  | getUnique (channelId : String) (broken throws : Bool)
  | deleteChannel (channelId : String)
  | deleteExpired

def Call.run (settings : Settings) : Call → Pool Unit
  | .getShared channelId broken throws => getStubsHolderShared settings channelId broken throws
  | .getUnique channelId broken throws => getStubsHolderUnique channelId broken throws
  | .deleteChannel channelId => ChannelPool.deleteChannel channelId
  | .deleteExpired => deleteExpiredStubsHolders settings

/-- A call at a reading of the clock. -/
def react (settings : Settings) (event : Nat × Call) : Pool Unit := do
  .update fun state => { state with now := event.1 }
  event.2.run settings

/-- The clock does not go back. -/
def Timely (state : State) (event : Nat × Call) : Prop := state.now ≤ event.1

/-- No callback throws for a channel that has just been created. -/
def Permitted (state : State) (event : Nat × Call) : Prop :=
  Timely state event ∧
    ∀ channelId broken, event.2 = .getUnique channelId broken true →
      state.pool.find channelId ≠ none ∧ broken = false

/-- The pool and the queue hold the same channels with the same times. -/
structure Consistent (settings : Settings) (state : State) : Prop where
  corresponds : (state.pool.map .swap).Perm state.lastUsedQueue
  distinct : state.pool.Distinct
  sorted : state.lastUsedQueue.Pairwise (Prod.fst · ≤ Prod.fst ·)
  past : ∀ entry ∈ state.handedOut, entry.2 ≤ state.now
  recent : ∀ channelId handed lastUseTime, (channelId, handed) ∈ state.handedOut →
    state.pool.find channelId = some lastUseTime → handed ≤ lastUseTime + settings.updateReUseTime

variable {settings : Settings} {state : State} {channelId : String} {lastUseTime : Nat}

theorem eraseP_stopsAt {queue : List (Nat × String)} (sorted : queue.Pairwise (Prod.fst · ≤ Prod.fst ·))
    (member : (lastUseTime, channelId) ∈ queue) :
    queue.eraseP (stopsAt lastUseTime channelId) = queue.erase (lastUseTime, channelId) := by
  induction queue with
  | nil => contradiction
  | cons first rest ih =>
    have tail := pairwise_cons.mp sorted
    by_cases same : first = (lastUseTime, channelId)
    · simp [same, stopsAt]
    · have later := (mem_cons.mp member).resolve_left (Ne.symm same)
      have notPast : ¬ lastUseTime < first.1 := Nat.not_lt.mpr (tail.1 _ later)
      simp [stopsAt, same, notPast, ih tail.2 later]

namespace Consistent

variable (consistent : Consistent settings state)
include consistent

theorem mem_queue :
    (lastUseTime, channelId) ∈ state.lastUsedQueue ↔ state.pool.find channelId = some lastUseTime := by
  rw [consistent.distinct.find_eq_some, ← consistent.corresponds.mem_iff]
  simp

theorem removed (found : state.pool.find channelId = some lastUseTime) :
    Consistent settings ((state.dequeue lastUseTime channelId).remove channelId) := by
  refine ⟨?_, consistent.distinct.erase channelId, consistent.sorted.sublist eraseP_sublist,
    consistent.past, ?_⟩
  · simp only [State.dequeue, State.remove,
      eraseP_stopsAt consistent.sorted (consistent.mem_queue.mpr found)]
    have listed := ((consistent.distinct.perm_erase found).map Prod.swap).symm.trans consistent.corresponds
    simpa using listed.erase (lastUseTime, channelId)
  · intro other handed time given present
    simp only [State.remove, Assoc.find_erase] at present
    split at present
    · contradiction
    · exact consistent.recent other handed time given present

theorem added {handedOut : Assoc String Nat} (absent : state.pool.find channelId = none)
    (given : ∀ entry ∈ handedOut, entry = (channelId, state.now) ∨ entry ∈ state.handedOut) :
    Consistent settings { (state.enqueue channelId).put channelId with handedOut := handedOut } := by
  have past : ∀ entry ∈ handedOut, entry.2 ≤ state.now := by
    intro entry member
    rcases given entry member with here | earlier
    · simp [here]
    · exact consistent.past entry earlier
  refine ⟨?_, consistent.distinct.insert channelId state.now,
    Multimap.sorted_orderedInsert consistent.sorted, past, ?_⟩
  · refine .trans ?_ (perm_orderedInsert _ _ _).symm
    simp only [State.put, State.enqueue, Assoc.insert, Assoc.erase_of_find_none absent]
    exact consistent.corresponds.cons _
  · intro other handed time member present
    simp only [State.put, Assoc.find_insert] at present
    split at present
    · cases present
      exact (past _ member).trans (Nat.le_add_right _ _)
    · rcases given _ member with here | earlier
      · cases here
        contradiction
      · exact consistent.recent other handed time earlier present

/-- The channels that stay are those whose last use is not too long ago. -/
theorem pool_expire (bound : Nat) :
    (state.expire bound).pool = state.pool.filter (bound ≤ Prod.snd ·) := by
  rw [State.expire, Assoc.eraseAll_eq_filter, Multimap.takeWhile_eq_filter consistent.sorted]
  refine filter_congr fun entry member => ?_
  have used := consistent.distinct.find_eq_some.mpr member
  have expired : entry.1 ∈ (state.lastUsedQueue.filter (Prod.fst · < bound)).map Prod.snd ↔
      entry.2 < bound := by
    simp [consistent.mem_queue, used]
  exact decide_eq_decide.mpr ((not_congr expired).trans Nat.not_lt)

theorem find_expire (bound : Nat) :
    (state.expire bound).pool.find channelId = (state.pool.find channelId).filter (bound ≤ ·) := by
  rw [consistent.pool_expire, consistent.distinct.find_filter (bound ≤ ·)]

theorem expired (bound : Nat) : Consistent settings (state.expire bound) := by
  refine ⟨?_, ?_, consistent.sorted.sublist (dropWhile_sublist _), consistent.past, ?_⟩
  · have kept := consistent.corresponds.filter (bound ≤ Prod.fst ·)
    rw [filter_map] at kept
    rwa [consistent.pool_expire, State.expire, Multimap.dropWhile_eq_filter consistent.sorted]
  · exact consistent.pool_expire bound ▸ consistent.distinct.filter _
  · intro other handed time given present
    rw [consistent.find_expire] at present
    exact consistent.recent other handed time given (Option.filter_eq_some_iff.mp present).1

theorem handed (found : state.pool.find channelId = some lastUseTime)
    (fresh : state.now ≤ lastUseTime + settings.updateReUseTime) :
    Consistent settings (state.hand channelId) := by
  refine { consistent with
    past := forall_mem_cons.mpr ⟨le_rfl, consistent.past⟩, recent := ?_ }
  intro other handed time given present
  rcases mem_cons.mp given with here | earlier
  · cases here
    cases found.symm.trans present
    exact fresh
  · exact consistent.recent other handed time earlier present

theorem wp_erase (found : state.pool.find channelId = some lastUseTime)
    (next : contract.returns () (state.dequeue lastUseTime channelId)) :
    (eraseFromQueueByTime lastUseTime channelId).wp contract state := by
  simp only [eraseFromQueueByTime, wp_rules]
  refine ⟨fun _ => next, fun missing => ?_⟩
  have present := any_eq_false.mp missing _ (consistent.mem_queue.mpr found)
  simp [stopsAt] at present

/-- A channel is put into the queue after the callback, which must not throw. -/
theorem created (absent : state.pool.find channelId = none) :
    (createStubsHolder channelId false).wp (.keeping (Consistent settings) fun _ => False) state := by
  have given : ∀ entry ∈ (channelId, state.now) :: state.handedOut.erase channelId,
      entry = (channelId, state.now) ∨ entry ∈ state.handedOut := by
    simp +contextual
  simp only [createStubsHolder, callback, wp_rules]
  exact ⟨by simp, fun _ => consistent.added absent given⟩

end Consistent

theorem react_keeps {event : Nat × Call} (consistent : Consistent settings state)
    (permitted : Permitted state event) :
    (react settings event).wp (.keeping (Consistent settings) fun _ => False) state := by
  obtain ⟨now, call⟩ := event
  have timely : Consistent settings { state with now := now } :=
    { consistent with past := fun entry member => (consistent.past entry member).trans permitted.1 }
  cases call with
  | getShared channelId broken throws =>
    simp only [react, Call.run, getStubsHolderShared, wp_rules]
    cases found : state.pool.find channelId with
    | none => exact timely
    | some lastUseTime =>
      simp only [callback, wp_rules]
      refine ⟨fun usable => ?_, fun _ => timely⟩
      have fresh : now ≤ lastUseTime + settings.updateReUseTime := by
        simp at usable
        omega
      exact ⟨fun _ => timely.handed found fresh, fun _ => timely.handed found fresh⟩
  | getUnique channelId broken throws =>
    simp only [react, Call.run, getStubsHolderUnique, wp_rules]
    cases found : state.pool.find channelId with
    | none =>
      cases throws with
      | true => exact absurd found (permitted.2 channelId broken rfl).1
      | false => exact timely.created found
    | some lastUseTime =>
      have removed := timely.removed found
      have absent : (state.pool.erase channelId).find channelId = none := by simp
      rw [wp_bind]
      apply timely.wp_erase found
      cases broken with
      | true =>
        cases throws with
        | true => exact absurd (permitted.2 channelId true rfl).2 (by simp)
        | false => exact removed.created absent
      | false =>
        have given : ∀ entry ∈ (channelId, now) :: state.handedOut,
            entry = (channelId, now) ∨ entry ∈ state.handedOut := by
          simp
        have refreshed := removed.added absent given
        simp only [State.put, State.enqueue, State.remove, Assoc.insert,
          Assoc.erase_erase] at refreshed
        simp only [callback, wp_rules]
        exact ⟨by simp, fun _ => ⟨fun _ => refreshed, fun _ => refreshed⟩⟩
  | deleteChannel channelId =>
    simp only [react, Call.run, deleteChannel, wp_rules]
    cases found : state.pool.find channelId with
    | none => exact timely
    | some lastUseTime =>
      rw [wp_bind]
      exact timely.wp_erase found (timely.removed found)
  | deleteExpired => exact timely.expired (now - settings.expireTime)

/-- While no callback throws for a new channel, the pool and the queue correspond, the assertion
holds, and a channel handed out expires only after the expire time less the interval in which a
use is not noted. -/
theorem pool_matches_queue (reached : Reachable (react settings) Permitted {} state) :
    ((state.pool.map .swap).Perm state.lastUsedQueue ∧ state.pool.Distinct) ∧
      (∀ event, Permitted state event → (react settings event).step state ≠ .error .dataCorruption) ∧
      ∀ now after, (react settings (now, .deleteExpired)).step state = .ok after →
        ∀ channelId handed, (channelId, handed) ∈ state.handedOut →
          state.pool.find channelId ≠ none → after.pool.find channelId = none →
          handed + settings.expireTime < now + settings.updateReUseTime := by
  have start : Consistent settings {} := by
    constructor <;> simp [Assoc.Distinct]
  have consistent := reached.invariant start fun before event holds => react_keeps holds
  refine ⟨⟨consistent.corresponds, consistent.distinct⟩, fun event permitted failed => ?_, ?_⟩
  · exact wp_step_error (react_keeps consistent permitted) failed
  · intro now after taken channelId handed given present gone
    obtain ⟨lastUseTime, found⟩ := Option.ne_none_iff_exists'.mp present
    have recent := consistent.recent channelId handed lastUseTime given found
    cases taken
    have absent : (state.expire (now - settings.expireTime)).pool.find channelId = none := gone
    simp [consistent.find_expire, found] at absent
    omega

/-- A channel is used again before the use is noted, and expires 82 microseconds later. -/
theorem unnoted_use_expires :
    ∃ state after, Reachable (react ⟨100, 30⟩) Permitted {} state ∧ ("a", 20) ∈ state.handedOut ∧
      (react ⟨100, 30⟩ (102, .deleteExpired)).step state = .ok after ∧ after.pool = [] ∧
      20 + 100 < 102 + Settings.updateReUseTime ⟨100, 30⟩ := by
  have created : Reachable (react ⟨100, 30⟩) Permitted {} _ :=
    .step (1, .getUnique "a" false false) .start ⟨Nat.zero_le _, by simp⟩ rfl
  have reused := created.step (20, .getShared "a" false false) ⟨(by decide : 1 ≤ 20), by simp⟩ rfl
  have given : ("a", 20) ∈ [("a", 20), ("a", 1)] := by simp
  exact ⟨_, _, reused, given, rfl, rfl,
    (pool_matches_queue reused).2.2 102 _ rfl "a" 20 given (by rintro ⟨⟩) rfl⟩

/-- A callback that throws for a new channel leaves it out of the queue, and deleting it aborts. -/
theorem thrown_callback_corrupts :
    ∃ state, Reachable (react ⟨100, 30⟩) Timely {} state ∧
      ¬ (state.pool.map .swap).Perm state.lastUsedQueue ∧
      (react ⟨100, 30⟩ (1, .deleteChannel "a")).step state = .error .dataCorruption := by
  have missed : Reachable (react ⟨100, 30⟩) Timely {} _ :=
    .step (1, .getShared "a" false true) .start (Nat.zero_le _) rfl
  have created := missed.step (1, .getUnique "a" false true) (Nat.le_refl 1) rfl
  exact ⟨_, created, by decide, rfl⟩

end YdbSdk.Grpc.ChannelPool
