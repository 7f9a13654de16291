import AfroPay.LeaseStore
import AfroPay.Runs

/-! `withLock` over a Redis lease: any number of calls, each with its heartbeat, in any
order of clock ticks, executed commands and arriving answers. A command is executed by
Redis in one step and answered in a later one, or its connection fails. Tokens are random
ids, so every call has its own: the call's id. -/
namespace AfroPay.LockService
open KeyedStore LeaseStore Runs

def lockTtlMs : Nat := 10000

/-- How `withLock` ends. -/
inductive Result where
  | value
  /-- What `work` threw. -/
  | workError
  | lockNotAcquiredError
  | lockLostError
  /-- What the Redis client threw. -/
  | redisError
  deriving DecidableEq

/-- Where a call stands. -/
inductive Phase where
  /-- `SET NX PX` is on its way. -/
  | acquiring
  /-- It was executed, and its answer is on its way. -/
  | acquired
  | refused
  | working
  /-- `work` is over, and `RELEASE_SCRIPT` is on its way. -/
  | releasing (threw : Bool)
  /-- It was executed, and its answer is on its way. -/
  | released (threw deleted : Bool)
  | returned (result : Result) (deleted : Bool)
  | gone
  deriving DecidableEq

/-- Where the heartbeat of a call stands. -/
inductive Heartbeat where
  | off
  | sleeping
  /-- `EXTEND_SCRIPT` is on its way. -/
  | extending
  /-- It was executed, and its answer is on its way. -/
  | extended (renewed : Bool)
  deriving DecidableEq

structure Call where
  key : String
  ttlMs : Nat
  phase : Phase
  heartbeat : Heartbeat
  lost : Bool
  deriving DecidableEq

structure State where
  now : Nat
  leases : Store String (Lease Nat)
  calls : Store Nat Call

def State.empty : State := ⟨0, ∅, ∅⟩

inductive Event where
  | withLock (id : Nat) (key : String) (ttlMs : Nat)
  | tick (ms : Nat)
  /-- Redis executes the call's own command. -/
  | execute (id : Nat)
  /-- The command's answer arrives, or its connection fails. -/
  | answer (id : Nat) (arrives : Bool)
  | workEnds (id : Nat) (threw : Bool)
  /-- The heartbeat's timer fires. -/
  | beat (id : Nat)
  /-- Redis executes the heartbeat's command. -/
  | extend (id : Nat)
  /-- Its answer arrives, or its connection fails. -/
  | renewed (id : Nat) (arrives : Bool)
  | crash (id : Nat)
  deriving DecidableEq

/-- `stopped` is set before the release is sent. -/
def Phase.stopped : Phase → Bool
  | .working => false
  | _ => true

def Call.become (call : Call) (phase : Phase) : Call := { call with phase }

/-- What `finally` makes of the end of `work` and the answer of the release. -/
def settle (lost threw deleted : Bool) : Result :=
  if lost && !deleted then .lockLostError else if threw then .workError else .value

/-- Redis executes the command that the call is waiting for. -/
def executeCommand (s : State) (id : Nat) (call : Call) : Store String (Lease Nat) × Call :=
  match call.phase with
  | .acquiring =>
    let (granted, leases) := setNx s.leases s.now call.key id call.ttlMs
    (leases, call.become (if granted then .acquired else .refused))
  | .releasing threw =>
    let (deleted, leases) := release s.leases s.now call.key id
    (leases, call.become (.released threw deleted))
  | _ => (s.leases, call)

/-- The call goes on with the answer of its command. -/
def onAnswer (call : Call) : Call :=
  match call.phase with
  | .acquired => { call with phase := .working, heartbeat := .sleeping }
  | .refused => call.become (.returned .lockNotAcquiredError false)
  | .released threw deleted => call.become (.returned (settle call.lost threw deleted) deleted)
  | _ => call

/-- The call's command is rejected by the client. -/
def onFailure (call : Call) : Call :=
  match call.phase with
  | .acquiring | .acquired | .refused | .releasing _ => call.become (.returned .redisError false)
  | .released _ deleted => call.become (.returned .redisError deleted)
  | _ => call

/-- The loop of the heartbeat goes on unless the lock is being released. -/
def onBeat (call : Call) : Call :=
  match call.heartbeat with
  | .sleeping => { call with heartbeat := if call.phase.stopped then .off else .extending }
  | _ => call

def executeExtend (s : State) (id : Nat) (call : Call) : Store String (Lease Nat) × Call :=
  match call.heartbeat with
  | .extending =>
    let (renewed, leases) := LeaseStore.extend s.leases s.now call.key id call.ttlMs
    (leases, { call with heartbeat := .extended renewed })
  | _ => (s.leases, call)

/-- `lost` is set when the lease was not renewed or the client threw. -/
def onRenewed (call : Call) (arrives : Bool) : Call :=
  match call.heartbeat, arrives with
  | .extended true, true => { call with heartbeat := .sleeping }
  | .extended false, true => { call with heartbeat := .off, lost := true }
  | .extended _, false | .extending, false => { call with heartbeat := .off, lost := true }
  | _, _ => call

/-- A crash leaves nothing of a call but what it has returned. -/
def Phase.crashed : Phase → Phase
  | .returned result deleted => .returned result deleted
  | _ => .gone

/-- What an event does with the leases and the call that it is about. -/
def callStep (s : State) (id : Nat) (call : Call) : Event → Store String (Lease Nat) × Call
  | .execute _ => executeCommand s id call
  | .answer _ arrives => (s.leases, if arrives then onAnswer call else onFailure call)
  | .workEnds _ threw => (s.leases, if call.phase = .working then call.become (.releasing threw) else call)
  | .beat _ => (s.leases, onBeat call)
  | .extend _ => executeExtend s id call
  | .renewed _ arrives => (s.leases, onRenewed call arrives)
  | .crash _ => (s.leases, { call with phase := call.phase.crashed, heartbeat := .off })
  | _ => (s.leases, call)

def Event.call : Event → Option Nat
  | .withLock _ _ _ | .tick _ => none
  | .execute id | .answer id _ | .workEnds id _ | .beat id | .extend id | .renewed id _ | .crash id => some id

def step (s : State) (event : Event) : State :=
  match event with
  | .withLock id key ttlMs =>
    match s.calls.lookup id with
    | none => { s with calls := s.calls.insert id ⟨key, ttlMs, .acquiring, .off, false⟩ }
    | some _ => s
  | .tick ms => { s with now := s.now + ms }
  | event =>
    match event.call.bind fun id => (s.calls.lookup id).map fun call => (id, call) with
    | some (id, call) =>
      let (leases, next) := callStep s id call event
      { s with leases, calls := s.calls.insert id next }
    | none => s

end AfroPay.LockService
