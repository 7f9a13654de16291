import AfroPay.FixedWindows
import AfroPay.IntegerText
import AfroPay.KeyedStore
import Mathlib.Data.List.DropRight

/-! The two rate limiters of the API. One guard keeps its buckets in memory, drops those that
have ended every minute, and opens windows at the first request; the other counts in Redis, in
windows that are multiples of their length. The script answers Redis' numbers as texts. -/
namespace AfroPay.RateLimit
open FixedWindows IntegerText KeyedStore Runs

def defaultWindowMs : Nat := 60000

/-- The options of a handler, read from its environment by `readPositiveInt`; the numbers a
handler falls back on are positive. -/
structure Settings where
  keyPrefix : String
  limit : Nat
  windowMs : Nat
  limit_pos : 0 < limit
  windowMs_pos : 0 < windowMs

/-- What the guards read of a request. -/
structure Request where
  userId : Option String
  sub : Option String
  ip : Option String
  remoteAddress : Option String
  deriving DecidableEq

def clientKey (request : Request) : String :=
  -- An empty user id is none.
  match (request.userId.or request.sub).filter (· ≠ "") with
  | some userId => "user:" ++ userId
  | none => "ip:" ++ (request.ip.or request.remoteAddress).getD "unknown"

def bucketKey (settings : Settings) (request : Request) : String :=
  settings.keyPrefix ++ ":" ++ clientKey request

inductive Exception where
  | tooManyRequests (code message : String) (retryAfterSeconds : Int) (limit windowMs : Nat)
  /-- What `toISOString` throws at a time that no `Date` has. -/
  | rangeError (message : String)
  deriving DecidableEq

def rateLimited (settings : Settings) (retryAfterSeconds : Int) : Exception :=
  .tooManyRequests "RATE_LIMITED" "Too many requests. Please retry after the rate limit window resets."
    retryAfterSeconds settings.limit settings.windowMs

/-- The last time that a `Date` has. -/
def dateMax : Nat := 8640000000000000

/-- A request is let through, or refused once the header with the reset time is set. -/
def respond (settings : Settings) (passes : Bool) (resetAt now : Int) : Except Exception Bool :=
  if dateMax < resetAt.natAbs then .error (.rangeError "Invalid time value")
  else if passes then .ok true
  else .error (rateLimited settings (retryAfterSeconds resetAt now))

/-- What the answer to a request says of it. -/
def verdictOf : Except Exception Bool → Verdict
  | .ok true => .admitted
  | .error (.tooManyRequests _ _ seconds _ _) => .refused seconds
  | .ok false | .error (.rangeError _) => .failed

section Memory

abbrev RateLimitBucket := Window

structure RateLimitGuard where
  now : Nat
  buckets : Store String RateLimitBucket
  lastCleanupAt : Nat

def RateLimitGuard.start (now : Nat) : RateLimitGuard := ⟨now, ∅, 0⟩

def cleanupExpiredBuckets (guard : RateLimitGuard) : RateLimitGuard :=
  if guard.now < guard.lastCleanupAt + defaultWindowMs then guard
  else
    { guard with
      lastCleanupAt := guard.now
      buckets := filterValues guard.buckets fun _ bucket => guard.now < bucket.resetAt }

/-- The bucket of a request, with the request counted. -/
def nextBucket (settings : Settings) (now : Nat) : Option RateLimitBucket → RateLimitBucket
  | none => ⟨1, now + settings.windowMs⟩
  | some current => if current.resetAt ≤ now then ⟨1, now + settings.windowMs⟩ else ⟨current.count + 1, current.resetAt⟩

def canActivate (settings : Settings) (guard : RateLimitGuard) (request : Request) :
    RateLimitGuard × Except Exception Bool :=
  let guard := cleanupExpiredBuckets guard
  let key := bucketKey settings request
  let bucket := nextBucket settings guard.now (guard.buckets.lookup key)
  ({ guard with buckets := guard.buckets.insert key bucket },
    respond settings (bucket.count ≤ settings.limit) bucket.resetAt guard.now)

def guardStep (settings : Settings) (guard : RateLimitGuard) : Event Request → RateLimitGuard
  | .tick ms => { guard with now := guard.now + ms }
  | .request request => (canActivate settings guard request).1

/-- When the bucket resets that the key has then, and what became of the request. -/
def guardRecord (settings : Settings) (guard : RateLimitGuard) : Event Request → Option (Entry String)
  | .tick _ => none
  | .request request =>
    let (after, result) := canActivate settings guard request
    let key := bucketKey settings request
    some ⟨key, guard.now, (after.buckets.lookup key).elim 0 (·.resetAt), verdictOf result⟩

/-- A bucket that is opened resets at a time that a `Date` has. -/
def ValidReset (settings : Settings) (guard : RateLimitGuard) : Event Request → Prop
  | .tick _ => True
  | .request request => (guard.buckets.lookup (bucketKey settings request)).all (·.resetAt ≤ guard.now) →
      guard.now + settings.windowMs ≤ dateMax

end Memory

section Redis

/-- A counter of Redis; it is gone when its time to live has elapsed. -/
structure Counter where
  count : Nat
  expiresAt : Option Nat
  deriving DecidableEq

structure Redis where
  now : Nat
  counters : Store String Counter

def Redis.start (now : Nat) : Redis := ⟨now, ∅⟩

def Redis.get (redis : Redis) (key : String) : Option Counter :=
  (redis.counters.lookup key).filter fun counter => counter.expiresAt.all (redis.now < ·)

def Redis.incr (redis : Redis) (key : String) : Redis × Nat :=
  let counter := (redis.get key).getD ⟨0, none⟩
  ({ redis with counters := redis.counters.insert key { counter with count := counter.count + 1 } }, counter.count + 1)

def Redis.pexpire (redis : Redis) (key : String) (ttlMs : Nat) : Redis :=
  match redis.get key with
  | some counter =>
    { redis with counters := redis.counters.insert key { counter with expiresAt := some (redis.now + ttlMs) } }
  | none => redis

/-- A number of fifteen digits or more as `%.14g` prints it: rounded to fourteen, half to even. -/
def scientific (n : Nat) : List Char :=
  let places := (Nat.toDigits 10 n).length - 14
  let half := 10 ^ places
  let up := half < 2 * (n % half) ∨ half = 2 * (n % half) ∧ n / half % 2 = 1
  let digits := Nat.toDigits 10 (if up then n / half + 1 else n / half)
  let exponent := Nat.toDigits 10 (places + digits.length - 1)
  match digits.rdropWhile (· = '0') with
  | [] => []
  | [digit] => digit :: 'e' :: '+' :: exponent
  | digit :: fraction => digit :: '.' :: fraction ++ 'e' :: '+' :: exponent

/-- Lua's `tostring` of a whole number that is not negative. -/
def tostring (n : Nat) : List Char := if n < 10 ^ 14 then Nat.toDigits 10 n else scientific n

/-- `Number.parseInt(text, 10)` of a text without sign or white space. -/
def parseInt (text : List Char) : Option Nat := readNumeral 10 (text.takeWhile Char.isDigit)

/-- The end of the multiple of a window's length that a time lies in. -/
def bucketReset (windowMs nowMs : Nat) : Nat := (nowMs / windowMs + 1) * windowMs

/-- The Lua script. What is left of the limit is not negative. -/
def script (redis : Redis) (key : String) (limit windowMs nowMs : Nat) : Redis × List Char × List Char × List Char :=
  let (redis, current) := redis.incr key
  let redis := if current = 1 then redis.pexpire key (bucketReset windowMs nowMs - nowMs) else redis
  (redis, tostring current, tostring (limit - current), tostring (bucketReset windowMs nowMs))

structure RateLimitResult where
  limit : Nat
  remaining : Int
  resetAt : Int
  deriving DecidableEq

/-- The key that `RedisRateLimiter` counts under. -/
def redisKey (realKey : String) : String := "rate-limit:" ++ realKey

def consume (redis : Redis) (realKey : String) (limit windowMs nowMs : Nat) : Redis × RateLimitResult :=
  let (redis, current, _, reset) := script redis (redisKey realKey) limit windowMs nowMs
  let remaining : Int := ((parseInt current).map fun count : Nat => (limit : Int) - count).getD 0
  let resetAt : Int := ((parseInt reset).map Int.ofNat).getD (nowMs + windowMs)
  (redis, ⟨limit, remaining, resetAt⟩)

def canActivateRedis (settings : Settings) (redis : Redis) (request : Request) : Redis × Except Exception Bool :=
  let (after, result) := consume redis (bucketKey settings request) settings.limit settings.windowMs redis.now
  (after, respond settings (0 ≤ result.remaining) result.resetAt redis.now)

def redisStep (settings : Settings) (redis : Redis) : Event Request → Redis
  | .tick ms => { redis with now := redis.now + ms }
  | .request request => (canActivateRedis settings redis request).1

/-- When the counter is gone that the key has then, and what became of the request. -/
def redisRecord (settings : Settings) (redis : Redis) : Event Request → Option (Entry String)
  | .tick _ => none
  | .request request =>
    let (after, result) := canActivateRedis settings redis request
    let key := bucketKey settings request
    some ⟨key, redis.now, ((after.counters.lookup (redisKey key)).bind (·.expiresAt)).getD 0, verdictOf result⟩

/-- The script prints no number of fifteen digits. -/
def ShortTexts (settings : Settings) (redis : Redis) : Event Request → Prop
  | .tick _ => True
  | .request request => ((redis.get (redisKey (bucketKey settings request))).elim 0 (·.count)) + 1 < 10 ^ 14 ∧
      bucketReset settings.windowMs redis.now < 10 ^ 14

end Redis

/-- What a limiter has to do, given the journal of each run and which runs count: every run is
sound, and how the requests on a key are answered depends on when they come and on nothing else. -/
structure Lawful (settings : Settings) (start : Nat) (journalOf : List (Event Request) → List (Entry String))
    (meets : List (Event Request) → Prop) : Prop where
  sound : ∀ events, meets events → Sound settings.limit settings.windowMs (journalOf events)
  isolated : ∀ events others key, meets events → meets others →
    requestTimes key start (events.map (.map (bucketKey settings))) =
      requestTimes key start (others.map (.map (bucketKey settings))) →
    (journalOf events).filter (·.key = key) = (journalOf others).filter (·.key = key)

variable (settings : Settings)

/-- A limiter whose journals are those of a rule is lawful. -/
theorem lawful_of_rule (rule : Rule) (limit : rule.limit = settings.limit) (windowMs : rule.windowMs = settings.windowMs)
    (start : Nat) {journalOf : List (Event Request) → List (Entry String)} {meets : List (Event Request) → Prop}
    (follows : ∀ events, meets events → journalOf events =
      journal (step rule) (record rule) (.start start) (events.map (.map (bucketKey settings)))) :
    Lawful settings start journalOf meets := by
  constructor
  · intro events met
    rw [follows events met, ← limit, ← windowMs]
    exact FixedWindows.sound rule start _
  · intro events others key met met' same
    rw [follows events met, follows others met']
    exact FixedWindows.isolated rule key start same

/-- A request is answered by its count if its window ends at a `Date`. -/
theorem verdict_respond {settings : Settings} (rule : Rule) (limit : rule.limit = settings.limit) {window : Window}
    (valid : window.resetAt ≤ dateMax) (now : Nat) :
    verdictOf (respond settings (window.count ≤ settings.limit) window.resetAt now) = verdict rule window now := by
  have date : ¬ dateMax < (window.resetAt : Int).natAbs := by
    rw [Int.natAbs_natCast]
    exact not_lt.mpr valid
  unfold respond verdict
  rw [if_neg date, limit]
  by_cases within : window.count ≤ settings.limit
  · simp [within, verdictOf]
  · simp [within, verdictOf, rateLimited]

section Memory
variable {settings : Settings} {guard : RateLimitGuard} {s : State String}

/-- Windows of the guard start at a request. -/
def guardRule (settings : Settings) : Rule where
  limit := settings.limit
  windowMs := settings.windowMs
  opens now := now + settings.windowMs
  limit_pos := settings.limit_pos
  windowMs_pos := settings.windowMs_pos
  opens_after _ := Nat.lt_add_of_pos_right settings.windowMs_pos
  opens_within _ := le_rfl
  opens_apart _ _ later := Nat.add_le_add_right later _

def RateLimitGuard.live (guard : RateLimitGuard) (key : String) : Option RateLimitBucket :=
  (guard.buckets.lookup key).filter (guard.now < ·.resetAt)

theorem nextBucket_eq (now : Nat) (bucket : Option RateLimitBucket) :
    nextBucket settings now bucket = counted (guardRule settings) (bucket.filter (now < ·.resetAt)) now := by
  cases bucket with
  | none => rfl
  | some bucket =>
    by_cases ended : bucket.resetAt ≤ now
    · simp [nextBucket, Option.filter, counted, guardRule, ended, not_lt.mpr ended]
    · simp [nextBucket, Option.filter, counted, ended, not_le.mp ended]

theorem now_cleanup : (cleanupExpiredBuckets guard).now = guard.now := by
  unfold cleanupExpiredBuckets
  split <;> rfl

/-- Cleaning up removes nothing that still counts. -/
theorem live_cleanup (key : String) : (cleanupExpiredBuckets guard).live key = guard.live key := by
  unfold cleanupExpiredBuckets
  split
  · rfl
  · simp only [RateLimitGuard.live, lookup_filterValues, Option.filter_filter, Bool.and_self]

/-- The guard holds the windows that have not ended, and all of them reset at a `Date`. -/
structure GuardMirrors (guard : RateLimitGuard) (s : State String) : Prop where
  now : s.now = guard.now
  live : ∀ key, guard.live key = current s key
  valid : ∀ key window, current s key = some window → window.resetAt ≤ dateMax

/-- A request counts in the window of the rule and is answered by its count. -/
theorem canActivate_eq (mirrors : GuardMirrors guard s) (request : Request) :
    let window := counted (guardRule settings) (current s (bucketKey settings request)) s.now
    (canActivate settings guard request).1.now = guard.now ∧
      (canActivate settings guard request).1.buckets =
        (cleanupExpiredBuckets guard).buckets.insert (bucketKey settings request) window ∧
      (canActivate settings guard request).2 =
        respond settings (window.count ≤ settings.limit) window.resetAt guard.now := by
  have window : nextBucket settings guard.now
      ((cleanupExpiredBuckets guard).buckets.lookup (bucketKey settings request)) =
        counted (guardRule settings) (current s (bucketKey settings request)) s.now := by
    rw [nextBucket_eq, mirrors.now, ← mirrors.live, ← live_cleanup, RateLimitGuard.live, now_cleanup]
  simp only [canActivate, now_cleanup, window, and_self]

/-- The window of a request whose bucket resets at a `Date`. -/
theorem valid_counted (mirrors : GuardMirrors guard s) {request : Request}
    (valid : ValidReset settings guard (.request request)) :
    (counted (guardRule settings) (current s (bucketKey settings request)) s.now).resetAt ≤ dateMax := by
  cases held : current s (bucketKey settings request) with
  | some window => exact mirrors.valid _ window held
  | none =>
    have opens := valid
    rw [← mirrors.live, RateLimitGuard.live, Option.filter_eq_none_iff] at held
    simp only [counted, guardRule, mirrors.now]
    apply opens
    rw [Option.all_eq_true]
    intro bucket found
    simpa using held bucket found

theorem guardMirrors_step (mirrors : GuardMirrors guard s) (event : Event Request)
    (valid : ValidReset settings guard event) :
    GuardMirrors (guardStep settings guard event) (step (guardRule settings) s (event.map (bucketKey settings))) := by
  cases event with
  | tick ms =>
    refine ⟨congrArg (· + ms) mirrors.now, fun key => ?_, fun key window held => ?_⟩
    · rw [Event.map, current_tick, ← mirrors.live, mirrors.now]
      exact (filter_later guard.now ms Window.resetAt _).symm
    · rw [Event.map, current_tick, Option.filter_eq_some_iff] at held
      exact mirrors.valid key window held.1
  | request request =>
    obtain ⟨now, buckets, -⟩ := @canActivate_eq settings guard s mirrors request
    refine ⟨mirrors.now.trans now.symm, fun key => ?_, fun key window held => ?_⟩
    · by_cases mine : key = bucketKey settings request
      · subst mine
        rw [Event.map, current_request]
        have live := @current_request _ _ (guardRule settings) s (bucketKey settings request)
        rw [current, Option.filter_eq_some_iff] at live
        simp only [guardStep, RateLimitGuard.live, buckets, now, AList.lookup_insert]
        simpa [Option.filter, step, mirrors.now] using live.2
      · have kept := @live_cleanup guard key
        rw [Event.map, current_other mine, ← mirrors.live, ← kept]
        simp only [guardStep, RateLimitGuard.live, buckets, now, now_cleanup, AList.lookup_insert_ne mine]
    · by_cases mine : key = bucketKey settings request
      · subst mine
        rw [Event.map, current_request] at held
        rw [← Option.some.inj held]
        exact valid_counted mirrors valid
      · rw [Event.map, current_other mine] at held
        exact mirrors.valid key window held

theorem guardRecord_eq (mirrors : GuardMirrors guard s) (event : Event Request)
    (valid : ValidReset settings guard event) :
    guardRecord settings guard event = record (guardRule settings) s (event.map (bucketKey settings)) := by
  cases event with
  | tick ms => rfl
  | request request =>
    obtain ⟨-, buckets, result⟩ := @canActivate_eq settings guard s mirrors request
    have answer := verdict_respond (guardRule settings) rfl (valid_counted mirrors valid) guard.now
    rw [mirrors.now] at buckets result answer
    simp only [guardRecord, Event.map, record, entry, buckets, result, AList.lookup_insert, Option.elim_some, answer,
      mirrors.now]

/-- What the guard records along a run of requests. -/
def guardJournal (settings : Settings) (now : Nat) (events : List (Event Request)) : List (Entry String) :=
  journal (guardStep settings) (guardRecord settings) (.start now) events

theorem guard_lawful (settings : Settings) (now : Nat) :
    Lawful settings now (guardJournal settings now)
      (Throughout (guardStep settings) (ValidReset settings) (.start now)) := by
  apply lawful_of_rule settings (guardRule settings) rfl rfl
  intro events valid
  rw [← journal_map]
  refine journals_agree GuardMirrors ?_ ?_ ?_ valid
  · exact fun guard s event mirrors valid => guardMirrors_step mirrors event valid
  · exact fun guard s event mirrors valid => guardRecord_eq mirrors event valid
  · exact ⟨rfl, fun key => rfl, by simp [current, State.start]⟩

end Memory

section Redis
variable {settings : Settings} {redis : Redis} {s : State String}

theorem bucketReset_apart {windowMs : Nat} (positive : 0 < windowMs) (before now : Nat)
    (later : bucketReset windowMs before ≤ now) : bucketReset windowMs before + windowMs ≤ bucketReset windowMs now := by
  have number : before / windowMs + 1 ≤ now / windowMs := (Nat.le_div_iff_mul_le positive).mpr later
  rw [bucketReset, bucketReset, ← Nat.succ_mul]
  exact Nat.mul_le_mul_right windowMs (Nat.succ_le_succ number)

/-- Windows in Redis are the multiples of their length. -/
def redisRule (settings : Settings) : Rule where
  limit := settings.limit
  windowMs := settings.windowMs
  opens := bucketReset settings.windowMs
  limit_pos := settings.limit_pos
  windowMs_pos := settings.windowMs_pos
  opens_after now := by
    rw [bucketReset, Nat.mul_comm]
    exact Nat.lt_mul_div_succ now settings.windowMs_pos
  opens_within now := by
    rw [bucketReset, Nat.succ_mul]
    exact Nat.add_le_add_right (Nat.div_mul_le_self now settings.windowMs) _
  opens_apart := bucketReset_apart settings.windowMs_pos

/-- As long as a window has not ended, it is the one that the time lies in. -/
theorem bucketReset_same {windowMs now later : Nat} (positive : 0 < windowMs) (after : now ≤ later)
    (before : later < bucketReset windowMs now) : bucketReset windowMs later = bucketReset windowMs now := by
  have least : now / windowMs ≤ later / windowMs := Nat.div_le_div_right after
  have most : later / windowMs < now / windowMs + 1 := (Nat.div_lt_iff_lt_mul positive).mpr before
  rw [bucketReset, bucketReset, show later / windowMs = now / windowMs by omega]

/-- The texts of short numbers read back. -/
theorem parseInt_tostring {n : Nat} (short : n < 10 ^ 14) : parseInt (tostring n) = some n := by
  have digits : ∀ c ∈ Nat.toDigits 10 n, c.isDigit := fun c member =>
    Nat.isDigit_of_mem_toDigits (by decide) (by decide) member
  rw [parseInt, tostring, if_pos short, List.takeWhile_eq_self_iff.mpr digits, readNumeral_toDigits (by decide) (by decide)]

/-- Redis holds the windows that have not ended. -/
structure RedisMirrors (settings : Settings) (redis : Redis) (s : State String) : Prop where
  now : s.now = redis.now
  counters : ∀ key, redis.get (redisKey key) = (current s key).map fun window => ⟨window.count, some window.resetAt⟩
  aligned : ∀ key window, current s key = some window → window.resetAt = bucketReset settings.windowMs s.now

/-- The script counts, and has the counter expire where the window ends. -/
theorem script_eq (mirrors : RedisMirrors settings redis s) (key : String) :
    script redis (redisKey key) settings.limit settings.windowMs redis.now =
      let window := counted (redisRule settings) (current s key) s.now
      ({ redis with counters := redis.counters.insert (redisKey key) ⟨window.count, some window.resetAt⟩ },
        tostring window.count, tostring (settings.limit - window.count), tostring window.resetAt) := by
  have after : redis.now < bucketReset settings.windowMs redis.now := (redisRule settings).opens_after redis.now
  have ends :
      redis.now + (bucketReset settings.windowMs redis.now - redis.now) = bucketReset settings.windowMs redis.now := by
    omega
  have found := mirrors.counters key
  cases held : current s key with
  | none =>
    rw [held] at found
    have mine : ({ redis with counters := redis.counters.insert (redisKey key) ⟨1, none⟩ } : Redis).get (redisKey key) =
        some ⟨1, none⟩ := by
      simp [Redis.get, Option.filter]
    simp only [script, Redis.incr, found, Option.map_none, Option.getD_none, Nat.zero_add, if_true, Redis.pexpire, mine,
      AList.insert_insert, ends, counted, redisRule, mirrors.now]
  | some window =>
    obtain ⟨count, resetAt⟩ := window
    have aligned : resetAt = bucketReset settings.windowMs redis.now := mirrors.now ▸ mirrors.aligned key _ held
    subst aligned
    rw [held] at found
    have mine : ({ redis with
        counters := redis.counters.insert (redisKey key) ⟨count + 1, some (bucketReset settings.windowMs redis.now)⟩ } :
          Redis).get (redisKey key) = some ⟨count + 1, some (bucketReset settings.windowMs redis.now)⟩ := by
      simp [Redis.get, Option.filter, after]
    simp only [script, Redis.incr, found, Option.map_some, Option.getD_some, counted, Redis.pexpire, mine,
      AList.insert_insert, ends, ite_self]

/-- A request is answered by its count, read back from the texts. -/
theorem canActivateRedis_eq (mirrors : RedisMirrors settings redis s) (request : Request)
    (short : ShortTexts settings redis (.request request)) :
    let window := counted (redisRule settings) (current s (bucketKey settings request)) s.now
    window.resetAt = bucketReset settings.windowMs redis.now ∧
      canActivateRedis settings redis request =
        ({ redis with counters :=
            redis.counters.insert (redisKey (bucketKey settings request)) ⟨window.count, some window.resetAt⟩ },
          respond settings (window.count ≤ settings.limit) window.resetAt redis.now) := by
  have found := mirrors.counters (bucketKey settings request)
  have reset : (counted (redisRule settings) (current s (bucketKey settings request)) s.now).resetAt =
      bucketReset settings.windowMs redis.now := by
    rw [← mirrors.now]
    cases held : current s (bucketKey settings request) with
    | none => rfl
    | some window => exact mirrors.aligned _ window held
  have count : (counted (redisRule settings) (current s (bucketKey settings request)) s.now).count < 10 ^ 14 := by
    have small := short.1
    rw [found] at small
    cases held : current s (bucketKey settings request) with
    | none => simp [counted]
    | some window =>
      rw [held] at small
      exact small
  refine ⟨reset, ?_⟩
  have answers := script_eq mirrors (bucketKey settings request)
  have resets := short.2
  rw [← reset] at resets
  simp only [canActivateRedis, consume, answers, parseInt_tostring count, parseInt_tostring resets, Option.map_some,
    Option.getD_some, Prod.mk.injEq, true_and]
  congr 1
  simp

theorem redisKey_injective {key other : String} (same : redisKey key = redisKey other) : key = other :=
  (String.append_right_inj "rate-limit:").mp same

/-- What Redis holds later of what it holds now. -/
theorem get_tick (key : String) (ms : Nat) :
    (redis.get key).filter (fun counter => counter.expiresAt.all (redis.now + ms < ·)) =
      ({ redis with now := redis.now + ms } : Redis).get key := by
  simp only [Redis.get, Option.filter_filter]
  congr 1
  funext counter
  cases counter.expiresAt with
  | none => rfl
  | some expiresAt =>
    by_cases later : redis.now + ms < expiresAt
    · simp [later, Nat.lt_of_add_right_lt later]
    · simp [later]

theorem redisMirrors_step (mirrors : RedisMirrors settings redis s) (event : Event Request)
    (short : ShortTexts settings redis event) :
    RedisMirrors settings (redisStep settings redis event)
      (step (redisRule settings) s (event.map (bucketKey settings))) := by
  cases event with
  | tick ms =>
    refine ⟨congrArg (· + ms) mirrors.now, fun key => ?_, fun key window held => ?_⟩
    · have found := mirrors.counters key
      rw [Event.map, current_tick, mirrors.now]
      simp only [redisStep]
      rw [← get_tick, found]
      cases current s key with
      | none => rfl
      | some window => by_cases live : redis.now + ms < window.resetAt <;> simp [Option.filter, live]
    · rw [Event.map, current_tick, Option.filter_eq_some_iff] at held
      have aligned := mirrors.aligned key window held.1
      have before := of_decide_eq_true held.2
      rw [aligned] at before ⊢
      exact (bucketReset_same settings.windowMs_pos (Nat.le_add_right _ _) before).symm
  | request request =>
    obtain ⟨reset, activated⟩ := canActivateRedis_eq mirrors request short
    refine ⟨mirrors.now.trans (by rw [redisStep, activated]), fun key => ?_, fun key window held => ?_⟩
    · by_cases mine : key = bucketKey settings request
      · subst mine
        rw [Event.map, current_request]
        have after : redis.now < bucketReset settings.windowMs redis.now := (redisRule settings).opens_after redis.now
        simp only [redisStep, activated, Redis.get, AList.lookup_insert, reset]
        simp [Option.filter, after, reset]
      · have foreign : redisKey key ≠ redisKey (bucketKey settings request) := fun same => mine (redisKey_injective same)
        rw [Event.map, current_other mine, ← mirrors.counters]
        simp only [redisStep, activated, Redis.get, AList.lookup_insert_ne foreign]
    · by_cases mine : key = bucketKey settings request
      · subst mine
        rw [Event.map, current_request] at held
        rw [← Option.some.inj held, reset, ← mirrors.now]
        rfl
      · rw [Event.map, current_other mine] at held
        exact mirrors.aligned key window held

theorem redisRecord_eq (mirrors : RedisMirrors settings redis s) (event : Event Request)
    (short : ShortTexts settings redis event) :
    redisRecord settings redis event = record (redisRule settings) s (event.map (bucketKey settings)) := by
  cases event with
  | tick ms => rfl
  | request request =>
    obtain ⟨reset, activated⟩ := canActivateRedis_eq mirrors request short
    have valid : (counted (redisRule settings) (current s (bucketKey settings request)) s.now).resetAt ≤ dateMax := by
      have small := short.2
      rw [reset, dateMax]
      omega
    have answer := verdict_respond (redisRule settings) rfl valid redis.now
    rw [mirrors.now] at activated answer
    simp only [redisRecord, Event.map, record, entry, activated, AList.lookup_insert, Option.bind_some,
      Option.getD_some, answer, mirrors.now]

/-- What the Redis guard records along a run of requests. -/
def redisJournal (settings : Settings) (now : Nat) (events : List (Event Request)) : List (Entry String) :=
  journal (redisStep settings) (redisRecord settings) (.start now) events

theorem redis_lawful (settings : Settings) (now : Nat) :
    Lawful settings now (redisJournal settings now)
      (Throughout (redisStep settings) (ShortTexts settings) (.start now)) := by
  apply lawful_of_rule settings (redisRule settings) rfl rfl
  intro events short
  rw [← journal_map]
  refine journals_agree (RedisMirrors settings) ?_ ?_ ?_ short
  · exact fun redis s event mirrors short => redisMirrors_step mirrors event short
  · exact fun redis s event mirrors short => redisRecord_eq mirrors event short
  · exact ⟨rfl, fun key => rfl, by simp [current, State.start]⟩

end Redis

/-- In every run in which no bucket of the guard is opened to reset after the last `Date`, and in
every run in which the script prints no number of fifteen digits, the limiter is lawful. -/
theorem limiters_lawful (settings : Settings) (now : Nat) :
    Lawful settings now (guardJournal settings now)
        (Throughout (guardStep settings) (ValidReset settings) (.start now)) ∧
      Lawful settings now (redisJournal settings now)
        (Throughout (redisStep settings) (ShortTexts settings) (.start now)) :=
  ⟨guard_lawful settings now, redis_lawful settings now⟩

/-- One request in a window of 10^14 milliseconds. -/
def longWindow : Settings := ⟨"api", 1, 10 ^ 14, by decide, by decide⟩

def client : Request := ⟨some "u1", none, none, none⟩

/-- The second request is refused and told to wait for a second, which the client does. -/
def waitsAsTold : List (Event Request) := [.request client, .request client, .tick 1000, .request client]

/-- The end of the window, 10^14, is printed as `1e+14` and read back as 1. -/
theorem waited_and_refused :
    redisJournal longWindow 1700000000000 waitsAsTold =
        [⟨"api:user:u1", 1700000000000, 10 ^ 14, .admitted⟩, ⟨"api:user:u1", 1700000000000, 10 ^ 14, .refused 1⟩,
          ⟨"api:user:u1", 1700000001000, 10 ^ 14, .refused 1⟩] ∧
      ¬ Sound longWindow.limit longWindow.windowMs (redisJournal longWindow 1700000000000 waitsAsTold) := by
  have log : redisJournal longWindow 1700000000000 waitsAsTold =
      [⟨"api:user:u1", 1700000000000, 10 ^ 14, .admitted⟩, ⟨"api:user:u1", 1700000000000, 10 ^ 14, .refused 1⟩,
        ⟨"api:user:u1", 1700000001000, 10 ^ 14, .refused 1⟩] := by
    decide +kernel
  refine ⟨log, fun sound => ?_⟩
  rw [log] at sound
  have admitted := sound.retry [_] _ [] _ [] 1 rfl rfl rfl (by simp) (by decide)
  cases admitted

end AfroPay.RateLimit
