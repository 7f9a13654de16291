import AfroPay.Runs
import Mathlib.Algebra.Order.Ring.Nat
import Mathlib.Data.List.Basic
import Mathlib.Logic.Function.Basic

/-! Rate limits by fixed windows. A request counts in the window of its key that has not ended,
and opens one otherwise; where windows end is a parameter. Windows of one key that end at
different times end a window's length apart at least, so no interval of that length meets more
than two of them. -/
namespace AfroPay.FixedWindows
open Runs
variable {Key : Type*} [DecidableEq Key]

/-- Requests come at the time of a clock. -/
inductive Event (Key : Type*) where
  | tick (ms : Nat)
  | request (key : Key)
  deriving DecidableEq

def Event.map {Client : Type*} (key : Client → Key) : Event Client → Event Key
  | .tick ms => .tick ms
  | .request client => .request (key client)

inductive Verdict where
  | admitted
  | refused (retryAfterSeconds : Int)
  | failed
  deriving DecidableEq

/-- A request, the end of the window it counts in, and what became of it. -/
structure Entry (Key : Type*) where
  key : Key
  time : Nat
  windowEnd : Nat
  verdict : Verdict
  deriving DecidableEq

structure Window where
  count : Nat
  resetAt : Nat
  deriving DecidableEq

/-- How many requests a window takes, how long it is, and when a window that is opened ends. -/
structure Rule where
  limit : Nat
  windowMs : Nat
  opens : Nat → Nat
  limit_pos : 0 < limit
  windowMs_pos : 0 < windowMs
  opens_after : ∀ now, now < opens now
  opens_within : ∀ now, opens now ≤ now + windowMs
  opens_apart : ∀ before now, opens before ≤ now → opens before + windowMs ≤ opens now

structure State (Key : Type*) where
  now : Nat
  windows : Key → Option Window

def State.start (now : Nat) : State Key := ⟨now, fun _ => none⟩

/-- The seconds that are left, one at least. -/
def retryAfterSeconds (resetAt now : Int) : Int := max 1 (-((now - resetAt) / 1000))

variable (rule : Rule) (s : State Key)

/-- The window of a key that has not ended. -/
def current (key : Key) : Option Window := (s.windows key).filter (s.now < ·.resetAt)

/-- The window of a request, with the request counted. -/
def counted (window : Option Window) (now : Nat) : Window :=
  match window with
  | some window => { window with count := window.count + 1 }
  | none => ⟨1, rule.opens now⟩

def verdict (window : Window) (now : Nat) : Verdict :=
  if window.count ≤ rule.limit then .admitted else .refused (retryAfterSeconds window.resetAt now)

def step : Event Key → State Key
  | .tick ms => { s with now := s.now + ms }
  | .request key => { s with windows := Function.update s.windows key (some (counted rule (current s key) s.now)) }

def entry (window : Option Window) (key : Key) (now : Nat) : Entry Key :=
  ⟨key, now, (counted rule window now).resetAt, verdict rule (counted rule window now) now⟩

def record : Event Key → Option (Entry Key)
  | .tick _ => none
  | .request key => some (entry rule (current s key) key s.now)

def Entry.admits (entry : Entry Key) (key : Key) : Bool := entry.key = key && entry.verdict = .admitted

/-- What a log of requests has to satisfy: no more than the limit for a window and for a key,
no more than twice the limit in an interval as long as a window, and a client that waits for
as long as it was told is admitted. -/
structure Sound (limit windowMs : Nat) (log : List (Entry Key)) : Prop where
  perWindow : ∀ key windowEnd, log.countP (fun e => e.admits key && e.windowEnd = windowEnd) ≤ limit
  perInterval : ∀ key start,
    log.countP (fun e => e.admits key && (start ≤ e.time && e.time ≤ start + windowMs)) ≤ 2 * limit
  retry : ∀ before refusal between next after seconds,
    log = before ++ refusal :: (between ++ next :: after) → refusal.verdict = .refused seconds →
    next.key = refusal.key → (∀ e ∈ between, e.key ≠ refusal.key) → (refusal.time : Int) + 1000 * seconds ≤ next.time →
    next.verdict = .admitted

/-- When the requests on a key come. -/
def requestTimes (key : Key) : Nat → List (Event Key) → List Nat
  | _, [] => []
  | now, .tick ms :: rest => requestTimes key (now + ms) rest
  | now, .request other :: rest =>
    if other = key then now :: requestTimes key now rest else requestTimes key now rest

section Isolation

/-- What becomes of the requests on one key. -/
def serve (key : Key) : Option Window → List Nat → List (Entry Key)
  | _, [] => []
  | window, now :: rest =>
    entry rule (window.filter (now < ·.resetAt)) key now ::
      serve key (some (counted rule (window.filter (now < ·.resetAt)) now)) rest

/-- The requests on a key are served as if there were no other keys. -/
theorem journal_key (key : Key) (s : State Key) (events : List (Event Key)) :
    (journal (step rule) (record rule) s events).filter (·.key = key) =
      serve rule key (s.windows key) (requestTimes key s.now events) := by
  induction events generalizing s with
  | nil => rfl
  | cons event rest ih =>
    rw [journal, List.filter_append, ih]
    cases event with
    | tick ms => rfl
    | request other =>
      by_cases mine : other = key
      · subst mine
        simp [record, step, requestTimes, serve, entry, current]
      · simp [record, step, requestTimes, entry, mine, Function.update_of_ne (Ne.symm mine)]

/-- Where the requests on a key come at the same times, they are answered alike. -/
theorem isolated (key : Key) (now : Nat) {events others : List (Event Key)}
    (same : requestTimes key now events = requestTimes key now others) :
    (journal (step rule) (record rule) (.start now) events).filter (·.key = key) =
      (journal (step rule) (record rule) (.start now) others).filter (·.key = key) := by
  rw [journal_key, journal_key]
  exact congrArg (serve rule key none) same

end Isolation

section Current
variable {rule : Rule} {s : State Key} {key : Key}

omit [DecidableEq Key] in
theorem filter_later {α : Type*} (now ms : Nat) (ends : α → Nat) (window : Option α) :
    (window.filter (now < ends ·)).filter (now + ms < ends ·) = window.filter (now + ms < ends ·) := by
  rw [Option.filter_filter]
  congr 1
  funext window
  by_cases later : now + ms < ends window
  · simp [later, Nat.lt_of_add_right_lt later]
  · simp [later]

theorem current_tick (ms : Nat) :
    current (step rule s (.tick ms)) key = (current s key).filter (s.now + ms < ·.resetAt) :=
  (filter_later s.now ms Window.resetAt _).symm

theorem current_other {other : Key} (foreign : other ≠ key) :
    current (step rule s (.request key)) other = current s other := by
  simp only [current, step, Function.update_of_ne foreign]
  rfl

theorem current_request : current (step rule s (.request key)) key = some (counted rule (current s key) s.now) := by
  have live : s.now < (counted rule (current s key) s.now).resetAt := by
    cases held : current s key with
    | none => exact rule.opens_after s.now
    | some window => exact of_decide_eq_true (Option.filter_eq_some_iff.mp held).2
  generalize shape : counted rule (current s key) s.now = window at live
  simp only [current] at shape
  simp only [current, step, Function.update_self, shape]
  exact Option.filter_eq_some_iff.mpr ⟨rfl, decide_eq_true live⟩

end Current

section Soundness
variable {rule : Rule} {s : State Key} {log : List (Entry Key)} {key : Key}

omit [DecidableEq Key] in
/-- Everything the count of a request can be. -/
theorem counted_cases (rule : Rule) (s : State Key) (key : Key) :
    (∃ window, s.windows key = some window ∧ s.now < window.resetAt ∧
      counted rule (current s key) s.now = ⟨window.count + 1, window.resetAt⟩) ∨
    counted rule (current s key) s.now = ⟨1, rule.opens s.now⟩ ∧
      ∀ window, s.windows key = some window → window.resetAt ≤ s.now := by
  unfold current
  cases held : s.windows key with
  | none => exact .inr ⟨rfl, by simp⟩
  | some window =>
    by_cases live : s.now < window.resetAt
    · refine .inl ⟨window, rfl, live, ?_⟩
      simp [Option.filter, live, counted]
    · refine .inr ⟨by simp [Option.filter, live, counted], ?_⟩
      rintro _ ⟨⟩
      exact not_lt.mp live

/-- What the windows say of the log. -/
structure Kept (rule : Rule) (s : State Key) (log : List (Entry Key)) : Prop where
  opened : ∀ key window, s.windows key = some window → ∃ before ≤ s.now, window.resetAt = rule.opens before
  tracked : ∀ e ∈ log, ∃ window, s.windows e.key = some window ∧
    (e.windowEnd = window.resetAt ∨ e.windowEnd + rule.windowMs ≤ window.resetAt)
  counts : ∀ key window, s.windows key = some window →
    log.countP (fun e => e.admits key && e.windowEnd = window.resetAt) = min window.count rule.limit
  perWindow : ∀ key windowEnd, log.countP (fun e => e.admits key && e.windowEnd = windowEnd) ≤ rule.limit
  within : ∀ e ∈ log, e.time < e.windowEnd ∧ e.windowEnd ≤ e.time + rule.windowMs
  apart : ∀ e ∈ log, ∀ e' ∈ log, e.key = e'.key → e.windowEnd < e'.windowEnd → e.windowEnd + rule.windowMs ≤ e'.windowEnd

theorem kept_start (rule : Rule) (now : Nat) : Kept rule (State.start now : State Key) [] :=
  ⟨by simp [State.start], by simp, by simp [State.start], by simp, by simp, by simp⟩

/-- The window of a request ends with the one that its key had, or a window's length later. -/
theorem Kept.counted_resetAt (kept : Kept rule s log) (key : Key) :
    (∃ before ≤ s.now, (counted rule (current s key) s.now).resetAt = rule.opens before) ∧
      s.now < (counted rule (current s key) s.now).resetAt ∧
      ∀ e ∈ log, e.key = key → e.windowEnd = (counted rule (current s key) s.now).resetAt ∨
        e.windowEnd + rule.windowMs ≤ (counted rule (current s key) s.now).resetAt := by
  rcases counted_cases rule s key with ⟨window, held, live, shape⟩ | ⟨shape, ended⟩
  · rw [shape]
    refine ⟨kept.opened key window held, live, ?_⟩
    rintro e member rfl
    obtain ⟨window', held', place⟩ := kept.tracked e member
    rw [held] at held'
    cases held'
    exact place
  · rw [shape]
    refine ⟨⟨s.now, le_rfl, rfl⟩, rule.opens_after s.now, ?_⟩
    rintro e member rfl
    obtain ⟨window, held, place⟩ := kept.tracked e member
    obtain ⟨before, -, opened⟩ := kept.opened e.key window held
    have later := rule.opens_apart before s.now (opened ▸ ended window held)
    refine .inr ?_
    simp only
    omega

/-- The count of a request's window is one more than the log's. -/
theorem Kept.counted_count (kept : Kept rule s log) (key : Key) :
    log.countP (fun e => e.admits key && e.windowEnd = (counted rule (current s key) s.now).resetAt) =
      min ((counted rule (current s key) s.now).count - 1) rule.limit ∧ 0 < (counted rule (current s key) s.now).count := by
  rcases counted_cases rule s key with ⟨window, held, live, shape⟩ | ⟨shape, ended⟩
  · rw [shape]
    exact ⟨kept.counts key window held, Nat.succ_pos _⟩
  · rw [shape]
    refine ⟨?_, Nat.one_pos⟩
    rw [Nat.sub_self, Nat.zero_min, List.countP_eq_zero]
    intro e member counts
    simp only [Entry.admits, Bool.and_eq_true, decide_eq_true_eq] at counts
    obtain ⟨⟨rfl, -⟩, same⟩ := counts
    obtain ⟨window, held, place⟩ := kept.tracked e member
    have done := ended window held
    have later := rule.opens_after s.now
    omega

theorem kept_step (kept : Kept rule s log) (event : Event Key) :
    Kept rule (step rule s event) (log ++ (record rule s event).toList) := by
  cases event with
  | tick ms =>
    rw [record, Option.toList_none, List.append_nil]
    refine ⟨fun key window held => ?_, kept.tracked, kept.counts, kept.perWindow, kept.within, kept.apart⟩
    obtain ⟨before, early, opened⟩ := kept.opened key window held
    exact ⟨before, Nat.le_add_right_of_le early, opened⟩
  | request key =>
    obtain ⟨opened, live, places⟩ := kept.counted_resetAt key
    have count := kept.counted_count key
    simp only [record, Option.toList_some]
    have own : (step rule s (.request key)).windows key = some (counted rule (current s key) s.now) :=
      Function.update_self ..
    have others (other : Key) (foreign : other ≠ key) : (step rule s (.request key)).windows other = s.windows other :=
      Function.update_of_ne foreign ..
    generalize shape : counted rule (current s key) s.now = window at opened live places count own
    have admitting : (entry rule (current s key) key s.now).verdict = .admitted ↔ window.count ≤ rule.limit := by
      simp only [entry, verdict, shape]
      split <;> simp_all
    have counts : (log ++ [entry rule (current s key) key s.now]).countP
        (fun e => e.admits key && e.windowEnd = window.resetAt) = min window.count rule.limit := by
      rw [List.countP_append, count.1, List.countP_singleton]
      simp only [Entry.admits, entry, shape] at admitting ⊢
      simp only [decide_true, Bool.true_and, Bool.and_true, decide_eq_true_eq, admitting]
      split <;> omega
    have fresh (other : Key) (windowEnd : Nat) (elsewhere : other = key → windowEnd ≠ window.resetAt) :
        (log ++ [entry rule (current s key) key s.now]).countP (fun e => e.admits other && e.windowEnd = windowEnd) =
          log.countP (fun e => e.admits other && e.windowEnd = windowEnd) := by
      rw [List.countP_append, List.countP_singleton, if_neg, Nat.add_zero]
      simp only [Entry.admits, entry, shape, Bool.and_eq_true, decide_eq_true_eq]
      rintro ⟨⟨rfl, -⟩, rfl⟩
      exact elsewhere rfl rfl
    refine ⟨?_, ?_, ?_, ?_, ?_, ?_⟩
    · intro other held found
      by_cases mine : other = key
      · subst mine
        rw [own, Option.some.injEq] at found
        rw [← found]
        exact opened
      · rw [others other mine] at found
        exact kept.opened other held found
    · intro e member
      rcases List.mem_append.mp member with old | new
      · by_cases mine : e.key = key
        · exact ⟨window, by rw [mine, own], places e old mine⟩
        · rw [others e.key mine]
          exact kept.tracked e old
      · rw [List.mem_singleton.mp new]
        exact ⟨window, own, .inl (by simp only [entry, shape])⟩
    · intro other held found
      by_cases mine : other = key
      · subst mine
        rw [own, Option.some.injEq] at found
        rw [← found]
        exact counts
      · rw [others other mine] at found
        rw [fresh other held.resetAt fun same => absurd same mine]
        exact kept.counts other held found
    · intro other windowEnd
      by_cases mine : other = key ∧ windowEnd = window.resetAt
      · rw [mine.1, mine.2, counts]
        exact Nat.min_le_right _ _
      · rw [fresh other windowEnd fun same place => mine ⟨same, place⟩]
        exact kept.perWindow other windowEnd
    · intro e member
      rcases List.mem_append.mp member with old | new
      · exact kept.within e old
      · obtain ⟨before, early, place⟩ := opened
        have most := rule.opens_within before
        rw [List.mem_singleton.mp new]
        simp only [entry, shape]
        omega
    · intro e member e' member' same before
      rcases List.mem_append.mp member with old | new <;> rcases List.mem_append.mp member' with old' | new'
      · exact kept.apart e old e' old' same before
      · rw [List.mem_singleton.mp new'] at same before ⊢
        simp only [entry, shape] at same before ⊢
        have place := places e old same
        omega
      · rw [List.mem_singleton.mp new] at same before
        simp only [entry, shape] at same before
        have place := places e' old' same.symm
        omega
      · rw [List.mem_singleton.mp new, List.mem_singleton.mp new'] at before
        exact absurd before (lt_irrefl _)

/-- What counts in one of two ways is counted one way or the other. -/
theorem countP_le_add {α : Type*} {log : List α} {p q r : α → Bool} (covers : ∀ e ∈ log, p e → q e ∨ r e) :
    log.countP p ≤ log.countP q + log.countP r := by
  induction log with
  | nil => simp
  | cons e rest ih =>
    have smaller := ih fun e member => covers e (List.mem_cons_of_mem _ member)
    simp only [List.countP_cons]
    by_cases counts : p e
    · rcases covers e List.mem_cons_self counts with here | here <;> simp only [counts, here, if_true] <;> omega
    · simp only [counts, Bool.false_eq_true, if_false]
      omega

/-- Three windows of one key do not meet one interval. -/
theorem Kept.two_windows (kept : Kept rule s log) (key : Key) (start : Nat) :
    log.countP (fun e => e.admits key && (start ≤ e.time && e.time ≤ start + rule.windowMs)) ≤ 2 * rule.limit := by
  let inside (e : Entry Key) : Bool := e.admits key && (start ≤ e.time && e.time ≤ start + rule.windowMs)
  have met {e : Entry Key} (counts : inside e) : e.key = key ∧ start ≤ e.time ∧ e.time ≤ start + rule.windowMs := by
    simp only [inside, Entry.admits, Bool.and_eq_true, decide_eq_true_eq] at counts
    exact ⟨counts.1.1, counts.2⟩
  have admitted {e : Entry Key} (counts : inside e) : e.admits key := by
    simp only [inside, Bool.and_eq_true] at counts
    exact counts.1
  change log.countP inside ≤ 2 * rule.limit
  obtain ⟨first, last, covers⟩ : ∃ first last, ∀ e ∈ log, inside e → e.windowEnd = first ∨ e.windowEnd = last := by
    by_cases some : ∃ e ∈ log, inside e
    · obtain ⟨one, listed, counts⟩ := some
      by_cases other : ∃ e ∈ log, inside e ∧ e.windowEnd ≠ one.windowEnd
      · obtain ⟨two, listed', counts', different⟩ := other
        refine ⟨one.windowEnd, two.windowEnd, fun e member within => ?_⟩
        -- The windows of three requests would take up more than the interval.
        have keys := And.intro (met counts) (And.intro (met counts') (met within))
        have places := And.intro (kept.within one listed) (And.intro (kept.within two listed') (kept.within e member))
        have between (a b : Entry Key) (a_listed : a ∈ log) (b_listed : b ∈ log) (same : a.key = b.key) :
            a.windowEnd < b.windowEnd → a.windowEnd + rule.windowMs ≤ b.windowEnd :=
          kept.apart a a_listed b b_listed same
        have oneTwo := between one two listed listed' (keys.1.1.trans keys.2.1.1.symm)
        have twoOne := between two one listed' listed (keys.2.1.1.trans keys.1.1.symm)
        have oneE := between one e listed member (keys.1.1.trans keys.2.2.1.symm)
        have eOne := between e one member listed (keys.2.2.1.trans keys.1.1.symm)
        have twoE := between two e listed' member (keys.2.1.1.trans keys.2.2.1.symm)
        have eTwo := between e two member listed' (keys.2.2.1.trans keys.2.1.1.symm)
        omega
      · refine ⟨one.windowEnd, one.windowEnd, fun e member within => .inl ?_⟩
        by_contra different
        exact other ⟨e, member, within, different⟩
    · exact ⟨0, 0, fun e member within => absurd ⟨e, member, within⟩ some⟩
  have one := kept.perWindow key first
  have two := kept.perWindow key last
  have either (e : Entry Key) (member : e ∈ log) (counts : inside e) :
      (e.admits key && e.windowEnd = first) ∨ (e.admits key && e.windowEnd = last) := by
    rw [admitted counts]
    simpa using covers e member counts
  have split := countP_le_add either
  omega

/-- What a refused client was told, and that it is admitted once it has waited. -/
structure Answered (s : State Key) (log : List (Entry Key)) : Prop where
  latest : ∀ before e between, log = before ++ e :: between → (∀ later ∈ between, later.key ≠ e.key) →
    ∃ window, s.windows e.key = some window ∧ window.resetAt = e.windowEnd
  told : ∀ e ∈ log, ∀ seconds, e.verdict = .refused seconds → (e.windowEnd : Int) ≤ e.time + 1000 * seconds
  retry : ∀ before refusal between next after seconds,
    log = before ++ refusal :: (between ++ next :: after) → refusal.verdict = .refused seconds →
    next.key = refusal.key → (∀ e ∈ between, e.key ≠ refusal.key) → (refusal.time : Int) + 1000 * seconds ≤ next.time →
    next.verdict = .admitted

/-- Where an element stands in a list that has one more at its end. -/
theorem split_snoc {α : Type*} {log before between : List α} {new e : α} (shape : log ++ [new] = before ++ e :: between) :
    between = [] ∧ e = new ∧ log = before ∨ ∃ rest, between = rest ++ [new] ∧ log = before ++ e :: rest := by
  rcases List.eq_nil_or_concat' between with rfl | ⟨rest, last, rfl⟩
  · obtain ⟨logs, news⟩ := List.append_inj' shape rfl
    exact .inl ⟨rfl, (List.singleton_inj.mp news).symm, logs⟩
  · rw [← List.cons_append, ← List.append_assoc] at shape
    obtain ⟨logs, news⟩ := List.append_inj' shape rfl
    rw [List.singleton_inj.mp news]
    exact .inr ⟨rest, rfl, logs⟩

theorem answered_step (answered : Answered s log) (event : Event Key) :
    Answered (step rule s event) (log ++ (record rule s event).toList) := by
  cases event with
  | tick ms =>
    rw [record, Option.toList_none, List.append_nil]
    exact ⟨answered.latest, answered.told, answered.retry⟩
  | request key =>
    have own : (step rule s (.request key)).windows key = some (counted rule (current s key) s.now) :=
      Function.update_self ..
    have others (other : Key) (foreign : other ≠ key) : (step rule s (.request key)).windows other = s.windows other :=
      Function.update_of_ne foreign ..
    simp only [record, Option.toList_some]
    refine ⟨?_, ?_, ?_⟩
    · intro before e between shape apart
      rcases split_snoc shape with ⟨rfl, rfl, rfl⟩ | ⟨rest, rfl, shape'⟩
      · exact ⟨_, own, rfl⟩
      · have foreign : e.key ≠ key := (apart (entry rule (current s key) key s.now) (by simp)).symm
        rw [others e.key foreign]
        exact answered.latest before e rest shape' fun later member => apart later (by simp [member])
    · intro e member seconds refused
      rcases List.mem_append.mp member with old | new
      · exact answered.told e old seconds refused
      · rw [List.mem_singleton.mp new] at refused ⊢
        simp only [entry, verdict] at refused ⊢
        split at refused
        · cases refused
        · cases refused
          simp only [retryAfterSeconds]
          omega
    · intro before refusal between next after seconds shape refused same apart waited
      rw [← List.cons_append, ← List.append_assoc] at shape
      rcases split_snoc shape with ⟨rfl, rfl, shape'⟩ | ⟨rest, rfl, shape'⟩
      · obtain ⟨window, held, place⟩ := answered.latest before refusal between shape' apart
        have told := answered.told refusal (by rw [shape']; simp) seconds refused
        simp only [entry] at same waited
        rw [← same] at held
        have ended : current s key = none := by
          have lapsed : ¬ s.now < window.resetAt := by omega
          simp [current, held, Option.filter, lapsed]
        simp only [entry, ended, counted, verdict]
        exact if_pos rule.limit_pos
      · exact answered.retry before refusal between next rest seconds (by simpa using shape') refused same apart waited

/-- Windows that follow the rule are sound on every run. -/
theorem sound (rule : Rule) (now : Nat) (events : List (Event Key)) :
    Sound rule.limit rule.windowMs (journal (step rule) (record rule) (.start now) events) := by
  have both := journal_invariant (fun s log => Kept rule s log ∧ Answered s log)
    (fun s log event holds => ⟨kept_step holds.1 event, answered_step holds.2 event⟩)
    ⟨kept_start rule now, ⟨by simp, by simp, by simp⟩⟩ events
  exact ⟨both.1.perWindow, both.1.two_windows, both.2.retry⟩

end Soundness

end AfroPay.FixedWindows
