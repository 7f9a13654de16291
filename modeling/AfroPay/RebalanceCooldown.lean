import AfroPay.RebalanceCaps

/-! The cooldown. The third guard query looks only at the latest row of the corridor or its
opposite. That is enough: had the latest row been created within a day of an opposite one,
its own guards would have refused it. It is not enough for two opposite checks that ask
before either has created its row. -/
namespace AfroPay.Liquidity
open Runs

/-- Of two rebalances in opposite directions the later was created more than a day after
the earlier. -/
def NoRoundTrip (rows : List Row) : Prop :=
  rows.Pairwise fun earlier later => earlier.status ≠ .skipped → later.status ≠ .skipped →
    earlier.fromAsset = later.toAsset → earlier.toAsset = later.fromAsset → earlier.createdAt + dayMs < later.createdAt

/-- Checks of opposite corridors. -/
def Opposite (a b : CorridorConfig) : Prop := a.fromAsset = b.toAsset ∧ a.toAsset = b.fromAsset

/-- A run starts only when the checks of the earlier ones have ended. -/
def NonOverlapping (s : State) : Event → Prop
  | .runHourlyCheck => s.lock = none → ∀ check ∈ s.checks, check.phase = .returned ∨ check.phase = .threw
  | _ => True

/-- The name of a corridor tells its assets. -/
theorem name_injective {a b : CorridorConfig} (same : a.name = b.name) :
    a.fromAsset = b.fromAsset ∧ a.toAsset = b.toAsset := by
  have lists : a.fromAsset.toList ++ ':' :: a.toAsset.toList = b.fromAsset.toList ++ ':' :: b.toAsset.toList := by
    have chars := congrArg String.toList same
    simpa [CorridorConfig.name, String.toList_append] using chars
  obtain ⟨froms, -, tos⟩ :=
    (List.append_cons_inj_of_notMem a.fromAsset_valid.2 a.toAsset_valid.2).mp lists
  exact ⟨String.toList_injective froms, String.toList_injective tos⟩

/-- Every rebalance in the opposite direction is more than a day old. -/
def Cooled (now : Nat) (bookings : List Booking) (corridor : CorridorConfig) : Prop :=
  ∀ b ∈ bookings, b.skipped = false → b.fromAsset = corridor.toAsset → b.toAsset = corridor.fromAsset →
    b.createdAt + dayMs < now

/-- What an open check may rely on once the third query has let it pass. -/
def Clear (now : Nat) (bookings : List Booking) (corridor : CorridorConfig) : Phase → Prop
  | .guarding guard => guard.startedAt ≤ now ∧
      ∀ latest, guard.latest = some latest → latest.any corridor.reverses = false → Cooled now bookings corridor
  | .planning _ _ _ => Cooled now bookings corridor
  | _ => True

/-- Opposite bookings, in the order of the table, are more than a day apart. -/
def Apart (bookings : List Booking) : Prop :=
  bookings.Pairwise fun earlier later => earlier.skipped = false → later.skipped = false →
    earlier.fromAsset = later.toAsset → earlier.toAsset = later.fromAsset → earlier.createdAt + dayMs < later.createdAt

/-- A booking made for a corridor in the past. -/
def Made (now : Nat) (b : Booking) : Prop :=
  b.createdAt ≤ now ∧ ∃ corridor amount skipped, b = bookingOf corridor b.createdAt amount skipped

theorem noRoundTrip_iff (rows : List Row) : NoRoundTrip rows ↔ Apart (rows.map Row.booking) := by
  unfold NoRoundTrip Apart
  rw [List.pairwise_map]
  simp [Row.booking]

theorem cooled_later {now now' : Nat} {bookings : List Booking} {corridor : CorridorConfig} (le : now ≤ now')
    (cooled : Cooled now bookings corridor) : Cooled now' bookings corridor :=
  fun b member booked froms tos => (cooled b member booked froms tos).trans_le le

/-- A booking that is skipped or in no opposite direction leaves a corridor cooled. -/
theorem cooled_append {now : Nat} {bookings : List Booking} {corridor : CorridorConfig} {b : Booking}
    (cooled : Cooled now bookings corridor)
    (other : b.skipped = false → ¬ (b.fromAsset = corridor.toAsset ∧ b.toAsset = corridor.fromAsset)) :
    Cooled now (bookings ++ [b]) corridor := by
  intro b' member booked froms tos
  rcases List.mem_append.mp member with before | added
  · exact cooled b' before booked froms tos
  · rw [List.mem_singleton] at added
    subst added
    exact absurd ⟨froms, tos⟩ (other booked)

theorem clear_of_cooled {now now' : Nat} {bookings bookings' : List Booking} {corridor : CorridorConfig} {phase : Phase}
    (le : now ≤ now') (keeps : Cooled now bookings corridor → Cooled now' bookings' corridor)
    (clear : Clear now bookings corridor phase) : Clear now' bookings' corridor phase := by
  cases phase with
  | guarding guard => exact ⟨clear.1.trans le, fun latest answered passes => keeps (clear.2 latest answered passes)⟩
  | planning sourceAmount destinationAmount reason => exact keeps clear
  | _ => trivial

theorem apart_either {bookings : List Booking} (apart : Apart bookings) {a b : Booking} (memberA : a ∈ bookings)
    (memberB : b ∈ bookings) (differ : a ≠ b) (bookedA : a.skipped = false) (bookedB : b.skipped = false)
    (froms : a.fromAsset = b.toAsset) (tos : a.toAsset = b.fromAsset) :
    a.createdAt + dayMs < b.createdAt ∨ b.createdAt + dayMs < a.createdAt := by
  induction bookings with
  | nil => cases memberA
  | cons first rest ih =>
    obtain ⟨here, apart⟩ := List.pairwise_cons.mp apart
    rcases List.mem_cons.mp memberA with rfl | inA
    · rcases List.mem_cons.mp memberB with rfl | inB
      · exact absurd rfl differ
      · exact .inl (here b inB bookedA bookedB froms tos)
    · rcases List.mem_cons.mp memberB with rfl | inB
      · exact .inr (here a inA bookedB bookedA tos.symm froms.symm)
      · exact ih apart inA inB

/-- The answer of the third query bounds every row it ranges over. -/
theorem isLatest_bounds {rows : List Row} {matching : Row → Bool} {latest : Option Row}
    (answered : isLatest rows matching latest = true) {row : Row} (member : row ∈ rows) (matched : matching row = true) :
    ∃ last ∈ rows, latest = some last ∧ matching last = true ∧ row.createdAt ≤ last.createdAt := by
  cases latest with
  | none =>
    simp only [isLatest, List.all_eq_true, Bool.not_eq_true'] at answered
    rw [answered row member] at matched
    cases matched
  | some last =>
    simp only [isLatest, Bool.and_eq_true, List.contains_iff_mem, List.all_eq_true, Bool.or_eq_true,
      Bool.not_eq_true', decide_eq_true_eq] at answered
    obtain ⟨⟨lastMember, lastMatched⟩, all⟩ := answered
    rcases all row member with unmatched | notLater
    · rw [unmatched] at matched
      cases matched
    · exact ⟨last, lastMember, rfl, lastMatched, notLater⟩

/-- The latest row decides: if it does not block the check, no opposite row is recent. -/
theorem cooled_of_latest {now startedAt : Nat} {rows : List Row} {corridor : CorridorConfig} {latest : Option Row}
    (started : startedAt ≤ now) (made : ∀ b ∈ rows.map Row.booking, Made now b) (apart : Apart (rows.map Row.booking))
    (answered : isLatest rows (corridor.recent startedAt) latest = true)
    (passes : latest.any corridor.reverses = false) : Cooled now (rows.map Row.booking) corridor := by
  intro b member booked froms tos
  obtain ⟨row, rowMember, rfl⟩ := List.mem_map.mp member
  have reverses : corridor.reverses row = true := by simpa [CorridorConfig.reverses] using ⟨froms, tos⟩
  by_cases recent : corridor.recent startedAt row = true
  · obtain ⟨last, lastMember, rfl, lastRecent, notLater⟩ := isLatest_bounds answered rowMember recent
    have forward : corridor.reverses last = false := by simpa using passes
    obtain ⟨named, lastBooked⟩ : last.corridor = corridor.name ∧ last.booking.skipped = false := by
      simp only [CorridorConfig.recent, forward, Bool.or_false, Bool.and_eq_true, decide_eq_true_eq] at lastRecent
      exact ⟨lastRecent.2, by simpa [Row.booking] using lastRecent.1.2⟩
    obtain ⟨past, owner, amount, skipped, same⟩ := made last.booking (List.mem_map_of_mem lastMember)
    -- The latest row is of this corridor, so it and the opposite row are more than a day apart.
    obtain ⟨ownerFrom, ownerTo⟩ : owner.fromAsset = corridor.fromAsset ∧ owner.toAsset = corridor.toAsset :=
      name_injective ((congrArg Booking.corridor same).symm.trans named)
    have lastFrom : last.booking.fromAsset = corridor.fromAsset := (congrArg Booking.fromAsset same).trans ownerFrom
    have lastTo : last.booking.toAsset = corridor.toAsset := (congrArg Booking.toAsset same).trans ownerTo
    have differ : row.booking ≠ last.booking := by
      intro equal
      rw [equal] at froms tos
      have backward : corridor.reverses last = true := by simpa [CorridorConfig.reverses] using ⟨froms, tos⟩
      rw [forward] at backward
      cases backward
    have far := apart_either apart member (List.mem_map_of_mem lastMember) differ booked lastBooked
      (froms.trans lastTo.symm) (tos.trans lastFrom.symm)
    simp only [Row.booking] at far past ⊢
    omega
  · have unmatched : ¬ startedAt ≤ row.createdAt + dayMs := by
      intro within
      apply recent
      have status : row.status ≠ .skipped := by simpa [Row.booking] using booked
      simp [CorridorConfig.recent, within, status, reverses]
    simp only [Row.booking]
    omega

/-- What carries the cooldown through every step. -/
structure CoolsDown (s : State) : Prop where
  live : Live s
  alone : OpenAlone Opposite s
  made : ∀ b ∈ s.bookings, Made s.now b
  clear : ∀ (i : Nat) (check : Check), s.checks[i]? = some check → check.phase.isOpen = true →
    Clear s.now s.bookings check.corridor check.phase
  apart : Apart s.bookings

private theorem made_append {now : Nat} {bookings : List Booking} (made : ∀ b ∈ bookings, Made now b)
    (corridor : CorridorConfig) (amount : Nat) (skipped : Bool) :
    ∀ b ∈ bookings ++ [bookingOf corridor now amount skipped], Made now b := by
  intro b member
  rcases List.mem_append.mp member with before | added
  · exact made b before
  · rw [List.mem_singleton] at added
    subst added
    exact ⟨le_rfl, corridor, amount, skipped, rfl⟩

private theorem apart_append {bookings : List Booking} (apart : Apart bookings) {b : Booking}
    (far : b.skipped = false → ∀ a ∈ bookings, a.skipped = false → a.fromAsset = b.toAsset → a.toAsset = b.fromAsset →
      a.createdAt + dayMs < b.createdAt) : Apart (bookings ++ [b]) := by
  refine List.pairwise_append.mpr ⟨apart, List.pairwise_singleton _ _, fun a before b' member bookedA booked => ?_⟩
  rw [List.mem_singleton] at member
  subst member
  exact far booked a before bookedA

/-- A step that books nothing, or a skipped rebalance only, keeps what the cooldown rests on. -/
private theorem quiet_bookings {now now' : Nat} {bookings bookings' : List Booking} (later : now ≤ now')
    (quiet : bookings' = bookings ∨ ∃ corridor, bookings' = bookings ++ [bookingOf corridor now 0 true])
    (made : ∀ b ∈ bookings, Made now b) (apart : Apart bookings) :
    (∀ b ∈ bookings', Made now' b) ∧ Apart bookings' ∧
      ∀ corridor, Cooled now bookings corridor → Cooled now' bookings' corridor := by
  have aged : ∀ {b}, Made now b → Made now' b := fun made => ⟨made.1.trans later, made.2⟩
  obtain rfl | ⟨skipped, rfl⟩ := quiet
  · exact ⟨fun b member => aged (made b member), apart, fun corridor => cooled_later later⟩
  · refine ⟨fun b member => aged (made_append made skipped 0 true b member), apart_append apart ?_, fun corridor cooled => ?_⟩
    · intro booked
      cases booked
    · exact cooled_later later (cooled_append cooled fun booked => by cases booked)

theorem step_coolsDown (settings : Settings) (s : State) (event : Event) (cools : CoolsDown s)
    (starts : StartsAlone Opposite s event) : CoolsDown (step settings s event) := by
  have live := step_live settings s event cools.live
  have stepped := step_guardStep settings s cools.live event
  have alone := step_openAlone (fun _ _ opposite => ⟨opposite.2.symm, opposite.1.symm⟩) stepped starts cools.alone
  generalize step settings s event = s' at *
  cases stepped with
  | quiet _ _ later checks bookings =>
    obtain ⟨made, apart, cooled⟩ := quiet_bookings later bookings cools.made cools.apart
    refine ⟨live, alone, made, fun i check found isOpen => ?_, apart⟩
    exact clear_of_cooled later (cooled check.corridor) (cools.clear i check (checks i check found isOpen) isOpen)
  | opens i check reserveAmount forecast requestedAmount reason found observing low =>
    refine ⟨live, alone, cools.made, fun j other there isOpen => ?_, cools.apart⟩
    obtain rfl | unchanged := become_cases there
    · refine ⟨le_rfl, fun _ answered => ?_⟩
      cases answered
    · exact cools.clear j other unchanged isOpen
  | reads i check action guard guard' found guarding answers =>
    refine ⟨live, alone, cools.made, fun j other there isOpen => ?_, cools.apart⟩
    obtain rfl | unchanged := become_cases there
    · have clear := cools.clear i check found (by rw [guarding]; rfl)
      rw [guarding] at clear
      cases answers with
      | count => exact clear
      | volume => exact clear
      | latest row latest =>
        refine ⟨clear.1, fun answer answered passes => ?_⟩
        cases answered
        exact cooled_of_latest clear.1 cools.made cools.apart latest passes
    · exact cools.clear j other unchanged isOpen
  | plans i check action guard sourceAmount destinationAmount found guarding concluded =>
    refine ⟨live, alone, cools.made, fun j other there isOpen => ?_, cools.apart⟩
    obtain rfl | unchanged := become_cases there
    · have clear := cools.clear i check found (by rw [guarding]; rfl)
      rw [guarding] at clear
      obtain ⟨_, impossible⟩ | ⟨_, _, latest, _, _, -, -, latestEq, allowed, -⟩ := conclude_cases concluded
      · cases impossible
      · exact clear.2 latest latestEq (checkRebalanceGuards_allowed allowed).2.1
    · exact cools.clear j other unchanged isOpen
  | creates i check action sourceAmount destinationAmount reason _ found planning now checks bookings =>
    have isOpen : check.phase.isOpen = true := by rw [planning]; rfl
    refine ⟨live, alone, ?_, fun j other there otherOpen => ?_, ?_⟩
    · rw [bookings, now]
      exact made_append cools.made check.corridor destinationAmount false
    · -- The other open checks are of no opposite corridor.
      obtain ⟨differs, before⟩ := checks j other there otherOpen
      have elsewhere : ¬ Opposite check.corridor other.corridor := fun opposite =>
        differs (cools.alone i j check other found before isOpen otherOpen opposite)
      rw [bookings, now]
      exact clear_of_cooled le_rfl (fun cooled => cooled_append cooled fun _ => elsewhere)
        (cools.clear j other before otherOpen)
    · have cooled := cools.clear i check found isOpen
      rw [planning] at cooled
      rw [bookings]
      exact apart_append cools.apart fun _ a before booked => cooled a before booked

/-- For every corridor list and every order of steps and failures: as long as no check
starts its guard queries while a check of the opposite corridor is between its own and its
row, opposite rebalances are more than a day apart in every state. -/
theorem no_round_trip_rebalances (settings : Settings) (now : Nat) (events : List Event)
    (alone : Throughout (step settings) (StartsAlone Opposite) (State.start now) events) :
    NoRoundTrip (run (step settings) (State.start now) events).rows := by
  have cools := run_invariant_of CoolsDown (step_coolsDown settings)
    ⟨⟨by simp [State.start], by simp [State.start]⟩, openAlone_start _ _, by simp [State.bookings, State.start],
      by simp [State.start], List.Pairwise.nil⟩ alone
  exact (noRoundTrip_iff _).mpr cools.apart

def ngnUsdc : CorridorConfig := ⟨"NGN", "USDC", ngn_valid, usdc_valid⟩

/-- One run: both directions ask their guards, then both create their row. -/
def oppositeChecks : List Event :=
  [.runHourlyCheck] ++ guardQueries 0 ++ guardQueries 1 ++ [.check 0 (.write none), .check 1 (.write none)]

/-- Money is sent there and back at one and the same time. -/
theorem opposite_checks_round_trip :
    Throughout (step (.configured [usdcNgn, ngnUsdc] 1 rate_one_pos)) NonOverlapping (State.start 0)
        oppositeChecks ∧
      ¬ NoRoundTrip
        (run (step (.configured [usdcNgn, ngnUsdc] 1 rate_one_pos)) (State.start 0) oppositeChecks).rows := by
  refine ⟨?_, by unfold NoRoundTrip; decide +kernel⟩
  refine ⟨fun _ check none => ?_, by simp [guardQueries, Throughout, NonOverlapping]⟩
  cases none

/-- The same run as far as its first rebalance. -/
theorem no_round_trip_first :
    NoRoundTrip (run (step (.configured [usdcNgn, ngnUsdc] 1 rate_one_pos)) (State.start 0)
      ([.runHourlyCheck] ++ guardQueries 0 ++ [.check 0 (.write none)])).rows := by
  refine no_round_trip_rebalances _ 0 _ ⟨trivial, ?_, trivial, trivial, trivial, trivial, trivial, trivial⟩
  intro check other found observing low member opposite
  obtain rfl | rfl := List.mem_pair.mp member
  · rfl
  · rfl

end AfroPay.Liquidity
