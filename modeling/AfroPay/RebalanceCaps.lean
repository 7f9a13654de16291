import AfroPay.LiquiditySteps

/-! The daily caps. A check that finds room in the table still finds it when it creates its
row, as long as no other check of the corridor is between its guard queries and its row.
Runs under the hourly lock do not overlap, but a check that throws gives the lock away. -/
namespace AfroPay.Liquidity
open NumberText Runs

/-- The rebalances of a corridor on one UTC day. -/
def rowsOn (rows : List Row) (corridor : String) (day : Nat) : List Row :=
  rows.filter fun row => row.corridor = corridor && row.createdAt / dayMs = day && row.status ≠ .skipped

/-- On every day, for every corridor: no more rebalances than the one limit, and no more
volume than the other. -/
def WithinCaps (settings : Settings) (rows : List Row) : Prop :=
  ∀ corridor day, ((rowsOn rows corridor day).length : ℚ) ≤ settings.maxRebalances ∧
    (((rowsOn rows corridor day).map Row.amount).sum : ℚ) / 10 ^ 7 ≤ settings.maxDailyAmount

/-- Checks of one corridor. -/
def SameCorridor (a b : CorridorConfig) : Prop := a.name = b.name

/-- The amounts of a corridor's rebalances that were created at certain times. -/
def amountsAt (bookings : List Booking) (corridor : String) (times : Nat → Bool) : List Nat :=
  (bookings.filter fun b => b.corridor = corridor && times b.createdAt && !b.skipped).map Booking.amount

theorem dailyAmounts_eq (rows : List Row) (corridor : String) (since : Nat) :
    dailyAmounts rows corridor since = amountsAt (rows.map Row.booking) corridor (since ≤ ·) := by
  unfold dailyAmounts amountsAt
  rw [List.filter_map, List.map_map]
  congr 2
  funext row
  simp only [Row.counted, ne_eq, decide_not]
  rfl

theorem rowsOn_amounts (rows : List Row) (corridor : String) (day : Nat) :
    (rowsOn rows corridor day).map Row.amount = amountsAt (rows.map Row.booking) corridor (· / dayMs = day) := by
  unfold rowsOn amountsAt
  rw [List.filter_map, List.map_map]
  congr 2
  funext row
  simp only [ne_eq, decide_not]
  rfl

theorem amountsAt_append (bookings : List Booking) (b : Booking) (corridor : String) (times : Nat → Bool) :
    amountsAt (bookings ++ [b]) corridor times = amountsAt bookings corridor times ++
      if b.corridor = corridor ∧ times b.createdAt = true ∧ b.skipped = false then [b.amount] else [] := by
  unfold amountsAt
  rw [List.filter_append, List.map_append]
  congr 1
  by_cases seen : b.corridor = corridor ∧ times b.createdAt = true ∧ b.skipped = false
  · simp [seen]
  · rw [if_neg seen]
    simp only [List.filter_cons, List.filter_nil]
    rw [if_neg (by simpa [and_assoc] using seen)]
    rfl

/-- Queries sent on some day see all of that day and of every later one. -/
theorem amountsAt_sublist {bookings : List Booking} {corridor : String} {sent now : Nat} (le : sent ≤ now) :
    (amountsAt bookings corridor (· / dayMs = now / dayMs)).Sublist
      (amountsAt bookings corridor (startOfDay sent ≤ ·)) := by
  refine List.Sublist.map _ (List.monotone_filter_right _ ?_)
  intro b today
  simp only [Bool.and_eq_true, decide_eq_true_eq] at today ⊢
  refine ⟨⟨today.1.1, ?_⟩, today.2⟩
  have earlier : startOfDay sent ≤ startOfDay now := Nat.mul_le_mul_right _ (Nat.div_le_div_right le)
  have within : startOfDay now ≤ b.createdAt := by
    unfold startOfDay
    rw [← today.1.2]
    exact Nat.div_mul_le_self _ _
  exact earlier.trans within

/-- What an open check may rely on. Answers of the day's queries still describe the table,
and an amount about to be booked still has room. -/
def Room (settings : Settings) (now : Nat) (bookings : List Booking) (corridor : String) : Phase → Prop
  | .guarding guard =>
    guard.startedAt ≤ now ∧
      (∀ count, guard.dailyCount = some count →
        count = (amountsAt bookings corridor (startOfDay guard.startedAt ≤ ·)).length) ∧
      ∀ volume, guard.dailyVolume = some volume →
        volume = (amountsAt bookings corridor (startOfDay guard.startedAt ≤ ·)).sum
  | .planning _ amount _ => ∃ sent ≤ now,
      ((amountsAt bookings corridor (startOfDay sent ≤ ·)).length : ℚ) + 1 ≤ settings.maxRebalances ∧
        (((amountsAt bookings corridor (startOfDay sent ≤ ·)).sum + amount : Nat) : ℚ) / 10 ^ 7 ≤ settings.maxDailyAmount
  | _ => True

/-- Room is only lost by a booking of the same corridor. -/
theorem room_later {settings : Settings} {now now' : Nat} {bookings bookings' : List Booking} {corridor : String}
    {phase : Phase} (le : now ≤ now')
    (same : ∀ times, amountsAt bookings' corridor times = amountsAt bookings corridor times)
    (room : Room settings now bookings corridor phase) : Room settings now' bookings' corridor phase := by
  cases phase with
  | guarding guard =>
    simp only [Room, same] at room ⊢
    exact ⟨room.1.trans le, room.2⟩
  | planning sourceAmount amount reason =>
    simp only [Room, same] at room ⊢
    obtain ⟨sent, before, left⟩ := room
    exact ⟨sent, before.trans le, left⟩
  | _ => trivial

/-- A whole limit leaves room for one more below it. -/
private theorem succ_le_of_lt {count : Nat} {limit : ℚ} (whole : ∃ n : Nat, limit = n) (below : (count : ℚ) < limit) :
    (count : ℚ) + 1 ≤ limit := by
  obtain ⟨n, rfl⟩ := whole
  exact_mod_cast Nat.succ_le_of_lt (by exact_mod_cast below)

/-- Rounding to seven places does not take an amount past a limit of seven places. -/
theorem toFixed_le {volume : Nat} {requested limit : ℚ} (places : ∃ n : Nat, limit = (n : ℚ) / 10 ^ 7)
    (positive : 0 < min requested (limit - (volume : ℚ) / 10 ^ 7)) :
    ((volume + (toFixed 7 (min requested (limit - (volume : ℚ) / 10 ^ 7))).toNat : Nat) : ℚ) / 10 ^ 7 ≤ limit := by
  obtain ⟨n, rfl⟩ := places
  have room : volume < n := by
    have left := lt_of_lt_of_le positive (min_le_right _ _)
    have scaled : (volume : ℚ) < n := by
      have := mul_pos left (by norm_num : (0 : ℚ) < 10 ^ 7)
      rw [sub_mul, div_mul_cancel₀ _ (by norm_num), div_mul_cancel₀ _ (by norm_num)] at this
      linarith
    exact_mod_cast scaled
  have rounded : toFixed 7 (min requested ((n : ℚ) / 10 ^ 7 - (volume : ℚ) / 10 ^ 7)) ≤ (n : ℤ) - volume := by
    rw [toFixed, ← Int.lt_add_one_iff, Int.floor_lt]
    have most : min requested ((n : ℚ) / 10 ^ 7 - (volume : ℚ) / 10 ^ 7) * 10 ^ 7 ≤ (n : ℚ) - volume := by
      calc min requested ((n : ℚ) / 10 ^ 7 - (volume : ℚ) / 10 ^ 7) * 10 ^ 7
          ≤ ((n : ℚ) / 10 ^ 7 - (volume : ℚ) / 10 ^ 7) * 10 ^ 7 :=
            mul_le_mul_of_nonneg_right (min_le_right _ _) (by norm_num)
        _ = (n : ℚ) - volume := by
            rw [sub_mul, div_mul_cancel₀ _ (by norm_num), div_mul_cancel₀ _ (by norm_num)]
    push_cast
    linarith
  have units : volume + (toFixed 7 (min requested ((n : ℚ) / 10 ^ 7 - (volume : ℚ) / 10 ^ 7))).toNat ≤ n := by omega
  have cast : ((volume + (toFixed 7 (min requested ((n : ℚ) / 10 ^ 7 - (volume : ℚ) / 10 ^ 7))).toNat : Nat) : ℚ) ≤ n := by
    exact_mod_cast units
  gcongr

/-- What carries the caps through every step. -/
structure Capped (settings : Settings) (s : State) : Prop where
  live : Live s
  alone : OpenAlone SameCorridor s
  room : ∀ (i : Nat) (check : Check), s.checks[i]? = some check → check.phase.isOpen = true →
    Room settings s.now s.bookings check.corridor.name check.phase
  caps : ∀ corridor day, ((amountsAt s.bookings corridor (· / dayMs = day)).length : ℚ) ≤ settings.maxRebalances ∧
    ((amountsAt s.bookings corridor (· / dayMs = day)).sum : ℚ) / 10 ^ 7 ≤ settings.maxDailyAmount

/-- A guard that lets an amount through has found room for it. -/
theorem room_planning {settings : Settings} (whole : ∃ n : Nat, settings.maxRebalances = n)
    (places : ∃ n : Nat, settings.maxDailyAmount = (n : ℚ) / 10 ^ 7) {now : Nat} {bookings : List Booking}
    {corridor : CorridorConfig} {guard : Guard} {sourceAmount destinationAmount : Nat}
    (room : Room settings now bookings corridor.name (.guarding guard))
    (concluded : guard.conclude settings corridor = some (.planning sourceAmount destinationAmount guard.reason)) :
    Room settings now bookings corridor.name (.planning sourceAmount destinationAmount guard.reason) := by
  obtain ⟨_, impossible⟩ | ⟨count, volume, latest, source, destination, countEq, volumeEq, -, allowed, phases⟩ :=
    conclude_cases concluded
  · cases impossible
  · cases phases
    obtain ⟨before, counted, summed⟩ := room
    obtain ⟨below, -, positive, -, rfl⟩ := checkRebalanceGuards_allowed allowed
    refine ⟨guard.startedAt, before, ?_, ?_⟩
    · rw [← counted count countEq]
      exact succ_le_of_lt whole below
    · rw [← summed volume volumeEq]
      exact toFixed_le places positive

theorem room_reads {settings : Settings} {now : Nat} {rows : List Row} {corridor : CorridorConfig} {guard guard' : Guard}
    (answers : Answers rows corridor guard guard')
    (room : Room settings now (rows.map Row.booking) corridor.name (.guarding guard)) :
    Room settings now (rows.map Row.booking) corridor.name (.guarding guard') := by
  obtain ⟨before, counted, summed⟩ := room
  cases answers with
  | count =>
    refine ⟨before, fun count answered => ?_, summed⟩
    rw [← dailyAmounts_eq]
    exact (Option.some.inj answered).symm
  | volume =>
    refine ⟨before, counted, fun volume answered => ?_⟩
    rw [← dailyAmounts_eq]
    exact (Option.some.inj answered).symm
  | latest row => exact ⟨before, counted, summed⟩

/-- An amount that has room can be booked today. -/
theorem caps_booked {settings : Settings} {now sourceAmount amount : Nat} {bookings : List Booking} {corridor : String}
    {reason : Reason} (room : Room settings now bookings corridor (.planning sourceAmount amount reason)) :
    ((amountsAt bookings corridor (· / dayMs = now / dayMs) ++ [amount]).length : ℚ) ≤ settings.maxRebalances ∧
      ((amountsAt bookings corridor (· / dayMs = now / dayMs) ++ [amount]).sum : ℚ) / 10 ^ 7 ≤
        settings.maxDailyAmount := by
  obtain ⟨sent, before, count, volume⟩ := room
  have seen : (amountsAt bookings corridor (· / dayMs = now / dayMs)).Sublist
      (amountsAt bookings corridor (startOfDay sent ≤ ·)) := amountsAt_sublist before
  have fewer : ((amountsAt bookings corridor (· / dayMs = now / dayMs)).length : ℚ) ≤
      (amountsAt bookings corridor (startOfDay sent ≤ ·)).length := by
    exact_mod_cast seen.length_le
  have less : (((amountsAt bookings corridor (· / dayMs = now / dayMs)).sum + amount : Nat) : ℚ) ≤
      ((amountsAt bookings corridor (startOfDay sent ≤ ·)).sum + amount : Nat) := by
    exact_mod_cast Nat.add_le_add_right (seen.sum_le_sum (by simp)) _
  refine ⟨?_, ?_⟩
  · rw [List.length_append, List.length_singleton]
    push_cast
    linarith
  · rw [List.sum_append, List.sum_singleton]
    calc _ ≤ (((amountsAt bookings corridor (startOfDay sent ≤ ·)).sum + amount : Nat) : ℚ) / 10 ^ 7 :=
          div_le_div_of_nonneg_right less (by norm_num)
      _ ≤ settings.maxDailyAmount := volume

private theorem amountsAt_skipped (bookings : List Booking) (corridor : CorridorConfig) (now : Nat) (name : String)
    (times : Nat → Bool) :
    amountsAt (bookings ++ [bookingOf corridor now 0 true]) name times = amountsAt bookings name times := by
  simp [amountsAt_append, bookingOf]

theorem step_capped {settings : Settings} (whole : ∃ n : Nat, settings.maxRebalances = n)
    (places : ∃ n : Nat, settings.maxDailyAmount = (n : ℚ) / 10 ^ 7) (s : State) (event : Event)
    (capped : Capped settings s) (starts : StartsAlone SameCorridor s event) : Capped settings (step settings s event) := by
  have live := step_live settings s event capped.live
  have stepped := step_guardStep settings s capped.live event
  have alone := step_openAlone (fun _ _ same => same.symm) stepped starts capped.alone
  generalize step settings s event = s' at *
  cases stepped with
  | quiet _ _ later checks bookings =>
    have same : ∀ name times, amountsAt s'.bookings name times = amountsAt s.bookings name times := by
      intro name times
      obtain unchanged | ⟨corridor, added⟩ := bookings
      · rw [unchanged]
      · rw [added, amountsAt_skipped]
    refine ⟨live, alone, fun i check found isOpen => ?_, fun corridor day => ?_⟩
    · exact room_later later (same _) (capped.room i check (checks i check found isOpen) isOpen)
    · rw [same]
      exact capped.caps corridor day
  | opens i check reserveAmount forecast requestedAmount reason found observing low =>
    refine ⟨live, alone, fun j other there isOpen => ?_, capped.caps⟩
    obtain rfl | unchanged := become_cases there
    · refine ⟨le_rfl, fun _ answered => ?_, fun _ answered => ?_⟩ <;> cases answered
    · exact capped.room j other unchanged isOpen
  | reads i check action guard guard' found guarding answers =>
    refine ⟨live, alone, fun j other there isOpen => ?_, capped.caps⟩
    obtain rfl | unchanged := become_cases there
    · have room := capped.room i check found (by rw [guarding]; rfl)
      rw [guarding] at room
      exact room_reads answers room
    · exact capped.room j other unchanged isOpen
  | plans i check action guard sourceAmount destinationAmount found guarding concluded =>
    refine ⟨live, alone, fun j other there isOpen => ?_, capped.caps⟩
    obtain rfl | unchanged := become_cases there
    · have room := capped.room i check found (by rw [guarding]; rfl)
      rw [guarding] at room
      exact room_planning whole places room concluded
    · exact capped.room j other unchanged isOpen
  | creates i check action sourceAmount destinationAmount reason _ found planning now checks bookings =>
    have isOpen : check.phase.isOpen = true := by rw [planning]; rfl
    refine ⟨live, alone, fun j other there otherOpen => ?_, fun corridor day => ?_⟩
    · -- The other open checks are of other corridors.
      obtain ⟨differs, before⟩ := checks j other there otherOpen
      have elsewhere : check.corridor.name ≠ other.corridor.name := fun same =>
        differs (capped.alone i j check other found before isOpen otherOpen same)
      refine room_later now.ge (fun times => ?_) (capped.room j other before otherOpen)
      rw [bookings, amountsAt_append, if_neg (fun seen => elsewhere seen.1), List.append_nil]
    · rw [bookings, amountsAt_append]
      split
      · rename_i here
        obtain ⟨rfl, today, -⟩ := here
        have room := capped.room i check found isOpen
        rw [planning] at room
        obtain rfl : s.now / dayMs = day := of_decide_eq_true today
        exact caps_booked room
      · rw [List.append_nil]
        exact capped.caps corridor day

theorem withinCaps_of_capped {settings : Settings} {s : State} (capped : Capped settings s) :
    WithinCaps settings s.rows := by
  intro corridor day
  have caps := capped.caps corridor day
  rw [State.bookings, ← rowsOn_amounts, List.length_map] at caps
  exact caps

/-- For every corridor list, any number of instances, and every order of steps and failures:
as long as no check starts its guard queries while another check of its corridor is between
its own and its row, the caps hold in every state. The count limit has to be a whole number
and the volume limit one of at most seven places. -/
theorem rebalances_within_caps (settings : Settings) (now : Nat) (events : List Event)
    (whole : ∃ n : Nat, settings.maxRebalances = n) (places : ∃ n : Nat, settings.maxDailyAmount = (n : ℚ) / 10 ^ 7)
    (alone : Throughout (step settings) (StartsAlone SameCorridor) (State.start now) events) :
    WithinCaps settings (run (step settings) (State.start now) events).rows := by
  refine withinCaps_of_capped (run_invariant_of (Capped settings) (step_capped whole places) ?_ alone)
  refine ⟨⟨by simp [State.start], by simp [State.start]⟩, openAlone_start _ _, by simp [State.start], fun corridor day => ?_⟩
  have rebalances := settings.maxRebalances_pos.le
  have amount := settings.maxDailyAmount_pos.le
  simpa [State.bookings, State.start, amountsAt] using ⟨rebalances, amount⟩

/-- A check reads its reserve as empty against a forecast of a million and asks its guards. -/
def guardQueries (i : Nat) : List Event :=
  [.check i (.observe 0 1000000), .check i .readCount, .check i .readVolume, .check i (.readLatest none),
    .check i .conclude]

/-- The check of one corridor loses its connection while the other has asked its guards. The
lock goes back, the next run asks them again, and both create their row. -/
def overlappingRuns : List Event :=
  [.runHourlyCheck] ++ guardQueries 0 ++ [.check 1 (.fail "connection lost"), .releaseLock, .runHourlyCheck] ++
    guardQueries 2 ++ [.check 2 (.write none), .check 0 (.write none)]

/-- With the defaults of the service, twice the daily amount is planned on one day. -/
theorem overlapping_runs_exceed_cap :
    [usdcNgn, usdcGhs].Nodup ∧
      ¬ WithinCaps (.configured [usdcNgn, usdcGhs] 1 rate_one_pos)
        (run (step (.configured [usdcNgn, usdcGhs] 1 rate_one_pos)) (State.start 0) overlappingRuns).rows := by
  refine ⟨by decide +kernel, fun within => ?_⟩
  have volume := (within "USDC:NGN" 0).2
  revert volume
  decide +kernel

/-- A single run that plans the whole daily amount. -/
theorem rebalances_within_caps_single :
    WithinCaps (.configured [usdcNgn] 1 rate_one_pos)
      (run (step (.configured [usdcNgn] 1 rate_one_pos)) (State.start 0)
        ([.runHourlyCheck] ++ guardQueries 0 ++ [.check 0 (.write none)])).rows := by
  refine rebalances_within_caps _ 0 _ ⟨3, by decide +kernel⟩ ⟨1000000000000, by decide +kernel⟩ ?_
  refine ⟨trivial, ?_, trivial, trivial, trivial, trivial, trivial, trivial⟩
  intro check other found observing low member same
  obtain rfl := List.mem_singleton.mp member
  rfl

end AfroPay.Liquidity
