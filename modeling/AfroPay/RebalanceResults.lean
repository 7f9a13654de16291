import AfroPay.RebalanceCaps

/-! The life of a rebalance. The dispatcher marks its row before it pushes the job, and a
report looks at the row before it writes its result. Both write without looking again: a
result is recorded once as long as every such write finds the row still executing. -/
namespace AfroPay.Liquidity
open Runs

/-- From one step to the next a row stays as it is, or moves on towards its result. -/
def Follows (before after : Row) : Prop :=
  after = before ∨ before.status = .planned ∧ after.status = .executing ∨
    before.status = .executing ∧ (after.status = .executed ∨ after.status = .failed)

/-- A success report of the rebalance carries the hash of its row. -/
def Carried (reports : List Report) (id : Nat) (row : Row) : Prop :=
  ∃ (i : Nat) (report : Report) (hash : String), reports[i]? = some report ∧ report.rebalanceId = id ∧
    report.result.success = true ∧ report.result.txHash = some hash ∧ row.txHash = some hash

/-- A report that has not looked at its row yet, and the row it will find. -/
def Finds (s : State) (event : Event) (i : Nat) (report : Report) (row : Row) : Prop :=
  event = .report i .findUnique ∧ s.reports[i]? = some report ∧ report.phase = .finding ∧
    s.rows[report.rebalanceId]? = some row

/-- The state after a report has ended without a write. -/
def State.answered (s : State) (i : Nat) (report : Report) (answer : Answer) : State :=
  { s with reports := s.reports.set i { report with phase := .ended answer } }

/-- What one step does to the results of rebalances. -/
structure RecordsOnce (settings : Settings) (s : State) (event : Event) : Prop where
  rows : ∀ (id : Nat) (row : Row), s.rows[id]? = some row →
    ∃ row', (step settings s event).rows[id]? = some row' ∧ Follows row row'
  fresh : ∀ (id : Nat) (row : Row), s.rows[id]? = none → (step settings s event).rows[id]? = some row →
    row.status = .planned ∨ row.status = .skipped
  carried : ∀ (id : Nat) (row : Row), (step settings s event).rows[id]? = some row → row.status = .executed →
    Carried (step settings s event).reports id row
  /-- A success report with the recorded hash is answered with the row and changes nothing. -/
  repeated : ∀ i report row, Finds s event i report row → row.status = .executed → report.result.success = true →
    report.result.txHash = row.txHash → step settings s event = s.answered i report (.returned row)
  /-- Any other report on an executed row, and every report on a failed one, is refused. -/
  refused : ∀ i report row, Finds s event i report row →
    (row.status = .executed ∧ ¬ (report.result.success = true ∧ report.result.txHash = row.txHash) ∨
      row.status = .failed) →
    step settings s event = s.answered i report
      (.conflictException ("Cannot record a result for a rebalance in state " ++ row.status.text))

/-- The row that an event writes a result, or the failure of the dispatch, to. -/
def State.writes (s : State) : Event → Option Nat
  | .check i (.write _) => s.checks[i]?.bind fun check =>
    match check.phase with
    | .catching id _ => some id
    | _ => none
  | .report i (.update _) => s.reports[i]?.bind fun report =>
    if report.phase = .updating then some report.rebalanceId else none
  | _ => none

/-- A failure is reported under the hash of an executed row. -/
def State.misreports (s : State) : Event → Bool
  | .report i .findUnique => s.reports[i]?.any fun report =>
    report.phase = .finding && !report.result.success && s.rows[report.rebalanceId]?.any fun row =>
      row.status = .executed && sameHash row.txHash report.result.txHash
  | _ => false

/-- A result, or the failure of the dispatch, is written only while the row is executing, and
no failure is reported under the hash of an executed row. -/
def FindsExecuting (s : State) (event : Event) : Prop :=
  (∀ id ∈ s.writes event, ∀ row ∈ s.rows[id]?, row.status = .executing) ∧ s.misreports event = false

instance (s : State) (event : Event) : Decidable (FindsExecuting s event) := inferInstanceAs (Decidable (_ ∧ _))

theorem getElem?_updateStatus (rows : List Row) (id k : Nat) (update : Row → Row) :
    (updateStatus rows id update)[k]? = if id = k then rows[k]?.map update else rows[k]? := by
  rw [updateStatus, List.getElem?_modify]
  split <;> simp

/-- What carries the results through every step. -/
structure Recorded (s : State) : Prop where
  live : Live s
  planned : ∀ (i : Nat) (check : Check) (id sourceAmount destinationAmount : Nat), s.checks[i]? = some check →
    check.phase = .planned id sourceAmount destinationAmount → ∃ row, s.rows[id]? = some row ∧ row.status = .planned
  unique : ∀ (i j : Nat) (check other : Check) (id a b a' b' : Nat), s.checks[i]? = some check →
    s.checks[j]? = some other → check.phase = .planned id a b → other.phase = .planned id a' b' → i = j
  hashed : ∀ (i : Nat) (report : Report), s.reports[i]? = some report → report.phase = .updating →
    report.result.success = true → falsy report.result.txHash = false
  carried : ∀ (id : Nat) (row : Row), s.rows[id]? = some row → row.status = .executed → Carried s.reports id row

/-- Everything a step can do to the table, under the condition. -/
inductive TableStep (s : State) : Event → List Row → Prop where
  | same (event : Event) : TableStep s event s.rows
  | adds (event : Event) (row : Row) (status : row.status = .planned ∨ row.status = .skipped) :
      TableStep s event (s.rows ++ [row])
  | marks (i : Nat) (check : Check) (error : Option String) (id sourceAmount destinationAmount : Nat) (row : Row)
      (found : s.checks[i]? = some check) (planned : check.phase = .planned id sourceAmount destinationAmount)
      (booked : s.rows[id]? = some row) (status : row.status = .planned) :
      TableStep s (.check i (.write error)) (updateStatus s.rows id markExecuting)
  | fails (i id : Nat) (message : String) (error : Option String) (row : Row)
      (booked : s.rows[id]? = some row) (status : row.status = .executing) :
      TableStep s (.check i (.write error)) (updateStatus s.rows id (markFailed (some message)))
  | records (i : Nat) (report : Report) (answered : Bool) (row : Row) (found : s.reports[i]? = some report)
      (updating : report.phase = .updating) (booked : s.rows[report.rebalanceId]? = some row)
      (status : row.status = .executing) :
      TableStep s (.report i (.update answered)) (updateStatus s.rows report.rebalanceId (recordResult report.result s.now))

theorem step_tableStep (settings : Settings) (s : State) (recorded : Recorded s) (event : Event)
    (finds : FindsExecuting s event) : TableStep s event (step settings s event).rows := by
  cases event with
  | tick ms => exact .same _
  | runHourlyCheck =>
    simp only [step]
    split <;> exact .same _
  | releaseLock =>
    simp only [step]
    split
    · split <;> exact .same _
    · exact .same _
  | check i action =>
    obtain idle | ⟨check, effect, found, moves, stepped⟩ := step_check settings s i action
    · rw [idle]
      exact .same _
    · rw [stepped]
      have held := recorded.live.checks i check
      have planned := recorded.planned i check
      obtain ⟨run, corridor, phase⟩ := check
      cases moves with
      | skips => exact .adds _ _ (.inr rfl)
      | creates => exact .adds _ _ (.inl rfl)
      | marks id sourceAmount destinationAmount error next marked =>
        obtain ⟨row, booked, status⟩ := planned id sourceAmount destinationAmount found rfl
        exact .marks i _ error id sourceAmount destinationAmount row found rfl booked status
      | fails id message error next failed =>
        obtain ⟨row, booked, -⟩ := held id found rfl
        refine .fails i id message error row booked (finds.1 id ?_ row booked)
        simp [State.writes, found]
      | _ => exact .same _
  | recordExecutionResult rebalanceId result => exact .same _
  | report i action =>
    obtain idle | ⟨report, next, rows, found, moves, stepped⟩ := step_report settings s i action
    · rw [idle]
      exact .same _
    · rw [stepped]
      cases moves with
      | finds => exact .same _
      | records answered next updating row booked settled =>
        refine .records i report answered row found updating booked (finds.1 report.rebalanceId ?_ row booked)
        simp [State.writes, found, updating]
      | ends => exact .same _

private theorem follows_update {rows : List Row} {id : Nat} {row : Row} {update : Row → Row}
    (booked : rows[id]? = some row) (follows : Follows row (update row)) (k : Nat) (before : Row)
    (there : rows[k]? = some before) : ∃ after, (updateStatus rows id update)[k]? = some after ∧ Follows before after := by
  rw [getElem?_updateStatus]
  split
  · rename_i same
    subst same
    rw [booked] at there
    cases there
    exact ⟨update row, by rw [booked]; rfl, follows⟩
  · exact ⟨before, there, .inl rfl⟩

theorem tableStep_follows {s : State} {event : Event} {rows : List Row} (stepped : TableStep s event rows) (id : Nat)
    (row : Row) (there : s.rows[id]? = some row) : ∃ row', rows[id]? = some row' ∧ Follows row row' := by
  cases stepped with
  | same => exact ⟨row, there, .inl rfl⟩
  | adds _ added status =>
    exact ⟨row, by rw [List.getElem?_append_left (List.getElem?_eq_some_iff.mp there).1, there], .inl rfl⟩
  | marks i check error id' _ _ row' found planned booked status =>
    exact follows_update booked (.inr (.inl ⟨status, rfl⟩)) id row there
  | fails i id' message error row' booked status =>
    exact follows_update booked (.inr (.inr ⟨status, .inr rfl⟩)) id row there
  | records i report answered row' found updating booked status =>
    refine follows_update booked (.inr (.inr ⟨status, ?_⟩)) id row there
    unfold recordResult
    split
    · exact .inl rfl
    · exact .inr rfl

private theorem getElem?_updateStatus_none {rows : List Row} {id k : Nat} {update : Row → Row} (absent : rows[k]? = none) :
    (updateStatus rows id update)[k]? = none := by
  rw [getElem?_updateStatus, absent]
  split <;> rfl

theorem tableStep_fresh {s : State} {event : Event} {rows : List Row} (stepped : TableStep s event rows) (id : Nat)
    (row : Row) (absent : s.rows[id]? = none) (there : rows[id]? = some row) :
    row.status = .planned ∨ row.status = .skipped := by
  cases stepped with
  | same =>
    rw [absent] at there
    cases there
  | adds _ added status =>
    rw [List.getElem?_append_right (List.getElem?_eq_none_iff.mp absent)] at there
    rw [List.mem_singleton.mp (List.mem_of_getElem? there)]
    exact status
  | marks | fails | records =>
    rw [getElem?_updateStatus_none absent] at there
    cases there

/-- Only its own dispatcher takes a planned row on. -/
theorem tableStep_planned {s : State} {event : Event} {rows : List Row} (stepped : TableStep s event rows) {id : Nat}
    {row : Row} (there : s.rows[id]? = some row) (planned : row.status = .planned) :
    (∃ row', rows[id]? = some row' ∧ row'.status = .planned) ∨
      ∃ i check error a b, event = .check i (.write error) ∧ s.checks[i]? = some check ∧
        check.phase = .planned id a b := by
  have untouched (id' : Nat) (update : Row → Row) (differs : id' ≠ id) :
      ∃ row', (updateStatus s.rows id' update)[id]? = some row' ∧ row'.status = .planned :=
    ⟨row, by rw [getElem?_updateStatus, if_neg differs, there], planned⟩
  cases stepped with
  | same => exact .inl ⟨row, there, planned⟩
  | adds _ added status =>
    refine .inl ⟨row, ?_, planned⟩
    rw [List.getElem?_append_left (List.getElem?_eq_some_iff.mp there).1, there]
  | marks i check error id' a b row' found phase booked status =>
    by_cases same : id' = id
    · subst same
      exact .inr ⟨i, check, error, a, b, rfl, found, phase⟩
    · exact .inl (untouched id' _ same)
  | fails i id' message error row' booked status =>
    refine .inl (untouched id' _ fun same => ?_)
    subst same
    rw [there] at booked
    cases booked
    rw [planned] at status
    cases status
  | records i report answered row' found updating booked status =>
    refine .inl (untouched report.rebalanceId _ fun same => ?_)
    rw [same, there] at booked
    cases booked
    rw [planned] at status
    cases status

/-- A report keeps its rebalance and its result. -/
theorem step_reports (settings : Settings) (s : State) (event : Event) (i : Nat) (report : Report)
    (there : s.reports[i]? = some report) :
    ∃ report', (step settings s event).reports[i]? = some report' ∧ report'.rebalanceId = report.rebalanceId ∧
      report'.result = report.result := by
  have same : ∃ report', s.reports[i]? = some report' ∧ report'.rebalanceId = report.rebalanceId ∧
      report'.result = report.result := ⟨report, there, rfl, rfl⟩
  cases event with
  | tick ms => exact same
  | runHourlyCheck =>
    simp only [step]
    split <;> exact same
  | releaseLock =>
    simp only [step]
    split
    · split <;> exact same
    · exact same
  | check j action =>
    obtain idle | ⟨check, effect, found, moves, stepped⟩ := step_check settings s j action
    · rw [idle]
      exact same
    · rw [stepped]
      exact same
  | recordExecutionResult rebalanceId result =>
    refine ⟨report, ?_, rfl, rfl⟩
    simp only [step]
    rw [List.getElem?_append_left (List.getElem?_eq_some_iff.mp there).1, there]
  | report j action =>
    obtain idle | ⟨report', next, rows, found, moves, stepped⟩ := step_report settings s j action
    · rw [idle]
      exact same
    · rw [stepped]
      simp only [List.getElem?_set]
      split
      · rename_i here
        subst here
        rw [there] at found
        cases found
        exact ⟨_, if_pos (List.getElem?_eq_some_iff.mp there).1, rfl, rfl⟩
      · exact same

theorem carried_later {settings : Settings} {s : State} {event : Event} {id : Nat} {row : Row}
    (carried : Carried s.reports id row) : Carried (step settings s event).reports id row := by
  obtain ⟨i, report, hash, there, owner, success, reported, recorded⟩ := carried
  obtain ⟨report', there', sameOwner, sameResult⟩ := step_reports settings s event i report there
  exact ⟨i, report', hash, there', sameOwner.trans owner, by rw [sameResult]; exact success,
    by rw [sameResult]; exact reported, recorded⟩

private theorem hash_of_not_falsy {value : Option String} (present : falsy value = false) : ∃ hash, value = some hash := by
  cases value with
  | none => cases present
  | some hash => exact ⟨hash, rfl⟩

theorem step_carried (settings : Settings) (s : State) (recorded : Recorded s) (event : Event)
    (stepped : TableStep s event (step settings s event).rows) (id : Nat) (row : Row)
    (there : (step settings s event).rows[id]? = some row) (executed : row.status = .executed) :
    Carried (step settings s event).reports id row := by
  have before (there : s.rows[id]? = some row) : Carried (step settings s event).reports id row :=
    carried_later (recorded.carried id row there executed)
  have unmarked {rows : List Row} {id' : Nat} {update : Row → Row} (there : (updateStatus rows id' update)[id]? = some row)
      (marks : ∀ row', rows[id]? = some row' → id' = id → (update row').status ≠ .executed) : rows[id]? = some row := by
    rw [getElem?_updateStatus] at there
    split at there
    · obtain ⟨row', found, rfl⟩ := Option.map_eq_some_iff.mp there
      exact absurd executed (marks row' found ‹_›)
    · exact there
  generalize rowsEq : (step settings s event).rows = rows at there stepped
  cases stepped with
  | same => exact before there
  | adds _ added status =>
    rw [List.getElem?_append] at there
    split at there
    · exact before there
    · rw [List.mem_singleton.mp (List.mem_of_getElem? there)] at executed
      rcases status with planned | skipped
      · rw [planned] at executed
        cases executed
      · rw [skipped] at executed
        cases executed
  | marks i check error id' a b row' found planned booked status =>
    exact before (unmarked there fun _ _ _ => by simp [markExecuting])
  | fails i id' message error row' booked status =>
    exact before (unmarked there fun _ _ _ => by simp [markFailed])
  | records i report answered row' found updating booked status =>
    by_cases success : report.result.success = true
    · rw [getElem?_updateStatus] at there
      split at there
      · rename_i same
        rw [← same, booked] at there
        cases there
        obtain ⟨hash, reported⟩ := hash_of_not_falsy (recorded.hashed i report found updating success)
        obtain ⟨report', there', sameOwner, sameResult⟩ :=
          step_reports settings s (.report i (.update answered)) i report found
        refine ⟨i, report', hash, there', sameOwner.trans same, by rw [sameResult]; exact success,
          by rw [sameResult]; exact reported, ?_⟩
        simp [recordResult, success, markExecuted, reported]
      · exact before there
    · exact before (unmarked there fun _ _ _ => by simp [recordResult, success, markFailed])

/-- A check that is about to mark its row either was before, or has just created it. -/
theorem step_planning (settings : Settings) (s : State) (event : Event) (j : Nat) (check : Check) (id a b : Nat)
    (there : (step settings s event).checks[j]? = some check) (planned : check.phase = .planned id a b) :
    s.checks[j]? = some check ∨
      id = s.rows.length ∧ (∃ row, (step settings s event).rows[id]? = some row ∧ row.status = .planned) ∧
        ∃ action, event = .check j action := by
  cases event with
  | tick ms => exact .inl there
  | runHourlyCheck =>
    simp only [step] at there
    split at there
    · exact .inl there
    · rw [List.getElem?_append] at there
      split at there
      · exact .inl there
      · obtain ⟨corridor, -, rfl⟩ := List.mem_map.mp (List.mem_of_getElem? there)
        cases planned
  | releaseLock =>
    simp only [step] at there
    split at there
    · split at there <;> exact .inl there
    · exact .inl there
  | check i action =>
    obtain idle | ⟨mover, effect, found, moves, stepped⟩ := step_check settings s i action
    · rw [idle] at there
      exact .inl there
    · rw [stepped] at there ⊢
      simp only [List.getElem?_set] at there
      split at there
      · rename_i same
        subst same
        split at there
        · cases there
          -- Of all moves only the creation of the row leads here.
          obtain ⟨run, corridor, phase⟩ := mover
          cases moves with
          | creates sourceAmount destinationAmount reason error next created =>
            rcases created with rfl | rfl
            · cases planned
              exact .inr ⟨rfl, ⟨_, List.getElem?_concat_length, rfl⟩, _, rfl⟩
            · cases planned
          | opens | counts | sums | looks | plans => cases planned
          | skips _ _ next closed => rcases closed with rfl | rfl <;> cases planned
          | marks _ _ _ _ next marked => rcases marked with rfl | ⟨_, rfl⟩ <;> cases planned
          | pushes _ _ _ _ next pushed => rcases pushed with rfl | ⟨_, rfl⟩ <;> cases planned
          | fails _ _ _ next failed => rcases failed with rfl | rfl <;> cases planned
          | rests _ next _ closed keeps =>
            rcases keeps with none | ⟨-, _, _, rfl⟩
            · rw [show next = .planned id a b from planned] at none
              cases none
            · cases planned
        · cases there
      · exact .inl there
  | recordExecutionResult rebalanceId result => exact .inl there
  | report i action =>
    obtain idle | ⟨report, next, rows, found, moves, stepped⟩ := step_report settings s i action
    · rw [idle] at there
      exact .inl there
    · rw [stepped] at there
      exact .inl there

/-- The write of a dispatcher takes it past the marking of its row. -/
theorem write_planned {settings : Settings} {s : State} {i : Nat} {check : Check} {error : Option String} {id a b : Nat}
    (found : s.checks[i]? = some check) (planned : check.phase = .planned id a b) :
    (step settings s (.check i (.write error))).checks[i]? ≠ some check := by
  obtain ⟨run, corridor, phase⟩ := check
  subst planned
  have bound := (List.getElem?_eq_some_iff.mp found).1
  simp only [step, found, checkCorridor, List.getElem?_set_self bound]
  cases error <;> simp [Phase.after, Phase.onError]

/-- A report that is about to write either was before, or has just passed the checks. -/
theorem step_updating (settings : Settings) (s : State) (event : Event) (i : Nat) (report : Report)
    (there : (step settings s event).reports[i]? = some report) (updating : report.phase = .updating) :
    s.reports[i]? = some report ∨ (report.result.success = true → falsy report.result.txHash = false) := by
  cases event with
  | tick ms => exact .inl there
  | runHourlyCheck =>
    simp only [step] at there
    split at there <;> exact .inl there
  | releaseLock =>
    simp only [step] at there
    split at there
    · split at there <;> exact .inl there
    · exact .inl there
  | check j action =>
    obtain idle | ⟨check, effect, found, moves, stepped⟩ := step_check settings s j action
    · rw [idle] at there
      exact .inl there
    · rw [stepped] at there
      exact .inl there
  | recordExecutionResult rebalanceId result =>
    simp only [step, List.getElem?_append] at there
    split at there
    · exact .inl there
    · rw [List.mem_singleton.mp (List.mem_of_getElem? there)] at updating
      cases updating
  | report j action =>
    obtain idle | ⟨mover, next, rows, found, moves, stepped⟩ := step_report settings s j action
    · rw [idle] at there
      exact .inl there
    · rw [stepped] at there
      simp only [List.getElem?_set] at there
      split at there
      · split at there
        · cases there
          cases moves with
          | finds =>
            obtain ⟨-, -, -, hash⟩ := judge_updating updating
            exact .inr hash
          | records _ next _ _ _ settled => exact absurd updating settled.2
          | ends => cases updating
        · cases there
      · exact .inl there

theorem step_recorded (settings : Settings) (s : State) (event : Event) (recorded : Recorded s)
    (finds : FindsExecuting s event) : Recorded (step settings s event) := by
  have stepped := step_tableStep settings s recorded event finds
  refine ⟨step_live settings s event recorded.live, ?_, ?_, ?_,
    step_carried settings s recorded event stepped⟩
  · intro j check id a b there phase
    obtain before | ⟨-, created, -⟩ := step_planning settings s event j check id a b there phase
    · obtain ⟨row, found, status⟩ := recorded.planned j check id a b before phase
      obtain still | ⟨i, mover, error, a', b', rfl, mine, phase'⟩ := tableStep_planned stepped found status
      · exact still
      · obtain rfl := recorded.unique i j mover check id a' b' a b mine before phase' phase
        exact absurd there (write_planned before phase)
    · exact created
  · intro i j check other id a b a' b' here there phase phase'
    obtain before | ⟨fresh, -, action, acted⟩ := step_planning settings s event i check id a b here phase
    · obtain before' | ⟨fresh, -⟩ := step_planning settings s event j other id a' b' there phase'
      · exact recorded.unique i j check other id a b a' b' before before' phase phase'
      · obtain ⟨row, found, -⟩ := recorded.planned i check id a b before phase
        have bound := (List.getElem?_eq_some_iff.mp found).1
        omega
    · obtain before' | ⟨-, -, action', acted'⟩ := step_planning settings s event j other id a' b' there phase'
      · obtain ⟨row, found, -⟩ := recorded.planned j other id a' b' before' phase'
        have bound := (List.getElem?_eq_some_iff.mp found).1
        omega
      · rw [acted] at acted'
        cases acted'
        rfl
  · intro i report there updating success
    obtain before | hash := step_updating settings s event i report there updating
    · exact recorded.hashed i report before updating success
    · exact hash success

private theorem sameHash_eq {current reported : Option String} (same : sameHash current reported = true) :
    current = reported := by
  unfold sameHash at same
  split at same
  · exact congrArg some (of_decide_eq_true same)
  · cases same

private theorem step_finds {settings : Settings} {s : State} {event : Event} {i : Nat} {report : Report} {row : Row}
    {answer : Answer} (finds : Finds s event i report row) (judged : judge report.result (some row) = .ended answer) :
    step settings s event = s.answered i report answer := by
  obtain ⟨rfl, there, finding, found⟩ := finds
  simp only [step, there, recordExecutionResult, finding, found, judged, if_true]
  rfl

theorem step_recordsOnce (settings : Settings) (s : State) (event : Event) (recorded : Recorded s)
    (finds : FindsExecuting s event) : RecordsOnce settings s event := by
  have stepped := step_tableStep settings s recorded event finds
  refine ⟨tableStep_follows stepped, tableStep_fresh stepped, step_carried settings s recorded event stepped, ?_, ?_⟩
  · intro i report row found executed success hash
    refine step_finds found ?_
    obtain ⟨_, _, recordedHash, -, -, -, -, carried⟩ :=
      recorded.carried report.rebalanceId row found.2.2.2 executed
    simp [judge, executed, hash, carried, sameHash]
  · rintro i report row found (⟨executed, conflict⟩ | failed)
    · refine step_finds found ?_
      have differs : sameHash row.txHash report.result.txHash = false := by
        by_contra same
        rw [Bool.not_eq_false] at same
        obtain ⟨rfl, there, finding, here⟩ := found
        have success : report.result.success = true := by
          simpa [State.misreports, there, finding, here, executed, same] using finds.2
        exact conflict ⟨success, (sameHash_eq same).symm⟩
      simp [judge, executed, differs]
    · exact step_finds found (by simp [judge, failed])

/-- For any number of dispatchers and reports and every order of their steps: as long as a
result, or the failure of a dispatch, is written only while its row is executing, and no
failure is reported under the hash of an executed row, every step of the run keeps the
results: rows only move on, an executed row has the hash of a success report, repeating it
changes nothing and everything else is refused. -/
theorem results_recorded_once (settings : Settings) (now : Nat) (events : List Event)
    (finds : Throughout (step settings) FindsExecuting (State.start now) events) :
    Throughout (step settings) (RecordsOnce settings) (State.start now) events := by
  refine throughout_of Recorded (step_recorded settings) (step_recordsOnce settings) ?_ finds
  exact ⟨⟨by simp [State.start], by simp [State.start]⟩, by simp [State.start], by simp [State.start],
    by simp [State.start], by simp [State.start]⟩

/-- A check up to the push of its job. -/
def dispatchedCheck : List Event :=
  [.runHourlyCheck] ++ guardQueries 0 ++ [.check 0 (.write none), .check 0 (.write none), .check 0 (.execute none)]

/-- Two reports on one rebalance find it executing, and then both write. -/
def overlappingReports : List Event :=
  dispatchedCheck ++ [.recordExecutionResult 0 ⟨true, some "9f86d081", none⟩,
    .recordExecutionResult 0 ⟨false, none, some "timeout"⟩, .report 0 .findUnique, .report 1 .findUnique,
    .report 1 (.update true)]

/-- The success report overwrites the failure: a failed row is executed after all. -/
theorem overlapping_reports_overwrite :
    ¬ Throughout (step (.configured [usdcNgn] 1 rate_one_pos))
      (RecordsOnce (.configured [usdcNgn] 1 rate_one_pos)) (State.start 0)
      (overlappingReports ++ [.report 0 (.update true)]) := by
  intro all
  have last := (throughout_at all).2
  have failed : ((run (step (.configured [usdcNgn] 1 rate_one_pos)) (State.start 0)
      overlappingReports).rows[0]?).map Row.status = some .failed := by decide +kernel
  have executed : ((step (.configured [usdcNgn] 1 rate_one_pos)
      (run (step (.configured [usdcNgn] 1 rate_one_pos)) (State.start 0) overlappingReports)
      (.report 0 (.update true))).rows[0]?).map Row.status = some .executed := by decide +kernel
  obtain ⟨row, found, status⟩ := Option.map_eq_some_iff.mp failed
  obtain ⟨row', found', follows⟩ := last.rows 0 row found
  rw [found', Option.map_some, Option.some.injEq] at executed
  rcases follows with same | ⟨planned, -⟩ | ⟨executing, -⟩
  · rw [same, status] at executed
    cases executed
  · rw [status] at planned
    cases planned
  · rw [status] at executing
    cases executing

/-- One report after the other: the success is recorded, its repetition answered, and the
failure refused. -/
theorem results_recorded_once_in_turn :
    Throughout (step (.configured [usdcNgn] 1 rate_one_pos))
      (RecordsOnce (.configured [usdcNgn] 1 rate_one_pos)) (State.start 0)
      (dispatchedCheck ++ [.recordExecutionResult 0 ⟨true, some "9f86d081", none⟩,
        .recordExecutionResult 0 ⟨true, some "9f86d081", none⟩, .recordExecutionResult 0 ⟨false, none, some "timeout"⟩,
        .report 0 .findUnique, .report 0 (.update true), .report 1 .findUnique, .report 2 .findUnique]) :=
  results_recorded_once _ 0 _ (by decide +kernel)

end AfroPay.Liquidity
