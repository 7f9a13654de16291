import AfroPay.RebalanceResults

/-! The jobs of rebalances. A check owes a job from the creation of its row to the push, and
pushes it once, with the terms of the row; from then on nothing changes these terms, and no
other job has the row's id. Results come from reports alone. -/
namespace AfroPay.Liquidity
open Runs WorkerJobs

/-- What a rebalance exchanges. -/
structure Terms where
  corridor : String
  fromAsset : String
  toAsset : String
  sourceAmount : Nat
  amount : Nat
  deriving DecidableEq

def Row.terms (row : Row) : Terms := ⟨row.corridor, row.fromAsset, row.toAsset, row.sourceAmount, row.amount⟩

def CorridorConfig.terms (corridor : CorridorConfig) (sourceAmount amount : Nat) : Terms :=
  ⟨corridor.name, corridor.fromAsset, corridor.toAsset, sourceAmount, amount⟩

/-- The row and the amounts of a check that has created its row and not pushed its job. -/
def Phase.owes : Phase → Option (Nat × Nat × Nat)
  | .planned id sourceAmount destinationAmount | .executing id sourceAmount destinationAmount =>
    some (id, sourceAmount, destinationAmount)
  | _ => none

theorem owes_of_holds {phase : Phase} (holds : phase.holds = none) : phase.owes = none := by
  cases phase <;> first | rfl | cases holds

theorem toString_injective : Function.Injective (toString : Nat → String) := by
  intro a b same
  have digits : Nat.toDigits 10 a = Nat.toDigits 10 b := by
    rw [← Nat.toList_repr, ← Nat.toList_repr]
    exact congrArg String.toList same
  rw [← Nat.ofDigitChars_toDigits (by decide : 1 < 10) (by decide) (n := a), digits,
    Nat.ofDigitChars_toDigits (by decide) (by decide)]

section Steps

variable {settings : Settings} {s : State} {event : Event}

private theorem updated_terms {rows : List Row} {id k : Nat} {update : Row → Row} {row : Row}
    (keeps : ∀ row, (update row).terms = row.terms) (there : rows[k]? = some row) :
    ∃ row', (updateStatus rows id update)[k]? = some row' ∧ row'.terms = row.terms := by
  rw [getElem?_updateStatus]
  split
  · exact ⟨update row, by rw [there]; rfl, keeps row⟩
  · exact ⟨row, there, rfl⟩

private theorem appended_terms {rows : List Row} {k : Nat} {row : Row} (added : Row) (there : rows[k]? = some row) :
    ∃ row', (rows ++ [added])[k]? = some row' ∧ row'.terms = row.terms :=
  ⟨row, by rw [List.getElem?_append_left (List.getElem?_eq_some_iff.mp there).1, there], rfl⟩

private theorem recordResult_terms (result : LiquidityExecutionResult) (now : Nat) (row : Row) :
    (recordResult result now row).terms = row.terms := by
  unfold recordResult
  split <;> rfl

/-- A row keeps its place and its terms. -/
theorem step_terms (settings : Settings) (s : State) (event : Event) {id : Nat} {row : Row}
    (there : s.rows[id]? = some row) :
    ∃ row', (step settings s event).rows[id]? = some row' ∧ row'.terms = row.terms := by
  have same : ∃ row', s.rows[id]? = some row' ∧ row'.terms = row.terms := ⟨row, there, rfl⟩
  cases event with
  | tick ms => exact same
  | runHourlyCheck =>
    simp only [step]
    split <;> exact same
  | releaseLock =>
    simp only [step]
    split
    · split <;> exact same
    · exact same
  | check i action =>
    obtain idle | ⟨check, effect, found, moves, stepped⟩ := step_check settings s i action
    · rw [idle]
      exact same
    · rw [stepped]
      obtain ⟨run, corridor, phase⟩ := check
      cases moves with
      | skips => exact appended_terms _ there
      | creates => exact appended_terms _ there
      | marks => exact updated_terms (fun _ => rfl) there
      | fails => exact updated_terms (fun _ => rfl) there
      | _ => exact same
  | recordExecutionResult rebalanceId result => exact same
  | report i action =>
    obtain idle | ⟨report, next, rows, found, moves, stepped⟩ := step_report settings s i action
    · rw [idle]
      exact same
    · rw [stepped]
      cases moves with
      | records => exact updated_terms (recordResult_terms report.result s.now) there
      | _ => exact same

/-- A check that owes a job owed it before, or has just created its row. -/
theorem step_owes (settings : Settings) (s : State) (event : Event) {j : Nat} {check' : Check} {id a b : Nat}
    (there : (step settings s event).checks[j]? = some check') (owes : check'.phase.owes = some (id, a, b)) :
    (∃ check : Check, s.checks[j]? = some check ∧ check.phase.owes = some (id, a, b) ∧ check.corridor = check'.corridor) ∨
      (∃ action, event = .check j action) ∧ id = s.rows.length ∧ (step settings s event).jobs = s.jobs ∧
        ∃ row, (step settings s event).rows[id]? = some row ∧ row.terms = check'.corridor.terms a b := by
  have before {checks : List Check} (there : checks[j]? = some check') (same : checks = s.checks) :
      ∃ check : Check, s.checks[j]? = some check ∧ check.phase.owes = some (id, a, b) ∧ check.corridor = check'.corridor :=
    ⟨check', same ▸ there, owes, rfl⟩
  cases event with
  | tick ms => exact .inl (before there rfl)
  | runHourlyCheck =>
    simp only [step] at there
    split at there
    · exact .inl (before there rfl)
    · simp only [List.getElem?_append] at there
      split at there
      · exact .inl (before there rfl)
      · -- A check that has just begun owes nothing.
        obtain ⟨corridor, -, rfl⟩ := List.mem_map.mp (List.mem_of_getElem? there)
        cases owes
  | releaseLock =>
    simp only [step] at there
    split at there
    · split at there <;> exact .inl (before there rfl)
    · exact .inl (before there rfl)
  | check i action =>
    obtain idle | ⟨check, effect, found, moves, stepped⟩ := step_check settings s i action
    · rw [idle] at there
      exact .inl (before there rfl)
    · rw [stepped] at there ⊢
      simp only [List.getElem?_set] at there
      split at there
      · rename_i here
        subst here
        split at there
        · cases there
          obtain ⟨run, corridor, phase⟩ := check
          cases moves with
          | creates sourceAmount destinationAmount reason error next created =>
            rcases created with rfl | rfl
            · cases owes
              exact .inr ⟨⟨_, rfl⟩, rfl, List.append_nil _, _, List.getElem?_concat_length, rfl⟩
            · cases owes
          | marks id' a' b' error next marked =>
            rcases marked with rfl | ⟨_, rfl⟩
            · exact .inl ⟨_, found, owes, rfl⟩
            · cases owes
          | opens | counts | sums | looks | plans => cases owes
          | skips _ _ next closed => rcases closed with rfl | rfl <;> cases owes
          | pushes _ _ _ _ next pushed => rcases pushed with rfl | ⟨_, rfl⟩ <;> cases owes
          | fails _ _ _ next failed => rcases failed with rfl | rfl <;> cases owes
          | rests _ next _ closed keeps =>
            rcases keeps with none | ⟨-, _, _, rfl⟩
            · cases (owes_of_holds none).symm.trans owes
            · cases owes
        · cases there
      · exact .inl (before there rfl)
  | recordExecutionResult rebalanceId result => exact .inl (before there rfl)
  | report i action =>
    obtain idle | ⟨report, next, rows, found, moves, stepped⟩ := step_report settings s i action
    · rw [idle] at there
      exact .inl (before there rfl)
    · rw [stepped] at there
      exact .inl (before there rfl)

/-- A job is pushed by the check that owes it, which then owes none. -/
theorem step_jobs (settings : Settings) (s : State) (event : Event) :
    (step settings s event).jobs = s.jobs ∨
      ∃ (i : Nat) (check : Check) (id a b : Nat), s.checks[i]? = some check ∧ check.phase.owes = some (id, a, b) ∧
        (step settings s event).jobs = s.jobs ++ [rebalanceJob settings check.corridor id a b] ∧
        ∀ check' : Check, (step settings s event).checks[i]? = some check' → check'.phase.owes = none := by
  cases event with
  | tick ms => exact .inl rfl
  | runHourlyCheck =>
    refine .inl ?_
    simp only [step]
    split <;> rfl
  | releaseLock =>
    refine .inl ?_
    simp only [step]
    split
    · split <;> rfl
    · rfl
  | check i action =>
    obtain idle | ⟨check, effect, found, moves, stepped⟩ := step_check settings s i action
    · rw [idle]
      exact .inl rfl
    · rw [stepped]
      obtain ⟨run, corridor, phase⟩ := check
      cases moves with
      | pushes id sourceAmount destinationAmount error next pushed =>
        refine .inr ⟨i, _, id, sourceAmount, destinationAmount, found, rfl, rfl, fun check' there => ?_⟩
        simp only [List.getElem?_set_self (List.getElem?_eq_some_iff.mp found).1] at there
        cases there
        rcases pushed with rfl | ⟨_, rfl⟩ <;> rfl
      | _ => exact .inl (List.append_nil _)
  | recordExecutionResult rebalanceId result => exact .inl rfl
  | report i action =>
    obtain idle | ⟨report, next, rows, found, moves, stepped⟩ := step_report settings s i action
    · rw [idle]
      exact .inl rfl
    · rw [stepped]
      exact .inl rfl

/-- An executed row was executed before, or a success report has just written its hash. -/
theorem step_executed (settings : Settings) (s : State) (event : Event) {id : Nat} {row : Row}
    (there : (step settings s event).rows[id]? = some row) (executed : row.status = .executed) :
    s.rows[id]? = some row ∨ ∃ (i : Nat) (report : Report), s.reports[i]? = some report ∧ report.rebalanceId = id ∧
      report.result.success = true ∧ row.txHash = report.result.txHash := by
  have unwritten {rows : List Row} {id' : Nat} {update : Row → Row} (there : (updateStatus rows id' update)[id]? = some row)
      (other : ∀ row, (update row).status ≠ .executed) : rows[id]? = some row := by
    rw [getElem?_updateStatus] at there
    split at there
    · obtain ⟨row', -, rfl⟩ := Option.map_eq_some_iff.mp there
      exact absurd executed (other row')
    · exact there
  have unadded {rows : List Row} {added : Row} (there : (rows ++ [added])[id]? = some row)
      (other : added.status ≠ .executed) : rows[id]? = some row := by
    rw [List.getElem?_append] at there
    split at there
    · exact there
    · rw [List.mem_singleton.mp (List.mem_of_getElem? there)] at executed
      exact absurd executed other
  cases event with
  | tick ms => exact .inl there
  | runHourlyCheck =>
    simp only [step] at there
    split at there <;> exact .inl there
  | releaseLock =>
    simp only [step] at there
    split at there
    · split at there <;> exact .inl there
    · exact .inl there
  | check i action =>
    obtain idle | ⟨check, effect, found, moves, stepped⟩ := step_check settings s i action
    · rw [idle] at there
      exact .inl there
    · rw [stepped] at there
      obtain ⟨run, corridor, phase⟩ := check
      cases moves with
      | skips => exact .inl (unadded there (by simp [skippedRow]))
      | creates => exact .inl (unadded there (by simp [plannedRow]))
      | marks => exact .inl (unwritten there (by simp [markExecuting]))
      | fails => exact .inl (unwritten there (by simp [markFailed]))
      | _ => exact .inl there
  | recordExecutionResult rebalanceId result => exact .inl there
  | report i action =>
    obtain idle | ⟨report, next, rows, found, moves, stepped⟩ := step_report settings s i action
    · rw [idle] at there
      exact .inl there
    · rw [stepped] at there
      cases moves with
      | records answered next updating row' booked settled =>
        rw [getElem?_updateStatus] at there
        split at there
        · rename_i same
          obtain ⟨row'', -, rfl⟩ := Option.map_eq_some_iff.mp there
          unfold recordResult at executed ⊢
          split at executed
          · rename_i success
            exact .inr ⟨i, report, found, same, success, by rw [if_pos success]; rfl⟩
          · cases executed
        · exact .inl there
      | _ => exact .inl there

/-- A report was there before with its result, or has just come in. -/
theorem step_report_origin (settings : Settings) (s : State) (event : Event) {i : Nat} {report' : Report}
    (there : (step settings s event).reports[i]? = some report') :
    (∃ report : Report, s.reports[i]? = some report ∧ report.rebalanceId = report'.rebalanceId ∧ report.result = report'.result) ∨
      event = .recordExecutionResult report'.rebalanceId report'.result := by
  cases event with
  | tick ms => exact .inl ⟨report', there, rfl, rfl⟩
  | runHourlyCheck =>
    simp only [step] at there
    split at there <;> exact .inl ⟨report', there, rfl, rfl⟩
  | releaseLock =>
    simp only [step] at there
    split at there
    · split at there <;> exact .inl ⟨report', there, rfl, rfl⟩
    · exact .inl ⟨report', there, rfl, rfl⟩
  | check j action =>
    obtain idle | ⟨check, effect, found, moves, stepped⟩ := step_check settings s j action
    · rw [idle] at there
      exact .inl ⟨report', there, rfl, rfl⟩
    · rw [stepped] at there
      exact .inl ⟨report', there, rfl, rfl⟩
  | recordExecutionResult rebalanceId result =>
    simp only [step, List.getElem?_append] at there
    split at there
    · exact .inl ⟨report', there, rfl, rfl⟩
    · rw [List.mem_singleton.mp (List.mem_of_getElem? there)]
      exact .inr rfl
  | report j action =>
    obtain idle | ⟨report, next, rows, found, moves, stepped⟩ := step_report settings s j action
    · rw [idle] at there
      exact .inl ⟨report', there, rfl, rfl⟩
    · rw [stepped] at there
      simp only [List.getElem?_set] at there
      split at there
      · rename_i here
        subst here
        split at there
        · cases there
          exact .inl ⟨report, found, rfl, rfl⟩
        · cases there
      · exact .inl ⟨report', there, rfl, rfl⟩

end Steps

/-- The ids of the jobs pushed so far, as their texts. -/
def State.jobIds (s : State) : List String := s.jobs.map Api.LiquidityRebalanceJob.rebalanceId

/-- What carries the jobs through every step: each job has its row's terms, no two have one
id, and what is still owed has not been pushed. -/
structure Dispatched (settings : Settings) (s : State) : Prop where
  owed : ∀ (i : Nat) (check : Check) (id a b : Nat), s.checks[i]? = some check → check.phase.owes = some (id, a, b) →
    (∃ row, s.rows[id]? = some row ∧ row.terms = check.corridor.terms a b) ∧ toString id ∉ s.jobIds
  alone : ∀ (i j : Nat) (check other : Check) (id a b a' b' : Nat), s.checks[i]? = some check →
    s.checks[j]? = some other → check.phase.owes = some (id, a, b) → other.phase.owes = some (id, a', b') → i = j
  pushed : ∀ job ∈ s.jobs, ∃ id corridor a b row, s.rows[id]? = some row ∧
    row.terms = CorridorConfig.terms corridor a b ∧ job = rebalanceJob settings corridor id a b
  once : s.jobIds.Nodup

/-- The rows of all jobs are there. -/
theorem Dispatched.job_row {settings : Settings} {s : State} (dispatched : Dispatched settings s) {id : Nat}
    (pushed : toString id ∈ s.jobIds) : id < s.rows.length := by
  obtain ⟨job, member, same⟩ := List.mem_map.mp pushed
  obtain ⟨id', corridor, a, b, row, there, -, rfl⟩ := dispatched.pushed job member
  obtain rfl : id' = id := toString_injective same
  exact (List.getElem?_eq_some_iff.mp there).1

theorem step_dispatched (settings : Settings) (s : State) (event : Event) (dispatched : Dispatched settings s) :
    Dispatched settings (step settings s event) := by
  have kept {id : Nat} {row : Row} {terms : Terms} (there : s.rows[id]? = some row) (same : row.terms = terms) :
      ∃ row, (step settings s event).rows[id]? = some row ∧ row.terms = terms := by
    obtain ⟨row', there', same'⟩ := step_terms settings s event there
    exact ⟨row', there', same'.trans same⟩
  have jobs := step_jobs settings s event
  refine ⟨?_, ?_, ?_, ?_⟩
  · intro j check' id a b there owes
    obtain ⟨check, before, owed, corridor⟩ | ⟨-, rfl, unpushed, row⟩ := step_owes settings s event there owes
    · obtain ⟨⟨row, found, terms⟩, absent⟩ := dispatched.owed j check id a b before owed
      refine ⟨corridor ▸ kept found terms, ?_⟩
      rcases jobs with same | ⟨i, pusher, id', a', b', here, owed', added, done⟩
      · rwa [State.jobIds, same]
      · rw [State.jobIds, added, List.map_append, List.mem_append, not_or]
        refine ⟨absent, fun last => ?_⟩
        -- The pusher owes nothing any more, so it is not this check.
        obtain rfl : id = id' := toString_injective (List.mem_singleton.mp last)
        obtain rfl := dispatched.alone i j pusher check id a' b' a b here before owed' owed
        rw [done check' there] at owes
        cases owes
    · refine ⟨row, ?_⟩
      rw [State.jobIds, unpushed]
      exact fun present => absurd (dispatched.job_row present) (lt_irrefl _)
  · intro i j check' other' id a b a' b' here there owes owes'
    obtain ⟨check, before, owed, -⟩ | ⟨⟨action, rfl⟩, rfl, -⟩ := step_owes settings s event here owes
    · obtain ⟨other, before', owed', -⟩ | ⟨-, rfl, -⟩ := step_owes settings s event there owes'
      · exact dispatched.alone i j check other id a b a' b' before before' owed owed'
      · obtain ⟨⟨row, found, -⟩, -⟩ := dispatched.owed i check _ a b before owed
        exact absurd (List.getElem?_eq_some_iff.mp found).1 (lt_irrefl _)
    · obtain ⟨other, before', owed', -⟩ | ⟨⟨action', same⟩, -⟩ := step_owes settings s _ there owes'
      · obtain ⟨⟨row, found, -⟩, -⟩ := dispatched.owed j other _ a' b' before' owed'
        exact absurd (List.getElem?_eq_some_iff.mp found).1 (lt_irrefl _)
      · cases same
        rfl
  · intro job member
    rcases jobs with same | ⟨i, pusher, id, a, b, here, owed, added, -⟩
    · rw [same] at member
      obtain ⟨id, corridor, a, b, row, found, terms, built⟩ := dispatched.pushed job member
      obtain ⟨row', found', terms'⟩ := kept found terms
      exact ⟨id, corridor, a, b, row', found', terms', built⟩
    · rw [added] at member
      rcases List.mem_append.mp member with old | new
      · obtain ⟨id, corridor, a, b, row, found, terms, built⟩ := dispatched.pushed job old
        obtain ⟨row', found', terms'⟩ := kept found terms
        exact ⟨id, corridor, a, b, row', found', terms', built⟩
      · obtain ⟨⟨row, found, terms⟩, -⟩ := dispatched.owed i pusher id a b here owed
        obtain ⟨row', found', terms'⟩ := kept found terms
        exact ⟨id, pusher.corridor, a, b, row', found', terms', List.mem_singleton.mp new⟩
  · rcases jobs with same | ⟨i, pusher, id, a, b, here, owed, added, -⟩
    · rw [State.jobIds, same]
      exact dispatched.once
    · obtain ⟨-, absent⟩ := dispatched.owed i pusher id a b here owed
      rw [State.jobIds, added, List.map_append]
      exact dispatched.once.append (List.nodup_singleton _) (by simpa [rebalanceJob] using absent)

end AfroPay.Liquidity
