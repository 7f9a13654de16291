import Mathlib.Data.List.DropRight
import AfroPay.BlockStreams
import AfroPay.JoinedText
import AfroPay.LossyText
import AfroPay.Runs
import AfroPay.WorkerPayments

/-! The worker's listener on Horizon's stream of transactions. Chunks of bytes are decoded and
gathered in a buffer, an event is what stands before two line feeds, and the events of
transactions settle the rows that wait for them. A lost connection is made again, until five
attempts in a row have failed. -/
namespace AfroPay.SseStream
open Base64 BlockStreams Json LossyText NumberText Runs WorkerPayments

structure TransactionEvent where
  hash : String
  status : String
  ledger : Option ℤ
  success : Bool
  deriving DecidableEq

section Blocks

def stripCarriage (line : List Char) : List Char :=
  if line.getLast? = some '\r' then line.dropLast else line

/-- `str::lines`. A line loses its line feed and a carriage return before it; what stands
after the last line feed is a line as it is, if it is anything. -/
def lines (text : List Char) : List (List Char) :=
  let pieces := text.splitOn '\n'
  pieces.dropLast.map stripCarriage ++ pieces.getLast?.toList.filter (· ≠ [])

/-- `event_type` and `event_data`. -/
structure EventBlock where
  eventType : List Char
  eventData : List Char

def readLine (read : EventBlock) (line : List Char) : EventBlock :=
  match line.dropPrefix? "data: ".toList with
  | some data => { read with eventData := data }
  | none =>
    match line.dropPrefix? "event: ".toList with
    | some eventType => { read with eventType }
    | none => read

def readLines (lines : List (List Char)) : EventBlock := lines.foldl readLine ⟨[], []⟩

def asStr : Value → Option String
  | .string text => some text
  | _ => none

def asBool : Value → Option Bool
  | .bool value => some value
  | _ => none

/-- `as_i64`. Minus zero is read as a float. -/
def asI64 : Value → Option ℤ
  | .number literal => if literal.text = ['-', '0'] then none else (parseI64 literal.text).toOption
  | _ => none

/-- `process_sse_transaction_data` on what its data are read as. -/
def transactionEvent (json : Value) : Option TransactionEvent :=
  let hash := ((asStr (Value.index json "hash")).or
    (asStr (Value.index (Value.index json "transaction") "hash"))).getD ""
  if hash = "" then none
  else
    let success := ((asBool (Value.index json "successful")).or
      (asBool (Value.index (Value.index json "transaction") "successful"))).getD false
    let ledger := (asI64 (Value.index json "ledger")).or
      (asI64 (Value.index (Value.index json "transaction") "ledger"))
    some ⟨hash, if success then "success" else "failed", ledger, success⟩

variable (fromStr : List Char → Option Value)

/-- What is sent on for one event: only those of transactions are looked at, and data that
are no JSON are logged. -/
def dispatch (read : EventBlock) : Option TransactionEvent :=
  if read.eventData = [] then none
  else if read.eventType = "transaction".toList then (fromStr read.eventData).bind transactionEvent
  else none

def eventSeparator : List Char := ['\n', '\n']

/-- `String::from_utf8_lossy`, which replaces what `toString('utf8')` replaces. -/
def fromUtf8Lossy : List UInt8 → List Char := decodeUtf8

/-- The loop of `subscribe_to_transactions` over the chunks of a response. -/
def received (chunks : List (List UInt8)) : List TransactionEvent :=
  (feed eventSeparator [] (chunks.map fromUtf8Lossy)).1.filterMap fun block => dispatch fromStr (readLines (lines block))

end Blocks

section Frames

/-- An event as a server writes it: its lines, and an empty one. -/
def wire (frames : List (List (List Char))) : List Char :=
  frames.flatMap fun frame => ['\n'].intercalate frame ++ eventSeparator

/-- Lines that are lines. -/
structure Framed (frame : List (List Char)) : Prop where
  nonempty : frame ≠ []
  free : ∀ line ∈ frame, '\n' ∉ line
  dark : ∀ line ∈ frame, line ≠ []
  plain : ∀ line ∈ frame, line.getLast? ≠ some '\r'

variable {fromStr : List Char → Option Value} {frame line : List (List Char)}

private theorem cut_free {line : List Char} (free : '\n' ∉ line) (rest : List Char) :
    cut eventSeparator (line ++ rest) = (cut eventSeparator rest).map fun parts => (line ++ parts.1, parts.2) := by
  induction line with
  | nil => simp
  | cons c line ih =>
    have other : '\n' ≠ c := fun same => free (same ▸ List.mem_cons_self)
    have absent : ¬ eventSeparator <+: c :: (line ++ rest) := by
      intro front
      exact other (List.cons_prefix_cons.mp front).1
    rw [List.cons_append, cut, if_neg absent, ih fun member => free (List.mem_cons_of_mem c member), Option.map_map]
    rfl

/-- The lines of a frame have no empty one between them, so its end is its first. -/
theorem Framed.clean {frame : List (List Char)} (framed : Framed frame) :
    Clean eventSeparator (['\n'].intercalate frame) := by
  obtain ⟨nonempty, free, dark, -⟩ := framed
  induction frame with
  | nil => exact absurd rfl nonempty
  | cons line frame ih =>
    obtain ⟨here, later⟩ := List.forall_mem_cons.mp free
    cases frame with
    | nil =>
      rw [List.intercalate_singleton, Clean, cut_free here]
      simp [cut, eventSeparator]
    | cons next frame =>
      have inner := ih (List.cons_ne_nil _ _) later (List.forall_mem_cons.mp dark).2
      have begins : ∃ c rest, ['\n'].intercalate (next :: frame) ++ eventSeparator = c :: rest ∧ '\n' ≠ c := by
        cases next with
        | nil => exact absurd rfl (dark [] (List.mem_cons_of_mem _ List.mem_cons_self))
        | cons c rest =>
          have other : '\n' ≠ c := fun same => free (c :: rest) (List.mem_cons_of_mem _ List.mem_cons_self)
            (same ▸ List.mem_cons_self)
          cases frame <;> exact ⟨c, _, rfl, other⟩
      obtain ⟨c, rest, starts, other⟩ := begins
      have absent : ¬ eventSeparator <+: '\n' :: (['\n'].intercalate (next :: frame) ++ eventSeparator) := by
        rw [starts]
        intro front
        exact other (List.cons_prefix_cons.mp (List.cons_prefix_cons.mp front).2).1
      rw [Clean] at inner ⊢
      rw [List.intercalate_cons_cons, List.append_assoc, List.append_assoc, cut_free here, List.singleton_append, cut,
        if_neg absent, inner]
      simp

/-- A frame's lines are read as they were written. -/
theorem Framed.lines_eq {frame : List (List Char)} (framed : Framed frame) :
    lines (['\n'].intercalate frame) = frame := by
  have pieces : (['\n'].intercalate frame).splitOn '\n' = frame := by
    rw [JoinedText.splitOn_join framed.nonempty, JoinedText.pieces_of_free framed.free]
  have kept : frame.dropLast.map stripCarriage = frame.dropLast := by
    refine (List.map_congr_left fun line member => ?_).trans (List.map_id _)
    rw [stripCarriage, if_neg (framed.plain line (List.dropLast_subset frame member)), id]
  have last := List.getLast?_eq_some_getLast framed.nonempty
  have full : frame.getLast framed.nonempty ≠ [] := framed.dark _ (List.getLast_mem framed.nonempty)
  simp only [lines, pieces, kept, last, Option.toList_some, List.filter_singleton, full, ne_eq, not_false_eq_true,
    decide_true]
  exact List.dropLast_append_getLast framed.nonempty

/-- Of a stream whose events are whole up to where it has come, exactly the events of its
transactions are sent on, once each and in their order, at whatever characters its chunks end. -/
theorem received_frames (fromStr : List Char → Option Value) {frames : List (List (List Char))}
    {unfinished : List Char} {pieces : List (List Char)} (framed : ∀ frame ∈ frames, Framed frame)
    (waits : ¬ eventSeparator <:+: unfinished) (stream : pieces.flatten = wire frames ++ unfinished) :
    received fromStr (pieces.map utf8) = frames.filterMap fun frame => dispatch fromStr (readLines frame) := by
  have nonempty : eventSeparator ≠ [] := List.cons_ne_nil _ _
  have decoded : (pieces.map utf8).map fromUtf8Lossy = pieces := by
    rw [List.map_map]
    exact List.map_id'' decodeUtf8_utf8 pieces
  have written : wire frames = (frames.map ['\n'].intercalate).flatMap (· ++ eventSeparator) := by
    rw [wire, List.flatMap_map]
  have clean : ∀ block ∈ frames.map ['\n'].intercalate, Clean eventSeparator block := by
    intro block member
    obtain ⟨frame, among, rfl⟩ := List.mem_map.mp member
    exact (framed frame among).clean
  rw [received, decoded, feed_drain nonempty (by simp [eventSeparator]), List.nil_append, stream, written,
    drain_blocks nonempty clean waits, List.filterMap_map]
  refine List.filterMap_congr fun frame member => ?_
  rw [Function.comp_apply, (framed frame member).lines_eq]

def successFrame : List (List Char) :=
  ["event: transaction".toList, "data: \x7b\"hash\":\"3389e9f0\",\"successful\":true\x7d".toList]

theorem successFrame_framed : Framed successFrame := by
  constructor <;> decide +kernel

/-- One event in two chunks, the first of which ends inside a line. -/
theorem received_frames_two_chunks :
    received parse (["event: tr".toList, (wire [successFrame]).drop 9].map utf8) =
      [successFrame].filterMap fun frame => dispatch parse (readLines frame) :=
  received_frames parse (by simpa using successFrame_framed) (by decide +kernel : ¬ eventSeparator <:+: [])
    (by decide +kernel)

end Frames

section Connection

def maxReconnectAttempts : Nat := 5

/-- Seconds. -/
def initialBackoff : Nat := 1

def maxBackoff : Nat := 30

/-- What one subscription meets: no answer, an answer that is no success, or a body that ends
or breaks off. -/
inductive Attempt where
  | unreachable (error : String)
  | refused (status : String)
  | streamed (chunks : List (List UInt8)) (broken : Option String)

variable (fromStr : List Char → Option Value)

/-- `subscribe_to_transactions`: what is sent on, and how it returns. -/
def subscribeToTransactions : Attempt → List TransactionEvent × Except String Unit
  | .unreachable error => ([], .error error)
  | .refused status => ([], .error ("Horizon returned status: " ++ status))
  | .streamed chunks none => (received fromStr chunks, .ok ())
  | .streamed chunks (some error) => (received fromStr chunks, .error error)

/-- The manager between two rounds of its loop, with what it has sent on and slept so far. -/
structure Connection where
  attempt : Nat
  backoff : Nat
  sent : List TransactionEvent
  slept : List Nat

def Connection.start : Connection := ⟨0, initialBackoff, [], []⟩

/-- "Max reconnect attempts reached". -/
def Connection.gaveUp (connection : Connection) : Prop := maxReconnectAttempts < connection.attempt + 1

instance (connection : Connection) : Decidable connection.gaveUp := inferInstanceAs (Decidable (_ < _))

/-- A round of `connect_and_listen`. -/
def reconnect (connection : Connection) (attempt : Attempt) : Connection :=
  if connection.gaveUp then connection
  else
    let subscription := subscribeToTransactions fromStr attempt
    match subscription.2 with
    | .ok () => ⟨0, initialBackoff, connection.sent ++ subscription.1, connection.slept⟩
    | .error _ =>
      ⟨connection.attempt + 1, min (connection.backoff * 2) maxBackoff, connection.sent ++ subscription.1,
        connection.slept ++ [connection.backoff]⟩

def connectAndListen (tries : List Attempt) : Connection := run (reconnect fromStr) .start tries

def Attempt.fails : Attempt → Bool
  | .streamed _ none => false
  | _ => true

/-- How many attempts up to now have failed in a row. -/
def streak (made : List Attempt) : Nat := (made.rtakeWhile Attempt.fails).length

/-- The attempts made so far, and what has come of them. -/
structure History (made : List Attempt) (connection : Connection) : Prop where
  streak : connection.attempt = streak made
  backoff : connection.backoff = min (2 ^ connection.attempt) maxBackoff
  sent : connection.sent = made.flatMap fun attempt => (subscribeToTransactions fromStr attempt).1
  pauses : connection.slept.length = made.countP Attempt.fails
  short : ∀ pause ∈ connection.slept, pause ≤ 16
  doubling : (List.range connection.attempt).map (2 ^ ·) <:+ connection.slept
  /-- No outage was over when another attempt was made. -/
  tried : ∀ earlier, earlier <+: made → earlier ≠ made → SseStream.streak earlier < maxReconnectAttempts

variable {fromStr} {made : List Attempt} {connection : Connection} {attempt : Attempt}

theorem streak_ended (ends : attempt.fails = false) : streak (made ++ [attempt]) = 0 := by
  rw [streak, List.rtakeWhile_concat_neg Attempt.fails made attempt (by simp [ends]), List.length_nil]

theorem streak_grows (fails : attempt.fails = true) : streak (made ++ [attempt]) = streak made + 1 := by
  rw [streak, List.rtakeWhile_concat_pos Attempt.fails made attempt fails, List.length_append, List.length_singleton,
    streak]

theorem subscribe_fails (fromStr : List Char → Option Value) (attempt : Attempt) :
    attempt.fails = false ∧ (subscribeToTransactions fromStr attempt).2 = .ok () ∨
      attempt.fails = true ∧ ∃ error, (subscribeToTransactions fromStr attempt).2 = .error error := by
  cases attempt with
  | unreachable error => exact .inr ⟨rfl, error, rfl⟩
  | refused status => exact .inr ⟨rfl, _, rfl⟩
  | streamed chunks broken =>
    cases broken with
    | none => exact .inl ⟨rfl, rfl⟩
    | some error => exact .inr ⟨rfl, error, rfl⟩

/-- A round adds its attempt to the history, as long as there is a next round. -/
theorem History.round (history : History fromStr made connection) (more : ¬ connection.gaveUp) :
    History fromStr (made ++ [attempt]) (reconnect fromStr connection attempt) := by
  have below : SseStream.streak made < maxReconnectAttempts := by
    rw [← history.streak]
    unfold Connection.gaveUp at more
    omega
  have tried : ∀ earlier, earlier <+: made ++ [attempt] → earlier ≠ made ++ [attempt] →
      SseStream.streak earlier < maxReconnectAttempts := by
    intro earlier part proper
    rcases List.prefix_concat_iff.mp part with whole | before
    · exact absurd whole proper
    · by_cases same : earlier = made
      · rwa [same]
      · exact history.tried earlier before same
  rw [reconnect, if_neg more]
  rcases subscribe_fails fromStr attempt with ⟨ends, ok⟩ | ⟨fails, error, failed⟩
  · simp only [ok]
    refine ⟨(streak_ended ends).symm, rfl, ?_, ?_, history.short, List.nil_suffix, tried⟩
    · rw [history.sent, List.flatMap_append, List.flatMap_singleton]
    · simp [history.pauses, ends]
  · simp only [failed]
    have small : connection.attempt ≤ 4 := by
      rw [history.streak]
      unfold maxReconnectAttempts at below
      omega
    have power : 2 ^ connection.attempt ≤ 2 ^ 4 := Nat.pow_le_pow_right (by omega) small
    have paused : connection.backoff = 2 ^ connection.attempt := by
      rw [history.backoff, maxBackoff]
      omega
    refine ⟨?_, ?_, ?_, ?_, ?_, ?_, tried⟩
    · rw [streak_grows fails, history.streak]
    · simp only [paused, Nat.pow_succ]
    · rw [history.sent, List.flatMap_append, List.flatMap_singleton]
    · simp [history.pauses, fails]
    · intro pause member
      rcases List.mem_append.mp member with earlier | last
      · exact history.short pause earlier
      · rw [List.mem_singleton.mp last, paused]
        exact power
    · obtain ⟨before, split⟩ := history.doubling
      refine ⟨before, ?_⟩
      simp only [List.range_succ, List.map_append, List.map_singleton, paused, ← List.append_assoc, split]

/-- The attempts that are made are the first ones, all of them or up to the end of the first
five in a row that fail. Their events are sent on, and the pauses of an outage are 1, 2, 4, 8
and 16 seconds; the bound of 30 is never reached. -/
theorem connectAndListen_history (fromStr : List Char → Option Value) (tries : List Attempt) :
    ∃ made later, tries = made ++ later ∧ History fromStr made (connectAndListen fromStr tries) ∧
      ((connectAndListen fromStr tries).gaveUp ↔ streak made = maxReconnectAttempts) ∧
      (¬ (connectAndListen fromStr tries).gaveUp → later = []) := by
  suffices reached : ∃ made later, tries = made ++ later ∧ History fromStr made (connectAndListen fromStr tries) ∧
      streak made ≤ maxReconnectAttempts ∧ (¬ (connectAndListen fromStr tries).gaveUp → later = []) by
    obtain ⟨made, later, split, history, bounded, complete⟩ := reached
    refine ⟨made, later, split, history, ?_, complete⟩
    rw [Connection.gaveUp, history.streak]
    omega
  induction tries using List.reverseRecOn with
  | nil => exact ⟨[], [], rfl, ⟨rfl, rfl, rfl, rfl, by simp [connectAndListen, Connection.start], List.nil_suffix,
      fun earlier part proper => absurd (List.prefix_nil.mp part) proper⟩, Nat.zero_le _, fun _ => rfl⟩
  | append_singleton tries attempt ih =>
    obtain ⟨made, later, split, history, bounded, complete⟩ := ih
    have last : connectAndListen fromStr (tries ++ [attempt]) =
        reconnect fromStr (connectAndListen fromStr tries) attempt := run_append _ tries [attempt]
    by_cases ended : (connectAndListen fromStr tries).gaveUp
    · rw [last, reconnect, if_pos ended]
      exact ⟨made, later ++ [attempt], by rw [split, List.append_assoc], history, bounded, fun more => absurd ended more⟩
    · obtain rfl := complete ended
      rw [List.append_nil] at split
      subst split
      refine ⟨tries ++ [attempt], [], (List.append_nil _).symm, ?_, ?_, fun _ => rfl⟩
      · rw [last]
        exact history.round ended
      · have below := history.streak
        unfold Connection.gaveUp at ended
        cases fails : attempt.fails with
        | false => simp [streak_ended fails]
        | true =>
          rw [streak_grows fails]
          omega

end Connection

section Rows

structure Row where
  id : String
  stellarTxHash : Option String
  status : String
  deriving DecidableEq

/-- `stellar_tx_hash = $1 AND status = 'submitting'`. -/
def awaits (hash : String) (row : Row) : Bool := row.stellarTxHash = some hash && row.status = "submitting"

/-- The rows after the update, and the `id` that it returns. -/
def updateTransactionStatusByHash (rows : List Row) (hash status : String) : List Row × Option String :=
  (rows.map fun row => if awaits hash row then { row with status } else row,
    (rows.find? (awaits hash)).map Row.id)

structure Listener where
  rows : List Row
  sseStatusUpdatesTotal : Nat
  sseErrorsTotal : Nat

def newStatus (event : TransactionEvent) : String := if event.success then "success" else "failed"

/-- `process_transaction_event` on an event and whether the database can be reached for it. -/
def processTransactionEvent (listener : Listener) (delivery : TransactionEvent × Bool) : Listener :=
  if delivery.2 then
    let updated := updateTransactionStatusByHash listener.rows delivery.1.hash (newStatus delivery.1)
    match updated.2 with
    | some _ => { listener with rows := updated.1, sseStatusUpdatesTotal := listener.sseStatusUpdatesTotal + 1 }
    | none => { listener with rows := updated.1, sseErrorsTotal := listener.sseErrorsTotal + 1 }
  else { listener with sseErrorsTotal := listener.sseErrorsTotal + 1 }

/-- `start_transaction_listener`: the events come through a channel, in their order. -/
def startTransactionListener (fromStr : List Char → Option Value) (reachable : Nat → Bool) (rows : List Row)
    (tries : List Attempt) : Listener :=
  run processTransactionEvent ⟨rows, 0, 0⟩
    ((connectAndListen fromStr tries).sent.zipIdx.map fun event => (event.1, reachable event.2))

/-- The first event with its hash that gets through settles a row that waits for one. -/
def settled (deliveries : List (TransactionEvent × Bool)) (row : Row) : Row :=
  match deliveries.find? fun delivery => delivery.2 && awaits delivery.1.hash row with
  | some delivery => { row with status := newStatus delivery.1 }
  | none => row

variable {listener : Listener} {delivery : TransactionEvent × Bool} {deliveries : List (TransactionEvent × Bool)}
  {row : Row}

theorem awaits_settled (event : TransactionEvent) (hash : String) :
    awaits hash { row with status := newStatus event } = false := by
  have other : newStatus event ≠ "submitting" := by
    unfold newStatus
    split <;> decide
  simp [awaits, other]

theorem settled_of_settled (event : TransactionEvent) :
    settled deliveries { row with status := newStatus event } = { row with status := newStatus event } := by
  have none : deliveries.find? (fun delivery => delivery.2 && awaits delivery.1.hash { row with status := newStatus event })
      = none := by
    simp [awaits_settled]
  rw [settled, none]

theorem settled_cons (row : Row) :
    settled (delivery :: deliveries) row = settled deliveries (settled [delivery] row) := by
  cases here : delivery.2 && awaits delivery.1.hash row with
  | false => simp [settled, here]
  | true =>
    have first : settled [delivery] row = { row with status := newStatus delivery.1 } := by simp [settled, here]
    rw [first, settled_of_settled]
    simp [settled, here]

/-- One event settles the rows that wait for it, and is counted once. -/
theorem processTransactionEvent_step (listener : Listener) (delivery : TransactionEvent × Bool) :
    (processTransactionEvent listener delivery).rows = listener.rows.map (settled [delivery]) ∧
      (processTransactionEvent listener delivery).sseStatusUpdatesTotal +
        (processTransactionEvent listener delivery).sseErrorsTotal =
          listener.sseStatusUpdatesTotal + listener.sseErrorsTotal + 1 := by
  obtain ⟨event, reachable⟩ := delivery
  cases reachable with
  | false =>
    refine ⟨?_, (Nat.add_assoc _ _ _).symm⟩
    have kept : settled [(event, false)] = id := by
      funext row
      simp [settled]
    rw [kept, List.map_id]
    rfl
  | true =>
    have updated : listener.rows.map (settled [(event, true)]) =
        (updateTransactionStatusByHash listener.rows event.hash (newStatus event)).1 := by
      refine List.map_congr_left fun row _ => ?_
      cases waiting : awaits event.hash row <;> simp [settled, waiting]
    rw [updated, processTransactionEvent, if_pos rfl]
    dsimp only
    split
    · exact ⟨rfl, by dsimp only; omega⟩
    · exact ⟨rfl, by dsimp only; omega⟩

theorem processed_run (listener : Listener) (deliveries : List (TransactionEvent × Bool)) :
    (run processTransactionEvent listener deliveries).rows = listener.rows.map (settled deliveries) ∧
      (run processTransactionEvent listener deliveries).sseStatusUpdatesTotal +
        (run processTransactionEvent listener deliveries).sseErrorsTotal =
          listener.sseStatusUpdatesTotal + listener.sseErrorsTotal + deliveries.length := by
  induction deliveries generalizing listener with
  | nil =>
    have kept : settled [] = id := rfl
    rw [kept, List.map_id]
    exact ⟨rfl, rfl⟩
  | cons delivery deliveries ih =>
    obtain ⟨rows, counted⟩ := ih (processTransactionEvent listener delivery)
    obtain ⟨here, once⟩ := processTransactionEvent_step listener delivery
    rw [run_cons]
    constructor
    · rw [rows, here, List.map_map]
      exact List.map_congr_left fun row _ => (settled_cons row).symm
    · rw [counted, once, List.length_cons]
      omega

def submitting (row : Row) : Bool := row.status = "submitting"

theorem submitting_settled (delivery : TransactionEvent × Bool) (row : Row) :
    settled [delivery] row = row ∨ submitting (settled [delivery] row) = false := by
  cases here : delivery.2 && awaits delivery.1.hash row with
  | false => exact .inl (by simp [settled, here])
  | true =>
    have other : newStatus delivery.1 ≠ "submitting" := by
      unfold newStatus
      split <;> decide
    exact .inr (by simp [settled, here, submitting, other])

theorem submitting_fewer (delivery : TransactionEvent × Bool) (rows : List Row) :
    (rows.map (settled [delivery])).countP submitting ≤ rows.countP submitting := by
  rw [List.countP_map]
  refine List.countP_mono_left fun row _ waits => ?_
  rcases submitting_settled delivery row with kept | done
  · rwa [Function.comp_apply, kept] at waits
  · rw [Function.comp_apply, done] at waits
    cases waits

/-- An update that is counted settles a row that was waiting. -/
theorem processTransactionEvent_counts (listener : Listener) (delivery : TransactionEvent × Bool) :
    (processTransactionEvent listener delivery).sseStatusUpdatesTotal +
        (processTransactionEvent listener delivery).rows.countP submitting ≤
      listener.sseStatusUpdatesTotal + listener.rows.countP submitting := by
  have rows := (processTransactionEvent_step listener delivery).1
  have fewer := submitting_fewer delivery listener.rows
  rw [rows]
  obtain ⟨event, reachable⟩ := delivery
  cases reachable with
  | false => exact Nat.add_le_add_left fewer _
  | true =>
    rw [processTransactionEvent, if_pos rfl]
    dsimp only
    split
    · rename_i id found
      obtain ⟨row, first, -⟩ := Option.map_eq_some_iff.mp found
      have member := List.mem_of_find?_eq_some first
      have waits : awaits event.hash row = true := List.find?_some first
      have was : submitting row = true := by simp_all [awaits, submitting]
      have isnt : submitting (settled [(event, true)] row) = false := by
        rcases submitting_settled (event, true) row with kept | done
        · have settles : settled [(event, true)] row = { row with status := newStatus event } := by simp [settled, waits]
          have again : awaits event.hash { row with status := newStatus event } = false := awaits_settled event event.hash
          rw [← settles, kept, waits] at again
          cases again
        · exact done
      -- The row that was found no longer counts, and no other begins to.
      obtain ⟨before, after, split⟩ := List.append_of_mem member
      have earlier := submitting_fewer (event, true) before
      have later := submitting_fewer (event, true) after
      rw [split]
      simp only [List.map_append, List.map_cons, List.countP_append, List.countP_cons, was, isnt, if_true,
        Bool.false_eq_true, if_false]
      omega
    · exact Nat.add_le_add_left fewer _

/-- Over all that a listener hears, in whatever pieces and through however many connections:
each row ends as the first event with its hash that reached the database says, if it waited for
one, and else as it was; every event is counted once, and no more updates than rows waited. -/
theorem listener_settles (fromStr : List Char → Option Value) (reachable : Nat → Bool) (rows : List Row)
    (tries : List Attempt) :
    ∃ made later, tries = made ++ later ∧ History fromStr made (connectAndListen fromStr tries) ∧
      let deliveries := ((made.flatMap fun attempt => (subscribeToTransactions fromStr attempt).1).zipIdx.map
        fun event => (event.1, reachable event.2))
      let listener := startTransactionListener fromStr reachable rows tries
      listener.rows = rows.map (settled deliveries) ∧
        listener.sseStatusUpdatesTotal + listener.sseErrorsTotal = deliveries.length ∧
        listener.sseStatusUpdatesTotal + listener.rows.countP submitting ≤ rows.countP submitting := by
  obtain ⟨made, later, split, history, -, -⟩ := connectAndListen_history fromStr tries
  refine ⟨made, later, split, history, ?_⟩
  simp only [← history.sent]
  obtain ⟨final, counted⟩ := processed_run ⟨rows, 0, 0⟩
    ((connectAndListen fromStr tries).sent.zipIdx.map fun event => (event.1, reachable event.2))
  refine ⟨final, by simpa [startTransactionListener] using counted, ?_⟩
  refine run_invariant (fun listener : Listener =>
    listener.sseStatusUpdatesTotal + listener.rows.countP submitting ≤ rows.countP submitting) ?_ (by simp) _
  exact fun listener delivery held => (processTransactionEvent_counts listener delivery).trans held

end Rows

end AfroPay.SseStream
