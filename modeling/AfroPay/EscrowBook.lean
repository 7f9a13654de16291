import AfroPay.EscrowPrices
import AfroPay.Simulations

/-! What the escrow contract is for, without its storage: a list of agreements, the quotes that
were accepted and when each party last acted. The book never asks whether the contract can pay,
computes no average as it goes and keeps no flag; the contract cannot be told from it. -/
namespace AfroPay.Escrow
open Panics KeyedStore TokenLedger Runs Simulations

variable {Address : Type} [DecidableEq Address]

/-- What a depositor and a recipient agreed on, and when. -/
structure Agreement (Address : Type) where
  depositor : Address
  recipient : Address
  asset : Address
  amount : Int
  due : Nat
  made : Nat
  deriving DecidableEq

inductive Standing where
  | pending
  | released
  | refunded
  deriving DecidableEq

/-- Agreements are numbered from one, in the order they were made. Quotes are oldest first. -/
structure Book (Address : Type) where
  sequence : Nat
  timestamp : Nat
  admin : Option Address
  quotes : List Int
  quoted : Option Nat
  lastAction : Address → Option Nat
  agreements : List (Agreement Address × Standing)
  ledger : Ledger Address

inductive Reply where
  | done
  | average (twap : Int)
  | agreed (escrowId : Nat)
  deriving DecidableEq

/-- The item of a number, counted from one. -/
def numbered {α : Type} (items : List α) : Nat → Option α
  | 0 => none
  | index + 1 => items[index]?

namespace Book

def opened (sequence timestamp : Nat) (balances : Address → Address → Nat) : Book Address :=
  ⟨sequence, timestamp, none, [], none, fun _ => none, [], fun asset holder => balances asset holder⟩

def entry (b : Book Address) (escrowId : Nat) : Option (Agreement Address × Standing) :=
  numbered b.agreements escrowId

/-- No quote was ever off the average of its time. -/
def Calm (b : Book Address) : Prop := ¬ ∃ earlier, earlier <+: b.quotes ∧ Deviates earlier

/-- The party did not act in this ledger or the one before. -/
def Rested (b : Book Address) (party : Address) : Prop := ∀ last ∈ b.lastAction party, last + minLedgerGap ≤ b.sequence

/-- What the sums over these quotes need of 128 bits. -/
structure Fits (quotes : List Int) : Prop where
  total : quotes.headD 0 + quotes.sum ≤ i128Max
  count : quotes.length ≤ u64Max
  distance : minTwapSamples ≤ quotes.length → |quotes.getLastD 0 - storedAverage quotes| * 10000 ≤ i128Max

/-- When a call is honoured. -/
def Allows (self : Address) (b : Book Address) (auths : List Address) : Call Address → Prop
  | .initializeAdmin admin => b.admin = none ∧ admin ∈ auths ∧ admin ≠ self
  | .migrate admin => b.admin = some admin ∧ admin ∈ auths ∧ admin ≠ self
  | .updatePrice spotPrice =>
    0 < spotPrice ∧ (∀ last ∈ b.quoted, last ≠ 0 → last < b.sequence) ∧ Fits (b.quotes ++ [spotPrice])
  | .deposit sender amount asset _ releaseTimestamp =>
    sender ∈ auths ∧ sender ≠ self ∧ 0 < amount ∧ b.Calm ∧ b.Rested sender ∧ b.timestamp < releaseTimestamp ∧
      amount ≤ b.ledger asset sender ∧ b.agreements.length < u64Max
  | .release escrowId => ∃ agreement, b.entry escrowId = some (agreement, .pending) ∧ b.Calm ∧
      b.Rested agreement.depositor ∧ agreement.due ≤ b.timestamp
  | .refund escrowId => ∃ agreement, b.entry escrowId = some (agreement, .pending) ∧
      agreement.depositor ∈ auths ∧ b.timestamp < agreement.due

def acts (b : Book Address) (party : Address) : Book Address :=
  { b with lastAction := Function.update b.lastAction party (some b.sequence) }

/-- The agreement is settled, and its amount goes to one of its parties. -/
def settle (self : Address) (b : Book Address) (escrowId : Nat) (agreement : Agreement Address) (standing : Standing)
    (party : Address) : Book Address :=
  { b with
    agreements := b.agreements.set (escrowId - 1) (agreement, standing)
    ledger := b.ledger + flow agreement.asset self party agreement.amount }

/-- What an honoured call does. -/
def perform (self : Address) (b : Book Address) : Call Address → Book Address
  | .initializeAdmin admin => { b with admin := some admin }
  | .migrate _ => b
  | .updatePrice spotPrice => { b with quotes := b.quotes ++ [spotPrice], quoted := some b.sequence }
  | .deposit sender amount asset recipient releaseTimestamp =>
    { b.acts sender with
      agreements := b.agreements ++ [(⟨sender, recipient, asset, amount, releaseTimestamp, b.timestamp⟩, .pending)]
      ledger := b.ledger + flow asset sender self amount }
  | .release escrowId =>
    match b.entry escrowId with
    | some (agreement, _) =>
      (b.acts agreement.depositor).settle self escrowId agreement .released agreement.recipient
    | none => b
  | .refund escrowId =>
    match b.entry escrowId with
    | some (agreement, _) => b.settle self escrowId agreement .refunded agreement.depositor
    | none => b

def reply (b : Book Address) : Call Address → Reply
  | .updatePrice spotPrice => .average (storedAverage (b.quotes ++ [spotPrice]))
  | .deposit .. => .agreed (b.agreements.length + 1)
  | _ => .done

open Classical in
/-- A call that is not honoured gets no reply. -/
noncomputable def answer (self : Address) (b : Book Address) : Event Address → Option Reply
  | .call auths call => if b.Allows self auths call then some (b.reply call) else none
  | _ => none

open Classical in
noncomputable def step (self : Address) (b : Book Address) : Event Address → Book Address
  | .call auths call => if b.Allows self auths call then b.perform self call else b
  | .advance ledgers seconds => { b with sequence := b.sequence + ledgers, timestamp := b.timestamp + seconds }
  | .token activity => { b with ledger := activity.apply self b.ledger }

end Book

/-- What the contract returns, if it does not panic. -/
def respond (w : World Address) (auths : List Address) : Call Address → Except String (World Address × Reply)
  | .updatePrice spotPrice => (fun result => (result.1, .average result.2)) <$> updatePrice w spotPrice
  | .deposit sender amount asset recipient releaseTimestamp =>
    (fun result => (result.1, .agreed result.2)) <$> deposit w auths sender amount asset recipient releaseTimestamp
  | call => (fun after => (after, .done)) <$> exec w auths call

def answer (w : World Address) : Event Address → Option Reply
  | .call auths call => (respond w auths call).toOption.map Prod.snd
  | _ => none

/-- How an agreement is stored. -/
def Agreement.record (agreement : Agreement Address) (standing : Standing) : EscrowRecord Address :=
  ⟨agreement.depositor, agreement.recipient, agreement.amount, agreement.asset, agreement.due, agreement.made,
    standing = .released, standing = .refunded⟩

/-- The contract's storage shows what the book says. -/
structure Shows (contract : Address) (w : World Address) (b : Book Address) : Prop where
  itself : w.self = contract
  sequence : w.sequence = b.sequence
  timestamp : w.timestamp = b.timestamp
  admin : w.admin = b.admin
  version : w.storageVersion = b.admin.map fun _ => storageVersionCurrent
  counter : w.escrowCounter = b.agreements.length
  records : ∀ escrowId, w.escrows.lookup escrowId = (b.entry escrowId).map fun entry => entry.1.record entry.2
  quotes : Recorded w b.quotes
  quoted : w.priceFeed.map (·.lastLedger) = b.quoted
  actions : ∀ party, w.userActionLedger.lookup party = b.lastAction party
  ledger : w.ledger = b.ledger
  custody : Custody w
  guarded : Guarded w

variable {self : Address} {w after : World Address} {b : Book Address} {auths : List Address} {call : Call Address}

omit [DecidableEq Address] in
theorem map_ok {Failure α β : Type} {f : α → β} {outcome : Except Failure α} {result : β} :
    (f <$> outcome) = .ok result ↔ ∃ value, outcome = .ok value ∧ f value = result := by
  cases outcome <;> simp [Functor.map, Except.map]

/-- A reply is given just when the call goes through. -/
theorem respond_exec (w : World Address) (auths : List Address) (call : Call Address) :
    Prod.fst <$> respond w auths call = exec w auths call := by
  cases call with
  | updatePrice spotPrice => simp only [respond, exec, Functor.map_map]
  | deposit sender amount asset recipient releaseTimestamp => simp only [respond, exec, Functor.map_map]
  | initializeAdmin | migrate | release | refund => simp only [respond, Functor.map_map, id_map']

theorem respond_step {result : World Address × Reply} (ok : respond w auths call = .ok result) :
    step w (.call auths call) = result.1 := by
  have done : exec w auths call = .ok result.1 := by
    rw [← respond_exec, ok]
    rfl
  rw [step, done]

theorem respond_refused {text : String} (refused : respond w auths call = .error text) :
    step w (.call auths call) = w := by
  have failed : exec w auths call = .error text := by
    rw [← respond_exec, refused]
    rfl
  rw [step, failed]

section Quotes

/-- The distance of a price from an average, both in range, needs no more than its product to fit. -/
theorem deviationBps_defined {lastPrice twap : Int} (price : 0 < lastPrice ∧ lastPrice ≤ i128Max)
    (average : 0 < twap ∧ twap ≤ i128Max) :
    (∃ deviation, deviationBps lastPrice twap = .ok deviation) ↔ |lastPrice - twap| * 10000 ≤ i128Max := by
  have bounds : i128Min ≤ lastPrice - twap ∧ lastPrice - twap ≤ i128Max := by
    simp only [i128Min, i128Max] at *
    omega
  have distance : i128Min ≤ |lastPrice - twap| ∧ |lastPrice - twap| ≤ i128Max := by
    have below := abs_le.mpr (⟨by omega, by omega⟩ : -i128Max ≤ lastPrice - twap ∧ lastPrice - twap ≤ i128Max)
    exact ⟨(by decide : i128Min ≤ 0).trans (abs_nonneg _), below⟩
  have scaled := mul_nonneg (abs_nonneg (lastPrice - twap)) (by decide : (0 : Int) ≤ 10000)
  simp only [deviationBps, bind_ok, fit_ok, panicIf_ok, exists_const]
  constructor
  · rintro ⟨_, _, ⟨rfl, -⟩, _, ⟨rfl, -⟩, _, ⟨rfl, -, fits⟩, -⟩
    exact fits
  · intro fits
    have quotient := Int.tdiv_eq_ediv_of_nonneg (b := twap) scaled
    refine ⟨_, _, ⟨rfl, bounds⟩, _, ⟨rfl, distance⟩, _, ⟨rfl, (by decide : i128Min ≤ 0).trans scaled, fits⟩,
      average.1.ne', rfl, ?_⟩
    rw [quotient]
    exact ⟨(by decide : i128Min ≤ 0).trans (Int.ediv_nonneg scaled average.1.le),
      (Int.ediv_le_self _ scaled).trans fits⟩

theorem storedAverage_bounds {prices : List Int} (nonempty : prices ≠ []) (positive : ∀ price ∈ prices, 0 < price) :
    0 < storedAverage prices ∧ storedAverage prices ≤ prices.headD 0 + prices.sum := by
  have length : 0 < (prices.length : Int) := by exact_mod_cast List.length_pos_iff.mpr nonempty
  have least : (prices.length : Int) ≤ prices.sum := by
    simpa using List.card_nsmul_le_sum prices 1 fun price member => positive price member
  have total := (storedAverage_nonneg positive).1
  have head : 0 ≤ prices.headD 0 := by
    cases prices with
    | nil => exact le_rfl
    | cons first rest => exact (positive first List.mem_cons_self).le
  refine ⟨(Int.le_ediv_iff_mul_le length).mpr ?_, Int.ediv_le_self _ total⟩
  linarith

/-- The feed can average what it has recorded as long as the last quote's distance fits. -/
theorem averaged_defined {feed : PriceFeedState} {prices : List Int} {price : Int}
    (positive : ∀ p ∈ prices ++ [price], 0 < p)
    (cumulative : feed.cumulativePrice = (prices ++ [price]).headD 0 + (prices ++ [price]).sum)
    (samples : feed.sampleCount = (prices ++ [price]).length) (last : feed.lastPrice = price)
    (total : (prices ++ [price]).headD 0 + (prices ++ [price]).sum ≤ i128Max) :
    (∃ after, feed.averaged = .ok after) ↔ (minTwapSamples ≤ (prices ++ [price]).length →
      |(prices ++ [price]).getLastD 0 - storedAverage (prices ++ [price])| * 10000 ≤ i128Max) := by
  have nonempty : prices ++ [price] ≠ [] := by simp
  have lastD : (prices ++ [price]).getLastD 0 = price := List.getLastD_concat
  obtain ⟨average_pos, average_le⟩ := storedAverage_bounds nonempty positive
  have total_nonneg := (storedAverage_nonneg positive).1
  have average : feed.cumulativePrice.tdiv feed.sampleCount = storedAverage (prices ++ [price]) := by
    rw [cumulative, samples, Int.tdiv_eq_ediv_of_nonneg total_nonneg, storedAverage]
  have price_le : price ≤ i128Max := by
    have member := List.single_le_sum (fun p member => (positive p member).le) price
      (List.mem_append_right prices (List.mem_singleton_self price))
    have head : 0 ≤ (prices ++ [price]).headD 0 := by
      cases prices with
      | nil => exact (positive price (by simp)).le
      | cons first rest => exact (positive first (by simp)).le
    linarith
  have fits : i128Min ≤ storedAverage (prices ++ [price]) ∧ storedAverage (prices ++ [price]) ≤ i128Max :=
    ⟨(by decide : i128Min ≤ 0).trans average_pos.le, average_le.trans total⟩
  have distance := deviationBps_defined ⟨positive price (by simp), price_le⟩ ⟨average_pos, fits.2⟩
  rw [lastD, ← samples]
  simp only [PriceFeedState.averaged, bind_ok, fit_ok, average, last]
  constructor
  · rintro ⟨after, _, ⟨rfl, -⟩, ok⟩ many
    rw [if_pos many] at ok
    simp only [bind_ok] at ok
    obtain ⟨deviation, computed, -⟩ := ok
    exact distance.mp ⟨deviation, computed⟩
  · intro near
    refine Exists.imp (fun after ok => ⟨_, ⟨rfl, fits⟩, ok⟩) ?_
    by_cases many : minTwapSamples ≤ feed.sampleCount
    · obtain ⟨deviation, computed⟩ := distance.mpr (near many)
      rw [if_pos many, computed]
      exact ⟨_, rfl⟩
    · rw [if_neg many]
      exact ⟨_, rfl⟩

omit [DecidableEq Address] in
/-- With one more quote the feed holds the sum and number of all. -/
theorem recorded_sums {prices : List Int} (recorded : Recorded w prices) (spotPrice : Int) :
    (w.priceFeed.getD (.opening spotPrice)).cumulativePrice + spotPrice =
        (prices ++ [spotPrice]).headD 0 + (prices ++ [spotPrice]).sum ∧
      (w.priceFeed.getD (.opening spotPrice)).sampleCount + 1 = (prices ++ [spotPrice]).length ∧
      ∀ price ∈ prices, 0 < price := by
  unfold Recorded at recorded
  cases stored : w.priceFeed with
  | none =>
    rw [stored] at recorded
    subst recorded
    simp [PriceFeedState.opening]
  | some feed =>
    rw [stored] at recorded
    have head : (prices ++ [spotPrice]).headD 0 = prices.headD 0 := by
      cases prices with
      | nil => exact absurd rfl recorded.nonempty
      | cons first rest => rfl
    refine ⟨?_, by simpa using recorded.samples, recorded.positive⟩
    rw [head, List.sum_append, List.sum_singleton, ← add_assoc, ← recorded.cumulative]
    rfl

omit [DecidableEq Address] in
/-- When a quote is accepted. -/
theorem updatePrice_defined {prices : List Int} (recorded : Recorded w prices) (spotPrice : Int) :
    (∃ result, updatePrice w spotPrice = .ok result) ↔
      0 < spotPrice ∧ (∀ last ∈ w.priceFeed.map (·.lastLedger), last ≠ 0 → last < w.sequence) ∧
        Book.Fits (prices ++ [spotPrice]) := by
  obtain ⟨cumulative, samples, earlier⟩ := recorded_sums recorded spotPrice
  have positives (positive : 0 < spotPrice) : ∀ price ∈ prices ++ [spotPrice], 0 < price := by
    intro price member
    rcases List.mem_append.mp member with old | last
    · exact earlier price old
    · rwa [List.mem_singleton.mp last]
  have later : (∀ last ∈ w.priceFeed.map (·.lastLedger), last ≠ 0 → last < w.sequence) ↔
      ¬ ((w.priceFeed.getD (.opening spotPrice)).lastLedger ≠ 0 ∧
        w.sequence ≤ (w.priceFeed.getD (.opening spotPrice)).lastLedger) := by
    cases w.priceFeed with
    | none => simp [PriceFeedState.opening]
    | some feed => simp
  rw [later]
  simp only [updatePrice, bind_ok, panicIf_ok, exists_const, fit_ok, fitU64_ok, pure_ok]
  constructor
  · rintro ⟨result, positive, ledger, _, ⟨rfl, -, total⟩, _, ⟨rfl, count⟩, feed, averaged, -⟩
    rw [cumulative] at total
    have positives := positives (not_le.mp positive)
    have distance := (averaged_defined positives (by exact cumulative) (by exact samples) rfl total).mp ⟨feed, averaged⟩
    exact ⟨not_le.mp positive, ledger, total, samples ▸ count, distance⟩
  · rintro ⟨positive, ledger, fits⟩
    have positives := positives positive
    obtain ⟨feed, averaged⟩ : ∃ after, PriceFeedState.averaged { w.priceFeed.getD (.opening spotPrice) with
        cumulativePrice := _, sampleCount := _, lastPrice := spotPrice } = .ok after :=
      (averaged_defined positives cumulative samples rfl fits.total).mpr fits.distance
    have total := (by decide : i128Min ≤ 0).trans (storedAverage_nonneg positives).1
    exact ⟨_, not_le.mpr positive, ledger, _, ⟨rfl, cumulative ▸ total, cumulative ▸ fits.total⟩, _,
      ⟨rfl, samples ▸ fits.count⟩, feed, averaged, rfl⟩

end Quotes

section Reading
variable (shows : Shows self w b)
include shows

theorem Shows.calm_iff : validatePriceGuard w = .ok () ↔ b.Calm := by
  have status : priceGuardStatus w = true ↔ b.Calm := by
    have quotes := shows.quotes
    unfold Recorded at quotes
    unfold priceGuardStatus Book.Calm
    cases stored : w.priceFeed with
    | none =>
      rw [stored] at quotes
      simp [quotes, Deviates, minTwapSamples]
    | some feed =>
      rw [stored] at quotes
      simp [← quotes.suspension]
  rw [← status]
  constructor
  · intro passes
    by_contra suspended
    exact suspended_blocks (by simpa using suspended) passes
  · exact shows.guarded.passes

theorem Shows.rested_iff {party : Address} : enforceUserBlockDelay w party = .ok after ↔
    b.Rested party ∧ { w with userActionLedger := w.userActionLedger.insert party w.sequence } = after := by
  rw [enforceUserBlockDelay_ok, shows.actions, shows.sequence]
  refine and_congr_left fun _ => ?_
  simp only [Book.Rested, not_exists, not_and, minLedgerGap]
  refine forall_congr' fun last => imp_congr_right fun _ => ?_
  omega

/-- A pending agreement is stored as an open record. -/
theorem Shows.stored {escrowId : Nat} {agreement : Agreement Address} {standing : Standing}
    (found : b.entry escrowId = some (agreement, standing)) :
    w.escrows.lookup escrowId = some (agreement.record standing) := by
  rw [shows.records, found]
  rfl

/-- An open record is a pending agreement. -/
theorem Shows.pending {escrowId : Nat} {record : EscrowRecord Address}
    (found : w.escrows.lookup escrowId = some record) (unsettled : record.unsettled) :
    ∃ agreement, b.entry escrowId = some (agreement, .pending) ∧ record = agreement.record .pending := by
  rw [shows.records] at found
  obtain ⟨⟨agreement, standing⟩, entered, rfl⟩ := Option.map_eq_some_iff.mp found
  cases standing with
  | pending => exact ⟨agreement, entered, rfl⟩
  | released => exact absurd unsettled.1 (by simp [Agreement.record])
  | refunded => exact absurd unsettled.2 (by simp [Agreement.record])

/-- The contract can always pay what is pending. -/
theorem Shows.payable {escrowId : Nat} {agreement : Agreement Address}
    (found : b.entry escrowId = some (agreement, .pending)) (party : Address) :
    transfer w.ledger agreement.asset w.self party agreement.amount =
      .ok (b.ledger + flow agreement.asset self party agreement.amount) := by
  obtain ⟨ledger, moved⟩ := shows.custody.affords (shows.stored found) ⟨rfl, rfl⟩ party
  obtain ⟨-, -, rfl⟩ := transfer_flow.mp moved
  rw [← shows.ledger, ← shows.itself]
  exact moved

end Reading

section Entries
variable {α : Type} {items : List α} {item : α} {number : Nat}

theorem numbered_set {before : α} (found : numbered items number = some before) (other : Nat) :
    numbered (items.set (number - 1) item) other = if other = number then some item else numbered items other := by
  cases number with
  | zero => cases found
  | succ index =>
    have within : index < items.length := (List.getElem?_eq_some_iff.mp found).1
    cases other with
    | zero => rfl
    | succ place =>
      simp only [numbered, Nat.add_sub_cancel, List.getElem?_set, Nat.add_right_cancel_iff, within, if_true, eq_comm]

theorem numbered_concat (other : Nat) :
    numbered (items ++ [item]) other = if other = items.length + 1 then some item else numbered items other := by
  cases other with
  | zero => rfl
  | succ index =>
    simp only [numbered, List.getElem?_append, Nat.add_right_cancel_iff]
    split
    · rename_i earlier
      rw [if_neg earlier.ne]
    · rename_i beyond
      split
      · rename_i last
        simp [last]
      · rename_i past
        have out : items.length < index := by omega
        simp [out.le, Nat.sub_ne_zero_of_lt out]

end Entries

section Writing
variable (shows : Shows self w b)
include shows

theorem Shows.acted (party other : Address) :
    (w.userActionLedger.insert party w.sequence).lookup other = (b.acts party).lastAction other := by
  by_cases same : other = party
  · subst same
    simp [Book.acts, shows.sequence]
  · rw [AList.lookup_insert_ne same, shows.actions]
    exact (Function.update_of_ne same _ _).symm

theorem Shows.agreed (agreement : Agreement Address) (standing : Standing) (escrowId : Nat) :
    (w.escrows.insert (w.escrowCounter + 1) (agreement.record standing)).lookup escrowId =
      (numbered (b.agreements ++ [(agreement, standing)]) escrowId).map fun entry => entry.1.record entry.2 := by
  rw [numbered_concat, shows.counter]
  split
  · rename_i last
    rw [last, AList.lookup_insert]
    rfl
  · rename_i other
    rw [AList.lookup_insert_ne other]
    exact shows.records escrowId

theorem Shows.settled {number : Nat} {agreement : Agreement Address} {before : Standing}
    (found : b.entry number = some (agreement, before)) (standing : Standing) (escrowId : Nat) :
    (w.escrows.insert number (agreement.record standing)).lookup escrowId =
      (numbered (b.agreements.set (number - 1) (agreement, standing)) escrowId).map fun entry =>
        entry.1.record entry.2 := by
  rw [numbered_set found]
  split
  · rename_i same
    rw [same, AList.lookup_insert]
    rfl
  · rename_i other
    rw [AList.lookup_insert_ne other]
    exact shows.records escrowId

end Writing

section Calls

/-- A call that goes through is one that the book honours, with the book's reply and effect. -/
theorem Shows.allowed {result : World Address × Reply} (shows : Shows self w b)
    (ok : respond w auths call = .ok result) :
    b.Allows self auths call ∧ result.2 = b.reply call ∧ Shows self result.1 (b.perform self call) := by
  have custody := custody_step shows.custody (.call auths call)
  have guarded := guarded_step shows.guarded (.call auths call)
  rw [respond_step ok] at custody guarded
  cases call with
  | initializeAdmin admin =>
    simp only [respond, exec, map_ok, initializeAdmin, bind_ok, panicIf_ok, requireAuth_ok, pure_ok, exists_const] at ok
    obtain ⟨_, ⟨fresh, ⟨authorised, outside⟩, rfl⟩, rfl⟩ := ok
    have fresh : b.admin = none := by simpa [shows.admin] using fresh
    exact ⟨⟨fresh, authorised, shows.itself ▸ outside⟩, rfl,
      { shows with admin := rfl, version := rfl, custody := custody, guarded := guarded }⟩
  | migrate admin =>
    simp only [respond, exec, map_ok, migrate, bind_ok, panicIf_ok, requireAuth_ok, expect_ok, exists_const] at ok
    obtain ⟨_, ⟨⟨authorised, outside⟩, stored, known, same, newer, ok⟩, rfl⟩ := ok
    obtain rfl : admin = stored := not_not.mp same
    have current : w.storageVersion = some storageVersionCurrent := by
      rw [shows.version, ← shows.admin, known]
      rfl
    simp only [current, Option.getD_some, lt_irrefl, if_false, pure_ok] at ok
    subst ok
    exact ⟨⟨shows.admin ▸ known, authorised, shows.itself ▸ outside⟩, rfl, shows⟩
  | updatePrice spotPrice =>
    simp only [respond, map_ok] at ok
    obtain ⟨⟨_, twap⟩, quoted, rfl⟩ := ok
    obtain ⟨feed, rfl, rfl, tracks⟩ := updatePrice_tracks shows.quotes quoted
    obtain ⟨positive, later, fits⟩ := (updatePrice_defined shows.quotes spotPrice).mp ⟨_, quoted⟩
    rw [shows.quoted, shows.sequence] at later
    refine ⟨⟨positive, later, fits⟩, congrArg Reply.average tracks.average,
      { shows with quotes := tracks, quoted := ?_, custody := custody, guarded := guarded }⟩
    simp only [updatePrice, bind_ok, pure_ok, Prod.mk.injEq] at quoted
    obtain ⟨-, -, -, -, _, -, _, -, averaged, -, frame, -⟩ := quoted
    obtain rfl : _ = feed := by simpa using congrArg World.priceFeed frame
    exact congrArg some shows.sequence
  | deposit sender amount asset recipient releaseTimestamp =>
    simp only [respond, map_ok, deposit, bind_ok, panicIf_ok, requireAuth_ok, shows.rested_iff, fitU64_ok, pure_ok,
      exists_const] at ok
    obtain ⟨_, ⟨⟨authorised, outside⟩, positive, ⟨⟩, passes, _, ⟨rested, rfl⟩, future, ledger, moved, _, ⟨rfl, room⟩,
      rfl⟩, rfl⟩ := ok
    obtain ⟨-, funded, rfl⟩ := transfer_flow.mp moved
    refine ⟨⟨authorised, shows.itself ▸ outside, not_le.mp positive, shows.calm_iff.mp passes, rested, ?_, ?_, ?_⟩,
      congrArg Reply.agreed (congrArg (· + 1) shows.counter), ?_⟩
    · rw [← shows.timestamp]
      exact not_le.mp future
    · rw [← shows.ledger]
      exact funded
    · rw [← shows.counter]
      exact room
    · exact { shows with
        counter := by simp [Book.perform, shows.counter]
        records := by
          rw [shows.timestamp]
          exact shows.agreed ⟨sender, recipient, asset, amount, releaseTimestamp, b.timestamp⟩ .pending
        actions := shows.acted sender
        ledger := by rw [shows.ledger, shows.itself]; rfl
        custody := custody
        guarded := guarded }
  | release escrowId =>
    simp only [respond, exec, map_ok, release, bind_ok, expect_ok, panicIf_ok, shows.rested_iff, payOut_ok, pure_ok,
      exists_const] at ok
    obtain ⟨_, ⟨record, found, unreleased, unrefunded, ⟨⟩, passes, _, ⟨rested, rfl⟩, due, _, ⟨ledger, moved, rfl⟩, rfl⟩,
      rfl⟩ := ok
    obtain ⟨agreement, pending, rfl⟩ := shows.pending found ⟨by simpa using unreleased, by simpa using unrefunded⟩
    obtain rfl : _ = ledger := Except.ok.inj ((shows.payable pending agreement.recipient).symm.trans moved)
    refine ⟨⟨agreement, pending, shows.calm_iff.mp passes, rested, ?_⟩, rfl, ?_⟩
    · rw [← shows.timestamp]
      exact not_lt.mp due
    · rw [Book.perform, pending]
      exact { shows with
        counter := by simp [Book.settle, Book.acts, shows.counter]
        records := shows.settled pending .released
        actions := shows.acted agreement.depositor
        ledger := rfl
        custody := custody
        guarded := guarded }
  | refund escrowId =>
    simp only [respond, exec, map_ok, refund, bind_ok, expect_ok, panicIf_ok, requireAuth_ok, payOut_ok, pure_ok,
      exists_const] at ok
    obtain ⟨_, ⟨record, found, ⟨authorised, -⟩, unreleased, unrefunded, early, _, ⟨ledger, moved, rfl⟩, rfl⟩, rfl⟩ := ok
    obtain ⟨agreement, pending, rfl⟩ := shows.pending found ⟨by simpa using unreleased, by simpa using unrefunded⟩
    obtain rfl : _ = ledger := Except.ok.inj ((shows.payable pending agreement.depositor).symm.trans moved)
    refine ⟨⟨agreement, pending, authorised, ?_⟩, rfl, ?_⟩
    · rw [← shows.timestamp]
      exact not_le.mp early
    · rw [Book.perform, pending]
      exact { shows with
        counter := by simp [Book.settle, shows.counter]
        records := shows.settled pending .refunded
        ledger := rfl
        custody := custody
        guarded := guarded }

/-- A call that the book honours goes through. -/
theorem Shows.honoured (shows : Shows self w b) (allowed : b.Allows self auths call) :
    ∃ result, respond w auths call = .ok result := by
  cases call with
  | initializeAdmin admin =>
    obtain ⟨fresh, authorised, outside⟩ := allowed
    simp only [respond, exec, map_ok, initializeAdmin, bind_ok, panicIf_ok, requireAuth_ok, pure_ok, exists_const,
      shows.admin, shows.itself, fresh]
    exact ⟨_, _, ⟨by simp, ⟨authorised, outside⟩, rfl⟩, rfl⟩
  | migrate admin =>
    obtain ⟨known, authorised, outside⟩ := allowed
    have current : w.storageVersion = some storageVersionCurrent := by
      rw [shows.version, known]
      rfl
    simp only [respond, exec, map_ok, migrate, bind_ok, panicIf_ok, requireAuth_ok, expect_ok, exists_const,
      shows.admin, shows.itself, known, current]
    exact ⟨_, _, ⟨⟨authorised, outside⟩, admin, rfl, by simp, by simp, rfl⟩, rfl⟩
  | updatePrice spotPrice =>
    obtain ⟨positive, later, fits⟩ := allowed
    rw [← shows.quoted, ← shows.sequence] at later
    obtain ⟨result, quoted⟩ := (updatePrice_defined shows.quotes spotPrice).mpr ⟨positive, later, fits⟩
    exact ⟨_, map_ok.mpr ⟨result, quoted, rfl⟩⟩
  | deposit sender amount asset recipient releaseTimestamp =>
    obtain ⟨authorised, outside, positive, calm, rested, future, funded, room⟩ := allowed
    rw [← shows.timestamp] at future
    rw [← shows.ledger] at funded
    rw [← shows.counter] at room
    simp only [respond, map_ok, deposit, bind_ok, panicIf_ok, requireAuth_ok, shows.rested_iff, fitU64_ok, pure_ok,
      exists_const, shows.itself]
    exact ⟨_, _, ⟨⟨authorised, outside⟩, not_le.mpr positive, (), shows.calm_iff.mpr calm, _, ⟨rested, rfl⟩,
      not_le.mpr future, _, transfer_flow.mpr ⟨positive.le, funded, rfl⟩, _, ⟨rfl, room⟩, rfl⟩, rfl⟩
  | release escrowId =>
    obtain ⟨agreement, pending, calm, rested, due⟩ := allowed
    rw [← shows.timestamp] at due
    simp only [respond, exec, map_ok, release, bind_ok, expect_ok, panicIf_ok, shows.rested_iff, payOut_ok, pure_ok,
      exists_const]
    exact ⟨_, _, ⟨_, shows.stored pending, by simp [Agreement.record], by simp [Agreement.record], (),
      shows.calm_iff.mpr calm, _, ⟨rested, rfl⟩, not_lt.mpr due, _, ⟨_, shows.payable pending agreement.recipient, rfl⟩,
      rfl⟩, rfl⟩
  | refund escrowId =>
    obtain ⟨agreement, pending, authorised, early⟩ := allowed
    rw [← shows.timestamp] at early
    have outside := (shows.custody.sound escrowId _ (shows.stored pending)).2
    simp only [respond, exec, map_ok, refund, bind_ok, expect_ok, panicIf_ok, requireAuth_ok, payOut_ok, pure_ok,
      exists_const]
    exact ⟨_, _, ⟨_, shows.stored pending, ⟨authorised, outside⟩, by simp [Agreement.record], by simp [Agreement.record],
      not_le.mpr early, _, ⟨_, shows.payable pending agreement.depositor, rfl⟩, rfl⟩, rfl⟩

end Calls

theorem shows_opened (self : Address) (sequence timestamp : Nat) (balances : Address → Address → Nat) :
    Shows self (World.deployed self sequence timestamp balances) (Book.opened sequence timestamp balances) where
  itself := rfl
  sequence := rfl
  timestamp := rfl
  admin := rfl
  version := rfl
  counter := rfl
  records escrowId := by cases escrowId <;> rfl
  quotes := recorded_deployed self sequence timestamp balances
  quoted := rfl
  actions _ := rfl
  ledger := rfl
  custody := custody_deployed self sequence timestamp balances
  guarded := guarded_deployed self sequence timestamp balances

/-- Every event leaves the contract showing the book, and gets the book's answer. -/
theorem escrow_agrees (self : Address) :
    Agree (step : World Address → Event Address → World Address) answer (Book.step self) (Book.answer self)
      (Shows self) where
  stays {w b} event shows := by
    cases event with
    | call auths call =>
      by_cases allowed : b.Allows self auths call
      · obtain ⟨result, ok⟩ := shows.honoured allowed
        rw [respond_step ok, Book.step, if_pos allowed]
        exact (shows.allowed ok).2.2
      · rw [Book.step, if_neg allowed]
        cases outcome : respond w auths call with
        | ok result => exact absurd (shows.allowed outcome).1 allowed
        | error text => rwa [respond_refused outcome]
    | advance ledgers seconds =>
      exact { shows with
        sequence := congrArg (· + ledgers) shows.sequence
        timestamp := congrArg (· + seconds) shows.timestamp
        custody := custody_step shows.custody (.advance ledgers seconds)
        guarded := guarded_step shows.guarded (.advance ledgers seconds) }
    | token activity =>
      exact { shows with
        ledger := by rw [step, shows.itself, shows.ledger]; rfl
        custody := custody_step shows.custody (.token activity)
        guarded := guarded_step shows.guarded (.token activity) }
  same {w b} event shows := by
    cases event with
    | call auths call =>
      by_cases allowed : b.Allows self auths call
      · obtain ⟨result, ok⟩ := shows.honoured allowed
        rw [answer, Book.answer, ok, if_pos allowed, ← (shows.allowed ok).2.1]
        rfl
      · rw [answer, Book.answer, if_neg allowed]
        cases outcome : respond w auths call with
        | ok result => exact absurd (shows.allowed outcome).1 allowed
        | error text => rfl
    | advance | token => rfl

/-- The contract cannot be told from the book: after any run it shows the book's agreements,
quotes, actions and balances, and all calls of the run got the same answers from both. -/
theorem contract_refines_book (self : Address) (sequence timestamp : Nat) (balances : Address → Address → Nat)
    (events : List (Event Address)) :
    Shows self (run step (World.deployed self sequence timestamp balances) events)
        (run (Book.step self) (Book.opened sequence timestamp balances) events) ∧
      answers step answer (World.deployed self sequence timestamp balances) events =
        answers (Book.step self) (Book.answer self) (Book.opened sequence timestamp balances) events :=
  ⟨(escrow_agrees self).run (shows_opened self sequence timestamp balances) events,
    (escrow_agrees self).answers (shows_opened self sequence timestamp balances) events⟩

end AfroPay.Escrow
