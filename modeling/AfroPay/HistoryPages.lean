import AfroPay.FallingOrders

/-! `getHistory` page by page. Every page is a query of its own, and the rows are ordered by
`createdAt` alone: the database may order rows with one `createdAt` differently each time. -/
namespace AfroPay.History
open FallingOrders

def historyMaxLimit : Int := 100

def historyDefaultLimit : Int := 25

/-- What a query reads of a `Transaction`. The id is a UUID; `createdAt` is in milliseconds. -/
structure Transaction where
  id : String
  userId : String
  createdAt : Int
  id_nonempty : id ≠ ""
  deriving DecidableEq

/-- The table; the id is its primary key. -/
structure Table where
  rows : List Transaction
  ids_distinct : (rows.map (·.id)).Nodup

structure GetHistoryOptions where
  limit : Option Int
  cursor : Option String
  deriving DecidableEq

structure PaginatedHistory where
  data : List Transaction
  nextCursor : Option String
  total : Nat
  deriving DecidableEq

inductive Exception where
  | badRequest (message : String)
  deriving DecidableEq

/-- `where: { userId }` -/
def Table.ofUser (table : Table) (userId : String) : List Transaction := table.rows.filter (·.userId = userId)

/-- The rows behind the cursor row, or all of them without a cursor. -/
def behind (ordered : List Transaction) : Option String → List Transaction
  | none => ordered
  | some cursor => (ordered.dropWhile (·.id ≠ cursor)).drop 1

/-- The database gives the rows of the user in some order by `createdAt`. -/
def getHistory (table : Table) (userId : String) (ordered : List Transaction) (options : GetHistoryOptions) :
    Except Exception PaginatedHistory :=
  let rawLimit := options.limit.getD historyDefaultLimit
  if rawLimit > historyMaxLimit then
    .error (.badRequest s!"limit must not exceed 100. Received: {rawLimit}")
  else
    let limit := (max 1 rawLimit).toNat
    -- An empty cursor is none.
    let cursor := options.cursor.filter (· ≠ "")
    let total := (table.ofUser userId).length
    let rows := (behind ordered cursor).take (limit + 1)
    let hasNextPage := rows.length > limit
    let data := if hasNextPage then rows.take limit else rows
    let nextCursor := if hasNextPage then data.getLast?.map (·.id) else none
    .ok ⟨data, nextCursor, total⟩

/-- Following `nextCursor` from the given query on until it is null visits these rows. -/
inductive Follows (table : Table) (userId : String) (orders : Nat → List Transaction) (limit : Nat) :
    Nat → Option String → List Transaction → Prop where
  | last (query : Nat) (cursor : Option String) (page : PaginatedHistory)
      (found : getHistory table userId (orders query) ⟨some limit, cursor⟩ = .ok page)
      (done : page.nextCursor = none) : Follows table userId orders limit query cursor page.data
  | next (query : Nat) (cursor : Option String) (page : PaginatedHistory) (next : String) (visited : List Transaction)
      (found : getHistory table userId (orders query) ⟨some limit, cursor⟩ = .ok page)
      (more : page.nextCursor = some next) (rest : Follows table userId orders limit (query + 1) (some next) visited) :
      Follows table userId orders limit query cursor (page.data ++ visited)

/-- In whatever order each query finds the rows, the pages visit every row of the user once,
the newest first. -/
def Exact (table : Table) (userId : String) (limit : Nat) : Prop :=
  ∀ orders : Nat → List Transaction, (∀ query, Orders (·.createdAt) (table.ofUser userId) (orders query)) →
    ∃ visited, Follows table userId orders limit 0 none visited ∧
      Orders (·.createdAt) (table.ofUser userId) visited

/-- No other row has the `createdAt` of a row that ends a page before the last one. -/
def EndsApart (rows : List Transaction) (limit : Nat) : Prop :=
  ∀ pages, 0 < pages → pages * limit < rows.length →
    ∀ time ∈ (keys Transaction.createdAt rows)[pages * limit - 1]?,
      (keys Transaction.createdAt rows).count time = 1

variable {table : Table} {userId : String} {orders : Nat → List Transaction} {ordered visited : List Transaction}
  {limit query position : Nat} {cursor : Option String}

theorem Follows.unique {other : List Transaction} (follows : Follows table userId orders limit query cursor visited)
    (follows' : Follows table userId orders limit query cursor other) : visited = other := by
  induction follows generalizing other with
  | last query cursor page found done =>
    cases follows' with
    | last _ _ page' found' done' =>
      rw [found] at found'
      cases found'
      rfl
    | next _ _ page' next visited found' more rest =>
      rw [found] at found'
      cases found'
      rw [done] at more
      cases more
  | next query cursor page next visited found more rest ih =>
    cases follows' with
    | last _ _ page' found' done =>
      rw [found] at found'
      cases found'
      rw [more] at done
      cases done
    | next _ _ page' next' visited' found' more' rest' =>
      rw [found] at found'
      cases found'
      rw [more] at more'
      cases more'
      rw [ih rest']

section Pages

/-- The cursor behind the first rows; there is none before the first row. -/
def cursorAt (ordered : List Transaction) (position : Nat) : Option String :=
  ((ordered.take position).getLast?).map (·.id)

theorem cursorAt_append (before after : List Transaction) (row : Transaction) :
    cursorAt (before ++ row :: after) (before.length + 1) = some row.id := by
  simp [cursorAt, List.take_append]

theorem split_behind (positive : 0 < position) (within : position ≤ ordered.length) :
    ∃ before row after, ordered = before ++ row :: after ∧ before.length + 1 = position := by
  have parts := List.take_append_drop (position - 1) ordered
  rw [List.drop_eq_getElem_cons (by omega)] at parts
  refine ⟨ordered.take (position - 1), ordered[position - 1], _, parts.symm, ?_⟩
  rw [List.length_take]
  omega

theorem cursorAt_ne_empty : cursorAt ordered position ≠ some "" := by
  intro empty
  obtain ⟨row, -, same⟩ := Option.map_eq_some_iff.mp empty
  exact row.id_nonempty same

/-- The rows of a query have different ids. -/
theorem ids_nodup (table : Table) (found : Orders (·.createdAt) (table.ofUser userId) ordered) :
    (ordered.map (·.id)).Nodup :=
  ((found.perm.map _).nodup_iff).mpr (table.ids_distinct.sublist (List.filter_sublist.map _))

theorem behind_append {before after : List Transaction} {row : Transaction}
    (distinct : ((before ++ row :: after).map (·.id)).Nodup) :
    behind (before ++ row :: after) (some row.id) = after := by
  have skipped : ∀ other ∈ before, decide (other.id ≠ row.id) = true := by
    intro other member
    simp only [List.map_append, List.map_cons, List.nodup_append, List.mem_cons] at distinct
    exact decide_eq_true (distinct.2.2 other.id (List.mem_map_of_mem member) row.id (.inl rfl))
  rw [behind, List.dropWhile_append_of_pos skipped, List.dropWhile_cons_of_neg (by simp), List.drop_one, List.tail_cons]

theorem behind_cursorAt (found : Orders (·.createdAt) (table.ofUser userId) ordered)
    (within : position ≤ ordered.length) :
    behind ordered (cursorAt ordered position) = ordered.drop position := by
  rcases Nat.eq_zero_or_pos position with rfl | positive
  · rfl
  · obtain ⟨before, row, after, rfl, rfl⟩ := split_behind positive within
    rw [cursorAt_append, behind_append (ids_nodup table found)]
    simp [List.drop_append]

/-- A cursor row that is alone with its `createdAt` stands in one place in every order. -/
theorem behind_other {other : List Transaction} (found : Orders (·.createdAt) (table.ofUser userId) ordered)
    (others : Orders (·.createdAt) (table.ofUser userId) other) (positive : 0 < position)
    (within : position < ordered.length)
    (alone : ∀ time ∈ (keys Transaction.createdAt (table.ofUser userId))[position - 1]?,
      (keys Transaction.createdAt (table.ofUser userId)).count time = 1) :
    behind other (cursorAt ordered position) = other.drop position ∧ (other.drop position).Perm (ordered.drop position) := by
  obtain ⟨before, row, after, rfl, rfl⟩ := split_behind positive within.le
  have once : (keys Transaction.createdAt (table.ofUser userId)).count row.createdAt = 1 := by
    apply alone
    rw [← found.map_eq]
    simp
  obtain ⟨before', after', rfl, front, back⟩ := found.same_place others once
  have place : (before' ++ row :: after').drop (before.length + 1) = after' := by
    simp [← front.length_eq, List.drop_append]
  have place' : (before ++ row :: after).drop (before.length + 1) = after := by simp [List.drop_append]
  rw [cursorAt_append, behind_append (ids_nodup table others), place, place']
  exact ⟨rfl, back⟩

/-- The page behind a position. -/
theorem getHistory_behind (table : Table) (userId : String) (positive : 0 < limit) (atMost : limit ≤ 100)
    (nonempty : cursor ≠ some "")
    (place : behind ordered cursor = ordered.drop position) :
    getHistory table userId ordered ⟨some limit, cursor⟩ = .ok
      ⟨(ordered.drop position).take limit,
        if position + limit < ordered.length then cursorAt ordered (position + limit) else none,
        (table.ofUser userId).length⟩ := by
  have within : ¬ (limit : Int) > historyMaxLimit := by simp only [historyMaxLimit]; omega
  have same : (max 1 (limit : Int)).toNat = limit := by omega
  have kept : cursor.filter (· ≠ "") = cursor := by
    cases cursor with
    | none => rfl
    | some id => simpa using fun empty => nonempty (by rw [empty])
  simp only [getHistory, Option.getD_some, if_neg within, same, kept, place, List.take_take, List.length_take,
    List.length_drop, Except.ok.injEq, PaginatedHistory.mk.injEq, and_true]
  by_cases more : position + limit < ordered.length
  · have full : min (limit + 1) (ordered.length - position) > limit := by omega
    simp only [if_pos full, if_pos more, min_eq_left (Nat.le_succ limit), true_and]
    rw [cursorAt, List.take_add, List.getLast?_append_of_ne_nil]
    intro empty
    have length := congrArg List.length empty
    simp only [List.length_take, List.length_drop, List.length_nil] at length
    omega
  · have partly : ¬ min (limit + 1) (ordered.length - position) > limit := by omega
    simp only [if_neg partly, if_neg more, and_true]
    rw [List.take_of_length_le (by simp; omega), List.take_of_length_le (by simp; omega)]

/-- A page behind which no rows are left. -/
theorem follows_last (positive : 0 < limit) (atMost : limit ≤ 100) (nonempty : cursor ≠ some "")
    (place : behind (orders query) cursor = (orders query).drop position)
    (final : (orders query).length ≤ position + limit) :
    Follows table userId orders limit query cursor ((orders query).drop position) := by
  have page := getHistory_behind table userId positive atMost nonempty place
  rw [if_neg (by omega), List.take_of_length_le (by simp; omega)] at page
  exact .last query cursor _ page rfl

/-- A page behind which there are more rows; the next one starts at the cursor behind it. -/
theorem follows_next (positive : 0 < limit) (atMost : limit ≤ 100) (nonempty : cursor ≠ some "")
    (place : behind (orders query) cursor = (orders query).drop position)
    (more : position + limit < (orders query).length)
    (rest : Follows table userId orders limit (query + 1) (cursorAt (orders query) (position + limit)) visited) :
    Follows table userId orders limit query cursor (((orders query).drop position).take limit ++ visited) := by
  have page := getHistory_behind table userId positive atMost nonempty place
  rw [if_pos more] at page
  obtain ⟨before, row, after, shape, length⟩ := split_behind (Nat.add_pos_right position positive) more.le
  rw [shape, ← length, cursorAt_append] at page rest
  rw [shape]
  exact .next query cursor _ row.id visited (by rw [shape]; exact page) rfl rest

end Pages

section Walk

/-- Where the ends of pages stand alone, each query starts where the one before it ended. -/
theorem follows_apart (found : ∀ query, Orders (·.createdAt) (table.ofUser userId) (orders query))
    (positive : 0 < limit) (atMost : limit ≤ 100) (apart : EndsApart (table.ofUser userId) limit) (left : Nat)
    (enough : (table.ofUser userId).length ≤ (query + left) * limit) (nonempty : cursor ≠ some "")
    (place : behind (orders query) cursor = (orders query).drop (query * limit)) :
    ∃ visited, Follows table userId orders limit query cursor visited ∧
      visited.Perm ((orders query).drop (query * limit)) ∧
      visited.map (·.createdAt) = (keys Transaction.createdAt (table.ofUser userId)).drop (query * limit) := by
  have length := (found query).length_eq
  have times := (found query).map_eq
  induction left generalizing query cursor with
  | zero =>
    rw [Nat.add_zero] at enough
    refine ⟨_, follows_last positive atMost nonempty place (by omega), List.Perm.refl _, ?_⟩
    rw [List.map_drop, times]
  | succ left ih =>
    by_cases more : query * limit + limit < (orders query).length
    · have step : (query + 1) * limit = query * limit + limit := Nat.succ_mul query limit
      obtain ⟨start, back⟩ := behind_other (found query) (found (query + 1)) (by omega) more
        (by simpa only [← step] using apart (query + 1) (by omega) (by omega))
      rw [Nat.add_comm left, ← Nat.add_assoc] at enough
      rw [← step] at start
      obtain ⟨visited, rest, perm, falls⟩ :=
        ih enough cursorAt_ne_empty start (found (query + 1)).length_eq (found (query + 1)).map_eq
      rw [step] at perm falls rest
      refine ⟨_, follows_next positive atMost nonempty place more rest, ?_, ?_⟩
      · have parts := (List.take_append_drop limit ((orders query).drop (query * limit)))
        rw [List.drop_drop] at parts
        refine List.Perm.trans ?_ (List.Perm.of_eq parts)
        exact (perm.trans back).append_left _
      · rw [List.map_append, falls, List.map_take, List.map_drop, times, ← List.drop_drop, List.take_append_drop]
    · refine ⟨_, follows_last positive atMost nonempty place (by omega), List.Perm.refl _, ?_⟩
      rw [List.map_drop, times]

/-- The first pages of an order that does not change. -/
theorem follows_pages (positive : 0 < limit) (atMost : limit ≤ 100)
    (found : Orders (·.createdAt) (table.ofUser userId) ordered) {pages : Nat}
    (same : ∀ query < pages, orders query = ordered) (within : pages * limit < ordered.length)
    (rest : Follows table userId orders limit pages (cursorAt ordered (pages * limit)) visited) :
    Follows table userId orders limit 0 none (ordered.take (pages * limit) ++ visited) := by
  induction pages generalizing visited with
  | zero => simpa [cursorAt] using rest
  | succ pages ih =>
    rw [Nat.succ_mul] at rest within ⊢
    have now : orders pages = ordered := same pages (Nat.lt_succ_self pages)
    have page : Follows table userId orders limit pages (cursorAt ordered (pages * limit))
        ((ordered.drop (pages * limit)).take limit ++ visited) := by
      rw [← now]
      refine follows_next positive atMost cursorAt_ne_empty ?_ (by rw [now]; exact within) (by rw [now]; exact rest)
      rw [now]
      exact behind_cursorAt found (by omega)
    rw [List.take_add, List.append_assoc]
    exact ih (fun query earlier => same query (by omega)) (by omega) page

/-- All pages from a cursor on, in an order that does not change any more. -/
theorem follows_fixed (positive : 0 < limit) (atMost : limit ≤ 100)
    (found : Orders (·.createdAt) (table.ofUser userId) ordered) (same : ∀ later ≥ query, orders later = ordered)
    (nonempty : cursor ≠ some "") (place : behind ordered cursor = ordered.drop position) (left : Nat)
    (enough : ordered.length ≤ position + left) :
    Follows table userId orders limit query cursor (ordered.drop position) := by
  have now : orders query = ordered := same query le_rfl
  rw [← now] at place enough ⊢
  induction left generalizing query cursor position with
  | zero => exact follows_last positive atMost nonempty place (by omega)
  | succ left ih =>
    by_cases more : position + limit < (orders query).length
    · have next : orders (query + 1) = orders query := by rw [same (query + 1) (by omega), now]
      have rest : Follows table userId orders limit (query + 1) (cursorAt (orders query) (position + limit))
          ((orders query).drop (position + limit)) := by
        rw [← next]
        refine ih (fun later after => same later (by omega)) cursorAt_ne_empty ?_ (by rw [next]; omega) (by rw [next, now])
        rw [now] at more
        rw [next, now]
        exact behind_cursorAt found more.le
      have all := follows_next positive atMost nonempty place more rest
      rwa [← List.drop_drop, List.take_append_drop] at all
    · exact follows_last positive atMost nonempty place (by omega)

/-- Where two orders differ at the end of a page by an exchange of neighbours, the pages in
one order and then the other visit one row too few or too many. -/
theorem not_exact (positive : 0 < limit) (atMost : limit ≤ 100) (pages position : Nat)
    {other : List Transaction} (found : Orders (·.createdAt) (table.ofUser userId) ordered)
    (others : Orders (·.createdAt) (table.ofUser userId) other) (within : pages * limit < ordered.length)
    (inside : position ≤ other.length) (moved : cursorAt other position = cursorAt ordered (pages * limit))
    (different : position ≠ pages * limit) : ¬ Exact table userId limit := by
  intro exact
  let orders (query : Nat) := if query < pages then ordered else other
  obtain ⟨visited, follows, all⟩ := exact orders fun query => by
    simp only [orders]
    split
    · exact found
    · exact others
  have place := behind_cursorAt others inside
  rw [moved] at place
  have rest : Follows table userId orders limit pages (cursorAt ordered (pages * limit)) (other.drop position) := by
    apply follows_fixed positive atMost others _ cursorAt_ne_empty place other.length (by omega)
    intro later after
    simp only [orders]
    rw [if_neg (by omega)]
  have walk := follows_pages positive atMost found (fun query earlier => if_pos earlier) within rest
  have length := all.length_eq
  rw [follows.unique walk, List.length_append, List.length_take, List.length_drop] at length
  have total := found.length_eq
  have total' := others.length_eq
  omega

/-- The pages are exact just when no page before the last ends among rows with one `createdAt`. -/
theorem pages_exact_iff (table : Table) (userId : String) (limit : Nat) (positive : 0 < limit) (atMost : limit ≤ 100) :
    Exact table userId limit ↔ EndsApart (table.ofUser userId) limit := by
  constructor
  · intro exact pages later within time ends
    by_contra tied
    obtain ⟨ordered, found⟩ := exists_orders Transaction.createdAt (table.ofUser userId)
    rw [← found.length_eq] at within
    obtain ⟨before, row, after, rfl, length⟩ := split_behind (Nat.mul_pos later positive) within.le
    rw [← found.map_eq, ← length] at ends
    simp only [Nat.add_sub_cancel, List.map_append, List.map_cons, Option.mem_def] at ends
    rw [List.getElem?_append_right (by simp)] at ends
    simp only [List.length_map, Nat.sub_self, List.getElem?_cons_zero, Option.some.injEq] at ends
    subst ends
    have cursor : cursorAt (before ++ row :: after) (pages * limit) = some row.id := by
      rw [← length]
      exact cursorAt_append before after row
    rcases found.neighbour tied with ⟨front, next, rfl, same⟩ | ⟨next, rest, rfl, same⟩
    · -- The cursor row comes earlier in the next query: its neighbour is visited again.
      have others : Orders Transaction.createdAt (table.ofUser userId) (front ++ row :: next :: after) :=
        Orders.swap (by simpa using found) same
      refine not_exact positive atMost pages (front.length + 1) found others within (by simp) ?_ ?_ exact
      · rw [cursor]
        exact cursorAt_append front (next :: after) row
      · simp only [List.length_append, List.length_singleton] at length
        omega
    · -- It comes later: the neighbour is passed over.
      have others := found.swap same.symm
      refine not_exact positive atMost pages (before.length + 2) found others within (by simp) ?_ ?_ exact
      · rw [cursor]
        simpa using cursorAt_append (before ++ [next]) rest row
      · omega
  · intro apart orders found
    have enough : (table.ofUser userId).length ≤ (0 + (table.ofUser userId).length) * limit := by
      rw [Nat.zero_add]
      exact Nat.le_mul_of_pos_right _ positive
    have start : behind (orders 0) none = (orders 0).drop (0 * limit) := by rw [Nat.zero_mul, List.drop_zero, behind]
    obtain ⟨visited, follows, perm, times⟩ :=
      follows_apart found positive atMost apart _ enough (Option.some_ne_none "").symm start
    rw [Nat.zero_mul, List.drop_zero] at perm times
    refine ⟨visited, follows, perm.trans (found 0).perm, ?_⟩
    have falling := keys_falling Transaction.createdAt (table.ofUser userId)
    rw [← times] at falling
    exact List.pairwise_map.mp falling

/-- Two transactions of one instant. -/
def first : Transaction := ⟨"t1", "user", 1700000000000, by decide⟩

def second : Transaction := ⟨"t2", "user", 1700000000000, by decide⟩

def oneInstant : Table := ⟨[first, second], by decide⟩

/-- Two newer transactions above them. -/
def fourRows : Table :=
  ⟨[first, second, ⟨"t3", "user", 1700000000001, by decide⟩, ⟨"t4", "user", 1700000000002, by decide⟩], by decide⟩

/-- Two pages of two rows are exact, since the first ends at a time of its own. Four pages of one
row are not, since the third ends at `t1` or `t2`. -/
theorem pages_exact_iff_fourRows : Exact fourRows "user" 2 ∧ ¬ Exact fourRows "user" 1 := by
  have times : keys Transaction.createdAt (fourRows.ofUser "user") =
      [1700000000002, 1700000000001, 1700000000000, 1700000000000] := by decide +kernel
  refine ⟨(pages_exact_iff fourRows "user" 2 (by decide) (by decide)).mpr fun pages later within time ends => ?_,
    fun exact => ?_⟩
  · have four : (fourRows.ofUser "user").length = 4 := by decide +kernel
    obtain rfl : pages = 1 := by omega
    rw [times] at ends ⊢
    cases ends
    decide
  · have apart := (pages_exact_iff fourRows "user" 1 (by decide) (by decide)).mp exact 3 (by decide) (by decide +kernel)
    rw [times] at apart
    exact absurd (apart 1700000000000 rfl) (by decide)

/-- The first query finds `t1` before `t2`, the second `t2` before `t1`. -/
def swapping (query : Nat) : List Transaction := if query = 0 then [first, second] else [second, first]

/-- Page by page, one row each, `t2` is never visited. -/
theorem row_passed_over :
    (∀ query, Orders (·.createdAt) (oneInstant.ofUser "user") (swapping query)) ∧
      Follows oneInstant "user" swapping 1 0 none [first] ∧ ¬ Exact oneInstant "user" 1 := by
  have found (query : Nat) : Orders (·.createdAt) (oneInstant.ofUser "user") (swapping query) := by
    unfold swapping
    split
    · exact ⟨by decide +kernel, by decide⟩
    · exact ⟨by decide +kernel, by decide⟩
  have follows : Follows oneInstant "user" swapping 1 0 none [first] :=
    .next 0 none ⟨[first], some "t1", 2⟩ "t1" [] (by decide +kernel) rfl
      (.last 1 (some "t1") ⟨[], none, 2⟩ (by decide +kernel) rfl)
  refine ⟨found, follows, fun exact => ?_⟩
  obtain ⟨visited, follows', all⟩ := exact swapping found
  rw [← follows.unique follows'] at all
  exact absurd all.length_eq (by decide +kernel)

end Walk

end AfroPay.History
