import Mathlib.Data.List.Infix
import Mathlib.Tactic.Common

/-! Streams of blocks, each ended by a separator, received in pieces. A receiver keeps what it
has not yet used, and takes the blocks off its front while a separator is there. What it takes
is a matter of the whole stream alone, however the pieces are cut, and a stream of clean blocks
is taken block by block. -/
namespace AfroPay.BlockStreams

variable {α : Type*} [DecidableEq α] {separator : List α}

/-- What stands before the first separator and after it. -/
def cut (separator : List α) : List α → Option (List α × List α)
  | [] => none
  | c :: rest =>
    if separator <+: c :: rest then some ([], (c :: rest).drop separator.length)
    else (cut separator rest).map fun parts => (c :: parts.1, parts.2)

theorem cut_split {input block rest : List α} (found : cut separator input = some (block, rest)) :
    input = block ++ separator ++ rest := by
  induction input generalizing block with
  | nil => cases found
  | cons c tail ih =>
    rw [cut] at found
    split at found
    · rename_i here
      cases found
      obtain ⟨after, split⟩ := here
      rw [← split, List.drop_left, List.nil_append]
    · obtain ⟨⟨before, after⟩, later, same⟩ := Option.map_eq_some_iff.mp found
      cases same
      rw [ih later]
      rfl

theorem cut_shorter (nonempty : separator ≠ []) {input block rest : List α}
    (found : cut separator input = some (block, rest)) : rest.length < input.length := by
  have lengths := congrArg List.length (cut_split found)
  have positive := List.length_pos_of_ne_nil nonempty
  simp only [List.length_append] at lengths
  omega

/-- A separator is found just when there is one. -/
theorem cut_none_iff (nonempty : separator ≠ []) {input : List α} :
    cut separator input = none ↔ ¬ separator <:+: input := by
  induction input with
  | nil => simp [cut, nonempty]
  | cons c rest ih =>
    rw [cut, List.infix_cons_iff]
    split
    · rename_i here
      simp [here]
    · rename_i absent
      simp [absent, ih]

/-- What comes later does not move the first separator. -/
theorem cut_append {input block rest : List α} (later : List α) (found : cut separator input = some (block, rest)) :
    cut separator (input ++ later) = some (block, rest ++ later) := by
  induction input generalizing block with
  | nil => cases found
  | cons c tail ih =>
    have parts := cut_split found
    rw [cut] at found
    rw [List.cons_append, cut]
    split at found
    · rename_i here
      cases found
      rw [← List.cons_append, if_pos (here.trans (List.prefix_append (c :: tail) later)),
        List.drop_append_of_le_length here.length_le]
    · rename_i absent
      obtain ⟨⟨before, after⟩, inside, same⟩ := Option.map_eq_some_iff.mp found
      cases same
      -- A separator at the front would fit into what was there already.
      have still : ¬ separator <+: c :: (tail ++ later) := by
        intro front
        refine absurd (List.prefix_of_prefix_length_le front (List.prefix_append (c :: tail) later) ?_) absent
        have lengths := congrArg List.length parts
        simp only [List.length_append] at lengths
        omega
      rw [if_neg still, ih inside]
      rfl

/-- A block whose first separator is the one that ends it. -/
def Clean (separator block : List α) : Prop := cut separator (block ++ separator) = some (block, [])

instance (block : List α) : Decidable (Clean separator block) := inferInstanceAs (Decidable (_ = _))

theorem cut_clean {block : List α} (clean : Clean separator block) (rest : List α) :
    cut separator (block ++ separator ++ rest) = some (block, rest) := by
  rw [cut_append rest clean]
  rfl

section Draining

/-- Blocks are taken off the front while there is a separator. Every block takes one away, so
the length of the input bounds the rounds. -/
def drainFor (separator : List α) : Nat → List α → List (List α) × List α
  | 0, input => ([], input)
  | rounds + 1, input =>
    match cut separator input with
    | none => ([], input)
    | some (block, rest) =>
      let later := drainFor separator rounds rest
      (block :: later.1, later.2)

/-- The blocks of an input, and what is left after the last separator. -/
def drain (separator input : List α) : List (List α) × List α := drainFor separator input.length input

variable (nonempty : separator ≠ [])
include nonempty

theorem drainFor_enough {rounds : Nat} {input : List α} (enough : input.length ≤ rounds) :
    drainFor separator rounds input = drain separator input := by
  induction rounds using Nat.strongRecOn generalizing input with
  | ind rounds ih =>
    unfold drain
    rcases rounds with - | rounds
    · rw [Nat.le_zero.mp enough]
    cases short : input.length with
    | zero =>
      obtain rfl := List.eq_nil_of_length_eq_zero short
      rfl
    | succ fewer =>
      rw [drainFor, drainFor]
      split
      · rfl
      · rename_i block rest found
        have lower := cut_shorter nonempty found
        rw [ih rounds (by omega) (by omega), ih fewer (by omega) (by omega)]

theorem drain_none {input : List α} (absent : cut separator input = none) : drain separator input = ([], input) := by
  rw [← drainFor_enough nonempty (Nat.le_succ _), drainFor, absent]

theorem drain_some {input block rest : List α} (found : cut separator input = some (block, rest)) :
    drain separator input = (block :: (drain separator rest).1, (drain separator rest).2) := by
  have lower := cut_shorter nonempty found
  rw [← drainFor_enough nonempty (Nat.le_succ _), drainFor, found]
  simp only [drainFor_enough nonempty lower.le]

/-- The two cases of the loop, as an induction on its input. -/
theorem drain_induction {motive : List α → Prop}
    (stop : ∀ input, cut separator input = none → motive input)
    (round : ∀ input block rest, cut separator input = some (block, rest) → motive rest → motive input)
    (input : List α) : motive input := by
  induction size : input.length using Nat.strongRecOn generalizing input with
  | ind size' ih =>
    cases found : cut separator input with
    | none => exact stop input found
    | some parts =>
      have lower := cut_shorter nonempty found
      exact round input parts.1 parts.2 found (ih _ (by omega) parts.2 rfl)

theorem drain_rest (input : List α) : ¬ separator <:+: (drain separator input).2 := by
  induction input using drain_induction nonempty with
  | stop input absent =>
    rw [drain_none nonempty absent]
    exact (cut_none_iff nonempty).mp absent
  | round input block rest found ih =>
    rw [drain_some nonempty found]
    exact ih

/-- Clean blocks are taken one by one, and what has no separator waits. -/
theorem drain_blocks {blocks : List (List α)} {rest : List α} (clean : ∀ block ∈ blocks, Clean separator block)
    (waits : ¬ separator <:+: rest) :
    drain separator (blocks.flatMap (· ++ separator) ++ rest) = (blocks, rest) := by
  induction blocks with
  | nil => exact drain_none nonempty ((cut_none_iff nonempty).mpr waits)
  | cons block others ih =>
    obtain ⟨here, later⟩ := List.forall_mem_cons.mp clean
    rw [List.flatMap_cons, List.append_assoc, drain_some nonempty (cut_clean here _), ih later]

/-- Draining what has come and then, with what was left, what comes next is draining all of it. -/
theorem drain_append (input later : List α) :
    drain separator (input ++ later) =
      ((drain separator input).1 ++ (drain separator ((drain separator input).2 ++ later)).1,
        (drain separator ((drain separator input).2 ++ later)).2) := by
  induction input using drain_induction nonempty with
  | stop input absent => rw [drain_none nonempty absent, List.nil_append]
  | round input block rest found ih =>
    rw [drain_some nonempty found, drain_some nonempty (cut_append later found), ih]
    rfl

end Draining

section Feeding

/-- A receiver adds what has come to what it holds, and drains. -/
def feed (separator : List α) (held : List α) : List (List α) → List (List α) × List α
  | [] => ([], held)
  | piece :: pieces =>
    let drained := drain separator (held ++ piece)
    let later := feed separator drained.2 pieces
    (drained.1 ++ later.1, later.2)

/-- However a stream is cut into pieces, the blocks received are those of the stream. -/
theorem feed_drain (nonempty : separator ≠ []) {held : List α} (waits : ¬ separator <:+: held)
    (pieces : List (List α)) : feed separator held pieces = drain separator (held ++ pieces.flatten) := by
  induction pieces generalizing held with
  | nil => rw [feed, List.flatten_nil, List.append_nil, drain_none nonempty ((cut_none_iff nonempty).mpr waits)]
  | cons piece pieces ih =>
    rw [feed, List.flatten_cons, ← List.append_assoc, drain_append nonempty (held ++ piece),
      ih (drain_rest nonempty (held ++ piece))]

end Feeding

end AfroPay.BlockStreams
