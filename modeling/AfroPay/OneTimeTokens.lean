import Mathlib.Data.List.Nodup
import Mathlib.Logic.Function.Basic

/-! Tokens that are issued to an owner and accepted once, in their time. A book of pending
tokens that only gains what is issued, and loses what is accepted, keeps its log sound. -/
namespace AfroPay.OneTimeTokens

variable {Token Owner : Type}

inductive Entry (Token Owner : Type) where
  | issued (token : Token) (owner : Owner) (time : Nat)
  | accepted (token : Token) (owner : Owner) (time : Nat)
  deriving DecidableEq

def Entry.issuedToken : Entry Token Owner → Option Token
  | .issued token _ _ => some token
  | .accepted .. => none

def Entry.acceptedToken : Entry Token Owner → Option Token
  | .issued .. => none
  | .accepted token _ _ => some token

/-- No token is issued twice. -/
def Distinct (log : List (Entry Token Owner)) : Prop := (log.filterMap Entry.issuedToken).Nodup

/-- Tokens are accepted once, and only after they were issued to the same owner, in their time. -/
structure Sound (ttl : Nat) (log : List (Entry Token Owner)) : Prop where
  once : (log.filterMap Entry.acceptedToken).Nodup
  issued : ∀ token owner time, .accepted token owner time ∈ log →
    ∃ issuedAt, .issued token owner issuedAt ∈ log ∧ issuedAt ≤ time ∧ time < issuedAt + ttl

structure Pending (Token : Type) where
  token : Token
  deadline : Nat
  deriving DecidableEq

/-- The book of pending tokens at a time, and the log that led to it. -/
structure Kept (ttl now : Nat) (pending : Owner → List (Pending Token)) (log : List (Entry Token Owner)) : Prop where
  sound : Sound ttl log
  past : ∀ token owner time, .issued token owner time ∈ log → time ≤ now
  issued : ∀ owner, ∀ item ∈ pending owner, ∃ time, .issued item.token owner time ∈ log ∧ item.deadline = time + ttl
  unspent : ∀ owner, ∀ item ∈ pending owner, item.token ∉ log.filterMap Entry.acceptedToken
  distinct : ∀ owner, ((pending owner).map Pending.token).Nodup

variable {ttl now : Nat} {pending : Owner → List (Pending Token)} {log : List (Entry Token Owner)}
  {token : Token} {owner : Owner}

theorem distinct_before {entry : Entry Token Owner} (distinct : Distinct (log ++ [entry])) : Distinct log := by
  rw [Distinct, List.filterMap_append] at distinct
  exact distinct.of_append_left

theorem issuedToken_mem {time : Nat} (issued : .issued token owner time ∈ log) :
    token ∈ log.filterMap Entry.issuedToken :=
  List.mem_filterMap.mpr ⟨_, issued, rfl⟩

theorem acceptedToken_mem :
    token ∈ log.filterMap Entry.acceptedToken ↔ ∃ owner time, .accepted token owner time ∈ log := by
  rw [List.mem_filterMap]
  constructor
  · rintro ⟨entry, listed, same⟩
    cases entry with
    | issued => cases same
    | accepted token' owner time =>
      cases same
      exact ⟨owner, time, listed⟩
  · rintro ⟨owner, time, listed⟩
    exact ⟨_, listed, rfl⟩

/-- A token has one owner and one time of issue. -/
theorem issued_unique {owner' : Owner} {time time' : Nat} (distinct : Distinct log)
    (one : .issued token owner time ∈ log) (two : .issued token owner' time' ∈ log) : owner = owner' ∧ time = time' := by
  induction log with
  | nil => cases one
  | cons entry log ih =>
    have later : Distinct log := by
      rw [Distinct, List.filterMap_cons] at distinct
      split at distinct
      · exact distinct
      · exact (List.nodup_cons.mp distinct).2
    have absent {owner : Owner} {time : Nat} (first : Entry.issued token owner time = entry) :
        token ∉ log.filterMap Entry.issuedToken := by
      subst first
      exact (List.nodup_cons.mp distinct).1
    rcases List.mem_cons.mp one with first | inside <;> rcases List.mem_cons.mp two with first' | inside'
    · cases first.trans first'.symm
      exact ⟨rfl, rfl⟩
    · exact absurd (issuedToken_mem inside') (absent first)
    · exact absurd (issuedToken_mem inside) (absent first')
    · exact ih later inside inside'

/-- Whoever has a token accepted is the one it was issued to. -/
theorem Sound.rightful {owner' : Owner} {time issuedAt : Nat} (sound : Sound ttl log) (distinct : Distinct log)
    (accepted : .accepted token owner time ∈ log) (issued : .issued token owner' issuedAt ∈ log) :
    owner = owner' ∧ issuedAt ≤ time ∧ time < issuedAt + ttl := by
  obtain ⟨issuedAt', issued', bounds⟩ := sound.issued token owner time accepted
  obtain ⟨rfl, rfl⟩ := issued_unique distinct issued' issued
  exact ⟨rfl, bounds⟩

theorem kept_empty (ttl now : Nat) : Kept ttl now (fun _ : Owner => ([] : List (Pending Token))) [] where
  sound := ⟨.nil, nofun⟩
  past := nofun
  issued := nofun
  unspent := nofun
  distinct _ := .nil

/-- Time passes, and tokens are dropped. -/
theorem Kept.thin {later : Nat} {fewer : Owner → List (Pending Token)} (kept : Kept ttl now pending log)
    (le : now ≤ later) (sublist : ∀ owner, (fewer owner).Sublist (pending owner)) : Kept ttl later fewer log where
  sound := kept.sound
  past token owner time issued := Nat.le_trans (kept.past token owner time issued) le
  issued owner item listed := kept.issued owner item ((sublist owner).subset listed)
  unspent owner item listed := kept.unspent owner item ((sublist owner).subset listed)
  distinct owner := ((sublist owner).map Pending.token).nodup (kept.distinct owner)

variable [DecidableEq Owner]

theorem Kept.issue (kept : Kept ttl now pending log) (fresh : Distinct (log ++ [.issued token owner now])) :
    Kept ttl now (Function.update pending owner (pending owner ++ [⟨token, now + ttl⟩]))
      (log ++ [.issued token owner now]) := by
  have unissued : token ∉ log.filterMap Entry.issuedToken := by
    rw [Distinct, List.filterMap_append, List.nodup_append] at fresh
    intro listed
    exact fresh.2.2 token listed token (by simp [Entry.issuedToken]) rfl
  have accepted_before {entry : Entry Token Owner} (member : entry ∈ log ++ [.issued token owner now])
      (accepted : entry.acceptedToken.isSome) : entry ∈ log := by
    rcases List.mem_append.mp member with old | new
    · exact old
    · rw [List.mem_singleton.mp new] at accepted
      cases accepted
  have spent_same : (log ++ [Entry.issued token owner now]).filterMap Entry.acceptedToken =
      log.filterMap Entry.acceptedToken := by simp [Entry.acceptedToken]
  refine ⟨⟨?_, ?_⟩, ?_, ?_, ?_, ?_⟩
  · rw [spent_same]
    exact kept.sound.once
  · intro token' owner' time member
    obtain ⟨issuedAt, listed, bounds⟩ := kept.sound.issued token' owner' time (accepted_before member rfl)
    exact ⟨issuedAt, List.mem_append_left _ listed, bounds⟩
  · intro token' owner' time member
    rcases List.mem_append.mp member with old | new
    · exact kept.past token' owner' time old
    · cases List.mem_singleton.mp new
      exact Nat.le_refl now
  · intro owner' item listed
    by_cases same : owner' = owner
    · subst same
      rw [Function.update_self] at listed
      rcases List.mem_append.mp listed with old | new
      · obtain ⟨time, issued, deadline⟩ := kept.issued owner' item old
        exact ⟨time, List.mem_append_left _ issued, deadline⟩
      · rw [List.mem_singleton.mp new]
        exact ⟨now, by simp, rfl⟩
    · rw [Function.update_of_ne same] at listed
      obtain ⟨time, issued, deadline⟩ := kept.issued owner' item listed
      exact ⟨time, List.mem_append_left _ issued, deadline⟩
  · intro owner' item listed
    rw [spent_same]
    by_cases same : owner' = owner
    · subst same
      rw [Function.update_self] at listed
      rcases List.mem_append.mp listed with old | new
      · exact kept.unspent owner' item old
      · rw [List.mem_singleton.mp new]
        intro spent
        obtain ⟨owner', time, accepted⟩ := acceptedToken_mem.mp spent
        obtain ⟨issuedAt, issued, -⟩ := kept.sound.issued token owner' time accepted
        exact unissued (issuedToken_mem issued)
    · rw [Function.update_of_ne same] at listed
      exact kept.unspent owner' item listed
  · intro owner'
    by_cases same : owner' = owner
    · subst same
      rw [Function.update_self, List.map_append, List.map_singleton]
      refine List.nodup_append.mpr ⟨kept.distinct owner', List.nodup_singleton _, ?_⟩
      rintro _ listed _ last rfl
      obtain ⟨item, member, rfl⟩ := List.mem_map.mp listed
      obtain ⟨time, issued, -⟩ := kept.issued owner' item member
      rw [List.mem_singleton.mp last] at issued
      exact unissued (issuedToken_mem issued)
    · rw [Function.update_of_ne same]
      exact kept.distinct owner'

/-- A pending token is accepted before its deadline, and leaves the book. -/
theorem Kept.accept {deadline : Nat} {before after : List (Pending Token)} (kept : Kept ttl now pending log)
    (distinct : Distinct log) (found : pending owner = before ++ ⟨token, deadline⟩ :: after) (inTime : now < deadline) :
    Kept ttl now (Function.update pending owner (before ++ after)) (log ++ [.accepted token owner now]) := by
  have pending_item : (⟨token, deadline⟩ : Pending Token) ∈ pending owner := by simp [found]
  obtain ⟨issuedAt, issued, rfl⟩ := kept.issued owner ⟨token, deadline⟩ pending_item
  have unspent := kept.unspent owner _ pending_item
  have thinner : ∀ owner', (Function.update pending owner (before ++ after) owner').Sublist (pending owner') := by
    intro owner'
    by_cases same : owner' = owner
    · subst same
      rw [Function.update_self, found]
      exact (List.sublist_cons_self _ _).append_left before
    · rw [Function.update_of_ne same]
  -- the token is no longer pending for anyone
  have gone : ∀ owner', ∀ item ∈ Function.update pending owner (before ++ after) owner', item.token ≠ token := by
    intro owner' item listed same
    obtain ⟨time, issued', -⟩ := kept.issued owner' item ((thinner owner').subset listed)
    rw [same] at issued'
    obtain ⟨rfl, -⟩ := issued_unique distinct issued issued'
    rw [Function.update_self] at listed
    have nodup := kept.distinct owner
    rw [found, List.map_append, List.map_cons, List.nodup_middle, List.nodup_cons, ← List.map_append] at nodup
    exact nodup.1 (List.mem_map.mpr ⟨item, listed, same⟩)
  have thinned := kept.thin (Nat.le_refl now) thinner
  have spent_one : (log ++ [Entry.accepted token owner now]).filterMap Entry.acceptedToken =
      log.filterMap Entry.acceptedToken ++ [token] := by simp [Entry.acceptedToken]
  refine ⟨⟨?_, ?_⟩, ?_, ?_, ?_, thinned.distinct⟩
  · rw [spent_one]
    refine List.nodup_append.mpr ⟨kept.sound.once, List.nodup_singleton _, ?_⟩
    rintro _ spent _ last rfl
    rw [List.mem_singleton.mp last] at spent
    exact unspent spent
  · intro token' owner' time member
    rcases List.mem_append.mp member with old | new
    · obtain ⟨issuedAt, listed, bounds⟩ := kept.sound.issued token' owner' time old
      exact ⟨issuedAt, List.mem_append_left _ listed, bounds⟩
    · cases List.mem_singleton.mp new
      exact ⟨issuedAt, List.mem_append_left _ issued, kept.past token owner issuedAt issued, inTime⟩
  · intro token' owner' time member
    refine kept.past token' owner' time ?_
    simpa using member
  · intro owner' item listed
    obtain ⟨time, issued, deadline⟩ := thinned.issued owner' item listed
    exact ⟨time, List.mem_append_left _ issued, deadline⟩
  · intro owner' item listed spent
    rw [spent_one] at spent
    rcases List.mem_append.mp spent with old | new
    · exact thinned.unspent owner' item listed old
    · exact gone owner' item listed (List.mem_singleton.mp new)

end AfroPay.OneTimeTokens
