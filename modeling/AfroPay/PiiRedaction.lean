import AfroPay.Erasure

/-! What `redactPii` does to metadata. No key of personal data is left at any depth, and what
every other path leads to is what it was, less the keys that were removed. -/
namespace AfroPay.Erasure
open Json (Outline Step Value allKeys child itemKeys memberKeys outline valueAt)

/-- A step that redaction closes. -/
def isPiiStep : Step → Bool
  | .key key => isPiiKey key
  | .item _ => false

/-- An object without its keys of personal data. -/
def redactOutline : Outline → Outline
  | .object keys => .object (keys.filter fun key => !isPiiKey key)
  | outline => outline

theorem redactItems_eq (items : List Value) : redactItems items = items.map redactPii := by
  induction items with
  | nil => rfl
  | cons item rest ih => rw [redactItems, ih, List.map_cons]

theorem redactMembers_eq (members : List (String × Value)) : redactMembers members =
    (members.filter fun member => !isPiiKey member.1).map fun member => (member.1, redactPii member.2) := by
  induction members with
  | nil => rfl
  | cons member rest ih =>
    obtain ⟨key, value⟩ := member
    rw [redactMembers, ih]
    by_cases pii : isPiiKey key
    · simp [pii]
    · simp [pii]

section Keys

mutual
theorem allKeys_redactPii (value : Value) : (allKeys (redactPii value)).any isPiiKey = false := by
  match value with
  | .null | .bool _ | .number _ | .string _ => rfl
  | .array items => exact itemKeys_redactItems items
  | .object members => exact memberKeys_redactMembers members
theorem itemKeys_redactItems (items : List Value) : (itemKeys (redactItems items)).any isPiiKey = false := by
  match items with
  | [] => rfl
  | item :: rest =>
    rw [redactItems, itemKeys, List.any_append, allKeys_redactPii item, itemKeys_redactItems rest, Bool.or_false]
theorem memberKeys_redactMembers (members : List (String × Value)) :
    (memberKeys (redactMembers members)).any isPiiKey = false := by
  match members with
  | [] => rfl
  | (key, value) :: rest =>
    rw [redactMembers]
    split
    · exact memberKeys_redactMembers rest
    · rename_i kept
      rw [memberKeys, List.cons_append, List.any_cons, List.any_append, allKeys_redactPii value,
        memberKeys_redactMembers rest, Bool.or_false, Bool.or_false]
      exact Bool.not_eq_true _ |>.mp kept
end

mutual
/-- Where no key is left to remove, nothing changes. -/
theorem redactPii_of_free (value : Value) (free : (allKeys value).any isPiiKey = false) : redactPii value = value := by
  match value with
  | .null | .bool _ | .number _ | .string _ => rfl
  | .array items => rw [redactPii, redactItems_of_free items free]
  | .object members => rw [redactPii, redactMembers_of_free members free]
theorem redactItems_of_free (items : List Value) (free : (itemKeys items).any isPiiKey = false) :
    redactItems items = items := by
  match items with
  | [] => rfl
  | item :: rest =>
    rw [itemKeys, List.any_append, Bool.or_eq_false_iff] at free
    rw [redactItems, redactPii_of_free item free.1, redactItems_of_free rest free.2]
theorem redactMembers_of_free (members : List (String × Value)) (free : (memberKeys members).any isPiiKey = false) :
    redactMembers members = members := by
  match members with
  | [] => rfl
  | (key, value) :: rest =>
    rw [memberKeys, List.cons_append, List.any_cons, List.any_append, Bool.or_eq_false_iff,
      Bool.or_eq_false_iff] at free
    obtain ⟨kept, inside, others⟩ := free
    rw [redactMembers, if_neg (by rw [kept]; decide), redactPii_of_free value inside, redactMembers_of_free rest others]
end

end Keys

section Paths

theorem outline_redactPii (value : Value) : outline (redactPii value) = redactOutline (outline value) := by
  cases value with
  | array items => rw [redactPii, outline, redactItems_eq, List.length_map]; rfl
  | object members =>
    rw [redactPii, outline, redactMembers_eq, outline, redactOutline, List.map_map, List.filter_map]
    rfl
  | _ => rfl

/-- The members that are left are found where they were. -/
theorem find?_redactMembers {key : String} (kept : isPiiKey key = false) (members : List (String × Value)) :
    (redactMembers members).find? (·.1 = key) =
      (members.find? (·.1 = key)).map fun member => (member.1, redactPii member.2) := by
  induction members with
  | nil => rfl
  | cons member rest ih =>
    obtain ⟨stored, value⟩ := member
    rw [redactMembers]
    by_cases here : stored = key
    · subst here
      simp [kept]
    · split
      · simpa [here] using ih
      · simpa [here] using ih

theorem find?_redactMembers_pii {key : String} (pii : isPiiKey key) (members : List (String × Value)) :
    (redactMembers members).find? (·.1 = key) = none := by
  rw [redactMembers_eq, List.find?_eq_none]
  intro member found
  obtain ⟨stored, listed, rfl⟩ := List.mem_map.mp found
  have kept := (List.mem_filter.mp listed).2
  intro same
  obtain rfl : stored.1 = key := of_decide_eq_true same
  simp [pii] at kept

theorem child_redactPii (value : Value) (step : Step) :
    child (redactPii value) step = if isPiiStep step then none else (child value step).map redactPii := by
  cases value with
  | array items =>
    cases step with
    | item index => simp [redactPii, child, redactItems_eq, isPiiStep]
    | key key => simp [redactPii, child]
  | object members =>
    cases step with
    | item index => simp [redactPii, child]
    | key key =>
      simp only [redactPii, child]
      by_cases pii : isPiiStep (.key key)
      · have removed : isPiiKey key := pii
        rw [if_pos pii, find?_redactMembers_pii removed, Option.map_none]
      · have kept : isPiiKey key = false := Bool.not_eq_true _ |>.mp pii
        rw [if_neg pii, find?_redactMembers kept, Option.map_map, Option.map_map]
        rfl
  | _ => cases step <;> simp [redactPii, child]

theorem valueAt_redactPii (value : Value) (path : List Step) :
    valueAt (redactPii value) path = if path.any isPiiStep then none else (valueAt value path).map redactPii := by
  induction path generalizing value with
  | nil => rfl
  | cons step rest ih =>
    rw [valueAt, valueAt, child_redactPii, List.any_cons]
    by_cases pii : isPiiStep step
    · simp [pii]
    · rw [if_neg pii, Bool.not_eq_true _ |>.mp pii, Bool.false_or]
      cases child value step with
      | none => simp
      | some inner => exact ih inner

end Paths

/-- No key of personal data is left at any depth; a path without such a key leads to the same
scalar, to an array of the same length, or to an object with the other keys in their order; and
redacting again changes nothing. -/
theorem redaction_exact (value : Value) :
    (allKeys (redactPii value)).any isPiiKey = false ∧
      (∀ path, (valueAt (redactPii value) path).map outline =
        if path.any isPiiStep then none else (valueAt value path).map fun inner => redactOutline (outline inner)) ∧
      redactPii (redactPii value) = redactPii value := by
  refine ⟨allKeys_redactPii value, fun path => ?_, redactPii_of_free _ (allKeys_redactPii value)⟩
  rw [valueAt_redactPii]
  split
  · rfl
  · rw [Option.map_map]
    exact congrArg (fun f => (valueAt value path).map f) (funext outline_redactPii)

end AfroPay.Erasure
