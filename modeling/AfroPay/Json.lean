import Mathlib.Tactic.Common

/-! JSON texts: the values, the text that `JSON.stringify` gives a value, and a parser
for all of the grammar, white space and every escape included. Objects keep the order
and the repetitions of their members. The parser reads every text that a value is
given back as that value. -/
namespace AfroPay.Json

/-- A character of a number. -/
def isNumberChar (c : Char) : Bool :=
  c.isDigit || c = '-' || c = '+' || c = '.' || c = 'e' || c = 'E'

def isDigits (text : List Char) : Bool := !text.isEmpty && text.all Char.isDigit

def isExponent : List Char → Bool
  | [] => true
  | c :: rest =>
    (c = 'e' || c = 'E') && isDigits (match rest with
      | '+' :: digits | '-' :: digits => digits
      | digits => digits)

def isFraction : List Char → Bool
  | '.' :: rest => isDigits (rest.takeWhile Char.isDigit) && isExponent (rest.dropWhile Char.isDigit)
  | rest => isExponent rest

def isUnsigned : List Char → Bool
  | '0' :: rest => isFraction rest
  | text => isDigits (text.takeWhile Char.isDigit) && isFraction (text.dropWhile Char.isDigit)

/-- The grammar of numbers. -/
def isNumber (text : List Char) : Bool :=
  text.all isNumberChar && match text with
    | '-' :: rest => isUnsigned rest
    | rest => isUnsigned rest

/-- A number as it is written. -/
structure Literal where
  text : List Char
  valid : isNumber text
  deriving DecidableEq

inductive Value where
  | null
  | bool (value : Bool)
  | number (literal : Literal)
  | string (text : String)
  | array (items : List Value)
  | object (members : List (String × Value))

def hexDigit (n : Nat) : Char :=
  if n < 10 then Char.ofNat (n + 48) else Char.ofNat (n + 87)

/-- A character inside a string. Only what has to be escaped is. -/
def escape (c : Char) : List Char :=
  if c = '"' then ['\\', '"']
  else if c = '\\' then ['\\', '\\']
  else if c = '\x08' then ['\\', 'b']
  else if c = '\x0c' then ['\\', 'f']
  else if c = '\n' then ['\\', 'n']
  else if c = '\r' then ['\\', 'r']
  else if c = '\t' then ['\\', 't']
  else if c.toNat < 32 then ['\\', 'u', '0', '0', hexDigit (c.toNat / 16), hexDigit (c.toNat % 16)]
  else [c]

def quote (text : String) : List Char := '"' :: text.toList.flatMap escape ++ ['"']

mutual
/-- `JSON.stringify`, without indentation. -/
def stringify : Value → List Char
  | .null => ['n', 'u', 'l', 'l']
  | .bool true => ['t', 'r', 'u', 'e']
  | .bool false => ['f', 'a', 'l', 's', 'e']
  | .number literal => literal.text
  | .string text => quote text
  | .array items => '[' :: stringifyItems items ++ [']']
  | .object members => '{' :: stringifyMembers members ++ ['}']
def stringifyItems : List Value → List Char
  | [] => []
  | [item] => stringify item
  | item :: next :: rest => stringify item ++ ',' :: stringifyItems (next :: rest)
def stringifyMembers : List (String × Value) → List Char
  | [] => []
  | [(key, value)] => quote key ++ ':' :: stringify value
  | (key, value) :: next :: rest => quote key ++ ':' :: stringify value ++ ',' :: stringifyMembers (next :: rest)
end

def isSpace (c : Char) : Bool := c = ' ' || c = '\n' || c = '\r' || c = '\t'

def skipSpace (input : List Char) : List Char := input.dropWhile isSpace

def hexValue (c : Char) : Option Nat :=
  if '0' ≤ c ∧ c ≤ '9' then some (c.toNat - 48)
  else if 'a' ≤ c ∧ c ≤ 'f' then some (c.toNat - 87)
  else if 'A' ≤ c ∧ c ≤ 'F' then some (c.toNat - 55)
  else none

/-- What stands for itself or for a control character after a backslash. -/
def unescape (c : Char) : Option Char :=
  if c = '"' ∨ c = '\\' ∨ c = '/' then some c
  else if c = 'b' then some '\x08'
  else if c = 'f' then some '\x0c'
  else if c = 'n' then some '\n'
  else if c = 'r' then some '\r'
  else if c = 't' then some '\t'
  else none

/-- Where the reader of a string stands. -/
inductive Mode where
  | plain
  | backslash
  /-- Inside four hexadecimal digits, perhaps after a leading surrogate. -/
  | hex (left value : Nat) (lead : Option Nat)
  | trail (lead : Nat)
  | trailBackslash (lead : Nat)

/-- Reads a string up to its closing quote. A surrogate without its partner is an error. -/
def scan : Mode → List Char → Option (List Char × List Char)
  | _, [] => none
  | .plain, c :: rest =>
    if c = '"' then some ([], rest)
    else if c = '\\' then scan .backslash rest
    else if c.toNat < 32 then none
    else (scan .plain rest).map fun read => (c :: read.1, read.2)
  | .backslash, c :: rest =>
    if c = 'u' then scan (.hex 3 0 none) rest
    else (unescape c).bind fun d => (scan .plain rest).map fun read => (d :: read.1, read.2)
  | .hex (left + 1) value lead, c :: rest =>
    (hexValue c).bind fun digit => scan (.hex left (16 * value + digit) lead) rest
  | .hex 0 value none, c :: rest =>
    (hexValue c).bind fun digit =>
      let code := 16 * value + digit
      if 0xD800 ≤ code ∧ code < 0xDC00 then scan (.trail code) rest
      else if 0xDC00 ≤ code ∧ code < 0xE000 then none
      else (scan .plain rest).map fun read => (Char.ofNat code :: read.1, read.2)
  | .hex 0 value (some lead), c :: rest =>
    (hexValue c).bind fun digit =>
      let code := 16 * value + digit
      if 0xDC00 ≤ code ∧ code < 0xE000 then
        (scan .plain rest).map fun read =>
          (Char.ofNat (0x10000 + (lead - 0xD800) * 0x400 + (code - 0xDC00)) :: read.1, read.2)
      else none
  | .trail lead, c :: rest => if c = '\\' then scan (.trailBackslash lead) rest else none
  | .trailBackslash lead, c :: rest => if c = 'u' then scan (.hex 3 0 (some lead)) rest else none

def parseString (input : List Char) : Option (String × List Char) :=
  (scan .plain input).map fun read => (String.ofList read.1, read.2)

def parseNumber (input : List Char) : Option (Literal × List Char) :=
  if valid : isNumber (input.takeWhile isNumberChar) then
    some (⟨input.takeWhile isNumberChar, valid⟩, input.dropWhile isNumberChar)
  else none

mutual
/-- Reads one value. Every call consumes a character or passes on to one that does,
so the length of the input bounds their depth. -/
def parseValue : Nat → List Char → Option (Value × List Char)
  | 0, _ => none
  | fuel + 1, input =>
    match skipSpace input with
    | 'n' :: 'u' :: 'l' :: 'l' :: rest => some (.null, rest)
    | 't' :: 'r' :: 'u' :: 'e' :: rest => some (.bool true, rest)
    | 'f' :: 'a' :: 'l' :: 's' :: 'e' :: rest => some (.bool false, rest)
    | '"' :: rest => (parseString rest).map fun read => (.string read.1, read.2)
    | '[' :: rest =>
      match skipSpace rest with
      | ']' :: rest => some (.array [], rest)
      | rest => (parseItems fuel rest).map fun read => (.array read.1, read.2)
    | '{' :: rest =>
      match skipSpace rest with
      | '}' :: rest => some (.object [], rest)
      | rest => (parseMembers fuel rest).map fun read => (.object read.1, read.2)
    | rest => (parseNumber rest).map fun read => (.number read.1, read.2)
def parseItems : Nat → List Char → Option (List Value × List Char)
  | 0, _ => none
  | fuel + 1, input =>
    (parseValue fuel input).bind fun (item, rest) =>
      match skipSpace rest with
      | ',' :: rest => (parseItems fuel rest).map fun read => (item :: read.1, read.2)
      | ']' :: rest => some ([item], rest)
      | _ => none
def parseMembers : Nat → List Char → Option (List (String × Value) × List Char)
  | 0, _ => none
  | fuel + 1, input =>
    match skipSpace input with
    | '"' :: rest =>
      (parseString rest).bind fun (key, rest) =>
        match skipSpace rest with
        | ':' :: rest =>
          (parseValue fuel rest).bind fun (value, rest) =>
            match skipSpace rest with
            | ',' :: rest => (parseMembers fuel rest).map fun read => ((key, value) :: read.1, read.2)
            | '}' :: rest => some ([(key, value)], rest)
            | _ => none
        | _ => none
    | _ => none
end

/-- A whole text is one value with white space around it. -/
def parse (text : List Char) : Option Value :=
  match parseValue (2 * text.length + 1) text with
  | some (value, rest) => if skipSpace rest = [] then some value else none
  | none => none

theorem hexValue_hexDigit : ∀ n, n < 16 → hexValue (hexDigit n) = some n := by decide

/-- One escaped character is read back as itself. -/
theorem scan_escape (c : Char) (rest : List Char) :
    scan .plain (escape c ++ rest) = (scan .plain rest).map fun read => (c :: read.1, read.2) := by
  by_cases quote : c = '"'
  · subst quote
    rfl
  by_cases backslash : c = '\\'
  · subst backslash
    rfl
  by_cases backspace : c = '\x08'
  · subst backspace
    rfl
  by_cases formFeed : c = '\x0c'
  · subst formFeed
    rfl
  by_cases newline : c = '\n'
  · subst newline
    rfl
  by_cases carriage : c = '\r'
  · subst carriage
    rfl
  by_cases tab : c = '\t'
  · subst tab
    rfl
  simp only [escape, quote, backslash, backspace, formFeed, newline, carriage, tab, if_false]
  split
  · rename_i control
    have high := hexValue_hexDigit (c.toNat / 16) (by omega)
    have low := hexValue_hexDigit (c.toNat % 16) (by omega)
    have zero : hexValue '0' = some 0 := by decide
    have code : 16 * (16 * (16 * (16 * 0 + 0) + 0) + c.toNat / 16) + c.toNat % 16 = c.toNat := by omega
    simp only [List.cons_append, List.nil_append, scan, zero, high, low, Option.bind_some, code, Char.reduceEq,
      if_false, if_true, Char.ofNat_toNat]
    rw [if_neg (by omega), if_neg (by omega)]
  · rename_i printable
    simp [scan, quote, backslash, printable]

theorem parseString_quote (text : String) (rest : List Char) :
    parseString (text.toList.flatMap escape ++ '"' :: rest) = some (text, rest) := by
  have scanned : ∀ chars : List Char, scan .plain (chars.flatMap escape ++ '"' :: rest) = some (chars, rest) := by
    intro chars
    induction chars with
    | nil => simp [scan]
    | cons c chars ih => rw [List.flatMap_cons, List.append_assoc, scan_escape, ih, Option.map_some]
  rw [parseString, scanned, Option.map_some, String.ofList_toList]

/-- What may follow a value: anything that cannot continue a number. -/
def Follows (rest : List Char) : Prop := rest.head?.all fun c => !isNumberChar c

theorem parseNumber_text (literal : Literal) {rest : List Char} (follows : Follows rest) :
    parseNumber (literal.text ++ rest) = some (literal, rest) := by
  have chars : ∀ c ∈ literal.text, isNumberChar c := by
    have valid := literal.valid
    simp only [isNumber, Bool.and_eq_true, List.all_eq_true] at valid
    exact valid.1
  have ends : rest.takeWhile isNumberChar = [] ∧ rest.dropWhile isNumberChar = rest := by
    cases rest with
    | nil => exact ⟨rfl, rfl⟩
    | cons c tail =>
      have stops : isNumberChar c = false := by simpa [Follows] using follows
      simp [stops]
  have taken : (literal.text ++ rest).takeWhile isNumberChar = literal.text := by
    rw [List.takeWhile_append_of_pos chars, ends.1, List.append_nil]
  have dropped : (literal.text ++ rest).dropWhile isNumberChar = rest := by
    rw [List.dropWhile_append_of_pos chars, ends.2]
  unfold parseNumber
  simp only [taken, dropped, literal.valid, dite_true]

theorem Literal.cons (literal : Literal) :
    ∃ c tail, literal.text = c :: tail ∧ isNumberChar c := by
  obtain ⟨text, valid⟩ := literal
  cases text with
  | nil => cases valid
  | cons c tail =>
    simp only [isNumber, List.all_cons, Bool.and_eq_true] at valid
    exact ⟨c, tail, rfl, valid.1.1⟩

theorem isNumberChar_ne {c : Char} (number : isNumberChar c) : isSpace c = false ∧ c ≠ ']' ∧ c ≠ 'n' ∧ c ≠ 't' ∧
    c ≠ 'f' ∧ c ≠ '"' ∧ c ≠ '[' ∧ c ≠ '{' := by
  refine ⟨?_, ?_, ?_, ?_, ?_, ?_, ?_, ?_⟩
  · cases space : isSpace c with
    | false => rfl
    | true =>
      simp only [isSpace, Bool.or_eq_true, decide_eq_true_eq] at space
      rcases space with ((rfl | rfl) | rfl) | rfl <;> cases number
  all_goals
    rintro rfl
    cases number

/-- The text of a value starts with a character that is neither space nor a closing
bracket. -/
theorem stringify_cons (value : Value) :
    ∃ c tail, stringify value = c :: tail ∧ isSpace c = false ∧ c ≠ ']' := by
  cases value with
  | null => exact ⟨'n', _, by rw [stringify], rfl, by decide⟩
  | bool value => cases value <;> exact ⟨_, _, by rw [stringify], rfl, by decide⟩
  | number literal =>
    obtain ⟨c, tail, text, number⟩ := literal.cons
    exact ⟨c, tail, by rw [stringify, text], (isNumberChar_ne number).1, (isNumberChar_ne number).2.1⟩
  | string text => exact ⟨'"', _, by rw [stringify, quote]; rfl, rfl, by decide⟩
  | array items => exact ⟨'[', _, by rw [stringify]; rfl, rfl, by decide⟩
  | object members => exact ⟨'{', _, by rw [stringify]; rfl, rfl, by decide⟩

theorem stringifyItems_cons (item : Value) (items : List Value) :
    ∃ c tail, stringifyItems (item :: items) = c :: tail ∧ isSpace c = false ∧ c ≠ ']' := by
  obtain ⟨c, tail, text, dark, ne⟩ := stringify_cons item
  cases items with
  | nil => exact ⟨c, tail, by rw [stringifyItems, text], dark, ne⟩
  | cons next items => exact ⟨c, _, by rw [stringifyItems, text]; rfl, dark, ne⟩

theorem stringifyMembers_cons (member : String × Value) (members : List (String × Value)) :
    ∃ tail, stringifyMembers (member :: members) = '"' :: tail := by
  cases members with
  | nil => exact ⟨_, by rw [stringifyMembers, quote]; rfl⟩
  | cons next members => exact ⟨_, by rw [stringifyMembers, quote]; rfl⟩

theorem skipSpace_cons {c : Char} {rest : List Char} (dark : isSpace c = false) :
    skipSpace (c :: rest) = c :: rest := by
  simp [skipSpace, dark]

theorem skipSpace_stringify (value : Value) (rest : List Char) :
    skipSpace (stringify value ++ rest) = stringify value ++ rest := by
  obtain ⟨c, tail, text, dark, -⟩ := stringify_cons value
  rw [text]
  exact skipSpace_cons dark

/-- A value that starts like a number is one. -/
theorem parseValue_number {fuel : Nat} {c : Char} {input tail : List Char} (start : skipSpace input = c :: tail)
    (number : isNumberChar c) :
    parseValue (fuel + 1) input = (parseNumber (c :: tail)).map fun read => (.number read.1, read.2) := by
  obtain ⟨-, -, n, t, f, string, array, object⟩ := isNumberChar_ne number
  rw [parseValue, start]
  split <;> rename_i same <;> simp_all

theorem parseValue_array {fuel : Nat} {c : Char} {tail : List Char} (dark : isSpace c = false) (ne : c ≠ ']') :
    parseValue (fuel + 1) ('[' :: c :: tail) =
      (parseItems fuel (c :: tail)).map fun read => (.array read.1, read.2) := by
  have opened : skipSpace ('[' :: c :: tail) = '[' :: c :: tail := skipSpace_cons rfl
  rw [parseValue, opened]
  simp only [skipSpace_cons dark]
  split
  · simp_all
  · rfl

theorem parseMembers_member {fuel : Nat} (key : String) (rest : List Char) :
    parseMembers (fuel + 1) (quote key ++ ':' :: rest) =
      (parseValue fuel rest).bind fun (value, rest) =>
        match skipSpace rest with
        | ',' :: rest => (parseMembers fuel rest).map fun read => ((key, value) :: read.1, read.2)
        | '}' :: rest => some ([(key, value)], rest)
        | _ => none := by
  have opened : skipSpace (quote key ++ ':' :: rest) = quote key ++ ':' :: rest := skipSpace_cons rfl
  have colon : skipSpace (':' :: rest) = ':' :: rest := skipSpace_cons rfl
  rw [parseMembers, opened]
  simp only [quote, List.cons_append, List.append_assoc, List.nil_append, parseString_quote, Option.bind_some, colon]

mutual
/-- A value's text is read as that value, whatever follows it. -/
theorem parseValue_stringify (value : Value) (fuel : Nat) (rest : List Char)
    (enough : 2 * (stringify value).length ≤ fuel) (follows : Follows rest) :
    parseValue fuel (stringify value ++ rest) = some (value, rest) := by
  obtain ⟨c, tail, text, dark, -⟩ := stringify_cons value
  obtain ⟨fuel, rfl⟩ : ∃ less, fuel = less + 1 := ⟨fuel - 1, by simp [text] at enough; omega⟩
  have start := skipSpace_stringify value rest
  match value with
  | .null => rw [parseValue, start]; rfl
  | .bool true => rw [parseValue, start]; rfl
  | .bool false => rw [parseValue, start]; rfl
  | .number literal =>
    obtain ⟨d, digits, written, number⟩ := literal.cons
    rw [stringify] at start ⊢
    have begins : skipSpace (literal.text ++ rest) = d :: (digits ++ rest) := by
      rw [start, written, List.cons_append]
    rw [parseValue_number begins number, ← List.cons_append, ← written, parseNumber_text literal follows,
      Option.map_some]
  | .string content =>
    rw [parseValue, start]
    simp only [stringify, quote, List.cons_append, List.append_assoc, List.nil_append, parseString_quote,
      Option.map_some]
  | .array [] => rw [parseValue, start]; rfl
  | .array (item :: items) =>
    rw [stringify] at enough ⊢
    simp only [List.cons_append, List.length_cons, List.length_append] at enough
    have read := parseItems_stringify (item :: items) fuel rest (by simp) (by omega)
    obtain ⟨d, after, head, dark', ne⟩ := stringifyItems_cons item items
    simp only [List.cons_append, List.append_assoc, List.nil_append]
    rw [head, List.cons_append] at read ⊢
    rw [parseValue_array dark' ne, read, Option.map_some]
  | .object [] => rw [parseValue, start]; rfl
  | .object (member :: members) =>
    rw [stringify] at enough ⊢
    simp only [List.cons_append, List.length_cons, List.length_append] at enough
    have read := parseMembers_stringify (member :: members) fuel rest (by simp) (by omega)
    obtain ⟨after, head⟩ := stringifyMembers_cons member members
    simp only [List.cons_append, List.append_assoc, List.nil_append]
    rw [head, List.cons_append] at read ⊢
    have opened : parseValue (fuel + 1) ('{' :: '"' :: (after ++ '}' :: rest)) =
      (parseMembers fuel ('"' :: (after ++ '}' :: rest))).map fun read => (.object read.1, read.2) := by
      rw [parseValue]; rfl
    rw [opened, read, Option.map_some]
theorem parseItems_stringify (items : List Value) (fuel : Nat) (rest : List Char) (nonempty : items ≠ [])
    (enough : 2 * (stringifyItems items).length + 1 ≤ fuel) :
    parseItems fuel (stringifyItems items ++ ']' :: rest) = some (items, rest) := by
  obtain ⟨fuel, rfl⟩ : ∃ less, fuel = less + 1 := ⟨fuel - 1, by omega⟩
  match items with
  | [item] =>
    rw [stringifyItems] at enough ⊢
    have read := parseValue_stringify item fuel (']' :: rest) (by omega) rfl
    rw [parseItems, read]
    rfl
  | item :: next :: items =>
    rw [stringifyItems] at enough ⊢
    simp only [List.length_append, List.length_cons] at enough
    have read := parseValue_stringify item fuel (',' :: (stringifyItems (next :: items) ++ ']' :: rest))
      (by omega) rfl
    have later := parseItems_stringify (next :: items) fuel rest (by simp) (by omega)
    rw [List.append_assoc, List.cons_append, parseItems, read]
    have comma : skipSpace (',' :: (stringifyItems (next :: items) ++ ']' :: rest)) = _ := skipSpace_cons rfl
    simp only [Option.bind_some, comma, later, Option.map_some]
theorem parseMembers_stringify (members : List (String × Value)) (fuel : Nat) (rest : List Char)
    (nonempty : members ≠ []) (enough : 2 * (stringifyMembers members).length + 1 ≤ fuel) :
    parseMembers fuel (stringifyMembers members ++ '}' :: rest) = some (members, rest) := by
  obtain ⟨fuel, rfl⟩ : ∃ less, fuel = less + 1 := ⟨fuel - 1, by omega⟩
  match members with
  | [(key, value)] =>
    rw [stringifyMembers] at enough ⊢
    simp only [List.length_append, List.length_cons] at enough
    have read := parseValue_stringify value fuel ('}' :: rest) (by omega) rfl
    rw [List.append_assoc, List.cons_append, parseMembers_member, read]
    rfl
  | (key, value) :: next :: members =>
    rw [stringifyMembers] at enough ⊢
    simp only [List.length_append, List.length_cons, List.append_assoc, List.cons_append] at enough ⊢
    have read := parseValue_stringify value fuel (',' :: (stringifyMembers (next :: members) ++ '}' :: rest))
      (by omega) rfl
    have later := parseMembers_stringify (next :: members) fuel rest (by simp) (by omega)
    have comma : skipSpace (',' :: (stringifyMembers (next :: members) ++ '}' :: rest)) = _ := skipSpace_cons rfl
    rw [parseMembers_member, read]
    simp only [Option.bind_some, comma, later, Option.map_some]
end

/-- Parsing inverts `JSON.stringify`. -/
theorem parse_stringify (value : Value) : parse (stringify value) = some value := by
  have read := parseValue_stringify value (2 * (stringify value).length + 1) [] (by omega) rfl
  rw [List.append_nil] at read
  rw [parse, read]
  rfl

section Paths

/-- A step into a value. -/
inductive Step where
  | key (key : String)
  | item (index : Nat)
  deriving DecidableEq

/-- What a value is, without the values inside of it. -/
inductive Outline where
  | null
  | bool (value : Bool)
  | number (literal : Literal)
  | string (text : String)
  | array (length : Nat)
  /-- The keys in their order. -/
  | object (keys : List String)
  deriving DecidableEq

def outline : Value → Outline
  | .null => .null
  | .bool value => .bool value
  | .number literal => .number literal
  | .string text => .string text
  | .array items => .array items.length
  | .object members => .object (members.map Prod.fst)

def child : Value → Step → Option Value
  | .object members, .key key => (members.find? (·.1 = key)).map Prod.snd
  | .array items, .item index => items[index]?
  | _, _ => none

/-- The value at the end of a path, if the path leads anywhere. -/
def valueAt (value : Value) : List Step → Option Value
  | [] => some value
  | step :: rest => (child value step).bind fun inner => valueAt inner rest

mutual
/-- The keys of all objects, at any depth. -/
def allKeys : Value → List String
  | .array items => itemKeys items
  | .object members => memberKeys members
  | _ => []
def itemKeys : List Value → List String
  | [] => []
  | item :: rest => allKeys item ++ itemKeys rest
def memberKeys : List (String × Value) → List String
  | [] => []
  | (key, value) :: rest => key :: allKeys value ++ memberKeys rest
end

end Paths

end AfroPay.Json
