import LlmGateway.Lib.JsonCanon
import LlmGateway.Lib.PyInt
import LlmGateway.Lib.Text

/-! JSON values without fractions as ASCII text, and the text read back. -/
namespace LlmGateway.Lib.Json

/-! ### Strings -/

def unicodeEscape (n : Nat) : List Char := '\\' :: 'u' :: fixedDigits 16 4 n

/-- A character outside printable ASCII is escaped, above the first plane as two surrogates. -/
def escapeChar (c : Char) : List Char :=
  if c = '"' then ['\\', '"']
  else if c = '\\' then ['\\', '\\']
  else if c = '\n' then ['\\', 'n']
  else if c = '\r' then ['\\', 'r']
  else if c = '\t' then ['\\', 't']
  else if c = '\x08' then ['\\', 'b']
  else if c = '\x0c' then ['\\', 'f']
  else if ' ' ≤ c ∧ c ≤ '~' then [c]
  else if c.toNat < 0x10000 then unicodeEscape c.toNat
  else
    let n := c.toNat - 0x10000
    unicodeEscape (0xd800 + n / 0x400) ++ unicodeEscape (0xdc00 + n % 0x400)

def quote (s : String) : List Char := '"' :: (s.toList.flatMap escapeChar ++ ['"'])

def hexDigit (c : Char) : Option Nat :=
  if '0' ≤ c ∧ c ≤ '9' then some (c.toNat - '0'.toNat)
  else if 'a' ≤ c ∧ c ≤ 'f' then some (c.toNat - 'a'.toNat + 10)
  else if 'A' ≤ c ∧ c ≤ 'F' then some (c.toNat - 'A'.toNat + 10)
  else none

def hex4 : List Char → Option (Nat × List Char)
  | a :: b :: c :: d :: rest =>
    (hexDigit a).bind fun a => (hexDigit b).bind fun b => (hexDigit c).bind fun c => (hexDigit d).map fun d =>
      (((a * 16 + b) * 16 + c) * 16 + d, rest)
  | _ => none

/-- The second half of a surrogate pair. -/
def lowSurrogate (high : Nat) : List Char → Option (Char × List Char)
  | '\\' :: 'u' :: rest =>
    (hex4 rest).bind fun (low, rest) =>
      if 0xdc00 ≤ low ∧ low < 0xe000 then
        some (Char.ofNat (0x10000 + (high - 0xd800) * 0x400 + (low - 0xdc00)), rest)
      else none
  | _ => none

/-- What follows a backslash. A lone surrogate is no character. -/
def unescape : List Char → Option (Char × List Char)
  | '"' :: rest => some ('"', rest)
  | '\\' :: rest => some ('\\', rest)
  | '/' :: rest => some ('/', rest)
  | 'b' :: rest => some ('\x08', rest)
  | 'f' :: rest => some ('\x0c', rest)
  | 'n' :: rest => some ('\n', rest)
  | 'r' :: rest => some ('\r', rest)
  | 't' :: rest => some ('\t', rest)
  | 'u' :: rest =>
    (hex4 rest).bind fun (n, rest) =>
      if 0xd800 ≤ n ∧ n < 0xdc00 then lowSurrogate n rest
      else if 0xdc00 ≤ n ∧ n < 0xe000 then none
      else some (Char.ofNat n, rest)
  | _ => none

/-- A string after its opening quote. `fuel` bounds its characters. -/
def parseString : Nat → List Char → Option (List Char × List Char)
  | 0, _ => none
  | _ + 1, [] => none
  | fuel + 1, c :: rest =>
    if c = '"' then some ([], rest)
    else if c = '\\' then
      (unescape rest).bind fun (c, rest) => (parseString fuel rest).map fun (text, rest) => (c :: text, rest)
    else if c < ' ' then none
    else (parseString fuel rest).map fun (text, rest) => (c :: text, rest)

private theorem hexDigit_digitChar : ∀ d < 16, hexDigit (Nat.digitChar d) = some d := by decide

private theorem hex4_fixedDigits {n : Nat} (h : n < 0x10000) (rest : List Char) :
    hex4 (fixedDigits 16 4 n ++ rest) = some (n, rest) := by
  have low : ∀ x, hexDigit (Nat.digitChar (x % 16)) = some (x % 16) := fun x =>
    hexDigit_digitChar _ (Nat.mod_lt _ (by decide))
  have none_left : fixedDigits 16 0 n = [] := rfl
  rw [fixedDigits_succ, fixedDigits_succ, fixedDigits_succ, fixedDigits_succ, none_left]
  simp only [List.cons_append, List.nil_append, hex4, low, Option.bind_some, Option.map_some, Option.some.injEq,
    Prod.mk.injEq, and_true]
  omega

/-- The scalar values leave out the surrogates. -/
private theorem toNat_scalar (c : Char) : c.toNat < 0xd800 ∨ 0xe000 ≤ c.toNat ∧ c.toNat < 0x110000 := by
  rcases c.valid with h | ⟨low, high⟩
  · exact .inl h
  · exact .inr ⟨low, high⟩

private theorem parseString_backslash {fuel : Nat} {c : Char} {tail rest : List Char}
    (h : unescape tail = some (c, rest)) : parseString (fuel + 1) ('\\' :: tail) =
      (parseString fuel rest).map fun (text, rest) => (c :: text, rest) := by
  rw [parseString, if_neg (by decide), if_pos rfl, h, Option.bind_some]

private theorem unescape_unicode {c : Char} (plane : c.toNat < 0x10000) (rest : List Char) :
    unescape ('u' :: (fixedDigits 16 4 c.toNat ++ rest)) = some (c, rest) := by
  have scalar := toNat_scalar c
  rw [unescape, hex4_fixedDigits plane, Option.bind_some]
  dsimp only
  rw [if_neg (by omega), if_neg (by omega), Char.ofNat_toNat]

private theorem unescape_surrogates {c : Char} (beyond : 0x10000 ≤ c.toNat) (rest : List Char) :
    unescape ('u' :: (fixedDigits 16 4 (0xd800 + (c.toNat - 0x10000) / 0x400) ++
      (unicodeEscape (0xdc00 + (c.toNat - 0x10000) % 0x400) ++ rest))) = some (c, rest) := by
  have scalar := toNat_scalar c
  rw [unescape, hex4_fixedDigits (by omega), Option.bind_some]
  dsimp only
  rw [if_pos (by omega), unicodeEscape, List.cons_append, List.cons_append, lowSurrogate, hex4_fixedDigits (by omega),
    Option.bind_some]
  dsimp only
  rw [if_pos (by omega)]
  have whole : 0x10000 + (0xd800 + (c.toNat - 0x10000) / 0x400 - 0xd800) * 0x400 +
      (0xdc00 + (c.toNat - 0x10000) % 0x400 - 0xdc00) = c.toNat := by omega
  rw [whole, Char.ofNat_toNat]

/-- A character's escape is read back. -/
private theorem parseString_escapeChar (fuel : Nat) (c : Char) (rest : List Char) :
    parseString (fuel + 1) (escapeChar c ++ rest) =
      (parseString fuel rest).map fun (text, rest) => (c :: text, rest) := by
  unfold escapeChar
  split
  next h => subst h; exact parseString_backslash rfl
  next no_quote =>
  split
  next h => subst h; exact parseString_backslash rfl
  next no_backslash =>
  split
  next h => subst h; exact parseString_backslash rfl
  next =>
  split
  next h => subst h; exact parseString_backslash rfl
  next =>
  split
  next h => subst h; exact parseString_backslash rfl
  next =>
  split
  next h => subst h; exact parseString_backslash rfl
  next =>
  split
  next h => subst h; exact parseString_backslash rfl
  next =>
  split
  next printable =>
    rw [List.singleton_append, parseString, if_neg no_quote, if_neg no_backslash, if_neg (Char.not_lt.mpr printable.1)]
  next =>
  split
  next plane => exact parseString_backslash (unescape_unicode plane rest)
  next beyond =>
    rw [List.append_assoc]
    exact parseString_backslash (unescape_surrogates (not_lt.mp beyond) rest)

/-- A quoted string is read back. -/
theorem parseString_quote {fuel : Nat} {text : List Char} (h : text.length < fuel) (rest : List Char) :
    parseString fuel (text.flatMap escapeChar ++ '"' :: rest) = some (text, rest) := by
  induction text generalizing fuel with
  | nil =>
    obtain ⟨fuel, rfl⟩ := Nat.exists_eq_succ_of_ne_zero (Nat.ne_of_gt h)
    rw [List.flatMap_nil, List.nil_append, parseString, if_pos rfl]
  | cons c text ih =>
    obtain ⟨fuel, rfl⟩ := Nat.exists_eq_succ_of_ne_zero (Nat.ne_of_gt (Nat.zero_lt_of_lt h))
    rw [List.flatMap_cons, List.append_assoc, parseString_escapeChar, ih (Nat.succ_lt_succ_iff.mp h)]
    rfl

/-! ### Numbers -/

def intText : Int → List Char
  | .ofNat n => Nat.toDigits 10 n
  | .negSucc n => '-' :: Nat.toDigits 10 (n + 1)

/-- No digit follows a leading zero. -/
def parseNat : List Char → Option (Nat × List Char)
  | [] => none
  | c :: rest =>
    if c = '0' then some (0, rest)
    else if c.isDigit then
      some (Nat.ofDigitChars 10 ((c :: rest).takeWhile Char.isDigit) 0, (c :: rest).dropWhile Char.isDigit)
    else none

def parseInt : List Char → Option (Int × List Char)
  | '-' :: rest => (parseNat rest).map fun (n, rest) => (-(n : Int), rest)
  | text => (parseNat text).map fun (n, rest) => ((n : Int), rest)

/-- What goes on a number: a digit, a fraction or an exponent. -/
def continuesNumber (c : Char) : Bool := c.isDigit || c = '.' || c = 'e' || c = 'E'

/-- A number with a fraction or an exponent is none of these values. -/
def parseNumber (text : List Char) : Option (Json Empty × List Char) :=
  (parseInt text).bind fun (n, rest) => if rest.head?.any continuesNumber then none else some (.int n, rest)

private theorem toDigits_head {n : Nat} (pos : 0 < n) : ∃ c rest, Nat.toDigits 10 n = c :: rest ∧ c ≠ '0' := by
  induction n using Nat.strongRecOn with
  | ind n ih =>
    by_cases small : n < 10
    · refine ⟨Nat.digitChar n, [], Nat.toDigits_of_lt_base small, ?_⟩
      exact (by decide : ∀ d < 10, 0 < d → Nat.digitChar d ≠ '0') n small pos
    · obtain ⟨c, rest, heq, hc⟩ := ih (n / 10) (by omega) (by omega)
      refine ⟨c, rest ++ [Nat.digitChar (n % 10)], ?_, hc⟩
      rw [Nat.toDigits_of_base_le (by decide) (Nat.not_lt.mp small), heq, List.cons_append]

private theorem parseNat_toDigits (n : Nat) {rest : List Char} (h : rest.head?.any continuesNumber = false) :
    parseNat (Nat.toDigits 10 n ++ rest) = some (n, rest) := by
  rcases Nat.eq_zero_or_pos n with rfl | pos
  · rfl
  · obtain ⟨c, tail, heq, hc⟩ := toDigits_head pos
    have digits : ∀ d ∈ Nat.toDigits 10 n, d.isDigit = true := fun d hd =>
      Nat.isDigit_of_mem_toDigits (by decide) (by decide) hd
    have stop : ∀ p : Char → Bool, (∀ d, p d = d.isDigit) → rest.takeWhile p = [] ∧ rest.dropWhile p = rest := by
      intro p hp
      cases rest with
      | nil => exact ⟨rfl, rfl⟩
      | cons d rest =>
        have no_digit : p d = false := by
          rw [hp]
          simp only [List.head?_cons, Option.any_some, continuesNumber, Bool.or_eq_false_iff] at h
          exact h.1.1.1
        exact ⟨List.takeWhile_cons_of_neg (by simp [no_digit]), List.dropWhile_cons_of_neg (by simp [no_digit])⟩
    obtain ⟨taken, dropped⟩ := stop Char.isDigit fun _ => rfl
    rw [heq, List.cons_append, parseNat, if_neg hc, if_pos (digits c (heq ▸ List.mem_cons_self)), ← List.cons_append,
      ← heq, List.takeWhile_append_of_pos digits, List.dropWhile_append_of_pos digits, taken, dropped,
      List.append_nil, Nat.ofDigitChars_ten_toDigits]

theorem parseNumber_intText (n : Int) {rest : List Char} (h : rest.head?.any continuesNumber = false) :
    parseNumber (intText n ++ rest) = some (.int n, rest) := by
  have read : parseInt (intText n ++ rest) = some (n, rest) := by
    cases n with
    | ofNat n =>
      have unsigned : ∀ tail, Nat.toDigits 10 n ++ rest ≠ '-' :: tail := by
        intro tail heq
        obtain ⟨c, digits, hdigits⟩ := List.exists_cons_of_ne_nil (Nat.toDigits_ne_nil (n := n) (b := 10))
        have digit := Nat.isDigit_of_mem_toDigits (c := c) (by decide) (by decide) (hdigits ▸ List.mem_cons_self)
        rw [hdigits] at heq
        cases heq
        cases digit
      rw [intText, parseInt]
      · rw [parseNat_toDigits n h]
        rfl
      · exact unsigned
    | negSucc n =>
      rw [intText, List.cons_append, parseInt, parseNat_toDigits (n + 1) h]
      rfl
  rw [parseNumber, read, Option.bind_some]
  dsimp only
  rw [h]
  rfl

/-! ### Values -/

/-- Between items, and after a key: with a space or without. -/
def itemSeparator (spaced : Bool) : List Char := if spaced then [',', ' '] else [',']

def keySeparator (spaced : Bool) : List Char := if spaced then [':', ' '] else [':']

mutual

def text (spaced : Bool) : Json Empty → List Char
  | .null => ['n', 'u', 'l', 'l']
  | .bool true => ['t', 'r', 'u', 'e']
  | .bool false => ['f', 'a', 'l', 's', 'e']
  | .int n => intText n
  | .float x => x.elim
  | .str s => quote s
  | .arr items => '[' :: ((itemSeparator spaced).intercalate (itemTexts spaced items) ++ [']'])
  | .obj members => '{' :: ((itemSeparator spaced).intercalate (memberTexts spaced members) ++ ['}'])

def itemTexts (spaced : Bool) : List (Json Empty) → List (List Char)
  | [] => []
  | item :: items => text spaced item :: itemTexts spaced items

def memberTexts (spaced : Bool) : List (String × Json Empty) → List (List Char)
  | [] => []
  | (key, value) :: members => (quote key ++ keySeparator spaced ++ text spaced value) :: memberTexts spaced members

end

mutual

/-- An integer has more digits than `int` prints. -/
def overlong : Json Empty → Bool
  | .int n => PyInt.maxStrDigits < (Nat.toDigits 10 n.natAbs).length
  | .arr items => overlongItems items
  | .obj members => overlongMembers members
  | _ => false

def overlongItems : List (Json Empty) → Bool
  | [] => false
  | item :: items => overlong item || overlongItems items

def overlongMembers : Members Empty → Bool
  | [] => false
  | (_, value) :: members => overlong value || overlongMembers members

end

/-- `json.dumps`, which raises for an integer too long to print. -/
def dumps (spaced sortKeys : Bool) (v : Json Empty) : Option (List Char) :=
  if overlong v then none else some (text spaced (if sortKeys then canon v else v))

def isWhitespace (c : Char) : Bool := c ∈ [' ', '\t', '\n', '\r']

def skip (text : List Char) : List Char := text.dropWhile isWhitespace

/-- The rest of a literal. -/
def literal (value : Json Empty) (word rest : List Char) : Option (Json Empty × List Char) :=
  if word.isPrefixOf rest then some (value, rest.drop word.length) else none

mutual

def parseValue : Nat → List Char → Option (Json Empty × List Char)
  | 0, _ => none
  | fuel + 1, input =>
    match skip input with
    | [] => none
    | c :: rest =>
      if c = '"' then (parseString fuel rest).map fun (text, rest) => (.str (String.ofList text), rest)
      else if c = '[' then
        match skip rest with
        | [] => none
        | d :: tail =>
          if d = ']' then some (.arr [], tail)
          else (parseItems fuel (d :: tail)).map fun (items, rest) => (.arr items, rest)
      else if c = '{' then
        match skip rest with
        | [] => none
        | d :: tail =>
          if d = '}' then some (.obj [], tail)
          else (parseMembers fuel (d :: tail)).map fun (members, rest) => (.obj members, rest)
      else if c = 'n' then literal .null ['u', 'l', 'l'] rest
      else if c = 't' then literal (.bool true) ['r', 'u', 'e'] rest
      else if c = 'f' then literal (.bool false) ['a', 'l', 's', 'e'] rest
      else parseNumber (c :: rest)

/-- The items of an array that is not empty, and its closing bracket. -/
def parseItems : Nat → List Char → Option (List (Json Empty) × List Char)
  | 0, _ => none
  | fuel + 1, input =>
    (parseValue fuel input).bind fun (item, rest) =>
      match skip rest with
      | [] => none
      | d :: rest =>
        if d = ']' then some ([item], rest)
        else if d = ',' then (parseItems fuel rest).map fun (items, rest) => (item :: items, rest)
        else none

def parseMembers : Nat → List Char → Option (List (String × Json Empty) × List Char)
  | 0, _ => none
  | fuel + 1, input =>
    match skip input with
    | [] => none
    | c :: rest =>
      if c = '"' then
        (parseString fuel rest).bind fun (key, rest) =>
          match skip rest with
          | [] => none
          | c :: rest =>
            if c = ':' then
              (parseValue fuel rest).bind fun (value, rest) =>
                match skip rest with
                | [] => none
                | d :: rest =>
                  if d = '}' then some ([(String.ofList key, value)], rest)
                  else if d = ',' then
                    (parseMembers fuel rest).map fun (members, rest) => ((String.ofList key, value) :: members, rest)
                  else none
            else none
      else none

end

/-- A value and nothing after it. -/
def loads (text : List Char) : Option (Json Empty) :=
  (parseValue (text.length + 1) text).bind fun (value, rest) => if skip rest = [] then some value else none

/-! ### What is written is read back -/

variable {spaced : Bool}

private theorem skip_cons {c : Char} (h : isWhitespace c = false) (rest : List Char) : skip (c :: rest) = c :: rest :=
  List.dropWhile_cons_of_neg (by simp [h])

private theorem skip_space (rest : List Char) : skip (' ' :: rest) = skip rest := List.dropWhile_cons_of_pos rfl

private theorem parseValue_space (fuel : Nat) (rest : List Char) : parseValue fuel (' ' :: rest) = parseValue fuel rest := by
  cases fuel with
  | zero => rfl
  | succ fuel =>
    conv_rhs => rw [parseValue]
    rw [parseValue, skip_space]

private theorem parseItems_space (fuel : Nat) (rest : List Char) : parseItems fuel (' ' :: rest) = parseItems fuel rest := by
  cases fuel with
  | zero => rfl
  | succ fuel =>
    conv_rhs => rw [parseItems]
    rw [parseItems, parseValue_space]

private theorem parseMembers_space (fuel : Nat) (rest : List Char) :
    parseMembers fuel (' ' :: rest) = parseMembers fuel rest := by
  cases fuel with
  | zero => rfl
  | succ fuel =>
    conv_rhs => rw [parseMembers]
    rw [parseMembers, skip_space]

private theorem separated_items (fuel : Nat) (rest : List Char) :
    parseItems fuel ((itemSeparator spaced).tail ++ rest) = parseItems fuel rest := by
  cases spaced with
  | true => exact parseItems_space fuel rest
  | false => rfl

private theorem separated_members (fuel : Nat) (rest : List Char) :
    parseMembers fuel ((itemSeparator spaced).tail ++ rest) = parseMembers fuel rest := by
  cases spaced with
  | true => exact parseMembers_space fuel rest
  | false => rfl

private theorem separated_value (fuel : Nat) (rest : List Char) :
    parseValue fuel ((keySeparator spaced).tail ++ rest) = parseValue fuel rest := by
  cases spaced with
  | true => exact parseValue_space fuel rest
  | false => rfl

private theorem itemSeparator_eq : itemSeparator spaced = ',' :: (itemSeparator spaced).tail := by
  cases spaced with
  | true | false => rfl

private theorem keySeparator_eq : keySeparator spaced = ':' :: (keySeparator spaced).tail := by
  cases spaced with
  | true | false => rfl

/-- A number begins with a digit or a sign, and with nothing that begins another value. -/
private theorem intText_head (n : Int) : ∃ c rest, intText n = c :: rest ∧ (c.isDigit = true ∨ c = '-') := by
  cases n with
  | ofNat n =>
    obtain ⟨c, digits, heq⟩ := List.exists_cons_of_ne_nil (Nat.toDigits_ne_nil (n := n) (b := 10))
    exact ⟨c, digits, heq, .inl (Nat.isDigit_of_mem_toDigits (by decide) (by decide) (heq ▸ List.mem_cons_self))⟩
  | negSucc n => exact ⟨'-', _, rfl, .inr rfl⟩

private theorem not_numeric {c d : Char} (h : c.isDigit = true ∨ c = '-') (hd : d.isDigit = false) (hm : d ≠ '-') :
    c ≠ d := by
  rintro rfl
  rcases h with h | h
  · rw [hd] at h
    cases h
  · exact hm h

private theorem numeric_not_whitespace {c : Char} (h : c.isDigit = true ∨ c = '-') : isWhitespace c = false := by
  refine decide_eq_false ?_
  simp only [List.mem_cons, List.not_mem_nil, or_false, not_or]
  exact ⟨not_numeric h rfl (by decide), not_numeric h rfl (by decide), not_numeric h rfl (by decide),
    not_numeric h rfl (by decide)⟩

/-- How the text of a value begins. -/
private theorem text_head (spaced : Bool) (v : Json Empty) :
    ∃ c rest, text spaced v = c :: rest ∧ isWhitespace c = false ∧ c ≠ ']' := by
  cases v with
  | null => exact ⟨_, _, rfl, rfl, by decide⟩
  | bool b =>
    cases b with
    | true => exact ⟨_, _, rfl, rfl, by decide⟩
    | false => exact ⟨_, _, rfl, rfl, by decide⟩
  | int n =>
    obtain ⟨c, rest, heq, numeric⟩ := intText_head n
    exact ⟨c, rest, by rw [text, heq], numeric_not_whitespace numeric, not_numeric numeric rfl (by decide)⟩
  | float x => exact x.elim
  | str s => exact ⟨'"', _, by rw [text, quote], rfl, by decide⟩
  | arr items => exact ⟨'[', _, by rw [text], rfl, by decide⟩
  | obj members => exact ⟨'{', _, by rw [text], rfl, by decide⟩

/-- A value is read back from its text, whatever follows that does not go on a number. -/
def ReadBack (spaced : Bool) (v : Json Empty) : Prop :=
  ∀ fuel rest, rest.head?.any continuesNumber = false → (text spaced v).length < fuel →
    parseValue fuel (text spaced v ++ rest) = some (v, rest)

private theorem parseItems_readBack {items : List (Json Empty)} (ne : items ≠ [])
    (h : ∀ item ∈ items, ReadBack spaced item) {fuel : Nat}
    (enough : ((itemSeparator spaced).intercalate (itemTexts spaced items)).length + 1 < fuel) (rest : List Char) :
    parseItems fuel ((itemSeparator spaced).intercalate (itemTexts spaced items) ++ ']' :: rest) =
      some (items, rest) := by
  induction items generalizing fuel with
  | nil => exact absurd rfl ne
  | cons item items ih =>
    obtain ⟨fuel, rfl⟩ := Nat.exists_eq_succ_of_ne_zero (Nat.ne_of_gt (Nat.zero_lt_of_lt enough))
    have first := h item List.mem_cons_self
    cases items with
    | nil =>
      rw [itemTexts, itemTexts, List.intercalate_singleton] at enough ⊢
      rw [parseItems, first fuel _ rfl (by omega), Option.bind_some]
      dsimp only
      rw [skip_cons rfl]
      rfl
    | cons next items =>
      have whole : itemTexts spaced (item :: next :: items) =
          text spaced item :: text spaced next :: itemTexts spaced items := by rw [itemTexts, itemTexts]
      have later : itemTexts spaced (next :: items) = text spaced next :: itemTexts spaced items := by rw [itemTexts]
      rw [whole, List.intercalate_cons_cons, ← later] at enough ⊢
      have separator : (itemSeparator spaced).length = (itemSeparator spaced).tail.length + 1 := by
        rw [itemSeparator_eq]
        rfl
      simp only [List.length_append] at enough
      rw [List.append_assoc, List.append_assoc, parseItems, itemSeparator_eq, List.cons_append]
      rw [first fuel _ rfl (by omega), Option.bind_some]
      dsimp only
      rw [skip_cons rfl]
      dsimp only
      rw [if_neg (by decide), if_pos rfl, ← itemSeparator_eq]
      rw [separated_items, ih (List.cons_ne_nil _ _) (fun item' h' => h item' (List.mem_cons_of_mem _ h')) (by omega)]
      rfl

private theorem escapeChar_length_pos (c : Char) : 1 ≤ (escapeChar c).length := by
  refine List.length_pos_iff.mpr ?_
  unfold escapeChar
  split_ifs <;> exact List.cons_ne_nil _ _

/-- A string in the text of a value: its escapes are at least as many as its characters. -/
private theorem parseString_text {fuel : Nat} {s : String} (enough : (quote s).length < fuel + 2) (rest : List Char) :
    parseString fuel (s.toList.flatMap escapeChar ++ '"' :: rest) = some (s.toList, rest) := by
  refine parseString_quote ?_ rest
  have escaped : s.toList.length ≤ (s.toList.flatMap escapeChar).length := by
    rw [List.length_flatMap, ← List.length_map (f := fun c => (escapeChar c).length)]
    refine List.length_le_sum_of_one_le _ fun n hn => ?_
    obtain ⟨c, -, rfl⟩ := List.mem_map.mp hn
    exact escapeChar_length_pos c
  rw [quote, List.length_cons, List.length_append, List.length_singleton] at enough
  omega

private theorem parseMembers_readBack {members : Members Empty} (ne : members ≠ [])
    (h : ∀ member ∈ members, ReadBack spaced member.2) {fuel : Nat}
    (enough : ((itemSeparator spaced).intercalate (memberTexts spaced members)).length + 1 < fuel) (rest : List Char) :
    parseMembers fuel ((itemSeparator spaced).intercalate (memberTexts spaced members) ++ '}' :: rest) =
      some (members, rest) := by
  induction members generalizing fuel with
  | nil => exact absurd rfl ne
  | cons member members ih =>
    obtain ⟨fuel, rfl⟩ := Nat.exists_eq_succ_of_ne_zero (Nat.ne_of_gt (Nat.zero_lt_of_lt enough))
    obtain ⟨key, value⟩ := member
    have first : ReadBack spaced value := h (key, value) List.mem_cons_self
    have colon : (keySeparator spaced).length = (keySeparator spaced).tail.length + 1 := by
      rw [keySeparator_eq]
      rfl
    -- one member and what follows its value
    have one : ∀ (d : Char) (tail : List Char), continuesNumber d = false → isWhitespace d = false →
        (quote key ++ keySeparator spaced ++ text spaced value).length + 1 < fuel + 1 →
        parseMembers (fuel + 1) (quote key ++ keySeparator spaced ++ text spaced value ++ d :: tail) =
          if d = '}' then some ([(key, value)], tail)
          else if d = ',' then (parseMembers fuel tail).map fun (members, rest) => ((key, value) :: members, rest)
          else none := by
      intro d tail ends visible room
      simp only [List.length_append] at room
      have key_room : (quote key).length < fuel + 2 := by omega
      rw [List.append_assoc, List.append_assoc, quote, List.cons_append, List.append_assoc, List.singleton_append,
        parseMembers, skip_cons rfl]
      dsimp only
      rw [if_pos rfl, parseString_text key_room, Option.bind_some]
      dsimp only
      rw [keySeparator_eq, List.cons_append, skip_cons rfl]
      dsimp only
      rw [if_pos rfl, separated_value, first fuel _ (by simpa using ends) (by omega), Option.bind_some]
      dsimp only
      rw [skip_cons visible, String.ofList_toList]
    cases members with
    | nil =>
      rw [memberTexts, memberTexts, List.intercalate_singleton] at enough ⊢
      rw [one '}' rest rfl rfl (by omega), if_pos rfl]
    | cons next members =>
      obtain ⟨first_text, hfirst⟩ : ∃ t, memberTexts spaced (next :: members) = t :: memberTexts spaced members := by
        rw [memberTexts]
        exact ⟨_, rfl⟩
      have whole : memberTexts spaced ((key, value) :: next :: members) =
          (quote key ++ keySeparator spaced ++ text spaced value) :: first_text :: memberTexts spaced members := by
        rw [memberTexts, hfirst]
      rw [whole, List.intercalate_cons_cons, ← hfirst] at enough ⊢
      have comma : (itemSeparator spaced).length = (itemSeparator spaced).tail.length + 1 := by
        rw [itemSeparator_eq]
        rfl
      rw [List.length_append, List.length_append] at enough
      rw [List.append_assoc, List.append_assoc _ (itemSeparator spaced), itemSeparator_eq, List.cons_append]
      rw [one ',' _ rfl rfl (by omega), if_neg (by decide), if_pos rfl, ← itemSeparator_eq]
      rw [separated_members, ih (List.cons_ne_nil _ _) (fun member h' => h member (List.mem_cons_of_mem _ h')) (by omega)]
      rfl

/-- A value that begins like a number is one. -/
private theorem parseValue_number {fuel : Nat} {c : Char} (numeric : c.isDigit = true ∨ c = '-') (rest : List Char) :
    parseValue (fuel + 1) (c :: rest) = parseNumber (c :: rest) := by
  rw [parseValue, skip_cons (numeric_not_whitespace numeric)]
  dsimp only
  rw [if_neg (not_numeric numeric rfl (by decide)), if_neg (not_numeric numeric rfl (by decide)),
    if_neg (not_numeric numeric rfl (by decide)), if_neg (not_numeric numeric rfl (by decide)),
    if_neg (not_numeric numeric rfl (by decide)), if_neg (not_numeric numeric rfl (by decide))]

private theorem items_head (spaced : Bool) {items : List (Json Empty)} (ne : items ≠ []) :
    ∃ c rest, (itemSeparator spaced).intercalate (itemTexts spaced items) = c :: rest ∧
      isWhitespace c = false ∧ c ≠ ']' := by
  obtain ⟨item, items, rfl⟩ := List.exists_cons_of_ne_nil ne
  obtain ⟨c, rest, heq, visible, bracket⟩ := text_head spaced item
  rw [itemTexts]
  cases itemTexts spaced items with
  | nil =>
    rw [List.intercalate_singleton, heq]
    exact ⟨c, rest, rfl, visible, bracket⟩
  | cons next texts =>
    rw [List.intercalate_cons_cons, heq]
    exact ⟨c, _, rfl, visible, bracket⟩

private theorem members_head (spaced : Bool) {members : Members Empty} (ne : members ≠ []) :
    ∃ rest, (itemSeparator spaced).intercalate (memberTexts spaced members) = '"' :: rest := by
  obtain ⟨⟨key, value⟩, members, rfl⟩ := List.exists_cons_of_ne_nil ne
  rw [memberTexts, quote]
  cases memberTexts spaced members with
  | nil =>
    rw [List.intercalate_singleton]
    exact ⟨_, rfl⟩
  | cons next texts =>
    rw [List.intercalate_cons_cons]
    exact ⟨_, rfl⟩

private theorem readBack (spaced : Bool) (v : Json Empty) : ReadBack spaced v := by
  induction v using induct with
  | float x => exact x.elim
  | null =>
    intro fuel rest _ enough
    obtain ⟨fuel, rfl⟩ := Nat.exists_eq_succ_of_ne_zero (Nat.ne_of_gt (Nat.zero_lt_of_lt enough))
    rw [text]
    rfl
  | bool b =>
    intro fuel rest _ enough
    obtain ⟨fuel, rfl⟩ := Nat.exists_eq_succ_of_ne_zero (Nat.ne_of_gt (Nat.zero_lt_of_lt enough))
    cases b with
    | true | false =>
      rw [text]
      rfl
  | int n =>
    intro fuel rest ends enough
    obtain ⟨fuel, rfl⟩ := Nat.exists_eq_succ_of_ne_zero (Nat.ne_of_gt (Nat.zero_lt_of_lt enough))
    obtain ⟨c, digits, heq, numeric⟩ := intText_head n
    have whole := parseNumber_intText n ends
    rw [text, heq, List.cons_append, parseValue_number numeric, ← List.cons_append, ← heq, whole]
  | str s =>
    intro fuel rest _ enough
    obtain ⟨fuel, rfl⟩ := Nat.exists_eq_succ_of_ne_zero (Nat.ne_of_gt (Nat.zero_lt_of_lt enough))
    rw [text] at enough ⊢
    have room : (quote s).length < fuel + 2 := Nat.lt_succ_of_lt enough
    rw [quote, List.cons_append, List.append_assoc, List.singleton_append, parseValue, skip_cons rfl]
    dsimp only
    rw [if_pos rfl, parseString_text room, Option.map_some, String.ofList_toList]
  | arr items ih =>
    intro fuel rest _ enough
    obtain ⟨fuel, rfl⟩ := Nat.exists_eq_succ_of_ne_zero (Nat.ne_of_gt (Nat.zero_lt_of_lt enough))
    rw [text] at enough ⊢
    rw [List.length_cons, List.length_append, List.length_singleton] at enough
    rw [List.cons_append, List.append_assoc, List.singleton_append, parseValue, skip_cons rfl]
    dsimp only
    rw [if_neg (by decide), if_pos rfl]
    by_cases empty : items = []
    · subst empty
      rw [itemTexts]
      rfl
    · obtain ⟨c, tail, heq, visible, bracket⟩ := items_head spaced empty
      have room : ((itemSeparator spaced).intercalate (itemTexts spaced items)).length + 1 < fuel := by omega
      have items_read := parseItems_readBack empty ih room rest
      rw [heq, List.cons_append] at items_read ⊢
      rw [skip_cons visible]
      dsimp only
      rw [if_neg bracket, items_read, Option.map_some]
  | obj members ih =>
    intro fuel rest _ enough
    obtain ⟨fuel, rfl⟩ := Nat.exists_eq_succ_of_ne_zero (Nat.ne_of_gt (Nat.zero_lt_of_lt enough))
    rw [text] at enough ⊢
    rw [List.length_cons, List.length_append, List.length_singleton] at enough
    rw [List.cons_append, List.append_assoc, List.singleton_append, parseValue, skip_cons rfl]
    dsimp only
    rw [if_neg (by decide), if_neg (by decide), if_pos rfl]
    by_cases empty : members = []
    · subst empty
      rw [memberTexts]
      rfl
    · obtain ⟨tail, heq⟩ := members_head spaced empty
      have room : ((itemSeparator spaced).intercalate (memberTexts spaced members)).length + 1 < fuel := by omega
      have members_read := parseMembers_readBack empty ih room rest
      rw [heq, List.cons_append] at members_read ⊢
      rw [skip_cons rfl]
      dsimp only
      rw [if_neg (by decide), members_read, Option.map_some]

/-- Every value is read back from its text. -/
theorem loads_text (spaced : Bool) (v : Json Empty) : loads (text spaced v) = some v := by
  have read := readBack spaced v (text spaced v).length.succ [] rfl (Nat.lt_succ_self _)
  rw [List.append_nil] at read
  rw [loads, read, Option.bind_some]
  rfl

theorem text_injective (spaced : Bool) : Function.Injective (text spaced) := by
  intro v v' h
  exact Option.some.inj ((loads_text spaced v).symm.trans (h ▸ loads_text spaced v'))

/-- With the keys sorted, texts tell values up to the order of their keys. -/
theorem dumps_sorted_eq_iff {spaced : Bool} {v v' : Json Empty} {s s' : List Char} (hv : Distinct v) (hv' : Distinct v')
    (h : dumps spaced true v = some s) (h' : dumps spaced true v' = some s') : s = s' ↔ Same v v' := by
  unfold dumps at h h'
  split at h
  next => cases h
  next =>
  split at h'
  next => cases h'
  next =>
  rw [if_pos rfl] at h h'
  rw [← Option.some.inj h, ← Option.some.inj h', (text_injective spaced).eq_iff, canon_eq_iff hv hv']

/-! ### Printable ASCII alone -/

def IsPrintable (c : Char) : Prop := ' ' ≤ c ∧ c ≤ '~'

instance (c : Char) : Decidable (IsPrintable c) := inferInstanceAs (Decidable (_ ∧ _))

private theorem printable_of_all {t : List Char} (h : t.all (fun c => decide (IsPrintable c)) = true) :
    ∀ c ∈ t, IsPrintable c :=
  fun c hc => of_decide_eq_true (List.all_eq_true.mp h c hc)

private theorem digitChar_printable : ∀ d < 16, IsPrintable (Nat.digitChar d) := by decide

private theorem unicodeEscape_printable (n : Nat) : ∀ c ∈ unicodeEscape n, IsPrintable c := by
  intro c hc
  rcases List.mem_cons.mp hc with rfl | hc
  · decide
  · rcases List.mem_cons.mp hc with rfl | hc
    · decide
    · obtain ⟨i, -, rfl⟩ := List.mem_map.mp hc
      exact digitChar_printable _ (Nat.mod_lt _ (by decide))

private theorem escapeChar_printable (c : Char) : ∀ d ∈ escapeChar c, IsPrintable d := by
  have pair : ∀ e, IsPrintable e → ∀ d ∈ ['\\', e], IsPrintable d := by
    intro e he d hd
    rcases List.mem_cons.mp hd with rfl | hd
    · decide
    · exact List.mem_singleton.mp hd ▸ he
  unfold escapeChar
  split_ifs with h₁ h₂ h₃ h₄ h₅ h₆ h₇ printable plane
  · exact pair '"' (by decide)
  · exact pair '\\' (by decide)
  · exact pair 'n' (by decide)
  · exact pair 'r' (by decide)
  · exact pair 't' (by decide)
  · exact pair 'b' (by decide)
  · exact pair 'f' (by decide)
  · intro d hd
    exact List.mem_singleton.mp hd ▸ printable
  · exact unicodeEscape_printable _
  · intro d hd
    rcases List.mem_append.mp hd with hd | hd
    · exact unicodeEscape_printable _ d hd
    · exact unicodeEscape_printable _ d hd

theorem quote_printable (s : String) : ∀ c ∈ quote s, IsPrintable c := by
  intro c hc
  rcases List.mem_cons.mp hc with rfl | hc
  · decide
  · rcases List.mem_append.mp hc with hc | hc
    · obtain ⟨d, -, hd⟩ := List.mem_flatMap.mp hc
      exact escapeChar_printable d c hd
    · exact List.mem_singleton.mp hc ▸ (by decide)

private theorem intercalate_printable {sep : List Char} (hsep : ∀ c ∈ sep, IsPrintable c) {texts : List (List Char)}
    (h : ∀ t ∈ texts, ∀ c ∈ t, IsPrintable c) : ∀ c ∈ sep.intercalate texts, IsPrintable c := by
  induction texts with
  | nil =>
    intro c hc
    cases hc
  | cons t texts ih =>
    have first := h t List.mem_cons_self
    have others := ih fun t' ht' => h t' (List.mem_cons_of_mem _ ht')
    cases texts with
    | nil =>
      rw [List.intercalate_singleton]
      exact first
    | cons t' texts =>
      intro c hc
      rw [List.intercalate_cons_cons, List.mem_append, List.mem_append] at hc
      rcases hc with (hc | hc) | hc
      · exact first c hc
      · exact hsep c hc
      · exact others c hc

private theorem separators_printable (spaced : Bool) :
    (∀ c ∈ itemSeparator spaced, IsPrintable c) ∧ ∀ c ∈ keySeparator spaced, IsPrintable c := by
  cases spaced with
  | true | false => exact ⟨printable_of_all rfl, printable_of_all rfl⟩

private theorem itemTexts_printable {spaced : Bool} {items : List (Json Empty)}
    (h : ∀ item ∈ items, ∀ c ∈ text spaced item, IsPrintable c) :
    ∀ t ∈ itemTexts spaced items, ∀ c ∈ t, IsPrintable c := by
  induction items with
  | nil =>
    intro t ht
    rw [itemTexts] at ht
    cases ht
  | cons item items ih =>
    intro t ht
    rw [itemTexts] at ht
    rcases List.mem_cons.mp ht with rfl | ht
    · exact h item List.mem_cons_self
    · exact ih (fun item hi => h item (List.mem_cons_of_mem _ hi)) t ht

private theorem memberTexts_printable {spaced : Bool} {members : Members Empty}
    (h : ∀ member ∈ members, ∀ c ∈ text spaced member.2, IsPrintable c) :
    ∀ t ∈ memberTexts spaced members, ∀ c ∈ t, IsPrintable c := by
  induction members with
  | nil =>
    intro t ht
    rw [memberTexts] at ht
    cases ht
  | cons member members ih =>
    intro t ht c hc
    rw [memberTexts] at ht
    rcases List.mem_cons.mp ht with rfl | ht
    · rw [List.mem_append, List.mem_append] at hc
      rcases hc with (hc | hc) | hc
      · exact quote_printable _ c hc
      · exact (separators_printable spaced).2 c hc
      · exact h member List.mem_cons_self c hc
    · exact ih (fun member hm => h member (List.mem_cons_of_mem _ hm)) t ht c hc

private theorem intText_printable (n : Int) : ∀ c ∈ intText n, IsPrintable c := by
  have digits (n : Nat) : ∀ c ∈ Nat.toDigits 10 n, IsPrintable c := by
    intro c hc
    have digit := Nat.isDigit_of_mem_toDigits (by decide) (by decide) hc
    rw [Char.isDigit, Bool.and_eq_true, decide_eq_true_eq, decide_eq_true_eq] at digit
    exact ⟨(by decide : ' ' ≤ '0').trans digit.1, le_trans digit.2 (by decide : '9' ≤ '~')⟩
  cases n with
  | ofNat n => exact digits n
  | negSucc n =>
    intro c hc
    rcases List.mem_cons.mp hc with rfl | hc
    · decide
    · exact digits (n + 1) c hc

theorem text_printable (spaced : Bool) (v : Json Empty) : ∀ c ∈ text spaced v, IsPrintable c := by
  have bracketed (left right : Char) (hl : IsPrintable left) (hr : IsPrintable right) {body : List Char}
      (h : ∀ c ∈ body, IsPrintable c) : ∀ c ∈ left :: (body ++ [right]), IsPrintable c := by
    intro c hc
    rcases List.mem_cons.mp hc with rfl | hc
    · exact hl
    · rcases List.mem_append.mp hc with hc | hc
      · exact h c hc
      · exact List.mem_singleton.mp hc ▸ hr
  induction v using induct with
  | null =>
    rw [text]
    exact printable_of_all rfl
  | bool b =>
    cases b with
    | true | false =>
      rw [text]
      exact printable_of_all rfl
  | int n =>
    rw [text]
    exact intText_printable n
  | float x => exact x.elim
  | str s =>
    rw [text]
    exact quote_printable s
  | arr items ih =>
    rw [text]
    exact bracketed '[' ']' (by decide) (by decide)
      (intercalate_printable (separators_printable spaced).1 (itemTexts_printable ih))
  | obj members ih =>
    rw [text]
    exact bracketed '\x7b' '\x7d' (by decide) (by decide)
      (intercalate_printable (separators_printable spaced).1 (memberTexts_printable ih))

end LlmGateway.Lib.Json
