import LlmGateway.Migrations.SqlScript

/-! The lexical reading of a script: what each of its characters belongs to. Every script has one. -/
namespace LlmGateway.Migrations
open Lib Lib.Delimited

/-! ### Regions -/

/-- What hides a semicolon. -/
inductive Kind where
  | lineComment
  | blockComment
  | literal
  | dollarQuoted (tag : DollarTag)
  deriving DecidableEq

/-- Inside of a literal the quotes come in pairs. -/
inductive Escaped : List Char → Prop where
  | nil : Escaped []
  | char {c : Char} {body : List Char} : c ≠ quote → Escaped body → Escaped (c :: body)
  | pair {body : List Char} : Escaped body → Escaped (quote :: quote :: body)

namespace Kind

def opening : Kind → List Char
  | .lineComment => ['-', '-']
  | .blockComment => ['/', '*']
  | .literal => [quote]
  | .dollarQuoted tag => tag.text

def closing : Kind → List Char
  | .lineComment => ['\n']
  | .blockComment => ['*', '/']
  | .literal => [quote]
  | .dollarQuoted tag => tag.text

def isComment : Kind → Bool
  | .lineComment | .blockComment => true
  | .literal | .dollarQuoted _ => false

/-- Opened before `body`, the region closes after it and before `rest`. -/
def Closes (kind : Kind) (body rest : List Char) : Prop :=
  match kind with
  | .literal => Escaped body ∧ rest.head? ≠ some quote
  | kind => EndsAt kind.closing body

/-- Opened before `body`, at the end of the script, the region never closes. -/
def Unclosed (kind : Kind) (body : List Char) : Prop :=
  match kind with
  | .literal => Escaped body
  | kind => ¬ kind.closing <:+: body

end Kind

/-! ### Lexemes -/

inductive Lexeme where
  | semicolon
  | plain (c : Char)
  | region (kind : Kind) (body : List Char)
  | unclosed (kind : Kind) (body : List Char)
  deriving DecidableEq

def Lexeme.text : Lexeme → List Char
  | .semicolon => [';']
  | .plain c => [c]
  | .region kind body => kind.opening ++ body ++ kind.closing
  | .unclosed kind body => kind.opening ++ body

/-- `l.text` is read as `l` where `rest` follows. -/
def Lexeme.Fits (rest : List Char) : Lexeme → Prop
  | .semicolon => True
  | .plain c => c ≠ ';' ∧ ∀ kind : Kind, ¬ kind.opening <+: c :: rest
  | .region kind body => kind.Closes body rest
  | .unclosed kind body => rest = [] ∧ kind.Unclosed body

def text (ls : List Lexeme) : List Char := ls.flatMap Lexeme.text

/-- Each lexeme fits before the others and `rest`. -/
def Reads (rest : List Char) : List Lexeme → Prop
  | [] => True
  | l :: ls => l.Fits (text ls ++ rest) ∧ Reads rest ls

structure Reading (script : List Char) (ls : List Lexeme) : Prop where
  text_eq : text ls = script
  reads : Reads [] ls

/-! ### The one reading -/

/-- The region that opens at the head of `input`. -/
def opened (input : List Char) : Option Kind :=
  if input.take 2 = ['-', '-'] then some .lineComment
  else if input.take 2 = ['/', '*'] then some .blockComment
  else if input.take 1 = [quote] then some .literal
  else (dollarTag input).map .dollarQuoted

/-- A literal's inside, and what follows its closing quote. -/
def closeLiteral : List Char → Option (List Char × List Char)
  | [] => none
  | [c] => if c = quote then some ([], []) else none
  | c :: d :: rest =>
    if c = quote then
      if d = quote then (closeLiteral rest).map fun (body, after) => (quote :: quote :: body, after)
      else some ([], d :: rest)
    else (closeLiteral (d :: rest)).map fun (body, after) => (c :: body, after)

def Kind.close (kind : Kind) (input : List Char) : Option (List Char × List Char) :=
  match kind with
  | .literal => closeLiteral input
  | kind => cut kind.closing input

def firstLexeme : List Char → Option Lexeme
  | [] => none
  | c :: rest =>
    match opened (c :: rest) with
    | some kind =>
      let inside := (c :: rest).drop kind.opening.length
      match kind.close inside with
      | some (body, _) => some (.region kind body)
      | none => some (.unclosed kind inside)
    | none => if c = ';' then some .semicolon else some (.plain c)

/-- The reading of a script. The first `skip` characters belong to a lexeme already. -/
def lexemesFrom (skip : Nat) : List Char → List Lexeme
  | [] => []
  | c :: rest =>
    match skip with
    | skip + 1 => lexemesFrom skip rest
    | 0 =>
      match firstLexeme (c :: rest) with
      | some l => l :: lexemesFrom (l.text.length - 1) rest
      | none => []

def lexemes (script : List Char) : List Lexeme := lexemesFrom 0 script

variable {tag : DollarTag} {kind : Kind} {c : Char} {body rest input script : List Char} {ls ls' : List Lexeme}

private theorem dollar_not_inTag : inTag '$' = false := by decide

theorem dollarTag_text (tag : DollarTag) (rest : List Char) : dollarTag (tag.text ++ rest) = some tag := by
  obtain ⟨name, starts, within⟩ := tag
  have named : ∀ c ∈ name, inTag c = true := List.all_eq_true.mp within
  have taken : (name ++ '$' :: rest).takeWhile inTag = name := by
    rw [List.takeWhile_append_of_pos named, List.takeWhile_cons_of_neg (by simp [dollar_not_inTag]), List.append_nil]
  have dropped : (name ++ '$' :: rest).dropWhile inTag = '$' :: rest := by
    rw [List.dropWhile_append_of_pos named, List.dropWhile_cons_of_neg (by simp [dollar_not_inTag])]
  simp only [DollarTag.text, List.cons_append, List.append_assoc, List.nil_append, dollarTag, taken, dropped]
  simp [starts]

theorem dollarTag_eq_some (h : dollarTag input = some tag) : tag.text <+: input := by
  unfold dollarTag at h
  split at h
  next rest =>
    dsimp only at h
    split at h
    next found =>
      cases h
      refine ⟨(rest.dropWhile inTag).drop 1, ?_⟩
      have := List.take_append_drop 1 (rest.dropWhile inTag)
      rw [found.2] at this
      simp only [DollarTag.text, List.cons_append, List.append_assoc, this, List.takeWhile_append_dropWhile]
    next => cases h
  next => cases h

theorem opened_opening (kind : Kind) (rest : List Char) : opened (kind.opening ++ rest) = some kind := by
  cases kind with
  | lineComment => rfl
  | blockComment => rfl
  | literal => rfl
  | dollarQuoted tag =>
    have found := dollarTag_text tag rest
    rw [Kind.opening, opened, if_neg, if_neg, if_neg, found]
    · rfl
    · simp [DollarTag.text, quote]
    · simp [DollarTag.text]
    · simp [DollarTag.text]

theorem opened_eq_some (h : opened input = some kind) : kind.opening <+: input := by
  unfold opened at h
  split_ifs at h with line block single
  · cases h
    exact List.prefix_iff_eq_take.mpr line.symm
  · cases h
    exact List.prefix_iff_eq_take.mpr block.symm
  · cases h
    exact List.prefix_iff_eq_take.mpr single.symm
  · obtain ⟨tag, found, rfl⟩ := Option.map_eq_some_iff.mp h
    exact dollarTag_eq_some found

theorem opened_eq_none : opened input = none ↔ ∀ kind : Kind, ¬ kind.opening <+: input := by
  constructor
  · rintro h kind ⟨rest, rfl⟩
    rw [opened_opening] at h
    cases h
  · intro h
    cases found : opened input with
    | none => rfl
    | some kind => exact absurd (opened_eq_some found) (h kind)

theorem closeLiteral_append (h : Escaped body) (apart : rest.head? ≠ some quote) :
    closeLiteral (body ++ quote :: rest) = some (body, rest) := by
  induction h with
  | nil =>
    cases rest with
    | nil => rfl
    | cons d rest =>
      have : d ≠ quote := fun heq => apart (congrArg some heq)
      simp [closeLiteral, this]
  | @char c body hc _ ih =>
    cases body with
    | nil => simp only [List.cons_append, List.nil_append, closeLiteral, if_neg hc] at ih ⊢; simp [ih]
    | cons d body => simp only [List.cons_append, closeLiteral, if_neg hc] at ih ⊢; simp [ih]
  | pair _ ih => simp [closeLiteral, ih]

theorem closeLiteral_eq_none (h : Escaped body) : closeLiteral body = none := by
  induction h with
  | nil => rfl
  | @char c body hc _ ih =>
    cases body with
    | nil => rw [closeLiteral, if_neg hc]
    | cons d body => rw [closeLiteral, if_neg hc, ih, Option.map_none]
  | pair _ ih => rw [closeLiteral, if_pos rfl, if_pos rfl, ih, Option.map_none]

/-- A literal closes at the first quote that has no other after it, or there is none. -/
theorem literal_closes_or_not (input : List Char) :
    (∃ body rest, input = body ++ quote :: rest ∧ Escaped body ∧ rest.head? ≠ some quote) ∨ Escaped input := by
  fun_induction closeLiteral input with
  | case1 => exact .inr .nil
  | case2 => exact .inl ⟨[], [], rfl, .nil, nofun⟩
  | case3 c hc => exact .inr (.char hc .nil)
  | case4 rest ih =>
    rcases ih with ⟨body, after, rfl, escaped, apart⟩ | escaped
    · exact .inl ⟨quote :: quote :: body, after, rfl, .pair escaped, apart⟩
    · exact .inr (.pair escaped)
  | case5 d rest hd => exact .inl ⟨[], d :: rest, rfl, .nil, fun h => hd (Option.some.inj h)⟩
  | case6 c d rest hc ih =>
    rcases ih with ⟨body, after, heq, escaped, apart⟩ | escaped
    · exact .inl ⟨c :: body, after, congrArg (c :: ·) heq, .char hc escaped, apart⟩
    · exact .inr (.char hc escaped)

namespace Kind

theorem closing_ne_nil (kind : Kind) : kind.closing ≠ [] := by
  cases kind with
  | lineComment | blockComment | literal | dollarQuoted => exact List.cons_ne_nil _ _

theorem close_append (h : kind.Closes body rest) : kind.close (body ++ kind.closing ++ rest) = some (body, rest) := by
  cases kind with
  | literal =>
    rw [closing, List.append_assoc]
    exact closeLiteral_append h.1 h.2
  | lineComment | blockComment | dollarQuoted => exact cut_append (closing_ne_nil _) h rest

theorem close_eq_none (h : kind.Unclosed body) : kind.close body = none := by
  cases kind with
  | literal => exact closeLiteral_eq_none h
  | lineComment | blockComment | dollarQuoted => exact (cut_eq_none (closing_ne_nil _)).mpr h

theorem closes_or_not (kind : Kind) (input : List Char) :
    (∃ body rest, input = body ++ kind.closing ++ rest ∧ kind.Closes body rest) ∨ kind.Unclosed input := by
  cases kind with
  | literal =>
    rcases literal_closes_or_not input with ⟨body, rest, rfl, closes⟩ | escaped
    · exact .inl ⟨body, rest, by rw [closing, List.append_assoc]; rfl, closes⟩
    · exact .inr escaped
  | lineComment | blockComment | dollarQuoted => exact ends_or_not (closing_ne_nil _) input

end Kind

theorem firstLexeme_text {l : Lexeme} (h : l.Fits rest) : firstLexeme (l.text ++ rest) = some l := by
  have region (kind : Kind) (inside : List Char) : firstLexeme (kind.opening ++ inside) =
      match kind.close inside with
      | some (body, _) => some (.region kind body)
      | none => some (.unclosed kind inside) := by
    have opens := opened_opening kind inside
    have after : (kind.opening ++ inside).drop kind.opening.length = inside := List.drop_left
    cases hinput : kind.opening ++ inside with
    | nil => cases kind <;> cases hinput
    | cons c input =>
      rw [hinput] at opens after
      rw [firstLexeme, opens]
      dsimp only
      rw [after]
  cases l with
  | semicolon => rfl
  | plain c =>
    change firstLexeme (c :: rest) = _
    rw [firstLexeme, opened_eq_none.mpr h.2]
    exact if_neg h.1
  | region kind body =>
    rw [Lexeme.text, List.append_assoc, List.append_assoc, region, ← List.append_assoc, Kind.close_append h]
  | unclosed kind body =>
    obtain ⟨rfl, unclosed⟩ := h
    rw [Lexeme.text, List.append_nil, region, Kind.close_eq_none unclosed]

theorem exists_fits (c : Char) (input : List Char) :
    ∃ (l : Lexeme) (rest : List Char), c :: input = l.text ++ rest ∧ l.Fits rest := by
  by_cases opens : ∃ kind : Kind, kind.opening <+: c :: input
  · obtain ⟨kind, inside, hinside⟩ := opens
    rw [← hinside]
    rcases kind.closes_or_not inside with ⟨body, rest, rfl, closes⟩ | unclosed
    · exact ⟨.region kind body, rest, by simp [Lexeme.text], closes⟩
    · exact ⟨.unclosed kind inside, [], by simp [Lexeme.text], rfl, unclosed⟩
  · by_cases hc : c = ';'
    · exact ⟨.semicolon, input, by rw [hc]; rfl, trivial⟩
    · exact ⟨.plain c, input, rfl, hc, not_exists.mp opens⟩

theorem Lexeme.text_ne_nil (l : Lexeme) : l.text ≠ [] := by
  cases l with
  | semicolon | plain => exact List.cons_ne_nil _ _
  | region kind _ | unclosed kind _ => cases kind <;> exact List.cons_ne_nil _ _

@[simp] theorem text_nil : text [] = [] := rfl

@[simp] theorem text_cons (l : Lexeme) (ls : List Lexeme) : text (l :: ls) = l.text ++ text ls := List.flatMap_cons

@[simp] theorem text_append (ls ls' : List Lexeme) : text (ls ++ ls') = text ls ++ text ls' := List.flatMap_append

theorem lexemesFrom_drop (skip : Nat) (input : List Char) :
    lexemesFrom skip input = lexemesFrom 0 (input.drop skip) := by
  induction input generalizing skip with
  | nil => cases skip <;> rfl
  | cons c input ih =>
    cases skip with
    | zero => rfl
    | succ skip => exact ih skip

theorem reading_lexemes (script : List Char) : Reading script (lexemes script) := by
  induction hn : script.length using Nat.strong_induction_on generalizing script with
  | _ n ih =>
    cases script with
    | nil => exact ⟨rfl, trivial⟩
    | cons c input =>
      obtain ⟨l, rest, heq, fits⟩ := exists_fits c input
      obtain ⟨d, after, hl⟩ := List.exists_cons_of_ne_nil l.text_ne_nil
      have first := firstLexeme_text fits
      rw [← heq] at first
      have dropped : input.drop (l.text.length - 1) = rest := by
        rw [hl, List.cons_append] at heq
        rw [hl, List.length_cons, Nat.add_sub_cancel, (List.cons.inj heq).2, List.drop_left]
      have shorter : rest.length < n := by
        rw [← hn, heq, hl, List.length_append, List.length_cons]
        omega
      obtain ⟨htext, reads⟩ := ih rest.length shorter rest rfl
      rw [lexemes, lexemesFrom, first]
      dsimp only
      rw [lexemesFrom_drop, dropped, ← lexemes]
      refine ⟨?_, ?_, reads⟩
      · rw [text_cons, htext, heq]
      · rw [htext, List.append_nil]
        exact fits

theorem Reading.unique (h : Reading script ls) (h' : Reading script ls') : ls = ls' := by
  obtain ⟨rfl, reads⟩ := h
  obtain ⟨heq, reads'⟩ := h'
  induction ls generalizing ls' with
  | nil =>
    cases ls' with
    | nil => rfl
    | cons l' ls' => exact absurd (List.append_eq_nil_iff.mp heq).1 l'.text_ne_nil
  | cons l ls ih =>
    cases ls' with
    | nil => exact absurd (List.append_eq_nil_iff.mp heq.symm).1 l.text_ne_nil
    | cons l' ls' =>
      obtain ⟨fits, reads⟩ := reads
      obtain ⟨fits', reads'⟩ := reads'
      rw [List.append_nil] at fits fits'
      rw [text_cons, text_cons] at heq
      have first := firstLexeme_text fits
      rw [← heq, firstLexeme_text fits'] at first
      cases first
      rw [ih reads (List.append_cancel_left heq) reads']

end LlmGateway.Migrations
