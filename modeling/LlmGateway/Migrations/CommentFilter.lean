import LlmGateway.Migrations.Segments

/-! Where the filter, which cuts from `/*` to `*/` wherever they stand and then reads lines, tells
comments as the scanner does. -/
namespace LlmGateway.Migrations
open Lib Lib.Delimited

/-- Something besides whitespace and comments. -/
def executable (segment : List Lexeme) : Bool := !segment.all Lexeme.isSilent

/-- A line that the filter takes for blank or for a comment. -/
def passes (line : List Char) : Bool :=
  Str.strip Str.isspace line = [] || ['-', '-'].isPrefixOf (Str.strip Str.isspace line)

/-- A block comment that closes. -/
def Lexeme.isBlock : Lexeme → Bool
  | .region .blockComment _ => true
  | _ => false

/-- Each `/*` of the text closes within it. -/
inductive Whole : List Char → Prop where
  | nil : Whole []
  | char {c : Char} {t : List Char} : ¬ ['/', '*'] <+: c :: t → Whole t → Whole (c :: t)
  | block {body t : List Char} :
    EndsAt ['*', '/'] body → Whole t → Whole ('/' :: '*' :: (body ++ ['*', '/'] ++ t))

/-- Before anything to execute, a line comment has a `/*` that does not close in it, and a `*/` stands
somewhere after it. -/
def Crosses (ls : List Lexeme) : Prop :=
  ∃ before body after, ls = before ++ .region .lineComment body :: after ∧ before.all Lexeme.isSilent = true ∧
    ¬ Whole body ∧ ['*', '/'] <:+: text after

/-- The first thing to execute is a dash, and nothing but block comments stand between it and another. -/
def DashesMeet (ls : List Lexeme) : Prop :=
  ∃ before blocks after, ls = before ++ .plain '-' :: (blocks ++ after) ∧ before.all Lexeme.isSilent = true ∧
    blocks.all Lexeme.isBlock = true ∧ (text after).head? = some '-'

/-- A line comment has another line boundary than the newline it ends at, and what stands beyond it, once
the block comments are cut out, is neither blank nor begins with `--`. -/
def Spills (body : List Char) : Prop :=
  ∃ line ∈ (splitlines [] (removeBlockComments 0 body)).drop 1, passes line = false

def Lexeme.Quiet : Lexeme → Prop
  | .region .lineComment body | .unclosed .lineComment body => ¬ Spills body
  | .unclosed .blockComment _ => False
  | _ => True

/-- Its comments show as comments: none spills, and no block comment is left open. -/
def Quiet (ls : List Lexeme) : Prop := ∀ l ∈ ls, l.Quiet

variable {l : Lexeme} {ls : List Lexeme} {t u w rest body : List Char} {c : Char}

/-! ### Block comments -/

theorem removeBlockComments_skip (t rest : List Char) :
    removeBlockComments t.length (t ++ rest) = removeBlockComments 0 rest := by
  induction t with
  | nil => rfl
  | cons c t ih => exact ih

theorem removeBlockComments_block (h : EndsAt ['*', '/'] body) (rest : List Char) :
    removeBlockComments 0 ('/' :: '*' :: (body ++ ['*', '/'] ++ rest)) = removeBlockComments 0 rest := by
  have skipped := removeBlockComments_skip ('*' :: (body ++ ['*', '/'])) rest
  have long : ('*' :: (body ++ ['*', '/'])).length = body.length + 3 := by simp
  rw [long] at skipped
  have opens : ('/' :: '*' :: (body ++ ['*', '/'] ++ rest)).take 2 = ['/', '*'] := rfl
  rw [removeBlockComments, if_pos opens, List.drop_one, List.tail_cons, cut_append (List.cons_ne_nil _ _) h]
  exact skipped

theorem removeBlockComments_cons (h : ¬ ['/', '*'] <+: c :: rest) :
    removeBlockComments 0 (c :: rest) = c :: removeBlockComments 0 rest := by
  rw [removeBlockComments, if_neg fun opens => h (List.prefix_iff_eq_take.mpr opens.symm)]

/-- A `/*` that no `*/` follows is not cut. -/
theorem removeBlockComments_open (h : ¬ ['*', '/'] <:+: rest) :
    removeBlockComments 0 ('/' :: '*' :: rest) = '/' :: removeBlockComments 0 ('*' :: rest) := by
  have opens : ('/' :: '*' :: rest).take 2 = ['/', '*'] := rfl
  rw [removeBlockComments, if_pos opens, List.drop_one, List.tail_cons, (cut_eq_none (List.cons_ne_nil _ _)).mpr h]

theorem removeBlockComments_dashes (t : List Char) :
    removeBlockComments 0 ('-' :: '-' :: t) = '-' :: '-' :: removeBlockComments 0 t := by
  rw [removeBlockComments_cons (by simp), removeBlockComments_cons (by simp)]

theorem exists_inside (h : ['/', '*'] <+: t) : ∃ inside, t = '/' :: '*' :: inside := by
  obtain ⟨inside, rfl⟩ := h
  exact ⟨inside, rfl⟩

theorem Whole.tail (h : Whole (c :: t)) (opens : ¬ ['/', '*'] <+: c :: t) : Whole t := by
  cases h with
  | char _ whole => exact whole
  | block => exact absurd (List.prefix_append ['/', '*'] _) opens

theorem Whole.closes (h : Whole ('/' :: '*' :: t)) : ∃ body u, t = body ++ ['*', '/'] ++ u ∧ EndsAt ['*', '/'] body ∧
    Whole u := by
  cases h with
  | char opens => exact absurd (List.prefix_append ['/', '*'] t) opens
  | block ends whole => exact ⟨_, _, rfl, ends, whole⟩

theorem Whole.after (h : Whole ('/' :: '*' :: (body ++ ['*', '/'] ++ t))) (ends : EndsAt ['*', '/'] body) : Whole t := by
  obtain ⟨body', u, heq, ends', whole⟩ := h.closes
  have found := cut_append (List.cons_ne_nil '*' ['/']) ends t
  rw [heq, cut_append (List.cons_ne_nil _ _) ends' u, Option.some.injEq, Prod.mk.injEq] at found
  rw [← found.2]
  exact whole

/-- Neither mark goes over a newline. -/
theorem infix_newline {a b : Char} (ha : a ≠ '\n') (hb : b ≠ '\n') (t rest : List Char) :
    [a, b] <:+: t ++ '\n' :: rest ↔ [a, b] <:+: t ∨ [a, b] <:+: rest := by
  induction t with
  | nil => simp [List.infix_cons_iff, ha]
  | cons c t ih =>
    rw [List.cons_append, List.infix_cons_iff, ih, List.infix_cons_iff, or_assoc]
    refine or_congr ?_ Iff.rfl
    cases t with
    | nil => simp [hb]
    | cons d t => simp

/-- What is cut is cut on either side of a newline, unless it goes from the one to the other. -/
theorem removeBlockComments_newline (h : Whole t ∨ ¬ ['*', '/'] <:+: rest) :
    removeBlockComments 0 (t ++ '\n' :: rest) = removeBlockComments 0 t ++ '\n' :: removeBlockComments 0 rest := by
  induction hn : t.length using Nat.strong_induction_on generalizing t with
  | _ n ih =>
    cases t with
    | nil => exact removeBlockComments_cons (by simp)
    | cons c t =>
      by_cases opens : ['/', '*'] <+: c :: t
      · obtain ⟨inside, heq⟩ := exists_inside opens
        obtain ⟨rfl, rfl⟩ := List.cons.inj heq
        rcases ends_or_not (List.cons_ne_nil '*' ['/']) inside with ⟨body, after, rfl, ends⟩ | never
        · have later := ih after.length (by simp at hn; omega) (h.imp_left fun whole => whole.after ends) rfl
          have joined : '/' :: '*' :: (body ++ ['*', '/'] ++ after) ++ '\n' :: rest =
              '/' :: '*' :: (body ++ ['*', '/'] ++ (after ++ '\n' :: rest)) := by
            rw [List.cons_append, List.cons_append, List.append_assoc]
          rw [joined, removeBlockComments_block ends, removeBlockComments_block ends, later]
        · have apart : ¬ ['*', '/'] <:+: rest := by
            refine h.resolve_left fun whole => never ?_
            obtain ⟨body, u, rfl, -⟩ := whole.closes
            exact List.infix_append body ['*', '/'] u
          have none : ¬ ['*', '/'] <:+: inside ++ '\n' :: rest := by
            rw [infix_newline (by decide) (by decide)]
            exact not_or.mpr ⟨never, apart⟩
          have later := ih ('*' :: inside).length (by simp at hn ⊢; omega) (.inr apart) rfl
          rw [List.cons_append, List.cons_append, removeBlockComments_open none, ← List.cons_append, later,
            removeBlockComments_open never, List.cons_append]
      · have later := ih t.length (by simp at hn; omega) (h.imp_left fun whole => whole.tail opens) rfl
        have opens' : ¬ ['/', '*'] <+: c :: (t ++ '\n' :: rest) := by
          cases t with
          | nil => simp
          | cons d t => simpa using opens
        rw [List.cons_append, removeBlockComments_cons opens', later, removeBlockComments_cons opens, List.cons_append]

/-! ### Lines -/

theorem isCommentOnly_eq (t : List Char) : isCommentOnly t = (splitlines [] (removeBlockComments 0 t)).all passes := by
  rw [isCommentOnly, List.all_map]
  rfl

theorem boundary_isspace (h : isLineBoundary c = true) : Str.isspace c = true := by
  simp only [isLineBoundary, List.mem_cons, List.not_mem_nil, or_false, decide_eq_true_eq] at h
  rcases h with rfl | rfl | rfl | rfl | rfl | rfl | rfl | rfl | rfl | rfl <;> decide

theorem passes_blank (h : w.all Str.isspace = true) : passes w = true := by
  have dropped : w.dropWhile Str.isspace = [] := by
    rw [List.dropWhile_eq_nil_iff]
    exact List.all_eq_true.mp h
  rw [passes, Str.strip, dropped]
  rfl

/-- What is stripped off the front of a line is the blanks that are there. -/
theorem strip_front (h : w.all Str.isspace = true) (hc : Str.isspace c = false) (rest : List Char) :
    Str.strip Str.isspace (w ++ c :: rest) = (c :: rest).rdropWhile Str.isspace := by
  rw [Str.strip, List.dropWhile_append_of_pos (List.all_eq_true.mp h), List.dropWhile_cons_of_neg (by simp [hc])]

theorem passes_comment (h : w.all Str.isspace = true) (body : List Char) :
    passes (w ++ '-' :: '-' :: body) = true := by
  have kept := Str.prefix_rdropWhile (p := Str.isspace) (c := '-') (by decide) ['-'] body
  rw [passes, strip_front h (by decide), Bool.or_eq_true, List.isPrefixOf_iff_prefix]
  exact .inr kept

theorem not_passes (h : w.all Str.isspace = true) (hc : Str.isspace c = false)
    (dash : ¬ ['-', '-'] <+: c :: rest) : passes (w ++ c :: rest) = false := by
  rw [passes, strip_front h hc]
  obtain ⟨after, kept⟩ := Str.prefix_rdropWhile hc [] rest
  rw [Bool.or_eq_false_iff]
  constructor
  · rw [decide_eq_false_iff_not]
    intro blank
    rw [List.nil_append, List.nil_append, blank] at kept
    cases kept
  · rw [← Bool.not_eq_true, List.isPrefixOf_iff_prefix]
    exact fun dashes => dash (dashes.trans (List.rdropWhile_prefix Str.isspace _))

/-- A character that ends no line joins the one read so far. -/
theorem splitlines_cons (h : isLineBoundary c = false) (line rest : List Char) :
    splitlines line (c :: rest) = splitlines (line ++ [c]) rest := by
  rw [splitlines, h, if_neg Bool.false_ne_true]
  rintro rest rfl
  cases h

theorem splitlines_append (h : t.any isLineBoundary = false) (line rest : List Char) :
    splitlines line (t ++ rest) = splitlines (line ++ t) rest := by
  induction t generalizing line with
  | nil => rw [List.nil_append, List.append_nil]
  | cons c t ih =>
    rw [List.any_cons, Bool.or_eq_false_iff] at h
    rw [List.cons_append, splitlines_cons h.1, ih h.2, List.append_assoc, List.singleton_append]

/-- A line ends at a boundary, or at two of them. -/
theorem splitlines_boundary (h : isLineBoundary c = true) (line rest : List Char) :
    splitlines line (c :: rest) = line :: splitlines [] rest ∨
      ∃ after, rest = '\n' :: after ∧ splitlines line (c :: rest) = line :: splitlines [] after := by
  by_cases pair : c = '\r' ∧ ∃ after, rest = '\n' :: after
  · obtain ⟨rfl, after, rfl⟩ := pair
    exact .inr ⟨after, rfl, rfl⟩
  · left
    rw [splitlines, if_pos h]
    rintro after rfl rfl
    exact pair ⟨rfl, after, rfl⟩

theorem splitlines_newline (line rest : List Char) : splitlines line ('\n' :: rest) = line :: splitlines [] rest := rfl

/-- The line that is read is the first, up to the boundary that comes next. -/
theorem splitlines_first {line : List Char} (nonempty : line ≠ []) (rest : List Char) :
    ∃ later, splitlines line rest = (line ++ rest.takeWhile fun c => !isLineBoundary c) :: later := by
  induction rest generalizing line with
  | nil => exact ⟨[], by rw [splitlines, if_neg nonempty, List.takeWhile_nil, List.append_nil]⟩
  | cons c rest ih =>
    cases hb : isLineBoundary c with
    | true =>
      rw [List.takeWhile_cons_of_neg (by simp [hb]), List.append_nil]
      rcases splitlines_boundary hb line rest with heq | ⟨after, -, heq⟩
      · exact ⟨_, heq⟩
      · exact ⟨_, heq⟩
    | false =>
      have later := @ih (line ++ [c]) (by simp)
      rw [List.append_assoc, List.singleton_append] at later
      rw [List.takeWhile_cons_of_pos (by simp [hb]), splitlines_cons hb]
      exact later

/-- The other lines do not depend on what was read of the first. -/
theorem drop_splitlines (line rest : List Char) : (splitlines line rest).drop 1 = (splitlines [] rest).drop 1 := by
  induction rest generalizing line with
  | nil => by_cases empty : line = [] <;> simp [splitlines, empty]
  | cons c rest ih =>
    cases hb : isLineBoundary c with
    | true =>
      by_cases pair : c = '\r' ∧ ∃ after, rest = '\n' :: after
      · obtain ⟨rfl, after, rfl⟩ := pair
        rfl
      · have alone : ∀ after, c = '\r' → rest = '\n' :: after → False := fun after hc hr => pair ⟨hc, after, hr⟩
        rw [splitlines, if_pos hb, splitlines, if_pos hb]
        · rfl
        · exact alone
        · exact alone
    | false => rw [splitlines_cons hb, splitlines_cons hb, ih, List.nil_append, ih [c]]

/-- A blank that is read next ends the line or joins it. -/
theorem splitlines_blank (hc : Str.isspace c = true) (hw : w.all Str.isspace = true) (rest : List Char) :
    ∃ w', w'.all Str.isspace = true ∧
      ∀ line, passes line = false → (line ∈ splitlines w (c :: rest) ↔ line ∈ splitlines w' rest) := by
  cases hb : isLineBoundary c with
  | false =>
    refine ⟨w ++ [c], by simp [hw, hc], fun line _ => ?_⟩
    rw [splitlines_cons hb]
  | true =>
    refine ⟨[], rfl, fun line shown => ?_⟩
    have other : line ≠ w := by
      rintro rfl
      rw [passes_blank hw] at shown
      cases shown
    rcases splitlines_boundary hb w rest with heq | ⟨after, rfl, heq⟩
    · simp [heq, other]
    · have blank : line ≠ [] := by
        rintro rfl
        cases shown
      simp [heq, splitlines_newline, other, blank]

/-- Beyond what is read of a line, there is a line that the filter does not take for a comment. -/
def Shows (line rest : List Char) : Prop := ∃ shown ∈ splitlines line rest, passes shown = false

theorem not_shows_nil (hw : w.all Str.isspace = true) : ¬ Shows w [] := by
  rintro ⟨line, hm, shown⟩
  rw [splitlines] at hm
  split at hm
  next => cases hm
  next =>
    rw [List.mem_singleton.mp hm, passes_blank hw] at shown
    cases shown

theorem shows_blank (hc : Str.isspace c = true) (hw : w.all Str.isspace = true) (rest : List Char) :
    ∃ w', w'.all Str.isspace = true ∧ (Shows w (c :: rest) ↔ Shows w' rest) := by
  obtain ⟨w', hw', same⟩ := splitlines_blank hc hw rest
  exact ⟨w', hw', exists_congr fun line => and_congr_left (same line)⟩

/-- A newline parts the lines before it from those after. -/
theorem shows_newline (line t rest : List Char) : Shows line (t ++ '\n' :: rest) ↔ Shows line t ∨ Shows [] rest := by
  have ended : ∀ (first : List Char) (ls ls' : List (List Char)),
      ((∃ shown ∈ ls, passes shown = false) ↔ (∃ shown ∈ ls', passes shown = false) ∨ Shows [] rest) →
      ((∃ shown ∈ first :: ls, passes shown = false) ↔
        (∃ shown ∈ first :: ls', passes shown = false) ∨ Shows [] rest) := by
    intro first ls ls' h
    rw [List.exists_mem_cons_iff, List.exists_mem_cons_iff, h, or_assoc]
  rw [Shows, Shows]
  fun_induction splitlines line t with
  | case1 =>
    have blank : passes [] = true := rfl
    simp [splitlines_newline, Shows, blank]
  | case2 line empty => simp [splitlines_newline, Shows]
  | case3 line t ih => exact ended _ _ _ ih
  | case4 line c t pair hb ih =>
    by_cases last : c = '\r' ∧ t = []
    · obtain ⟨rfl, rfl⟩ := last
      exact ended line (splitlines [] rest) [] (by simp [Shows])
    · rw [List.cons_append, splitlines, if_pos hb]
      · exact ended _ _ _ ih
      · intro after hc heq
        cases t with
        | nil => exact last ⟨hc, rfl⟩
        | cons d t =>
          rw [List.cons_append, List.cons.injEq] at heq
          exact pair t hc (congrArg (· :: t) heq.1)
  | case5 line c t pair hb ih =>
    rw [List.cons_append, splitlines_cons (Bool.not_eq_true _ ▸ hb)]
    exact ih

/-- A line comment shows where it spills. -/
theorem shows_comment (hw : w.all Str.isspace = true) (t : List Char) :
    Shows w ('-' :: '-' :: t) ↔ ∃ line ∈ (splitlines [] t).drop 1, passes line = false := by
  have read : splitlines w ('-' :: '-' :: t) = splitlines (w ++ ['-', '-']) t := splitlines_append (t := ['-', '-']) (by decide) w t
  obtain ⟨later, heq⟩ := splitlines_first (show w ++ ['-', '-'] ≠ [] by simp) t
  have passed : passes (w ++ ['-', '-'] ++ t.takeWhile fun c => !isLineBoundary c) = true := by
    rw [List.append_assoc]
    exact passes_comment hw _
  rw [← drop_splitlines (w ++ ['-', '-']), Shows, read, heq, List.exists_mem_cons_iff, passed, List.drop_one, List.tail_cons]
  simp

theorem shows_head (hw : w.all Str.isspace = true) (hc : Str.isspace c = false)
    (dash : ¬ ['-', '-'] <+: c :: rest) : Shows w (c :: rest) := by
  have unbroken : isLineBoundary c = false := by
    rw [← Bool.not_eq_true]
    intro boundary
    rw [boundary_isspace boundary] at hc
    cases hc
  obtain ⟨later, heq⟩ := splitlines_first (show w ++ [c] ≠ [] by simp) rest
  rw [Shows, splitlines_cons unbroken, heq, List.append_assoc, List.singleton_append]
  refine ⟨_, List.mem_cons_self, not_passes hw hc fun dashes => dash (dashes.trans ?_)⟩
  exact List.cons_prefix_cons.mpr ⟨rfl, List.takeWhile_prefix _⟩

/-! ### Segments -/

theorem text_eq_nil (h : text ls = []) : ls = [] := by
  cases ls with
  | nil => rfl
  | cons l ls =>
    rw [text_cons, List.append_eq_nil_iff] at h
    exact absurd h.1 l.text_ne_nil

theorem opening_unique {kind kind' : Kind} (h : kind'.opening <+: kind.opening ++ rest) : kind' = kind := by
  obtain ⟨after, heq⟩ := h
  have opens := opened_opening kind rest
  rw [← heq, opened_opening] at opens
  exact Option.some.inj opens

/-- A block comment begins with `/*`, closed or not, and nothing else does. -/
theorem Lexeme.Fits.blockComment (h : l.Fits rest) (opens : ['/', '*'] <+: l.text ++ rest) :
    ∃ body, l = .region .blockComment body ∨ l = .unclosed .blockComment body := by
  have found : Kind.blockComment.opening <+: l.text ++ rest := opens
  cases l with
  | semicolon => simp [Lexeme.text, Kind.opening] at found
  | plain c => exact absurd found (h.2 .blockComment)
  | region kind body =>
    rw [Lexeme.text, List.append_assoc, List.append_assoc] at found
    exact ⟨body, .inl (by rw [opening_unique found])⟩
  | unclosed kind body =>
    rw [Lexeme.text, List.append_assoc] at found
    exact ⟨body, .inr (by rw [opening_unique found])⟩

/-- What is not a block comment keeps its first character. -/
theorem head_removeBlockComments (fits : l.Fits (text ls)) (block : l.isBlock = false) :
    (removeBlockComments 0 (text (l :: ls))).head? = (text (l :: ls)).head? := by
  rw [text_cons]
  by_cases opens : ['/', '*'] <+: l.text ++ text ls
  · obtain ⟨body, rfl | rfl⟩ := fits.blockComment opens
    · cases block
    · obtain rfl := text_eq_nil fits.1
      have open' : removeBlockComments 0 ('/' :: '*' :: body) = '/' :: removeBlockComments 0 ('*' :: body) :=
        removeBlockComments_open fits.2
      simp [Lexeme.text, Kind.opening, open']
  · obtain ⟨c, t, heq⟩ := List.exists_cons_of_ne_nil l.text_ne_nil
    rw [heq, List.cons_append] at opens ⊢
    rw [removeBlockComments_cons opens, List.head?_cons, List.head?_cons]

theorem removeBlockComments_text_block (fits : (Lexeme.region .blockComment body).Fits (text ls)) :
    removeBlockComments 0 (text (.region .blockComment body :: ls)) = removeBlockComments 0 (text ls) := by
  rw [text_cons]
  exact removeBlockComments_block fits (text ls)

/-- What is first once the block comments are cut out was first after them. -/
theorem exists_blocks (reads : Reads [] ls) (h : (removeBlockComments 0 (text ls)).head? = some c) :
    ∃ blocks after, ls = blocks ++ after ∧ blocks.all Lexeme.isBlock = true ∧ (text after).head? = some c := by
  induction ls with
  | nil => cases h
  | cons l ls ih =>
    obtain ⟨fits, reads⟩ := reads
    rw [List.append_nil] at fits
    cases block : l.isBlock with
    | false =>
      rw [head_removeBlockComments fits block] at h
      exact ⟨[], l :: ls, rfl, rfl, h⟩
    | true =>
      have isBlock := block
      cases l with
      | semicolon | plain | unclosed => cases block
      | region kind body =>
        cases kind with
        | lineComment | literal | dollarQuoted => cases block
        | blockComment =>
          rw [removeBlockComments_text_block fits] at h
          obtain ⟨blocks, after, rfl, all, head⟩ := ih reads h
          refine ⟨.region .blockComment body :: blocks, after, rfl, ?_, head⟩
          rw [List.all_cons, isBlock, all]
          rfl

/-- What is executable begins with no blank, and with a dash only when it is one. -/
theorem loud_head (loud : l.isSilent = false) :
    ∃ c rest, l.text = c :: rest ∧ Str.isspace c = false ∧ (c ≠ '-' ∨ l = .plain '-') := by
  cases l with
  | semicolon => exact ⟨';', [], rfl, by decide, .inl (by decide)⟩
  | plain c => exact ⟨c, [], rfl, loud, (ne_or_eq c '-').imp_right (congrArg Lexeme.plain)⟩
  | region kind body =>
    cases kind with
    | lineComment | blockComment => cases loud
    | literal => exact ⟨quote, _, rfl, by decide, .inl (by decide)⟩
    | dollarQuoted tag => exact ⟨'$', _, rfl, by decide, .inl (by decide)⟩
  | unclosed kind body =>
    cases kind with
    | lineComment | blockComment => cases loud
    | literal => exact ⟨quote, _, rfl, by decide, .inl (by decide)⟩
    | dollarQuoted tag => exact ⟨'$', _, rfl, by decide, .inl (by decide)⟩

theorem loud_shows (reads : Reads [] (l :: ls)) (loud : l.isSilent = false) (apart : ¬ DashesMeet (l :: ls))
    (hw : w.all Str.isspace = true) : Shows w (removeBlockComments 0 (text (l :: ls))) := by
  obtain ⟨fits, reads⟩ := reads
  rw [List.append_nil] at fits
  obtain ⟨c, rest, heq, hc, dash⟩ := loud_head loud
  have opens : ¬ ['/', '*'] <+: l.text ++ text ls := by
    intro opens
    obtain ⟨body, rfl | rfl⟩ := fits.blockComment opens
    · cases loud
    · cases loud
  rw [heq, List.cons_append] at opens
  rw [text_cons, heq, List.cons_append, removeBlockComments_cons opens]
  apply shows_head hw hc
  intro dashes
  obtain ⟨first, second⟩ := List.cons_prefix_cons.mp dashes
  rcases dash with other | rfl
  · exact other first.symm
  · obtain rfl : rest = [] := by
      rw [Lexeme.text, List.cons.injEq] at heq
      exact heq.2.symm
    obtain ⟨more, hmore⟩ := second
    have head : (removeBlockComments 0 (text ls)).head? = some '-' := by
      rw [List.nil_append] at hmore
      rw [← hmore]
      rfl
    obtain ⟨blocks, after, rfl, all, head⟩ := exists_blocks reads head
    exact apart ⟨[], blocks, after, rfl, rfl, all, head⟩

theorem Crosses.cons (silent : l.isSilent = true) (h : Crosses ls) : Crosses (l :: ls) := by
  obtain ⟨before, body, after, rfl, all, crosses⟩ := h
  refine ⟨l :: before, body, after, rfl, ?_, crosses⟩
  rw [List.all_cons, silent, all]
  rfl

theorem DashesMeet.cons (silent : l.isSilent = true) (h : DashesMeet ls) : DashesMeet (l :: ls) := by
  obtain ⟨before, blocks, after, rfl, all, meets⟩ := h
  refine ⟨l :: before, blocks, after, rfl, ?_, meets⟩
  rw [List.all_cons, silent, all]
  rfl

/-- Where it does not cross, a line comment is cut by itself. -/
theorem removeBlockComments_lineComment (within : ¬ Crosses (.region .lineComment body :: ls)) :
    removeBlockComments 0 (text (.region .lineComment body :: ls)) =
      '-' :: '-' :: removeBlockComments 0 body ++ '\n' :: removeBlockComments 0 (text ls) := by
  have whole : Whole body ∨ ¬ ['*', '/'] <:+: text ls := by
    by_contra neither
    rw [not_or, not_not] at neither
    exact within ⟨[], body, ls, rfl, rfl, neither⟩
  have parts : text (.region .lineComment body :: ls) = '-' :: '-' :: (body ++ '\n' :: text ls) := by
    simp [Lexeme.text, Kind.opening, Kind.closing]
  rw [parts, removeBlockComments_dashes, removeBlockComments_newline whole]
  rfl

/-- The first thing to execute shows. -/
theorem executable_shows (reads : Reads [] ls) (within : ¬ Crosses ls) (apart : ¬ DashesMeet ls)
    (loud : ls.all Lexeme.isSilent = false) (hw : w.all Str.isspace = true) :
    Shows w (removeBlockComments 0 (text ls)) := by
  induction ls generalizing w with
  | nil => cases loud
  | cons l ls ih =>
    cases silent : l.isSilent with
    | false => exact loud_shows reads silent apart hw
    | true =>
      obtain ⟨fits, reads⟩ := reads
      rw [List.append_nil] at fits
      rw [List.all_cons, silent, Bool.true_and] at loud
      have later : ∀ {w : List Char}, w.all Str.isspace = true → Shows w (removeBlockComments 0 (text ls)) :=
        fun hw => ih reads (fun h => within (h.cons silent)) (fun h => apart (h.cons silent)) loud hw
      cases l with
      | semicolon => cases silent
      | plain c =>
        obtain ⟨w', hw', same⟩ := shows_blank silent hw (removeBlockComments 0 (text ls))
        have opens : ¬ ['/', '*'] <+: c :: text ls := fits.2 .blockComment
        rw [text_cons, Lexeme.text, List.singleton_append, removeBlockComments_cons opens, same]
        exact later hw'
      | region kind body =>
        cases kind with
        | literal | dollarQuoted => cases silent
        | blockComment =>
          rw [removeBlockComments_text_block fits]
          exact later hw
        | lineComment =>
          rw [removeBlockComments_lineComment within, shows_newline]
          exact .inr (later rfl)
      | unclosed kind body =>
        obtain rfl := text_eq_nil fits.1
        cases loud

/-- With nothing to execute, what shows is what is not quiet. -/
theorem silent_shows_iff (reads : Reads [] ls) (within : ¬ Crosses ls) (silent : ls.all Lexeme.isSilent = true)
    (hw : w.all Str.isspace = true) : Shows w (removeBlockComments 0 (text ls)) ↔ ¬ Quiet ls := by
  induction ls generalizing w with
  | nil => exact iff_of_false (not_shows_nil hw) (not_not_intro nofun)
  | cons l ls ih =>
    obtain ⟨fits, reads⟩ := reads
    rw [List.append_nil] at fits
    rw [List.all_cons, Bool.and_eq_true] at silent
    have later : ∀ {w : List Char}, w.all Str.isspace = true →
        (Shows w (removeBlockComments 0 (text ls)) ↔ ¬ Quiet ls) :=
      fun hw => ih reads (fun h => within (h.cons silent.1)) silent.2 hw
    have parts : Quiet (l :: ls) ↔ l.Quiet ∧ Quiet ls := List.forall_mem_cons
    rw [parts]
    cases l with
    | semicolon => cases silent.1
    | plain c =>
      obtain ⟨w', hw', same⟩ := shows_blank silent.1 hw (removeBlockComments 0 (text ls))
      have opens : ¬ ['/', '*'] <+: c :: text ls := fits.2 .blockComment
      rw [text_cons, Lexeme.text, List.singleton_append, removeBlockComments_cons opens, same, later hw']
      simp [Lexeme.Quiet]
    | region kind body =>
      cases kind with
      | literal | dollarQuoted => cases silent.1
      | blockComment =>
        rw [removeBlockComments_text_block fits, later hw]
        simp [Lexeme.Quiet]
      | lineComment =>
        have own : Shows w ('-' :: '-' :: removeBlockComments 0 body) ↔ Spills body := shows_comment hw _
        rw [removeBlockComments_lineComment within, shows_newline, own, later rfl, Lexeme.Quiet]
        tauto
    | unclosed kind body =>
      obtain rfl := text_eq_nil fits.1
      have quiet : Quiet [] := nofun
      cases kind with
      | literal | dollarQuoted => cases silent.1
      | lineComment =>
        have own : Shows w ('-' :: '-' :: removeBlockComments 0 body) ↔ Spills body := shows_comment hw _
        have cut : removeBlockComments 0 (text [.unclosed .lineComment body]) =
            '-' :: '-' :: removeBlockComments 0 body := by
          simp [Lexeme.text, Kind.opening, removeBlockComments_dashes]
        rw [cut, own, Lexeme.Quiet]
        simp [quiet]
      | blockComment =>
        have cut : removeBlockComments 0 (text [.unclosed .blockComment body]) =
            '/' :: removeBlockComments 0 ('*' :: body) := by
          have never : ¬ ['*', '/'] <:+: body := fits.2
          simp [Lexeme.text, Kind.opening, removeBlockComments_open never]
        rw [cut, Lexeme.Quiet]
        refine iff_of_true (shows_head hw (by decide) ?_) (by simp)
        simp

theorem isCommentOnly_eq_false : isCommentOnly t = false ↔ Shows [] (removeBlockComments 0 t) := by
  rw [isCommentOnly_eq, List.all_eq_false, Shows]
  simp

end LlmGateway.Migrations
