import LlmGateway.Migrations.Lexemes

/-! The scanner against the lexical reading: on every script its segments are those between the
semicolons that the reading has. -/
namespace LlmGateway.Migrations
open Lib Lib.Delimited

def Lexeme.isSemicolon : Lexeme → Bool
  | .semicolon => true
  | _ => false

/-- What stands between the semicolons. -/
def segments (ls : List Lexeme) : List (List Lexeme) := ls.splitOnP Lexeme.isSemicolon

/-- A segment as it would be executed. -/
def statement (segment : List Lexeme) : List Char := Str.strip Str.isspace (text segment)

/-- What the scanner is inside of when it is inside of a region. -/
def Kind.mode : Kind → Mode
  | .lineComment => .inLineComment
  | .blockComment => .inBlockComment
  | .literal => .inSingleQuote
  | .dollarQuoted tag => .inDollarQuote tag

variable {mode mode' : Mode} {kind : Kind} {statements : List (List Char)} {buffer taken after body rest : List Char}
  {c : Char}

/-! ### One turn -/

theorem scan_skip (skip : Nat) (mode : Mode) (statements : List (List Char)) (buffer input : List Char) :
    scan skip mode statements buffer input = scan 0 mode statements buffer (input.drop skip) := by
  induction input generalizing skip with
  | nil => cases skip <;> rfl
  | cons c input ih =>
    cases skip with
    | zero => rfl
    | succ skip => exact ih skip

theorem scan_turn (h : turn mode c rest = some (taken, mode')) (moved : c :: rest = taken ++ after)
    (some_taken : taken ≠ []) :
    scan 0 mode statements buffer (c :: rest) = scan 0 mode' statements (buffer ++ taken) after := by
  obtain ⟨d, taken, rfl⟩ := List.exists_cons_of_ne_nil some_taken
  rw [scan, h]
  dsimp only
  rw [scan_skip, List.length_cons, Nat.add_sub_cancel]
  rw [List.cons_append] at moved
  rw [(List.cons.inj moved).2, List.drop_left]

theorem scan_one (h : turn mode c rest = some ([c], mode')) :
    scan 0 mode statements buffer (c :: rest) = scan 0 mode' statements (buffer ++ [c]) rest :=
  scan_turn h rfl (List.cons_ne_nil _ _)

theorem scan_terminator (h : turn mode c rest = none) :
    scan 0 mode statements buffer (c :: rest) = scan 0 mode (push statements buffer) [] rest := by
  rw [scan, h]

theorem turn_default (c : Char) (rest : List Char) : turn .default c rest =
    match opened (c :: rest) with
    | some kind => some (kind.opening, kind.mode)
    | none => if c = ';' then none else some ([c], .default) := by
  have single : (c :: rest).take 1 = [quote] ↔ c = quote := by simp
  simp only [turn, opened, single]
  by_cases line : (c :: rest).take 2 = ['-', '-']
  · rw [if_pos line, if_pos line, line]
    rfl
  by_cases block : (c :: rest).take 2 = ['/', '*']
  · rw [if_neg line, if_neg line, if_pos block, if_pos block, block]
    rfl
  by_cases literal : c = quote
  · rw [if_neg line, if_neg line, if_neg block, if_neg block, if_pos literal, if_pos literal, literal]
    rfl
  · rw [if_neg line, if_neg line, if_neg block, if_neg block, if_neg literal, if_neg literal]
    cases dollarTag (c :: rest) with
    | none => rfl
    | some tag => rfl

/-- Inside of a region that is no literal. -/
theorem turn_inside (hkind : kind ≠ .literal) (c : Char) (rest : List Char) : turn kind.mode c rest =
    if kind.closing <+: c :: rest then some (kind.closing, .default) else some ([c], kind.mode) := by
  cases kind with
  | lineComment =>
    have closes : ['\n'] <+: c :: rest ↔ c = '\n' := by simp [List.cons_prefix_cons, eq_comm]
    rw [Kind.closing, if_congr closes rfl rfl]
    by_cases hc : c = '\n'
    · rw [if_pos hc, hc]
      rfl
    · rw [if_neg hc, Kind.mode, turn, if_neg hc]
  | blockComment =>
    rw [Kind.closing, Kind.mode, turn]
    by_cases closes : (c :: rest).take 2 = ['*', '/']
    · rw [if_pos closes, if_pos (List.prefix_iff_eq_take.mpr closes.symm), closes]
    · rw [if_neg closes, if_neg fun h => closes (List.prefix_iff_eq_take.mp h : _ = (c :: rest).take 2).symm]
  | literal => exact absurd rfl hkind
  | dollarQuoted tag => rw [Kind.closing, Kind.mode, turn, if_congr List.isPrefixOf_iff_prefix rfl rfl]

/-! ### Regions -/

theorem scan_opening (kind : Kind) (statements : List (List Char)) (buffer rest : List Char) :
    scan 0 .default statements buffer (kind.opening ++ rest) =
      scan 0 kind.mode statements (buffer ++ kind.opening) rest := by
  have opens := opened_opening kind rest
  cases hinput : kind.opening ++ rest with
  | nil => cases kind <;> cases hinput
  | cons c input =>
    rw [hinput] at opens
    have turned := turn_default c input
    rw [opens] at turned
    apply scan_turn turned hinput.symm
    cases kind <;> exact List.cons_ne_nil _ _

theorem scan_closes (h : kind.Closes body rest) :
    scan 0 kind.mode statements buffer (body ++ kind.closing ++ rest) =
      scan 0 .default statements (buffer ++ body ++ kind.closing) rest := by
  by_cases hkind : kind = .literal
  · subst hkind
    obtain ⟨escaped, apart⟩ := h
    rw [Kind.closing, List.append_assoc]
    induction escaped generalizing buffer with
    | nil =>
      have alone : rest.take 1 ≠ [quote] := by
        cases rest with
        | nil => exact (List.cons_ne_nil quote []).symm
        | cons d rest => exact fun heq => apart (congrArg some (List.cons.inj heq).1)
      have turned : turn .inSingleQuote quote rest = some ([quote], .default) := by
        rw [turn, if_pos rfl, if_neg alone]
      rw [List.append_nil]
      exact scan_one turned
    | @char c body hc _ ih =>
      have turned : turn .inSingleQuote c (body ++ ([quote] ++ rest)) = some ([c], .inSingleQuote) := by
        rw [turn, if_neg hc]
      rw [List.cons_append, Kind.mode, scan_one turned, List.append_cons buffer c body]
      exact ih
    | @pair body _ ih =>
      have turned : turn .inSingleQuote quote (quote :: (body ++ ([quote] ++ rest))) =
          some ([quote, quote], .inSingleQuote) := by
        rw [turn, if_pos rfl]
        exact if_pos rfl
      have both : buffer ++ quote :: quote :: body = buffer ++ [quote, quote] ++ body := by simp
      rw [List.cons_append, List.cons_append, Kind.mode, both]
      exact (scan_turn turned rfl (List.cons_ne_nil _ _)).trans ih
  · have ends : EndsAt kind.closing body := by
      cases kind with
      | literal => exact absurd rfl hkind
      | lineComment | blockComment | dollarQuoted => exact h
    clear h
    induction body generalizing buffer with
    | nil =>
      obtain ⟨d, closing, hclosing⟩ := List.exists_cons_of_ne_nil kind.closing_ne_nil
      have turned := turn_inside hkind d (closing ++ rest)
      rw [← List.cons_append, ← hclosing, if_pos (List.prefix_append ..)] at turned
      rw [List.nil_append, List.append_nil, hclosing, List.cons_append]
      rw [hclosing] at turned
      exact scan_turn turned rfl (List.cons_ne_nil _ _)
    | cons c body ih =>
      have turned := turn_inside hkind c (body ++ kind.closing ++ rest)
      rw [← List.cons_append, ← List.cons_append, if_neg (ends.not_prefix rest)] at turned
      rw [List.cons_append, List.cons_append, scan_one turned, ih (endsAt_cons.mp ends).2, List.append_cons buffer c body]

theorem scan_unclosed (h : kind.Unclosed body) :
    scan 0 kind.mode statements buffer body = push statements (buffer ++ body) := by
  by_cases hkind : kind = .literal
  · subst hkind
    have escaped : Escaped body := h
    clear h
    induction escaped generalizing buffer with
    | nil => rw [List.append_nil, scan]
    | @char c body hc _ ih =>
      have turned : turn .inSingleQuote c body = some ([c], .inSingleQuote) := by
        rw [turn, if_neg hc]
      rw [Kind.mode, scan_one turned, List.append_cons buffer c body]
      exact ih
    | @pair body _ ih =>
      have turned : turn .inSingleQuote quote (quote :: body) = some ([quote, quote], .inSingleQuote) := by
        rw [turn, if_pos rfl]
        exact if_pos rfl
      have both : buffer ++ quote :: quote :: body = buffer ++ [quote, quote] ++ body := by simp
      rw [Kind.mode, both]
      exact (scan_turn turned rfl (List.cons_ne_nil _ _)).trans ih
  · have open_ : ¬ kind.closing <:+: body := by
      cases kind with
      | literal => exact absurd rfl hkind
      | lineComment | blockComment | dollarQuoted => exact h
    clear h
    induction body generalizing buffer with
    | nil => rw [List.append_nil, scan]
    | cons c body ih =>
      rw [List.infix_cons_iff, not_or] at open_
      have turned := turn_inside hkind c body
      rw [if_neg open_.1] at turned
      rw [scan_one turned, ih open_.2, List.append_cons buffer c body]

/-! ### The whole script -/

/-- What is left of the buffers once they are stripped and the empty ones are gone. -/
def pushed (buffers : List (List Char)) : List (List Char) :=
  (buffers.map (Str.strip Str.isspace)).filter (· ≠ [])

theorem pushed_cons (buffer : List Char) (buffers : List (List Char)) :
    pushed (buffer :: buffers) = pushed [buffer] ++ pushed buffers := by
  rw [pushed, pushed, pushed, ← List.filter_append, ← List.map_append, List.singleton_append]

theorem push_eq (statements : List (List Char)) (buffer : List Char) :
    push statements buffer = statements ++ pushed [buffer] := by
  rw [push, pushed, List.map_singleton]
  by_cases blank : Str.strip Str.isspace buffer = []
  · simp [blank]
  · simp [blank]

/-- The scanner's buffers are the segments' texts. -/
theorem scan_text {ls : List Lexeme} (reads : Reads [] ls) (statements : List (List Char)) (buffer : List Char) :
    scan 0 .default statements buffer (text ls) =
      statements ++ pushed (((segments ls).map text).modifyHead (buffer ++ ·)) := by
  induction ls generalizing statements buffer with
  | nil =>
    rw [text_nil, scan, push_eq]
    simp [segments]
  | cons l ls ih =>
    obtain ⟨fits, reads⟩ := reads
    rw [List.append_nil] at fits
    -- what is moved to the buffer stands at the head of the first segment
    have moved (h : l.isSemicolon = false) : ((segments (l :: ls)).map text).modifyHead (buffer ++ ·) =
        ((segments ls).map text).modifyHead (buffer ++ l.text ++ ·) := by
      rw [segments, List.splitOnP_cons_eq_if_modifyHead, h, if_neg Bool.false_ne_true]
      obtain ⟨first, others, heq⟩ := List.exists_cons_of_ne_nil (List.splitOnP_ne_nil Lexeme.isSemicolon ls)
      rw [segments, heq]
      simp
    rw [text_cons]
    cases l with
    | semicolon =>
      have turned : turn .default ';' (text ls) = none := by
        rw [turn_default, opened_eq_none.mpr]
        · exact if_pos rfl
        · intro kind opens
          cases kind <;> cases (List.cons_prefix_cons.mp opens).1
      rw [Lexeme.text, List.singleton_append, scan_terminator turned, ih reads, push_eq]
      rw [segments, segments, List.splitOnP_cons_eq_if_modifyHead, Lexeme.isSemicolon, if_pos rfl]
      obtain ⟨first, others, heq⟩ := List.exists_cons_of_ne_nil (List.splitOnP_ne_nil Lexeme.isSemicolon ls)
      rw [heq, List.map_cons, List.map_cons, List.map_cons, List.modifyHead_cons, List.modifyHead_cons, text_nil,
        List.append_nil, List.nil_append, pushed_cons buffer (text first :: _), List.append_assoc]
    | plain c =>
      have turned : turn .default c (text ls) = some ([c], .default) := by
        rw [turn_default, opened_eq_none.mpr fits.2]
        exact if_neg fits.1
      rw [moved rfl, Lexeme.text, List.singleton_append, scan_one turned, ih reads]
    | region kind body =>
      rw [moved rfl, Lexeme.text, List.append_assoc, List.append_assoc, scan_opening, ← List.append_assoc,
        scan_closes fits, ih reads]
      simp only [List.append_assoc]
    | unclosed kind body =>
      obtain ⟨ended, unclosed⟩ := fits
      rw [moved rfl, ended, List.append_nil, Lexeme.text, scan_opening, scan_unclosed unclosed, push_eq]
      obtain rfl : ls = [] := by
        cases ls with
        | nil => rfl
        | cons l _ => exact absurd (List.append_eq_nil_iff.mp ended).1 l.text_ne_nil
      simp [segments]

/-- What is returned: the segments as they would be executed, but for those the comment filter drops. -/
theorem splitSqlStatements_eq {script : String} {ls : List Lexeme} (reading : Reading script.toList ls) :
    splitSqlStatements script =
      ((segments ls).filter fun segment => !isCommentOnly (statement segment)).map fun segment =>
        String.ofList (statement segment) := by
  obtain ⟨htext, reads⟩ := reading
  have buffered : ((segments ls).map text).modifyHead ([] ++ ·) = (segments ls).map text := by
    cases segments ls <;> rfl
  have kept : ∀ segment, (!isCommentOnly (statement segment) && decide (statement segment ≠ [])) =
      !isCommentOnly (statement segment) := by
    intro segment
    by_cases blank : statement segment = []
    · rw [blank]
      rfl
    · rw [decide_eq_true blank, Bool.and_true]
  rw [splitSqlStatements, ← htext, scan_text reads, buffered, List.nil_append, pushed, List.map_map, List.filter_filter,
    List.filter_map, List.map_map]
  exact congrArg _ (List.filter_congr fun segment _ => kept segment)

end LlmGateway.Migrations
