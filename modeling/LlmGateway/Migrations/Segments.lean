import LlmGateway.Migrations.Scanner
import Mathlib.Data.List.DropRight

/-! A segment by itself: stripped, it is read as it was within its script, and a newline after it
leaves it closed. -/
namespace LlmGateway.Migrations
open Lib Lib.Delimited

/-- No region opens from before `rest` into it. -/
def Apart (rest : List Char) : Prop := ∀ c, rest.head? = some c → ∀ kind : Kind, c ∉ kind.opening

/-- A quote, a dollar body or a block comment that never closes. -/
def Lexeme.leavesOpen : Lexeme → Bool
  | .unclosed kind _ => kind ≠ .lineComment
  | _ => false

def Settled (ls : List Lexeme) : Prop := ∀ l ∈ ls, l.leavesOpen = false

instance (ls : List Lexeme) : Decidable (Settled ls) := inferInstanceAs (Decidable (∀ l ∈ ls, _))

/-- Whitespace, or a comment. -/
def Lexeme.isSilent : Lexeme → Bool
  | .semicolon => false
  | .plain c => Str.isspace c
  | .region kind _ | .unclosed kind _ => kind.isComment

/-- No semicolon separates anything. -/
def Joined (ls : List Lexeme) : Prop := ∀ l ∈ ls, l.isSemicolon = false

/-- `ls'` is as executable as `ls`, as settled and as joined. -/
structure Keeps (ls ls' : List Lexeme) : Prop where
  silent : ls'.all Lexeme.isSilent = ls.all Lexeme.isSilent
  settled : Settled ls → Settled ls'
  joined : Joined ls → Joined ls'

variable {kind : Kind} {l : Lexeme} {ls ls' ls'' segment : List Lexeme} {t w rest body script : List Char} {c : Char}

theorem Keeps.refl (ls : List Lexeme) : Keeps ls ls := ⟨rfl, id, id⟩

theorem Keeps.trans (h : Keeps ls ls') (h' : Keeps ls' ls'') : Keeps ls ls'' :=
  ⟨h'.silent.trans h.silent, fun settled => h'.settled (h.settled settled), fun joined => h'.joined (h.joined joined)⟩

theorem Keeps.cons (l : Lexeme) (h : Keeps ls ls') : Keeps (l :: ls) (l :: ls') where
  silent := by rw [List.all_cons, List.all_cons, h.silent]
  settled settled l' hm := by
    rcases List.mem_cons.mp hm with rfl | hm
    · exact settled l' List.mem_cons_self
    · exact h.settled (fun l hm => settled l (List.mem_cons_of_mem _ hm)) l' hm
  joined joined l' hm := by
    rcases List.mem_cons.mp hm with rfl | hm
    · exact joined l' List.mem_cons_self
    · exact h.joined (fun l hm => joined l (List.mem_cons_of_mem _ hm)) l' hm

/-- Whitespace beside others. -/
theorem Keeps.append_space (h : Keeps ls ls'') (space : Keeps ls' []) : Keeps (ls ++ ls') ls'' where
  silent := by
    have blank : ls'.all Lexeme.isSilent = true := space.silent.symm
    rw [List.all_append, blank, Bool.and_true, h.silent]
  settled settled := h.settled fun l hm => settled l (List.mem_append_left _ hm)
  joined joined := h.joined fun l hm => joined l (List.mem_append_left _ hm)

/-! ### What follows a lexeme -/

theorem Apart.opening (h : Apart rest) (opens : kind.opening <+: t ++ rest) : kind.opening <+: t := by
  rcases List.prefix_or_prefix_of_prefix opens (List.prefix_append t rest) with within | ⟨u, reaches⟩
  · exact within
  · cases u with
    | nil =>
      rw [List.append_nil] at reaches
      exact reaches ▸ List.prefix_rfl
    | cons c u =>
      rw [← reaches, List.prefix_append_right_inj] at opens
      obtain ⟨after, rfl⟩ := opens
      refine absurd ?_ (h c rfl kind)
      rw [← reaches]
      exact List.mem_append_right _ List.mem_cons_self

private theorem not_space_of_all (h : t.all (fun c => !Str.isspace c) = true) : ∀ c ∈ t, Str.isspace c = false := by
  simpa using h

theorem opening_not_space (kind : Kind) : ∀ c ∈ kind.opening, Str.isspace c = false := by
  have inTag_not_space : ∀ c, inTag c = true → Str.isspace c = false := by
    intro c hc
    simp only [inTag, startsTag, Bool.or_eq_true, Bool.and_eq_true, decide_eq_true_eq] at hc
    have upper : c.toNat < 128 ∧ 32 < c.toNat := by
      rcases hc with (((⟨low, high⟩ | ⟨low, high⟩) | rfl) | ⟨low, high⟩)
      · exact ⟨lt_of_le_of_lt (Char.le_def.mp high) (by decide), lt_of_lt_of_le (by decide) (Char.le_def.mp low)⟩
      · exact ⟨lt_of_le_of_lt (Char.le_def.mp high) (by decide), lt_of_lt_of_le (by decide) (Char.le_def.mp low)⟩
      · decide
      · exact ⟨lt_of_le_of_lt (Char.le_def.mp high) (by decide), lt_of_lt_of_le (by decide) (Char.le_def.mp low)⟩
    simp only [Str.isspace, Bool.or_eq_false_iff, Bool.and_eq_false_iff, decide_eq_false_iff_not, beq_eq_false_iff_ne]
    omega
  intro c hc
  cases kind with
  | lineComment | blockComment | literal => exact not_space_of_all rfl c hc
  | dollarQuoted tag =>
    rcases List.mem_cons.mp hc with rfl | hc
    · decide
    · rcases List.mem_append.mp hc with hc | hc
      · exact inTag_not_space c (List.all_eq_true.mp tag.within c hc)
      · rw [List.mem_singleton.mp hc]
        decide

theorem apart_newline (rest : List Char) : Apart ('\n' :: rest) := by
  rintro c hc kind hm
  cases hc
  exact absurd (opening_not_space kind _ hm) (by decide)

theorem Lexeme.Fits.alone (h : l.Fits (t ++ rest)) : l.Fits t := by
  cases l with
  | semicolon => trivial
  | plain c =>
    refine ⟨h.1, fun kind opens => h.2 kind (opens.trans ?_)⟩
    rw [← List.cons_append]
    exact List.prefix_append ..
  | region kind body =>
    cases kind with
    | literal =>
      refine ⟨h.1, fun heq => h.2 ?_⟩
      obtain ⟨t, rfl⟩ := List.head?_eq_some_iff.mp heq
      rfl
    | lineComment | blockComment | dollarQuoted => exact h
  | unclosed kind body => exact ⟨(List.append_eq_nil_iff.mp h.1).1, h.2⟩

theorem Lexeme.Fits.before (h : l.Fits t) (closed : ∀ kind body, l ≠ .unclosed kind body) (apart : Apart rest) :
    l.Fits (t ++ rest) := by
  cases l with
  | semicolon => trivial
  | plain c =>
    refine ⟨h.1, fun kind opens => h.2 kind (apart.opening ?_)⟩
    exact opens
  | region kind body =>
    cases kind with
    | literal =>
      refine ⟨h.1, fun heq => ?_⟩
      cases t with
      | nil => exact apart quote heq .literal (List.mem_singleton.mpr rfl)
      | cons c t => exact h.2 heq
    | lineComment | blockComment | dollarQuoted => exact h
  | unclosed kind body => exact absurd rfl (closed kind body)

theorem Reads.alone (h : Reads rest ls) : Reads [] ls := by
  induction ls with
  | nil => trivial
  | cons l ls ih =>
    refine ⟨?_, ih h.2⟩
    rw [List.append_nil]
    exact h.1.alone

theorem Reads.append_iff : Reads rest (ls ++ ls') ↔ Reads (text ls' ++ rest) ls ∧ Reads rest ls' := by
  induction ls with
  | nil => exact ⟨fun h => ⟨trivial, h⟩, And.right⟩
  | cons l ls ih => rw [List.cons_append, Reads, Reads, ih, text_append, List.append_assoc, and_assoc]

theorem Reads.of_infix (h : Reads rest ls) (part : segment <:+: ls) : Reads [] segment := by
  obtain ⟨before, after, rfl⟩ := part
  exact (Reads.append_iff.mp (Reads.append_iff.mp h).1).2.alone

/-! ### Whitespace -/

/-- Without the whitespace before it, a segment reads the same. -/
theorem exists_dropWhile (h : Reads [] ls) :
    ∃ ls', text ls' = (text ls).dropWhile Str.isspace ∧ Reads [] ls' ∧ Keeps ls ls' := by
  induction ls with
  | nil => exact ⟨[], rfl, trivial, .refl []⟩
  | cons l ls ih =>
    -- a lexeme that begins with something else stays, and so do those after it
    have stays (c : Char) (after : List Char) (htext : l.text = c :: after) (space : Str.isspace c = false) :
        ∃ ls', text ls' = (text (l :: ls)).dropWhile Str.isspace ∧ Reads [] ls' ∧ Keeps (l :: ls) ls' := by
      refine ⟨l :: ls, ?_, h, .refl _⟩
      rw [text_cons, htext, List.cons_append, List.dropWhile_cons_of_neg (by simp [space])]
    have opens (kind : Kind) (after : List Char) (htext : l.text = kind.opening ++ after) :
        ∃ ls', text ls' = (text (l :: ls)).dropWhile Str.isspace ∧ Reads [] ls' ∧ Keeps (l :: ls) ls' := by
      cases hopening : kind.opening with
      | nil => cases kind <;> cases hopening
      | cons c opening =>
        rw [hopening] at htext
        exact stays c _ htext (opening_not_space kind c (hopening ▸ List.mem_cons_self))
    cases l with
    | semicolon => exact stays ';' [] rfl rfl
    | plain c =>
      by_cases space : Str.isspace c = true
      · obtain ⟨ls', htext, reads, keeps⟩ := ih h.2
        refine ⟨ls', ?_, reads, ?_, fun settled => keeps.settled ?_, fun joined => keeps.joined ?_⟩
        · rw [htext, text_cons, Lexeme.text, List.singleton_append, List.dropWhile_cons_of_pos space]
        · rw [keeps.silent, List.all_cons, Lexeme.isSilent, space, Bool.true_and]
        · exact fun l hm => settled l (List.mem_cons_of_mem _ hm)
        · exact fun l hm => joined l (List.mem_cons_of_mem _ hm)
      · exact stays c [] rfl (Bool.not_eq_true _ ▸ space)
    | region kind body => exact opens kind (body ++ kind.closing) (List.append_assoc ..)
    | unclosed kind body => exact opens kind body rfl

/-- No whitespace at the end. -/
def Trimmed (t : List Char) : Prop := t.rdropWhile Str.isspace = t

theorem trimmed_of_not_space (h : ∀ c ∈ t, Str.isspace c = false) : Trimmed t := by
  rw [Trimmed, List.rdropWhile_eq_self_iff]
  intro hne
  rw [h _ (List.getLast_mem hne)]
  exact Bool.false_ne_true

theorem Trimmed.append (h : Trimmed t) (hne : t ≠ []) (before : List Char) : Trimmed (before ++ t) := by
  rw [Trimmed, List.rdropWhile_eq_self_iff] at h ⊢
  intro _
  rw [List.getLast_append_of_ne_nil _ hne]
  exact h hne

theorem rdropWhile_append_space (h : ∀ c ∈ w, Str.isspace c = true) :
    (t ++ w).rdropWhile Str.isspace = t.rdropWhile Str.isspace := by
  have spaces : ∀ c ∈ w.reverse, Str.isspace c = true := fun c hc => h c (List.mem_reverse.mp hc)
  rw [List.rdropWhile, List.reverse_append, List.dropWhile_append_of_pos spaces, ← List.rdropWhile]

theorem closing_not_space (hkind : kind ≠ .lineComment) : ∀ c ∈ kind.closing, Str.isspace c = false := by
  cases kind with
  | lineComment => exact absurd rfl hkind
  | blockComment => exact not_space_of_all rfl
  | literal => exact opening_not_space .literal
  | dollarQuoted tag => exact opening_not_space (.dollarQuoted tag)

theorem Escaped.of_append (h : Escaped (body ++ w)) (unquoted : quote ∉ w) : Escaped body := by
  generalize heq : body ++ w = whole at h
  induction h generalizing body with
  | nil =>
    rw [(List.append_eq_nil_iff.mp heq).1]
    exact .nil
  | char hc _ ih =>
    cases body with
    | nil => exact .nil
    | cons d body =>
      cases heq
      exact .char hc (ih rfl)
  | pair _ ih =>
    match body, heq with
    | [], _ => exact .nil
    | [_], heq =>
      cases heq
      exact absurd List.mem_cons_self unquoted
    | _ :: _ :: body, heq =>
      cases heq
      exact .pair (ih rfl)

theorem Kind.Unclosed.of_append (h : kind.Unclosed (body ++ w)) (space : ∀ c ∈ w, Str.isspace c = true) :
    kind.Unclosed body := by
  cases kind with
  | literal => exact Escaped.of_append h fun hm => absurd (space quote hm) (by decide)
  | lineComment | blockComment | dollarQuoted => exact fun part => h (part.trans (List.prefix_append ..).isInfix)

/-- A lexeme that only whitespace follows. -/
private theorem exists_trimmed (fits : l.Fits rest) :
    ∃ ls' w, l.text = text ls' ++ w ∧ (∀ c ∈ w, Str.isspace c = true) ∧ Trimmed (text ls') ∧ Reads [] ls' ∧
      Keeps [l] ls' := by
  have whole (trimmed : Trimmed l.text) : ∃ ls' w, l.text = text ls' ++ w ∧ (∀ c ∈ w, Str.isspace c = true) ∧
      Trimmed (text ls') ∧ Reads [] ls' ∧ Keeps [l] ls' := by
    have htext : text [l] = l.text := by rw [text_cons, text_nil, List.append_nil]
    refine ⟨[l], [], ?_, fun c hc => absurd hc List.not_mem_nil, ?_, ⟨?_, trivial⟩, .refl [l]⟩
    · rw [htext, List.append_nil]
    · rw [htext]
      exact trimmed
    · rw [text_nil, List.append_nil]
      exact Lexeme.Fits.alone (t := []) fits
  -- what is open at the end loses the whitespace of its body
  have open_ (kind : Kind) (body space : List Char) (htext : l.text = kind.opening ++ body ++ space)
      (hspace : ∀ c ∈ space, Str.isspace c = true) (unclosed : kind.Unclosed body)
      (keeps : ∀ body', Keeps [l] [.unclosed kind body']) : ∃ ls' w, l.text = text ls' ++ w ∧
        (∀ c ∈ w, Str.isspace c = true) ∧ Trimmed (text ls') ∧ Reads [] ls' ∧ Keeps [l] ls' := by
    have split := List.rdropWhile_append_rtakeWhile (p := Str.isspace) (l := body)
    have tail : ∀ c ∈ body.rtakeWhile Str.isspace, Str.isspace c = true := fun c hc => List.mem_rtakeWhile_imp hc
    refine ⟨[.unclosed kind (body.rdropWhile Str.isspace)], body.rtakeWhile Str.isspace ++ space, ?_, ?_, ?_, ⟨⟨rfl, ?_⟩,
      trivial⟩, keeps _⟩
    · rw [text_cons, text_nil, List.append_nil, Lexeme.text, List.append_assoc, ← List.append_assoc _ _ space, split,
        ← List.append_assoc]
      exact htext
    · intro c hc
      rcases List.mem_append.mp hc with hc | hc
      · exact tail c hc
      · exact hspace c hc
    · rw [text_cons, text_nil, List.append_nil, Lexeme.text]
      cases hbody : body.rdropWhile Str.isspace with
      | nil =>
        rw [List.append_nil]
        exact trimmed_of_not_space (opening_not_space kind)
      | cons c body' =>
        rw [← hbody]
        exact Trimmed.append (List.rdropWhile_idempotent _ _) (hbody ▸ List.cons_ne_nil _ _) _
    · rw [← split] at unclosed
      exact unclosed.of_append tail
  cases l with
  | semicolon => exact whole (trimmed_of_not_space (not_space_of_all rfl))
  | plain c =>
    by_cases space : Str.isspace c = true
    · refine ⟨[], [c], rfl, ?_, rfl, trivial, ?_, fun _ l hl => absurd hl List.not_mem_nil,
        fun _ l hl => absurd hl List.not_mem_nil⟩
      · intro d hd
        rw [List.mem_singleton.mp hd]
        exact space
      · rw [List.all_cons, Lexeme.isSilent, space]
        rfl
    · refine whole (trimmed_of_not_space fun d hd => ?_)
      rw [List.mem_singleton.mp hd]
      exact Bool.not_eq_true _ ▸ space
  | region kind body =>
    by_cases hkind : kind = .lineComment
    · subst hkind
      refine open_ .lineComment body ['\n'] rfl ?_ ?_ fun body' => ⟨rfl, fun _ => ?_, fun _ => ?_⟩
      · intro c hc
        rw [List.mem_singleton.mp hc]
        decide
      · exact EndsAt.not_infix (List.cons_ne_nil _ _) fits
      · intro l hm
        rw [List.mem_singleton.mp hm]
        rfl
      · intro l hm
        rw [List.mem_singleton.mp hm]
        rfl
    · exact whole ((trimmed_of_not_space (closing_not_space hkind)).append kind.closing_ne_nil _)
  | unclosed kind body =>
    refine open_ kind body [] (List.append_nil _).symm (fun c hc => absurd hc List.not_mem_nil) fits.2 fun body' =>
      ⟨rfl, fun settled => ?_, fun _ => ?_⟩
    · intro l hm
      rw [List.mem_singleton.mp hm]
      exact settled (.unclosed kind body) (List.mem_singleton.mpr rfl)
    · intro l hm
      rw [List.mem_singleton.mp hm]
      rfl

/-- Without the whitespace after it, a segment reads the same. A line comment may stay open then. -/
theorem exists_rdropWhile (h : Reads [] ls) :
    ∃ ls' w, text ls = text ls' ++ w ∧ (∀ c ∈ w, Str.isspace c = true) ∧ Trimmed (text ls') ∧ Reads [] ls' ∧
      Keeps ls ls' := by
  induction ls with
  | nil => exact ⟨[], [], rfl, fun c hc => absurd hc List.not_mem_nil, rfl, trivial, .refl []⟩
  | cons l ls ih =>
    obtain ⟨fits, reads⟩ := h
    obtain ⟨ls', w, htext, space, trimmed, reads', keeps⟩ := ih reads
    rw [List.append_nil, htext] at fits
    cases ls' with
    | nil =>
      obtain ⟨ls'', w', hl, space', trimmed', reads'', keeps'⟩ := exists_trimmed fits
      refine ⟨ls'', w' ++ w, ?_, ?_, trimmed', reads'', keeps'.append_space keeps⟩
      · rw [text_cons, hl, htext, text_nil, List.nil_append, List.append_assoc]
      · intro c hc
        rcases List.mem_append.mp hc with hc | hc
        · exact space' c hc
        · exact space c hc
    | cons l' ls' =>
      have some_text : text (l' :: ls') ≠ [] := fun h => l'.text_ne_nil (List.append_eq_nil_iff.mp h).1
      refine ⟨l :: l' :: ls', w, ?_, space, trimmed.append some_text l.text, ⟨?_, reads'⟩, keeps.cons l⟩
      · rw [text_cons, htext, text_cons l, List.append_assoc]
      · rw [List.append_nil]
        exact fits.alone

theorem exists_stripped (h : Reads [] ls) :
    ∃ ls', Reading (Str.strip Str.isspace (text ls)) ls' ∧ Keeps ls ls' := by
  obtain ⟨first, hfirst, reads, keeps⟩ := exists_dropWhile h
  obtain ⟨last, w, hlast, space, trimmed, reads', keeps'⟩ := exists_rdropWhile reads
  refine ⟨last, ⟨?_, reads'⟩, keeps.trans keeps'⟩
  rw [Str.strip, ← hfirst, hlast, rdropWhile_append_space space]
  exact trimmed.symm

/-- A newline closes a line comment and is whitespace after anything else. -/
theorem exists_newline (h : Reads [] ls) (settled : Settled ls) (joined : Joined ls) :
    ∃ ls', text ls' = text ls ++ ['\n'] ∧ (∀ rest, Reads rest ls') ∧ Joined ls' := by
  induction ls with
  | nil =>
    refine ⟨[.plain '\n'], rfl, fun rest => ⟨⟨by decide, fun kind opens => ?_⟩, trivial⟩, fun l hm => ?_⟩
    · have apart := apart_newline rest
      have opening : kind.opening = [] := List.prefix_nil.mp (apart.opening (t := []) opens)
      cases kind <;> cases opening
    · rw [List.mem_singleton.mp hm]
      rfl
  | cons l ls ih =>
    obtain ⟨fits, reads⟩ := h
    rw [List.append_nil] at fits
    by_cases closed : ∀ kind body, l ≠ .unclosed kind body
    · obtain ⟨ls', htext, reads', joined'⟩ := ih reads (fun l hm => settled l (List.mem_cons_of_mem _ hm))
        fun l hm => joined l (List.mem_cons_of_mem _ hm)
      refine ⟨l :: ls', ?_, fun rest => ⟨?_, reads' rest⟩, fun l' hm => ?_⟩
      · rw [text_cons, text_cons, htext, List.append_assoc]
      · rw [htext, List.append_assoc]
        exact fits.before closed (apart_newline rest)
      · rcases List.mem_cons.mp hm with rfl | hm
        · exact joined l' List.mem_cons_self
        · exact joined' l' hm
    · simp only [ne_eq, not_forall, not_not] at closed
      obtain ⟨kind, body, rfl⟩ := closed
      obtain rfl : kind = .lineComment := by simpa [Lexeme.leavesOpen] using settled _ List.mem_cons_self
      refine ⟨[.region .lineComment body], ?_, fun rest => ⟨?_, trivial⟩, fun l hm => ?_⟩
      · rw [text_cons, text_cons, fits.1, text_nil, List.append_nil, List.append_nil]
        rfl
      · refine endsAt_of_not_mem fun hm => fits.2 ?_
        obtain ⟨before, after, heq⟩ := List.append_of_mem hm
        exact ⟨before, after, by rw [heq, Kind.closing, List.append_assoc, List.singleton_append]⟩
      · rw [List.mem_singleton.mp hm]
        rfl

/-! ### The segments of a script -/

theorem mem_segments (h : segment ∈ segments ls) : segment <:+: ls ∧ Joined segment := by
  have split : ∀ ls : List Lexeme, ∃ first others, segments ls = first :: others ∧ (first <+: ls ∧ Joined first) ∧
      ∀ segment ∈ others, segment <:+: ls ∧ Joined segment := by
    intro ls
    induction ls with
    | nil => exact ⟨[], [], rfl, ⟨List.prefix_rfl, nofun⟩, nofun⟩
    | cons l ls ih =>
      obtain ⟨first, others, heq, ⟨part, joined⟩, later⟩ := ih
      rw [segments, List.splitOnP_cons_eq_if_modifyHead, ← segments, heq]
      by_cases semicolon : l.isSemicolon = true
      · rw [if_pos semicolon]
        refine ⟨[], _, rfl, ⟨List.nil_prefix, nofun⟩, fun segment hm => ?_⟩
        rcases List.mem_cons.mp hm with rfl | hm
        · exact ⟨part.isInfix.trans (List.suffix_cons ..).isInfix, joined⟩
        · exact ⟨(later segment hm).1.trans (List.suffix_cons ..).isInfix, (later segment hm).2⟩
      · rw [if_neg semicolon, List.modifyHead_cons]
        refine ⟨l :: first, others, rfl, ⟨List.cons_prefix_cons.mpr ⟨rfl, part⟩, fun l' hm => ?_⟩, fun segment hm => ?_⟩
        · rcases List.mem_cons.mp hm with rfl | hm
          · exact Bool.not_eq_true _ ▸ semicolon
          · exact joined l' hm
        · exact ⟨(later segment hm).1.trans (List.suffix_cons ..).isInfix, (later segment hm).2⟩
  obtain ⟨first, others, heq, here, later⟩ := split ls
  rw [heq] at h
  rcases List.mem_cons.mp h with rfl | hm
  · exact ⟨here.1.isInfix, here.2⟩
  · exact later segment hm

/-- A segment as it would be executed, read by itself. -/
theorem exists_statement (reading : Reading script ls) (h : segment ∈ segments ls) :
    ∃ ls', Reading (statement segment) ls' ∧ Keeps segment ls' ∧ Joined ls' := by
  obtain ⟨part, joined⟩ := mem_segments h
  obtain ⟨ls', reads, keeps⟩ := exists_stripped (reading.reads.of_infix part)
  exact ⟨ls', reads, keeps, keeps.joined joined⟩

end LlmGateway.Migrations
