import LlmGateway.Migrations.CommentFilter

/-! Which scripts are split into exactly the statements that stand between their top-level
semicolons: those whose comments the filter, which reads lines, tells as the scanner does. -/
namespace LlmGateway.Migrations
open Lib

/-- The segments that have something to execute, in order. -/
def executables (ls : List Lexeme) : List String :=
  ((segments ls).filter executable).map fun segment => String.ofList (statement segment)

/-- Nothing is cut from a comment before the first thing to execute into what follows the comment, and that
thing is not taken for a comment. -/
structure Uncrossed (ls : List Lexeme) : Prop where
  within : ¬ Crosses ls
  apart : ¬ DashesMeet ls

/-- The filter tells whether there is anything to execute. -/
structure Told (ls : List Lexeme) : Prop extends Uncrossed ls where
  quiet : ls.all Lexeme.isSilent = true → Quiet ls

/-- So it is of each segment of the script by itself, stripped. -/
def EachAlone (p : List Lexeme → Prop) (ls : List Lexeme) : Prop :=
  ∀ segment ∈ segments ls, ∀ alone, Reading (statement segment) alone → p alone

theorem isCommentOnly_iff {alone : List Lexeme} (reads : Reads [] alone) (uncrossed : Uncrossed alone) :
    isCommentOnly (text alone) = !executable alone ↔ Told alone := by
  rw [executable, Bool.not_not]
  cases silent : alone.all Lexeme.isSilent with
  | false =>
    have shows := executable_shows (w := []) reads uncrossed.within uncrossed.apart silent rfl
    refine iff_of_true (isCommentOnly_eq_false.mpr shows) ⟨uncrossed, fun all => ?_⟩
    rw [silent] at all
    cases all
  | true =>
    have shows := silent_shows_iff (w := []) reads uncrossed.within silent rfl
    rw [← Bool.not_eq_false, isCommentOnly_eq_false, shows, not_not]
    exact ⟨fun quiet => ⟨uncrossed, fun _ => quiet⟩, fun told => told.quiet silent⟩

/-- What is executable is so stripped and by itself. -/
theorem executable_congr {script : String} {ls segment segment' : List Lexeme} (reading : Reading script.toList ls)
    (h : segment ∈ segments ls) (h' : segment' ∈ segments ls) (same : statement segment = statement segment') :
    executable segment = executable segment' := by
  obtain ⟨alone, reads, keeps, -⟩ := exists_statement reading h
  obtain ⟨alone', reads', keeps', -⟩ := exists_statement reading h'
  rw [same] at reads
  rw [executable, executable, ← keeps.silent, ← keeps'.silent, reads.unique reads']

/-- Two filters that tell nothing apart but by `f` leave the same images only if they are the same. -/
theorem map_filter_eq_iff {α β : Type} {f : α → β} {p q : α → Bool} {l : List α}
    (hp : ∀ a ∈ l, ∀ b ∈ l, f a = f b → p a = p b) (hq : ∀ a ∈ l, ∀ b ∈ l, f a = f b → q a = q b) :
    (l.filter p).map f = (l.filter q).map f ↔ ∀ a ∈ l, p a = q a := by
  constructor
  · intro same a hm
    have there : ∀ {p q : α → Bool}, (l.filter p).map f = (l.filter q).map f → p a = true →
        ∃ b ∈ l, q b = true ∧ f b = f a := by
      intro p q same ha
      have image : f a ∈ (l.filter q).map f := same ▸ List.mem_map_of_mem (List.mem_filter.mpr ⟨hm, ha⟩)
      obtain ⟨b, hb, heq⟩ := List.mem_map.mp image
      exact ⟨b, (List.mem_filter.mp hb).1, (List.mem_filter.mp hb).2, heq⟩
    rw [Bool.eq_iff_iff]
    constructor
    · intro ha
      obtain ⟨b, hb, holds, heq⟩ := there same ha
      rw [← hq b hb a hm heq, holds]
    · intro ha
      obtain ⟨b, hb, holds, heq⟩ := there same.symm ha
      rw [← hp b hb a hm heq, holds]
  · intro agree
    exact congrArg (List.map f) (List.filter_congr agree)

/-- Only the segments that the filter tells rightly are returned rightly. -/
theorem split_eq_iff {script : String} {ls : List Lexeme} (reading : Reading script.toList ls) :
    splitSqlStatements script = executables ls ↔
      EachAlone (fun alone => isCommentOnly (text alone) = !executable alone) ls := by
  have alone_iff : ∀ segment ∈ segments ls, (!isCommentOnly (statement segment)) = executable segment ↔
      ∀ alone, Reading (statement segment) alone → isCommentOnly (text alone) = !executable alone := by
    intro segment hm
    obtain ⟨alone, reads, keeps, -⟩ := exists_statement reading hm
    have same : executable alone = executable segment := by rw [executable, executable, keeps.silent]
    rw [← Bool.not_inj_iff, Bool.not_not, ← same, ← reads.text_eq]
    refine ⟨fun told alone' reads' => ?_, fun told => told alone ⟨rfl, reads.reads⟩⟩
    rw [reads.text_eq] at reads'
    rw [reads'.unique reads]
    exact told
  rw [splitSqlStatements_eq reading, executables, map_filter_eq_iff]
  · exact forall₂_congr alone_iff
  · intro segment _ segment' _ same
    rw [String.ofList_injective same]
  · intro segment hm segment' hm' same
    exact executable_congr reading hm hm' (String.ofList_injective same)

theorem split_sql_statements_iff (script : String) :
    ∃ ls, Reading script.toList ls ∧ (∀ ls', Reading script.toList ls' → ls' = ls) ∧
      (EachAlone Told ls → splitSqlStatements script = executables ls) ∧
      (EachAlone Uncrossed ls → (splitSqlStatements script = executables ls ↔ EachAlone Told ls)) := by
  obtain ⟨ls, reading⟩ : ∃ ls, Reading script.toList ls := ⟨_, reading_lexemes _⟩
  refine ⟨ls, reading, fun ls' reading' => reading'.unique reading, ?_, ?_⟩
  · intro told
    rw [split_eq_iff reading]
    intro segment hm alone reads
    exact (isCommentOnly_iff reads.reads (told segment hm alone reads).toUncrossed).mpr (told segment hm alone reads)
  · intro uncrossed
    rw [split_eq_iff reading]
    exact forall₄_congr fun segment hm alone reads =>
      isCommentOnly_iff reads.reads (uncrossed segment hm alone reads)

/-- A `/*` in one line comment, and a `*/` in the next. -/
theorem split_sql_statements_drops :
    Reading "-- /*\nSELECT 1 -- */".toList (lexemes "-- /*\nSELECT 1 -- */".toList) ∧
      executables (lexemes "-- /*\nSELECT 1 -- */".toList) = ["-- /*\nSELECT 1 -- */"] ∧
      splitSqlStatements "-- /*\nSELECT 1 -- */" = [] :=
  ⟨reading_lexemes _, by decide, by decide⟩

end LlmGateway.Migrations
