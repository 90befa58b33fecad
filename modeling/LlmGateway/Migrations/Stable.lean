import LlmGateway.Migrations.Segments

/-! What is split once is split for good: each statement by itself, and all of them joined again. -/
namespace LlmGateway.Migrations
open Lib

/-- A statement that is returned as it is. -/
structure Stands (s : List Char) : Prop where
  reading : ∃ ls, Reading s ls ∧ Settled ls ∧ Joined ls
  stripped : Str.strip Str.isspace s = s
  kept : isCommentOnly s = false

def separator : List Char := ['\n', ';', '\n']

variable {script : String} {ls segment : List Lexeme}

theorem segments_joined (h : Joined segment) : segments segment = [segment] := List.splitOnP_eq_singleton h

/-- Whitespace before a script leaves its statements as they are. -/
theorem segments_newline (ls : List Lexeme) :
    (segments (.plain '\n' :: ls)).map statement = (segments ls).map statement := by
  obtain ⟨first, others, heq⟩ := List.exists_cons_of_ne_nil (List.splitOnP_ne_nil Lexeme.isSemicolon ls)
  have plain : (Lexeme.plain '\n').isSemicolon = false := rfl
  rw [segments, segments, List.splitOnP_cons_eq_if_modifyHead, plain, if_neg Bool.false_ne_true, heq,
    List.modifyHead_cons, List.map_cons, List.map_cons]
  refine congrArg (· :: _) ?_
  exact Str.strip_cons (by decide) (text first)

/-- Joined by a semicolon on a line of its own, statements are read as they are by themselves. -/
theorem exists_joined {s : List Char} {ss : List (List Char)} (h : ∀ t ∈ s :: ss, Stands t) :
    ∃ ls, Reading (separator.intercalate (s :: ss)) ls ∧ (segments ls).map statement = s :: ss := by
  induction ss generalizing s with
  | nil =>
    obtain ⟨⟨ls, reading, -, joined⟩, stripped, -⟩ := h s List.mem_cons_self
    refine ⟨ls, ?_, ?_⟩
    · rw [List.intercalate_singleton]
      exact reading
    · rw [segments_joined joined, List.map_singleton, statement, reading.text_eq, stripped]
  | cons t ss ih =>
    obtain ⟨others, reading, hothers⟩ := ih fun t' hm => h t' (List.mem_cons_of_mem _ hm)
    obtain ⟨⟨ls, ⟨rfl, reads⟩, settled, joined⟩, stripped, -⟩ := h s List.mem_cons_self
    obtain ⟨first, htext, reads', joined'⟩ := exists_newline reads settled joined
    have after : Lexeme.Fits (text others ++ []) (.plain '\n') := by
      refine ⟨by decide, fun kind opens => ?_⟩
      have opening := List.prefix_nil.mp ((apart_newline _).opening (t := []) opens)
      cases kind <;> cases opening
    refine ⟨first ++ .semicolon :: .plain '\n' :: others, ⟨?_, ?_⟩, ?_⟩
    · rw [text_append, htext, text_cons, text_cons, reading.text_eq, List.intercalate_cons_cons]
      simp [separator, Lexeme.text]
    · exact Reads.append_iff.mpr ⟨reads' _, trivial, after, reading.reads⟩
    · rw [segments, List.splitOnP_append_cons _ _ rfl, List.map_append, ← segments, ← segments, segments_newline,
        hothers, segments_joined joined', List.map_singleton, statement, htext, Str.strip_concat (by decide), stripped]
      rfl

/-- Statements that stand by themselves come back from the script they are joined to. -/
theorem split_join {ss : List (List Char)} (h : ∀ t ∈ ss, Stands t) :
    splitSqlStatements (String.ofList (separator.intercalate ss)) = ss.map String.ofList := by
  cases ss with
  | nil => rfl
  | cons s ss =>
    obtain ⟨ls, reading, hstatements⟩ := exists_joined h
    have kept : (segments ls).filter (fun segment => !isCommentOnly (statement segment)) = segments ls := by
      rw [List.filter_eq_self]
      intro segment hm
      have stands := h (statement segment) (hstatements ▸ List.mem_map_of_mem hm)
      rw [stands.kept]
      rfl
    have read : Reading (String.ofList (separator.intercalate (s :: ss))).toList ls := by
      rw [String.toList_ofList]
      exact reading
    rw [splitSqlStatements_eq read, kept, ← hstatements, List.map_map]
    rfl

theorem stands_of_segment (reading : Reading script.toList ls) (settled : Settled ls) (h : segment ∈ segments ls)
    (kept : isCommentOnly (statement segment) = false) : Stands (statement segment) := by
  obtain ⟨alone, reads, keeps, joined⟩ := exists_statement reading h
  refine ⟨⟨alone, reads, keeps.settled fun l hm => ?_, joined⟩, Str.strip_strip _ _, kept⟩
  exact settled l ((mem_segments h).1.subset hm)

/-- For a script that does not end inside of a quote, a dollar body or a block comment. -/
theorem splitting_stable (reading : Reading script.toList ls) (settled : Settled ls) :
    (∀ s ∈ splitSqlStatements script, splitSqlStatements s = [s]) ∧
      splitSqlStatements ("\n;\n".intercalate (splitSqlStatements script)) = splitSqlStatements script := by
  let kept := (segments ls).filter fun segment => !isCommentOnly (statement segment)
  have stands : ∀ t ∈ kept.map statement, Stands t := by
    intro t hm
    obtain ⟨segment, there, rfl⟩ := List.mem_map.mp hm
    obtain ⟨there, hkept⟩ := List.mem_filter.mp there
    exact stands_of_segment reading settled there (Bool.not_eq_true' _ ▸ hkept)
  have returned : splitSqlStatements script = (kept.map statement).map String.ofList := by
    rw [splitSqlStatements_eq reading, List.map_map]
    rfl
  constructor
  · intro s hm
    rw [returned] at hm
    obtain ⟨t, there, rfl⟩ := List.mem_map.mp hm
    have only : ∀ t' ∈ [t], Stands t' := fun t' ht' => stands t' (List.mem_singleton.mp ht' ▸ there)
    have alone := split_join only
    rwa [List.intercalate_singleton] at alone
  · have joined : "\n;\n".intercalate (splitSqlStatements script) =
        String.ofList (separator.intercalate (kept.map statement)) := by
      have read : (kept.map statement).map (String.toList ∘ String.ofList) = kept.map statement :=
        List.map_id'' (fun _ => String.toList_ofList) _
      rw [← String.toList_inj, String.toList_intercalate, returned, List.map_map, read]
      exact String.toList_ofList.symm
    rw [joined, split_join stands, returned]

theorem splitting_stable_quoted :
    Settled (lexemes "SELECT 'a;b'; -- one\nDO $f$ x; $f$ /* ; */;".toList) ∧
      (∀ s ∈ splitSqlStatements "SELECT 'a;b'; -- one\nDO $f$ x; $f$ /* ; */;", splitSqlStatements s = [s]) ∧
        splitSqlStatements ("\n;\n".intercalate (splitSqlStatements "SELECT 'a;b'; -- one\nDO $f$ x; $f$ /* ; */;")) =
          splitSqlStatements "SELECT 'a;b'; -- one\nDO $f$ x; $f$ /* ; */;" :=
  ⟨by decide, splitting_stable (reading_lexemes _) (by decide)⟩

end LlmGateway.Migrations
