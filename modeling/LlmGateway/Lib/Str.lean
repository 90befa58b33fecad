import Mathlib.Data.List.DropRight

/-! Python's `str` methods on lists of characters. -/
namespace LlmGateway.Lib.Str

/-- `str.isspace` of one character. -/
def isspace (c : Char) : Bool :=
  let n := c.toNat
  (9 ≤ n && n ≤ 13) || (28 ≤ n && n ≤ 32) || n == 0x85 || n == 0xa0 || n == 0x1680 ||
    (0x2000 ≤ n && n ≤ 0x200a) || n == 0x2028 || n == 0x2029 || n == 0x202f || n == 0x205f || n == 0x3000

/-- `str.strip`, of the characters `p` names. -/
def strip (p : Char → Bool) (text : List Char) : List Char := (text.dropWhile p).rdropWhile p

/-- `str.partition` at one character: what is before it, whether it is there, what is after. -/
def partition (sep : Char) (text : List Char) : List Char × Bool × List Char :=
  (text.takeWhile (· ≠ sep), decide (sep ∈ text), (text.dropWhile (· ≠ sep)).drop 1)

/-- `str.rpartition`: at its last occurrence. -/
def rpartition (sep : Char) (text : List Char) : List Char × Bool × List Char :=
  if sep ∈ text then
    (((text.reverse.dropWhile (· ≠ sep)).drop 1).reverse, true, (text.reverse.takeWhile (· ≠ sep)).reverse)
  else ([], false, text)

/-- `str.replace` of `pat` by nothing; the first `skip` characters belong to a match already. -/
def removeFrom (pat : List Char) : Nat → List Char → List Char
  | _, [] => []
  | skip + 1, _ :: rest => removeFrom pat skip rest
  | 0, c :: rest =>
    if pat.isPrefixOf (c :: rest) then removeFrom pat (pat.length - 1) rest
    else c :: removeFrom pat 0 rest

def remove (pat text : List Char) : List Char := removeFrom pat 0 text

/-- `str.split`: the words between the spaces. -/
def split (text : List Char) : List (List Char) := (text.splitOnP isspace).filter (· ≠ [])

variable {sep : Char} {before after text : List Char}

variable (after) in
private theorem takeWhile_ne (h : sep ∉ before) :
    (before ++ sep :: after).takeWhile (· ≠ sep) = before ∧
      (before ++ sep :: after).dropWhile (· ≠ sep) = sep :: after := by
  have kept : ∀ c ∈ before, decide (c ≠ sep) = true := by
    intro c hc
    exact decide_eq_true fun heq => h (heq ▸ hc)
  rw [List.takeWhile_append_of_pos kept, List.dropWhile_append_of_pos kept]
  simp

theorem partition_append (h : sep ∉ before) :
    partition sep (before ++ sep :: after) = (before, true, after) := by
  obtain ⟨hbefore, hafter⟩ := takeWhile_ne after h
  rw [partition, hbefore, hafter]
  simp

theorem rpartition_append (h : sep ∉ after) :
    rpartition sep (before ++ sep :: after) = (before, true, after) := by
  have absent : sep ∉ after.reverse := fun hm => h (List.mem_reverse.mp hm)
  obtain ⟨hafter, hbefore⟩ := takeWhile_ne before.reverse absent
  rw [rpartition, if_pos (by simp)]
  simp only [List.reverse_append, List.reverse_cons, List.append_assoc, List.singleton_append]
  rw [hafter, hbefore]
  simp

theorem partition_eq (h : partition sep text = (before, true, after)) :
    text = before ++ sep :: after ∧ sep ∉ before := by
  have found : sep ∈ text := of_decide_eq_true (congrArg (·.2.1) h)
  obtain ⟨first, rest, rfl, hfirst⟩ := List.eq_append_cons_of_mem found
  rw [partition_append hfirst] at h
  cases h
  exact ⟨rfl, hfirst⟩

theorem rpartition_eq (h : rpartition sep text = (before, true, after)) :
    text = before ++ sep :: after ∧ sep ∉ after := by
  by_cases found : sep ∈ text
  · obtain ⟨last, rest, heq, hlast⟩ := List.eq_append_cons_of_mem (List.mem_reverse.mpr found)
    obtain rfl : text = rest.reverse ++ sep :: last.reverse := by
      rw [← List.reverse_reverse text, heq]
      simp
    rw [rpartition_append (fun hm => hlast (List.mem_reverse.mp hm))] at h
    cases h
    exact ⟨rfl, fun hm => hlast (List.mem_reverse.mp hm)⟩
  · rw [rpartition, if_neg found] at h
    cases h

theorem strip_eq_self {p : Char → Bool} (h : ∀ c ∈ text, p c = false) : strip p text = text := by
  have front : text.dropWhile p = text := by
    cases text with
    | nil => rfl
    | cons c rest => rw [List.dropWhile_cons_of_neg (by simp [h c List.mem_cons_self])]
  rw [strip, front, List.rdropWhile_eq_self_iff]
  intro hne
  rw [h _ (List.getLast_mem hne)]
  exact Bool.false_ne_true

/-- What is stripped neither begins nor ends with what was. -/
theorem strip_strip (p : Char → Bool) (text : List Char) : strip p (strip p text) = strip p text := by
  have front : ((text.dropWhile p).rdropWhile p).dropWhile p = (text.dropWhile p).rdropWhile p := by
    cases hdropped : (text.dropWhile p).rdropWhile p with
    | nil => rfl
    | cons c rest =>
      obtain ⟨after, heq⟩ := List.rdropWhile_prefix p (l := text.dropWhile p)
      rw [hdropped, List.cons_append] at heq
      have kept : ¬ p c = true := by
        have first := List.head_dropWhile_not p (heq ▸ List.cons_ne_nil c _)
        simp only [← heq, List.head_cons] at first
        rw [first]
        exact Bool.false_ne_true
      rw [List.dropWhile_cons_of_neg kept]
  rw [strip, strip, front, List.rdropWhile_idempotent]

theorem strip_cons {p : Char → Bool} {c : Char} (h : p c = true) (text : List Char) :
    strip p (c :: text) = strip p text := by
  rw [strip, List.dropWhile_cons_of_pos h, strip]

theorem strip_concat {p : Char → Bool} {c : Char} (h : p c = true) (text : List Char) :
    strip p (text ++ [c]) = strip p text := by
  rw [strip, strip, List.dropWhile_append]
  cases hd : text.dropWhile p with
  | nil => simp [h]
  | cons d rest =>
    rw [if_neg (by simp)]
    exact List.rdropWhile_concat_pos p _ c h

/-- Stripping the end leaves what is up to a character that stays. -/
theorem prefix_rdropWhile {p : Char → Bool} {c : Char} (h : p c = false) (front back : List Char) :
    front ++ [c] <+: (front ++ c :: back).rdropWhile p := by
  induction back using List.reverseRecOn with
  | nil =>
    have kept := List.rdropWhile_concat_neg p front c (by simp [h])
    exact ⟨[], by rw [List.append_nil, kept]⟩
  | append_singleton back d ih =>
    rw [← List.cons_append, ← List.append_assoc]
    cases hd : p d with
    | true =>
      rw [List.rdropWhile_concat_pos p _ d hd]
      exact ih
    | false =>
      rw [List.rdropWhile_concat_neg p _ d (by simp [hd]), List.append_assoc, List.cons_append]
      exact ⟨back ++ [d], List.append_assoc ..⟩

/-- A pattern with a character the text lacks is nowhere in it. -/
theorem remove_eq_self {pat : List Char} {c : Char} (hpat : c ∈ pat) (h : c ∉ text) :
    remove pat text = text := by
  unfold remove
  induction text with
  | nil => rfl
  | cons d rest ih =>
    have absent : ¬ pat.isPrefixOf (d :: rest) = true := fun hp =>
      h ((List.isPrefixOf_iff_prefix.mp hp).subset hpat)
    rw [removeFrom, if_neg absent, ih fun hm => h (List.mem_cons_of_mem _ hm)]

theorem remove_singleton (c : Char) (text : List Char) : remove [c] text = text.filter (· ≠ c) := by
  unfold remove
  induction text with
  | nil => rfl
  | cons d rest ih =>
    by_cases hd : d = c
    · subst hd
      rw [removeFrom, if_pos (by simp), List.filter_cons_of_neg (by simp)]
      exact ih
    · rw [removeFrom, if_neg (by simp [Ne.symm hd]), List.filter_cons_of_pos (by simpa using hd), ih]

end LlmGateway.Lib.Str
