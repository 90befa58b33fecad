import LlmGateway.Lib.Str

/-! Server-sent events: the lines of a stream, their fields, and the events that blank lines dispatch. -/
namespace LlmGateway.Lib.Sse

structure Event where
  type : List Char
  data : List Char
  deriving DecidableEq, Repr

def defaultType : List Char := "message".toList

/-- The lines that have ended, by LF, CR or CRLF. A CR has just ended one if `afterCr`; `line` is
the next one so far. -/
def linesFrom (afterCr : Bool) (line : List Char) : List Char → List (List Char)
  | [] => []
  | c :: rest =>
    if c = '\n' then
      if afterCr then linesFrom false line rest else line :: linesFrom false [] rest
    else if c = '\r' then line :: linesFrom true [] rest
    else linesFrom false (line ++ [c]) rest

def lines (stream : List Char) : List (List Char) := linesFrom false [] stream

/-- The fields of an event still to be dispatched. -/
structure Buffer where
  type : List Char := []
  data : List (List Char) := []

/-- A field's name is what stands before the first colon. One space after it is left out. -/
def Buffer.field (b : Buffer) (line : List Char) : Buffer :=
  let (name, _, rest) := Str.partition ':' line
  let value := if rest.head? = some ' ' then rest.tail else rest
  if name = "event".toList then { b with type := value }
  else if name = "data".toList then { b with data := b.data ++ [value] }
  else b

/-- Without data nothing is dispatched. -/
def Buffer.dispatch (b : Buffer) : List Event :=
  if b.data = [] then []
  else [⟨if b.type = [] then defaultType else b.type, ['\n'].intercalate b.data⟩]

def eventsFrom (b : Buffer) : List (List Char) → List Event
  | [] => []
  | line :: rest =>
    if line = [] then b.dispatch ++ eventsFrom {} rest else eventsFrom (b.field line) rest

def parse (stream : List Char) : List Event := eventsFrom {} (lines stream)

/-- Without a line terminator. -/
def Plain (text : List Char) : Prop := '\n' ∉ text ∧ '\r' ∉ text

instance (text : List Char) : Decidable (Plain text) := inferInstanceAs (Decidable (_ ∧ _))

theorem Plain.append {text text' : List Char} (h : Plain text) (h' : Plain text') : Plain (text ++ text') := by
  constructor
  · intro hm
    rcases List.mem_append.mp hm with hm | hm
    · exact h.1 hm
    · exact h'.1 hm
  · intro hm
    rcases List.mem_append.mp hm with hm | hm
    · exact h.2 hm
    · exact h'.2 hm

variable {line rest value type data : List Char}

private theorem linesFrom_plain (h : Plain line) (before : List Char) :
    linesFrom false before (line ++ '\n' :: rest) = (before ++ line) :: lines rest := by
  induction line generalizing before with
  | nil =>
    rw [List.nil_append, List.append_nil, linesFrom, if_pos rfl, if_neg Bool.false_ne_true]
    rfl
  | cons c line ih =>
    obtain ⟨lf, cr⟩ := h
    rw [List.mem_cons, not_or] at lf cr
    rw [List.cons_append, linesFrom, if_neg (Ne.symm lf.1), if_neg (Ne.symm cr.1), ih ⟨lf.2, cr.2⟩, List.append_assoc]
    rfl

theorem lines_append (h : Plain line) : lines (line ++ '\n' :: rest) = line :: lines rest :=
  linesFrom_plain h []

private theorem lines_blank : lines ('\n' :: rest) = [] :: lines rest := rfl

private theorem field_named (name : List Char) (h : ':' ∉ name) (b : Buffer) :
    b.field (name ++ ':' :: ' ' :: value) =
      if name = "event".toList then { b with type := value }
      else if name = "data".toList then { b with data := b.data ++ [value] }
      else b := by
  rw [Buffer.field, Str.partition_append h]
  rfl

/-- One data line, whatever type the event has. -/
private theorem eventsFrom_data (type : List Char) (rest : List (List Char)) :
    eventsFrom { type := type } (("data: ".toList ++ data) :: [] :: rest) =
      ⟨if type = [] then defaultType else type, data⟩ :: eventsFrom {} rest := by
  have field : Buffer.field { type := type } ("data: ".toList ++ data) = { type := type, data := [data] } := by
    apply field_named "data".toList
    decide
  have filled : "data: ".toList ++ data ≠ [] := List.append_ne_nil_of_left_ne_nil (by decide) _
  rw [eventsFrom, if_neg filled, field, eventsFrom, if_pos rfl, Buffer.dispatch, if_neg (List.cons_ne_nil _ _),
    List.intercalate_singleton]
  rfl

theorem parse_data (h : Plain data) :
    parse ("data: ".toList ++ data ++ '\n' :: '\n' :: rest) = ⟨defaultType, data⟩ :: parse rest := by
  have plain : Plain ("data: ".toList ++ data) := Plain.append (by decide) h
  rw [parse, lines_append plain, lines_blank]
  exact eventsFrom_data [] (lines rest)

theorem parse_event (ne : type ≠ []) (ht : Plain type) (h : Plain data) :
    parse ("event: ".toList ++ type ++ '\n' :: ("data: ".toList ++ data ++ '\n' :: '\n' :: rest)) =
      ⟨type, data⟩ :: parse rest := by
  have typed : Plain ("event: ".toList ++ type) := Plain.append (by decide) ht
  have plain : Plain ("data: ".toList ++ data) := Plain.append (by decide) h
  have field : Buffer.field {} ("event: ".toList ++ type) = { type := type } := by
    apply field_named "event".toList
    decide
  have filled : "event: ".toList ++ type ≠ [] := List.append_ne_nil_of_left_ne_nil (by decide) _
  rw [parse, lines_append typed, lines_append plain, lines_blank, eventsFrom, if_neg filled, field,
    eventsFrom_data, if_neg ne]
  rfl

end LlmGateway.Lib.Sse
