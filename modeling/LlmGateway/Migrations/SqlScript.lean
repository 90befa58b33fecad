import LlmGateway.Lib.Delimited
import LlmGateway.Lib.Str

/-! `sql_script.py`: a migration script split into the statements it is executed by. -/
namespace LlmGateway.Migrations
open Lib Lib.Delimited

/-- The single quote. -/
def quote : Char := '\x27'

/-- `[A-Za-z_]` -/
def startsTag (c : Char) : Bool := ('A' ≤ c && c ≤ 'Z') || ('a' ≤ c && c ≤ 'z') || c = '_'

/-- `[A-Za-z0-9_]` -/
def inTag (c : Char) : Bool := startsTag c || ('0' ≤ c && c ≤ '9')

/-- `$$` or `$tag$`, by what stands between the dollar signs. -/
structure DollarTag where
  name : List Char
  starts : name.head?.all startsTag = true
  within : name.all inTag = true
  deriving DecidableEq

def DollarTag.text (tag : DollarTag) : List Char := '$' :: (tag.name ++ ['$'])

/-- `_DOLLAR_TAG.match` at the head of what remains. -/
def dollarTag : List Char → Option DollarTag
  | '$' :: rest =>
    let name := rest.takeWhile inTag
    if h : name.head?.all startsTag = true ∧ (rest.dropWhile inTag).take 1 = ['$'] then
      some ⟨name, h.1, List.all_takeWhile⟩
    else none
  | _ => none

/-- What the loop is inside of. -/
inductive Mode where
  | default
  | inLineComment
  | inBlockComment
  | inDollarQuote (tag : DollarTag)
  | inSingleQuote
  deriving DecidableEq

/-- One turn of the loop at `char`, before `rest`: the characters it moves to the buffer, and what
it is inside of then. At a terminator there are none. -/
def turn (mode : Mode) (char : Char) (rest : List Char) : Option (List Char × Mode) :=
  let pair := (char :: rest).take 2
  match mode with
  | .inLineComment => some ([char], if char = '\n' then .default else .inLineComment)
  | .inBlockComment => if pair = ['*', '/'] then some (pair, .default) else some ([char], .inBlockComment)
  | .inDollarQuote tag =>
    if tag.text.isPrefixOf (char :: rest) then some (tag.text, .default) else some ([char], .inDollarQuote tag)
  | .inSingleQuote =>
    if char = quote then
      if rest.take 1 = [quote] then some ([quote, quote], .inSingleQuote) else some ([char], .default)
    else some ([char], .inSingleQuote)
  | .default =>
    if pair = ['-', '-'] then some (pair, .inLineComment)
    else if pair = ['/', '*'] then some (pair, .inBlockComment)
    else if char = quote then some ([char], .inSingleQuote)
    else match dollarTag (char :: rest) with
      | some tag => some (tag.text, .inDollarQuote tag)
      | none => if char = ';' then none else some ([char], .default)

/-- A statement ends: the buffer joins the others unless it is blank. -/
def push (statements : List (List Char)) (buffer : List Char) : List (List Char) :=
  let statement := Str.strip Str.isspace buffer
  if statement = [] then statements else statements ++ [statement]

/-- The loop over the script. The first `skip` characters are in the buffer already. -/
def scan (skip : Nat) (mode : Mode) (statements : List (List Char)) (buffer : List Char) :
    List Char → List (List Char)
  | [] => push statements buffer
  | char :: rest =>
    match skip with
    | skip + 1 => scan skip mode statements buffer rest
    | 0 =>
      match turn mode char rest with
      | some (taken, mode) => scan (taken.length - 1) mode statements (buffer ++ taken) rest
      | none => scan 0 mode (push statements buffer) [] rest

/-- `re.sub(r"/\*.*?\*/", "", statement, flags=re.DOTALL)`. The first `skip` characters belong to a match. -/
def removeBlockComments (skip : Nat) : List Char → List Char
  | [] => []
  | char :: rest =>
    match skip with
    | skip + 1 => removeBlockComments skip rest
    | 0 =>
      if (char :: rest).take 2 = ['/', '*'] then
        match cut ['*', '/'] (rest.drop 1) with
        | some (body, _) => removeBlockComments (body.length + 3) rest
        | none => char :: removeBlockComments 0 rest
      else char :: removeBlockComments 0 rest

/-- The characters `str.splitlines` breaks at. -/
def isLineBoundary (c : Char) : Bool :=
  c ∈ ['\n', '\r', '\x0b', '\x0c', '\x1c', '\x1d', '\x1e', '\u0085', '\u2028', '\u2029']

/-- `str.splitlines`, with the line read so far. -/
def splitlines (line : List Char) : List Char → List (List Char)
  | [] => if line = [] then [] else [line]
  | '\r' :: '\n' :: rest => line :: splitlines [] rest
  | char :: rest => if isLineBoundary char then line :: splitlines [] rest else splitlines (line ++ [char]) rest

def isCommentOnly (statement : List Char) : Bool :=
  ((splitlines [] (removeBlockComments 0 statement)).map (Str.strip Str.isspace)).all fun line =>
    line = [] || ['-', '-'].isPrefixOf line

def splitSqlStatements (script : String) : List String :=
  ((scan 0 .default [] [] script.toList).filter fun statement => !isCommentOnly statement).map String.ofList

end LlmGateway.Migrations
