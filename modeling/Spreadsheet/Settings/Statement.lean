/-!
# Statements of a settings file

A settings file is TOML. Since it can set a single thing, only a small part of that language can occur in
a file that is accepted: keys of one or two parts, table headers, and as values texts, empty tables or
arrays, and tables of one entry that is empty. A file that holds anything else is refused, whether it is
TOML or not.
-/

namespace Spreadsheet

namespace Settings

inductive Value where
  | text (s : String)
  /-- An empty table or array. -/
  | blank
  /-- A table whose only entry is an empty table or array. -/
  | entry (key : String)
deriving DecidableEq

inductive Statement where
  | assign (keys : List String) (value : Value)
  | header (keys : List String)
deriving DecidableEq

def isSpace (c : Char) : Bool := c == ' ' || c == '\t'

/-- A character that may stand for itself in comments and texts. -/
def isPlain (c : Char) : Bool := c == '\t' || 0x20 ≤ c.toNat && c.toNat != 0x7F

def skipSpaces (cs : List Char) : List Char := cs.dropWhile isSpace

/-- Skips spaces, line breaks and comments. `comment` says that a comment has begun. -/
def skipLines : (comment : Bool) → List Char → Option (List Char)
  | _, [] => some []
  | _, '\n' :: cs => skipLines false cs
  | _, '\r' :: '\n' :: cs => skipLines false cs
  | true, c :: cs => if isPlain c then skipLines true cs else none
  | false, '#' :: cs => skipLines true cs
  | false, c :: cs => if isSpace c then skipLines false cs else some (c :: cs)

/-- Skips the rest of a line, where only spaces and a comment may stand, and the lines without statement
after it. -/
def endLine (cs : List Char) : Option (List Char) :=
  match skipSpaces cs with
  | [] => some []
  | '\n' :: cs => skipLines false cs
  | '\r' :: '\n' :: cs => skipLines false cs
  | '#' :: cs => skipLines true cs
  | _ => none

def hexDigit? (c : Char) : Option Nat :=
  if c.isDigit then some (c.toNat - '0'.toNat)
  else if 'a' ≤ c ∧ c ≤ 'f' then some (c.toNat - 'a'.toNat + 10)
  else if 'A' ≤ c ∧ c ≤ 'F' then some (c.toNat - 'A'.toNat + 10)
  else none

/-- The character of a code point that is written in `n` hexadecimal digits. -/
def codePoint? (n : Nat) (cs : List Char) : Option Char := do
  let digits ← (cs.take n).mapM hexDigit?
  let code := digits.foldl (16 * · + ·) 0
  if digits.length = n ∧ code.isValidChar then some (Char.ofNat code) else none

/-- The character of an escape whose letter is given, and the number of characters after the letter that
belong to it. -/
def escape? (letter : Char) (cs : List Char) : Option (Char × Nat) :=
  match letter with
  | 'b' => some ('\x08', 0)
  | 't' => some ('\t', 0)
  | 'n' => some ('\n', 0)
  | 'f' => some ('\x0c', 0)
  | 'r' => some ('\r', 0)
  | '"' => some ('"', 0)
  | '\\' => some ('\\', 0)
  | 'u' => (codePoint? 4 cs).map (·, 4)
  | 'U' => (codePoint? 8 cs).map (·, 8)
  | _ => none

/-- Puts a character in front of a text that was read. -/
def push (c : Char) (read : List Char × List Char) : List Char × List Char := (c :: read.1, read.2)

/-- The text up to the closing double quote. -/
def basicText : List Char → Option (List Char × List Char)
  | [] => none
  | '"' :: cs => some ([], cs)
  | '\\' :: letter :: cs => do
    let (c, width) ← escape? letter cs
    push c <$> basicText (cs.drop width)
  | c :: cs => if isPlain c && c != '\\' then push c <$> basicText cs else none
termination_by cs => cs.length
decreasing_by all_goals simp only [List.length_cons, List.length_drop]; omega

/-- The text up to the closing single quote. -/
def literalText (cs : List Char) : Option (List Char × List Char) :=
  let text := cs.takeWhile fun c => isPlain c && c != '\''
  match cs.drop text.length with
  | '\'' :: rest => some (text, rest)
  | _ => none

/-- Whether only spaces come before the end of the line. -/
def endsLine (cs : List Char) : Bool :=
  match skipSpaces cs with
  | '\n' :: _ | '\r' :: '\n' :: _ => true
  | _ => false

/-- Skips the spaces and line breaks after a backslash at the end of a line. -/
def skipBreaks : List Char → List Char
  | '\r' :: '\n' :: cs => skipBreaks cs
  | c :: cs => if isSpace c || c == '\n' then skipBreaks cs else c :: cs
  | [] => []

theorem length_skipBreaks_le (cs : List Char) : (skipBreaks cs).length ≤ cs.length := by
  fun_induction skipBreaks cs <;> simp_all <;> omega

/-- The text up to three closing double quotes, in which lines may break. A text with quotes of its own is
none of the program's, so the first quote has to be a closing one. -/
def basicLines : List Char → Option (List Char × List Char)
  | [] => none
  | '"' :: cs =>
    match cs with
    | '"' :: '"' :: rest => some ([], rest)
    | _ => none
  | '\\' :: cs =>
    if endsLine cs then basicLines (skipBreaks cs)
    else
      match cs with
      | [] => none
      | letter :: cs => do
        let (c, width) ← escape? letter cs
        push c <$> basicLines (cs.drop width)
  | '\r' :: '\n' :: cs => push '\n' <$> basicLines cs
  | c :: cs => if isPlain c || c == '\n' then push c <$> basicLines cs else none
termination_by cs => cs.length
decreasing_by
  all_goals simp only [List.length_cons, List.length_drop]
  · exact Nat.lt_succ_of_le (length_skipBreaks_le _)
  all_goals omega

/-- The text up to three closing single quotes, in which lines may break. -/
def literalLines : List Char → Option (List Char × List Char)
  | [] => none
  | '\'' :: cs =>
    match cs with
    | '\'' :: '\'' :: rest => some ([], rest)
    | _ => none
  | '\r' :: '\n' :: cs => push '\n' <$> literalLines cs
  | c :: cs => if isPlain c || c == '\n' then push c <$> literalLines cs else none

/-- Drops a line break at the start of a text of several lines. -/
def dropBreak : List Char → List Char
  | '\n' :: cs => cs
  | '\r' :: '\n' :: cs => cs
  | cs => cs

def isBareKey (c : Char) : Bool := c.isAlphanum || c == '_' || c == '-'

/-- A key and the spaces on both sides of it. -/
def key (cs : List Char) : Option (String × List Char) := do
  let (name, rest) ←
    match skipSpaces cs with
    | '"' :: cs => basicText cs
    | '\'' :: cs => literalText cs
    | cs =>
      let name := cs.takeWhile isBareKey
      if name = [] then none else some (name, cs.dropWhile isBareKey)
  return (String.ofList name, skipSpaces rest)

/-- A key of one or two parts. -/
def keys (cs : List Char) : Option (List String × List Char) := do
  let (first, rest) ← key cs
  match rest with
  | '.' :: cs =>
    let (second, rest) ← key cs
    return ([first, second], rest)
  | _ => return ([first], rest)

/-- An empty table or array, and what follows it. -/
def blank : List Char → Option (List Char)
  | '{' :: cs =>
    match skipSpaces cs with
    | '}' :: rest => some rest
    | _ => none
  | '[' :: cs =>
    match skipLines false cs with
    | some (']' :: rest) => some rest
    | _ => none
  | _ => none

/-- The only entry of a table, after its opening brace. -/
def entry (cs : List Char) : Option (Value × List Char) := do
  let (name, rest) ← key cs
  match rest with
  | '=' :: cs =>
    match skipSpaces (← blank (skipSpaces cs)) with
    | '}' :: rest => return (.entry name, rest)
    | _ => none
  | _ => none

/-- Takes characters that were read as a text. -/
def asText (read : Option (List Char × List Char)) : Option (Value × List Char) :=
  read.map fun (cs, rest) => (.text (String.ofList cs), rest)

def value (cs : List Char) : Option (Value × List Char) :=
  match cs with
  | '"' :: '"' :: '"' :: cs => asText (basicLines (dropBreak cs))
  | '"' :: cs => asText (basicText cs)
  | '\'' :: '\'' :: '\'' :: cs => asText (literalLines (dropBreak cs))
  | '\'' :: cs => asText (literalText cs)
  | _ =>
    match blank cs, cs with
    | some rest, _ => some (.blank, rest)
    | none, '{' :: cs => entry cs
    | none, _ => none

/-- A statement, and what follows the lines after it that have none. -/
def statement (cs : List Char) : Option (Statement × List Char) := do
  match cs with
  | '[' :: cs =>
    match ← keys cs with
    | (keys, ']' :: rest) => return (.header keys, ← endLine rest)
    | _ => none
  | cs =>
    match ← keys cs with
    | (keys, '=' :: cs) =>
      let (value, rest) ← value (skipSpaces cs)
      return (.assign keys value, ← endLine rest)
    | _ => none

/-- The statements of a file that has no more than two. -/
def statements (cs : List Char) : Option (List Statement) := do
  let cs := if cs.head? = some '\ufeff' then cs.tail else cs
  let cs ← skipLines false cs
  if cs = [] then return []
  let (first, cs) ← statement cs
  if cs = [] then return [first]
  let (second, cs) ← statement cs
  if cs = [] then return [first, second]
  none

end Settings

end Spreadsheet
