import Spreadsheet.Text.Blank

/-!
# Comma-separated values

A file is a list of records, one a line, whose fields are separated by commas. A double quote opens a
quoted section, anywhere in a field, in which commas and line breaks are text and a double quote is
written twice. A field that had such a section is taken as it is; any other loses the blanks at its ends.
`\r\n` outside of quotes ends a record like `\n`.
-/

namespace Spreadsheet

namespace Csv

/-- The field being read and the fields before it in its record, the latest first. -/
structure Draft where
  chars : List Char
  quoted : Bool
  fields : List String

namespace Draft

def empty : Draft := ⟨[], false, []⟩

def push (d : Draft) (c : Char) : Draft := { d with chars := c :: d.chars }

def openQuotes (d : Draft) : Draft := { d with quoted := true }

/-- The text of the field being read. -/
def field (d : Draft) : String :=
  String.ofList (if d.quoted then d.chars.reverse else Text.trimChars d.chars.reverse)

/-- Ends the field. -/
def next (d : Draft) : Draft := ⟨[], false, d.field :: d.fields⟩

/-- The record, ended with the field being read. -/
def record (d : Draft) : List String := (d.field :: d.fields).reverse

/-- Whether nothing of a record has been read. -/
def isEmpty (d : Draft) : Bool := d.chars.isEmpty && d.fields.isEmpty && !d.quoted

end Draft

/-- The records of some characters. `line` is the number of the current line, `opened` the line of the
quote that opened the current quoted section. The one failure is a section that is never closed; it is
reported by its line. -/
def scan : (line : Nat) → (opened : Option Nat) → Draft → List Char → Except Nat (List (List String))
  | _, some l, _, [] => .error l
  | _, none, d, [] => .ok (if d.isEmpty then [] else [d.record])
  | line, some l, d, '"' :: '"' :: cs => scan line (some l) (d.push '"') cs
  | line, some _, d, '"' :: cs => scan line none d cs
  | line, some l, d, c :: cs => scan (if c = '\n' then line + 1 else line) (some l) (d.push c) cs
  | line, none, d, '"' :: cs => scan line (some line) d.openQuotes cs
  | line, none, d, ',' :: cs => scan line none d.next cs
  | line, none, d, '\r' :: '\n' :: cs => (d.record :: ·) <$> scan (line + 1) none .empty cs
  | line, none, d, '\n' :: cs => (d.record :: ·) <$> scan (line + 1) none .empty cs
  | line, none, d, c :: cs => scan line none (d.push c) cs

/-- The records of a text, or the line of the quote that is never closed. -/
def records (text : String) : Except Nat (List (List String)) := scan 1 none .empty text.toList

/-- Whether a text has to be quoted to be read back as it is. -/
def needsQuotes (cs : List Char) : Bool :=
  cs.any (fun c => c == ',' || c == '"' || c == '\n' || c == '\r') || Text.trimChars cs != cs

/-- The characters of a field in a file. -/
def fieldChars (text : String) : List Char :=
  let cs := text.toList
  if needsQuotes cs then '"' :: cs.flatMap (fun c => if c = '"' then ['"', '"'] else [c]) ++ ['"'] else cs

/-- The characters of a record, with the line break that ends it. -/
def recordChars (fields : List String) : List Char :=
  [','].intercalate (fields.map fieldChars) ++ ['\n']

/-- The text of some records. -/
def render (records : List (List String)) : String := String.ofList (records.flatMap recordChars)

end Csv

end Spreadsheet
