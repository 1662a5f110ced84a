import Spreadsheet.Number
import Spreadsheet.Ref.A1

/-!
# Tokens of formulas

The text of an expression is cut where the class of its characters changes: spaces separate, operators
and parentheses stand for themselves, runs of ASCII letters, digits and points are words, and runs of
other characters are unknown. A word is a numeral, the name of a cell, or unknown. Cutting never fails;
unknown tokens are for the evaluator to refuse.
-/

namespace Spreadsheet

/-- The binary operators. -/
inductive Operator where
  | add
  | sub
  | mul
  | div
deriving DecidableEq, Repr

inductive Token where
  | number (x : Float)
  | ref (r : Ref)
  | operator (op : Operator)
  | opening
  | closing
  | unknown (text : String)
deriving DecidableEq

namespace Token

/-- The characters that are tokens by themselves. -/
def symbol? : Char → Option Token
  | '+' => some (.operator .add)
  | '-' => some (.operator .sub)
  | '*' => some (.operator .mul)
  | '/' => some (.operator .div)
  | '(' => some .opening
  | ')' => some .closing
  | _ => none

def isWord (c : Char) : Bool := c.isAlphanum || c == '.'

/-- Neither space nor symbol nor word. -/
def isOther (c : Char) : Bool := c != ' ' && (symbol? c).isNone && !isWord c

/-- The token of a word. Numerals and names have no word in common. -/
def ofWord (cs : List Char) : Token :=
  match Number.ofNumeral? cs with
  | some x => .number x
  | none =>
    match Ref.ofChars? cs with
    | some r => .ref r
    | none => .unknown (String.ofList cs)

/-- The tokens of the characters of an expression. -/
def scan : List Char → List Token
  | [] => []
  | c :: cs =>
    if c = ' ' then scan cs
    else
      match symbol? c with
      | some t => t :: scan cs
      | none =>
        if isWord c then ofWord (c :: cs.takeWhile isWord) :: scan (cs.dropWhile isWord)
        else .unknown (String.ofList (c :: cs.takeWhile isOther)) :: scan (cs.dropWhile isOther)
termination_by cs => cs.length
decreasing_by
  all_goals simp only [List.length_cons, Nat.lt_add_one_iff]
  all_goals first | exact Nat.le_refl _ | exact (List.dropWhile_sublist _).length_le

/-- The cell that a token names. -/
def ref? : Token → Option Ref
  | .ref r => some r
  | _ => none

/-- The tokens of an expression, that is a formula without its `=`. -/
def ofText (expr : String) : List Token := scan expr.toList

end Token

namespace Formula

/-- The expression of a formula: what follows its `=`. -/
def expression? (text : String) : Option (List Char) :=
  match text.toList with
  | '=' :: expr => some expr
  | _ => none

/-- The cells that a formula mentions, in order and as often as it does. The leading `=` may be left
out. -/
def references (text : String) : List Ref :=
  (Token.scan ((expression? text).getD text.toList)).filterMap Token.ref?

end Formula

end Spreadsheet
