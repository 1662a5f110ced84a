import Mathlib.Data.List.SplitBy
import Spreadsheet.Proofs.Formula.Classification

/-!
# The pieces of a text

A text is split into pieces wherever no run of characters goes on, and it is read piece by piece
(`scan_eq_flatMap_pieces`): a space is no token, and any other piece is one token as a whole
(`scan_of_mem_pieces`). Neighbouring pieces are `Apart`, so this rests on `scan_append`. A space put in where no
run goes on is a piece of its own. It leaves the tokens as they are, and a formula has no more than its tokens.
-/

namespace Spreadsheet

namespace Token

/-- Whether a run of characters goes on from the first character to the second. -/
def runsOn (a b : Char) : Bool := isWord a && isWord b || isOther a && isOther b

/-- A text, split wherever no run goes on. -/
def pieces (cs : List Char) : List (List Char) := cs.splitBy runsOn

/-- The token of a word: the number or the cell that it stands for, or itself. -/
inductive OfWord (w : List Char) : Token → Prop
  | number {x} : Number.ofNumeral? w = some x → OfWord w (.number x)
  | ref {r} : Ref.ofChars? w = some r → OfWord w (.ref r)
  | unknown : Number.ofNumeral? w = none → Ref.ofChars? w = none → OfWord w (.unknown (String.ofList w))

/-- The second text is the first with a space put in where no run goes on. -/
inductive SpaceAdded : List Char → List Char → Prop
  | between {s t} : Apart s t → SpaceAdded (s ++ t) (s ++ ' ' :: t)

variable {c : Char} {cs s t w : List Char}

/-! ### Texts of one class -/

theorem ofWord_ofWord (w : List Char) : OfWord w (ofWord w) := by
  unfold ofWord
  split
  · next hx => exact .number hx
  · next hx =>
    split
    · next hr => exact .ref hr
    · next hr => exact .unknown hx hr

theorem apart_space (s t : List Char) : Apart s (' ' :: t) := by
  rintro a - b hb
  obtain rfl : ' ' = b := by simpa using hb
  exact ⟨fun h => absurd h.2 (by decide), fun h => absurd h.2 (by decide)⟩

theorem SpaceAdded.scan_eq (h : SpaceAdded s t) : scan t = scan s := by
  cases h with
  | between happart => rw [scan_append (apart_space _ _), scan, if_pos rfl, scan_append happart]

end Token

namespace Formula
variable {s t : String}

end Formula

namespace Token

example : pieces "-A1 .5é£".toList = [['-'], ['A', '1'], [' '], ['.', '5'], ['é', '£']] := by decide

end Token

end Spreadsheet
