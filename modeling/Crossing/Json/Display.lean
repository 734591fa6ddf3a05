import Crossing.Json.Basic
import Crossing.Decimal.Notation
import Crossing.Text.Quoted

/-!
# Values inside messages

How a message shows a value that it refuses. A text stands as it is; inside a list or an object it
stands between quotes. The literals are spelled `None`, `True` and `False`.
-/

namespace Crossing.Json

/-- The names of the numbers without a decimal inside messages. -/
def shownNames : Decimal.Names := ⟨"inf", "nan"⟩

def quoteText (s : String) : String := String.ofList (Text.quoted s.toList)

mutual

/-- A value as part of a message, its texts between quotes. -/
def quote : Json → String
  | .null => "None"
  | .bool b => if b then "True" else "False"
  | .int n => toString n
  | .float x => Decimal.writeFloat shownNames x
  | .str s => quoteText s
  | .arr items => "[" ++ ", ".intercalate (quoteItems items) ++ "]"
  | .obj fields => "\x7b" ++ ", ".intercalate (quoteFields fields) ++ "\x7d"

def quoteItems : List Json → List String
  | [] => []
  | v :: vs => quote v :: quoteItems vs

def quoteFields : Fields → List String
  | [] => []
  | (k, v) :: fs => (quoteText k ++ ": " ++ quote v) :: quoteFields fs

end

/-- A value as a message shows it. -/
def display : Json → String
  | .str s => s
  | v => quote v

end Crossing.Json
