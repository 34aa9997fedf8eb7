/-!
Lists of names in running text: each name between backquotes, the last one
after an "or".
-/

namespace Offside.Text

/-- A name between backquotes. -/
def backquoted (name : String) : String := "`" ++ name ++ "`"

/-- The names as an alternative: nothing, one, one or other, or a list whose
last name follows a comma and an "or". -/
def nameList : List String → String
  | [] => "nothing"
  | [single] => backquoted single
  | [first, second] => backquoted first ++ " or " ++ backquoted second
  | names =>
    String.intercalate ", " (names.dropLast.map backquoted) ++ ", or "
      ++ backquoted (names.getLastD "")

end Offside.Text
