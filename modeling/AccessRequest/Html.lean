/-!
HTML trees and their text. Text is escaped for `&`, `<` and `>`; an attribute value, written
between double quotes, also for `"`. Elements are written with their attributes in order and
their children one after the other, with nothing between them.
-/

namespace AccessRequest

/-- An HTML tree. -/
inductive Html where
  | element (tag : String) (attributes : List (String × String)) (children : List Html)
  | text (content : String)
  deriving Repr

namespace Html

/-- One character of text. -/
def escapeTextChar (c : Char) : String :=
  match c with
  | '&' => "&amp;"
  | '<' => "&lt;"
  | '>' => "&gt;"
  | c => c.toString

/-- One character of an attribute value. -/
def escapeAttributeChar (c : Char) : String :=
  match c with
  | '"' => "&quot;"
  | c => escapeTextChar c

/-- Text, escaped. -/
def escapeText (s : String) : String := String.join (s.toList.map escapeTextChar)

/-- An attribute value, escaped. -/
def escapeAttribute (s : String) : String := String.join (s.toList.map escapeAttributeChar)

/-- The attributes of a start tag, each after a space. -/
def renderAttributes (attributes : List (String × String)) : String :=
  String.join (attributes.map fun (name, value) => " " ++ name ++ "=\"" ++ escapeAttribute value ++ "\"")

mutual

/-- The text of a tree. -/
def render : Html → String
  | .element tag attributes children =>
    "<" ++ tag ++ renderAttributes attributes ++ ">" ++ renderAll children ++ "</" ++ tag ++ ">"
  | .text content => escapeText content

/-- The text of trees one after the other. -/
def renderAll : List Html → String
  | [] => ""
  | h :: rest => render h ++ renderAll rest

end

end Html

end AccessRequest
