import AccessRequest.Json.Value
import AccessRequest.Binary64.Text

/-!
Compact JSON text of a value: no blanks, object members in their (sorted) order, integers in
decimal, binary64 numbers in their shortest form (`1.0`, `1e21`, `-0.0`). In a string, a quote
and a backslash get a backslash, the controls with a short escape get it, other characters below
U+0020 are written `\u00xx` in lowercase hexadecimal, and every other character stands as it is.
-/

namespace AccessRequest.Json

/-- Lowercase hexadecimal digit of a value below 16. -/
def hexDigit (n : Nat) : Char :=
  if n < 10 then Char.ofNat ('0'.toNat + n) else Char.ofNat ('a'.toNat + n - 10)

/-- One character of a string's text. -/
def escapeChar (c : Char) : List Char :=
  match c with
  | '"' => ['\\', '"']
  | '\\' => ['\\', '\\']
  | '\n' => ['\\', 'n']
  | '\r' => ['\\', 'r']
  | '\t' => ['\\', 't']
  | '\x08' => ['\\', 'b']
  | '\x0c' => ['\\', 'f']
  | c =>
    if c.toNat < 0x20 then ['\\', 'u', '0', '0', hexDigit (c.toNat / 16), hexDigit (c.toNat % 16)]
    else [c]

/-- A string literal: the escaped characters between quotes. -/
def quote (s : String) : String :=
  String.ofList ('"' :: (s.toList.flatMap escapeChar ++ ['"']))

/-- The text of a number. -/
def Number.render : Number → String
  | .nat n => Nat.repr n.toNat
  | .neg n => Decimal.intText n.toInt
  | .float x => x.toText

mutual

/-- The compact text of a value. -/
def Value.render : Value → String
  | .null => "null"
  | .bool b => if b then "true" else "false"
  | .number n => n.render
  | .string s => quote s
  | .array items => "[" ++ renderItems items ++ "]"
  | .object ms => "\x7b" ++ renderMembers ms ++ "\x7d"

/-- Array elements separated by commas. -/
def renderItems : List Value → String
  | [] => ""
  | [v] => v.render
  | v :: rest => v.render ++ "," ++ renderItems rest

/-- Object members, `key:value`, separated by commas. -/
def renderMembers : List (String × Value) → String
  | [] => ""
  | [(k, v)] => quote k ++ ":" ++ v.render
  | (k, v) :: rest => quote k ++ ":" ++ v.render ++ "," ++ renderMembers rest

end

end AccessRequest.Json
