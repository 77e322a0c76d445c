import AccessRequest.Binary64.Text
import AccessRequest.Json.Value
import AccessRequest.Text.Quoted

/-!
Why reading JSON failed, and where. A syntax error is a fault of the text itself; a mismatch is
well-formed text of the wrong shape for what is read (a string where a map belongs, a field
twice). Every syntax error has a place; a mismatch found while reading text gets the place the
reader has reached when the value around it ends, and one found in a value held in memory has
none. The message is the cause, then ` at line L column C` when there is a place, where columns
count bytes from the start of the line.
-/

namespace AccessRequest.Json

/-- A fault of the text itself. -/
inductive SyntaxError where
  | eofWhileParsingList
  | eofWhileParsingObject
  | eofWhileParsingString
  | eofWhileParsingValue
  | expectedColon
  | expectedListCommaOrEnd
  | expectedObjectCommaOrEnd
  | expectedSomeIdent
  | expectedSomeValue
  | invalidEscape
  | invalidNumber
  | numberOutOfRange
  | controlCharacterWhileParsingString
  | keyMustBeAString
  | loneLeadingSurrogateInHexEscape
  | trailingComma
  | trailingCharacters
  | unexpectedEndOfHexEscape
  | recursionLimitExceeded
  deriving DecidableEq, Repr

/-- The text of a syntax error. -/
def SyntaxError.message : SyntaxError → String
  | .eofWhileParsingList => "EOF while parsing a list"
  | .eofWhileParsingObject => "EOF while parsing an object"
  | .eofWhileParsingString => "EOF while parsing a string"
  | .eofWhileParsingValue => "EOF while parsing a value"
  | .expectedColon => "expected `:`"
  | .expectedListCommaOrEnd => "expected `,` or `]`"
  | .expectedObjectCommaOrEnd => "expected `,` or `\x7d`"
  | .expectedSomeIdent => "expected ident"
  | .expectedSomeValue => "expected value"
  | .invalidEscape => "invalid escape"
  | .invalidNumber => "invalid number"
  | .numberOutOfRange => "number out of range"
  | .controlCharacterWhileParsingString =>
    "control character (\\u0000-\\u001F) found while parsing a string"
  | .keyMustBeAString => "key must be a string"
  | .loneLeadingSurrogateInHexEscape => "lone leading surrogate in hex escape"
  | .trailingComma => "trailing comma"
  | .trailingCharacters => "trailing characters"
  | .unexpectedEndOfHexEscape => "unexpected end of hex escape"
  | .recursionLimitExceeded => "recursion limit exceeded"

/-- What was found where something else was expected. -/
inductive Unexpected where
  | bool (b : Bool)
  | unsigned (n : Nat)
  | signed (i : Int)
  | float (x : Binary64)
  | str (s : String)
  | unit
  | seq
  | map
  | unitVariant
  deriving DecidableEq, Repr

/-- How a mismatch names what was found. -/
def Unexpected.describe : Unexpected → String
  | .bool b => "boolean `" ++ (if b then "true" else "false") ++ "`"
  | .unsigned n => "integer `" ++ Nat.repr n ++ "`"
  | .signed i => "integer `" ++ Decimal.intText i ++ "`"
  | .float x => "floating point `" ++ x.toText ++ "`"
  | .str s => "string " ++ Text.quoted s
  | .unit => "null"
  | .seq => "sequence"
  | .map => "map"
  | .unitVariant => "unit variant"

/-- What a number is, when found in place of something else. -/
def Number.unexpected : Number → Unexpected
  | .nat n => .unsigned n.toNat
  | .neg n => .signed n.toInt
  | .float x => .float x

/-- What a value is, when found in place of something else. -/
def Value.unexpected : Value → Unexpected
  | .null => .unit
  | .bool b => .bool b
  | .number n => n.unexpected
  | .string s => .str s
  | .array _ => .seq
  | .object _ => .map

/-- Names in backquotes: one, two joined by `or`, or `one of` a list. -/
def oneOf (names : List String) : String :=
  let tick := fun (n : String) => "`" ++ n ++ "`"
  match names with
  | [a] => tick a
  | [a, b] => tick a ++ " or " ++ tick b
  | _ => "one of " ++ ", ".intercalate (names.map tick)

/-- Well-formed text of the wrong shape. -/
inductive Mismatch where
  | invalidType (found : Unexpected) (expected : String)
  | invalidValue (found : Unexpected) (expected : String)
  | invalidLength (length : Nat) (expected : String)
  | unknownVariant (name : String) (expected : List String)
  | missingField (name : String)
  | duplicateField (name : String)
  deriving DecidableEq, Repr

/-- The text of a mismatch. -/
def Mismatch.message : Mismatch → String
  | .invalidType found expected =>
    "invalid type: " ++ found.describe ++ ", expected " ++ expected
  | .invalidValue found expected =>
    "invalid value: " ++ found.describe ++ ", expected " ++ expected
  | .invalidLength length expected =>
    "invalid length " ++ Nat.repr length ++ ", expected " ++ expected
  | .unknownVariant name expected =>
    if expected.isEmpty then "unknown variant `" ++ name ++ "`, there are no variants"
    else "unknown variant `" ++ name ++ "`, expected " ++ oneOf expected
  | .missingField name => "missing field `" ++ name ++ "`"
  | .duplicateField name => "duplicate field `" ++ name ++ "`"

/-- The cause of a failed read. -/
inductive Problem where
  | grammar (e : SyntaxError)
  | mismatch (m : Mismatch)
  deriving DecidableEq, Repr

/-- The text of a cause. -/
def Problem.message : Problem → String
  | .grammar e => e.message
  | .mismatch m => m.message

/-- A place in a text: the line, from 1, and the bytes before it on that line. -/
structure Position where
  line : Nat
  column : Nat
  deriving DecidableEq, Repr

/-- A failed read, placed or not. -/
structure Error where
  problem : Problem
  position : Option Position
  deriving DecidableEq, Repr

/-- The text of a failed read. -/
def Error.message (e : Error) : String :=
  match e.position with
  | none => e.problem.message
  | some p => e.problem.message ++ " at line " ++ Nat.repr p.line ++ " column " ++ Nat.repr p.column

/-- The place after the first `index` bytes of `text`, from `p` at its start. -/
def Position.advance (p : Position) (index : Nat) : List Char → Position
  | [] => p
  | c :: rest =>
    if index = 0 then p
    else if c.utf8Size ≤ index then
      let p : Position := if c = '\n' then ⟨p.line + 1, 0⟩ else ⟨p.line, p.column + c.utf8Size⟩
      p.advance (index - c.utf8Size) rest
    else ⟨p.line, p.column + index⟩

/-- The place after the first `index` bytes of `text`. -/
def Position.ofIndex (text : List Char) (index : Nat) : Position :=
  (Position.mk 1 0).advance index text

/-- The UTF-8 length of a list of characters. -/
def byteCount (cs : List Char) : Nat := cs.foldr (fun c n => c.utf8Size + n) 0

/-- A failed read while reading text: the cause, and the number of bytes of the text after the
place it is tied to, if it is placed yet. -/
structure Fault where
  problem : Problem
  left : Option Nat
  deriving DecidableEq, Repr

namespace Fault

/-- A syntax error at the point where `rest` is what is left to read. -/
def here (e : SyntaxError) (rest : List Char) : Fault := ⟨.grammar e, some (byteCount rest)⟩

/-- A syntax error one byte further: after the next byte of `rest`, or at the end. -/
def ahead (e : SyntaxError) (rest : List Char) : Fault := ⟨.grammar e, some (byteCount rest - 1)⟩

/-- A mismatch, not yet placed. -/
def loose (m : Mismatch) : Fault := ⟨.mismatch m, none⟩

/-- The fault, placed where `rest` is left if it has no place yet. -/
def placeAt (f : Fault) (rest : List Char) : Fault :=
  match f.left with
  | none => { f with left := some (byteCount rest) }
  | some _ => f

/-- The failed read of `text` this fault stands for. -/
def locate (f : Fault) (text : List Char) : Error :=
  ⟨f.problem, f.left.map fun left => Position.ofIndex text (byteCount text - left)⟩

end Fault

/-- A failed read of a value held in memory: no place. -/
def Error.ofMismatch (m : Mismatch) : Error := ⟨.mismatch m, none⟩

end AccessRequest.Json
