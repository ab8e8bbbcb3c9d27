import FrontCache.Json.Reader
import FrontCache.Text.ExtendingMark
import FrontCache.Text.Printable
/-!
Values of the wrong kind. When a reader expects one kind of value and meets
another, the error names what it found and what it expected, as in
"invalid type: null, expected a boolean". A string found is shown quoted with the
escapes of program text (`\n`, `\0`, `\u{1b}`): a character that does not print,
or that would attach to the one before it, is written by its code point.
-/
namespace FrontCache.Json

/-- What was found where a value of another kind was expected. -/
inductive Found where
  | null
  | bool (b : Bool)
  | nat (n : Nat)
  | neg (n : Int)
  | float (f : Float)
  | str (s : String)
  | seq
  | map

def Found.ofNumber : Number → Found
  | .nat n => .nat n
  | .neg n => .neg n
  | .float f => .float f

def Found.ofValue : Value → Found
  | .null => .null
  | .bool b => .bool b
  | .num n => .ofNumber n
  | .str s => .str s
  | .arr _ => .seq
  | .obj _ => .map

/-- Lowercase hexadecimal digits of a number, without leading zeros. -/
def lowerHex (n : Nat) : String := String.ofList (Nat.toDigits 16 n)

/-- Characters that are shown as escapes: the extending marks, which attach to the
character before them, and those that do not print. -/
def isHidden (c : Char) : Bool := Text.isExtendingMark c || !Text.isPrintable c

/-- One character of a quoted string as program text shows it. -/
def showChar (c : Char) : String :=
  if c = '"' then "\\\""
  else if c = '\\' then "\\\\"
  else if c = '\n' then "\\n"
  else if c = '\r' then "\\r"
  else if c = '\t' then "\\t"
  else if c.toNat = 0 then "\\0"
  else if isHidden c then "\\u\x7b" ++ lowerHex c.toNat ++ "\x7d"
  else String.singleton c

/-- A string in double quotes, escaped as program text. -/
def showString (s : String) : String :=
  "\"" ++ String.join (s.toList.map showChar) ++ "\""

def Found.describe : Found → String
  | .null => "null"
  | .bool b => "boolean `" ++ (if b then "true" else "false") ++ "`"
  | .nat n => "integer `" ++ toString n ++ "`"
  | .neg n => "integer `" ++ toString n ++ "`"
  | .float f => "floating point `" ++ Layout.message.float f ++ "`"
  | .str s => "string " ++ showString s
  | .seq => "sequence"
  | .map => "map"

/-- The error for a value of the wrong kind; it has no place of its own. -/
def mismatch (found : Found) (expected : String) : ReadError :=
  { text := "invalid type: " ++ found.describe ++ ", expected " ++ expected }

namespace Reader

/-- Reads the value at the cursor to report it as a mismatch; a malformed value
reports its own fault instead. -/
def mismatchHere (expected : String) : Reader ReadError := do
  let found (x : Reader Found) : Reader ReadError := do
    match ← attempt x with
    | .ok f => pure (mismatch f expected)
    | .error e => pure e
  match ← peek with
  | some 'n' => found do eat; ident ['u', 'l', 'l']; pure .null
  | some 't' => found do eat; ident ['r', 'u', 'e']; pure (.bool true)
  | some 'f' => found do eat; ident ['a', 'l', 's', 'e']; pure (.bool false)
  | some '-' => found do eat; return .ofNumber (← number false)
  | some '"' => found do eat; return .str (← string)
  | some '[' => pure (mismatch .seq expected)
  | some '{' => pure (mismatch .map expected)
  | some ch =>
    if isDigit ch then found do return .ofNumber (← number true)
    else errorAhead .expectedValue 1
  | none => errorAhead .expectedValue 0

/-- A boolean; any other value is a mismatch placed at its end. -/
def bool : Reader Bool := do
  match ← skipBlanks with
  | none => failAhead .eofValue
  | some 't' => eat; ident ['r', 'u', 'e']; pure true
  | some 'f' => eat; ident ['a', 'l', 's', 'e']; pure false
  | some _ => throw (← placed (← mismatchHere "a boolean"))

end Reader

end FrontCache.Json
