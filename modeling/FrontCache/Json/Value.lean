import FrontCache.Json.Number
/-!
JSON values and their compact text. An object holds each key once, in ascending
order of the key text, as a map keyed by strings does; `insert` keeps that shape
and a later value for a key replaces the earlier one.

Text is written without spaces. In strings only the quote, the backslash and the
control characters are escaped: the five with a short form (`\n`, `\t`, `\r`,
`\b`, `\f`) by it, the others as `\u00XX` with lowercase digits.
-/
namespace FrontCache.Json

inductive Value where
  | null
  | bool (b : Bool)
  | num (n : Number)
  | str (s : String)
  | arr (items : List Value)
  | obj (fields : List (String × Value))

namespace Value

/-- A natural number as a value. -/
def nat (n : Nat) : Value := .num (.nat n)

/-- An optional value, `null` when absent. -/
def opt {α : Type} (f : α → Value) : Option α → Value
  | some a => f a
  | none => .null

/-- A field set in an ordered field list: replaced in place when present, inserted
before the first greater key otherwise. -/
def insertField (k : String) (v : Value) : List (String × Value) → List (String × Value)
  | [] => [(k, v)]
  | (k', v') :: rest =>
    if k = k' then (k, v) :: rest
    else if k < k' then (k, v) :: (k', v') :: rest
    else (k', v') :: insertField k v rest

/-- The value of a key of an object; `none` for a missing key or a non-object. -/
def get? (v : Value) (k : String) : Option Value :=
  match v with
  | .obj fields => (fields.find? (·.1 == k)).map (·.2)
  | _ => none

end Value

/-- The four hexadecimal digits of a code below 2^16, lowercase. -/
def hex4 (n : Nat) : String :=
  let d (i : Nat) : Char := "0123456789abcdef".toList.getD ((n / Nat.pow 16 i) % 16) '0'
  String.ofList [d 3, d 2, d 1, d 0]

/-- One character inside a written string. -/
def escapeChar (c : Char) : String :=
  if c = '"' then "\\\""
  else if c = '\\' then "\\\\"
  else if c = '\n' then "\\n"
  else if c = '\t' then "\\t"
  else if c = '\r' then "\\r"
  else if c.toNat = 8 then "\\b"
  else if c.toNat = 12 then "\\f"
  else if c.toNat < 32 then "\\u" ++ hex4 c.toNat
  else String.singleton c

/-- A string in quotes, escaped. -/
def quote (s : String) : String :=
  "\"" ++ String.join (s.toList.map escapeChar) ++ "\""

mutual

/-- The compact text of a value. -/
def Value.render : Value → String
  | .null => "null"
  | .bool true => "true"
  | .bool false => "false"
  | .num n => n.text
  | .str s => quote s
  | .arr items => "[" ++ renderItems items ++ "]"
  | .obj fields => "\x7b" ++ renderFields fields ++ "\x7d"

/-- Items separated by commas. -/
def renderItems : List Value → String
  | [] => ""
  | [v] => v.render
  | v :: rest => v.render ++ "," ++ renderItems rest

/-- Fields `"key":value` separated by commas. -/
def renderFields : List (String × Value) → String
  | [] => ""
  | [(k, v)] => quote k ++ ":" ++ v.render
  | (k, v) :: rest => quote k ++ ":" ++ v.render ++ "," ++ renderFields rest

end

end FrontCache.Json
