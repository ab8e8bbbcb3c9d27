import FrontCache.Json.Value
/-!
Reading JSON text. The reader walks the text one character at a time and keeps
its place as a byte offset, a line number and the offset where that line starts,
so that every fault can name the line and the byte column where it was found.

Places count bytes. A fault found at the current character is reported one byte
past the start of that character (`failAhead`): a character that cannot stand
where it is counts as read only as far as its first byte. A fault found after
the last character read is reported at the place reached (`fail`). Faults that
are not about the text's shape, such as a value of the wrong type, carry no place
when raised; the enclosing value gives them its own end (`placed`).

Values nest at most 127 deep. A number is an unsigned integer when it has no
sign, point or exponent and fits 64 bits, a signed one when it is negative and
fits, and a float otherwise; a float's digits are gathered into a 64-bit
significand and a decimal exponent and then scaled by powers of ten.
-/
namespace FrontCache.Json

/-- Causes of a malformed text. -/
inductive Fault where
  | eofList
  | eofObject
  | eofString
  | eofValue
  | expectedColon
  | expectedListCommaOrEnd
  | expectedObjectCommaOrEnd
  | expectedIdent
  | expectedValue
  | invalidEscape
  | invalidNumber
  | numberOutOfRange
  | controlCharacter
  | keyMustBeString
  | loneLeadingSurrogate
  | unexpectedEndOfHexEscape
  | trailingComma
  | trailingCharacters
  | recursionLimit

def Fault.text : Fault → String
  | .eofList => "EOF while parsing a list"
  | .eofObject => "EOF while parsing an object"
  | .eofString => "EOF while parsing a string"
  | .eofValue => "EOF while parsing a value"
  | .expectedColon => "expected `:`"
  | .expectedListCommaOrEnd => "expected `,` or `]`"
  | .expectedObjectCommaOrEnd => "expected `,` or `\x7d`"
  | .expectedIdent => "expected ident"
  | .expectedValue => "expected value"
  | .invalidEscape => "invalid escape"
  | .invalidNumber => "invalid number"
  | .numberOutOfRange => "number out of range"
  | .controlCharacter => "control character (\\u0000-\\u001F) found while parsing a string"
  | .keyMustBeString => "key must be a string"
  | .loneLeadingSurrogate => "lone leading surrogate in hex escape"
  | .unexpectedEndOfHexEscape => "unexpected end of hex escape"
  | .trailingComma => "trailing comma"
  | .trailingCharacters => "trailing characters"
  | .recursionLimit => "recursion limit exceeded"

/-- A reading error: its text and, when known, the line (from 1) and byte column;
line 0 means no place. -/
structure ReadError where
  text : String
  line : Nat := 0
  column : Nat := 0

/-- The text of an error, with its place when it has one. -/
def ReadError.message (e : ReadError) : String :=
  if e.line == 0 then e.text
  else e.text ++ " at line " ++ toString e.line ++ " column " ++ toString e.column

/-- A place in the text. -/
structure Cursor where
  rest : List Char
  /-- bytes read so far -/
  index : Nat := 0
  /-- one more than the newlines read so far -/
  line : Nat := 1
  /-- the byte offset just after the last newline read -/
  lineStart : Nat := 0
  /-- how many more arrays or objects may be opened -/
  room : Nat := 128

/-- The cursor after its next character. -/
def Cursor.eat (c : Cursor) : Cursor :=
  match c.rest with
  | [] => c
  | ch :: t =>
    let index := c.index + ch.utf8Size
    if ch = '\n' then { c with rest := t, index, line := c.line + 1, lineStart := index }
    else { c with rest := t, index }

/-- Blanks between tokens: space, tab, newline and carriage return. -/
def isBlank (ch : Char) : Bool := ch == ' ' || ch == '\n' || ch == '\t' || ch == '\r'

def isDigit (ch : Char) : Bool := '0' ≤ ch && ch ≤ '9'

/-- The cursor past every leading character that passes `p`. -/
def Cursor.skipWhile (p : Char → Bool) (c : Cursor) : Cursor :=
  go c c.rest
where
  /-- `go c cs` with `cs` the characters still ahead of `c`. -/
  go (c : Cursor) : List Char → Cursor
    | ch :: t => if p ch then go c.eat t else c
    | [] => c

/-- The line and column of the byte `k` bytes ahead; a character cut by that byte
counts as not yet read. -/
def Cursor.placeAhead (c : Cursor) : Nat → List Char → Nat × Nat × Nat
  | k, ch :: t =>
    if ch.utf8Size ≤ k then
      let d := c.eat
      d.placeAhead (k - ch.utf8Size) t
    else (c.line, c.index + k - c.lineStart, 0)
  | k, [] => (c.line, c.index + k - c.lineStart, 0)

/-- A reader: a computation on the cursor that may fail and keeps the cursor it
failed at. -/
abbrev Reader := ExceptT ReadError (StateM Cursor)

namespace Reader

def peek : Reader (Option Char) := return (← get).rest.head?

def eat : Reader Unit := modify Cursor.eat

def skipWhile (p : Char → Bool) : Reader Unit := modify (Cursor.skipWhile p)

/-- Skips blanks and looks at what follows. -/
def skipBlanks : Reader (Option Char) := do
  skipWhile isBlank
  peek

/-- An error placed `k` bytes ahead of the cursor. -/
def errorAhead (f : Fault) (k : Nat) : Reader ReadError := do
  let c ← get
  let (line, column, _) := c.placeAhead k c.rest
  return ⟨f.text, line, column⟩

/-- A fault at the place reached. -/
def fail {α : Type} (f : Fault) : Reader α := do throw (← errorAhead f 0)

/-- A fault placed just after the current character, or at the end. -/
def failAhead {α : Type} (f : Fault) : Reader α := do
  let c ← get
  throw (← errorAhead f (if c.rest.isEmpty then 0 else 1))

/-- Gives an error without a place the cursor's place. -/
def placed (e : ReadError) : Reader ReadError := do
  if e.line == 0 then
    let c ← get
    return { e with line := c.line, column := c.index - c.lineStart }
  else return e

/-- The outcome of a reader, caught, with the cursor moved as far as it went. -/
def attempt {α : Type} (x : Reader α) : Reader (Except ReadError α) := ExceptT.lift x.run

/-- Reads the letters of a keyword after its first. -/
def ident : List Char → Reader Unit
  | [] => pure ()
  | l :: ls => do
    match ← peek with
    | none => fail .eofValue
    | some ch =>
      if ch = l then
        eat
        ident ls
      else failAhead .expectedIdent

/-! ### Numbers -/

def digitValue (ch : Char) : Nat := ch.toNat - '0'.toNat

/-- Whether a further digit would carry the accumulator past `max`. -/
def overflows (acc d max : Nat) : Bool := acc ≥ max / 10 && (acc > max / 10 || d > max % 10)

def u64Max : Nat := Nat.pow 2 64 - 1

def i32Max : Nat := Nat.pow 2 31 - 1

/-- A 32-bit exponent sum, held at the ends of the range. -/
def clamp32 (e : Int) : Int := max (-((i32Max : Int) + 1)) (min (i32Max : Int) e)

/-- The float of the parts, or a range fault at the place reached. -/
def fromParts (positive : Bool) (significand : Nat) (exponent : Int) : Reader Float := do
  match floatOfParts positive significand exponent with
  | some f => pure f
  | none => fail .numberOutOfRange

/-- Digits of an exponent too large to hold: zero unless the significand is
non-zero and the exponent positive, which is out of range. -/
def exponentOverflow (positive zeroSignificand positiveExp : Bool) : Reader Float := do
  if !zeroSignificand && positiveExp then fail .numberOutOfRange
  else
    skipWhile isDigit
    return if positive then 0.0 else -0.0

/-- Digits of an exponent, accumulated while they fit. -/
def exponentDigits (positive zeroSignificand positiveExp : Bool) :
    Nat → Nat → Reader (Option Nat)
  | 0, acc => pure (some acc)
  | fuel + 1, acc => do
    match ← peek with
    | some ch =>
      if isDigit ch then
        eat
        let d := digitValue ch
        if overflows acc d i32Max then pure none
        else exponentDigits positive zeroSignificand positiveExp fuel (acc * 10 + d)
      else pure (some acc)
    | none => pure (some acc)

/-- An exponent part, from its `e`. -/
def exponent (positive : Bool) (significand : Nat) (start : Int) : Reader Float := do
  eat
  let positiveExp ← do
    match ← peek with
    | some '+' => eat; pure true
    | some '-' => eat; pure false
    | _ => pure true
  match ← peek with
  | none => fail .eofValue
  | some ch =>
    if isDigit ch then
      eat
      let fuel := (← get).rest.length
      match ← exponentDigits positive (significand == 0) positiveExp fuel (digitValue ch) with
      | none => exponentOverflow positive (significand == 0) positiveExp
      | some e =>
        let e : Int := e
        fromParts positive significand (clamp32 (if positiveExp then start + e else start - e))
    else failAhead .invalidNumber

/-- The part after a significand too long to hold: its further digits are dropped. -/
def decimalOverflow (positive : Bool) (significand : Nat) (exp : Int) : Reader Float := do
  skipWhile isDigit
  match ← peek with
  | some 'e' | some 'E' => exponent positive significand exp
  | _ => fromParts positive significand exp

/-- Fraction digits, each lowering the exponent by one, while the significand fits. -/
def fractionDigits : Nat → Nat → Int → Reader (Nat × Int × Bool)
  | 0, acc, e => pure (acc, e, false)
  | fuel + 1, acc, e => do
    match ← peek with
    | some ch =>
      if isDigit ch then
        let d := digitValue ch
        if overflows acc d u64Max then pure (acc, e, true)
        else
          eat
          fractionDigits fuel (acc * 10 + d) (e - 1)
      else pure (acc, e, false)
    | none => pure (acc, e, false)

/-- A fraction part, from its point; it needs at least one digit. -/
def fraction (positive : Bool) (significand : Nat) (start : Int) : Reader Float := do
  eat
  let fuel := (← get).rest.length
  let (sig, after, full) ← fractionDigits fuel significand 0
  if full then decimalOverflow positive sig (start + after)
  else if after == 0 then
    match ← peek with
    | some _ => failAhead .invalidNumber
    | none => failAhead .eofValue
  else
    match ← peek with
    | some 'e' | some 'E' => exponent positive sig (start + after)
    | _ => fromParts positive sig (start + after)

/-- Digits beyond a full significand count as powers of ten. -/
def longInteger (positive : Bool) (significand : Nat) : Reader Float := do
  let c ← get
  skipWhile isDigit
  let extra : Int := (← get).index - c.index
  match ← peek with
  | some '.' => fraction positive significand extra
  | some 'e' | some 'E' => exponent positive significand extra
  | _ => fromParts positive significand extra

/-- What follows the integer digits. A negative integer that does not fit a signed
64-bit number, and minus zero, are floats. -/
def numberTail (positive : Bool) (significand : Nat) : Reader Number := do
  match ← peek with
  | some '.' => return .float (← fraction positive significand 0)
  | some 'e' | some 'E' => return .float (← exponent positive significand 0)
  | _ =>
    if positive then return .nat significand
    else if significand == 0 || significand > Nat.pow 2 63 then
      return .float (-(significand.toUInt64.toFloat))
    else return .neg (-(significand : Int))

/-- Integer digits after the first, while they fit 64 bits. -/
def integerDigits (positive : Bool) : Nat → Nat → Reader Number
  | 0, acc => numberTail positive acc
  | fuel + 1, acc => do
    match ← peek with
    | some ch =>
      if isDigit ch then
        let d := digitValue ch
        if overflows acc d u64Max then return .float (← longInteger positive acc)
        else
          eat
          integerDigits positive fuel (acc * 10 + d)
      else numberTail positive acc
    | none => numberTail positive acc

/-- A number after its sign: one leading zero at most. -/
def number (positive : Bool) : Reader Number := do
  match ← peek with
  | none => fail .eofValue
  | some '0' =>
    eat
    match ← peek with
    | some ch => if isDigit ch then failAhead .invalidNumber else numberTail positive 0
    | none => numberTail positive 0
  | some ch =>
    if isDigit ch then
      eat
      let fuel := (← get).rest.length
      integerDigits positive fuel (digitValue ch)
    else failAhead .invalidNumber

/-! ### Strings -/

def hexValue? (ch : Char) : Option Nat :=
  if '0' ≤ ch ∧ ch ≤ '9' then some (ch.toNat - '0'.toNat)
  else if 'a' ≤ ch ∧ ch ≤ 'f' then some (ch.toNat - 'a'.toNat + 10)
  else if 'A' ≤ ch ∧ ch ≤ 'F' then some (ch.toNat - 'A'.toNat + 10)
  else none

/-- The value of four hexadecimal digits. -/
def hex4Value? : List Char → Option Nat
  | [a, b, c, d] => do
    let a ← hexValue? a
    let b ← hexValue? b
    let c ← hexValue? c
    let d ← hexValue? d
    pure (((a * 16 + b) * 16 + c) * 16 + d)
  | _ => none

/-- The four bytes of a `\u` escape; fewer than four left is the end of the text. -/
def hexEscape : Reader Nat := do
  let c ← get
  let bytes := c.rest.foldl (fun n ch => n + ch.utf8Size) 0
  if bytes < 4 then
    modify fun c => c.skipWhile fun _ => true
    fail .eofString
  else
    let four := c.rest.take 4
    match hex4Value? four with
    | some n =>
      modify fun c => (c.eat.eat.eat.eat)
      pure n
    | none => throw (← errorAhead .invalidEscape 4)

/-- A `\u` escape, with the second half of a surrogate pair when the first asks
for one; a half without its partner is refused. -/
def unicodeEscape : Reader Char := do
  let n ← hexEscape
  if 0xDC00 ≤ n ∧ n ≤ 0xDFFF then fail .loneLeadingSurrogate
  else if n < 0xD800 ∨ n > 0xDBFF then pure (Char.ofNat n)
  else
    match ← peek with
    | none => fail .eofString
    | some '\\' =>
      eat
      match ← peek with
      | none => fail .eofString
      | some 'u' =>
        eat
        let n2 ← hexEscape
        if n2 < 0xDC00 ∨ n2 > 0xDFFF then fail .loneLeadingSurrogate
        else pure (Char.ofNat ((((n - 0xD800) <<< 10) ||| (n2 - 0xDC00)) + 0x10000))
      | some _ => failAhead .unexpectedEndOfHexEscape
    | some _ => failAhead .unexpectedEndOfHexEscape

/-- The character a one-letter escape stands for. -/
def escaped? : Char → Option Char
  | '"' => some '"'
  | '\\' => some '\\'
  | '/' => some '/'
  | 'b' => some (Char.ofNat 8)
  | 'f' => some (Char.ofNat 12)
  | 'n' => some '\n'
  | 'r' => some '\r'
  | 't' => some '\t'
  | _ => none

/-- One escape, after its backslash. -/
def escape : Reader Char := do
  match ← peek with
  | none => fail .eofString
  | some 'u' =>
    eat
    unicodeEscape
  | some ch =>
    match escaped? ch with
    | some e =>
      eat
      pure e
    | none => failAhead .invalidEscape

/-- The characters of a string up to its closing quote. -/
def stringChars : Nat → List Char → Reader String
  | 0, _ => fail .eofString
  | fuel + 1, acc => do
    match ← peek with
    | none => fail .eofString
    | some '"' =>
      eat
      pure (String.ofList acc.reverse)
    | some '\\' =>
      eat
      let ch ← escape
      stringChars fuel (ch :: acc)
    | some ch =>
      eat
      if ch.toNat < 0x20 then fail .controlCharacter
      else stringChars fuel (ch :: acc)

/-- A string, after its opening quote. -/
def string : Reader String := do
  let fuel := (← get).rest.length + 1
  stringChars fuel []

/-! ### Arrays and objects -/

/-- Looks for the next item of an array: `true` when one starts here, `false` at
the closing bracket, which is left for `endArray`. -/
def nextItem (first : Bool) : Reader Bool := do
  let peeked ← do
    match ← skipBlanks with
    | some ']' => pure none
    | some ',' =>
      if first then pure (some (some ','))
      else
        eat
        pure (some (← skipBlanks))
    | some ch =>
      if first then pure (some (some ch)) else failAhead .expectedListCommaOrEnd
    | none => failAhead .eofList
  match peeked with
  | none => pure false
  | some (some ']') => failAhead .trailingComma
  | some (some _) => pure true
  | some none => failAhead .eofValue

/-- Looks for the next key of an object and reads it; `none` at the closing
brace, which is left for `endObject`. -/
def nextKey (first : Bool) : Reader (Option String) := do
  let peeked ← do
    match ← skipBlanks with
    | some '}' => pure none
    | some ',' =>
      if first then pure (some (some ','))
      else
        eat
        pure (some (← skipBlanks))
    | some ch =>
      if first then pure (some (some ch)) else failAhead .expectedObjectCommaOrEnd
    | none => failAhead .eofObject
  match peeked with
  | none => pure none
  | some (some '"') =>
    eat
    return some (← string)
  | some (some '}') => failAhead .trailingComma
  | some (some _) => failAhead .keyMustBeString
  | some none => failAhead .eofValue

/-- The colon between a key and its value. -/
def colon : Reader Unit := do
  match ← skipBlanks with
  | some ':' => eat
  | some _ => failAhead .expectedColon
  | none => failAhead .eofObject

/-- The closing bracket of an array. -/
def endArray : Reader Unit := do
  match ← skipBlanks with
  | some ']' => eat
  | some ',' =>
    eat
    match ← skipBlanks with
    | some ']' => failAhead .trailingComma
    | _ => failAhead .trailingCharacters
  | some _ => failAhead .trailingCharacters
  | none => failAhead .eofList

/-- The closing brace of an object. -/
def endObject : Reader Unit := do
  match ← skipBlanks with
  | some '}' => eat
  | some ',' => failAhead .trailingComma
  | some _ => failAhead .trailingCharacters
  | none => failAhead .eofObject

/-- Runs a reader for the inside of an array or object, one level deeper; too deep
a nesting is refused at the opening character. -/
def nested {α : Type} (x : Reader α) : Reader α := do
  let c ← get
  if c.room ≤ 1 then failAhead .recursionLimit
  else
    set { c with room := c.room - 1 }
    eat
    let r ← attempt x
    modify fun d => { d with room := d.room + 1 }
    match r with
    | .ok a => pure a
    | .error e => throw e

/-- The first of two outcomes that failed, or the first's value. -/
def firstFault {α β : Type} : Except ReadError α → Except ReadError β → Except ReadError α
  | .error e, _ => .error e
  | .ok _, .error e => .error e
  | .ok a, .ok _ => .ok a

/-- An array or object: its inside, then its closing character, which is read even
when the inside failed; the first fault wins, placed at the end reached. -/
def enclosed {α : Type} (inside : Reader α) (close : Reader Unit) : Reader α := do
  let r ← nested do
    let r ← attempt inside
    let e ← attempt close
    pure (firstFault r e)
  match r with
  | .ok a => pure a
  | .error e => throw (← placed e)

mutual

/-- A value of any kind. -/
def value : Nat → Reader Value
  | 0 => fail .eofValue
  | fuel + 1 => do
    match ← skipBlanks with
    | none => failAhead .eofValue
    | some 'n' => eat; ident ['u', 'l', 'l']; pure .null
    | some 't' => eat; ident ['r', 'u', 'e']; pure (.bool true)
    | some 'f' => eat; ident ['a', 'l', 's', 'e']; pure (.bool false)
    | some '-' => eat; return .num (← number false)
    | some '"' => eat; return .str (← string)
    | some '[' => enclosed (return .arr (← items fuel true [])) endArray
    | some '{' => enclosed (return .obj (← fields fuel true [])) endObject
    | some ch =>
      if isDigit ch then return .num (← number true) else failAhead .expectedValue

/-- The items of an array, in order. -/
def items : Nat → Bool → List Value → Reader (List Value)
  | 0, _, _ => fail .eofList
  | fuel + 1, first, acc => do
    if ← nextItem first then
      let v ← value fuel
      items fuel false (v :: acc)
    else pure acc.reverse

/-- The fields of an object, a later value of a key replacing an earlier one. -/
def fields : Nat → Bool → List (String × Value) → Reader (List (String × Value))
  | 0, _, _ => fail .eofObject
  | fuel + 1, first, acc => do
    match ← nextKey first with
    | none => pure acc
    | some k =>
      colon
      let v ← value fuel
      fields fuel false (Value.insertField k v acc)

end

/-- Nothing but blanks may follow the value. -/
def finish : Reader Unit := do
  match ← skipBlanks with
  | none => pure ()
  | some _ => failAhead .trailingCharacters

/-- A string skipped after its opening quote: escapes are checked for shape only,
and a control character is refused where it stands. -/
def skipStringChars : Nat → Reader Unit
  | 0 => fail .eofString
  | fuel + 1 => do
    match ← peek with
    | none => fail .eofString
    | some '"' => eat
    | some '\\' =>
      eat
      match ← peek with
      | none => fail .eofString
      | some 'u' =>
        eat
        let _ ← hexEscape
        skipStringChars fuel
      | some ch =>
        if (escaped? ch).isSome then
          eat
          skipStringChars fuel
        else failAhead .invalidEscape
    | some ch =>
      if ch.toNat < 0x20 then fail .controlCharacter
      else
        eat
        skipStringChars fuel

def skipString : Reader Unit := do
  let fuel := (← get).rest.length + 1
  skipStringChars fuel

/-- An exponent skipped from its `e`: an optional sign and at least one digit. -/
def skipExponent : Reader Unit := do
  eat
  match ← peek with
  | some '+' | some '-' => eat
  | _ => pure ()
  match ← peek with
  | some ch =>
    if isDigit ch then
      eat
      skipWhile isDigit
    else failAhead .invalidNumber
  | none => fail .invalidNumber

/-- A number skipped after its sign; its size is not checked. -/
def skipNumber : Reader Unit := do
  match ← peek with
  | some '0' =>
    eat
    match ← peek with
    | some ch => if isDigit ch then failAhead .invalidNumber else pure ()
    | none => pure ()
  | some ch =>
    if isDigit ch then
      eat
      skipWhile isDigit
    else failAhead .invalidNumber
  | none => fail .invalidNumber
  match ← peek with
  | some '.' =>
    eat
    match ← peek with
    | some ch =>
      if isDigit ch then
        skipWhile isDigit
        match ← peek with
        | some 'e' | some 'E' => skipExponent
        | _ => pure ()
      else failAhead .invalidNumber
    | none => failAhead .invalidNumber
  | some 'e' | some 'E' => skipExponent
  | _ => pure ()

/-- What a value being skipped expects next. -/
inductive Expect where
  /-- a value -/
  | value
  /-- a key, its colon and its value, inside an object -/
  | member
  /-- a comma or the closing character of the innermost open array or object -/
  | after

/-- Skips a value without building it. The stack holds the open brackets and
braces, innermost first; arrays and objects open without a depth limit. -/
def skipValue : Nat → List Char → Expect → Reader Unit
  | 0, _, _ => fail .eofValue
  | fuel + 1, stack, .value => do
    match ← skipBlanks with
    | none => failAhead .eofValue
    | some 'n' => eat; ident ['u', 'l', 'l']; skipValue fuel stack .after
    | some 't' => eat; ident ['r', 'u', 'e']; skipValue fuel stack .after
    | some 'f' => eat; ident ['a', 'l', 's', 'e']; skipValue fuel stack .after
    | some '-' => eat; skipNumber; skipValue fuel stack .after
    | some '"' => eat; skipString; skipValue fuel stack .after
    | some '[' =>
      eat
      match ← skipBlanks with
      | some ']' => eat; skipValue fuel stack .after
      | some _ => skipValue fuel ('[' :: stack) .value
      | none => failAhead .eofList
    | some '{' =>
      eat
      match ← skipBlanks with
      | some '}' => eat; skipValue fuel stack .after
      | some _ => skipValue fuel ('{' :: stack) .member
      | none => failAhead .eofObject
    | some ch =>
      if isDigit ch then
        skipNumber
        skipValue fuel stack .after
      else failAhead .expectedValue
  | fuel + 1, stack, .member => do
    match ← skipBlanks with
    | some '"' =>
      eat
      skipString
      match ← skipBlanks with
      | some ':' =>
        eat
        skipValue fuel stack .value
      | some _ => failAhead .expectedColon
      | none => failAhead .eofObject
    | some _ => failAhead .keyMustBeString
    | none => failAhead .eofObject
  | fuel + 1, stack, .after => do
    match stack with
    | [] => pure ()
    | frame :: outer =>
      let inArray := frame == '['
      match ← skipBlanks with
      | some ',' =>
        eat
        skipValue fuel stack (if inArray then .value else .member)
      | some ch =>
        if (ch == ']' && inArray) || (ch == '}' && !inArray) then
          eat
          skipValue fuel outer .after
        else failAhead (if inArray then .expectedListCommaOrEnd else .expectedObjectCommaOrEnd)
      | none => failAhead (if inArray then .eofList else .eofObject)

/-- Runs a reader over a whole text. -/
def run {α : Type} (x : Reader α) (s : String) : Except ReadError α :=
  ((ExceptT.run x).run { rest := s.toList }).1

/-- A budget of steps that no reading of the text can exhaust. -/
def budget : Reader Nat := do return 2 * (← get).rest.length + 4

end Reader

/-- Reads a whole text as one value. -/
def Value.parse (s : String) : Except ReadError Value :=
  Reader.run (do
    let v ← Reader.value (← Reader.budget)
    Reader.finish
    pure v) s

end FrontCache.Json
