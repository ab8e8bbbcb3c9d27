import FrontCache.Json.Value
import FrontCache.Fault
import FrontCache.Counters
import FrontCache.Bytes.Hex
import FrontCache.Store.Basic
/-!
The request-and-answer protocol: one JSON request a line, one JSON answer a line.
A request names its operation in the field `op`; the fields it needs are read one
at a time, and the first that is missing or of the wrong kind makes the answer a
bad-input one. A field holding `null` counts as missing, and so does a list field
that holds no array. A step reads its switches and options before the paths and
handles it acts on.

An answer is a value, a failure of the tree (its cause, text, category and error
number), a bad input, a text that could not be read, or the failure of a hook.
-/
namespace FrontCache.Protocol

open Json

/-- Reading a request's fields; a failure is the text of a bad-input answer. -/
abbrev Decode := Except String

def missing (k : String) : String := "missing field `" ++ k ++ "`"

def mustBe (k what : String) : String := "field `" ++ k ++ "` must be " ++ what

/-- A field's value; `null` counts as absent. -/
def field? (v : Value) (k : String) : Option Value :=
  match v.get? k with
  | some .null => none
  | r => r

def str (v : Value) (k : String) : Decode String :=
  match field? v k with
  | some (.str s) => pure s
  | some _ => throw (mustBe k "a string")
  | none => throw (missing k)

def strOr (v : Value) (k : String) (d : String) : Decode String :=
  match field? v k with
  | some (.str s) => pure s
  | some _ => throw (mustBe k "a string")
  | none => pure d

def boolOr (v : Value) (k : String) (d : Bool) : Decode Bool :=
  match field? v k with
  | some (.bool b) => pure b
  | some _ => throw (mustBe k "a boolean")
  | none => pure d

/-- An unsigned 64-bit integer, if the field is present. -/
def nat? (v : Value) (k : String) : Decode (Option Nat) :=
  match field? v k with
  | some (.num (.nat n)) => pure (some n)
  | some _ => throw (mustBe k "an unsigned 64-bit integer")
  | none => pure none

def nat (v : Value) (k : String) : Decode Nat := do
  match ← nat? v k with
  | some n => pure n
  | none => throw (missing k)

def natOr (v : Value) (k : String) (d : Nat) : Decode Nat := return (← nat? v k).getD d

def path (v : Value) (k : String) : Decode Path := return Path.ofString (← str v k)

/-- Bytes given as `hex` or, when that is absent, as `data` (text); neither given is
no bytes. -/
def bytes (v : Value) : Decode (List UInt8) := do
  match field? v "hex" with
  | some (.str s) =>
    match Hex.decode? s with
    | some b => pure b
    | none => throw "field `hex` is not valid hex"
  | some _ => throw (mustBe "hex" "a string")
  | none =>
    match field? v "data" with
    | some (.str s) => pure s.toUTF8.toList
    | some _ => throw (mustBe "data" "a string")
    | none => pure []

/-- The items of an array field; a field that holds no array counts as absent. -/
def items? (v : Value) (k : String) : Option (List Value) :=
  match field? v k with
  | some (.arr xs) => some xs
  | _ => none

/-- A list of strings. -/
def strings (v : Value) (k : String) : Decode (List String) :=
  match items? v k with
  | some xs =>
    xs.mapM fun
      | .str s => pure s
      | _ => throw ("field `" ++ k ++ "` must hold strings")
  | none => throw (missing k)

/-- The name of a step's operation: a bare string, or the object's `op`. -/
def opName (v : Value) : Decode String :=
  match v with
  | .str s => pure s
  | _ => str v "op"

def unknownOp (op : String) : String := "unknown op `" ++ op ++ "`"

/-- How a request was answered. -/
inductive Answer where
  | ok (v : Value)
  | failed (e : Error)
  | badInput (text : String)
  | unreadable (text : String)
  | panicked (text : String)

def errorFields (e : Error) : List (String × Value) :=
  [("error", .str e.kindName), ("message", .str e.message),
    ("category", .str e.category.name), ("errno", .nat e.category.errno)]

def Answer.fields : Answer → List (String × Value)
  | .ok v => [("ok", v)]
  | .failed e => errorFields e
  | .badInput t => [("error", .str "BadInput"), ("message", .str t)]
  | .unreadable t => [("error", .str "SerdeJson"), ("message", .str t)]
  | .panicked t => [("error", .str "Panic"), ("message", .str t)]

/-- The answer as an object, with extra fields after its own. -/
def Answer.toValue (a : Answer) (extra : List (String × Value)) : Value := .obj (a.fields ++ extra)

/-- The answer of a decoding that gives an answer. -/
def Answer.ofDecode : Decode Answer → Answer
  | .ok a => a
  | .error t => .badInput t

/-- The answer of a tree operation. -/
def Answer.ofResult {α : Type} (f : α → Value) : Except Error α → Answer
  | .ok a => .ok (f a)
  | .error e => .failed e

def pathValue (p : Path) : Value := .str p.display

def hexValue (b : List UInt8) : Value := .str (Hex.encode b)

def countersValue (c : Counters) : Value :=
  .obj [("evictions", .nat c.evictions), ("hit_rate", .num (.float c.hitRate)),
    ("hits", .nat c.hits), ("inserts", .nat c.inserts), ("misses", .nat c.misses),
    ("rejected", .nat c.rejected)]

def entryValue (e : Entry) : Value :=
  .obj [("id", .nat e.id), ("is_folder", .bool e.isFolder), ("name", .str e.name),
    ("size", .nat e.size)]

/-- An entry given as an object: `id` is needed, the rest default to an empty
name, a file, and size 0. -/
def entryOf (v : Value) : Decode Entry := do
  match field? v "entry" with
  | none => throw (missing "entry")
  | some e =>
    let id ← nat e "id"
    let name ← strOr e "name" ""
    let isFolder ← boolOr e "is_folder" false
    let size ← natOr e "size" 0
    pure { id, name, isFolder, size }

end FrontCache.Protocol
