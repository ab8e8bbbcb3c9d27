import FrontCache.Options
import FrontCache.Json.Mismatch
/-!
Options in JSON. The switches are the keys `ignoreAppleDouble`,
`disableFileCache` and `readOnly`; each may be left out. They are read from an
object, where other keys are skipped and a key given twice is refused, or from an
array of up to three booleans in that order. From an environment map a switch is
on when its key is present with `null` or `true`.
-/
namespace FrontCache.Options

/-- The keys of the switches, in their declared order. -/
def keys : List String := ["ignoreAppleDouble", "disableFileCache", "readOnly"]

/-- What the text is expected to be, in error texts. -/
def expected : String := "struct DriverOptions"

/-- The switch at a position of `keys`, set. -/
def setAt (o : Options) : Nat → Bool → Options
  | 0, b => { o with ignoreSidecars := b }
  | 1, b => { o with disableFileCache := b }
  | _, b => { o with readOnly := b }

def toValue (o : Options) : Json.Value :=
  .obj [("disableFileCache", .bool o.disableFileCache),
    ("ignoreAppleDouble", .bool o.ignoreSidecars), ("readOnly", .bool o.readOnly)]

/-- A switch is on when its key is present with `null` or `true`. -/
def ofEnv (env : List (String × Json.Value)) : Options :=
  let on (k : String) : Bool :=
    let found : Option Json.Value := (env.find? (·.1 == k)).map (·.2)
    match found with
    | some .null | some (.bool true) => true
    | _ => false
  { ignoreSidecars := on "ignoreAppleDouble", disableFileCache := on "disableFileCache",
    readOnly := on "readOnly" }

open Json Json.Reader

/-- Switches read so far from an object, by position of `keys`. -/
abbrev Seen := List (Option Bool)

/-- The options of what was seen, unseen switches off. -/
def ofSeen (s : Seen) : Options :=
  (List.range 3).foldl (fun o i => setAt o i ((s.getD i none).getD false)) {}

/-- The members of an object, from the first key on. -/
def members : Nat → Bool → Seen → Reader Seen
  | 0, _, s => pure s
  | fuel + 1, first, s => do
    match ← nextKey first with
    | none => pure s
    | some k =>
      match keys.idxOf? k with
      | some i =>
        if (s.getD i none).isSome then throw { text := "duplicate field `" ++ k ++ "`" }
        else
          colon
          let b ← bool
          members fuel false (s.set i (some b))
      | none =>
        colon
        skipValue (← budget) [] .value
        members fuel false s

/-- One element of the array form; `none` once the array has ended. -/
def element (first : Bool) : Reader (Option Bool) := do
  if ← nextItem first then return some (← bool) else pure none

/-- The array form: up to three booleans in the order of `keys`. -/
def elements : Reader Seen := do
  let a ← element true
  let b ← element a.isNone
  let c ← element (a.isNone && b.isNone)
  pure [a, b, c]

/-- Options as an object or an array; any other value is a mismatch. -/
def reader : Reader Options := do
  match ← skipBlanks with
  | none => failAhead .eofValue
  | some '[' => return ofSeen (← enclosed elements endArray)
  | some '{' => return ofSeen (← enclosed (do members (← budget) true [none, none, none]) endObject)
  | some _ => throw (← placed (← mismatchHere expected))

/-- Options from JSON text; errors carry their line and column. -/
def ofText (s : String) : Except ReadError Options :=
  Reader.run (do
    let o ← reader
    finish
    pure o) s

/-- A switch from a value that must be a boolean. -/
def boolOf : Value → Except ReadError Bool
  | .bool b => .ok b
  | v => .error (mismatch (.ofValue v) "a boolean")

/-- Options from a value already read; errors carry no place. Object keys are
taken in order, and an array longer than three is refused. -/
def ofValue : Value → Except ReadError Options
  | .obj fields =>
    let step (o : Options) (kv : String × Value) : Except ReadError Options :=
      match keys.idxOf? kv.1 with
      | some i => return setAt o i (← boolOf kv.2)
      | none => pure o
    fields.foldlM step {}
  | .arr items => do
    let mut o : Options := {}
    for i in [0:3] do
      match items[i]? with
      | some v => o := setAt o i (← boolOf v)
      | none => pure ()
    if items.length > 3 then
      throw { text := "invalid length " ++ toString items.length ++
        ", expected fewer elements in array" }
    pure o
  | v => .error (mismatch (.ofValue v) expected)

end FrontCache.Options
