import FrontCache.Decimal.Shortest
/-!
Numbers of the JSON text format as this library reads and writes them. A number
is a non-negative integer below 2^64, a negative integer of at least -2^63, or a
binary64 float; the reader decides which from the text's shape and size.

Floats are written with the fewest digits that read back, laid out as a `Layout`
says: positionally from 10^-5 up to below 10^16, and with an exponent (`1e+16`,
`1e-6`) outside that.
-/
namespace FrontCache.Json

/-- A number as read: an unsigned 64-bit integer, a negative signed 64-bit integer,
or a float. -/
inductive Number where
  | nat (n : Nat)
  | neg (n : Int)
  | float (f : Float)

/-- `n` zeros. -/
def zeros (n : Nat) : String := String.ofList (List.replicate n '0')

/-- How the shortest digits of a float are laid out. The point's position is
counted from the first digit (1 for `1.5`, 0 for `0.5`, -1 for `0.05`); inside
`window` the digits are written positionally, an integral value keeping `.0`, and
outside it as `d.ddde+x` or `d.ddde-x`. -/
structure Layout where
  /-- the least and greatest positions of the point written positionally -/
  window : Int × Int
  /-- a positive exponent is written with its plus sign -/
  plusSign : Bool
  /-- the texts of NaN and of an infinity after its sign; `none` when there are none
  and every such value is written `null` -/
  special : Option (String × String)

/-- Numbers in JSON text: positional from 10^-5 up to below 10^16. -/
def Layout.json : Layout := ⟨(-4, 16), true, none⟩

/-- Numbers in messages: as in JSON text, with names for NaN and the infinities. -/
def Layout.message : Layout := ⟨(-4, 16), true, some ("NaN", "inf")⟩

/-- The position of the point lies in the layout's window. -/
def Layout.positional (l : Layout) (point : Int) : Bool :=
  l.window.1 ≤ point && point ≤ l.window.2

/-- A non-zero decimal, digits · 10^exp, laid out. -/
def Layout.decimal (l : Layout) (d : Decimal.Dec) : String :=
  let ds := toString d.digits
  let len : Int := ds.length
  let point := len + d.exp
  if l.positional point then
    if len ≤ point then ds ++ zeros (point - len).toNat ++ ".0"
    else if 0 < point then
      String.ofList (ds.toList.take point.toNat) ++ "." ++ String.ofList (ds.toList.drop point.toNat)
    else "0." ++ zeros (-point).toNat ++ ds
  else
    let e := point - 1
    let exp := "e" ++ (if l.plusSign && 0 ≤ e then "+" else "") ++ toString e
    match ds.toList with
    | [c] => String.singleton c ++ exp
    | c :: rest => String.singleton c ++ "." ++ String.ofList rest ++ exp
    | [] => exp

/-- The text of a float in a layout: its sign, then its fewest digits that read back. -/
def Layout.float (l : Layout) (f : Float) : String :=
  let bits := f.toBits
  let sign := if bits >>> 63 == 1 then "-" else ""
  if (bits >>> 52) &&& 0x7FF == 0x7FF then
    match l.special with
    | some (nan, inf) => if bits &&& 0xFFFFFFFFFFFFF == 0 then sign ++ inf else nan
    | none => "null"
  else
    let x := Decimal.Binary.ofBits bits
    if x.m == 0 then sign ++ "0.0" else sign ++ l.decimal x.shortest

def Number.text : Number → String
  | .nat n => toString n
  | .neg n => toString n
  | .float f => Layout.json.float f

/-- 10^i as a float, correctly rounded. -/
def pow10 (i : Nat) : Float := Float.ofScientific 1 false i

/-- Divides by 10^308 until the remaining exponent fits the table; `none` when a
positive exponent does not fit. -/
def scaleDown (f : Float) (e : Int) : Option Float :=
  if e.natAbs ≤ 308 then
    if 0 ≤ e then
      let g := f * pow10 e.toNat
      if g.isInf then none else some g
    else some (f / pow10 e.natAbs)
  else if f == 0 then some f
  else if 0 ≤ e then none
  else scaleDown (f / pow10 308) (e + 308)
termination_by e.natAbs
decreasing_by omega

/-- The float of a sign, a 64-bit significand and a decimal exponent: the significand
rounded to a float, then multiplied or divided by a power of ten. `none` when the
result overflows. -/
def floatOfParts (positive : Bool) (significand : Nat) (exponent : Int) : Option Float :=
  (scaleDown significand.toUInt64.toFloat exponent).map fun f => if positive then f else -f

end FrontCache.Json
