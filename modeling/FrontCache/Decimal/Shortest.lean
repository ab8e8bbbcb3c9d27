/-!
The fewest decimal digits that identify a binary64 value. A finite value m · 2^q
stands for the interval of reals that round to it: from halfway to its lower
neighbour to halfway to its upper one, the ends included exactly when m is even.
A decimal identifies the value when it lies in that interval (`readsBack`).

`shortest` tries grids 10^(k-1), 10^(k-2), … from the value's leading digit down,
and on each grid the value's two neighbours; the first grid with a neighbour in
the interval wins, of two the nearer, and of two equally near the even one.
All comparisons are exact products of naturals.
-/
namespace FrontCache.Decimal

/-- A finite non-negative binary64 value m · 2^q. -/
structure Binary where
  m : Nat
  q : Int
  /-- the gap to the value below is half the gap to the value above -/
  narrowBelow : Bool

/-- The magnitude of a finite value from its bits; the sign bit is ignored. -/
def Binary.ofBits (b : UInt64) : Binary :=
  let e := ((b >>> 52) &&& 0x7FF).toNat
  let f := (b &&& 0xFFFFFFFFFFFFF).toNat
  if e == 0 then ⟨f, -1074, false⟩ else ⟨Nat.pow 2 52 + f, (e : Int) - 1075, f == 0 && e > 1⟩

/-- The decimal digits · 10^exp. -/
structure Dec where
  digits : Nat
  exp : Int
  deriving DecidableEq, Repr

/-- Compares a · 10^i with n · 2^j, exactly. -/
def cmpScaled (a : Nat) (i : Int) (n : Nat) (j : Int) : Ordering :=
  compare (a * Nat.pow 10 i.toNat * Nat.pow 2 (-j).toNat)
    (n * Nat.pow 2 j.toNat * Nat.pow 10 (-i).toNat)

/-- `d` lies among the reals that round to `x` (to nearest, ties to even). -/
def Binary.readsBack (x : Binary) (d : Dec) : Bool :=
  let lo := if x.narrowBelow then 4 * x.m - 1 else 4 * x.m - 2
  let hi := 4 * x.m + 2
  let incl := x.m % 2 == 0
  let cl := cmpScaled d.digits d.exp lo (x.q - 2)
  let ch := cmpScaled d.digits d.exp hi (x.q - 2)
  (cl == .gt || (incl && cl == .eq)) && (ch == .lt || (incl && ch == .eq))

/-- The value is below 10^k. -/
def Binary.below (x : Binary) (k : Int) : Bool := cmpScaled 1 k x.m x.q == .gt

/-- The least k with the value below 10^k, for a non-zero value: a first guess from
the binary length, then a search upward over a few exponents. -/
def Binary.scale (x : Binary) : Int :=
  let guess : Int := ((Nat.log2 x.m : Int) + x.q) * 78913 / 262144 - 2
  ((List.range 8).map (fun i : Nat => guess + (i : Int))).find? x.below |>.getD (guess + 8)

/-- The value's lower neighbour on the grid 10^g, and whether twice the value lies
below, on or above the midpoint of the two neighbours. -/
def Binary.neighbours (x : Binary) (g : Int) : Nat × Ordering :=
  let num := x.m * Nat.pow 2 x.q.toNat * Nat.pow 10 (-g).toNat
  let den := Nat.pow 2 (-x.q).toNat * Nat.pow 10 g.toNat
  let c := num / den
  (c, compare (2 * num) ((2 * c + 1) * den))

/-- The pick on one grid: a neighbour that reads back, the nearer of two, the even
one of two equally near. -/
def Binary.onGrid (x : Binary) (g : Int) : Option Dec :=
  let (c, mid) := x.neighbours g
  let lo : Dec := ⟨c, g⟩
  let hi : Dec := ⟨c + 1, g⟩
  match x.readsBack lo, x.readsBack hi with
  | true, true =>
    match mid with
    | .lt => some lo
    | .gt => some hi
    | .eq => some (if c % 2 == 0 then lo else hi)
  | true, false => some lo
  | false, true => some hi
  | false, false => none

/-- Trailing zeros of the digits moved into the exponent. -/
def Dec.strip (d : Dec) : Dec :=
  if h : d.digits ≠ 0 ∧ d.digits % 10 = 0 then
    Dec.strip ⟨d.digits / 10, d.exp + 1⟩
  else d
termination_by d.digits
decreasing_by exact Nat.div_lt_self (Nat.pos_of_ne_zero h.1) (by decide)

/-- The value written out in full. -/
def Binary.exact (x : Binary) : Dec :=
  if 0 ≤ x.q then ⟨x.m * Nat.pow 2 x.q.toNat, 0⟩ else ⟨x.m * Nat.pow 5 (-x.q).toNat, x.q⟩

/-- The fewest digits that read back, for a non-zero value; seventeen always do,
and the exact value stands behind them. -/
def Binary.shortest (x : Binary) : Dec :=
  let k := x.scale
  let found := (List.range 17).findSome? fun (n : Nat) => x.onGrid (k - 1 - Int.ofNat n)
  (found.getD x.exact).strip

end FrontCache.Decimal
