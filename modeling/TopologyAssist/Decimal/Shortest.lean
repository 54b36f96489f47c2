import TopologyAssist.Decimal.Binary64

/-!
Numbers as they are written: with the fewest decimal digits that stand for them.

All decimal numbers nearer to a number than to its neighbours stand for it. They fill an interval,
and those with the fewest digits lie on the coarsest decimal grid that meets it.
-/

namespace TopologyAssist

namespace Binary64

/-- The interval of a number `m · 2 ^ q` that is not zero: its ends and the number itself, measured
in `2 ^ (q - 2)`. Below a number with a single binary digit the next one is half as far. -/
def interval (m : Nat) (q : Int) : Nat × Nat × Nat :=
  (if m = fullDigits ∧ leastPower < q then 4 * m - 1 else 4 * m - 2, 4 * m, 4 * m + 2)

/-- The multiple of `10 ^ k` that stands for `m · 2 ^ q`, if there is one: the nearer one of two,
and the greater one from the middle. The ends of the interval belong to it if `m` is even. -/
def onGrid? (m : Nat) (q k : Int) : Option Nat :=
  let (low, value, high) := interval m q
  let scale := Nat.pow 2 (q - 2).toNat * Nat.pow 10 (-k).toNat
  let unit := Nat.pow 2 (2 - q).toNat * Nat.pow 10 k.toNat
  let within (n : Nat) : Bool :=
    if m % 2 = 0 then low * scale ≤ n * unit && n * unit ≤ high * scale
    else low * scale < n * unit && n * unit < high * scale
  let below := value * scale / unit
  let above := below + 1
  let rest := value * scale % unit
  if within below && (!within above || 2 * rest < unit) then some below
  else if within above then some above
  else none

/-- The coarsest of the grids `10 ^ k`, `10 ^ (k - 1)` and so on that meets the interval of
`m · 2 ^ q`: the multiple and the exponent. -/
def coarsest? (m : Nat) (q : Int) : Nat → Int → Option (Nat × Int)
  | 0, _ => none
  | steps + 1, k =>
    match onGrid? m q k with
    | some n => some (n, k)
    | none => coarsest? m q steps (k - 1)

/-- The decimal number `n · 10 ^ k` with the fewest digits that stands for `m · 2 ^ q`. No interval
reaches beyond `10 ^ 310`, and every interval meets the grid `10 ^ (-330)`. -/
def shortest (m : Nat) (q : Int) : Nat × Int := (coarsest? m q 641 310).getD (0, 0)

/-- The digits of `n · 10 ^ k`, with a point where it is needed. -/
def positional (n : Nat) (k : Int) : List Char :=
  let digits := Nat.toDigits 10 n
  if 0 ≤ k then digits ++ List.replicate k.toNat '0'
  else
    let point := digits.length - (-k).toNat
    let whole := digits.take point
    let part := List.replicate ((-k).toNat - digits.length) '0' ++ digits.drop point
    (if whole.isEmpty then ['0'] else whole) ++ '.' :: part

/-- A number as it is written. -/
def text : Binary64 → String
  | finite minus m q =>
    let (n, k) := if m = 0 then (0, 0) else shortest m q
    (if minus then "-" else "") ++ String.ofList (positional n k)
  | infinite minus => if minus then "-inf" else "inf"
  | nan => "NaN"

/-- A number as it is written where it must not look like a whole number. -/
def pointedText (x : Binary64) : String :=
  match x with
  | finite _ _ _ => if x.text.contains '.' then x.text else x.text ++ ".0"
  | _ => x.text

end Binary64

end TopologyAssist
