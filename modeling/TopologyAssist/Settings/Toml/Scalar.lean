import TopologyAssist.Settings.Toml.Text
import TopologyAssist.Settings.Value

/-!
The values of a configuration file without quotes: truth values, numbers, dates and times.

Numbers have 64 bits: a whole number with its sign, any other with a binary point. A date or time
is kept as the text that shows it.
-/

namespace TopologyAssist

namespace Toml

/-! ### Numbers -/

/-- Digits of a class, with single underscores between them: the digits without underscores. -/
def digits? (p : Char → Bool) (cs : List Char) : Option (List Char) :=
  match cs with
  | [] => none
  | [c] => if p c then some [c] else none
  | c :: d :: rest =>
    if p c then
      if d == '_' then (digits? p rest).map fun ds => c :: ds
      else (digits? p (d :: rest)).map fun ds => c :: ds
    else none

/-- A decimal whole number without a sign: no zero stands before other digits. -/
def whole? (cs : List Char) : Option (List Char) :=
  (digits? Char.isDigit cs).bind fun ds =>
    if 1 < ds.length ∧ ds.head? = some '0' then none else some ds

/-- A sign and the text behind it: whether it is a minus. -/
def signed : List Char → Bool × List Char
  | '-' :: rest => (true, rest)
  | '+' :: rest => (false, rest)
  | cs => (false, cs)

/-- The number that digits of a base make. -/
def number (base : Nat) (ds : List Char) : Nat :=
  ds.foldl (fun n c => n * base + (hexDigit? c).getD 0) 0

/-- The character is a digit of a base up to sixteen. -/
def isDigitOf (base : Nat) (c : Char) : Bool := (hexDigit? c).any fun d => d < base

/-- The number that decimal digits make, below zero behind a minus. -/
def signedNumber (minus : Bool) (ds : List Char) : Int :=
  if minus then -(number 10 ds : Int) else number 10 ds

/-- A whole number that fits into 64 bits with a sign. -/
def bounded? (n : Int) : Option ConfigValue :=
  if -9223372036854775808 ≤ n ∧ n ≤ 9223372036854775807 then some (.int n) else none

/-- A whole number: decimal with a sign, or hexadecimal, octal or binary without. -/
def integer? (cs : List Char) : Option ConfigValue :=
  match cs with
  | '0' :: 'x' :: ds => (digits? (isDigitOf 16) ds).bind fun ds => bounded? (number 16 ds)
  | '0' :: 'o' :: ds => (digits? (isDigitOf 8) ds).bind fun ds => bounded? (number 8 ds)
  | '0' :: 'b' :: ds => (digits? (isDigitOf 2) ds).bind fun ds => bounded? (number 2 ds)
  | _ =>
    let (minus, ds) := signed cs
    (whole? ds).bind fun ds => bounded? (signedNumber minus ds)

/-- A decimal number: a whole part, then a part behind a point or an exponent or both. What lies
beyond all numbers is refused above zero. -/
def float? (cs : List Char) : Option ConfigValue :=
  let (minus, cs) := signed cs
  if cs == ['i', 'n', 'f'] then some (.decimal (.infinite minus))
  else if cs == ['n', 'a', 'n'] then some (.decimal .nan)
  else
    let (mantissa, power) := cs.span fun c => c != 'e' && c != 'E'
    let (before, behind) := mantissa.span fun c => c != '.'
    if behind.isEmpty && power.isEmpty then none
    else do
      let before ← whole? before
      let behind ← if behind.isEmpty then some [] else digits? Char.isDigit (behind.drop 1)
      let exponent ←
        if power.isEmpty then some (0 : Int)
        else
          let (down, ds) := signed (power.drop 1)
          (digits? Char.isDigit ds).map (signedNumber down)
      let x := Binary64.ofDecimal minus (number 10 (before ++ behind)) (exponent - behind.length)
      if x = .infinite false then none else some (.decimal x)

/-- A character of a value without quotes. -/
def isWordChar (c : Char) : Bool := isBareChar c || c == '+' || c == '.'

/-- A value without quotes: a truth value or a number. -/
def word? (cs : List Char) : Option ConfigValue :=
  if cs == ['t', 'r', 'u', 'e'] then some (.bool true)
  else if cs == ['f', 'a', 'l', 's', 'e'] then some (.bool false)
  else (integer? cs).or (float? cs)

/-! ### Dates and times -/

/-- The number of two digits that a text begins with, within bounds, and the rest. -/
def pair? (least greatest : Nat) : List Char → Option (Nat × List Char)
  | a :: b :: rest =>
    if a.isDigit && b.isDigit then
      let n := number 10 [a, b]
      if least ≤ n ∧ n ≤ greatest then some (n, rest) else none
    else none
  | _ => none

/-- A text behind a character that it begins with. -/
def behind? (c : Char) : List Char → Option (List Char)
  | d :: rest => if c = d then some rest else none
  | [] => none

/-- The days of a month. -/
def monthDays (year month : Nat) : Nat :=
  if month = 2 then
    if year % 4 = 0 ∧ (year % 100 ≠ 0 ∨ year % 400 = 0) then 29 else 28
  else if [4, 6, 9, 11].contains month then 30
  else 31

/-- The date that a text begins with: the rest behind it. -/
def date? (cs : List Char) : Option (List Char) := do
  let (century, rest) ← pair? 0 99 cs
  let (year, rest) ← pair? 0 99 rest
  let (month, rest) ← pair? 1 12 (← behind? '-' rest)
  let (_, rest) ← pair? 1 (monthDays (100 * century + year) month) (← behind? '-' rest)
  return rest

/-- The time of day that a text begins with, up to its seconds: the rest behind it. -/
def clock? (cs : List Char) : Option (List Char) := do
  let (_, rest) ← pair? 0 23 cs
  let (_, rest) ← pair? 0 59 (← behind? ':' rest)
  let (_, rest) ← pair? 0 60 (← behind? ':' rest)
  return rest

/-- The parts of a second that a text begins with, to nine digits and without zeros that say
nothing, and the rest. -/
def fraction? (cs : List Char) : Option (List Char × List Char) :=
  match cs with
  | '.' :: rest =>
    let ds := rest.takeWhile Char.isDigit
    if ds.isEmpty then none
    else
      let kept := ((ds.take 9).reverse.dropWhile fun c => c == '0').reverse
      some (if kept.isEmpty then [] else '.' :: kept, rest.drop ds.length)
  | _ => some ([], cs)

/-- The time of day that a text begins with, as it is shown, and the rest. -/
def time? (cs : List Char) : Option (List Char × List Char) := do
  let rest ← clock? cs
  let (part, rest) ← fraction? rest
  return (cs.take 8 ++ part, rest)

/-- The hours and minutes behind a sign, as they are shown with it, and the rest. No distance at all
is shown with a plus. -/
def distance? (sign : Char) (cs : List Char) : Option (List Char × List Char) := do
  let (hours, rest) ← pair? 0 23 cs
  let (minutes, rest) ← pair? 0 59 (← behind? ':' rest)
  return ((if hours + minutes = 0 then '+' else sign) :: cs.take 5, rest)

/-- The distance from universal time that a text begins with, as it is shown, and the rest. -/
def offset? (cs : List Char) : Option (List Char × List Char) :=
  match cs with
  | 'Z' :: rest => some (['Z'], rest)
  | 'z' :: rest => some (['Z'], rest)
  | '+' :: rest => distance? '+' rest
  | '-' :: rest => distance? '-' rest
  | _ => some ([], cs)

/-- The date, time or both that a text begins with, as it is shown, and the rest. -/
def moment? (cs : List Char) : Option (List Char × List Char) :=
  match date? cs with
  | none => time? cs
  | some rest =>
    let day := cs.take 10
    let later : Option (List Char × List Char) := do
      match rest with
      | c :: rest =>
        if c == 'T' || c == 't' || c == ' ' then do
          let (time, rest) ← time? rest
          let (offset, rest) ← offset? rest
          return (day ++ 'T' :: time ++ offset, rest)
        else none
      | [] => none
    later.or (some (day, rest))

end Toml

end TopologyAssist
