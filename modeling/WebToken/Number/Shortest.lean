import WebToken.Number.Binary64

/-! The shortest decimal that rounds to a given binary number, and of those the nearest to it. -/

namespace WebToken

/-- The number `digits · 10 ^ exponent`. -/
structure Decimal where
  digits : Nat
  exponent : Int
deriving DecidableEq, Repr

namespace Decimal

/-- The numbers that round to `m · 2 ^ q`, in quarters of `2 ^ q`: from `low` to `high`, ends
included iff `closed`. Below a power of two numbers lie twice as dense. -/
structure Interval where
  low : Nat
  centre : Nat
  high : Nat
  closed : Bool

def Interval.of (significand : Nat) (exponent : Int) : Interval where
  low := if significand = 1 <<< 52 ∧ -1074 < exponent then 4 * significand - 1
    else 4 * significand - 2
  centre := 4 * significand
  high := 4 * significand + 2
  closed := significand % 2 = 0

/-- The point of the grid `10 ^ power` that lies in the interval, nearest to its centre; a tie goes
to the even one. -/
def pointOn? (interval : Interval) (exponent power : Int) : Option Nat :=
  let quarter := Nat.pow 10 (-power).toNat <<< (exponent - 2).toNat
  let step := Nat.pow 10 power.toNat <<< (2 - exponent).toNat
  let inside (point : Nat) : Bool :=
    if interval.closed then
      interval.low * quarter ≤ point * step && point * step ≤ interval.high * quarter
    else interval.low * quarter < point * step && point * step < interval.high * quarter
  let below := interval.centre * quarter / step
  let above := below + 1
  match inside below, inside above with
  | false, false => none
  | true, false => some below
  | false, true => some above
  | true, true =>
      let toBelow := interval.centre * quarter - below * step
      let toAbove := above * step - interval.centre * quarter
      if toBelow < toAbove ∨ toBelow = toAbove ∧ below % 2 = 0 then some below else some above

/-- The powers of ten that can be the grid of a shortest decimal, coarsest first. -/
def powers : List Int :=
  (List.range 652).map fun (i : Nat) => 308 - (i : Int)

/-- The shortest decimal that rounds to `significand · 2 ^ exponent`: the coarsest grid with a
point that does gives it. -/
def shortest (significand : Nat) (exponent : Int) : Decimal :=
  let interval := Interval.of significand exponent
  let found := powers.findSome? fun power =>
    (pointOn? interval exponent power).map fun digits => Decimal.mk digits power
  found.getD ⟨0, 0⟩

end Decimal

end WebToken
