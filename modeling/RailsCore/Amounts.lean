import Mathlib.Algebra.Order.Ring.Cast
import RailsCore.Numerals
import RailsCore.UsersService

/-!
# The amount of a money request

A request names its amount as a JSON number of cents, as a string of cents, or
as a string of dollars that an `f64` stands in for. The last cast to cents
saturates, so that an amount which is no number at all, or more than the cents
can hold, is accepted as the nearest amount that there is.
-/

namespace RailsCore.Amounts
open Numerals UsersService

/-- A number of `serde_json`. -/
inductive Number where
  | posInt (n : UInt64)
  | negInt (n : Int64) (negative : n < 0)
  | float (f : Float.Model) (finite : f.isFinite = true)

/-- A value of `serde_json`, without what arrays and objects hold. -/
inductive Value where
  | null
  | bool (b : Bool)
  | number (n : Number)
  | string (s : String)
  | array
  | object

def Number.asI64 : Number → Option Int64
  | .posInt n => if n.toNat ≤ Int64.maxValue.toInt then some n.toInt64 else none
  | .negInt n _ => some n
  | .float _ _ => none

/-- `f64::round`: to the nearest integer, and half-way away from zero. -/
def round (f : Float.Model) : Float.Model :=
  match f.unpack with
  | .finite sign mantissa exponent _ =>
    if 0 ≤ exponent then f
    else
      let places := (-exponent).toNat
      let nearest := (2 * mantissa + 2 ^ places) / 2 ^ (places + 1)
      Float.Model.pack (.round .binary64 sign nearest 0)
  | _ => f

def deserializeAmount : Value → Except String Int64
  | .number n => match n.asI64 with
    | some amount => .ok amount
    | none => .error "amount must be a valid integer"
  | .string s =>
    let s := trim s
    match parseI64 s.toList with
    | some n => .ok n
    | none => match parseF64 s.toList with
      | some f => .ok (round (f * Float.Model.ofNat 100)).toInt64
      | none => .error "amount must be a number or numeric string"
  | _ => .error "amount must be a number or string"

/-! ## What the amount denotes -/

/-- The cents that a value denotes. -/
inductive Cents : Value → ℚ → Prop
  | posInt {n : UInt64} : Cents (.number (.posInt n)) n.toNat
  | negInt {n : Int64} {negative : n < 0} : Cents (.number (.negInt n negative)) n.toInt
  | cents {s : String} {n : Int} : IntegerText (trim s).toList n → Cents (.string s) n
  | dollars {s : String} {q : ℚ} : DecimalText (trim s).toList q →
    (∀ n, ¬ IntegerText (trim s).toList n) → Cents (.string s) (100 * q)

/-- Cents that an `i64` holds. -/
def Fits (cents : ℚ) : Prop := Int64.minValue.toInt ≤ cents ∧ cents ≤ Int64.maxValue.toInt

end RailsCore.Amounts
