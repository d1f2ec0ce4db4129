/-!
# Binary64 numbers

A finite binary64 number is a whole number of *units*, one unit being `2 ^ -1074`, the least positive
subnormal. Every operation computes exactly on whole numbers and then rounds once, to the nearest
representable number, a tie going to the even significand. No operation refers to a machine type.
-/

namespace Totality

/-- The quotient `num / den` rounded to the nearest whole number, a half to the even neighbour. -/
def roundHalfEven (num den : Nat) : Nat :=
  let q := num / den
  let r := num % den
  if 2 * r < den then q
  else if den < 2 * r then q + 1
  else if q % 2 = 0 then q else q + 1

/-- The nearest value of the range `lo ≤ z ≤ hi`. -/
def clampInt (lo hi z : Int) : Int := max lo (min hi z)

/-- The range of 64-bit signed words. -/
def wordMin : Int := -9223372036854775808

def wordMax : Int := 9223372036854775807

namespace Binary64

/-- The number of units in `1`. -/
def scale : Nat := Nat.pow 2 1074

/-- The distance between neighbouring binary64 numbers at `n` units: 53 significant bits. -/
def spacing (n : Nat) : Nat := Nat.pow 2 (n.log2 - 52)

/-- The largest finite magnitude, in units. -/
def maxUnits : Nat := 9007199254740991 * Nat.pow 2 2045

/-- A magnitude in units that needs at most 53 significant bits and does not overflow. -/
def Representable (n : Nat) : Prop := n % spacing n = 0 ∧ n ≤ maxUnits

instance (n : Nat) : Decidable (Representable n) :=
  inferInstanceAs (Decidable (_ ∧ _))

theorem representable_zero : Representable 0 := ⟨Nat.zero_mod _, Nat.zero_le _⟩

/-- `num / den` units rounded to 53 significant bits, as if the exponent had no upper bound. -/
def roundUnits (num den : Nat) : Nat :=
  let s := spacing (num / den)
  roundHalfEven num (den * s) * s

end Binary64

/-- A binary64 number. Zero is signed; there is one not-a-number. -/
inductive Binary64 where
  | nan
  | infinity (negative : Bool)
  | finite (negative : Bool) (units : Nat) (representable : Binary64.Representable units)
  deriving DecidableEq

namespace Binary64

def zero (negative : Bool) : Binary64 := .finite negative 0 representable_zero

instance : Inhabited Binary64 := ⟨zero false⟩

/-- The binary64 number nearest to `± num / den` units; infinite from half a spacing above `maxUnits`. -/
def ofUnits (negative : Bool) (num den : Nat) : Binary64 :=
  let n := roundUnits num den
  if h : Representable n then .finite negative n h else .infinity negative

/-- The binary64 number nearest to `z`. -/
def ofInt (z : Int) : Binary64 := ofUnits (decide (z < 0)) (z.natAbs * scale) 1

def one : Binary64 := ofInt 1

/-- A magnitude in units with a sign. -/
def signed (negative : Bool) (n : Nat) : Int := if negative then -(n : Int) else n

/-! ### Order

Numbers are compared through their place on the line of units, with both infinities one place beyond
the largest rounded magnitude. Not-a-number has no place and compares false with everything.
-/

/-- The place of a number on the line of units. -/
def place : Binary64 → Option Int
  | .nan => none
  | .infinity s => some (signed s (Nat.pow 2 2098))
  | .finite s n _ => some (signed s n)

def lt (x y : Binary64) : Bool :=
  match x.place, y.place with
  | some a, some b => decide (a < b)
  | _, _ => false

def le (x y : Binary64) : Bool :=
  match x.place, y.place with
  | some a, some b => decide (a ≤ b)
  | _, _ => false

/-- Numerical equality: the zeros are equal, not-a-number differs from itself. -/
def eqv (x y : Binary64) : Bool :=
  match x.place, y.place with
  | some a, some b => decide (a = b)
  | _, _ => false

theorem le_trans {x y z : Binary64} (h : x.le y) (h' : y.le z) : x.le z := by
  simp only [le] at *
  split at h <;> split at h' <;> simp_all
  omega

def isFinite : Binary64 → Bool
  | .finite .. => true
  | _ => false

/-! ### Arithmetic -/

def neg : Binary64 → Binary64
  | .nan => .nan
  | .infinity s => .infinity !s
  | .finite s n h => .finite (!s) n h

/-- An exact sum of zero is negative only if both terms are. -/
def add : Binary64 → Binary64 → Binary64
  | .nan, _ => .nan
  | _, .nan => .nan
  | .infinity s, .infinity t => if s = t then .infinity s else .nan
  | .infinity s, .finite .. => .infinity s
  | .finite .., .infinity t => .infinity t
  | .finite s m _, .finite t n _ =>
    let z := signed s m + signed t n
    if z = 0 then zero (s && t) else ofUnits (decide (z < 0)) z.natAbs 1

def sub (x y : Binary64) : Binary64 := add x (neg y)

def mul : Binary64 → Binary64 → Binary64
  | .nan, _ => .nan
  | _, .nan => .nan
  | .infinity s, .infinity t => .infinity (s != t)
  | .infinity s, .finite t n _ => if n = 0 then .nan else .infinity (s != t)
  | .finite s m _, .infinity t => if m = 0 then .nan else .infinity (s != t)
  | .finite s m _, .finite t n _ => ofUnits (s != t) (m * n) scale

def div : Binary64 → Binary64 → Binary64
  | .nan, _ => .nan
  | _, .nan => .nan
  | .infinity _, .infinity _ => .nan
  | .infinity s, .finite t _ _ => .infinity (s != t)
  | .finite s _ _, .infinity t => zero (s != t)
  | .finite s m _, .finite t n _ =>
    if n = 0 then (if m = 0 then .nan else .infinity (s != t))
    else ofUnits (s != t) (m * scale) n

instance : Neg Binary64 := ⟨neg⟩
instance : Add Binary64 := ⟨add⟩
instance : Sub Binary64 := ⟨sub⟩
instance : Mul Binary64 := ⟨mul⟩
instance : Div Binary64 := ⟨div⟩

/-! ### Whole numbers -/

/-- The whole part, toward zero, moved into `lo ≤ z ≤ hi`; not-a-number gives zero. -/
def truncateTo (lo hi : Int) : Binary64 → Int
  | .nan => 0
  | .infinity s => if s then lo else hi
  | .finite s n _ => clampInt lo hi (signed s (n / scale))

/-- The nearest whole number, a half away from zero, moved into `lo ≤ z ≤ hi`; not-a-number gives zero. -/
def roundTo (lo hi : Int) : Binary64 → Int
  | .nan => 0
  | .infinity s => if s then lo else hi
  | .finite s n _ => clampInt lo hi (signed s ((2 * n + scale) / (2 * scale)))

end Binary64

end Totality
