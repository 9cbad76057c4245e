/-! # Powers of two and of ten -/

namespace CelWhere

/-- Two to the power of a number. -/
def twoTo (exponent : Nat) : Nat := Nat.pow 2 exponent

/-- Ten to the power of a number. -/
def tenTo (exponent : Nat) : Nat := Nat.pow 10 exponent

@[simp] theorem tenTo_zero : tenTo 0 = 1 := rfl

theorem tenTo_succ (exponent : Nat) : tenTo (exponent + 1) = tenTo exponent * 10 := rfl

end CelWhere
