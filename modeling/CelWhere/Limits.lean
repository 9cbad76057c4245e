/-! # Limits

The bounds on what is accepted and written. -/

namespace CelWhere

/-- The depth up to which expressions are converted if no other limit is set. -/
def defaultMaxDepth : Int := 100

/-- The length up to which SQL texts may grow if no other limit is set. -/
def defaultMaxLength : Int := 50000

/-- The most comprehensions that may be nested. -/
def comprehensionLimit : Nat := 3

/-- The most bytes of a literal that is written out. -/
def bytesLimit : Nat := 10000

/-- The largest number by which an element may be selected. -/
def indexLimit : Int := 2147483648

/-- The most characters of a pattern. -/
def Regex.lengthLimit : Nat := 500

/-- The most levels of nested groups in a pattern. -/
def Regex.nestingLimit : Nat := 10

/-- The most capturing groups in a pattern. -/
def Regex.groupLimit : Nat := 20

end CelWhere
