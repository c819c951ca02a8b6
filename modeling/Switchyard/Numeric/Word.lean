/-! Machine words: how many numbers have so many bits, and the integers that fit 64 bits
with their sign. -/
namespace Switchyard.Numeric

def limit16 : Nat := 65536

def limit32 : Nat := 4294967296

def limit64 : Nat := 18446744073709551616

/-- Whether an integer fits 64 bits with its sign. -/
def fitsWord (n : Int) : Bool := -9223372036854775808 ≤ n && n < 9223372036854775808

/-- A magnitude with a sign. -/
def signed (negative : Bool) (n : Nat) : Int := if negative then -(n : Int) else n

end Switchyard.Numeric
