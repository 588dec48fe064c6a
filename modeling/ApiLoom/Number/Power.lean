/-!
# Powers

The powers of the bases in which numbers are held and written.
-/

namespace ApiLoom.Number

def twoTo (n : Nat) : Nat := Nat.pow 2 n

def tenTo (n : Nat) : Nat := Nat.pow 10 n

end ApiLoom.Number
