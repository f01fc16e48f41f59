-- SUMMARY: The shapes of operand lists, and sets of them.

/-!
# Shapes

A command has operands of exactly one shape, an instruction accepts one or more of the shapes. Each
shape has a bit of its own, and a set of shapes is a number with the bits of its members. Bits that
belong to no shape count as further shapes, of which nothing is known.
-/

namespace Drama

inductive Shape
  | nullary
  | register
  | registers
  | address
  | registerAddress
  | conditionAddress
deriving DecidableEq

namespace Shape

def all : List Shape :=
  [.nullary, .register, .registers, .address, .registerAddress, .conditionAddress]

def bit : Shape → Nat
  | .nullary => 1
  | .register => 2
  | .registers => 4
  | .address => 8
  | .registerAddress => 16
  | .conditionAddress => 32

/-- The operands of the shape in words. -/
def name : Shape → String
  | .nullary => "nullary"
  | .register => "register"
  | .registers => "register, register"
  | .address => "address"
  | .registerAddress => "register, address"
  | .conditionAddress => "condition, address"

/-- Whether one of the operands is an address. -/
def hasAddress : Shape → Bool
  | .nullary | .register | .registers => false
  | .address | .registerAddress | .conditionAddress => true

end Shape

structure ShapeSet where
  bits : Int
deriving DecidableEq

namespace ShapeSet

def ofList (shapes : List Shape) : ShapeSet :=
  ⟨(shapes.foldl (fun bits s => bits ||| s.bit) 0 : Nat)⟩

/-- Whether two sets have a shape in common. The bits of a negative number are those of its two's
complement: `-(n + 1)` has the bits that `n` does not have. -/
def meets (s t : ShapeSet) : Bool :=
  match s.bits, t.bits with
  | .ofNat m, .ofNat n => m &&& n != 0
  | .ofNat m, .negSucc n | .negSucc n, .ofNat m => m &&& n != m
  | .negSucc _, .negSucc _ => true

def contains (s : ShapeSet) (shape : Shape) : Bool := s.meets ⟨shape.bit⟩

/-- The shape that the set consists of, if it is a single one. -/
def single? (s : ShapeSet) : Option Shape := Shape.all.find? fun shape => (shape.bit : Int) == s.bits

/-- Whether one of the shapes has an address among its operands. -/
def meetsAddress (s : ShapeSet) : Bool :=
  s.meets (ofList (Shape.all.filter Shape.hasAddress))

end ShapeSet

end Drama
