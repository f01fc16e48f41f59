-- SUMMARY: Address expressions as written: sums of literals and symbols, optionally indexed.
import Drama.Command.Operand
import Drama.Source.Lexeme

/-!
# Address expressions

An address expression such as `table + 2(R1+)` is a sum of terms, with an index register if it has one.
Its value depends on the addresses of the symbols in it.
-/

namespace Drama

/-- Symbols with their values, in the order of their definition. -/
abbrev SymbolTable := List (List Char × Int)

inductive Term
  | literal (value : Int)
  | symbol (name : List Char) (positive : Bool)
deriving DecidableEq

namespace Term

def negated : Term → Term
  | .literal value => .literal (-value)
  | .symbol name positive => .symbol name !positive

end Term

structure AddressExpression where
  terms : List Term
  index : Option Index
  span : Span
deriving DecidableEq

namespace AddressExpression

/-- The sum of the terms after `total`, or the first symbol among them that is not defined. -/
def sum (symbols : SymbolTable) (total : Int) : List Term → Except (List Char) Int
  | [] => .ok total
  | .literal value :: rest => sum symbols (total + value) rest
  | .symbol name positive :: rest =>
    match symbols.lookup name with
    | none => .error name
    | some value => sum symbols (if positive then total + value else total - value) rest

def evaluate (e : AddressExpression) (symbols : SymbolTable) : Except (List Char) Int :=
  sum symbols 0 e.terms

end AddressExpression

end Drama
