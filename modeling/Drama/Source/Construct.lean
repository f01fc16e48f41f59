-- SUMMARY: The constructs of source text, each as a parser.
import Drama.Instruction.Standard
import Drama.Source.Cursor
import Drama.Source.Statement
import Drama.Text.Case

/-!
# Constructs

Each construct of source text has a parser that reads it from the next lexeme on. A parser that fails
leaves its error at the lexeme that does not fit, which may be one that it has already read.
-/

namespace Drama

open Drama.Parser

/-! ## What is made of a lexeme -/

namespace Lexeme

def register? (l : Lexeme) : Option Nat :=
  match l.token with
  | .register number => some number
  | _ => none

def condition? (l : Lexeme) : Option Condition :=
  match l.token with
  | .condition condition => some condition
  | _ => none

def literal? (l : Lexeme) : Option Int :=
  match l.token with
  | .literal value => some value
  | _ => none

/-- The text of an identifier. -/
def identifier? (l : Lexeme) : Option (List Char) :=
  match l.token with
  | .identifier => some l.text
  | _ => none

def mode? (l : Lexeme) : Option (Option AddressingMode) :=
  match l.token with
  | .addressingMode mode => some mode
  | _ => none

def operator? (l : Lexeme) : Option Operator :=
  match l.token with
  | .operator operator => some operator
  | _ => none

def bracket? (l : Lexeme) : Option Bracket :=
  match l.token with
  | .scope bracket => some bracket
  | _ => none

/-- The value of a literal that is written with a minus sign. -/
def negativeLiteral? (l : Lexeme) : Option Int :=
  if l.text.head? == some '-' then l.literal? else none

def term? (l : Lexeme) : Option Term :=
  match l.token with
  | .literal value => some (.literal value)
  | .identifier => some (.symbol l.text true)
  | _ => none

/-- The lexeme itself if an argument can start with it. -/
def argumentStart? : Lexeme → Option Lexeme :=
  ofKinds [.register, .condition, .literal, .identifier]

end Lexeme

/-! ## Address expressions -/

namespace Term

def parser : Parser Term := read [.literal, .identifier] Lexeme.term?

/-- A further term, after an operator or as a literal with a sign: `x-1` is read as `x` and `-1`. -/
def further : Parser (Option Term) := do
  match ← peekMap Lexeme.operator? with
  | some operator =>
    if operator.isAdditive then
      modify Cursor.advance
      let term ← attempt parser
      return some (if operator = .plus then term else term.negated)
    else fail (.operatorInAddress operator)
  | none => return (← readIf Lexeme.negativeLiteral?).map .literal

end Term

namespace Index

/-- The modification that operators before and after a register stand for. -/
def modificationOf : (before after : Option Operator) → Option Modification
  | some .plus, _ => some .preIncrement
  | some _, _ => some .preDecrement
  | none, some .plus => some .postIncrement
  | none, some _ => some .postDecrement
  | none, none => none

/-- The operators around a register have to be additive, and one of them vacant. -/
def checkOperators (before after : Option Operator) : Parser Unit := do
  match (before.toList ++ after.toList).find? (!·.isAdditive) with
  | some operator => fail (.operatorAroundIndex operator)
  | none => if before.isSome && after.isSome then fail .modifiedTwice

/-- The index register after its opening parenthesis. -/
def inner : Parser Index := do
  let before ← readIf Lexeme.operator?
  let register ← read [.register] Lexeme.register?
  let after ← readIf Lexeme.operator?
  checkOperators before after
  let closing ← get
  match ← read [.scope] Lexeme.bracket? with
  | .opening => failAt closing .closingExpected
  | .closing => return ⟨register, modificationOf before after⟩

/-- An index register in parentheses, if there is a parenthesis. -/
def parser : Parser (Option Index) := do
  let start ← get
  match ← readIf Lexeme.bracket? with
  | none => return none
  | some .closing => failAt start .openingExpected
  | some .opening => return some (← inner)

end Index

def AddressExpression.parser : Parser AddressExpression := do
  let start ← get
  let first ← attempt Term.parser
  let others ← repeated Term.further
  let index ← Index.parser
  return ⟨first :: others, index, start.spanTo (← get)⟩

def WrittenArgument.parser : Parser WrittenArgument := do
  match ← readIf Lexeme.register? with
  | some number => return .register number
  | none =>
    match ← readIf Lexeme.condition? with
    | some named => return .condition named
    | none => return .address (← attempt AddressExpression.parser)

/-! ## Statements and labels -/

namespace CommandStatement

/-- A further argument, after a separator. -/
def furtherArgument : Parser (Option WrittenArgument) := do
  match ← readIfKinds [.argumentSeparator] with
  | none => return none
  | some _ => return some (← WrittenArgument.parser)

def argumentsParser : Parser (List WrittenArgument) := do
  match ← peekMap Lexeme.argumentStart? with
  | none => return []
  | some _ => return (← WrittenArgument.parser) :: (← repeated furtherArgument)

def parser : Parser Statement := do
  let start ← get
  let name ← read [.identifier] Lexeme.identifier?
  let nameSpan := start.spanTo (← get)
  match InstructionSet.standard.find? (String.ofList (Text.toUpper name)) with
  | none => failAt start (.unknownInstruction name)
  | some instruction =>
    let mode ← readIf Lexeme.mode?
    let arguments ← argumentsParser
    return ⟨.command ⟨instruction, mode.join, arguments, nameSpan⟩, start.spanTo (← get)⟩

end CommandStatement

def Statement.valueParser : Parser Statement := do
  let start ← get
  let value ← read [.literal] Lexeme.literal?
  return ⟨.value value, start.spanTo (← get)⟩

/-- The word that reserves memory. -/
def allocationWord : List Char := ['R', 'E', 'S', 'G', 'R']

def Statement.allocationParser : Parser Statement := do
  let start ← get
  let keyword ← readKinds [.identifier]
  if Text.toUpper keyword.text ≠ allocationWord then
    failAt start (.allocationExpected keyword)
  else
    let beforeSize ← get
    let size ← read [.literal] Lexeme.literal?
    if size < 0 then failAt beforeSize (.negativeSize size)
    else return ⟨.allocation size.toNat, start.spanTo (← get)⟩

def Element.labelParser : Parser Element := do
  let start ← get
  let name ← read [.identifier] Lexeme.identifier?
  match ← readIfKinds [.labelMarker] with
  | none => failAt start (.labelMarkerExpected name)
  | some _ => return .label name (start.spanTo (← get))

end Drama
