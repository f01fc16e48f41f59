-- SUMMARY: The tokens of source text, and how the token at the start of a text is recognised.
import Drama.Command.Condition
import Drama.Command.Mode
import Drama.Text.Letter
import Drama.Text.Numeral

/-!
# Tokens

`Token.read` recognises the token that a text starts with, and its length. The recognisers are tried in
a fixed order and the first that applies wins; a character that none of them knows is a token by itself,
so recognition only fails on a literal with too many digits.
-/

namespace Drama

open Text

/-- What kind of lexeme a token is, as it is named in messages. -/
inductive LexemeKind
  | register
  | condition
  | literal
  | programTerminator
  | addressingMode
  | argumentSeparator
  | statementTerminator
  | labelMarker
  | operator
  | scope
  | comment
  | identifier
  | unrecognised
deriving DecidableEq

def LexemeKind.name : LexemeKind → String
  | .register => "register"
  | .condition => "condition"
  | .literal => "literal"
  | .programTerminator => "program terminator"
  | .addressingMode => "addressing mode"
  | .argumentSeparator => "argument separator"
  | .statementTerminator => "statement terminator"
  | .labelMarker => "label marker"
  | .operator => "arithmetic operator"
  | .scope => "index register scope"
  | .comment => "comment"
  | .identifier => "identifier"
  | .unrecognised => "unrecognised text"

/-- The arithmetic operators, of which only the first two are of use in addresses. -/
inductive Operator
  | plus
  | minus
  | times
  | over
deriving DecidableEq

namespace Operator

def symbol : Operator → Char
  | .plus => '+'
  | .minus => '-'
  | .times => '*'
  | .over => '/'

/-- Whether the operator adds or subtracts. -/
def isAdditive : Operator → Bool
  | .plus | .minus => true
  | .times | .over => false

end Operator

/-- The parentheses around an index register. -/
inductive Bracket
  | opening
  | closing
deriving DecidableEq

/-- A suffix names no mode if its letter only looks like that of one. -/
inductive Token
  | register (number : Nat)
  | condition (condition : Condition)
  | literal (value : Int)
  | programTerminator
  | addressingMode (mode : Option AddressingMode)
  | argumentSeparator
  | statementTerminator
  | labelMarker
  | operator (operator : Operator)
  | scope (bracket : Bracket)
  | comment
  | identifier
  | unrecognised
deriving DecidableEq

namespace Token

def kind : Token → LexemeKind
  | .register _ => .register
  | .condition _ => .condition
  | .literal _ => .literal
  | .programTerminator => .programTerminator
  | .addressingMode _ => .addressingMode
  | .argumentSeparator => .argumentSeparator
  | .statementTerminator => .statementTerminator
  | .labelMarker => .labelMarker
  | .operator _ => .operator
  | .scope _ => .scope
  | .comment => .comment
  | .identifier => .identifier
  | .unrecognised => .unrecognised

/-! ## Recognisers -/

/-- The word that a text starts with, which may be empty. -/
def leadingWord (text : List Char) : List Char := text.takeWhile isWordChar

/-- Whether a text starts with a word character. -/
def startsWithWord (text : List Char) : Bool := text.head?.any isWordChar

/-- A register is the letter `R` and one digit, not followed by more of a word. -/
def register? : List Char → Option (Token × Nat)
  | r :: d :: rest =>
    if (r == 'R' || r == 'r') && !startsWithWord rest then
      (digitValue? d).map fun number => (.register number, 2)
    else none
  | _ => none

/-- A whole word is a condition if it names one. -/
def condition? (text : List Char) : Option (Token × Nat) :=
  let word := leadingWord text
  (Condition.named? word).map fun condition => (.condition condition, word.length)

/-- A literal is a run of digits, and the minus sign before it if there is one. -/
def literal? (text : List Char) : Option (Except Numeral.Error (Token × Nat)) :=
  let negative := text.head? == some '-'
  let digits := (if negative then text.drop 1 else text).takeWhile isDecimalDigit
  if digits.isEmpty then none
  else
    let length := if negative then digits.length + 1 else digits.length
    let value := Numeral.ofSignedDigits negative (digits.filterMap digitValue?)
    some (value.map fun value => (.literal value, length))

/-- Whether a character is the letter in either case; the letter `I` has two more forms, one with a
dot and one without. -/
def isLetter (letter c : Char) : Bool :=
  c.toUpper == letter || (letter == 'I' && (c == Char.ofNat 0x130 || c == Char.ofNat 0x131))

/-- The word that ends a program. -/
def terminatorWord : List Char := ['E', 'I', 'N', 'D', 'P', 'R']

/-- The word that ends a program takes all the text after it along. -/
def programTerminator? (text : List Char) : Option (Token × Nat) :=
  let start := text.take terminatorWord.length
  if start.length == terminatorWord.length && (terminatorWord.zipWith isLetter start).all id then
    some (.programTerminator, text.length)
  else none

/-- The letters of the addressing modes. -/
def modeLetters : List Char := ['W', 'A', 'D', 'I']

/-- A suffix is a point and the letter of a mode, not followed by more of a word. -/
def addressingMode? : List Char → Option (Token × Nat)
  | '.' :: c :: rest =>
    if modeLetters.any (isLetter · c) && !startsWithWord rest then
      some (.addressingMode (AddressingMode.ofLetter? c), 2)
    else none
  | _ => none

/-- The tokens of a single character. -/
def ofSymbol? (c : Char) : Option Token :=
  match c with
  | ',' => some .argumentSeparator
  | '\n' => some .statementTerminator
  | ';' => some .statementTerminator
  | ':' => some .labelMarker
  | '+' => some (.operator .plus)
  | '-' => some (.operator .minus)
  | '*' => some (.operator .times)
  | '/' => some (.operator .over)
  | '(' => some (.scope .opening)
  | ')' => some (.scope .closing)
  | _ => none

def symbol? (text : List Char) : Option (Token × Nat) :=
  (text.head?.bind ofSymbol?).map fun token => (token, 1)

/-- A comment starts with a bar and ends before the next newline. -/
def comment? : List Char → Option (Token × Nat)
  | '|' :: rest => some (.comment, (rest.takeWhile (· != '\n')).length + 1)
  | _ => none

def identifier? (text : List Char) : Option (Token × Nat) :=
  let word := leadingWord text
  if word.isEmpty then none else some (.identifier, word.length)

/-- The token at the start of a text that is not empty, and how many characters it has. -/
def read (text : List Char) : Except Numeral.Error (Token × Nat) :=
  match register? text <|> condition? text with
  | some found => .ok found
  | none =>
    match literal? text with
    | some result => result
    | none =>
      .ok ((programTerminator? text <|> addressingMode? text <|> symbol? text <|> comment? text <|>
        identifier? text).getD (.unrecognised, 1))

end Token

end Drama
