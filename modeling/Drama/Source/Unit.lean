-- SUMMARY: Parsing whole source texts, which never fails.
import Drama.Source.Construct

/-!
# Compilation units

`CompilationUnit.ofLexemes` divides lexemes into elements. Statement terminators separate elements and
are dropped. Where no construct fits, the lexemes up to the next comment or terminator are kept as
unrecognised source.
-/

namespace Drama

namespace Element

/-- The element of the first parser that fits and the cursor behind it, or the error of the attempt
that got furthest. -/
def firstOf (c : Cursor) (parser : Parser Element) :
    List (Parser Element) → Except ParseError (Element × Cursor)
  | [] =>
    match parser.run c with
    | .ok element after => .ok (element, after)
    | .error e _ => .error e
  | other :: others =>
    match parser.run c with
    | .ok element after => .ok (element, after)
    | .error e _ => (firstOf c other others).mapError e.orDeeper

/-- Tries the constructs: commands, values, allocations and labels, in this order. -/
def ofConstructs (c : Cursor) : Except ParseError (Element × Cursor) :=
  firstOf c (.statement <$> CommandStatement.parser)
    [.statement <$> Statement.valueParser, .statement <$> Statement.allocationParser, labelParser]

/-- The kinds of lexemes at which unrecognised source ends. -/
def barriers : List LexemeKind := [.comment, .statementTerminator, .programTerminator]

/-- Everything from a lexeme up to the next barrier, as unrecognised source. -/
def recover (c : Cursor) (first : Lexeme) (rest : List Lexeme) (error : ParseError) :
    Element × Cursor :=
  let others := rest.takeWhile fun l => !l.isOf barriers
  let source : UnrecognisedSource := ⟨first, others, error⟩
  (.unrecognised source,
    ⟨c.position + source.lexemes.length, source.span.stop, rest.drop others.length⟩)

/-- The element that starts with a lexeme which ends no statement, and the cursor behind it. -/
def next (c : Cursor) (first : Lexeme) (rest : List Lexeme) : Element × Cursor :=
  match first.kind with
  | .comment => (.comment first.text first.span, c.advance)
  | .programTerminator => (.terminator first.span, c.advance)
  | _ =>
    match ofConstructs c with
    | .ok found => found
    | .error e => recover c first rest e

end Element

namespace CompilationUnit

/-- The elements from a cursor on. Each round reads at least one lexeme, so there are no more rounds
than lexemes. -/
def elementsFrom : (rounds : Nat) → Cursor → List Element
  | 0, _ => []
  | rounds + 1, c =>
    match c.ahead with
    | [] => []
    | first :: rest =>
      if first.kind = .statementTerminator then elementsFrom rounds c.advance
      else
        let (element, after) := Element.next c first rest
        element :: elementsFrom rounds after

def ofCursor (c : Cursor) : CompilationUnit := ⟨elementsFrom c.ahead.length c⟩

def ofLexemes (lexemes : List Lexeme) : CompilationUnit := ofCursor (.ofLexemes lexemes)

/-- Reads everything that is ahead. -/
def parser : Parser CompilationUnit := do
  let c ← get
  set c.toEnd
  return ofCursor c

end CompilationUnit

end Drama
