-- SUMMARY: The manual of the instruction set, one entry for each standard instruction.

/-!
# Manual

An entry tells what an instruction does in words and as a register transfer, with an example.
-/

namespace Drama

structure ManualEntry where
  title : String
  usage : String
  addressing : String
  opcode : String
  transfer : String
  condition : String
deriving DecidableEq

namespace ManualEntry

/-- The entry as it is printed: the title, and a line for each aspect. -/
def text (e : ManualEntry) : String :=
  s!"{e.title}:\n" ++
  s!"    Example            :    {e.usage}\n" ++
  s!"    Addressing mode    :    {e.addressing}\n" ++
  s!"    Opcode             :    {e.opcode}\n" ++
  s!"    RTL                :    {e.transfer}\n" ++
  s!"    Condition set      :    {e.condition}\n    "

end ManualEntry

/-- The entries by mnemonic. -/
def manual : List (String × ManualEntry) := [
  ("HIA", {
    title := "Load (haal in accumulator)"
    usage := "HIA.w R1, 10"
    addressing := "value, address, direct, indirect or register"
    opcode := "11"
    transfer := "R <- operand"
    condition := "from R" }),
  ("BIG", {
    title := "Store (bewaar in geheugen)"
    usage := "BIG R1, result"
    addressing := "direct, indirect"
    opcode := "12"
    transfer := "M[destination] <- R"
    condition := "from R" }),
  ("OPT", {
    title := "Add (optellen)"
    usage := "OPT.w R1, 1"
    addressing := "value, address, direct, indirect or register"
    opcode := "21"
    transfer := "R <- R + operand"
    condition := "from R" }),
  ("AFT", {
    title := "Subtract (aftrekken)"
    usage := "AFT R1, R2"
    addressing := "value, address, direct, indirect or register"
    opcode := "22"
    transfer := "R <- R - operand"
    condition := "from R" }),
  ("VER", {
    title := "Multiply (vermenigvuldigen)"
    usage := "VER.w R1, 3"
    addressing := "value, address, direct, indirect or register"
    opcode := "23"
    transfer := "R <- R * operand"
    condition := "from R" }),
  ("DEL", {
    title := "Divide (delen)"
    usage := "DEL.w R1, 2"
    addressing := "value, address, direct, indirect or register"
    opcode := "24"
    transfer := "R <- R / operand, truncated toward zero, 0 if operand = 0"
    condition := "from R" }),
  ("MOD", {
    title := "Remainder (modulo)"
    usage := "MOD.w R1, 10"
    addressing := "value, address, direct, indirect or register"
    opcode := "25"
    transfer := "R <- R % operand, sign of R, 0 if operand = 0"
    condition := "from R" }),
  ("VGL", {
    title := "Compare (vergelijken)"
    usage := "VGL.w R1, 0"
    addressing := "value, address, direct, indirect or register"
    opcode := "31"
    transfer := "CC <- sign(R - operand)"
    condition := "from the comparison" }),
  ("SPR", {
    title := "Jump (springen)"
    usage := "SPR loop"
    addressing := "direct, indirect"
    opcode := "32"
    transfer := "PC <- destination"
    condition := "None" }),
  ("VSP", {
    title := "Conditional jump (voorwaardelijk springen)"
    usage := "VSP NUL, end"
    addressing := "direct, indirect"
    opcode := "33"
    transfer := "if CC matches condition: PC <- destination"
    condition := "None" }),
  ("SBR", {
    title := "Subroutine jump (spring naar subroutine)"
    usage := "SBR print_all"
    addressing := "direct, indirect"
    opcode := "41"
    transfer := "R9 <- R9 - 1, M[R9] <- PC, PC <- destination"
    condition := "None" }),
  ("KTG", {
    title := "Subroutine return (keer terug)"
    usage := "KTG"
    addressing := "None"
    opcode := "42"
    transfer := "PC <- M[R9], R9 <- R9 + 1"
    condition := "None" }),
  ("LEZ", {
    title := "Read (lezen)"
    usage := "LEZ"
    addressing := "None"
    opcode := "71"
    transfer := "R0 <- input"
    condition := "from R0, when the input is provided" }),
  ("DRU", {
    title := "Print integer (drukken)"
    usage := "DRU"
    addressing := "None"
    opcode := "73"
    transfer := "output <- R0"
    condition := "from R0" }),
  ("BST", {
    title := "Push (bewaar op stapel)"
    usage := "BST R1"
    addressing := "None"
    opcode := "None, assembled as BIG R, 0(-R9)"
    transfer := "R9 <- R9 - 1, M[R9] <- R"
    condition := "from R" }),
  ("HST", {
    title := "Pop (haal van stapel)"
    usage := "HST R1"
    addressing := "None"
    opcode := "None, assembled as HIA R, 0(R9+)"
    transfer := "R <- M[R9], R9 <- R9 + 1"
    condition := "from R" }),
  ("STP", {
    title := "Halt (stop)"
    usage := "STP"
    addressing := "None"
    opcode := "99"
    transfer := "halt"
    condition := "None" })]

end Drama
