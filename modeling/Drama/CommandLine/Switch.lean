-- SUMMARY: Reading switches, such as -i file or --input=file, from the arguments of a program.

/-!
# Switches

A switch has a letter and a name, and may take an argument. Letters can be combined, with an argument at
the end or as the next word: `-vi file`. Names may be cut short as long as only one fits, with an argument
after an equals sign or as the next word: `--in=file`. Switches end at the first word that is not one, or
after `--`.
-/

namespace Drama

structure Switch (α : Type) where
  letter : Char
  name : List Char
  takesArgument : Bool
  meaning : α

namespace Switch

/-- What is wrong with the arguments; switches are shown with their dashes. -/
inductive Error
  | notRecognized (shown : List Char)
  | requiresArgument (shown : List Char)
  | takesNoArgument (shown : List Char)
  | ambiguous (shown : List Char)
deriving DecidableEq

def Error.message : Error → String
  | .notRecognized shown => s!"option {String.ofList shown} not recognized"
  | .requiresArgument shown => s!"option {String.ofList shown} requires argument"
  | .takesNoArgument shown => s!"option {String.ofList shown} must not have an argument"
  | .ambiguous shown => s!"option {String.ofList shown} not a unique prefix"

variable {α : Type}

/-- The meanings of switches in order, each with its argument or with nothing. -/
abbrev Found (α : Type) := List (α × List Char)

/-- What one word says: switches with their arguments and, if the last one still lacks its argument, that
switch as it is shown and what it means. -/
structure Reading (α : Type) where
  found : Found α
  pending : Option (List Char × α)

/-- Reads the letters after a dash. -/
def readLetters (switches : List (Switch α)) : List Char → Except Error (Reading α)
  | [] => .ok ⟨[], none⟩
  | letter :: rest =>
    match switches.find? (·.letter == letter) with
    | none => .error (.notRecognized ['-', letter])
    | some s =>
      if s.takesArgument then
        if rest.isEmpty then .ok ⟨[], some (['-', letter], s.meaning)⟩
        else .ok ⟨[(s.meaning, rest)], none⟩
      else
        (readLetters switches rest).map fun reading =>
          { reading with found := (s.meaning, []) :: reading.found }

/-- The switch that a name stands for, which need not be complete. -/
def byName (switches : List (Switch α)) (name : List Char) : Except Error (Switch α) :=
  let shown := '-' :: '-' :: name
  match switches.find? (·.name == name), switches.filter (name.isPrefixOf ·.name) with
  | some s, _ => .ok s
  | none, [] => .error (.notRecognized shown)
  | none, [s] => .ok s
  | none, _ => .error (.ambiguous shown)

/-- Reads the name after two dashes. -/
def readName (switches : List (Switch α)) (text : List Char) : Except Error (Reading α) := do
  let name := text.takeWhile (· != '=')
  let argument := (text.dropWhile (· != '=')).tail?
  let s ← byName switches name
  let shown := '-' :: '-' :: s.name
  match s.takesArgument, argument with
  | true, some value => return ⟨[(s.meaning, value)], none⟩
  | true, none => return ⟨[], some (shown, s.meaning)⟩
  | false, some _ => throw (.takesNoArgument shown)
  | false, none => return ⟨[(s.meaning, [])], none⟩

/-- Reads a word; none if it is not a switch. -/
def readWord (switches : List (Switch α)) : List Char → Option (Except Error (Reading α))
  | ['-', '-'] => none
  | '-' :: '-' :: text => some (readName switches text)
  | '-' :: c :: letters => some (readLetters switches (c :: letters))
  | _ => none

/-- The switches at the start of the arguments. -/
def read (switches : List (Switch α)) : List (List Char) → Except Error (Found α)
  | [] => .ok []
  | word :: rest =>
    match readWord switches word with
    | none => .ok []
    | some (.error e) => .error e
    | some (.ok reading) =>
      match reading.pending with
      | none => (read switches rest).map (reading.found ++ ·)
      | some (shown, meaning) =>
        match rest with
        | [] => .error (.requiresArgument shown)
        | value :: following =>
          (read switches following).map (reading.found ++ (meaning, value) :: ·)

end Switch

end Drama
