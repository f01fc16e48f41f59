import Drama.CommandLine.InMemory
import Drama.CommandLine.Tool
import Drama.Instruction.Definition
import Drama.Instruction.Manual
import Drama.Main
import Drama.Proofs.Command.Independence
import Drama.Proofs.Command.Opcodes
import Drama.Proofs.Machine.Addressing
import Drama.Proofs.Machine.Comparison
import Drama.Proofs.Machine.Conditions
import Drama.Proofs.Machine.Encoded
import Drama.Proofs.Machine.Loading
import Drama.Proofs.Machine.Nesting
import Drama.Proofs.Machine.Traversal
import Drama.Proofs.Program.Carets
import Drama.Proofs.Program.CaseInsensitivity
import Drama.Proofs.Program.Coverage
import Drama.Proofs.Program.Disassembly
import Drama.Proofs.Program.ErrorSpan
import Drama.Proofs.Program.Listing
import Drama.Proofs.Program.Lookup
import Drama.Proofs.Program.Relocation
import Drama.Proofs.Program.Suffix
import Drama.Proofs.Program.WordFile
import Drama.Proofs.Source.Backtracking
import Drama.Proofs.Source.Excerpt
import Drama.Word.Kind
