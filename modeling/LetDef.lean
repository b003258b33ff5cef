import LetDef.Embedding.Functions
import LetDef.Embedding.Session
import LetDef.Main
import LetDef.Proofs.Embedding.Shelter
import LetDef.Proofs.Agreement.Indifference
import LetDef.Proofs.Agreement.Resolution
import LetDef.Proofs.Agreement.Scales
import LetDef.Proofs.Agreement.Termination
import LetDef.Proofs.Agreement.TypeSafety
import LetDef.Proofs.Java.Nesting
import LetDef.Proofs.Program.Parsing
import LetDef.Proofs.Program.Layout
import LetDef.Proofs.Embedding.Isolation
import LetDef.Proofs.Run.Truncation
import LetDef.Scope.Workbench
import LetDef.Proofs.Agreement.Results
import LetDef.Proofs.Typing.Judgment
import LetDef.Proofs.Typing.Rules
import LetDef.Proofs.Typing.Contexts
import LetDef.Proofs.Typing.Elaboration
import LetDef.Proofs.Typing.Decision
import LetDef.Proofs.Agreement.Operators
import LetDef.Proofs.Java.Relexing
import LetDef.Proofs.Java.Quoting
import LetDef.Proofs.Program.Safety
import LetDef.Proofs.Decimal.Cancellation
import LetDef.Proofs.Token.Obstruction
import LetDef.Proofs.Embedding.Resolution
import LetDef.Proofs.Program.Blame
import LetDef.Proofs.Run.Tidiness
import LetDef.Proofs.Scope.Nesting
import LetDef.Proofs.Agreement.Builtins
import LetDef.Proofs.Java.Spelling
import LetDef.Proofs.Java.Names
import LetDef.Proofs.Java.Locals
import LetDef.Proofs.Java.Indentation
