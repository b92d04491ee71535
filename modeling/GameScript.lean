import GameScript.Command.FileTree
import GameScript.Main
import GameScript.Proofs.Emission.Integers
import GameScript.Proofs.Emission.TypeBalance
import GameScript.Proofs.Evaluation.Correctness
import GameScript.Proofs.Execution.Correctness
import GameScript.Proofs.Flow.Regions
import GameScript.Proofs.Lines
import GameScript.Proofs.Listing.Faithful
import GameScript.Proofs.Outline.Respelling
import GameScript.Proofs.Recasting.Soundness
import GameScript.Proofs.Session.Isolation
import GameScript.Proofs.Session.Order
import GameScript.Proofs.Stack.Discipline
import GameScript.Proofs.Stack.Spreading
import GameScript.Proofs.Token.Expansion
import GameScript.Proofs.Token.Literals
import GameScript.Proofs.Token.Stream
