import SymbolicQuery.Main
import SymbolicQuery.Proofs.Passing
import SymbolicQuery.Proofs.Agreement
import SymbolicQuery.Proofs.Construction
import SymbolicQuery.Proofs.Descent
import SymbolicQuery.Proofs.ReadingBack
import SymbolicQuery.Proofs.Retrieval
import SymbolicQuery.Proofs.Holding
import SymbolicQuery.Proofs.Substitution
import SymbolicQuery.Proofs.Recovery
import SymbolicQuery.Proofs.Reading
import SymbolicQuery.Proofs.Written
import SymbolicQuery.Proofs.Chain
import SymbolicQuery.Proofs.Assembly
import SymbolicQuery.Proofs.Standing
import SymbolicQuery.Proofs.Outcome
import SymbolicQuery.Proofs.Refusal
import SymbolicQuery.Proofs.Running
import SymbolicQuery.Proofs.Operating
import SymbolicQuery.Proofs.Soundness
import SymbolicQuery.Proofs.Stages
import SymbolicQuery.Proofs.Composition
import SymbolicQuery.Proofs.Grouping
import SymbolicQuery.Proofs.Description
import SymbolicQuery.Proofs.Inference
import SymbolicQuery.Proofs.Weaving
import SymbolicQuery.Proofs.Settling
import SymbolicQuery.Proofs.Copying
import SymbolicQuery.Proofs.Following
import SymbolicQuery.Proofs.Foretelling
import SymbolicQuery.Proofs.Keying
import SymbolicQuery.Proofs.Returning
import SymbolicQuery.Proofs.Ranking
import SymbolicQuery.Proofs.Sorting
import SymbolicQuery.Proofs.Equivalence
import SymbolicQuery.Proofs.Naming
import SymbolicQuery.Proofs.Representing
import SymbolicQuery.Proofs.Overwriting
import SymbolicQuery.Proofs.Enumerating
import SymbolicQuery.Proofs.Extracting
import SymbolicQuery.Proofs.Offending
import SymbolicQuery.Proofs.Promoting
import SymbolicQuery.Proofs.Carrying
import SymbolicQuery.Proofs.Narrowing
import SymbolicQuery.Proofs.Segmenting
import SymbolicQuery.Proofs.Widening
import SymbolicQuery.Proofs.Rereading
import SymbolicQuery.Proofs.Fusing
import SymbolicQuery.Proofs.Sharing
