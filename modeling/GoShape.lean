import GoShape.Main
import GoShape.Options.Text
import GoShape.Proofs.Unify
import GoShape.Proofs.Rounding
import GoShape.Proofs.Nearest
import GoShape.Proofs.Fractions
import GoShape.Proofs.NumberKind
import GoShape.Proofs.Keys
import GoShape.Proofs.Parts
import GoShape.Proofs.Tally
import GoShape.Proofs.Exported
import GoShape.Proofs.Words
import GoShape.Proofs.Places
import GoShape.Proofs.Separators
import GoShape.Proofs.Stability
import GoShape.Proofs.DateTime
import GoShape.Proofs.FieldTag
import GoShape.Proofs.TypeText
import GoShape.Proofs.TypeParts
import GoShape.Proofs.Indentation
import GoShape.Proofs.MarkedPlaces
import GoShape.Proofs.Outline
import GoShape.Proofs.Refusal
import GoShape.Proofs.Wrapping
import GoShape.Proofs.Shape
import GoShape.Proofs.Guarded.Steps
import GoShape.Proofs.Guarded.Names
import GoShape.Proofs.Guarded.Types
import GoShape.Proofs.Union
import GoShape.Proofs.Repetition
import GoShape.Proofs.Acceptance
import GoShape.Proofs.FieldSets
import GoShape.Proofs.Guarded.Conversion
import GoShape.Proofs.Printing
import GoShape.Proofs.Files
import GoShape.Proofs.Arguments
import GoShape.Proofs.Runs
import GoShape.Proofs.Modes
import GoShape.Proofs.Process
