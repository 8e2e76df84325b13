import Retype.Main
import Retype.Proofs.Clears
import Retype.Proofs.Idempotence
import Retype.Proofs.Outputs
import Retype.Proofs.RoleMethods
import Retype.Proofs.SchemaTags
import Retype.Proofs.ModelParameters
import Retype.Proofs.Receivers
import Retype.Proofs.Captures
import Retype.Proofs.Shadowing
import Retype.Proofs.Reruns
import Retype.Proofs.Diagnostics
import Retype.Proofs.ModelNames
import Retype.Proofs.ModelStructs
import Retype.Proofs.SchemaMaps
import Retype.Proofs.SourceItems
import Retype.Proofs.MacroPaths
import Retype.Proofs.TagPaths
import Retype.Proofs.Timeouts
import Retype.Proofs.ReadSaves
import Retype.Proofs.FinalReads
import Retype.Proofs.FieldChains
import Retype.Proofs.MapLiterals
import Retype.Proofs.SourceOrder
import Retype.Proofs.FunctionOrder
import Retype.Proofs.StatementLists
import Retype.Proofs.VecCalls
import Retype.Proofs.WriteForms
import Retype.Proofs.Variables
import Retype.Proofs.FieldNames
import Retype.Proofs.NamedFunctions
import Retype.Proofs.TypeDefinitions
import Retype.Proofs.TypeRoundTrip
import Retype.Proofs.Constants
import Retype.Proofs.Descents
import Retype.Proofs.CodeCosts
import Retype.Proofs.TypeCosts
import Retype.Proofs.ExprCosts
import Retype.Proofs.ItemCosts
import Retype.Proofs.Descending
import Retype.Proofs.WalkEnds
