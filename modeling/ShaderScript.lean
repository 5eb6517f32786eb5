import ShaderScript.Main
import ShaderScript.Proofs.AccessHistory
import ShaderScript.Proofs.BagCapacity
import ShaderScript.Proofs.BatchTrace
import ShaderScript.Proofs.BlockStructure
import ShaderScript.Proofs.BranchTruth
import ShaderScript.Proofs.CommonDirectory
import ShaderScript.Proofs.ErrorPaths
import ShaderScript.Proofs.ErrorRing
import ShaderScript.Proofs.Explained
import ShaderScript.Proofs.FlattenedTargets
import ShaderScript.Proofs.ForLoops
import ShaderScript.Proofs.GlobalValues
import ShaderScript.Proofs.InertTokens
import ShaderScript.Proofs.IntegerLiterals
import ShaderScript.Proofs.LocalRenaming
import ShaderScript.Proofs.MatrixProducts
import ShaderScript.Proofs.MentionedNames
import ShaderScript.Proofs.NameSpelling
import ShaderScript.Proofs.OtherParts
import ShaderScript.Proofs.OutputTargets
import ShaderScript.Proofs.Positions
import ShaderScript.Proofs.ProgressCount
import ShaderScript.Proofs.StyleNeutral
import ShaderScript.Proofs.ValueAssignments
import ShaderScript.Proofs.VariableEntries
import ShaderScript.Proofs.VectorComparisons
import ShaderScript.Proofs.WireForms
import ShaderScript.Proofs.WrittenDiagnostics
