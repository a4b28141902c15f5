import ScriptMinifier.Main
import ScriptMinifier.Proofs.Agreement
import ScriptMinifier.Proofs.CarriageReturns
import ScriptMinifier.Proofs.LineBreaks
import ScriptMinifier.Proofs.Seams
import ScriptMinifier.Proofs.Touching
import ScriptMinifier.Report.Json
import ScriptMinifier.Proofs.Sizes
import ScriptMinifier.Proofs.Leaks
import ScriptMinifier.Proofs.FileTrees
import ScriptMinifier.Proofs.Effects
import ScriptMinifier.Proofs.JsonObjects
import ScriptMinifier.Proofs.SettingsText
import ScriptMinifier.Proofs.CanonicalSpacing
import ScriptMinifier.Proofs.Signs
import ScriptMinifier.Proofs.CleanCode
import ScriptMinifier.Proofs.LiteralEnds
import ScriptMinifier.Proofs.CutLines
import ScriptMinifier.Proofs.Restoring
import ScriptMinifier.Proofs.CommentRows
import ScriptMinifier.Proofs.LongestNames
import ScriptMinifier.Proofs.ReverseNames
import ScriptMinifier.Proofs.KeptLiterals
import ScriptMinifier.Proofs.MinifiedPaths
import ScriptMinifier.Proofs.Thousands
import ScriptMinifier.Proofs.Boundaries
import ScriptMinifier.Proofs.FailedSearches
