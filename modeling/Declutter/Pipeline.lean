import Declutter.Rewrite.IndexSignatures
import Declutter.Rewrite.Records
import Declutter.Rewrite.Root
import Declutter.Validity

/-!
# The pipeline

The rewritings in their order: root, string widenings, unknown records, unknown index signatures.
What they make of a file is checked before it is handed out.
-/

namespace Declutter.SourceFile

/-- The rewritings that need no options. -/
def cleanUp (file : SourceFile) : SourceFile :=
  file.dropStringWidening.dropUnknownRecords.dropUnknownIndex

/-- Rewrites a file and checks the result. -/
def transform (file : SourceFile) (options : Options) : Except Error SourceFile := do
  let rooted ← file.applyRoot options
  let result := rooted.cleanUp
  result.check file.declaredNames
  return result

end Declutter.SourceFile
