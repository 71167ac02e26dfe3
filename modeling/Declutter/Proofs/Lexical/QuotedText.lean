import Declutter.Proofs.Lexical.Renaming
import Declutter.Reading
import Declutter.Tree.Equality

/-!
# Quoted text in verbatim statements

Replacing a name leaves strings, comments and templates alone as long as the elements of the text
are plain (`quoted_elements_rename`).
-/

namespace Declutter.Lexical

open Verbatim (rename)

variable {divides : Nat → Bool}

/-- Whether elements of a kind are text to the eye and not code. -/
def Kind.isQuoted : Kind → Bool
  | .lineComment | .blockComment | .string | .template => true
  | _ => false

/-- The comments, strings and parts of templates among elements. -/
def quoted (es : List Element) : List Element := es.filter (·.kind.isQuoted)

theorem quoted_swapFrom (old new before : List Char) (es : List Element) :
    quoted (swapFrom old new before es) = quoted es := by
  induction es generalizing before with
  | nil => rfl
  | cons e es ih =>
    rw [swapFrom, quoted, List.filter_cons, quoted, List.filter_cons, ← quoted, ← quoted, ih, swap]
    split
    · rename_i hword
      rw [Bool.and_eq_true, Bool.and_eq_true, decide_eq_true_eq] at hword
      simp [Kind.isQuoted, hword.1.1]
    · rfl

/-- Replacing a name leaves quoted text and comments alone. -/
theorem quoted_elements_rename {text old new : String}
    (hplain : Plain (elements divides text.toList) = true)
    (hfree : isFree old.toList (elements divides text.toList) = true)
    (hnew : isName new.toList = true) :
    quoted (elements divides (rename text old new).toList) =
      quoted (elements divides text.toList) := by
  rw [elements_rename hplain hfree hnew, quoted_swapFrom]

/-- A name is replaced in code, and stays in a string, a template and comments. -/
theorem quoted_rename_enum :
    quoted (elements (fun _ => true)
        (rename "enum E \x7b /* Root */ A = \"Root\", B = Root.B / 2 \x7d // Root's \x60Root\x60"
          "Root" "Tsconfig").toList) =
      [⟨.blockComment, "/* Root */".toList⟩, ⟨.string, "\"Root\"".toList⟩,
        ⟨.lineComment, "// Root's \x60Root\x60".toList⟩] := by
  rw [quoted_elements_rename (by rfl) (by rfl) (by rfl)]
  rfl

/-- In `const s = "a\⏎Root";` the string goes over the end of a line that is escaped, which the
scanner takes for no string, so that the name in it is replaced. -/
theorem exists_quoted_rename_ne :
    ∃ (file : SourceFile) (v : Declutter.Verbatim),
      SourceFile.ofText "type Root = string;\nconst s = \"a\\\nRoot\";" = .ok file ∧
        .verbatim v ∈ file.statements ∧
        ∀ divides, quoted (elements divides (rename v.text "Root" "Tsconfig").toList) ≠
          quoted (elements divides v.text.toList) := by
  refine ⟨⟨[.typeAlias ⟨[], [], "Root", .keyword .string⟩,
    .verbatim ⟨[], "const s = \"a\\\nRoot\";"⟩], []⟩, ⟨[], "const s = \"a\\\nRoot\";"⟩,
    by decide +kernel, by simp, fun divides => ?_⟩
  have hbefore : quoted (elements divides "const s = \"a\\\nRoot\";".toList) =
      [⟨.string, "\"a\\\nRoot\"".toList⟩] := by rfl
  have hafter : quoted (elements divides
      (rename "const s = \"a\\\nRoot\";" "Root" "Tsconfig").toList) =
      [⟨.string, "\"a\\\nTsconfig\"".toList⟩] := by rfl
  rw [hbefore, hafter]
  decide

end Declutter.Lexical
