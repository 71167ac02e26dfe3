import Declutter.Printer
import Declutter.Reading
import Declutter.Tree.Equality
import Mathlib.Data.List.Basic

/-!
# Parentheses that printing adds

The printer puts parentheses where precedence requires them and the tree has none. `explicit` puts
the same parentheses into the tree. The text stays the same, so the text of a tree does not tell
whether its parentheses were there before: `print_explicit`.

Where a tree is changed by this, reading its text cannot give back both the tree and its explicit
form: `ofText_print_explicit_ne`.
-/

namespace Declutter

open Printer

namespace TypeNode

/-- A type with parentheses of its own, if it needs any at a position. -/
def guarded (position : Position) (node : TypeNode) : TypeNode :=
  if needsParentheses node position then .parenthesized node else node

mutual

/-- A type with all the parentheses that it is printed with. -/
def explicit : TypeNode → TypeNode
  | .keyword word => .keyword word
  | .literal value => .literal value
  | .reference name arguments => .reference name (explicitList arguments)
  | .array element => .array (element.explicit.guarded .operand)
  | .tuple elements => .tuple (explicitElements elements)
  | .union members => .union (explicitNested .unionMember members)
  | .intersection members => .intersection (explicitNested .intersectionMember members)
  | .parenthesized inner => .parenthesized inner.explicit
  | .typeLiteral members => .typeLiteral (explicitMembers members)

def explicitList : List TypeNode → List TypeNode
  | [] => []
  | node :: nodes => node.explicit :: explicitList nodes

def explicitNested (position : Position) : List TypeNode → List TypeNode
  | [] => []
  | node :: nodes => node.explicit.guarded position :: explicitNested position nodes

def explicitElements : List TupleElement → List TupleElement
  | [] => []
  | ⟨type, optional, rest⟩ :: elements =>
    ⟨if optional then type.explicit.guarded .operand else type.explicit, optional, rest⟩ ::
      explicitElements elements

def explicitMembers : List TypeMember → List TypeMember
  | [] => []
  | .property ⟨comments, readonly, name, optional, type⟩ :: members =>
    .property ⟨comments, readonly, name, optional, type.explicit⟩ :: explicitMembers members
  | .index ⟨comments, readonly, parameter, key, value⟩ :: members =>
    .index ⟨comments, readonly, parameter, key.explicit, value.explicit⟩ ::
      explicitMembers members

end

/-! ## One guarded type -/

/-- Parentheses are added inside a type, so what it needs around it stays the same. -/
@[simp] theorem needsParentheses_explicit (node : TypeNode) (position : Position) :
    needsParentheses node.explicit position = needsParentheses node position := by
  cases node <;> cases position <;> simp [explicit, needsParentheses]

theorem needsParentheses_guarded (node : TypeNode) (position : Position) :
    needsParentheses (node.guarded position) position = false := by
  unfold guarded
  split
  · cases position <;> rfl
  · rename_i h
    exact Bool.eq_false_iff.mpr h

theorem render_guarded (node : TypeNode) (position : Position) (depth : Nat) :
    (node.guarded position).render depth = nested node position (node.render depth) := by
  unfold guarded nested
  split
  · rw [render]
  · rfl

/-- A type in its own parentheses is printed like the type in added ones. -/
theorem nested_guarded {node old : TypeNode} {position : Position} {depth : Nat}
    (hneeds : needsParentheses node position = needsParentheses old position)
    (hrender : node.render depth = old.render depth) :
    nested (node.guarded position) position ((node.guarded position).render depth) =
      nested old position (old.render depth) := by
  rw [nested, needsParentheses_guarded, if_neg (by simp), render_guarded, hrender, nested, nested,
    hneeds]

/-! ## Types -/

theorem isEmpty_explicitList : ∀ nodes, (explicitList nodes).isEmpty = nodes.isEmpty
  | [] => by simp [explicitList]
  | _ :: _ => by simp [explicitList]

mutual

theorem render_explicit (depth : Nat) : ∀ node : TypeNode,
    node.explicit.render depth = node.render depth
  | .keyword _ => by rw [explicit]
  | .literal _ => by rw [explicit]
  | .reference name arguments => by
    rw [explicit, render, render, isEmpty_explicitList, renderList_explicitList depth arguments]
  | .array element => by
    rw [explicit, render, render,
      nested_guarded (needsParentheses_explicit element _) (render_explicit depth element)]
  | .tuple elements => by
    rw [explicit, render, render, renderElements_explicitElements depth elements]
  | .union members => by
    rw [explicit, render, render, renderNested_explicitNested depth _ members]
  | .intersection members => by
    rw [explicit, render, render, renderNested_explicitNested depth _ members]
  | .parenthesized inner => by rw [explicit, render, render, render_explicit depth inner]
  | .typeLiteral members => by
    rw [explicit, render, render, renderMembers_explicitMembers depth members]

theorem renderList_explicitList (depth : Nat) : ∀ nodes : List TypeNode,
    renderList depth (explicitList nodes) = renderList depth nodes
  | [] => by rw [explicitList]
  | node :: nodes => by
    rw [explicitList, renderList, renderList, render_explicit depth node,
      renderList_explicitList depth nodes]

theorem renderNested_explicitNested (depth : Nat) (position : Position) :
    ∀ nodes : List TypeNode,
      renderNested depth position (explicitNested position nodes) =
        renderNested depth position nodes
  | [] => by rw [explicitNested]
  | node :: nodes => by
    rw [explicitNested, renderNested, renderNested,
      nested_guarded (needsParentheses_explicit node _) (render_explicit depth node),
      renderNested_explicitNested depth position nodes]

theorem renderElements_explicitElements (depth : Nat) : ∀ elements : List TupleElement,
    renderElements depth (explicitElements elements) = renderElements depth elements
  | [] => by rw [explicitElements]
  | ⟨type, optional, rest⟩ :: elements => by
    have hrest := renderElements_explicitElements depth elements
    have htype := render_explicit depth type
    rw [explicitElements, renderElements, renderElements, hrest]
    -- only in front of a `?` can an element need parentheses
    cases optional with
    | true =>
      simp only [if_true]
      rw [nested_guarded (needsParentheses_explicit type _) htype]
    | false =>
      simp only [Bool.false_eq_true, if_false]
      rw [htype]

theorem renderMembers_explicitMembers (depth : Nat) : ∀ members : List TypeMember,
    renderMembers depth (explicitMembers members) = renderMembers depth members
  | [] => by rw [explicitMembers]
  | .property ⟨_, _, _, _, type⟩ :: members => by
    rw [explicitMembers, renderMembers, renderMembers, render_explicit (depth + 1) type,
      renderMembers_explicitMembers depth members]
  | .index ⟨_, _, _, key, value⟩ :: members => by
    rw [explicitMembers, renderMembers, renderMembers, render_explicit (depth + 1) key,
      render_explicit (depth + 1) value, renderMembers_explicitMembers depth members]

end

end TypeNode

/-! ## Statements and files -/

/-- A statement with all the parentheses that its types are printed with. -/
def Statement.explicit : Statement → Statement
  | .typeAlias a => .typeAlias { a with type := a.type.explicit }
  | .interface i =>
    .interface { i with
      heritage := TypeNode.explicitList i.heritage
      members := TypeNode.explicitMembers i.members }
  | .verbatim v => .verbatim v

theorem Statement.print_explicit (statement : Statement) :
    statement.explicit.print = statement.print := by
  cases statement with
  | typeAlias decl => rw [explicit, print, print, TypeNode.render_explicit]
  | interface decl =>
    rw [explicit, print, print, TypeNode.isEmpty_explicitList, TypeNode.renderList_explicitList,
      TypeNode.renderMembers_explicitMembers]
  | verbatim => rfl

namespace SourceFile

/-- A file with all the parentheses that its types are printed with. -/
def explicit (file : SourceFile) : SourceFile :=
  { file with statements := file.statements.map Statement.explicit }

/-- Making parentheses explicit does not change the text of a file. -/
theorem print_explicit (file : SourceFile) : file.explicit.print = file.print := by
  have hstatements : file.explicit.statements.map (·.print) = file.statements.map (·.print) := by
    rw [explicit, List.map_map]
    exact List.map_congr_left fun statement _ => statement.print_explicit
  have hempty : file.explicit.statements.isEmpty = file.statements.isEmpty := by
    rw [explicit, List.isEmpty_map]
  rw [print, hstatements, hempty]
  rfl

/-- If printing adds parentheses to a file that is read back from its text, the explicit file is
not read back from its own. -/
theorem ofText_print_explicit_ne {file : SourceFile} (hadds : file.explicit ≠ file)
    (h : ofText file.print = .ok file) : ofText file.explicit.print ≠ .ok file.explicit := by
  intro hexplicit
  rw [print_explicit, h, Except.ok.injEq] at hexplicit
  exact hadds hexplicit.symm

end SourceFile

end Declutter
