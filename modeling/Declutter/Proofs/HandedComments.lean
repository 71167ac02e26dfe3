import Declutter.Proofs.TakenComments

/-!
# How comments are handed out

`SourceFile.handedOut_of_apart`: where no two places of a text that have been collected as comments
overlap, the comments of a file that is read from the text are comments of the text at increasing
places, and each comment outside of all statements goes to the next statement, or to the end of the
file. `SourceFile.comments_sublist` holds of all texts: the comments of a file are some of those
that have been collected, in their order.

A comment behind a statement is still there when the statement has been read, and a comment in front
of one is the statement's own.

The condition is needed. Comments are put down when a reading comes to the end of the text, also a
reading ahead that is given up; then they are put down again, and handed out twice.
-/

namespace Declutter

namespace Syntax

/-- The items of a text that are statements. -/
def Source.statements (tree : Source) : List ItemSyntax := tree.items.filter (·.isStatement)

/-- A comment that lies in front of a stretch or behind it. -/
def Comment.IsOutside (comment : Comment) (span : Span) : Prop :=
  comment.span.stop ≤ span.start ∨ span.stop ≤ comment.span.start

end Syntax

/-! ## What is handed out -/

/-- The comments that a statement has been handed: its own and those of the members inside of it. -/
structure Share where
  own : List Syntax.Comment
  inner : List Syntax.Comment

namespace Share

open Syntax

/-- The comments of a share, in document order. -/
def comments (share : Share) : List Comment := share.own ++ share.inner

/-- A statement holds the texts of its share. -/
structure Holds (source : List Char) (share : Share) (statement : Statement) : Prop where
  leading : statement.leadingComments = share.own.map (Reading.commentText source)
  inner : statement.innerComments = share.inner.map (Reading.commentText source)

/-- The comments that one belongs to: those in front of the first statement that begins behind it,
or else those that are left at the end. -/
def next (comment : Comment) : List (ItemSyntax × Share) → (left : List Comment) → List Comment
  | [], left => left
  | (item, share) :: read, left =>
    if comment.span.stop ≤ item.span.start then share.own else next comment read left

end Share

namespace Reading

open Syntax

variable {source : List Char}

/-- Comments that do not overlap, in document order. -/
def Apart (comments : List Comment) : Prop := comments.Pairwise (·.span.stop ≤ ·.span.start)

instance (comments : List Comment) : Decidable (Apart comments) :=
  inferInstanceAs (Decidable (List.Pairwise _ _))

/-- Statements have been handed shares of some comments, in order, and the rest is left. Of comments
that do not overlap, those outside of all statements have gone where they belong. -/
structure Shared (source : List Char) (items : List ItemSyntax) (comments : List Comment)
    (statements : List Statement) (shares : List Share) (left : List Comment) : Prop where
  length : shares.length = items.length
  holds : List.Forall₂ (Share.Holds source) shares statements
  sublist : (shares.flatMap (·.comments) ++ left).Sublist comments
  next (hapart : Apart comments) : ∀ comment ∈ comments, comment.IsFilled →
    (∀ item ∈ items, comment.IsOutside item.span) →
      comment ∈ Share.next comment (items.zip shares) left

theorem mem_takeWhile_of_apart {comments : List Comment} (hapart : Apart comments)
    {place : Nat} {comment : Comment} (hmem : comment ∈ comments) (hfilled : comment.IsFilled)
    (hstop : comment.span.stop ≤ place) :
    comment ∈ comments.takeWhile (·.span.stop ≤ place) := by
  induction comments with
  | nil => cases hmem
  | cons first others ih =>
    obtain ⟨hfirst, hothers⟩ := List.pairwise_cons.mp hapart
    rw [List.takeWhile_cons]
    obtain rfl | hmem := List.mem_cons.mp hmem
    · rw [if_pos (decide_eq_true hstop)]
      exact List.mem_cons_self
    · -- What stands in front of the comment ends in front of it.
      have hended : first.span.stop ≤ place :=
        Nat.le_trans (hfirst comment hmem) (Nat.le_trans (Nat.le_of_lt hfilled) hstop)
      rw [if_pos (decide_eq_true hended)]
      exact List.mem_cons_of_mem _ (ih hothers hmem)

/-- A statement that is read from comments takes a share of the first of them. -/
theorem exists_share {item : ItemSyntax} (hitem : item.isStatement = true)
    (h : item.Within item.span.stop) {comments left : List Comment} {read : Option Statement}
    (hrun : (statement source item).run comments = .ok (read, left)) :
    ∃ (s : Statement) (share : Share) (gone : List Comment), read = some s ∧
      share.Holds source s ∧ share.own = comments.takeWhile (·.span.stop ≤ item.span.start) ∧
        comments = share.own ++ (gone ++ left) ∧ share.inner.Sublist gone ∧
          ∀ comment ∈ gone, GoneBy item.span.stop comment := by
  obtain ⟨behind, heq, hhands⟩ := statement_eq_takeComments source hitem h
  rw [heq, StateT.run_bind, run_takeComments] at hrun
  obtain ⟨gone, inner, hgone, hinner, hplaces, s, rfl, hleading, htexts⟩ :=
    hhands _ _ _ _ hrun
  refine ⟨s, ⟨comments.takeWhile (·.span.stop ≤ item.span.start), inner⟩, gone, rfl,
    ⟨hleading, htexts⟩, rfl, ?_, hinner, hplaces⟩
  rw [← hgone, List.takeWhile_append_dropWhile]

/-- A comment outside of a statement that is not in front of it is still there behind it. -/
theorem mem_left_of_behind {item : ItemSyntax} {comment : Comment} (hfilled : comment.IsFilled)
    (houtside : comment.IsOutside item.span) (hbehind : ¬ comment.span.stop ≤ item.span.start)
    {comments own gone left : List Comment} (hmem : comment ∈ comments)
    (howns : own = comments.takeWhile (·.span.stop ≤ item.span.start))
    (hcomments : comments = own ++ (gone ++ left))
    (hgone : ∀ comment ∈ gone, GoneBy item.span.stop comment) : comment ∈ left := by
  have hstart : item.span.stop ≤ comment.span.start := houtside.resolve_left hbehind
  have hfilled : comment.span.start < comment.span.stop := hfilled
  rw [hcomments, List.mem_append, List.mem_append] at hmem
  -- It has not been taken, since it does not end in front of the statement; and it is not gone,
  -- since it begins behind it.
  refine hmem.elim (fun hown => ?_) fun hmem => hmem.resolve_left fun hin => ?_
  · rw [howns] at hown
    have hended := List.mem_takeWhile_imp hown
    exact absurd (of_decide_eq_true hended) hbehind
  · have hplace : comment.span.start < item.span.stop ∨ comment.span.stop ≤ item.span.stop :=
      hgone comment hin
    omega

/-- The statements of items that stay within themselves are handed shares of the comments, in
order. -/
theorem exists_shares {items : List ItemSyntax}
    (h : ∀ item ∈ items, item.Within item.span.stop) {comments left : List Comment}
    {read : List Statement} (hrun : (statements source items).run comments = .ok (read, left)) :
    ∃ shares, Shared source (items.filter (·.isStatement)) comments read shares left := by
  -- By the items; each one takes its share of what those in front of it have left.
  induction items generalizing comments read with
  | nil =>
    cases hrun
    exact ⟨[], rfl, .nil, .refl _, fun _ comment hmem _ _ => hmem⟩
  | cons item items ih =>
    obtain ⟨hitem, hitems⟩ := List.forall_mem_cons.mp h
    obtain ⟨first, between, hfirst, hrun⟩ := exists_runs_of_bind hrun
    obtain ⟨others, left', hothers, hrun⟩ := exists_runs_of_bind hrun
    cases hrun
    obtain ⟨shares, hshared⟩ := ih hitems hothers
    by_cases hstatement : item.isStatement = true
    · obtain ⟨s, share, gone, rfl, hholds, howns, hcomments, hinner, hgone⟩ :=
        exists_share hstatement hitem hfirst
      have hbetween : between.Sublist comments := by
        rw [hcomments, ← List.append_assoc]
        exact List.sublist_append_right _ _
      rw [List.filter_cons_of_pos hstatement]
      refine ⟨share :: shares, congrArg (· + 1) hshared.length, .cons hholds hshared.holds, ?_,
        fun hapart comment hmem hfilled houtside => ?_⟩
      · rw [List.flatMap_cons, Share.comments, List.append_assoc, List.append_assoc, hcomments]
        exact (List.Sublist.refl _).append (hinner.append hshared.sublist)
      · obtain ⟨hout, hothersOut⟩ := List.forall_mem_cons.mp houtside
        show comment ∈ if comment.span.stop ≤ item.span.start then share.own else _
        -- It lies in front of this statement, or it is still there for those that follow.
        split
        case isTrue hstop =>
          rw [howns]
          exact mem_takeWhile_of_apart hapart hmem hfilled hstop
        case isFalse hbehind =>
          have hleft : comment ∈ between :=
            mem_left_of_behind hfilled hout hbehind hmem howns hcomments hgone
          exact hshared.next (hapart.sublist hbetween) comment hleft hfilled hothersOut
    · -- The empty statement is left out, and takes no comments.
      obtain ⟨span, rfl⟩ : ∃ span, item = .empty span := by
        match item, hstatement with
        | .empty span, _ => exact ⟨span, rfl⟩
        | .alias .., hno | .interface .., hno | .directive .., hno | .other .., hno =>
          exact absurd rfl hno
      cases hfirst
      exact ⟨shares, hshared⟩

/-- The comments of the statements are those of their shares, in the same order. -/
theorem comments_of_holds {shares : List Share} {read : List Statement}
    (h : List.Forall₂ (Share.Holds source) shares read) :
    read.flatMap (fun s => s.leadingComments ++ s.innerComments) =
      (shares.flatMap (·.comments)).map (commentText source) := by
  induction h with
  | nil => rfl
  | cons hholds _ ih =>
    rw [List.flatMap_cons, List.flatMap_cons, ih, hholds.leading, hholds.inner, List.map_append,
      Share.comments, List.map_append]

end Reading

/-! ## Files -/

namespace Syntax.Source

/-- A text as the grammar sees it, with the comments in the order in which they are put down. Often
that is the order of their places, and nothing is left to sort. -/
def asPutDown (text : List Char) : Except Fault Source :=
  match readItems (.ofFuel (8 * (text.length + 8))) (start text) with
  | .error fault _ => .error fault
  | .ok items state =>
    match state.journal.faults.getLast? with
    | some fault => .error fault
    | none => .ok ⟨items, state.journal.comments⟩

theorem parse_of_asPutDown {text : List Char} {tree : Source} (h : asPutDown text = .ok tree)
    (hsorted : tree.comments.Pairwise (·.span.start ≤ ·.span.start)) : parse text = .ok tree := by
  unfold asPutDown at h
  unfold parse
  dsimp only
  cases hrun : readItems (.ofFuel (8 * (text.length + 8))) (start text) with
  | error fault state =>
    rw [hrun] at h
    cases h
  | ok items state =>
    rw [hrun] at h
    dsimp only at h ⊢
    cases hfaults : state.journal.faults.getLast? with
    | some fault =>
      rw [hfaults] at h
      cases h
    | none =>
      rw [hfaults] at h
      cases h
      rw [List.mergeSort_of_pairwise (hsorted.imp decide_eq_true)]

end Syntax.Source

namespace SourceFile

open Syntax

variable {text : String} {file : SourceFile} {tree : Source}

theorem exists_shared_of_ofText (h : ofText text = .ok file)
    (hparse : Source.parse (Reading.withoutMark text.toList) = .ok tree) :
    ∃ shares trailing, Reading.Shared text.toList tree.statements tree.comments file.statements
        shares trailing ∧
      file.trailingComments = trailing.map (Reading.commentText text.toList) := by
  obtain ⟨tree', read, hparse', hread, hstatements, htrailing⟩ := exists_read_of_ofText h
  obtain rfl : tree = tree' := Except.ok.inj (hparse.symm.trans hparse')
  obtain ⟨shares, hshared⟩ := Reading.exists_shares (Source.within_of_parse hparse).1 hread
  rw [hstatements]
  exact ⟨shares, read.2, hshared, htrailing⟩

/-- The comments of a file, in document order, are some of those that were collected from the text,
in their order. -/
theorem comments_sublist (h : ofText text = .ok file)
    (hparse : Source.parse (Reading.withoutMark text.toList) = .ok tree) :
    (file.statements.flatMap (fun s => s.leadingComments ++ s.innerComments) ++
      file.trailingComments).Sublist (tree.comments.map (Reading.commentText text.toList)) := by
  obtain ⟨shares, trailing, hshared, htrailing⟩ := exists_shared_of_ofText h hparse
  rw [Reading.comments_of_holds hshared.holds, htrailing, ← List.map_append]
  exact hshared.sublist.map _

/-- The comments that a file holds are comments of the text at increasing places, and each comment
outside of all statements goes to the next one, or to the end of the file. -/
structure HandedOut (source : List Char) (tree : Source) (file : SourceFile) (shares : List Share)
    (trailing : List Comment) : Prop where
  length : shares.length = tree.statements.length
  holds : List.Forall₂ (Share.Holds source) shares file.statements
  trailing_eq : file.trailingComments = trailing.map (Reading.commentText source)
  collected : ∀ comment ∈ shares.flatMap (·.comments) ++ trailing, comment ∈ tree.comments
  increasing : (shares.flatMap (·.comments) ++ trailing).Pairwise (·.span.start < ·.span.start)
  next : ∀ comment ∈ tree.comments, (∀ item ∈ tree.statements, comment.IsOutside item.span) →
    comment ∈ Share.next comment (tree.statements.zip shares) trailing

/-- Where no two of the collected comments overlap, the comments are handed out once and in
order. -/
theorem handedOut_of_apart (h : ofText text = .ok file)
    (hparse : Source.parse (Reading.withoutMark text.toList) = .ok tree)
    (hapart : Reading.Apart tree.comments) :
    ∃ shares trailing, HandedOut text.toList tree file shares trailing := by
  obtain ⟨shares, trailing, hshared, htrailing⟩ := exists_shared_of_ofText h hparse
  have hfilled := (Source.within_of_parse hparse).2
  have hincreasing : tree.comments.Pairwise (·.span.start < ·.span.start) :=
    hapart.imp_of_mem fun hmem _ hle => Nat.lt_of_lt_of_le (hfilled _ hmem) hle
  exact ⟨shares, trailing, hshared.length, hshared.holds, htrailing, hshared.sublist.subset,
    hincreasing.sublist hshared.sublist,
    fun comment hmem => hshared.next hapart comment hmem (hfilled comment hmem)⟩

/-- A text whose comments are put down in order is read with these comments. -/
theorem ofText_of_asPutDown (text : String) (file : SourceFile) (comments : List Comment)
    (h : (Source.asPutDown (Reading.withoutMark text.toList)).map (fun tree => (tree.comments,
      ((Reading.statements text.toList tree.items).run tree.comments).map fun read =>
        SourceFile.mk read.1 (read.2.map (Reading.commentText text.toList)))) =
          .ok (comments, .ok file))
    (hsorted : comments.Pairwise (·.span.start ≤ ·.span.start)) :
    ofText text = .ok file ∧ ∃ tree,
      Source.parse (Reading.withoutMark text.toList) = .ok tree ∧ tree.comments = comments := by
  cases hput : Source.asPutDown (Reading.withoutMark text.toList) with
  | error fault =>
    rw [hput] at h
    cases h
  | ok tree =>
    rw [hput] at h
    obtain ⟨hcomments, hfile⟩ := Prod.mk.inj (Except.ok.inj h)
    have hparse := Source.parse_of_asPutDown hput (hcomments ▸ hsorted)
    refine ⟨?_, tree, hparse, hcomments⟩
    cases hread : (Reading.statements text.toList tree.items).run tree.comments with
    | error refusal =>
      rw [hread] at hfile
      cases hfile
    | ok read =>
      rw [hread] at hfile
      cases hfile
      simp only [ofText, hparse, Except.mapError, bind, Except.bind, hread]
      rfl

/-- `/*a*/type A={/*b*/x:{/*c*/y:B}};interface I extends C<{/*d*/z:D}>{}/*e*/` -/
def commented : SourceFile :=
  ⟨[.typeAlias ⟨["/*a*/"], [], "A", .typeLiteral [.property ⟨["/*b*/"], false, "x", false,
      .typeLiteral [.property ⟨["/*c*/"], false, "y", false, .named "B"⟩]⟩]⟩,
    .interface ⟨[], [], "I", [.reference "C" [.typeLiteral [.property ⟨["/*d*/"], false, "z", false,
      .named "D"⟩]]], []⟩], ["/*e*/"]⟩

theorem handedOut_commented :
    ∃ text tree shares trailing, ofText text = .ok commented ∧
      Source.parse (Reading.withoutMark text.toList) = .ok tree ∧ Reading.Apart tree.comments ∧
        HandedOut text.toList tree commented shares trailing := by
  obtain ⟨h, tree, hparse, hcomments⟩ := ofText_of_asPutDown
    "/*a*/type A={/*b*/x:{/*c*/y:B}};interface I extends C<{/*d*/z:D}>{}/*e*/" commented
    [⟨true, 0, 5⟩, ⟨true, 13, 18⟩, ⟨true, 21, 26⟩, ⟨true, 55, 60⟩, ⟨true, 67, 72⟩]
    (by decide +kernel) (by decide)
  have hapart : Reading.Apart tree.comments := by
    rw [hcomments]
    decide
  obtain ⟨shares, trailing, hhanded⟩ := handedOut_of_apart h hparse hapart
  exact ⟨_, tree, shares, trailing, h, hparse, hapart, hhanded⟩

/-- Behind the parenthesis at the end of the text it is read whether an arrow follows, and then the
end is read once more. So the comment is put down twice, and the alias is handed it twice. -/
theorem exists_comment_handedOut_twice :
    ∃ text file tree, ofText text = .ok file ∧
      Source.parse (Reading.withoutMark text.toList) = .ok tree ∧
        ¬ ∃ shares trailing, HandedOut text.toList tree file shares trailing := by
  obtain ⟨h, tree, hparse, hcomments⟩ := ofText_of_asPutDown "/*d*/type A=(B)"
    ⟨[.typeAlias ⟨["/*d*/", "/*d*/"], [], "A", .parenthesized (.named "B")⟩], []⟩
    [⟨true, 0, 5⟩, ⟨true, 0, 5⟩] (by decide +kernel) (by decide)
  refine ⟨_, _, tree, h, hparse, fun ⟨shares, trailing, hhanded⟩ => ?_⟩
  have hone (comment : Comment) (hmem : comment ∈ tree.comments) : comment = ⟨true, 0, 5⟩ := by
    rw [hcomments] at hmem
    exact (List.mem_cons.mp hmem).elim id List.mem_singleton.mp
  cases hhanded.holds with
  | @cons share _ shares _ hshare _ =>
    -- The alias has two comments, and both would be the one at the beginning.
    have htwo : share.own.length = 2 := by
      rw [← List.length_map, ← hshare.leading]
      rfl
    obtain ⟨first, second, hown⟩ := List.length_eq_two.mp htwo
    have hcollected := hhanded.collected
    have hincreasing := hhanded.increasing
    rw [List.flatMap_cons, Share.comments, hown] at hcollected hincreasing
    have hlt : first.span.start < second.span.start :=
      List.rel_of_pairwise_cons hincreasing List.mem_cons_self
    rw [hone first (hcollected first List.mem_cons_self),
      hone second (hcollected second (List.mem_cons_of_mem _ List.mem_cons_self))] at hlt
    exact Nat.lt_irrefl _ hlt

end SourceFile

end Declutter
