import SyntaxNav.Tree.Traversal

/-! # Finding the node at a span

A node is on the line of a span if it starts on the line where the span starts, and it fits the span if
moreover it ends on the line where the span ends and its columns enclose those of the span. The last
node that fits, in document order, is the innermost; if none fits, the first node on the line is taken.
-/

namespace SyntaxNav

namespace Span

/-- Whether a span starts on the line where another one starts. -/
def isOnLineOf (outer inner : Span) : Bool :=
  outer.start.line = inner.start.line

/-- Whether a span starts and ends on the lines of another one and its columns enclose it. -/
def fits (outer inner : Span) : Bool :=
  outer.isOnLineOf inner && outer.stop.line = inner.stop.line
    && outer.start.column ≤ inner.start.column && inner.stop.column ≤ outer.stop.column

end Span

namespace Visit

/-- Whether a visited node has a span on the line of a span. -/
def isOnLineOf (span : Span) (visit : Visit) : Bool :=
  visit.node.label.span.any (·.isOnLineOf span)

/-- Whether a visited node has a span that fits a span. -/
def fits (span : Span) (visit : Visit) : Bool :=
  visit.node.label.span.any (·.fits span)

end Visit

/-- What a search has found so far: the last node that fits, and the first node on the line. -/
structure Candidates where
  innermost : Option Path
  outermost : Option Path

/-- Goes on with one more node. Nodes without a span are passed over. -/
def Candidates.consider (span : Span) (found : Candidates) (visit : Visit) : Candidates :=
  match visit.node.label.span with
  | none => found
  | some own =>
    if own.isOnLineOf span then
      { innermost := if own.fits span then some visit.path else found.innermost
        outermost := if found.outermost.isNone then some visit.path else found.outermost }
    else
      found

/-- The path to the node at a span. -/
def Tree.locate? (tree : Tree) (span : Span) : Option Path :=
  let found := (Visit.including (.ofRoot tree)).foldl (Candidates.consider span) ⟨none, none⟩
  found.innermost.or found.outermost

namespace Candidates

private theorem consider_eq (span : Span) (found : Candidates) (visit : Visit) :
    found.consider span visit =
      ⟨if visit.fits span then some visit.path else found.innermost,
        if visit.isOnLineOf span then found.outermost.or (some visit.path) else found.outermost⟩ := by
  unfold consider Visit.fits Visit.isOnLineOf
  cases visit.node.label.span with
  | none => rfl
  | some own =>
    simp only [Option.any_some]
    by_cases onLine : own.isOnLineOf span = true
    · rw [if_pos onLine, if_pos onLine]
      cases found.outermost <;> rfl
    · have misfit : ¬ own.fits span = true := by simp [Span.fits, onLine]
      rw [if_neg onLine, if_neg onLine, if_neg misfit]

/-- A search adds to what it starts with: the last node that fits replaces the innermost one, and the first
node on the line is the outermost one if there was none. -/
theorem foldl_consider (span : Span) (visits : List Visit) (found : Candidates) :
    visits.foldl (consider span) found =
      ⟨((visits.filter (Visit.fits span)).getLast?.map (·.path)).or found.innermost,
        found.outermost.or ((visits.find? (Visit.isOnLineOf span)).map (·.path))⟩ := by
  induction visits generalizing found with
  | nil => simp
  | cons visit rest ih =>
    rw [List.foldl_cons, ih, consider_eq, List.filter_cons, List.find?_cons]
    congr 1
    · split
      · rw [List.getLast?_cons]
        cases (rest.filter (Visit.fits span)).getLast? <;> rfl
      · rfl
    · cases visit.isOnLineOf span with
      | true => cases found.outermost <;> rfl
      | false => rfl

end Candidates

/-- The last node that fits a span is found, or else the first node on its line. -/
theorem Tree.locate?_eq (tree : Tree) (span : Span) :
    tree.locate? span = ((((Visit.including (.ofRoot tree)).filter (Visit.fits span)).getLast?).or
      ((Visit.including (.ofRoot tree)).find? (Visit.isOnLineOf span))).map (·.path) := by
  rw [locate?, Candidates.foldl_consider, Option.or_none, Option.none_or, Option.map_or]

end SyntaxNav
