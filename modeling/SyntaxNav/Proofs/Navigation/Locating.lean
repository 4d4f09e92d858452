import SyntaxNav.Navigation.Locate
import SyntaxNav.Proofs.Tree.DocumentOrder

/-! # Which node is found at a span

Two kinds of nodes can be found at a span: nodes that start on its first line, and among them those
that also end on its last line and enclose its columns. Nothing is asked of the spans in the tree: they
may be missing, run backward or lie outside those of their parents. The search keeps the last node of the
second kind and else the first of the first kind, so what it finds is told by document order alone. A
path comes before all that lie below it, hence the last match has no match inside and the first none
around it.
-/

namespace SyntaxNav

section Ordered

variable {α : Type} {items : List α} {before : α → α → Prop} {isFound : α → Bool} {item : α}

/-- The last match in an ordered list comes after all others. -/
private theorem last_match (ordered : items.Pairwise before)
    (last : (items.filter isFound).getLast? = some item) :
    ∀ other ∈ items, isFound other = true → other = item ∨ before other item := by
  obtain ⟨others, whole⟩ := List.getLast?_eq_some_iff.mp last
  have pairs := ordered.filter isFound
  rw [whole, List.pairwise_append] at pairs
  intro other member found
  have listed : other ∈ others ++ [item] := whole ▸ List.mem_filter.mpr ⟨member, found⟩
  rcases List.mem_append.mp listed with earlier | here
  · exact .inr (pairs.2.2 other earlier item (List.mem_singleton_self item))
  · exact .inl (List.mem_singleton.mp here)

/-- The first match in an ordered list comes before all others. -/
private theorem first_match (ordered : items.Pairwise before) (first : items.find? isFound = some item) :
    ∀ other ∈ items, isFound other = true → other = item ∨ before item other := by
  obtain ⟨-, front, back, rfl, none⟩ := List.find?_eq_some_iff_append.mp first
  have pairs := List.pairwise_cons.mp (List.pairwise_append.mp ordered).2.1
  intro other member found
  rcases List.mem_append.mp member with earlier | behind
  · have noMatch := none other earlier
    rw [found] at noMatch
    cases noMatch
  · rcases List.mem_cons.mp behind with here | later
    · exact .inl here
    · exact .inr (pairs.1 other later)

end Ordered

namespace Tree

/-- A path leads to a node that starts on the line where a span starts. -/
def LineMatch (tree : Tree) (span : Span) (path : Path) : Prop :=
  ∃ node own, tree.Leads path node ∧ node.label.span = some own ∧ own.start.line = span.start.line

/-- A path leads to a node that starts and ends on the lines of a span and encloses its columns. -/
def ExactMatch (tree : Tree) (span : Span) (path : Path) : Prop :=
  ∃ node own, tree.Leads path node ∧ node.label.span = some own ∧
    own.start.line = span.start.line ∧ own.stop.line = span.stop.line ∧
    own.start.column ≤ span.start.column ∧ span.stop.column ≤ own.stop.column

variable {tree : Tree} {span : Span} {path : Path}

/-- A node that encloses a span also starts on its line. -/
theorem ExactMatch.lineMatch (enclosing : tree.ExactMatch span path) : tree.LineMatch span path := by
  obtain ⟨node, own, leads, spanned, line, -⟩ := enclosing
  exact ⟨node, own, leads, spanned, line⟩

/-- Only paths of the tree match a span. -/
theorem LineMatch.genuine (line : tree.LineMatch span path) : path.Genuine tree := by
  obtain ⟨node, -, leads, -⟩ := line
  exact leads.genuine

private theorem lineMatch_iff : tree.LineMatch span path ↔
    ∃ visit ∈ Visit.including (.ofRoot tree), visit.isOnLineOf span = true ∧ visit.path = path := by
  constructor
  · rintro ⟨node, own, leads, spanned, line⟩
    refine ⟨⟨path, node⟩, Visit.mem_including_root_iff.mpr leads, ?_, rfl⟩
    simpa only [Visit.isOnLineOf, spanned, Option.any_some, Span.isOnLineOf, decide_eq_true_eq]
  · rintro ⟨visit, member, onLine, rfl⟩
    obtain ⟨own, spanned, line⟩ := (Option.any_eq_true _ _).mp onLine
    exact ⟨visit.node, own, Visit.mem_including_root_iff.mp member, spanned, of_decide_eq_true line⟩

private theorem exactMatch_iff : tree.ExactMatch span path ↔
    ∃ visit ∈ Visit.including (.ofRoot tree), visit.fits span = true ∧ visit.path = path := by
  constructor
  · rintro ⟨node, own, leads, spanned, line, lastLine, starts, stops⟩
    refine ⟨⟨path, node⟩, Visit.mem_including_root_iff.mpr leads, ?_, rfl⟩
    simp only [Visit.fits, spanned, Option.any_some, Span.fits, Span.isOnLineOf, Bool.and_eq_true,
      decide_eq_true_eq]
    exact ⟨⟨⟨line, lastLine⟩, starts⟩, stops⟩
  · rintro ⟨visit, member, fits, rfl⟩
    obtain ⟨own, spanned, fits⟩ := (Option.any_eq_true _ _).mp fits
    simp only [Span.fits, Span.isOnLineOf, Bool.and_eq_true, decide_eq_true_eq] at fits
    obtain ⟨⟨⟨line, lastLine⟩, starts⟩, stops⟩ := fits
    exact ⟨visit.node, own, Visit.mem_including_root_iff.mp member, spanned, line, lastLine, starts,
      stops⟩

/-- A node that encloses the span is found if there is one: the last in document order. -/
theorem locate?_of_exactMatch (built : tree.Built) (enclosing : tree.ExactMatch span path) :
    ∃ found, tree.locate? span = some found ∧ tree.ExactMatch span found ∧
      ∀ other, tree.ExactMatch span other → other ≠ found → other.Precedes tree found := by
  obtain ⟨visit, member, fits, -⟩ := exactMatch_iff.mp enclosing
  have listed : (Visit.including (.ofRoot tree)).filter (Visit.fits span) ≠ [] :=
    List.ne_nil_of_mem (List.mem_filter.mpr ⟨member, fits⟩)
  have last := List.getLast?_eq_some_getLast listed
  obtain ⟨foundMember, foundFits⟩ := List.mem_filter.mp (List.getLast_mem listed)
  refine ⟨_, by rw [locate?_eq, last]; rfl, exactMatch_iff.mpr ⟨_, foundMember, foundFits, rfl⟩, ?_⟩
  intro other otherExact apart
  obtain ⟨otherVisit, otherMember, otherFits, rfl⟩ := exactMatch_iff.mp otherExact
  rcases last_match built.including_ordered last otherVisit otherMember otherFits with same | order
  · exact absurd (congrArg Visit.path same) apart
  · exact order

/-- If no node encloses the span, the first node on its line is found if there is one. -/
theorem locate?_of_lineMatch (built : tree.Built) (line : tree.LineMatch span path)
    (none : ∀ other, ¬ tree.ExactMatch span other) :
    ∃ found, tree.locate? span = some found ∧ tree.LineMatch span found ∧
      ∀ other, tree.LineMatch span other → other ≠ found → found.Precedes tree other := by
  obtain ⟨visit, member, onLine, -⟩ := lineMatch_iff.mp line
  have nothing : (Visit.including (.ofRoot tree)).filter (Visit.fits span) = [] := by
    refine List.filter_eq_nil_iff.mpr fun other otherMember fits => ?_
    exact none other.path (exactMatch_iff.mpr ⟨other, otherMember, fits, rfl⟩)
  obtain ⟨first, found⟩ := Option.isSome_iff_exists.mp (List.find?_isSome.mpr ⟨visit, member, onLine⟩)
  refine ⟨first.path, by rw [locate?_eq, nothing, found]; rfl, ?_, ?_⟩
  · exact lineMatch_iff.mpr ⟨first, List.mem_of_find?_eq_some found, List.find?_some found, rfl⟩
  · intro other otherLine apart
    obtain ⟨otherVisit, otherMember, otherOnLine, rfl⟩ := lineMatch_iff.mp otherLine
    rcases first_match built.including_ordered found otherVisit otherMember otherOnLine with same | order
    · exact absurd (congrArg Visit.path same) apart
    · exact order

private theorem locate?_eq_none_iff (built : tree.Built) :
    tree.locate? span = none ↔ ∀ path, ¬ tree.LineMatch span path := by
  constructor
  · intro nothing path line
    by_cases enclosed : ∃ other, tree.ExactMatch span other
    · obtain ⟨other, enclosing⟩ := enclosed
      obtain ⟨found, located, -⟩ := locate?_of_exactMatch built enclosing
      cases nothing.symm.trans located
    · obtain ⟨found, located, -⟩ := locate?_of_lineMatch built line (not_exists.mp enclosed)
      cases nothing.symm.trans located
  · intro none
    have noLine : (Visit.including (.ofRoot tree)).find? (Visit.isOnLineOf span) = .none :=
      List.find?_eq_none.mpr fun visit member onLine =>
        none visit.path (lineMatch_iff.mpr ⟨visit, member, onLine, rfl⟩)
    have noFit : (Visit.including (.ofRoot tree)).filter (Visit.fits span) = [] :=
      List.filter_eq_nil_iff.mpr fun visit member fits =>
        none visit.path (exactMatch_iff.mpr ⟨visit, member, fits, rfl⟩).lineMatch
    rw [locate?_eq, noLine, noFit]
    rfl

/-- Nothing is found at a span just if no node starts on its first line. If some node also ends on its
last line and encloses its columns, the last such node in document order is found, and no such node lies
below it. Otherwise the first node on the line is found, and no node above it is on the line. -/
theorem locate_finds_last_exact_or_first_on_line (built : tree.Built) (span : Span) :
    (tree.locate? span = none ↔ ∀ path, ¬ tree.LineMatch span path) ∧
      ((∃ path, tree.ExactMatch span path) →
        ∃ found, tree.locate? span = some found ∧ tree.ExactMatch span found ∧
          (∀ other, tree.ExactMatch span other → other ≠ found → other.Precedes tree found) ∧
          ∀ inner, inner.Below found → ¬ tree.ExactMatch span inner) ∧
      ((∃ path, tree.LineMatch span path) → (∀ path, ¬ tree.ExactMatch span path) →
        ∃ found, tree.locate? span = some found ∧ tree.LineMatch span found ∧
          (∀ other, tree.LineMatch span other → other ≠ found → found.Precedes tree other) ∧
          ∀ above, found.Below above → ¬ tree.LineMatch span above) := by
  refine ⟨locate?_eq_none_iff built, ?_, ?_⟩
  · rintro ⟨path, enclosing⟩
    obtain ⟨found, located, foundExact, last⟩ := locate?_of_exactMatch built enclosing
    refine ⟨found, located, foundExact, last, ?_⟩
    intro inner below innerExact
    have before := below.precedes innerExact.lineMatch.genuine built
    exact before.asymm (last inner innerExact below.2)
  · rintro ⟨path, line⟩ none
    obtain ⟨found, located, foundLine, first⟩ := locate?_of_lineMatch built line none
    refine ⟨found, located, foundLine, first, ?_⟩
    intro above below aboveLine
    have before := below.precedes foundLine.genuine built
    exact before.asymm (first above aboveLine below.2.symm)

/-- Five nodes over two lines: a name without a span, one inside the span of its parent, one whose span
runs backward, and a list that has no span. -/
def scatteredCalls : List Builder.Call :=
  [⟨⟨"Name", none, some "a"⟩, []⟩, ⟨⟨"Name", some ⟨⟨2, 5⟩, ⟨2, 7⟩⟩, some "b"⟩, []⟩,
    ⟨⟨"Name", some ⟨⟨2, 9⟩, ⟨2, 4⟩⟩, some "c"⟩, []⟩,
    ⟨⟨"Group", some ⟨⟨2, 2⟩, ⟨2, 6⟩⟩, none⟩, [.single "left" (some 0), .single "right" (some 1)]⟩,
    ⟨⟨"List", none, none⟩, [.list "items" [3, 2]]⟩]

/-- Where two nodes that overlap both enclose a position, the one below the other is found. -/
theorem locate_finds_name_in_group :
    ∃ builder tree found, Builder.run scatteredCalls = .ok builder ∧ builder.finish 0 4 = .ok tree ∧
      tree.locate? (.point ⟨2, 6⟩) = some found ∧ found.render = "Path(items[0].right)" ∧
      ∀ inner, inner.Below found → ¬ tree.ExactMatch (.point ⟨2, 6⟩) inner := by
  have ran : ∃ builder, Builder.run scatteredCalls = .ok builder := ⟨_, rfl⟩
  have shown : (Builder.run scatteredCalls >>= (·.finish 0 4)).toOption.map (fun tree =>
      ((tree.locate? (.point ⟨2, 6⟩)).map Path.render,
        (Visit.including (.ofRoot tree)).any (Visit.fits (.point ⟨2, 6⟩)))) =
      some (some "Path(items[0].right)", true) := by
    decide +kernel
  obtain ⟨builder, ran⟩ := ran
  rw [ran] at shown
  obtain ⟨tree, finished, seen⟩ := Option.map_eq_some_iff.mp shown
  obtain ⟨rendered, fitting⟩ := Prod.mk.inj seen
  have finished : builder.finish 0 4 = .ok tree := by
    cases result : builder.finish 0 4 <;> simp_all [bind, Except.bind, Except.toOption]
  have built : tree.Built := by
    have id : tree.id = 0 := by
      obtain ⟨node, -, rfl⟩ := Builder.finish_eq_ok_iff.mp finished
      rfl
    exact ⟨builder, 4, Builder.Reachable.empty.runFrom ran, by rw [id]; exact finished⟩
  obtain ⟨visit, member, fits⟩ := List.any_eq_true.mp fitting
  obtain ⟨-, last, -⟩ := locate_finds_last_exact_or_first_on_line built (.point ⟨2, 6⟩)
  obtain ⟨found, located, -, -, innermost⟩ :=
    last ⟨visit.path, exactMatch_iff.mpr ⟨visit, member, fits, rfl⟩⟩
  rw [located] at rendered
  exact ⟨builder, tree, found, ran, finished, located, Option.some.inj rendered, innermost⟩

end Tree

end SyntaxNav
