import SyntaxNav.Navigation.Navigator

/-! # Navigation with notes

The moves of a navigator, with entries on what was found and on paths that were turned away.
-/

namespace SyntaxNav.Navigator

variable (navigator : Navigator)

/-- Notes a path of another tree. -/
def noteForeign (path : Path) : Noted Unit :=
  if path.belongsTo navigator.tree then pure ()
  else .note .warn ("Ignoring path " ++ path.render ++ " from a different parse")

def notedLocate (span : Span) : Noted (Option Path) := do
  let found := navigator.locate span
  .note .trace ("locate " ++ span.render ++ " -> " ++ Path.renderOption found)
  return found

/-- Goes to the parent of the current node, or finds the node at a span. -/
def notedExpand (span : Span) : Option Path → Noted (Option Path)
  | some path => do
    navigator.noteForeign path
    return navigator.expand span (some path)
  | none => navigator.notedLocate span

def notedShrink (path : Path) : Noted (Except Defect (Option Path)) := do
  navigator.noteForeign path
  return navigator.shrink path

def noteStep (direction : Direction) (path : Path) : Except Defect (Option Path) → Noted Unit
  | .ok target =>
    .note .trace (direction.name ++ " " ++ path.render ++ " -> " ++ Path.renderOption target)
  | .error _ => pure ()

def notedStep (direction : Direction) (path : Path) : Noted (Except Defect (Option Path)) := do
  navigator.noteForeign path
  noteStep direction path (navigator.step direction path)
  return navigator.step direction path

def noteTarget : RemovalTarget → Noted Unit
  | .current path => navigator.noteForeign path
  | .atSpan span => discard (navigator.notedLocate span)

def notedPlan (target : RemovalTarget) : Noted (Except Defect (Option Removal)) := do
  navigator.noteTarget target
  return navigator.plan target

@[simp] theorem value_notedLocate (span : Span) :
    (navigator.notedLocate span).value = navigator.locate span := rfl

@[simp] theorem value_notedExpand (span : Span) (current : Option Path) :
    (navigator.notedExpand span current).value = navigator.expand span current := by
  cases current <;> rfl

@[simp] theorem value_notedShrink (path : Path) :
    (navigator.notedShrink path).value = navigator.shrink path := rfl

@[simp] theorem value_notedStep (direction : Direction) (path : Path) :
    (navigator.notedStep direction path).value = navigator.step direction path := rfl

@[simp] theorem value_notedPlan (target : RemovalTarget) :
    (navigator.notedPlan target).value = navigator.plan target := rfl

end SyntaxNav.Navigator
