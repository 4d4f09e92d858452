import SyntaxNav.Record.Compound
import SyntaxNav.Record.Quotation

/-! # Whole texts in record notation

A text is a value, with attributes in front that enable extensions of the notation.
-/

namespace SyntaxNav.Record

/-- Tries each of some words in turn, with gaps behind them, and says whether all were there. The first
fault in a gap is kept until all words are tried. -/
def consumeAll : List String → Reader Bool
  | [] => return true
  | word :: rest => do
    let fault ← tryCatch (do
      let found ← consume word
      if found then
        skipGap
      return Except.ok found) fun fault => return Except.error fault
    match fault with
    | .error fault =>
      discard (tryCatch (consumeAll rest) fun _ => return false)
      throw fault
    | .ok found => return (← consumeAll rest) && found

/-- What an attribute can enable. -/
def extensions : List String :=
  ["unwrap_newtypes", "implicit_some", "unwrap_variant_newtypes"]

/-- What an attribute enables: names with commas between them, at most so many. -/
def enabledUpTo : Nat → Reader Unit
  | 0 => throw .textEnd
  | limit + 1 => do
    let name ← identifier
    if name ∉ extensions then
      throw (.unknownExtension name)
    if name = "implicit_some" then
      modify fun source => { source with implicitSome := true }
    let hadComma ← eatComma
    if (← peek).any isNamePart then
      if hadComma then
        enabledUpTo limit
      else
        throw .comma

/-- The attributes in front of a text, at most so many. -/
def attributesUpTo : Nat → Reader Unit
  | 0 => throw .textEnd
  | limit + 1 => do
    if (← peek) = some 0x23 then
      if !(← consumeAll ["#", "!", "[", "enable", "("]) then
        throw .attributeOpening
      enabledUpTo ((← get).rest.length + 1)
      skipGap
      if !(← consumeAll [")", "]"]) then
        throw .attributeEnd
      skipGap
      attributesUpTo limit

/-- A whole text: attributes and one value. -/
def whole {α : Type} (value : Reader α) : Reader α := do
  skipGap
  attributesUpTo ((← get).rest.length + 1)
  let result ← value
  skipGap
  if (← peek).isSome then
    throw .trailing
  return result

def readText {α : Type} (value : Reader α) (text : String) : Except Error α :=
  match whole value (.ofText text) with
  | .ok result _ => .ok result
  | .error fault source => .error ⟨source.line, source.column, fault⟩

end SyntaxNav.Record
