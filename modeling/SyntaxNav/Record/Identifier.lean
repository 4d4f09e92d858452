import SyntaxNav.Record.Source

/-! # Names in record notation

Names are plain, or raw behind a mark. Raw names may hold bytes that plain names cannot.
-/

namespace SyntaxNav.Record

/-- A plain name. A longer run of bytes that could be a raw name is refused. -/
def plainName : Reader String := do
  let rest := (← get).rest
  let name := rest.takeWhile isNamePart
  let raw := rest.takeWhile isRawPart
  if raw.length > name.length then
    throw (.rawIdentifier (asciiText raw))
  else
    advance name.length
    return asciiText name

/-- A name, or a raw name behind `r#`. -/
def identifier : Reader String := do
  let first ← peekByte
  if isNameStart first then
    match (← get).rest with
    | [0x72] => throw .textEnd
    | 0x72 :: 0x22 :: _ => throw .identifier
    | 0x72 :: 0x23 :: rest =>
      let raw := rest.takeWhile isRawPart
      if raw = [] then
        throw .identifier
      else
        advance (2 + raw.length)
        return asciiText raw
    | _ => plainName
  else if isRawPart first then
    throw (.rawIdentifier (asciiText ((← get).rest.takeWhile isRawPart)))
  else
    throw .identifier

end SyntaxNav.Record
