import SyntaxNav.Journal.Entry

/-! # Field orders

For some kinds of nodes the order of their fields is known. Behind a field stands the next one, if there
is one; before a field stands the previous one, and before the first field the last.
-/

namespace SyntaxNav

/-- The known kinds of nodes, each with its fields in order. -/
structure FieldOrder where
  entries : List (String × List String)
deriving DecidableEq, Repr

namespace FieldOrder

/-- Why entries make no field order. -/
inductive Error where
  /-- A kind has no fields. -/
  | noFields (kind : String)
  /-- A kind has a field twice. -/
  | repeatedField (kind field : String)
  /-- A kind has two entries. -/
  | repeatedKind (kind : String)
deriving DecidableEq, Repr

def Error.message : Error → String
  | noFields kind => "Node kind '" ++ kind ++ "' has no fields"
  | repeatedField kind field => "Node kind '" ++ kind ++ "' lists field '" ++ field ++ "' twice"
  | repeatedKind kind => "Node kind '" ++ kind ++ "' is listed twice"

/-- The first field that stands among the fields before it. -/
def firstRepeated? (earlier : List String) : List String → Option String
  | [] => none
  | field :: rest =>
    if field ∈ earlier then some field else firstRepeated? (field :: earlier) rest

/-- What is wrong with an entry behind entries of some kinds. -/
def entryError? (earlier : List String) (kind : String) (fields : List String) : Option Error :=
  if fields = [] then some (.noFields kind)
  else
    match firstRepeated? [] fields with
    | some field => some (.repeatedField kind field)
    | none => if kind ∈ earlier then some (.repeatedKind kind) else none

/-- What is wrong with the first wrong entry behind entries of some kinds. -/
def firstError? (earlier : List String) : List (String × List String) → Option Error
  | [] => none
  | (kind, fields) :: rest =>
    (entryError? earlier kind fields).or (firstError? (kind :: earlier) rest)

def ofEntries (entries : List (String × List String)) : Except Error FieldOrder :=
  match firstError? [] entries with
  | some error => .error error
  | none => .ok ⟨entries⟩

def empty : FieldOrder := ⟨[]⟩

def fields? (order : FieldOrder) (kind : String) : Option (List String) :=
  order.entries.lookup kind

def after? (order : FieldOrder) (kind field : String) : Option String := do
  let fields ← order.fields? kind
  let index ← fields.idxOf? field
  fields[index + 1]?

/-- The field before a field of a known kind, which is the last field for the first one. -/
def before? (order : FieldOrder) (kind field : String) : Option String := do
  let fields ← order.fields? kind
  let index ← fields.idxOf? field
  if index = 0 then fields.getLast? else fields[index - 1]?

/-- The field order that comes with the program. -/
def bundled : FieldOrder where
  entries :=
    [("FunctionDeclaration", ["id", "params", "body"]),
      ("ClassDeclaration", ["id", "superClass", "body"]),
      ("ForStatement", ["init", "test", "update", "body"]),
      ("ConditionalExpression", ["test", "consequent", "alternate"]),
      ("IfStatement", ["test", "consequent", "alternate"]),
      ("ObjectMethod", ["key", "params", "body"])]

/-- The bundled field order passes the checks that loaded ones have to pass. -/
theorem ofEntries_bundled : ofEntries bundled.entries = .ok bundled := by
  rfl

/-- A field order from a named file, noted as loaded. -/
def loaded (order : FieldOrder) (file : String) : Noted FieldOrder := do
  .note .debug
    ("Loaded slot schema for " ++ toString order.entries.length ++ " node kinds from " ++ file)
  return order

def loadBundled : Noted FieldOrder :=
  bundled.loaded "data/slot_schema.ron"

end FieldOrder

end SyntaxNav
