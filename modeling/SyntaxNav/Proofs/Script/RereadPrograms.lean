import SyntaxNav.Proofs.Script.RereadStatements

/-! # Programs are read back

Classes complete the forms. `Readable` says for each category what it means that a draft is read back from
what is written for it, and an induction over `Formed` proves it of every form. At the end whole programs
are read back: `parseTokens` gives the program, or reaches the limit of nesting.
-/

namespace SyntaxNav.Script

open Phrase (readWithin)

section Classes

variable {key value body id : Draft} {params members : List Draft} {kinds link : List TokenKind}
  {text : Option String}

def isMemberStart : TokenKind → Bool
  | .word _ | .number _ | .string _ => true
  | .punct text => text = "["

/-- What is written for a member of a class is read back. -/
structure Membered (draft : Draft) : Prop where
  starts : Starts (pieceOf draft).closed isMemberStart
  reads : ∀ limit rest, 5 * (pieceOf draft).closed.length ≤ limit →
    Rereads (classMember (readWithin limit)) (pieceOf draft).closed draft rest

def isKeyEnd (kind : TokenKind) : Bool :=
  [.punct "(", .punct "=", .punct ";"].contains kind

/-- The word `static` is told from a key of that name by the token behind it. -/
theorem atStatic_written (isKey : Key kinds key) (known : text = none ∨ text = some "static")
    (linked : Starts link isKeyEnd) (depth : Nat) :
    (Cursor.over (staticTokens text ++ (kinds ++ link)) depth).atStatic =
      decide (text = some "static") := by
  obtain ⟨kind, more, rfl, punct, alone⟩ := isKey.starts
  rcases known with rfl | rfl
  · cases kind with
    | number _ | string _ | punct _ => rfl
    | word name =>
      rw [alone name rfl]
      -- A key of this name is a single word, so the link tells it from the mark.
      by_cases same : name = "static"
      · subst same
        obtain ⟨mark, rest, rfl, ends⟩ := linked
        have marks := List.contains_iff_mem.mp ends
        simp only [List.mem_cons, List.not_mem_nil, or_false] at marks
        rcases marks with rfl | rfl | rfl <;> rfl
      · simp [Cursor.atStatic, staticTokens, same]
  · cases kind with
    | word _ | number _ | string _ => rfl
    | punct mark =>
      rw [punct mark rfl]
      rfl

private theorem starts_member (isKey : Key kinds key) (known : text = none ∨ text = some "static")
    (rest : List TokenKind) : Starts (staticTokens text ++ (kinds ++ rest)) isMemberStart := by
  obtain ⟨kind, more, rfl, punct, -⟩ := isKey.starts
  rcases known with rfl | rfl
  · apply Starts.cons
    cases kind with
    | word _ | number _ | string _ => rfl
    | punct mark => simp [isMemberStart, punct mark rfl]
  · exact .cons rfl

/-- A member is read back from its key and what follows it. -/
theorem membered_of_link {draft : Draft} (known : text = none ∨ text = some "static")
    (isKey : Key kinds key) (writes : (pieceOf draft).closed = staticTokens text ++ (kinds ++ link))
    (linked : Starts link isKeyEnd)
    (reads : ∀ limit rest, 5 * link.length ≤ limit → Rereads (do
      if ← atPunct "(" then
        method (readWithin limit) "ClassMethod" .origin text key
      else
        let value ←
          if ← eatPunct "=" then pure (some (← readWithin limit .assignment)) else pure none
        semicolon
        node "ClassProperty" .origin text [.single "key" key, .single "value" value])
      link draft rest) : Membered draft := by
  constructor
  · rw [writes]
    exact starts_member isKey known link
  · intro limit rest enough depth
    rw [writes] at enough ⊢
    simp only [List.length_append] at enough
    have behind := reads limit rest (by omega) depth
    have key := isKey.reads limit (link ++ rest) (by omega)
    simp only [classMember, gives_bind, gives_here, gives_get, List.append_assoc,
      atStatic_written isKey known (linked.append rest)]
    rcases known with rfl | rfl
    · simp only [staticTokens, reduceCtorEq, decide_false, Bool.false_eq_true, ↓reduceIte,
        List.nil_append, gives_bind]
      apply key.gives
      simpa only [gives_bind] using behind
    · simp only [staticTokens, decide_true, ↓reduceIte, List.cons_append, List.nil_append, gives_bind,
        gives_advance]
      apply key.gives
      simpa only [gives_bind] using behind

private theorem method_membered (known : text = none ∨ text = some "static")
    (isKey : Key (pieceOf key).key key)
    (each : ∀ draft ∈ params, Item param (tokensOf draft) draft) (blocked : Blocked body) :
    Membered (tree "ClassMethod" text
      [.single "key" key, .list "params" params, .single "body" body]) := by
  apply membered_of_link known isKey ((closed_plain (by decide)).trans (tokensOf_classMethod _ _ _ _))
    (.cons (by decide))
  intro limit rest enough depth
  rw [List.length_append, length_parens] at enough
  have opens : (parens (commas (params.map tokensOf)) ++ tokensOf body ++ rest).head? =
      some (.punct "(") := rfl
  simp only [gives_bind, gives_atPunct, opens, decide_true, ↓reduceIte]
  exact method_reread each blocked (by omega) rest depth

private theorem property_membered {init : Option Draft} (known : text = none ∨ text = some "static")
    (isKey : Key (pieceOf key).key key) (expressed : ∀ draft ∈ init, Expressed draft) :
    Membered (tree "ClassProperty" text [.single "key" key, .single "value" init]) := by
  have writes : (pieceOf (tree "ClassProperty" text
      [.single "key" key, .single "value" init])).closed = staticTokens text ++ ((pieceOf key).key ++
        (init.toList.flatMap (fun value => .punct "=" :: (pieceOf value).operand) ++
          [.punct ";"])) := by
    rw [closed_semicolon (by decide), tokensOf_classProperty]
    simp only [List.append_assoc]
  apply membered_of_link known isKey writes
  · cases init <;> exact .cons (by decide)
  · intro limit rest enough depth
    cases init with
    | none => simp
    | some value =>
      have operand := (expressed value rfl).operand
      simp only [flatMap_some, List.cons_append, List.length_cons, List.length_append,
        List.length_nil] at enough
      simp only [flatMap_some, gives_bind, gives_atPunct, gives_eatPunct, List.cons_append, List.nil_append,
        List.append_assoc, List.head?_cons, Option.some.injEq, TokenKind.punct.injEq, String.reduceEq,
        decide_false, Bool.false_eq_true, ↓reduceIte, List.tail_cons]
      apply (operand.assignment (by omega) (by decide)).gives
      simp

private theorem classBody_reread (each : ∀ draft ∈ members, Membered draft) {limit : Nat}
    (enough : 5 * (tokensOf (tree "ClassBody" none [.list "body" members])).length ≤ limit)
    (rest : List TokenKind) :
    Rereads (classBody (readWithin limit)) (tokensOf (tree "ClassBody" none [.list "body" members]))
      (tree "ClassBody" none [.list "body" members]) rest := by
  intro depth
  rw [tokensOf_classBody] at enough ⊢
  rw [length_braces] at enough
  simp only [classBody, braces, gives_bind, gives_here, List.cons_append, List.append_assoc,
    List.nil_append, gives_expectPunct]
  have repeats : Repeats (eatPunct "\x7d") (classItem (readWithin limit)) []
      (fun member => member.elim [] fun draft => (pieceOf draft).closed) (fun _ => True)
      (members.map some) depth := by
    constructor
    · rintro _ isMember rest
      obtain ⟨draft, member, rfl⟩ := List.mem_map.mp isMember
      have going : ((pieceOf draft).closed ++ rest).head? ≠ some (.punct "\x7d") :=
        ((each draft member).starts.append rest).head?_ne (by decide)
      simp only [List.nil_append, Option.elim_some, gives_eatPunct, going, ↓reduceIte, and_self]
    · rintro _ isMember rest - depth
      obtain ⟨draft, member, rfl⟩ := List.mem_map.mp isMember
      have going : ((pieceOf draft).closed ++ rest).head? ≠ some (.punct ";") :=
        ((each draft member).starts.append rest).head?_ne (by decide)
      have shorter := length_le_flatMap (fun draft => (pieceOf draft).closed) member
      simp only [Option.elim_some, classItem, gives_bind, gives_eatPunct, going, ↓reduceIte,
        Bool.false_eq_true]
      apply ((each draft member).reads limit rest (by omega)).gives
      simp
    · simp
  have someTokens : ∀ member ∈ members.map some,
      [] ++ member.elim [] (fun draft => (pieceOf draft).closed) ≠ [] := by
    intro _ isMember
    obtain ⟨draft, member, rfl⟩ := List.mem_map.mp isMember
    exact (each draft member).starts.ne_nil
  have again := repeats.many (.punct "\x7d" :: rest) rest trivial someTokens (by simp)
  simp only [List.flatMap_map, List.nil_append, Option.elim_some] at again
  apply again.mono
  rintro _ _ ⟨rfl, rfl⟩
  simp

private theorem class_stated {superClass : Option Draft} (named : Named id)
    (expressed : ∀ draft ∈ superClass, Expressed draft) (each : ∀ draft ∈ members, Membered draft) :
    Stated (tree "ClassDeclaration" none [.single "id" id, .single "superClass" superClass,
      .single "body" (tree "ClassBody" none [.list "body" members])]) := by
  apply Stated.of_statement ((closed_plain (by decide)).trans (tokensOf_classDeclaration _ _ _))
    (.cons (by decide))
  intro limit rest enough _ _ depth
  simp only [List.length_cons, List.length_append] at enough
  have body : Rereads (classBody (readWithin limit)) _ _ rest :=
    classBody_reread each (by omega) rest
  apply Gives.of_eq (classDeclaration (readWithin limit)) (by rfl)
  simp only [classDeclaration, gives_bind, gives_here, List.cons_append, gives_advance,
    List.append_assoc]
  apply named.gives
  cases superClass with
  | none =>
    have noParent : (tokensOf (tree "ClassBody" none [.list "body" members]) ++ rest).head? ≠
        some (.word "extends") := by
      rw [tokensOf_classBody]
      rintro ⟨⟩
    simp only [Option.toList_none, List.flatMap_nil, List.nil_append, gives_eatWord, noParent, ↓reduceIte,
      Bool.false_eq_true, gives_bind, gives_pure]
    apply body.gives
    simp
  | some parent =>
    have operand := (expressed parent rfl).operand
    simp only [flatMap_some, List.length_cons] at enough
    simp only [flatMap_some, gives_eatWord, List.cons_append, List.head?_cons, ↓reduceIte, List.tail_cons,
      gives_bind]
    rw [tokensOf_classBody] at body ⊢
    apply (operand.chain (by omega) (by decide)).gives
    simp only [gives_pure]
    apply body.gives
    simp

end Classes

/-- What it means for the drafts of each category that they are read back from what is written for
them. -/
def Readable (draft : Draft) : Category → Prop
  | .name => Named draft
  | .bare => Operand (tokensOf draft) draft
  | .compound => Enclosed draft
  | .expression => Expressed draft
  | .argument => Item argument (pieceOf draft).argument draft
  | .key => Key (pieceOf draft).key draft
  | .property => Item objectMember (tokensOf draft) draft
  | .param => Item param (tokensOf draft) draft
  | .block => Blocked draft
  | .declarator => Item declarator (tokensOf draft) draft ∧ ∃ name more, tokensOf draft = .word name :: more
  | .declaration => Declared draft
  | .statement => Stated draft
  | .handler => Handled draft
  | .clause => Selected draft
  | .member => Membered draft

/-- What is written for a form is read back. -/
theorem Formed.readable {category : Category} {draft : Draft} (formed : Formed category draft) :
    Readable draft category := by
  induction formed with
  | name isName => exact ⟨_, isName, rfl⟩
  | identifier _ named => exact Named.operand named
  | number text => exact number_operand text
  | string text => exact string_operand text
  | boolean known => exact boolean_operand known
  | null => exact null_operand
  | this => exact this_operand
  | ofBare bare operand => exact .of_bare bare operand
  | ofCompound compound enclosed => exact .of_compound compound enclosed
  | function _ _ _ named each blocked => exact function_enclosed named each blocked
  | array _ each => exact array_enclosed each
  | object _ each => exact object_enclosed each
  | computed _ _ object property => exact computed_enclosed object property
  | named word _ object => exact named_enclosed object word
  | optional word _ object => exact optional_enclosed object word
  | call _ _ callee each => exact call_enclosed callee each
  | construction _ _ callee each => exact construction_enclosed callee each
  | leading known _ argument => exact leading_enclosed known argument
  | operation known _ _ left right => exact operation_enclosed known left right
  | conditional _ _ _ test consequent alternate => exact conditional_enclosed test consequent alternate
  | assignment known _ _ left right => exact assignment_enclosed known left right
  | arrow known params formed each body =>
    rcases known with rfl | rfl
    · exact arrow_enclosed each (paired_commas params) (.inl body)
    · exact arrow_enclosed each (paired_commas params) (.inr ⟨formed, body⟩)
  | sequence _ each => exact sequence_enclosed each
  | value formed expressed => exact value_item formed expressed
  | spread _ expressed => exact spread_item expressed
  | word text => exact word_key text
  | ofExpression formed expressed => exact key_of_expression formed expressed
  | shorthand isName => exact shorthand_item isName
  | property _ _ isKey expressed => exact property_item isKey expressed
  | method _ _ _ isKey each blocked => exact method_item isKey each blocked
  | spreadProperty _ expressed => exact spreadProperty_item expressed
  | param _ named => exact param_item named
  | restParam _ named => exact restParam_item named
  | defaultParam _ _ named expressed => exact defaultParam_item named expressed
  | block _ each => exact block_blocked each
  | declarator _ _ named expressed =>
    refine ⟨declarator_item named expressed, ?_⟩
    obtain ⟨text, -, rfl⟩ := named
    rw [tokensOf_declarator]
    exact ⟨text, _, rfl⟩
  | declaration declares _ each =>
    have starts := (each _ List.mem_cons_self).2
    exact declaration_declared declares starts fun draft member => (each draft member).1
  | ofBlock _ blocked => exact Blocked.stated blocked
  | ofDeclaration _ declared => exact Declared.stated declared
  | empty => exact empty_stated
  | functionDeclaration _ _ _ named each blocked => exact functionDeclaration_stated named each blocked
  | classDeclaration _ _ _ named expressed each => exact class_stated named expressed each
  | ifStatement _ _ _ closed test consequent alternate => exact if_stated test consequent alternate closed
  | forStatement known formed _ _ _ start test update body =>
    rcases known with rfl | rfl
    · exact for_stated (fun draft member => (start draft member).loopStart) test update body
    · refine for_stated (fun draft member => ?_) test update body
      exact Expressed.loopStart (formed draft member) (start draft member)
  | whileStatement _ _ test body => exact while_stated test body
  | doWhileStatement _ _ test body => exact doWhile_stated test body
  | returnStatement _ expressed => exact return_stated expressed
  | throwStatement _ expressed => exact throw_stated expressed
  | breakStatement => exact break_stated
  | continueStatement => exact continue_stated
  | tryStatement _ _ _ ends blocked handled finalizer => exact try_stated blocked handled finalizer ends
  | switchStatement _ _ discriminant each => exact switch_stated discriminant each
  | expressionStatement formed expressed => exact expressionStatement_stated formed expressed
  | catchClause _ _ named blocked => exact catch_handled named blocked
  | switchCase _ _ expressed each => exact case_selected expressed each
  | classMethod known _ _ _ isKey each blocked => exact method_membered known isKey each blocked
  | classProperty known _ _ isKey expressed => exact property_membered known isKey expressed

/-- The tokens that are written for a program are read back as the program, unless they are nested too
deep. -/
theorem parseTokens_written {body : List Draft} (formed : ∀ draft ∈ body, Formed .statement draft) :
    let tokens := (tokensOf (tree "Program" none [.list "body" body])).map written
    parseTokens tokens .origin = .ok (tree "Program" none [.list "body" body]) ∨
      ∃ error, parseTokens tokens .origin = .error error ∧ error.fault = .tooDeep := by
  intro tokens
  have each : ∀ draft ∈ body, Stated draft := fun draft member => (formed draft member).readable
  have start : Cursor.first tokens .origin =
      .over ((body.flatMap fun draft => (pieceOf draft).closed) ++ []) 0 := by
    rw [List.append_nil, ← tokensOf_program]
    rfl
  have gives : Gives (program (readWithin (unrollings tokens.length))) (.first tokens .origin)
      fun draft _ => draft = tree "Program" none [.list "body" body] := by
    rw [start]
    simp only [program, gives_bind]
    apply gives_statements [] each _ (fun _ _ _ _ reads => reads)
    · simp
    · simp
    · simp
    · rw [unrollings, List.length_map, tokensOf_program]
      omega
    · rfl
    · intro kinds starts
      simp [starts.ne_nil]
  rcases gives.cases with ⟨_, after, run, rfl⟩ | ⟨error, after, run, deep⟩
  · left
    rw [parseTokens, run]
  · right
    refine ⟨error, ?_, deep⟩
    rw [parseTokens, run]

end SyntaxNav.Script
