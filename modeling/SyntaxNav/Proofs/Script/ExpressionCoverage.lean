import SyntaxNav.Proofs.Script.Coverage

/-! # Expressions cover their tokens

Every production for names, functions and expressions covers the tokens it reads, if the phrases
inside it do.
-/

namespace SyntaxNav.Script

variable {cursor before : Cursor}

/-- A reader of one draft covers the tokens that it reads at a cursor. -/
def CoversAt (reader : Reader Draft) (cursor : Cursor) : Prop :=
  Ensures reader cursor fun draft after => cursor.Yields after [draft]

/-- Every phrase covers the tokens that it reads; a construction starts at its word. -/
def PhrasesCover (read : PhraseReader) : Prop :=
  ∀ phrase cursor, (phrase = .construction → cursor.atWord "new" = true) →
    CoversAt (read phrase) cursor

namespace PhrasesCover

variable {read : PhraseReader} (phrases : PhrasesCover read) (cursor : Cursor)

include phrases

theorem statement : CoversAt (read .statement) cursor := phrases .statement cursor nofun

theorem assignment : CoversAt (read .assignment) cursor := phrases .assignment cursor nofun

theorem unary : CoversAt (read .unary) cursor := phrases .unary cursor nofun

private theorem binary (least : Nat) (allowIn : Bool) : CoversAt (read (.binary least allowIn)) cursor :=
  phrases (.binary least allowIn) cursor nofun

end PhrasesCover

/-- A reader one level deeper covers what the reader does. -/
theorem nested_covers {reader : Reader Draft}
    (covers : CoversAt reader { cursor with depth := cursor.depth + 1 }) :
    CoversAt (nested reader) cursor := by
  refine ensures_nested (covers.mono ?_)
  rintro draft after ⟨tokens, ⟨rest, prevEnd, sourceEnd, depth⟩, covered⟩
  exact ⟨tokens, ⟨rest, prevEnd, sourceEnd, Nat.sub_eq_of_eq_add depth⟩, covered⟩

section Names

/-- A name that is bound covers its token. -/
theorem bindingName_covers : CoversAt bindingName cursor := by
  simp only [CoversAt, bindingName, ensures_bind, ensures_get]
  split
  · exact ensures_failExpected _
  · rename_i token rest ahead
    split
    · rename_i name word
      simp only [ensures_ite, ensures_failExpected, ensures_bind, ensures_advance, ensures_makeLeaf]
      refine ⟨fun _ => trivial, fun _ => .leaf ahead ?_⟩
      simp [word, TokenKind.makes]
    all_goals simp only [ensures_failAt, ensures_failExpected]

private theorem propertyName_covers : CoversAt propertyName cursor := by
  simp only [CoversAt, propertyName, ensures_bind, ensures_get]
  split
  · exact ensures_failExpected _
  · rename_i token rest ahead
    split
    · rename_i name word
      simp only [ensures_bind, ensures_advance, ensures_makeLeaf]
      exact .leaf ahead (by simp [word, TokenKind.makes])
    · exact ensures_failExpected _

variable {read : PhraseReader}

/-- A key covers its tokens, brackets included. -/
theorem propertyKey_covers (phrases : PhrasesCover read) : CoversAt (propertyKey read) cursor := by
  simp only [CoversAt, propertyKey, ensures_bind, ensures_get]
  split
  · exact ensures_failExpected _
  · rename_i token rest ahead
    split
    · rename_i name word
      simp only [ensures_bind, ensures_advance, ensures_makeLeaf]
      exact .leaf ahead (by simp [word, TokenKind.makes])
    · rename_i text string
      simp only [ensures_bind, ensures_advance, ensures_makeLeaf]
      exact .leaf ahead (by simp [string, TokenKind.makes])
    · rename_i text number
      simp only [ensures_bind, ensures_advance, ensures_makeLeaf]
      exact .leaf ahead (by simp [number, TokenKind.makes])
    · rename_i bracket
      simp only [ensures_bind, ensures_advance, ensures_expectPunct, ensures_pure]
      refine (phrases.assignment _).mono ?_
      intro key last yields closes
      have opens : cursor.atPunct "[" = true := by simp [Cursor.atPunct, Cursor.next?, ahead, bracket]
      exact .brackets (by decide) opens yields closes
    · exact ensures_failExpected _

end Names

section Repetition

variable {α : Type} {item : Reader Draft}

private theorem comma_yields (comma : cursor.atPunct "," = true) : cursor.Yields cursor.advance [] :=
  .mark (Cursor.atPunct_iff.mp comma) (by decide)

/-- Items with commas between them cover their tokens, and there is at least one. -/
theorem commaSeparated_covers (covers : ∀ cursor, CoversAt item cursor) :
    Ensures (commaSeparated item) cursor fun drafts after =>
      cursor.Yields after drafts ∧ drafts ≠ [] := by
  simp only [commaSeparated, ensures_bind, ensures_pure]
  refine (covers cursor).mono ?_
  intro first next yields
  refine (ensures_many (fun cursor drafts after => cursor.Yields after drafts) ?_ next).mono ?_
  · intro cursor
    simp only [ensures_bind, ensures_eatPunct, ensures_pure, Bool.not_true, Bool.not_false,
      Bool.false_eq_true, false_implies, true_and, and_true, forall_const, Bool.true_eq_false]
    refine ⟨fun comma => (covers cursor.advance).mono ?_, fun _ => .refl cursor⟩
    intro first next yields rest after further
    exact ((comma_yields comma).append yields).append further
  · intro rest after further
    exact ⟨yields.append further, List.cons_ne_nil _ _⟩

/-- A list covers its tokens up to the closing bracket. -/
theorem list_covers {close : String} (covers : ∀ cursor, CoversAt item cursor) :
    Ensures (list close item) cursor (cursor.YieldsUpTo close) := by
  refine ensures_list (Cursor.YieldsUpTo close)
    (fun cursor closes => ⟨cursor, .refl cursor, closes, rfl⟩) ?_ cursor
  intro cursor
  refine (covers cursor).mono ?_
  intro first next yields
  refine ⟨?_, fun closes => ⟨next, yields, closes, rfl⟩⟩
  intro comma rest after further
  exact .cons (yields.append (comma_yields comma)) further

/-- Items up to a closing punctuator, each of which adds drafts to those before it. -/
theorem many_covers {item : Reader α} {close : String} (drafts : α → List Draft)
    (covers : ∀ cursor, Ensures item cursor fun value after => cursor.Yields after (drafts value)) :
    Ensures (many (eatPunct close) item) cursor fun items after =>
      cursor.YieldsUpTo close (items.flatMap drafts) after := by
  refine ensures_many (fun cursor items after =>
    cursor.YieldsUpTo close (items.flatMap drafts) after) ?_ cursor
  intro cursor
  simp only [ensures_eatPunct, Bool.true_eq_false, Bool.false_eq_true, false_implies, and_true,
    true_and, forall_const]
  refine ⟨fun closes => ⟨cursor, .refl cursor, closes, rfl⟩, fun _ => (covers cursor).mono ?_⟩
  rintro value next yields items after ⟨last, further, closes, rfl⟩
  exact ⟨last, yields.append further, closes, rfl⟩

end Repetition

section Phrases

variable {item : Reader Draft} {read : PhraseReader}

private theorem sequence_covers (covers : ∀ cursor, CoversAt item cursor) :
    CoversAt (sequence item) cursor := by
  simp only [CoversAt, sequence, ensures_bind, ensures_here]
  refine (commaSeparated_covers covers).mono ?_
  rintro items after ⟨yields, someItem⟩
  split
  · exact (ensures_pure _).mpr yields
  · rw [ensures_node]
    obtain ⟨first, rest, rfl⟩ := List.exists_cons_of_ne_nil someItem
    exact yields.branch (by simp) rfl

theorem expression_covers (phrases : PhrasesCover read) : CoversAt (expression read) cursor :=
  sequence_covers fun cursor => phrases.assignment cursor

/-- An expression in parentheses covers its tokens; the parentheses are marks. -/
theorem parenthesized_covers (phrases : PhrasesCover read) :
    CoversAt (parenthesized read) cursor := by
  simp only [CoversAt, parenthesized, ensures_bind, ensures_expectPunct, ensures_pure]
  intro opens
  refine (expression_covers phrases).mono ?_
  intro inner last yields closes
  exact .brackets (by decide) opens yields closes

end Phrases

section Functions

variable {read : PhraseReader}

theorem statementInBraces_covers (phrases : PhrasesCover read) :
    CoversAt (statementInBraces read) cursor := by
  simp only [CoversAt, statementInBraces, ensures_bind, ensures_atEnd, ensures_ite,
    ensures_failExpected, implies_true, true_and]
  intro _
  exact phrases.statement cursor

/-- A block covers its braces and statements. -/
theorem block_covers (phrases : PhrasesCover read) : CoversAt (block read) cursor := by
  simp only [CoversAt, block, ensures_bind, ensures_here, ensures_expectPunct, ensures_node]
  intro opens
  refine (many_covers (fun draft => [draft]) fun _ => statementInBraces_covers phrases).mono ?_
  rintro body _ ⟨last, yields, closes, rfl⟩
  exact .branch_of_brackets (by decide) opens yields closes (by simp) rfl

theorem param_covers (phrases : PhrasesCover read) : CoversAt (param read) cursor := by
  simp only [CoversAt, param, ensures_bind, ensures_here, ensures_eatPunct, ensures_ite,
    ensures_node, ensures_pure, Bool.false_eq_true, not_true_eq_false, not_false_eq_true,
    false_implies, true_and, and_true, forall_const]
  constructor
  · intro dots
    refine bindingName_covers.mono ?_
    intro argument after yields
    exact .branch_of_mark (Cursor.atPunct_iff.mp dots) (by decide) yields (by simp) rfl
  · intro _
    refine bindingName_covers.mono ?_
    intro left next yields
    refine ⟨fun equals => (phrases.assignment _).mono ?_, fun _ => yields⟩
    intro right after further
    have marked := Cursor.Yields.mark (Cursor.atPunct_iff.mp equals) (by decide)
    exact (yields.append (marked.append further)).branch (by simp) rfl

private theorem params_cover (phrases : PhrasesCover read) :
    Ensures (params read) cursor fun drafts after => cursor.Yields after drafts := by
  simp only [params, ensures_bind, ensures_expectPunct]
  intro opens
  refine (list_covers fun _ => param_covers phrases).mono ?_
  rintro parameters _ ⟨last, yields, closes, rfl⟩
  exact .brackets (by decide) opens yields closes

private theorem functionName_covers (needed : Bool) :
    Ensures (functionName needed) cursor fun name after => cursor.Yields after name.toList := by
  simp only [functionName, ensures_bind, ensures_peek]
  split
  · simp only [ensures_bind, ensures_pure]
    exact bindingName_covers
  · simp only [ensures_ite, ensures_bind, ensures_pure]
    exact ⟨fun _ => bindingName_covers, fun _ => .refl cursor⟩

/-- A function covers its word, its name, its parameters and its body. -/
theorem function_covers (phrases : PhrasesCover read) {kind : String} (needsName : Bool)
    (atFunction : cursor.atWord "function" = true)
    (orderly : isOrderly kind none ["id", "params", "body"] = true) :
    CoversAt (function read kind needsName) cursor := by
  simp only [CoversAt, function, ensures_bind, ensures_here, ensures_advance, ensures_atPunct,
    ensures_ite, ensures_fail, implies_true, true_and, ensures_node]
  intro _
  refine (functionName_covers needsName).mono ?_
  intro name named yieldsName
  refine (params_cover phrases).mono ?_
  intro parameters entered yieldsParams
  refine (block_covers phrases).mono ?_
  intro body after yieldsBody
  exact .branch_of_mark (Cursor.atWord_iff.mp atFunction) (by decide)
    (yieldsName.append (yieldsParams.append yieldsBody)) (by simp) orderly

/-- A method covers all from its key to the end of its body. -/
theorem method_covers (phrases : PhrasesCover read) {kind : String} {text : Option String}
    {key : Draft} (yieldsKey : before.Yields cursor [key])
    (orderly : isOrderly kind text ["key", "params", "body"] = true) :
    Ensures (method read kind before.start text key) cursor fun draft after =>
      before.Yields after [draft] := by
  simp only [method, ensures_bind, ensures_node]
  refine (params_cover phrases).mono ?_
  intro parameters entered yieldsParams
  refine (block_covers phrases).mono ?_
  intro body after yieldsBody
  exact (yieldsKey.append (yieldsParams.append yieldsBody)).branch (by simp) orderly

end Functions

section Objects

variable {read : PhraseReader}

/-- Three dots and an expression behind them. -/
theorem spread_covers (phrases : PhrasesCover read) (dots : cursor.atPunct "..." = true) :
    Ensures (read .assignment) cursor.advance fun inner after => cursor.Yields after
      [.branch ⟨"SpreadElement", some ⟨cursor.start, after.prevEnd⟩, none⟩
        [.single "argument" inner]] := by
  refine (phrases.assignment _).mono ?_
  intro inner after yields
  exact .branch_of_mark (Cursor.atPunct_iff.mp dots) (by decide) yields (by simp) rfl

theorem argument_covers (phrases : PhrasesCover read) : CoversAt (argument read) cursor := by
  simp only [CoversAt, argument, ensures_bind, ensures_here, ensures_eatPunct, ensures_ite,
    ensures_node, Bool.false_eq_true, not_true_eq_false, not_false_eq_true, false_implies, true_and,
    and_true, forall_const]
  exact ⟨spread_covers phrases, fun _ => phrases.assignment cursor⟩

/-- A key that is a word is the leaf of that word. -/
theorem propertyKey_word {token : Token} {rest : List Token} {name : String}
    (ahead : cursor.rest = token :: rest) (word : token.kind = .word name) :
    Ensures (propertyKey read) cursor fun key after =>
      key = leaf "Identifier" token ∧ after = cursor.advance := by
  simp only [propertyKey, ensures_bind, ensures_get, ahead, word, ensures_advance, ensures_makeLeaf,
    and_self]

private theorem objectProperty_covers (phrases : PhrasesCover read) {keyToken : Option Token} {key : Draft}
    (yieldsKey : before.Yields cursor [key])
    (fromWord : ∀ token name, keyToken = some token → token.kind = .word name →
      (∃ rest, before.rest = token :: rest) ∧ key = leaf "Identifier" token ∧ cursor = before.advance) :
    Ensures (objectProperty read before.start keyToken key) cursor fun draft after =>
      before.Yields after [draft] := by
  simp only [objectProperty, ensures_bind, ensures_atPunct, ensures_ite, ensures_eatPunct,
    ensures_node, Bool.false_eq_true, not_true_eq_false, not_false_eq_true, false_implies, true_and,
    and_true, forall_const]
  refine ⟨fun _ => method_covers phrases yieldsKey rfl, fun _ => ⟨?_, fun _ => ?_⟩⟩
  · intro colon
    refine (phrases.assignment _).mono ?_
    intro value after yieldsValue
    have marked := Cursor.Yields.mark (Cursor.atPunct_iff.mp colon) (by decide)
    exact (yieldsKey.append (marked.append yieldsValue)).branch (by simp) rfl
  · split
    · rename_i token
      split
      · rename_i name word
        simp only [ensures_ite, ensures_failExpected, implies_true, true_and, ensures_bind, ensures_makeLeaf,
          ensures_node]
        intro isName
        obtain ⟨⟨rest, ahead⟩, rfl, rfl⟩ := fromWord token name rfl word
        exact .shorthand ahead word (Bool.eq_false_iff.mpr isName)
      · exact ensures_failExpected _
    · exact ensures_failExpected _

theorem objectMember_covers (phrases : PhrasesCover read) : CoversAt (objectMember read) cursor := by
  simp only [CoversAt, objectMember, ensures_bind, ensures_here, ensures_eatPunct, ensures_ite,
    ensures_node, ensures_get, Bool.false_eq_true, not_true_eq_false, not_false_eq_true,
    false_implies, true_and, and_true, forall_const]
  refine ⟨spread_covers phrases, fun _ => ?_⟩
  cases ahead : cursor.rest with
  | nil =>
    refine (propertyKey_covers phrases).mono ?_
    intro key after yieldsKey
    refine objectProperty_covers phrases yieldsKey ?_
    intro token name noToken
    cases noToken
  | cons token rest =>
    have words : ∀ name, token.kind = .word name → Ensures (propertyKey read) cursor fun key after =>
        key = leaf "Identifier" token ∧ after = cursor.advance := fun name => propertyKey_word ahead
    refine ((propertyKey_covers phrases).and fun key after success => fun name word =>
      words name word key after success).mono ?_
    rintro key after ⟨yieldsKey, fromWord⟩
    refine objectProperty_covers phrases yieldsKey ?_
    rintro _ name ⟨⟩ word
    exact ⟨⟨rest, ahead⟩, fromWord name word⟩

private theorem array_covers (phrases : PhrasesCover read) (opens : cursor.atPunct "[" = true) :
    CoversAt (array read) cursor := by
  simp only [CoversAt, array, ensures_bind, ensures_here, ensures_advance, ensures_node]
  refine (list_covers fun _ => argument_covers phrases).mono ?_
  rintro elements _ ⟨last, yields, closes, rfl⟩
  exact .branch_of_brackets (by decide) opens yields closes (by simp) rfl

private theorem object_covers (phrases : PhrasesCover read) (opens : cursor.atPunct "\x7b" = true) :
    CoversAt (object read) cursor := by
  simp only [CoversAt, object, ensures_bind, ensures_here, ensures_advance, ensures_node]
  refine (list_covers fun _ => objectMember_covers phrases).mono ?_
  rintro properties _ ⟨last, yields, closes, rfl⟩
  exact .branch_of_brackets (by decide) opens yields closes (by simp) rfl

end Objects

section Chains

variable {read : PhraseReader} {inner : Draft}

private theorem literal_covers {token : Token} {rest : List Token} {kind : String}
    (ahead : cursor.rest = token :: rest) (makes : token.kind.makes kind = true) :
    CoversAt (literal kind token) cursor := by
  simp only [CoversAt, literal, ensures_bind, ensures_advance, ensures_makeLeaf]
  exact .leaf ahead makes

/-- A node without fields covers the mark that it is made from. -/
theorem constant_covers {kind : String} {mark : TokenKind} (next : cursor.next? = some mark)
    (isMark : mark.isMark = true) (orderly : isOrderly kind none [] = true) :
    CoversAt (constant kind) cursor := by
  simp only [CoversAt, constant, ensures_bind, ensures_here, ensures_advance, ensures_node]
  exact .branch_of_mark next isMark (.refl _) rfl orderly

/-- A primary expression covers its tokens. -/
theorem primary_covers (phrases : PhrasesCover read) : CoversAt (primary read) cursor := by
  simp only [CoversAt, primary, ensures_bind, ensures_get]
  split
  · exact ensures_failExpected _
  · rename_i token rest ahead
    have next : cursor.next? = some token.kind := by simp [Cursor.next?, ahead]
    split <;> rename_i same
    · exact literal_covers ahead (by simp [same, TokenKind.makes])
    · exact literal_covers ahead (by simp [same, TokenKind.makes])
    · exact literal_covers ahead (by simp [same, TokenKind.makes])
    · exact literal_covers ahead (by simp [same, TokenKind.makes])
    · exact constant_covers (next.trans (congrArg some same)) (by decide) rfl
    · exact constant_covers (next.trans (congrArg some same)) (by decide) rfl
    · exact function_covers phrases false
        (Cursor.atWord_iff.mpr (next.trans (congrArg some same))) rfl
    · simp only [ensures_ite, ensures_failExpected, implies_true, true_and]
      intro _
      exact literal_covers ahead (by simp [same, TokenKind.makes])
    · exact parenthesized_covers phrases
    · exact array_covers phrases (Cursor.atPunct_iff.mpr (next.trans (congrArg some same)))
    · exact object_covers phrases (Cursor.atPunct_iff.mpr (next.trans (congrArg some same)))
    · exact ensures_failExpected _

/-- A member named by a word, behind an object and the mark of a member. -/
theorem namedMember_covers {kind : String} (yieldsObject : before.Yields cursor [inner])
    (orderly : isOrderly kind none ["object", "property"] = true) :
    Ensures (namedMember kind before.start inner) cursor fun draft after =>
      before.Yields after [draft] := by
  simp only [namedMember, ensures_bind, ensures_node]
  refine propertyName_covers.mono ?_
  intro property after yieldsProperty
  exact (yieldsObject.append yieldsProperty).branch (by simp) orderly

private theorem optionalMember_covers (yieldsObject : before.Yields cursor [inner]) :
    Ensures (optionalMember before.start inner) cursor fun draft after =>
      before.Yields after [draft] := by
  simp only [optionalMember, ensures_bind, ensures_atPunct, ensures_ite, ensures_fail, implies_true,
    true_and]
  intro _
  exact namedMember_covers yieldsObject rfl

private theorem computedMember_covers (phrases : PhrasesCover read)
    (yieldsObject : before.Yields cursor [inner]) (opens : cursor.atPunct "[" = true) :
    Ensures (computedMember read before.start inner) cursor.advance fun draft after =>
      before.Yields after [draft] := by
  simp only [computedMember, ensures_bind, ensures_expectPunct, ensures_node]
  refine (expression_covers phrases).mono ?_
  intro property last yieldsProperty closes
  have bracketed := Cursor.Yields.brackets (by decide) opens yieldsProperty closes
  exact (yieldsObject.append bracketed).branch (by simp) rfl

private theorem arguments_cover (phrases : PhrasesCover read) (opens : cursor.atPunct "(" = true) :
    Ensures (list ")" (argument read)) cursor.advance fun arguments after =>
      cursor.Yields after arguments := by
  refine (list_covers fun _ => argument_covers phrases).mono ?_
  rintro arguments _ ⟨last, yields, closes, rfl⟩
  exact .brackets (by decide) opens yields closes

private theorem memberOrCall_covers (phrases : PhrasesCover read)
    (yieldsInner : before.Yields cursor [inner]) :
    Ensures (memberOrCall read before.start inner) cursor fun extended after =>
      before.Yields after [extended.getD inner] := by
  simp only [memberOrCall, ensures_bind, ensures_eatPunct, ensures_ite, ensures_pure, ensures_node,
    Option.getD_some, Option.getD_none, Bool.false_eq_true, not_true_eq_false, not_false_eq_true,
    false_implies, true_and, and_true, forall_const]
  refine ⟨fun point => ?_, fun _ => ⟨fun mark => ?_, fun _ => ⟨fun bracket => ?_, fun _ => ⟨?_, ?_⟩⟩⟩⟩
  · have marked := Cursor.Yields.mark (Cursor.atPunct_iff.mp point) (by decide)
    exact namedMember_covers (yieldsInner.append marked) rfl
  · have marked := Cursor.Yields.mark (Cursor.atPunct_iff.mp mark) (by decide)
    exact optionalMember_covers (yieldsInner.append marked)
  · exact computedMember_covers phrases yieldsInner bracket
  · intro opens
    refine (arguments_cover phrases opens).mono ?_
    intro arguments after yieldsArguments
    exact (yieldsInner.append yieldsArguments).branch (by simp) rfl
  · intro _
    exact yieldsInner

/-- An expression with members and calls covers its tokens. -/
theorem chain_covers (phrases : PhrasesCover read) : CoversAt (chain read) cursor := by
  simp only [CoversAt, chain, ensures_bind, ensures_here, ensures_atWord, ensures_ite]
  have grown (inner : Draft) (after : Cursor) (yields : cursor.Yields after [inner]) :
      Ensures (grow (memberOrCall read cursor.start) inner) after fun draft after =>
        cursor.Yields after [draft] :=
    ensures_grow (fun _ _ => memberOrCall_covers phrases) yields
  refine ⟨fun atNew => ?_, fun _ => ?_⟩
  · exact (phrases .construction cursor fun _ => atNew).mono grown
  · exact (primary_covers phrases).mono grown

end Chains

section Constructions

variable {read : PhraseReader} {inner : Draft}

private theorem constructedMember_covers (phrases : PhrasesCover read)
    (yieldsInner : before.Yields cursor [inner]) :
    Ensures (constructedMember read before.start inner) cursor fun extended after =>
      before.Yields after [extended.getD inner] := by
  simp only [constructedMember, ensures_bind, ensures_eatPunct, ensures_ite, ensures_pure,
    Option.getD_some, Option.getD_none, Bool.false_eq_true, not_true_eq_false, not_false_eq_true,
    false_implies, true_and, and_true, forall_const]
  refine ⟨fun point => ?_, fun _ => ⟨fun bracket => ?_, fun _ => yieldsInner⟩⟩
  · have marked := Cursor.Yields.mark (Cursor.atPunct_iff.mp point) (by decide)
    exact namedMember_covers (yieldsInner.append marked) rfl
  · exact computedMember_covers phrases yieldsInner bracket

/-- The members of what is constructed start at the word `new`, like the construction itself. -/
theorem construction_covers (phrases : PhrasesCover read) (atNew : cursor.atWord "new" = true) :
    CoversAt (construction read) cursor := by
  simp only [CoversAt, construction, ensures_bind, ensures_here, ensures_advance, ensures_atWord,
    ensures_ite]
  have marked := Cursor.Yields.mark (Cursor.atWord_iff.mp atNew) (by decide)
  have constructed (inner : Draft) (next : Cursor) (yieldsInner : cursor.advance.Yields next [inner]) :
      Ensures (grow (constructedMember read cursor.start) inner) next fun callee middle =>
        Ensures (eatPunct "(") middle fun eaten after =>
          (eaten = true → Ensures (list ")" (argument read)) after fun arguments after =>
            Ensures (node "NewExpression" cursor.start none
              [.single "callee" callee, .list "arguments" arguments]) after
                fun draft after => cursor.Yields after [draft]) ∧
          (¬ eaten = true → Ensures (pure []) after fun arguments after =>
            Ensures (node "NewExpression" cursor.start none
              [.single "callee" callee, .list "arguments" arguments]) after
                fun draft after => cursor.Yields after [draft]) := by
    refine (ensures_grow (fun _ _ => constructedMember_covers phrases)
      (marked.append yieldsInner)).mono ?_
    intro callee middle yieldsCallee
    simp only [ensures_eatPunct, ensures_pure, ensures_node, Bool.false_eq_true, not_true_eq_false,
      not_false_eq_true, false_implies, true_and, and_true, forall_const]
    refine ⟨fun opens => (arguments_cover phrases opens).mono ?_, fun _ => ?_⟩
    · intro arguments after yieldsArguments
      exact (yieldsCallee.append yieldsArguments).branch (by simp) rfl
    · exact yieldsCallee.branch (by simp) rfl
  refine ⟨fun atNew => ?_, fun _ => ?_⟩
  · exact (nested_covers (phrases .construction _ fun _ => atNew)).mono constructed
  · exact (primary_covers phrases).mono constructed

end Constructions

section Operators

variable {read : PhraseReader} {left : Draft}

private theorem trailingOperator_mark {operator : String}
    (trailing : trailingOperator? cursor = some operator) :
    ∃ mark, cursor.next? = some mark ∧ mark.isMark = true := by
  unfold trailingOperator? at trailing
  split at trailing
  · rename_i ahead
    exact ⟨.punct "++", by simp [Cursor.next?, ahead], by decide⟩
  · rename_i ahead
    exact ⟨.punct "--", by simp [Cursor.next?, ahead], by decide⟩
  · cases trailing

private theorem postfixed_covers (phrases : PhrasesCover read) : CoversAt (postfixed read) cursor := by
  simp only [CoversAt, postfixed, ensures_bind, ensures_here, ensures_get]
  refine (chain_covers phrases).mono ?_
  intro inner next yieldsInner
  split
  · exact (ensures_pure _).mpr yieldsInner
  · rename_i operator trailing
    obtain ⟨mark, ahead, isMark⟩ := trailingOperator_mark trailing
    simp only [ensures_bind, ensures_advance, ensures_node]
    exact (yieldsInner.append (.mark ahead isMark)).branch (by simp) rfl

private theorem leadingOperator_orderly {token : TokenKind} {kind operator : String}
    (leading : leadingOperator? token = some (kind, operator)) :
    token.isMark = true ∧ isOrderly kind (some operator) ["argument"] = true := by
  unfold leadingOperator? at leading
  split at leading <;> cases leading <;> exact ⟨by decide, rfl⟩

/-- An operand with the operators around it covers its tokens. -/
theorem unary_covers (phrases : PhrasesCover read) : CoversAt (unary read) cursor := by
  simp only [CoversAt, unary, ensures_bind, ensures_here, ensures_peek]
  split
  · exact postfixed_covers phrases
  · rename_i kind operator leading
    obtain ⟨mark, ahead, leading⟩ := Option.bind_eq_some_iff.mp leading
    obtain ⟨isMark, orderly⟩ := leadingOperator_orderly leading
    simp only [ensures_bind, ensures_advance, ensures_node]
    refine (phrases.unary _).mono ?_
    intro inner after yieldsInner
    exact .branch_of_mark ahead isMark yieldsInner (by simp) orderly

private theorem operator_mark {token : TokenKind} {operator : Operator}
    (isOperator : Operator.ofToken? token = some operator) : token.isMark = true := by
  obtain ⟨text, spelled, isOperator⟩ := Option.bind_eq_some_iff.mp isOperator
  obtain ⟨precedence, known, _⟩ := Option.bind_eq_some_iff.mp isOperator
  unfold Operator.spelling? at spelled
  split at spelled
  · cases spelled
    -- Each spelling with a precedence is a mark; the others have none.
    unfold Operator.precedence? at known
    split at known <;> first | rfl | cases known
  · rfl
  · rfl
  · cases spelled

private theorem nodeKind_orderly (operator : Operator) (text : Option String) :
    isOrderly operator.nodeKind text ["left", "right"] = true := by
  unfold Operator.nodeKind
  split <;> rfl

private theorem operation_covers (phrases : PhrasesCover read) (least : Nat) (allowIn : Bool)
    (yieldsLeft : before.Yields cursor [left]) :
    Ensures (operation read before.start least allowIn left) cursor fun extended after =>
      before.Yields after [extended.getD left] := by
  simp only [operation, ensures_bind, ensures_peek]
  split
  · exact (ensures_pure _).mpr yieldsLeft
  · rename_i operator isOperator
    obtain ⟨mark, ahead, isOperator⟩ := Option.bind_eq_some_iff.mp isOperator
    simp only [ensures_ite, ensures_pure, ensures_bind, ensures_advance, ensures_node,
      Option.getD_none, Option.getD_some]
    refine ⟨fun _ => yieldsLeft, fun _ => (phrases.binary _ _ _).mono ?_⟩
    intro right after yieldsRight
    have marked := Cursor.Yields.mark ahead (operator_mark isOperator)
    exact (yieldsLeft.append (marked.append yieldsRight)).branch (by simp)
      (nodeKind_orderly operator _)

/-- Operands joined by operators cover their tokens, in whatever way they are grouped. -/
theorem binary_covers (phrases : PhrasesCover read) (least : Nat) (allowIn : Bool) :
    CoversAt (binary read least allowIn) cursor := by
  simp only [CoversAt, binary, ensures_bind, ensures_here]
  refine (phrases.unary cursor).mono ?_
  intro first next yieldsFirst
  exact ensures_grow (fun _ _ => operation_covers phrases least allowIn) yieldsFirst

private theorem conditional_covers (phrases : PhrasesCover read) : CoversAt (conditional read) cursor := by
  simp only [CoversAt, conditional, ensures_bind, ensures_here, ensures_eatPunct, ensures_ite,
    ensures_expectPunct, ensures_node, ensures_pure, Bool.false_eq_true, not_true_eq_false,
    not_false_eq_true, false_implies, true_and, and_true, forall_const]
  refine (phrases.binary cursor 1 true).mono ?_
  intro test next yieldsTest
  refine ⟨fun question => (phrases.assignment _).mono ?_, fun _ => yieldsTest⟩
  intro consequent middle yieldsConsequent colon
  refine (phrases.assignment _).mono ?_
  intro alternate after yieldsAlternate
  have asked := Cursor.Yields.mark (Cursor.atPunct_iff.mp question) (by decide)
  have parted := Cursor.Yields.mark (Cursor.atPunct_iff.mp colon) (by decide)
  exact (yieldsTest.append (asked.append (yieldsConsequent.append
    (parted.append yieldsAlternate)))).branch (by simp) rfl

private theorem assignmentOperator_mark {token : TokenKind} {operator : String}
    (assigns : assignmentOperator? token = some operator) : token.isMark = true := by
  unfold assignmentOperator? at assigns
  split at assigns
  · rename_i text
    split at assigns
    · rename_i known
      have all : ∀ text ∈ assignmentOperators, TokenKind.isMark (.punct text) = true := by decide
      exact all text (List.contains_iff_mem.mp known)
    · cases assigns
  · cases assigns

private theorem assignmentTo_covers (phrases : PhrasesCover read) (yieldsLeft : before.Yields cursor [left]) :
    Ensures (assignmentTo read before.start left) cursor fun draft after =>
      before.Yields after [draft] := by
  simp only [assignmentTo, ensures_bind, ensures_peek]
  split
  · exact (ensures_pure _).mpr yieldsLeft
  · rename_i operator assigns
    obtain ⟨mark, ahead, assigns⟩ := Option.bind_eq_some_iff.mp assigns
    simp only [ensures_bind, ensures_advance, ensures_node]
    refine (phrases.assignment _).mono ?_
    intro right after yieldsRight
    have marked := Cursor.Yields.mark ahead (assignmentOperator_mark assigns)
    exact (yieldsLeft.append (marked.append yieldsRight)).branch (by simp) rfl

end Operators

section Assignments

variable {read : PhraseReader}

/-- Parameters before an arrow: a list in parentheses, or one name. -/
theorem arrow_covers (phrases : PhrasesCover read) : CoversAt (arrow read) cursor := by
  simp only [CoversAt, arrow, ensures_bind, ensures_here, ensures_atPunct, ensures_ite,
    ensures_expectPunct, ensures_pure]
  have behind (parameters : List Draft) (next : Cursor) (yieldsParams : cursor.Yields next parameters)
      (arrow : next.atPunct "=>" = true) (body : Draft) (after : Cursor)
      (yieldsBody : next.advance.Yields after [body]) :
      Ensures (node "ArrowFunctionExpression" cursor.start none
        [.list "params" parameters, .single "body" body]) after fun draft after =>
          cursor.Yields after [draft] := by
    have marked := Cursor.Yields.mark (Cursor.atPunct_iff.mp arrow) (by decide)
    have read := yieldsParams.append (marked.append yieldsBody)
    rw [ensures_node]
    cases parameters with
    | nil => exact read.branch (by simp) rfl
    | cons parameter rest => exact read.branch (by simp) rfl
  refine ⟨fun _ => (params_cover phrases).mono ?_, fun _ => bindingName_covers.mono ?_⟩
  · intro parameters next yieldsParams arrow
    exact ⟨fun _ => (block_covers phrases).mono (behind _ _ yieldsParams arrow),
      fun _ => (phrases.assignment _).mono (behind _ _ yieldsParams arrow)⟩
  · intro parameter next yieldsParam arrow
    exact ⟨fun _ => (block_covers phrases).mono (behind _ _ yieldsParam arrow),
      fun _ => (phrases.assignment _).mono (behind _ _ yieldsParam arrow)⟩

theorem assignmentOrConditional_covers (phrases : PhrasesCover read) :
    CoversAt (assignmentOrConditional read) cursor := by
  simp only [CoversAt, assignmentOrConditional, ensures_bind, ensures_here]
  refine (conditional_covers phrases).mono ?_
  intro left next yieldsLeft
  exact assignmentTo_covers phrases yieldsLeft

/-- An assignment covers its tokens. -/
theorem assignment_covers (phrases : PhrasesCover read) : CoversAt (assignment read) cursor := by
  simp only [CoversAt, assignment, ensures_bind, ensures_get, ensures_ite]
  exact ⟨fun _ => arrow_covers phrases, fun _ => assignmentOrConditional_covers phrases⟩

/-- The expression in the head of a loop covers its tokens. -/
theorem headExpression_covers (phrases : PhrasesCover read) :
    CoversAt (headExpression read) cursor := by
  refine sequence_covers fun cursor => ?_
  simp only [CoversAt, ensures_bind, ensures_here]
  refine (phrases.binary cursor 1 false).mono ?_
  intro left next yieldsLeft
  exact assignmentTo_covers phrases yieldsLeft

end Assignments

end SyntaxNav.Script
