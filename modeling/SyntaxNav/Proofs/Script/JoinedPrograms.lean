import SyntaxNav.Proofs.Script.JoinedScans
import SyntaxNav.Proofs.Script.Layout
import SyntaxNav.Proofs.Script.Seams

/-! # Programs one after another

A program is read as a run of statements up to the end of the tokens (`Statements`). Runs over two sources,
of which the first ends in a semicolon, make up a run over the sources with a newline between them
(`Statements.join`), so the body of the joined program is made of both bodies. The statements of the second
source only move down.
-/

namespace SyntaxNav

/-- The draft of a program with these statements, up to the end of its source. -/
def Draft.program (body : List Draft) (stop : Pos) : Draft :=
  .branch ⟨"Program", some ⟨.origin, stop⟩, none⟩ [.list "body" body]

namespace Script

/-- Statements are read one after another until no tokens are left. -/
inductive Statements (read : PhraseReader) : Cursor → List Draft → Cursor → Prop
  | done {cursor : Cursor} : cursor.rest = [] → Statements read cursor [] cursor
  | next {cursor middle last : Cursor} {draft : Draft} {drafts : List Draft} : cursor.rest ≠ [] →
      read .statement cursor = .ok draft middle → Statements read middle drafts last →
      Statements read cursor (draft :: drafts) last

namespace Statements

variable {read : PhraseReader} {cursor twin last : Cursor} {body : List Draft} {limit more : Nat}

private theorem rest_eq_nil (run : Statements read cursor body last) : last.rest = [] := by
  induction run with
  | done nothing => exact nothing
  | next _ _ _ ih => exact ih

/-- The statements cover the tokens up to where the run ends. -/
theorem yields (run : Statements (Phrase.readWithin limit) cursor body last) :
    cursor.Yields last body := by
  induction run with
  | done => exact .refl _
  | next _ read _ ih => exact ((readWithin_covers limit).statement _ _ _ read).append ih

/-- No statement starts with the word for an alternative. -/
theorem not_else (run : Statements (Phrase.readWithin limit) cursor body last) :
    cursor.next? ≠ some (.word "else") := by
  intro next
  cases run with
  | done nothing =>
    rw [Cursor.next?, nothing] at next
    cases next
  | next _ read _ => exact readWithin_stuck limit .statement nofun _ (.inr next) _ _ read

private theorem of_manyUpTo (read : PhraseReader) (limit : Nat) (cursor : Cursor) :
    Ensures (manyUpTo atEnd (read .statement) limit) cursor fun body last =>
      Statements read cursor body last ∧ body.length < limit := by
  induction limit generalizing cursor with
  | zero => exact ensures_fail _
  | succ limit ih =>
    simp only [manyUpTo, ensures_bind, ensures_atEnd, ensures_ite, ensures_pure]
    refine ⟨fun atEnd => ⟨.done (List.isEmpty_iff.mp atEnd), Nat.succ_pos _⟩, fun goesOn => ?_⟩
    intro draft middle success
    refine (ih middle).mono ?_
    rintro drafts last ⟨run, short⟩
    exact ⟨.next (fun nothing => goesOn (List.isEmpty_iff.mpr nothing)) success run,
      Nat.succ_lt_succ short⟩

private theorem manyUpTo_eq (run : Statements read cursor body last) (enough : body.length < limit) :
    manyUpTo atEnd (read .statement) limit cursor = .ok body last := by
  have looks (cursor : Cursor) : atEnd (m := Reader) cursor = .ok cursor.rest.isEmpty cursor := rfl
  induction run generalizing limit with
  | @done cursor nothing =>
    obtain ⟨limit, rfl⟩ := Nat.exists_eq_add_of_lt enough
    rw [manyUpTo, bind_ok (looks cursor), nothing]
    rfl
  | @next cursor middle last draft drafts someToken success _ ih =>
    obtain ⟨limit, rfl⟩ : ∃ fewer, limit = fewer + 1 := ⟨limit - 1, by omega⟩
    rw [manyUpTo, bind_ok (looks cursor), if_neg (fun empty => someToken (List.isEmpty_iff.mp empty)),
      bind_ok success, bind_ok (ih (Nat.lt_of_succ_lt_succ enough))]
    rfl

/-- Statements at other positions are the same statements at other positions. -/
theorem relocate (move : Pos → Pos) (run : Statements (Phrase.readWithin limit) cursor body last) :
    Statements (Phrase.readWithin limit) (cursor.relocate move) (body.map (Draft.relocate move))
      (last.relocate move) := by
  induction run with
  | done nothing => exact .done (List.map_eq_nil_iff.mpr nothing)
  | @next cursor middle last draft drafts someToken success _ ih =>
    refine .next (fun nothing => someToken (List.map_eq_nil_iff.mp nothing)) ?_ ih
    have stays : PhrasesStay move (Phrase.readWithin limit) := readWithin_stays limit
    have same := stays .statement cursor
    rwa [success] at same

/-- Neither a newline before the first statement nor what was before it changes the statements. -/
theorem refresh (run : Statements (Phrase.readWithin limit) cursor body last) (enough : limit ≤ more)
    (fresh : cursor.Refreshes twin) :
    ∃ final, Statements (Phrase.readWithin more) twin body final := by
  induction run generalizing twin with
  | done nothing => exact ⟨twin, .done (fresh.rest_eq_nil_iff.mpr nothing)⟩
  | next someToken success _ ih =>
    have phrases : PhrasesKeepUp refreshed _ _ := readWithin_keepsUp enough
    obtain ⟨_, same, rfl⟩ := phrases.statement _ _ fresh _ _ success
    obtain ⟨final, rest⟩ := ih (.refl _)
    exact ⟨final, .next (fun nothing => someToken (fresh.rest_eq_nil_iff.mp nothing)) same rest⟩

/-- Statements behind a semicolon at the end of others follow them. -/
theorem join {tail : List Token} {stop : Pos} {others : List Draft} {final : Cursor}
    (run : Statements (Phrase.readWithin limit) cursor body last) (enough : limit ≤ more)
    (ends : EndsInSemicolon cursor.rest)
    (behind : Statements (Phrase.readWithin more) (last.extend tail stop) others final) :
    Statements (Phrase.readWithin more) (cursor.extend tail stop) (body ++ others) final := by
  have noElse : tail.head?.map (·.kind) ≠ some (.word "else") := by
    have next := behind.not_else
    rwa [Cursor.next?, Cursor.extend, run.rest_eq_nil, List.nil_append] at next
  induction run with
  | done => exact behind
  | next someToken success _ ih =>
    have phrases : PhrasesKeepUp (seam tail stop noElse) _ _ := readWithin_keepsUp enough
    obtain ⟨_, same, ends, rfl⟩ := phrases.statement _ _ ⟨someToken, ends, rfl⟩ _ _ success
    refine .next ?_ same (ih ends behind)
    exact fun nothing => someToken (List.append_eq_nil_iff.mp nothing).1

end Statements

private theorem length_breakBefore (tokens : List Token) : (breakBefore tokens).length = tokens.length := by
  cases tokens <;> rfl

section Programs

variable {tokens others : List Token} {sourceEnd otherEnd : Pos} {draft other : Draft}

private theorem program_statements (limit : Nat) (cursor : Cursor) :
    Ensures (program (Phrase.readWithin limit)) cursor fun draft last =>
      ∃ body, Statements (Phrase.readWithin limit) cursor body last ∧
        body.length ≤ cursor.rest.length ∧ draft = .program body cursor.sourceEnd := by
  simp only [program, many, ensures_bind, ensures_get, make_draft, ensures_pure]
  refine (Statements.of_manyUpTo _ _ _).mono ?_
  rintro body last ⟨run, short⟩
  obtain ⟨_, passes, -⟩ := run.yields
  exact ⟨body, run, Nat.le_of_lt_succ short, by rw [passes.sourceEnd, Draft.program]⟩

private theorem Statements.program_eq {limit : Nat} {cursor last : Cursor} {body : List Draft}
    (run : Statements (Phrase.readWithin limit) cursor body last)
    (short : body.length ≤ cursor.rest.length) :
    Script.program (m := Reader) (Phrase.readWithin limit) cursor =
      .ok (.program body cursor.sourceEnd) last := by
  have read : many (m := Reader) atEnd (Phrase.readWithin limit .statement) cursor = .ok body last :=
    run.manyUpTo_eq (Nat.lt_succ_of_le short)
  obtain ⟨_, passes, -⟩ := run.yields
  rw [Script.program, bind_ok read, ← passes.sourceEnd]
  rfl

/-- Tokens are parsed as a run of statements. -/
theorem parseTokens_eq_ok_iff : parseTokens tokens sourceEnd = .ok draft ↔
    ∃ body last, Statements (Phrase.readWithin (unrollings tokens.length))
        (.first tokens sourceEnd) body last ∧
      body.length ≤ tokens.length ∧ draft = .program body sourceEnd := by
  unfold parseTokens
  constructor
  · intro parsed
    split at parsed
    · rename_i last success
      cases parsed
      obtain ⟨body, run, short, rfl⟩ := program_statements _ _ _ _ success
      exact ⟨body, last, run, short, rfl⟩
    · cases parsed
  · rintro ⟨body, last, run, short, rfl⟩
    rw [run.program_eq short]
    rfl

/-- The tokens of two programs, of which the first ends in a semicolon, are the tokens of a program with
both bodies. -/
theorem parseTokens_join (move : Pos → Pos) (ends : EndsInSemicolon tokens)
    (parsed : parseTokens tokens sourceEnd = .ok draft)
    (parsedOthers : parseTokens others otherEnd = .ok other) :
    ∃ body further, draft = .program body sourceEnd ∧ other = .program further otherEnd ∧
      parseTokens (tokens ++ breakBefore (others.map (Token.relocate move))) (move otherEnd) =
        .ok (.program (body ++ further.map (Draft.relocate move)) (move otherEnd)) := by
  obtain ⟨body, last, run, short, rfl⟩ := parseTokens_eq_ok_iff.mp parsed
  obtain ⟨further, _, runOthers, shortOthers, rfl⟩ := parseTokens_eq_ok_iff.mp parsedOthers
  have size : (tokens ++ breakBefore (others.map (Token.relocate move))).length =
      tokens.length + others.length := by
    rw [List.length_append, length_breakBefore, List.length_map]
  generalize tail : breakBefore (others.map (Token.relocate move)) = behind at size
  -- Where the first run ends, the moved tokens of the second one are ahead, with a newline before them.
  have fresh : ((Cursor.first others otherEnd).relocate move).Refreshes
      (last.extend behind (move otherEnd)) := by
    have ahead : (last.extend behind (move otherEnd)).rest = behind := by
      rw [Cursor.extend, run.rest_eq_nil, List.nil_append]
    obtain ⟨_, passes, -⟩ := run.yields
    refine ⟨?_, ?_, rfl, passes.depth⟩
    · rw [ahead, ← tail]
      cases others <;> rfl
    · rw [ahead, ← tail]
      cases others <;> rfl
  have enough : unrollings tokens.length ≤ unrollings (tokens ++ behind).length := by
    unfold unrollings
    omega
  have enoughOthers : unrollings others.length ≤ unrollings (tokens ++ behind).length := by
    unfold unrollings
    omega
  obtain ⟨final, runMoved⟩ := (runOthers.relocate move).refresh enoughOthers fresh
  have joined := run.join enough ends runMoved
  refine ⟨body, further, rfl, rfl, parseTokens_eq_ok_iff.mpr ⟨_, final, joined, ?_, rfl⟩⟩
  rw [List.length_append, List.length_map]
  omega

end Programs

section Sources

variable {source further : String} {draft other : Draft}

/-- Sources of which the first ends in a semicolon can be joined by a newline. -/
theorem parse_join (parsed : parse source = .ok draft) (parsedFurther : parse further = .ok other)
    (ends : EndsInSemicolon (scan source.toList).tokens) :
    ∃ body others, draft = .program body (Pos.origin.after source.toList) ∧
      other = .program others (Pos.origin.after further.toList) ∧
      parse (source ++ "\n" ++ further) =
        .ok (.program (body ++ others.map (Draft.relocate (Pos.down (source.toList.count '\n' + 1))))
          (Pos.origin.after (source ++ "\n" ++ further).toList)) := by
  have clean := scan_of_parse parsed
  have cleanFurther := scan_of_parse parsedFurther
  rw [parse_of_scan clean] at parsed
  rw [parse_of_scan cleanFurther] at parsedFurther
  have text : (source ++ "\n" ++ further).toList = source.toList ++ '\n' :: further.toList := by
    rw [String.toList_append, String.toList_append, List.append_assoc]
    rfl
  have scanned := scan_join clean cleanFurther
  rw [← text] at scanned
  have stop : Pos.origin.after (source ++ "\n" ++ further).toList =
      (Pos.origin.after further.toList).down (source.toList.count '\n' + 1) := by
    rw [text, Pos.after_append, Pos.after_cons, Pos.next_newline, Pos.after_down]
  obtain ⟨body, others, same, sameFurther, joined⟩ :=
    parseTokens_join (Pos.down (source.toList.count '\n' + 1)) ends parsed parsedFurther
  refine ⟨body, others, same, sameFurther, ?_⟩
  rw [parse_of_scan (by rw [scanned]), scanned, stop, joined]

/-- Two sources that can be parsed, of which the first has no tokens or ends in a semicolon, can be parsed
with a newline between them. The statements are those of both, and those of the second source have moved
down. -/
theorem statements_parse_independently (id firstId secondId : TreeId) (source further : String)
    (first second : Tree) (tokens : List Token)
    (parsed : (language.parse firstId source).value = .ok first)
    (parsedFurther : (language.parse secondId further).value = .ok second)
    (tokenized : Tokenizer.tokens.of source.toList = .ok tokens) (ends : EndsInSemicolon tokens) :
    ∃ tree body others, (language.parse id (source ++ "\n" ++ further)).value = .ok tree ∧
      first.root.relabel Numbered.toLabel = Draft.program body (Pos.origin.after source.toList) ∧
      second.root.relabel Numbered.toLabel = Draft.program others (Pos.origin.after further.toList) ∧
      tree.root.relabel Numbered.toLabel =
        Draft.program (body ++ others.map (Draft.relocate (Pos.down (source.toList.count '\n' + 1))))
          (Pos.origin.after (source ++ "\n" ++ further).toList) := by
  have drafted := (toTree_spec parsed).1
  have draftedFurther := (toTree_spec parsedFurther).1
  have scanned : (scan source.toList).tokens = tokens := by
    rw [Tokenizer.tokens_of_eq_ok_iff.mp tokenized]
  rw [← scanned] at ends
  obtain ⟨body, others, same, sameFurther, joined⟩ := parse_join drafted draftedFurther ends
  rcases toTree_cases id (source ++ "\n" ++ further) with ⟨error, failed, -⟩ | ⟨tree, made, planted, -⟩
  · rw [failed] at joined
    cases joined
  · exact ⟨tree, body, others, planted, same, sameFurther, Except.ok.inj (made.symm.trans joined)⟩

theorem arrow_function_behind_comment_parses_independently :
    ∃ first second tokens tree body others,
      (language.parse 0 "if(a)b=(c)\n;// d").value = .ok first ∧
      (language.parse 1 "(e)=>f\n++g").value = .ok second ∧
      Tokenizer.tokens.of "if(a)b=(c)\n;// d".toList = .ok tokens ∧ EndsInSemicolon tokens ∧
      (language.parse 2 "if(a)b=(c)\n;// d\n(e)=>f\n++g").value = .ok tree ∧
      first.root.relabel Numbered.toLabel = Draft.program body ⟨2, 5⟩ ∧
      second.root.relabel Numbered.toLabel = Draft.program others ⟨2, 3⟩ ∧
      tree.root.relabel Numbered.toLabel =
        Draft.program (body ++ others.map (Draft.relocate (Pos.down 2))) ⟨4, 3⟩ := by
  have accepted (id : TreeId) (source : String) (isTree : (parse source).toOption.isSome = true) :
      ∃ tree, (language.parse id source).value = .ok tree := by
    rcases toTree_cases id source with ⟨error, failed, -⟩ | ⟨tree, -, planted, -⟩
    · rw [failed] at isTree
      cases isTree
    · exact ⟨tree, planted⟩
  have last : (scan "if(a)b=(c)\n;// d".toList).tokens.getLast?.map (·.kind) = some (.punct ";") := by
    decide +kernel
  have ends : EndsInSemicolon (scan "if(a)b=(c)\n;// d".toList).tokens := by
    intro token isLast
    rw [isLast] at last
    exact Option.some.inj last
  obtain ⟨first, parsed⟩ := accepted 0 "if(a)b=(c)\n;// d" (by decide +kernel)
  obtain ⟨second, parsedFurther⟩ := accepted 1 "(e)=>f\n++g" (by decide +kernel)
  have clean : (scan "if(a)b=(c)\n;// d".toList).error = none := by
    decide +kernel
  have tokenized := Tokenizer.tokens_of_clean clean
  obtain ⟨tree, body, others, joined⟩ :=
    statements_parse_independently 2 0 1 _ _ first second _ parsed parsedFurther tokenized ends
  exact ⟨first, second, _, tree, body, others, parsed, parsedFurther, tokenized, ends, joined⟩

end Sources

end Script

end SyntaxNav
