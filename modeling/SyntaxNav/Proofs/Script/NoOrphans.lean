import SyntaxNav.Proofs.Script.GrammarProgress
import SyntaxNav.Proofs.Script.SpanGeometry
import SyntaxNav.Proofs.Text.Offsets
import SyntaxNav.Proofs.Tree.Counting

/-! # Parsing breaks no promise

Whatever the source, parsing ends with a tree or with an error in the source. The builder is called for every
node while the tokens are read, and no call of it fails: each node is attached once, on every path to a tree.
No slice of the tokenizer splits a character, it never reads a token where nothing is left, and no limit is
met. A tree has no node besides those under its root.
-/

namespace SyntaxNav

namespace Text

/-- The bytes of a part of a source are found between the bytes in front of it and those behind it. -/
theorem extract_of_parts {source : String} {before inside after : List Char}
    (whole : source.toList = before ++ inside ++ after) :
    source.toByteArray.extract (byteLength before) (byteLength (before ++ inside)) =
      (String.ofList inside).toByteArray := by
  have parts : source = String.ofList before ++ (String.ofList inside ++ String.ofList after) := by
    rw [← String.ofList_append, ← String.ofList_append, ← List.append_assoc, ← whole,
      String.ofList_toList]
  rw [byteLength_append, byteLength_eq_utf8ByteSize, byteLength_eq_utf8ByteSize,
    ← String.size_toByteArray, ← String.size_toByteArray, parts, String.toByteArray_append,
    String.toByteArray_append]
  generalize (String.ofList before).toByteArray = front
  generalize (String.ofList inside).toByteArray = middle
  calc (front ++ (middle ++ _)).extract front.size (front.size + middle.size)
      = (front ++ (middle ++ _)).extract (front.size + 0) (front.size + middle.size) := rfl
    _ = (middle ++ _).extract 0 middle.size := ByteArray.extract_append_size_add
    _ = middle := ByteArray.extract_append_eq_left rfl

end Text

/-- A span runs between characters of a source, and what it slices out of the source is a text. -/
def Span.SlicesOut (span : Span) (source text : String) : Prop :=
  ∃ start stop, span.range? source.toList = some (start, stop) ∧
    String.Pos.Raw.IsValid source ⟨start⟩ ∧ String.Pos.Raw.IsValid source ⟨stop⟩ ∧
      source.toByteArray.extract start stop = text.toByteArray

private theorem Span.slicesOut_of_parts {source : String} {before inside after : List Char}
    (whole : source.toList = before ++ inside ++ after) :
    (⟨Pos.origin.after before, Pos.origin.after (before ++ inside)⟩ : Span).SlicesOut source
      (String.ofList inside) := by
  refine ⟨Text.byteLength before, Text.byteLength (before ++ inside), ?_, ?_, ?_, ?_⟩
  · have start : (Pos.origin.after before).offset? source.toList = some (Text.byteLength before) := by
      apply Pos.offset?_of_prefix
      rw [whole, List.append_assoc]
      exact List.prefix_append _ _
    have stop : (Pos.origin.after (before ++ inside)).offset? source.toList =
        some (Text.byteLength (before ++ inside)) := by
      apply Pos.offset?_of_prefix
      rw [whole]
      exact List.prefix_append _ _
    simp only [Span.range?, start, stop, Option.bind_eq_bind, Option.bind_some, Text.byteLength_append,
      Nat.le_add_right, ↓reduceIte]
  · exact Text.isValid_of_parts (whole.trans (List.append_assoc _ _ _))
  · exact Text.isValid_of_parts whole
  · exact Text.extract_of_parts whole

namespace Script

/-- Every token of a scan is a part of the text, also before a fault, and so is what stands before the
fault. -/
theorem scanFrom_parts (pos : Pos) (text : List Char) :
    (∀ token ∈ (scanFrom pos text).tokens, ∃ before after,
      text = before ++ token.kind.text.toList ++ after ∧
        token.span = ⟨pos.after before, pos.after (before ++ token.kind.text.toList)⟩) ∧
      ∀ error ∈ (scanFrom pos text).error, ∃ before after, text = before ++ after ∧
        error.pos = pos.after before := by
  fun_induction scanFrom pos text with
  | case1 => exact ⟨List.forall_mem_nil _, fun error found => absurd found (Option.not_mem_none error)⟩
  | case2 pos text error later found =>
    refine ⟨List.forall_mem_nil _, ?_⟩
    intro error member
    obtain rfl := Option.mem_some_iff.mp member
    cases Scanner.next_eq_iff.mp found with
    | @fault _ gap rest c => exact ⟨gap, c :: rest, rfl, rfl⟩
  | case3 pos text token later found scan ih =>
    obtain ⟨tokens, faults⟩ := ih
    cases Scanner.next_eq_iff.mp found with
    | @token _ gap more rest c kind gapped read written =>
      simp only at tokens faults
      constructor
      · intro token member
        rcases List.mem_cons.mp member with rfl | member
        · exact ⟨gap, rest, by rw [written]; simp, by rw [Pos.after_append, written]⟩
        · obtain ⟨before, after, parts, span⟩ := tokens token member
          refine ⟨gap ++ c :: more ++ before, after, ?_, ?_⟩
          · simp only [parts, List.append_assoc, List.cons_append]
          · rw [span]
            simp only [Pos.after_append]
      · intro error found
        obtain ⟨before, after, parts, place⟩ := faults error found
        refine ⟨gap ++ c :: more ++ before, after, ?_, ?_⟩
        · simp only [parts, List.append_assoc, List.cons_append]
        · rw [place]
          simp only [Pos.after_append]

private theorem readToken_settles {c : Char} {rest : List Char} {fault : Fault}
    (failed : readToken c rest = .error fault) : fault ≠ .stalled := by
  rintro rfl
  unfold readToken at failed
  simp only at failed
  repeat' split at failed
  all_goals cases failed

/-- A scan fails for reasons of the text alone. -/
theorem scanFrom_settles (pos : Pos) (text : List Char) :
    ∀ error ∈ (scanFrom pos text).error, error.fault ≠ .stalled := by
  fun_induction scanFrom pos text with
  | case1 => exact fun error found => absurd found (Option.not_mem_none error)
  | case2 pos text error later found =>
    intro error member
    obtain rfl := Option.mem_some_iff.mp member
    cases Scanner.next_eq_iff.mp found with
    | fault gapped failed => exact readToken_settles failed
  | case3 pos text token later found scan ih => exact ih

/-- Parsing ends with a tree, or with an error in the source and not at a limit. -/
theorem toTree_ends (id : TreeId) (source : String) :
    (∃ tree, toTree id source = .ok tree ∧
        tree.numNodes = (Visit.ofRoot tree).including.length) ∨
      ∃ error, parse source = .error error ∧
        toTree id source = .error (.malformed error.toParseError) ∧ error.fault ≠ .stalled := by
  cases parsed : parse source with
  | ok draft =>
    obtain ⟨tree, planted, -⟩ := Draft.toTree_built makingOrder id draft
    refine .inl ⟨tree, ?_, Draft.toTree_numNodes planted⟩
    simp only [toTree_eq, parsed, planted]
  | error error =>
    refine .inr ⟨error, rfl, by simp only [toTree_eq, parsed], ?_⟩
    unfold parse at parsed
    simp only at parsed
    split at parsed
    · rename_i scanned
      cases parsed
      exact scanFrom_settles _ _ error scanned
    · exact parseTokens_settles parsed

/-- Whatever the source, parsing gives a tree without a node besides those that a traversal from its root
hands out, or an error in the source: no call of the builder is a defect, no slice and no read of the
tokenizer is one, and no limit is met. The tokens, and what stands before a fault in one, are sliced out of
the source between characters. -/
theorem parsing_leaves_no_orphans (id : TreeId) (source : String) :
    ((∃ tree, (language.parse id source).value = .ok tree ∧
        tree.numNodes = (Visit.ofRoot tree).including.length) ∨
      ∃ error, parse source = .error error ∧ error.fault ≠ .stalled ∧
        (language.parse id source).value = .error (.malformed error.toParseError)) ∧
    (Tokenizer.tokens.of source.toList =
        match (scan source.toList).error with
        | some error => .error (.error error)
        | none => .ok (scan source.toList).tokens) ∧
    Tokenizer.endPos.of source.toList = .ok (Pos.origin.after source.toList) ∧
    (∀ token ∈ (scan source.toList).tokens, token.span.SlicesOut source token.kind.text) ∧
    ∀ error ∈ (scan source.toList).error, ∃ offset,
      error.pos.offset? source.toList = some offset ∧ String.Pos.Raw.IsValid source ⟨offset⟩ := by
  obtain ⟨tokens, faults⟩ := scanFrom_parts .origin source.toList
  refine ⟨?_, Tokenizer.tokens_of _, Tokenizer.endPos_of _, ?_, ?_⟩
  · rcases toTree_ends id source with ⟨tree, made, counted⟩ | ⟨error, parsed, failed, fault⟩
    · exact .inl ⟨tree, made, counted⟩
    · exact .inr ⟨error, parsed, fault, failed⟩
  · intro token member
    obtain ⟨before, after, whole, span⟩ := tokens token member
    rw [span]
    simpa only [String.ofList_toList] using Span.slicesOut_of_parts whole
  · intro error found
    obtain ⟨before, after, whole, place⟩ := faults error found
    refine ⟨Text.byteLength before, ?_, Text.isValid_of_parts whole⟩
    rw [place]
    exact Pos.offset?_of_prefix ⟨after, whole.symm⟩

end Script

end SyntaxNav
