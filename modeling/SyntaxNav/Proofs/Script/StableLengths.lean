import SyntaxNav.Proofs.Script.Scanning

/-! # Lengths that blanks end

How far a number or a word reaches is decided by its own characters, once a space, a newline or the end
of the text stands behind it. `Stable` says so of a length that is measured at the front of a text, and
`Bounded` that the length does not go beyond the text; both are kept when one part of a token follows
another.
-/

namespace SyntaxNav.Script

/-- A text that is empty or starts with a space or a newline. -/
def Separated (text : List Char) : Prop :=
  ∀ c, text.head? = some c → c = ' ' ∨ c = '\n'

/-- A length at the front of a text that no longer depends on what stands behind the part it measures,
once that is separated. -/
def Stable (length : List Char → Nat) : Prop :=
  ∀ ⦃front rest after⦄, length (front ++ rest) ≤ front.length → Separated after →
    length (front ++ after) = length (front ++ rest)

/-- Tokens are separated by a blank or a newline, or nothing follows. -/
theorem Separated.cases {after : List Char} (separated : Separated after) :
    after = [] ∨ ∃ rest, after = ' ' :: rest ∨ after = '\n' :: rest := by
  cases after with
  | nil => exact .inl rfl
  | cons c rest =>
    rcases separated c rfl with rfl | rfl
    · exact .inr ⟨rest, .inl rfl⟩
    · exact .inr ⟨rest, .inr rfl⟩

/-- What runs up to a blank does not go on behind it. -/
theorem Separated.takeWhile {after : List Char} (separated : Separated after) {among : Char → Bool}
    (space : among ' ' = false) (newline : among '\n' = false) : after.takeWhile among = [] := by
  rcases separated.cases with rfl | ⟨rest, rfl | rfl⟩
  · rfl
  · exact List.takeWhile_cons_of_neg (by rw [space]; exact Bool.false_ne_true)
  · exact List.takeWhile_cons_of_neg (by rw [newline]; exact Bool.false_ne_true)

/-- The run of characters of some sort is stable, if blanks are not among them. -/
theorem length_takeWhile_stable {among : Char → Bool} (space : among ' ' = false)
    (newline : among '\n' = false) {front rest after : List Char}
    (fits : ((front ++ rest).takeWhile among).length ≤ front.length) (separated : Separated after) :
    ((front ++ after).takeWhile among).length = ((front ++ rest).takeWhile among).length := by
  induction front with
  | nil =>
    rw [List.nil_append, List.length_nil, Nat.le_zero] at fits
    rw [List.nil_append, List.nil_append, fits, separated.takeWhile space newline, List.length_nil]
  | cons c front ih =>
    simp only [List.cons_append, List.takeWhile_cons] at fits ⊢
    split
    · rename_i isAmong
      rw [if_pos isAmong, List.length_cons, List.length_cons] at fits
      rw [List.length_cons, List.length_cons, ih (Nat.le_of_succ_le_succ fits)]
    · rfl

/-- The length of the decimal digits at the front of a text. -/
private def digitsLength (text : List Char) : Nat :=
  (text.takeWhile Text.isDecimalDigit).length

private theorem stable_digitsLength : Stable digitsLength :=
  fun _ _ _ fits separated => length_takeWhile_stable (by decide) (by decide) fits separated

/-- A stable part followed by a stable part is stable. -/
theorem Stable.followedBy {first second : List Char → Nat} (left : Stable first)
    (right : Stable second) : Stable fun text => first text + second (text.drop (first text)) := by
  intro front rest after fits separated
  dsimp only at fits ⊢
  have firstFits : first (front ++ rest) ≤ front.length := by omega
  rw [left firstFits separated, List.drop_append_of_le_length firstFits,
    List.drop_append_of_le_length firstFits]
  rw [List.drop_append_of_le_length firstFits] at fits
  rw [right _ separated]
  rw [List.length_drop]
  omega

private theorem stable_fractionLength : Stable fractionLength := by
  intro front rest after fits separated
  cases front with
  | nil =>
    rw [List.nil_append, List.length_nil, Nat.le_zero] at fits
    rw [List.nil_append, List.nil_append, fits]
    rcases separated.cases with rfl | ⟨rest, rfl | rfl⟩ <;> rfl
  | cons c front =>
    by_cases point : c = '.'
    · subst point
      have digits (text : List Char) : fractionLength ('.' :: text) = 1 + digitsLength text := rfl
      rw [List.cons_append, digits, List.length_cons] at fits
      rw [List.cons_append, List.cons_append, digits, digits,
        stable_digitsLength (by omega : digitsLength (front ++ rest) ≤ front.length) separated]
    · simp [fractionLength, point]

private def signLength : List Char → Nat
  | '+' :: _ | '-' :: _ => 1
  | _ => 0

private theorem exponentLength_cons (mark : Char) (text : List Char) :
    exponentLength (mark :: text) =
      if (mark = 'e' ∨ mark = 'E') ∧ digitsLength (text.drop (signLength text)) ≠ 0
      then 1 + signLength text + digitsLength (text.drop (signLength text))
      else 0 := rfl

private theorem signLength_of_separated {after : List Char} (separated : Separated after) :
    signLength after = 0 := by
  rcases separated.cases with rfl | ⟨rest, rfl | rfl⟩ <;> rfl

private theorem signLength_cons (c : Char) (text other : List Char) :
    signLength (c :: text) = signLength (c :: other) := by
  by_cases plus : c = '+'
  · subst plus
    rfl
  · by_cases minus : c = '-'
    · subst minus
      rfl
    · simp [signLength, plus, minus]

private theorem signLength_le_one (text : List Char) : signLength text ≤ 1 := by
  unfold signLength
  split <;> omega

private theorem stable_exponentLength : Stable exponentLength := by
  intro front rest after fits separated
  cases front with
  | nil =>
    rw [List.nil_append, List.length_nil, Nat.le_zero] at fits
    rw [List.nil_append, List.nil_append, fits]
    rcases separated.cases with rfl | ⟨rest, rfl | rfl⟩ <;> simp [exponentLength]
  | cons mark front =>
    rw [List.cons_append, List.cons_append, exponentLength_cons, exponentLength_cons]
    rw [List.cons_append, exponentLength_cons, List.length_cons] at fits
    by_cases isMark : mark = 'e' ∨ mark = 'E'
    · simp only [isMark, true_and] at fits ⊢
      cases front with
      | nil =>
        -- A lone mark is no exponent: behind it there would have to be a digit.
        have noDigits : digitsLength after = 0 := by
          rw [digitsLength, separated.takeWhile (by decide) (by decide), List.length_nil]
        rw [List.nil_append, List.length_nil] at fits
        rw [List.nil_append, List.nil_append, signLength_of_separated separated, List.drop_zero,
          noDigits, if_neg (by simp)]
        split at fits
        · omega
        · rw [if_neg ‹_›]
      | cons c front =>
        have sameSign : signLength (c :: front ++ after) = signLength (c :: front ++ rest) :=
          signLength_cons c _ _
        have inside : signLength (c :: front ++ rest) ≤ (c :: front).length :=
          Nat.le_trans (signLength_le_one _) (by simp)
        rw [List.drop_append_of_le_length inside] at fits
        rw [sameSign, List.drop_append_of_le_length inside, List.drop_append_of_le_length inside]
        have digitsFit : digitsLength ((c :: front).drop (signLength (c :: front ++ rest)) ++ rest) ≤
            ((c :: front).drop (signLength (c :: front ++ rest))).length := by
          rw [List.length_drop]
          split at fits <;> omega
        rw [stable_digitsLength digitsFit separated]
    · simp only [isMark, false_and, if_false]

/-- The length of the digits before and behind the point of a number. -/
private def mantissaLength (text : List Char) : Nat :=
  digitsLength text + fractionLength (text.drop (digitsLength text))

private theorem decimalLength_eq (text : List Char) :
    decimalLength text = mantissaLength text + exponentLength (text.drop (mantissaLength text)) := rfl

private theorem stable_decimalLength : Stable decimalLength :=
  (stable_digitsLength.followedBy stable_fractionLength).followedBy stable_exponentLength

/-- Stability of a length that there may not be. -/
def StableOption (length? : List Char → Option Nat) : Prop :=
  ∀ ⦃front rest after⦄, (∀ length, length? (front ++ rest) = some length → length ≤ front.length) →
    Separated after → length? (front ++ after) = length? (front ++ rest)

private theorem StableOption.orElse {first second : List Char → Option Nat} (left : StableOption first)
    (right : StableOption second) : StableOption fun text => first text <|> second text := by
  intro front rest after fits separated
  dsimp only at fits ⊢
  cases chosen : first (front ++ rest) with
  | some length =>
    rw [chosen] at fits
    have same : first (front ++ after) = some length := by
      rw [left _ separated, chosen]
      intro other isOther
      rw [chosen] at isOther
      exact fits other isOther
    rw [same]
    rfl
  | none =>
    rw [chosen] at fits
    have same : first (front ++ after) = none := by
      rw [left _ separated, chosen]
      rw [chosen]
      exact nofun
    rw [same]
    exact right fits separated

/-- A marked base takes at least three characters, so there is none within fewer. -/
private theorem basedLength?_of_short {lower upper : Char} {isDigit : Char → Bool}
    {front rest : List Char} (short : front.length ≤ 2)
    (fits : ∀ length, basedLength? lower upper isDigit (front ++ rest) = some length →
      length ≤ front.length) : basedLength? lower upper isDigit (front ++ rest) = none := by
  refine Option.eq_none_iff_forall_ne_some.mpr fun length based => ?_
  have fit := fits length based
  obtain ⟨mark, digits, -, -, someDigit, rfl⟩ := basedLength?_eq_some_iff.mp based
  omega

private theorem stable_basedLength? {lower upper : Char} {isDigit : Char → Bool} (space : isDigit ' ' = false)
    (newline : isDigit '\n' = false) (lowerMark : lower ≠ ' ' ∧ lower ≠ '\n')
    (upperMark : upper ≠ ' ' ∧ upper ≠ '\n') : StableOption (basedLength? lower upper isDigit) := by
  intro front rest after fits separated
  match front with
  | [] =>
    rw [basedLength?_of_short (by simp) fits]
    refine Option.eq_none_iff_forall_ne_some.mpr fun length based => ?_
    obtain ⟨mark, digits, starts, -⟩ := basedLength?_eq_some_iff.mp based
    rw [List.nil_append] at starts
    exact absurd (separated '0' (by rw [starts, List.head?_cons])) (by decide)
  | [c] =>
    rw [basedLength?_of_short (by simp) fits]
    refine Option.eq_none_iff_forall_ne_some.mpr fun length based => ?_
    obtain ⟨mark, digits, starts, isMark, -⟩ := basedLength?_eq_some_iff.mp based
    rw [List.singleton_append, List.cons.injEq] at starts
    have noMark : mark ≠ ' ' ∧ mark ≠ '\n' := by
      rcases isMark with rfl | rfl
      · exact lowerMark
      · exact upperMark
    exact (separated mark (by rw [starts.2, List.head?_cons])).elim noMark.1 noMark.2
  | c :: mark :: front =>
    simp only [List.cons_append] at fits ⊢
    by_cases zero : c = '0'
    · subst zero
      by_cases isMark : mark = lower ∨ mark = upper
      · have digitsFit : ((front ++ rest).takeWhile isDigit).length ≤ front.length := by
          by_cases noDigit : ((front ++ rest).takeWhile isDigit).length = 0
          · omega
          · have fit := fits _ (if_pos ⟨isMark, noDigit⟩)
            simp only [List.length_cons] at fit
            omega
        simp only [basedLength?, length_takeWhile_stable space newline digitsFit separated]
      · simp [basedLength?, isMark]
    · simp [basedLength?, zero]

private def baseLength? (text : List Char) : Option Nat :=
  basedLength? 'x' 'X' isHexDigit text
    <|> basedLength? 'b' 'B' (fun c => c = '0' || c = '1') text
    <|> basedLength? 'o' 'O' (fun c => '0' ≤ c && c ≤ '7') text

/-- The length of a number without the mark of a big integer. -/
private def magnitudeLength (text : List Char) : Nat :=
  (baseLength? text).getD (decimalLength text)

private def bigMarkLength : List Char → Nat
  | 'n' :: _ => 1
  | _ => 0

private theorem numberLength_eq (text : List Char) :
    numberLength text = magnitudeLength text + bigMarkLength (text.drop (magnitudeLength text)) := by
  change (match text.drop (magnitudeLength text) with
    | 'n' :: _ => magnitudeLength text + 1
    | _ => magnitudeLength text) = _
  cases text.drop (magnitudeLength text) with
  | nil => rfl
  | cons c behind =>
    by_cases big : c = 'n'
    · subst big
      rfl
    · simp [bigMarkLength, big]

private theorem stable_baseLength? : StableOption baseLength? :=
  (stable_basedLength? (by decide) (by decide) (by decide) (by decide)).orElse
    ((stable_basedLength? (by decide) (by decide) (by decide) (by decide)).orElse
      (stable_basedLength? (by decide) (by decide) (by decide) (by decide)))

private theorem stable_magnitudeLength : Stable magnitudeLength := by
  intro front rest after fits separated
  unfold magnitudeLength at fits ⊢
  have baseFits : ∀ length, baseLength? (front ++ rest) = some length → length ≤ front.length := by
    intro length based
    rwa [based, Option.getD_some] at fits
  rw [stable_baseLength? baseFits separated]
  cases based : baseLength? (front ++ rest) with
  | some length => rfl
  | none =>
    rw [based, Option.getD_none] at fits
    exact stable_decimalLength fits separated

private theorem stable_bigMarkLength : Stable bigMarkLength := by
  intro front rest after fits separated
  cases front with
  | nil =>
    rw [List.nil_append, List.length_nil, Nat.le_zero] at fits
    rw [List.nil_append, List.nil_append, fits]
    rcases separated.cases with rfl | ⟨rest, rfl | rfl⟩ <;> rfl
  | cons c front =>
    by_cases big : c = 'n'
    · subst big
      rfl
    · simp [bigMarkLength, big]

/-- The length of a number does not depend on what follows it, once that is separated. -/
theorem stable_numberLength : Stable numberLength := by
  intro front rest after fits separated
  rw [numberLength_eq] at fits ⊢
  rw [numberLength_eq]
  exact stable_magnitudeLength.followedBy stable_bigMarkLength fits separated

/-- A length at the front of a text that does not go beyond its end. -/
def Bounded (length : List Char → Nat) : Prop :=
  ∀ text, length text ≤ text.length

private theorem Bounded.followedBy {first second : List Char → Nat} (left : Bounded first)
    (right : Bounded second) : Bounded fun text => first text + second (text.drop (first text)) := by
  intro text
  have leftFits := left text
  have rightFits := right (text.drop (first text))
  rw [List.length_drop] at rightFits
  dsimp only
  omega

private theorem bounded_digitsLength : Bounded digitsLength :=
  fun _ => (List.takeWhile_prefix _).length_le

private theorem bounded_fractionLength : Bounded fractionLength := by
  intro text
  unfold fractionLength
  split
  · rename_i rest
    have digits : (rest.takeWhile Text.isDecimalDigit).length ≤ rest.length := bounded_digitsLength rest
    rw [List.length_cons]
    omega
  · exact Nat.zero_le _

private theorem bounded_exponentLength : Bounded exponentLength := by
  intro text
  cases text with
  | nil => exact Nat.zero_le _
  | cons mark text =>
    rw [exponentLength_cons, List.length_cons]
    have digits := bounded_digitsLength (text.drop (signLength text))
    rw [List.length_drop] at digits
    split
    · omega
    · exact Nat.zero_le _

private theorem bounded_decimalLength : Bounded decimalLength :=
  (bounded_digitsLength.followedBy bounded_fractionLength).followedBy bounded_exponentLength

private theorem basedLength?_le {lower upper : Char} {isDigit : Char → Bool} {text : List Char}
    {length : Nat} (based : basedLength? lower upper isDigit text = some length) :
    length ≤ text.length := by
  obtain ⟨mark, rest, rfl, -, -, rfl⟩ := basedLength?_eq_some_iff.mp based
  have digits := (rest.takeWhile_prefix isDigit).length_le
  simp only [List.length_cons]
  omega

private theorem bounded_magnitudeLength : Bounded magnitudeLength := by
  intro text
  unfold magnitudeLength
  cases based : baseLength? text with
  | none => exact bounded_decimalLength text
  | some length =>
    simp only [baseLength?, Option.orElse_eq_orElse, Option.orElse_eq_or, Option.or_eq_some_iff]
      at based
    rcases based with based | ⟨-, based | ⟨-, based⟩⟩
    · exact basedLength?_le based
    · exact basedLength?_le based
    · exact basedLength?_le based

private theorem bounded_bigMarkLength : Bounded bigMarkLength := by
  intro text
  unfold bigMarkLength
  split
  · rw [List.length_cons]
    omega
  · exact Nat.zero_le _

/-- A number ends in its text. -/
theorem bounded_numberLength : Bounded numberLength := by
  intro text
  rw [numberLength_eq]
  exact bounded_magnitudeLength.followedBy bounded_bigMarkLength text

/-- A number that starts with a point goes on behind it. -/
theorem two_le_numberLength {digit : Char} (isDigit : digit.isDigit = true) (rest : List Char) :
    2 ≤ numberLength ('.' :: digit :: rest) := by
  have digits : 1 ≤ digitsLength (digit :: rest) := by
    rw [digitsLength, List.takeWhile_cons_of_pos (isDecimalDigit_of_isDigit isDigit), List.length_cons]
    omega
  have noBase : baseLength? ('.' :: digit :: rest) = none := by
    simp [baseLength?, basedLength?]
  have noWhole : digitsLength ('.' :: digit :: rest) = 0 := by
    rw [digitsLength, List.takeWhile_cons_of_neg (by decide), List.length_nil]
  have fraction : fractionLength ('.' :: digit :: rest) = 1 + digitsLength (digit :: rest) := rfl
  rw [numberLength_eq, magnitudeLength, noBase, Option.getD_none, decimalLength_eq, mantissaLength,
    noWhole, List.drop_zero, fraction]
  omega

/-- A length at the front of a text that takes in only some characters. -/
def TakesIn (among : Char → Bool) (length : List Char → Nat) : Prop :=
  ∀ text : List Char, ∀ c ∈ text.take (length text), among c = true

private theorem TakesIn.followedBy {among : Char → Bool} {first second : List Char → Nat}
    (left : TakesIn among first) (right : TakesIn among second) :
    TakesIn among fun text => first text + second (text.drop (first text)) := by
  intro text c member
  rw [List.take_add] at member
  rcases List.mem_append.mp member with member | member
  · exact left text c member
  · exact right _ c member

def isNumberPart (c : Char) : Bool :=
  Text.isDecimalDigit c || isHexDigit c || c.isAlpha || c = '.' || c = '+' || c = '-'

private theorem takesIn_takeWhile {among digit : Char → Bool}
    (narrower : ∀ c, digit c = true → among c = true) :
    TakesIn among fun text => (text.takeWhile digit).length := by
  intro text c member
  rw [← List.prefix_iff_eq_take.mp (text.takeWhile_prefix digit)] at member
  exact narrower c (List.all_eq_true.mp List.all_takeWhile c member)

private theorem takesIn_digitsLength : TakesIn isNumberPart digitsLength :=
  takesIn_takeWhile fun c digit => by simp [isNumberPart, digit]

private theorem takesIn_fractionLength : TakesIn isNumberPart fractionLength := by
  intro text c member
  unfold fractionLength at member
  split at member
  · rename_i rest
    rw [Nat.add_comm, List.take_succ_cons] at member
    rcases List.mem_cons.mp member with rfl | member
    · rfl
    · exact takesIn_digitsLength rest c member
  · rw [List.take_zero] at member
    cases member

private theorem takesIn_signLength : TakesIn isNumberPart signLength := by
  intro text c member
  unfold signLength at member
  split at member
  · obtain rfl := List.mem_singleton.mp member
    rfl
  · obtain rfl := List.mem_singleton.mp member
    rfl
  · rw [List.take_zero] at member
    cases member

private theorem takesIn_exponentLength : TakesIn isNumberPart exponentLength := by
  intro text c member
  cases text with
  | nil =>
    rw [List.take_nil] at member
    cases member
  | cons mark text =>
    rw [exponentLength_cons] at member
    split at member
    · rename_i exponent
      rw [Nat.add_assoc, Nat.add_comm, List.take_succ_cons] at member
      rcases List.mem_cons.mp member with rfl | member
      · rcases exponent.1 with rfl | rfl <;> rfl
      · exact takesIn_signLength.followedBy takesIn_digitsLength text c member
    · rw [List.take_zero] at member
      cases member

private theorem takesIn_decimalLength : TakesIn isNumberPart decimalLength :=
  (takesIn_digitsLength.followedBy takesIn_fractionLength).followedBy takesIn_exponentLength

private theorem takesIn_basedLength? {lower upper : Char} {digit : Char → Bool} {text : List Char}
    {length : Nat} (based : basedLength? lower upper digit text = some length)
    (marks : isNumberPart lower = true ∧ isNumberPart upper = true)
    (digits : ∀ c, digit c = true → isNumberPart c = true) :
    ∀ c ∈ text.take length, isNumberPart c = true := by
  obtain ⟨mark, rest, rfl, isMark, -, rfl⟩ := basedLength?_eq_some_iff.mp based
  rw [Nat.add_comm, List.take_succ_cons, List.take_succ_cons, List.forall_mem_cons,
    List.forall_mem_cons]
  refine ⟨rfl, ?_, takesIn_takeWhile digits rest⟩
  rcases isMark with rfl | rfl
  · exact marks.1
  · exact marks.2

private theorem takesIn_magnitudeLength : TakesIn isNumberPart magnitudeLength := by
  intro text
  unfold magnitudeLength
  cases based : baseLength? text with
  | none => exact takesIn_decimalLength text
  | some length =>
    simp only [baseLength?, Option.orElse_eq_orElse, Option.orElse_eq_or, Option.or_eq_some_iff]
      at based
    rcases based with based | ⟨-, based | ⟨-, based⟩⟩
    · apply takesIn_basedLength? based (by decide)
      intro c digit
      simp [isNumberPart, digit]
    · apply takesIn_basedLength? based (by decide)
      intro c digit
      simp only [Bool.or_eq_true, decide_eq_true_eq] at digit
      rcases digit with rfl | rfl <;> rfl
    · apply takesIn_basedLength? based (by decide)
      intro c digit
      have isDigit : c.isDigit = true := by
        simp only [Bool.and_eq_true, decide_eq_true_eq, Char.le_def, UInt32.le_iff_toNat_le,
          Char.isDigit, ge_iff_le] at digit ⊢
        exact ⟨digit.1, Nat.le_trans digit.2 (by decide)⟩
      simp [isNumberPart, isHexDigit, isDigit]

private theorem takesIn_bigMarkLength : TakesIn isNumberPart bigMarkLength := by
  intro text c member
  unfold bigMarkLength at member
  split at member
  · obtain rfl := List.mem_singleton.mp member
    rfl
  · rw [List.take_zero] at member
    cases member

/-- A number consists of characters that can stand in one. -/
theorem takesIn_numberLength : TakesIn isNumberPart numberLength := by
  intro text
  rw [numberLength_eq]
  exact takesIn_magnitudeLength.followedBy takesIn_bigMarkLength text

end SyntaxNav.Script
