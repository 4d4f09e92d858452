import Mathlib.Data.List.Induction
import SyntaxNav.Proofs.FieldOrder.Entries

/-! # The earliest flaw of entries

Entries that make no field order are refused with an error about the first of them that offends: one that
has no fields, has a field twice, or is of a kind that an entry before it has. The entries are looked
through from the first one on, and so are the fields of each entry. Both are searches for the first place
that something is wrong with behind all that stands before it, and `FindsFirst` says of both where they
stop.
-/

namespace SyntaxNav.FieldOrder

section Searches

variable {α β : Type}

/-- A search through a list stops at the first member that is hit behind the members before it. -/
structure FindsFirst (hit : List α → α → Option β) (search : List α → Option β) : Prop where
  nil : search [] = none
  concat : ∀ front last, search (front ++ [last]) = (search front).or (hit front last)

variable {hit : List α → α → Option β} {search : List α → Option β} (finds : FindsFirst hit search)

include finds

private theorem FindsFirst.eq_none_iff (list : List α) :
    search list = none ↔ ∀ front last, front ++ [last] <+: list → hit front last = none := by
  induction list using List.reverseRecOn with
  | nil => simp [finds.nil]
  | append_singleton list next ih =>
    simp only [finds.concat, Option.or_eq_none_iff, ih, List.prefix_concat_iff]
    constructor
    · rintro ⟨clean, cleanNext⟩ front last (whole | within)
      · obtain ⟨rfl, rfl⟩ := List.append_singleton_inj.mp whole
        exact cleanNext
      · exact clean front last within
    · intro clean
      exact ⟨fun front last within => clean front last (.inr within), clean list next (.inl rfl)⟩

private theorem FindsFirst.eq_some_iff (list : List α) (found : β) :
    search list = some found ↔ ∃ front last, front ++ [last] <+: list ∧ search front = none ∧
      hit front last = some found := by
  induction list using List.reverseRecOn with
  | nil => simp [finds.nil]
  | append_singleton list next ih =>
    simp only [finds.concat, Option.or_eq_some_iff, ih, List.prefix_concat_iff]
    constructor
    · rintro (⟨front, last, within, clean, here⟩ | ⟨clean, here⟩)
      · exact ⟨front, last, .inr within, clean, here⟩
      · exact ⟨list, next, .inl rfl, clean, here⟩
    · rintro ⟨front, last, whole | within, clean, here⟩
      · obtain ⟨rfl, rfl⟩ := List.append_singleton_inj.mp whole
        exact .inr ⟨clean, here⟩
      · exact .inl ⟨front, last, within, clean, here⟩

end Searches

/-- An entry that cannot stand behind the entries before it. -/
def Offends (earlier : List (String × List String)) (entry : String × List String) : Prop :=
  entry.2 = [] ∨ ¬ entry.2.Nodup ∨ entry.1 ∈ earlier.map Prod.fst

/-- What is wrong with an entry behind the entries before it. A repeated field is the first one that stands
among the fields before it, and it is named even if the kind is repeated, too. -/
inductive Flaw (earlier : List (String × List String)) : String × List String → Error → Prop
  | noFields (kind : String) : Flaw earlier (kind, []) (.noFields kind)
  | repeatedField {kind field : String} {fields before : List String}
    (front : before ++ [field] <+: fields) (distinct : before.Nodup) (again : field ∈ before) :
    Flaw earlier (kind, fields) (.repeatedField kind field)
  | repeatedKind {kind : String} {fields : List String} (someField : fields ≠ [])
    (distinct : fields.Nodup) (again : kind ∈ earlier.map Prod.fst) :
    Flaw earlier (kind, fields) (.repeatedKind kind)

section Fields

variable {field : String} {fields : List String}

private theorem firstRepeated?_concat (earlier front : List String) (last : String) :
    firstRepeated? earlier (front ++ [last]) =
      (firstRepeated? earlier front).or (if last ∈ front ∨ last ∈ earlier then some last else none) := by
  induction front generalizing earlier with
  | nil => simp [firstRepeated?]
  | cons first front ih =>
    rw [List.cons_append, firstRepeated?, firstRepeated?]
    split
    · rfl
    · simp only [ih, List.mem_cons, or_left_comm, or_assoc]

private theorem firstRepeated?_findsFirst :
    FindsFirst (fun front last => if last ∈ front then some last else none) (firstRepeated? []) where
  nil := rfl
  concat front last := by simp [firstRepeated?_concat]

private theorem firstRepeated?_eq_some_iff :
    firstRepeated? [] fields = some field ↔
      ∃ before, before ++ [field] <+: fields ∧ before.Nodup ∧ field ∈ before := by
  simp only [firstRepeated?_findsFirst.eq_some_iff, firstRepeated?_eq_none_iff,
    Option.ite_none_right_eq_some, Option.some.injEq]
  constructor
  · rintro ⟨before, last, front, ⟨distinct, -⟩, again, rfl⟩
    exact ⟨before, front, distinct, again⟩
  · rintro ⟨before, front, distinct, again⟩
    exact ⟨before, field, front, ⟨distinct, fun _ _ => List.not_mem_nil⟩, again, rfl⟩

end Fields

section Entries

variable {entries earlier : List (String × List String)} {entry : String × List String} {error : Error}

/-- What is wrong with an entry behind other entries. -/
def flaw? (earlier : List (String × List String)) (entry : String × List String) : Option Error :=
  entryError? (earlier.map Prod.fst).reverse entry.1 entry.2

private theorem firstError?_concat (kinds : List String) (front : List (String × List String))
    (last : String × List String) :
    firstError? kinds (front ++ [last]) = (firstError? kinds front).or
      (entryError? ((front.map Prod.fst).reverse ++ kinds) last.1 last.2) := by
  induction front generalizing kinds with
  | nil => simp [firstError?]
  | cons first front ih =>
    rw [List.cons_append, firstError?, firstError?, ih, Option.or_assoc, List.map_cons, List.reverse_cons,
      List.append_assoc, List.singleton_append]

private theorem firstError?_findsFirst : FindsFirst flaw? (firstError? []) where
  nil := rfl
  concat front last := by rw [firstError?_concat, List.append_nil, flaw?]

private theorem flaw?_eq_none_iff : flaw? earlier entry = none ↔ ¬ Offends earlier entry := by
  rw [flaw?, entryError?_eq_none_iff, List.mem_reverse, Offends, not_or, not_or, not_not]

private theorem flaw?_eq_some_iff : flaw? earlier entry = some error ↔ Flaw earlier entry error := by
  obtain ⟨kind, fields⟩ := entry
  constructor
  · intro found
    unfold flaw? entryError? at found
    split at found
    · rename_i none
      cases found
      cases none
      exact .noFields kind
    · rename_i someField
      split at found
      · rename_i field repeated
        cases found
        obtain ⟨before, front, distinct, again⟩ := firstRepeated?_eq_some_iff.mp repeated
        exact .repeatedField front distinct again
      · rename_i unrepeated
        obtain ⟨again, same⟩ := Option.ite_none_right_eq_some.mp found
        cases same
        exact .repeatedKind someField (firstRepeated?_eq_none_iff.mp unrepeated).1
          (List.mem_reverse.mp again)
  · intro flaw
    unfold flaw? entryError?
    cases flaw with
    | noFields => exact if_pos rfl
    | repeatedField front distinct again =>
      have someField : fields ≠ [] := by
        rintro rfl
        exact List.append_ne_nil_of_right_ne_nil _ (List.cons_ne_nil _ _) (List.prefix_nil.mp front)
      rw [if_neg someField, firstRepeated?_eq_some_iff.mpr ⟨_, front, distinct, again⟩]
    | repeatedKind someField distinct again =>
      rw [if_neg someField, firstRepeated?_eq_none_iff.mpr ⟨distinct, fun _ _ => List.not_mem_nil⟩]
      exact if_pos (List.mem_reverse.mpr again)

private theorem Flaw.offends (flaw : Flaw earlier entry error) : Offends earlier entry := by
  by_contra sound
  rw [← flaw?_eq_none_iff, flaw?_eq_some_iff.mpr flaw] at sound
  cases sound

private theorem ofEntries_eq_error_iff :
    ofEntries entries = .error error ↔ firstError? [] entries = some error := by
  unfold ofEntries
  split
  · rename_i failed
    simp [failed]
  · rename_i clean
    simp [clean]

/-- The error is about an entry that offends behind entries that do not. -/
theorem firstError?_eq_some_iff :
    firstError? [] entries = some error ↔ ∃ before entry, before ++ [entry] <+: entries ∧
      (∀ earlier other, earlier ++ [other] <+: before → ¬ Offends earlier other) ∧
      Flaw before entry error := by
  simp only [firstError?_findsFirst.eq_some_iff, firstError?_findsFirst.eq_none_iff, flaw?_eq_none_iff,
    flaw?_eq_some_iff]

private theorem fields?_eq_none_iff {order : FieldOrder} {kind : String}
    (made : ofEntries entries = .ok order) :
    order.fields? kind = none ↔ kind ∉ entries.map Prod.fst := by
  obtain ⟨-, rfl⟩ := ofEntries_eq_ok_iff.mp made
  rw [fields?, List.lookup_eq_none_iff, List.mem_map, not_exists]
  simp only [bne_iff_ne, not_and, ne_comm]

end Entries

/-- Checking entries is exact. They make a field order if and only if each of them has fields and no field
twice, and no kind has two entries. The order knows the fields that are listed for a kind, and no other
kind. Entries are refused for the first one that offends, with the error that is its flaw. -/
theorem entries_are_refused_for_earliest_flaw (entries : List (String × List String)) :
    ((∃ order, ofEntries entries = .ok order) ↔
      (∀ entry ∈ entries, entry.2 ≠ [] ∧ entry.2.Nodup) ∧ (entries.map Prod.fst).Nodup) ∧
    (∀ order, ofEntries entries = .ok order → ∀ kind,
      (∀ fields, order.fields? kind = some fields ↔ (kind, fields) ∈ entries) ∧
      (order.fields? kind = none ↔ kind ∉ entries.map Prod.fst)) ∧
    ∀ error, ofEntries entries = .error error ↔ ∃ before entry,
      before ++ [entry] <+: entries ∧ Offends before entry ∧
      (∀ earlier other, earlier ++ [other] <+: before → ¬ Offends earlier other) ∧
      Flaw before entry error := by
  refine ⟨?_, fun order made kind => ⟨fun _ => fields?_eq_some_iff made, fields?_eq_none_iff made⟩,
    fun error => ?_⟩
  · simp [ofEntries_eq_ok_iff, firstError?_eq_none_iff]
  · rw [ofEntries_eq_error_iff, firstError?_eq_some_iff]
    constructor
    · rintro ⟨before, entry, front, sound, flaw⟩
      exact ⟨before, entry, front, flaw.offends, sound, flaw⟩
    · rintro ⟨before, entry, front, -, sound, flaw⟩
      exact ⟨before, entry, front, sound, flaw⟩

/-- The second entry for loops is refused for the field that it names twice first, although it is also the
second for its kind, and although the entry behind it has no fields. Calls have no entry in the order that
comes with the program. -/
theorem second_loop_is_refused_for_repeated_test :
    ofEntries [("Loop", ["init", "body"]), ("Loop", ["test", "body", "test", "body"]), ("Call", [])] =
      .error (.repeatedField "Loop" "test") ∧
    ofEntries bundled.entries = .ok bundled ∧
    bundled.fields? "IfStatement" = some ["test", "consequent", "alternate"] ∧
    bundled.fields? "CallExpression" = none := by
  have known := (entries_are_refused_for_earliest_flaw bundled.entries).2.1 bundled ofEntries_bundled
  refine ⟨((entries_are_refused_for_earliest_flaw _).2.2 _).mpr ⟨[("Loop", ["init", "body"])],
    ("Loop", ["test", "body", "test", "body"]), ?_, ?_, ?_, ?_⟩, ofEntries_bundled, ?_, ?_⟩
  · decide
  · exact .inr (.inl (by decide))
  · intro earlier other front
    obtain ⟨rfl, rfl⟩ : earlier = [] ∧ other = ("Loop", ["init", "body"]) := by
      simpa [List.prefix_cons_iff, List.append_eq_cons_iff] using front
    simp [Offends]
  · have front : ["test", "body"] ++ ["test"] <+: ["test", "body", "test", "body"] := by decide
    exact .repeatedField front (by decide) (by decide)
  · exact ((known "IfStatement").1 _).mpr (by decide)
  · exact (known "CallExpression").2.mpr (by decide)

end SyntaxNav.FieldOrder
