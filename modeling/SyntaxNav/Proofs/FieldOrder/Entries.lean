import Mathlib.Data.List.Nodup
import SyntaxNav.FieldOrder

/-! # The entries of a field order

A field order is made only from entries that have fields and name no field and no kind twice. So the
fields of a kind are those of its one entry, and behind a field stands another one.
-/

namespace SyntaxNav.FieldOrder

variable {entries : List (String × List String)} {order : FieldOrder} {kind field : String}
  {earlier fields : List String}

/-- No field is repeated just if the fields are different from one another and from those before. -/
theorem firstRepeated?_eq_none_iff :
    firstRepeated? earlier fields = none ↔ fields.Nodup ∧ ∀ field ∈ fields, field ∉ earlier := by
  induction fields generalizing earlier with
  | nil => simp [firstRepeated?]
  | cons field rest ih =>
    rw [firstRepeated?]
    split
    · rename_i repeated
      simp only [reduceCtorEq, false_iff, not_and]
      intro _ fresh
      exact fresh field List.mem_cons_self repeated
    · rename_i fresh
      rw [ih, List.nodup_cons, List.forall_mem_cons]
      simp only [List.mem_cons, not_or]
      constructor
      · rintro ⟨distinct, apart⟩
        exact ⟨⟨fun member => (apart field member).1 rfl, distinct⟩, fresh,
          fun other member => (apart other member).2⟩
      · rintro ⟨⟨new, distinct⟩, -, apart⟩
        refine ⟨distinct, fun other member => ⟨?_, apart other member⟩⟩
        rintro rfl
        exact new member

/-- An entry is right just if it has fields, all different, and its kind is new. -/
theorem entryError?_eq_none_iff :
    entryError? earlier kind fields = none ↔ fields ≠ [] ∧ fields.Nodup ∧ kind ∉ earlier := by
  unfold entryError?
  split
  · rename_i none
    simp [none]
  · rename_i some
    split
    · rename_i repeated
      have twice : ¬ fields.Nodup := fun distinct => by
        rw [firstRepeated?_eq_none_iff.mpr ⟨distinct, fun _ _ => List.not_mem_nil⟩] at repeated
        cases repeated
      simp [twice]
    · rename_i unrepeated
      simp [some, (firstRepeated?_eq_none_iff.mp unrepeated).1]

/-- Entries are free of errors if each has fields, and no field and no kind is there twice. -/
theorem firstError?_eq_none_iff :
    firstError? earlier entries = none ↔
      (∀ entry ∈ entries, entry.2 ≠ [] ∧ entry.2.Nodup ∧ entry.1 ∉ earlier) ∧
        (entries.map Prod.fst).Nodup := by
  induction entries generalizing earlier with
  | nil => simp [firstError?]
  | cons entry rest ih =>
    obtain ⟨kind, fields⟩ := entry
    rw [firstError?, Option.or_eq_none_iff, entryError?_eq_none_iff, ih, List.forall_mem_cons,
      List.map_cons, List.nodup_cons]
    simp only [List.mem_cons, not_or, List.mem_map, not_exists, not_and]
    constructor
    · rintro ⟨first, others, distinct⟩
      refine ⟨⟨first, fun entry member => ?_⟩, fun entry member => ?_, distinct⟩
      · obtain ⟨nonempty, unrepeated, -, apart⟩ := others entry member
        exact ⟨nonempty, unrepeated, apart⟩
      · exact (others entry member).2.2.1
    · rintro ⟨⟨first, others⟩, apart, distinct⟩
      refine ⟨first, fun entry member => ?_, distinct⟩
      obtain ⟨nonempty, unrepeated, new⟩ := others entry member
      exact ⟨nonempty, unrepeated, apart entry member, new⟩

/-- Entries make a field order just if none of them is wrong, and the order holds all of them. -/
theorem ofEntries_eq_ok_iff :
    ofEntries entries = .ok order ↔ firstError? [] entries = none ∧ order = ⟨entries⟩ := by
  unfold ofEntries
  split
  · rename_i failed
    simp [failed]
  · rename_i clean
    simp [clean, eq_comm]

variable (made : ofEntries entries = .ok order)

include made

/-- The fields of a kind are those of its entry. -/
theorem fields?_eq_some_iff : order.fields? kind = some fields ↔ (kind, fields) ∈ entries := by
  obtain ⟨clean, rfl⟩ := ofEntries_eq_ok_iff.mp made
  constructor
  · intro known
    obtain ⟨before, after, rfl, -⟩ := List.lookup_eq_some_iff.mp known
    exact List.mem_append_right _ List.mem_cons_self
  · intro member
    obtain ⟨before, after, rfl⟩ := List.append_of_mem member
    have distinct := (firstError?_eq_none_iff.mp clean).2
    rw [List.map_append, List.nodup_append] at distinct
    refine List.lookup_eq_some_iff.mpr ⟨before, after, rfl, fun other earlier => ?_⟩
    exact bne_iff_ne.mpr (distinct.2.2 _ (List.mem_map_of_mem earlier) kind List.mem_cons_self).symm

/-- No kind has a field twice. -/
theorem fields_nodup (known : order.fields? kind = some fields) : fields.Nodup := by
  have member := (fields?_eq_some_iff made).mp known
  exact ((firstError?_eq_none_iff.mp (ofEntries_eq_ok_iff.mp made).1).1 _ member).2.1

/-- Behind a field stands another one. -/
theorem after?_ne : order.after? kind field ≠ some field := by
  intro same
  obtain ⟨fields, known, same⟩ := Option.bind_eq_some_iff.mp same
  obtain ⟨index, found, behind⟩ := Option.bind_eq_some_iff.mp same
  obtain ⟨inside, here, -⟩ := List.idxOf?_eq_some_iff.mp found
  have twice : fields[index]? = fields[index + 1]? := by
    rw [behind, List.getElem?_eq_getElem inside, here]
  have equal := (List.getElem?_inj inside (fields_nodup made known)).mp twice
  omega

end SyntaxNav.FieldOrder
