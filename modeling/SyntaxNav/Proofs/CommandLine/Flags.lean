import SyntaxNav.CommandLine.Run
import SyntaxNav.Proofs.Workspace.Contents

/-! # Flags among arguments

Options may stand anywhere among arguments, and a word can also be the value of the option before it or
stand behind two dashes. Still a flag that is set was written as such: `mem_of_flag` goes through the
arguments as they are sorted, and `readArguments_setByOptions` concludes it of the flags of a job.
-/

namespace SyntaxNav.CommandLine

variable {word : String} {flag : Flag}

/-- An option without a value is all name. -/
theorem splitOption_eq_none {option : List Char} {name : String} (split : splitOption option = (name, none)) :
    name = String.ofList option := by
  simp only [splitOption] at split
  split at split
  · cases split
  · rename_i ended
    have long := List.drop_eq_nil_iff.mp ended
    have whole := (List.takeWhile_prefix (· ≠ '=') (l := option)).eq_of_length_le long
    rw [whole] at split
    exact (Prod.mk.inj split).1.symm

private theorem lookup_of_readOption {option : List Char} (read : readOption word option = .ok (.flag flag)) :
    Flag.names.lookup (String.ofList option) = some flag := by
  cases parted : splitOption option with
  | mk name value =>
    simp only [readOption, parted] at read
    split at read
    · rename_i other found
      rw [splitOption_eq_none parted] at found
      cases read
      exact found
    · cases read
    · cases read
    · split at read <;> cases read
    · cases read

/-- A flag is written as two dashes and its name. -/
theorem lookup_of_readWord (read : readWord word = .ok (.flag flag)) :
    ∃ name, Flag.names.lookup name = some flag ∧ word = "--" ++ name := by
  unfold readWord at read
  split at read
  · rename_i option written
    refine ⟨String.ofList option, lookup_of_readOption read, String.toList_inj.mp ?_⟩
    simp only [written, String.toList_append, String.toList_ofList]
    rfl
  all_goals cases read

private theorem flags_addFlag {sorted after : Sorted} {other : Flag}
    (added : sorted.addFlag other = .ok after) :
    after.flags = other :: sorted.flags := by
  unfold Sorted.addFlag at added
  split at added
  · cases added
  · cases added
    rfl

private theorem flags_addSetting {sorted after : Sorted} {setting : Setting} {value : String}
    (added : sorted.addSetting setting value = .ok after) : after.flags = sorted.flags := by
  unfold Sorted.addSetting at added
  split at added
  · cases added
  · cases added
    rfl

/-- Flags stand among the arguments. -/
theorem mem_of_flag {words : List String} {sorted : Sorted} (sorts : Sorted.ofWords words = .ok sorted)
    (member : flag ∈ sorted.flags) : ∃ word ∈ words, readWord word = .ok (.flag flag) := by
  fun_induction Sorted.ofWords words generalizing sorted with
  | case1 | case2 | case3 | case4 | case8 | case9 => cases sorts <;> cases member
  | case5 word rest _ read ih =>
    obtain ⟨others, sortsOthers, made⟩ := bind_eq_ok_iff.mp sorts
    cases made
    obtain ⟨flagged, behind, read⟩ := ih sortsOthers member
    exact ⟨flagged, List.mem_cons_of_mem word behind, read⟩
  | case6 word rest _ other read ih =>
    obtain ⟨others, sorts, added⟩ := bind_eq_ok_iff.mp sorts
    rw [flags_addFlag added, List.mem_cons] at member
    rcases member with rfl | member
    · exact ⟨word, List.mem_cons_self, read⟩
    · obtain ⟨flagged, behind, read⟩ := ih sorts member
      exact ⟨flagged, List.mem_cons_of_mem word behind, read⟩
  | case7 word rest _ setting value read ih =>
    obtain ⟨others, sorts, added⟩ := bind_eq_ok_iff.mp sorts
    rw [flags_addSetting added] at member
    obtain ⟨flagged, behind, read⟩ := ih sorts member
    exact ⟨flagged, List.mem_cons_of_mem word behind, read⟩
  | case10 word _ setting read value rest _ ih =>
    obtain ⟨others, sorts, added⟩ := bind_eq_ok_iff.mp sorts
    rw [flags_addSetting added] at member
    obtain ⟨flagged, behind, read⟩ := ih sorts member
    exact ⟨flagged, List.mem_cons_of_mem word (List.mem_cons_of_mem value behind), read⟩

/-- The flags of a job are those among the sorted arguments. -/
theorem flags_of_toJob {sorted : Sorted} {job : Job} (asks : sorted.toJob = .ok job) :
    job.write = decide (.write ∈ sorted.flags) ∧
      job.listCommands = decide (.listCommands ∈ sorted.flags) := by
  unfold Sorted.toJob at asks
  obtain ⟨file, -, asks⟩ := bind_eq_ok_iff.mp asks
  obtain ⟨commands, -, asks⟩ := bind_eq_ok_iff.mp asks
  obtain ⟨cursor, -, asks⟩ := bind_eq_ok_iff.mp asks
  obtain ⟨anchor, -, asks⟩ := bind_eq_ok_iff.mp asks
  obtain ⟨orderFile, -, asks⟩ := bind_eq_ok_iff.mp asks
  obtain ⟨settingsFile, -, asks⟩ := bind_eq_ok_iff.mp asks
  split at asks
  · cases asks
  · split at asks
    · cases asks
    · cases asks
      exact ⟨rfl, rfl⟩

/-- A flag with one name is set by the option of this name. -/
theorem option_mem_of_flag (name : String) {words : List String} {sorted : Sorted}
    (sorts : Sorted.ofWords words = .ok sorted) (member : flag ∈ sorted.flags)
    (named : ∀ other, (other, flag) ∈ Flag.names → other = name) : "--" ++ name ∈ words := by
  obtain ⟨word, member, read⟩ := mem_of_flag sorts member
  obtain ⟨other, found, rfl⟩ := lookup_of_readWord read
  obtain ⟨before, after, names, -⟩ := List.lookup_eq_some_iff.mp found
  have listed : (other, flag) ∈ Flag.names := by
    rw [names]
    exact List.mem_append_right before List.mem_cons_self
  rw [named other listed] at member
  exact member

/-- What is known of a reader of arguments: a job is to write its file, or lists the commands, only where the
option that says so stands among the arguments. -/
structure SetByOptions (reader : List String → Except Report Job) : Prop where
  write : ∀ words job, reader words = .ok job → job.write = true → "--write" ∈ words
  listCommands : ∀ words job, reader words = .ok job → job.listCommands = true → "--list-commands" ∈ words

/-- The reader of arguments that is used sets flags by their options. -/
theorem readArguments_setByOptions :
    SetByOptions fun words => (readArguments words).mapError .refusal := by
  have mapped : ∀ {words : List String} {job : Job},
      (readArguments words).mapError Report.refusal = .ok job → readArguments words = .ok job := by
    intro words job read
    cases asks : readArguments words with
    | error refusal =>
      rw [asks] at read
      cases read
    | ok other =>
      rw [asks] at read
      cases read
      rfl
  refine ⟨fun words job read sets => ?_, fun words job read sets => ?_⟩
  · obtain ⟨sorted, sorts, asks⟩ := bind_eq_ok_iff.mp (mapped read)
    rw [(flags_of_toJob asks).1, decide_eq_true_eq] at sets
    exact option_mem_of_flag "write" sorts sets (by simp [Flag.names])
  · obtain ⟨sorted, sorts, asks⟩ := bind_eq_ok_iff.mp (mapped read)
    rw [(flags_of_toJob asks).2, decide_eq_true_eq] at sets
    exact option_mem_of_flag "list-commands" sorts sets (by simp [Flag.names])

end SyntaxNav.CommandLine
