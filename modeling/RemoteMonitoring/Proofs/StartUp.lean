/-
Module: RemoteMonitoring.Proofs.StartUp
Purpose: When a client comes up with a configuration: a file that does not parse ends the start
  with an exception, and so does one that a write has left cut off.
Trusted boundary: none
Main exports: startsUp_iff, not_startsUp_of_cut
-/
import RemoteMonitoring.Proofs.Configuration

namespace RemoteMonitoring

open ByteText

theorem readConfig_unparsed {json : JsonLibrary} {file : File} {content : Bytes}
    (present : file.content = some content) (fails : json.parse content = none) (config : Config) :
    Config.readConfig json config file = .error .parseFailed := by
  simp [Config.readConfig, present, fails]

/-- The fallback to the default is not reached. -/
theorem startConfig_unparsed {json : JsonLibrary} {file : File} {content : Bytes}
    (present : file.content = some content) (fails : json.parse content = none) :
    startConfig json file = .error .parseFailed := by
  rw [startConfig, readConfig_unparsed present fails]
  rfl

/-- A text that the library refuses ends the process. -/
theorem not_startsUp_of_unparsed {json : JsonLibrary} {file : File} {content : Bytes}
    (present : file.content = some content) (fails : json.parse content = none) :
    ¬ StartsUp json file := by
  intro starts
  obtain ⟨after, ends⟩ := starts.ends
  rw [startConfig_unparsed present fails] at ends
  cases ends

/-- A client comes up as it should exactly if there is no file or its content is a valid list of
entries. -/
theorem startsUp_iff (json : JsonLibrary) (file : File) :
    StartsUp json file ↔
      file.content = none ∨
        ∃ content entries, file.content = some content ∧ json.parse content = some entries := by
  cases present : file.content with
  | none =>
      simp only [true_or, iff_true]
      constructor
      · rw [startConfig_absent present, intendedConfig, present]
        exact ⟨_, rfl⟩
      · intro config
        refine ⟨1, config, ?_, ?_, fun _ => rfl⟩
        · rw [Config.readConfig, present]
        · simp [present]
  | some content =>
      simp only [reduceCtorEq, false_or, Option.some.injEq]
      cases parses : json.parse content with
      | none =>
          constructor
          · intro starts
            exact absurd starts (not_startsUp_of_unparsed present parses)
          · rintro ⟨_, entries, rfl, parsed⟩
            rw [parses] at parsed
            cases parsed
      | some entries =>
          refine ⟨fun _ => ⟨content, entries, rfl, parses⟩, fun _ => ?_⟩
          constructor
          · rw [startConfig_content present parses, intendedConfig, present, Option.bind_some,
              parses]
            exact ⟨_, rfl⟩
          · intro config
            refine ⟨0, ⟨entries.map ConfigEntry.convertAfterRead⟩, ?_, ?_, ?_⟩
            · rw [Config.readConfig, present]
              simp only [parses]
            · simp [present, parses]
            · intro zero
              exact absurd rfl zero

/-! ### A write that is cut off -/

/-- The library throws on a text that ends too early. -/
def JsonLibrary.RejectsCuts (json : JsonLibrary) : Prop :=
  ∀ entries cut, cut <+: json.dump entries → cut ≠ json.dump entries → json.parse cut = none

/-- `write_config` truncates before it writes: wherever it is interrupted, no later start comes
up. -/
theorem not_startsUp_of_cut {json : JsonLibrary} (rejects : json.RejectsCuts) (config : Config)
    {file : File} (opens : file.writable = true) {written : Bytes}
    (writes : (Config.writeConfig json config file).2.content = some written) {count : Nat}
    (cut : count < written.length) :
    ¬ StartsUp json (file.overwrite (written.take count)) := by
  have text : json.dump (config.configEntries.map ConfigEntry.convertBeforeWrite) = written := by
    have same := destroy_eq json config opens
    rw [Config.destroy] at same
    rw [same, File.content_overwrite opens, Option.some.injEq] at writes
    exact writes
  have fails : json.parse (written.take count) = none := by
    apply rejects (config.configEntries.map ConfigEntry.convertBeforeWrite)
    · rw [text]
      exact List.take_prefix count written
    · rw [text]
      intro whole
      have length := congrArg List.length whole
      rw [List.length_take, Nat.min_eq_left (Nat.le_of_lt cut)] at length
      exact absurd length (Nat.ne_of_lt cut)
  exact not_startsUp_of_unparsed (File.content_overwrite opens _) fails

/-- A library that knows the empty list. -/
def emptyListJson : JsonLibrary where
  parse text := if text = ascii "[]" then some [] else none
  dump _ := ascii "[]"

/-- The empty file that an interrupted write leaves. -/
theorem empty_file_ends_start :
    startConfig emptyListJson ⟨some [], true⟩ = .error .parseFailed ∧
      Config.readConfig emptyListJson ⟨[]⟩ ⟨some [], true⟩ = .error .parseFailed ∧
      ¬ StartsUp emptyListJson ⟨some [], true⟩ := by
  exact ⟨rfl, rfl, not_startsUp_of_unparsed rfl rfl⟩

end RemoteMonitoring
