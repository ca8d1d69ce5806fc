import PushBuild.CommandLine.Outcome
import PushBuild.Proofs.Config.Setting

/-!
# Editing the file

The command that changes a setting reads the file, sets the key and writes all settings back.

1. **Files.**  An outcome leaves the files as they were but for the one that it saved, and the
   directories above it (`Outcome.leaves`).
2. **The edit.**  It succeeds exactly if the file can be read or is missing, the key can be set to
   the value, and the file can be written; then it saves what setting the key gives
   (`setInFile_eq_ok_iff`).  A failure saves nothing (`perform_configSet_cases`).
3. **The environment.**  The edit looks at it only to find the file (`resolve_congr`).  The
   variables that change settings are others, so what they say reaches neither the file nor the
   outcome (`config_set_edits_file`).
-/

namespace PushBuild

open CommandLine

/-! ## Files -/

/-- The files once one has been written; the directories above it are there then. -/
def Files.written (files : Files) (saved : String × String) : Files := fun path =>
  if path = saved.1 then .text saved.2
  else if files path = .missing ∧ path ∈ directoriesAbove saved.1 then .directory
  else files path

section

variable {files : Files} {file content path : String}

theorem Files.written_self : files.written (file, content) file = .text content := if_pos rfl

theorem Files.written_of_ne (hpath : path ≠ file) :
    files.written (file, content) path = files path ∨
    (files path = .missing ∧ files.written (file, content) path = .directory ∧
      path ∈ directoriesAbove file) := by
  rw [Files.written, if_neg hpath]
  split
  · next h => exact Or.inr ⟨h.1, rfl, h.2⟩
  · exact Or.inl rfl

end

namespace CommandLine

/-- The files that an outcome leaves. -/
def Outcome.leaves (outcome : Outcome) (files : Files) : Files :=
  match outcome.saved with
  | some saved => files.written saved
  | none => files

/-! ## The edit -/

section

variable {env env' : Environment} {files : Files} {path : Option String} {key value : String}
  {outcome : Outcome}

/-- **The edit succeeds** exactly if each of its three steps does: the file gives a configuration,
the key takes the value, and the file can be written.  The outcome is told too, so nothing is saved
but what setting the key gives. -/
theorem setInFile_eq_ok_iff : setInFile env files path key value = .ok outcome ↔
    ∃ before after, Config.loadFileOrDefault files (env.resolve path) = .ok before ∧
      before.setByName key value = .ok after ∧ isWritable files (env.resolve path) = true ∧
      outcome = { output := "Configuration saved to " ++ env.resolve path ++ "\n"
                  saved := some (env.resolve path, after.toYaml) } := by
  have hsave (after : Config) : (if isWritable files (env.resolve path) = true then
        (pure { output := "Configuration saved to " ++ env.resolve path ++ "\n"
                saved := some (env.resolve path, after.toYaml) } : Except (List String) Outcome)
      else .error notSaved) = .ok outcome ↔ isWritable files (env.resolve path) = true ∧
        outcome = { output := "Configuration saved to " ++ env.resolve path ++ "\n"
                    saved := some (env.resolve path, after.toYaml) } := by
    split
    · next hwritable => simp [hwritable, pure, Except.pure, eq_comm]
    · next hwritable => simp [hwritable]
  simp only [setInFile, bind_eq_ok_iff, mapError_eq_ok_iff, hsave, exists_and_left]

/-- The command does the edit. -/
theorem perform_configSet {arguments : List String} {invocation : Invocation}
    (hasked : Invocation.ofArguments arguments = .ok invocation)
    (htask : invocation.task = .configSet key value) :
    perform env files arguments = match setInFile env files invocation.options.config key value with
      | .ok outcome => outcome
      | .error chain => .failed chain := by
  unfold perform
  rw [hasked]
  dsimp only
  rw [htask]
  rfl

/-- What came of the command: it failed and left all files, or it wrote the file that was asked
for. -/
theorem perform_configSet_cases {arguments : List String} {invocation : Invocation}
    (hasked : Invocation.ofArguments arguments = .ok invocation)
    (htask : invocation.task = .configSet key value) :
    ((perform env files arguments).code = 1 ∧ (perform env files arguments).leaves files = files ∧
      ∀ before after,
        Config.loadFileOrDefault files (env.resolve invocation.options.config) = .ok before →
        before.setByName key value = .ok after →
        isWritable files (env.resolve invocation.options.config) ≠ true) ∨
    ((perform env files arguments).code = 0 ∧
      ∃ before after,
        Config.loadFileOrDefault files (env.resolve invocation.options.config) = .ok before ∧
        before.setByName key value = .ok after ∧
        isWritable files (env.resolve invocation.options.config) = true ∧
        (perform env files arguments).leaves files =
          files.written (env.resolve invocation.options.config, after.toYaml)) := by
  rw [perform_configSet hasked htask]
  cases hedit : setInFile env files invocation.options.config key value with
  -- the edit failed, so not all three steps can have succeeded
  | error chain =>
    refine Or.inl ⟨rfl, rfl, fun before after hbefore hafter hwritable => ?_⟩
    cases hedit.symm.trans
      (setInFile_eq_ok_iff.mpr ⟨before, after, hbefore, hafter, hwritable, rfl⟩)
  | ok saved =>
    obtain ⟨before, after, hbefore, hafter, hwritable, rfl⟩ := setInFile_eq_ok_iff.mp hedit
    exact Or.inr ⟨rfl, before, after, hbefore, hafter, hwritable, rfl⟩

/-! ## The environment -/

/-- The variables by which the file is found. -/
def placeVariables : List String :=
  ["BUILDWRIGHT_CONFIG_DIR", "KUBERNETES_SERVICE_HOST", "XDG_CONFIG_HOME", "HOME"]

/-- Where the file is hangs on these variables alone, -/
theorem resolve_congr (h : ∀ name ∈ placeVariables, env' name = env name) (path : Option String) :
    env'.resolve path = env.resolve path := by
  simp only [placeVariables, List.forall_mem_cons] at h
  obtain ⟨hdirectory, hcluster, hbase, hhome, -⟩ := h
  simp only [Environment.resolve, Environment.configFile, Environment.configDirectory,
    Environment.nonempty?, hdirectory, hcluster, hbase, hhome]

/-- None of them changes a setting. -/
theorem placeVariables_not_overrides :
    ∀ name ∈ placeVariables, name ∉ Config.overrides.map Prod.fst := by decide

/-- and of the environment the edit needs no more than that. -/
theorem setInFile_congr (h : env'.resolve path = env.resolve path) (key value : String) :
    setInFile env' files path key value = setInFile env files path key value := by
  unfold setInFile
  rw [h]

end

end CommandLine

/-- **Editing the file.**  If the command that sets a key succeeds, the file gives the configuration
that it gave before, or the defaults if it was missing, with that key set and all others as they
were; it succeeds exactly if there is such a configuration and the file can be written.  If it
fails, all files are as they were.  Besides the file only missing directories above it are changed,
and the variables that change settings have no part in any of this.  The configuration that is
written is assumed to be read back from its text. -/
theorem config_set_edits_file (env : Environment) (files : Files) (arguments : List String)
    (invocation : Invocation) (key value : String)
    (hasked : Invocation.ofArguments arguments = .ok invocation)
    (htask : invocation.task = .configSet key value)
    (hreads : ∀ before after,
      Config.loadFileOrDefault files (env.resolve invocation.options.config) = .ok before →
      before.setByName key value = .ok after → Config.ofYaml? after.toYaml = some after) :
    let file := env.resolve invocation.options.config
    let outcome := perform env files arguments
    let left := outcome.leaves files
    (outcome.code = 0 → ∃ (before after : Config) (changed : ConfigKey),
      Config.loadFileOrDefault files file = .ok before ∧ changed.name = key ∧
      before.set changed value = .ok after ∧
      after.get changed = (if changed.isNumber then Text.decimal value else value) ∧
      (∀ other, other ≠ changed → after.setting other = before.setting other) ∧
      Config.loadFile left file = .ok after) ∧
    (outcome.code = 0 ↔ (∃ before after, Config.loadFileOrDefault files file = .ok before ∧
      before.setByName key value = .ok after) ∧ isWritable files file = true) ∧
    (outcome.code ≠ 0 → left = files) ∧
    (∀ path, path ≠ file → left path = files path ∨
      (files path = .missing ∧ left path = .directory ∧ path ∈ directoriesAbove file)) ∧
    ∀ env' : Environment, (∀ name, name ∉ Config.overrides.map Prod.fst → env' name = env name) →
      perform env' files arguments = outcome := by
  intro file outcome left
  -- both runs find the same file, and the edit looks at nothing else of the environment
  have hsame (env' : Environment) (henv : ∀ name, name ∉ Config.overrides.map Prod.fst →
      env' name = env name) :
      perform env' files arguments = outcome := by
    have hresolve := resolve_congr
      (fun name hname => henv name (placeVariables_not_overrides name hname))
      invocation.options.config
    change _ = perform env files arguments
    rw [perform_configSet hasked htask, setInFile_congr hresolve, perform_configSet hasked htask]
  rcases perform_configSet_cases hasked htask with
    ⟨hcode : outcome.code = 1, hleft : left = files, hrefused⟩ |
    ⟨hcode : outcome.code = 0, before, after, hbefore, hafter, hwritable,
      hleft : left = files.written _⟩
  · refine ⟨fun h => ?_, ⟨fun h => ?_, ?_⟩, fun _ => hleft,
      fun path _ => Or.inl (congrFun hleft path), hsame⟩
    · cases hcode.symm.trans h
    · cases hcode.symm.trans h
    · rintro ⟨⟨before, after, hbefore, hafter⟩, hwritable⟩
      exact absurd hwritable (hrefused before after hbefore hafter)
  · obtain ⟨changed, hname, hset⟩ := Config.setByName_eq_ok_iff.mp hafter
    -- what was saved is read back, which is the one thing that is assumed of the text
    have hread : Config.loadFile left file = .ok after := by
      rw [Config.loadFile, hleft, Files.written_self]
      dsimp only
      rw [hreads before after hbefore hafter]
    refine ⟨fun _ => ⟨before, after, changed, hbefore, hname, hset, (Config.get_of_set hset).1,
      (Config.setting_of_set hset).2, hread⟩,
      ⟨fun _ => ⟨⟨before, after, hbefore, hafter⟩, hwritable⟩, fun _ => hcode⟩,
      fun h => absurd hcode h, fun path hpath => ?_, hsame⟩
    rw [hleft]
    exact Files.written_of_ne hpath

/-- A variable says something else, and the file gets the number that was asked for. -/
theorem config_set_edits_file_debounce :
    let env : Environment := fun name =>
      if name = "BUILDWRIGHT_CONFIG_DIR" then some "/srv"
      else if name = "BUILDWRIGHT_DEBOUNCE_SECONDS" then some "99" else none
    let arguments := ["config", "set", "trigger.debounceSeconds", "015"]
    let outcome := perform env (fun _ => .missing) arguments
    outcome.code = 0 ∧ ∃ after : Config,
      Config.loadFile (outcome.leaves fun _ => .missing) "/srv/config.yaml" = .ok after ∧
      after.get .debounceSeconds = "15" ∧ after.get .minIntervalSeconds = "30" := by
  intro env arguments outcome
  have hasked : Invocation.ofArguments arguments =
      .ok { task := .configSet "trigger.debounceSeconds" "015", options := {} } := by decide +kernel
  -- for this one configuration the assumption is computed
  have hreads (before after : Config)
      (hbefore : Config.loadFileOrDefault (fun _ => .missing) (env.resolve none) = .ok before)
      (hafter : before.setByName "trigger.debounceSeconds" "015" = .ok after) :
      Config.ofYaml? after.toYaml = some after := by
    obtain rfl := Except.ok.inj hbefore
    have hset : ({} : Config).setByName "trigger.debounceSeconds" "015" =
        .ok { debounceSeconds := 15 } := by
      decide +kernel
    obtain rfl := Except.ok.inj (hset.symm.trans hafter)
    unfold Config.ofYaml? Config.toYaml Yaml.printDocument Yaml.ofText?
    rw [String.toList_ofList]
    decide +kernel
  have hcode : outcome.code = 0 := by decide +kernel
  have hfile : env.resolve none = "/srv/config.yaml" := by decide +kernel
  obtain ⟨before, after, changed, hbefore, hname, -, hget, hothers, hload⟩ :=
    (config_set_edits_file env (fun _ => .missing) arguments _ _ _ hasked rfl hreads).1 hcode
  obtain rfl : changed = .debounceSeconds := ConfigKey.name_injective hname
  obtain rfl := Except.ok.inj hbefore
  refine ⟨hcode, after, hfile ▸ hload, hget, ?_⟩
  rw [Config.get_eq_shown, hothers .minIntervalSeconds (by decide)]
  decide +kernel

end PushBuild
