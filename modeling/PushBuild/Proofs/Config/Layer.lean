import Mathlib.Data.List.Perm.Basic
import PushBuild.Config.Source
import PushBuild.Proofs.Config.File

/-!
# Layers of the configuration

A configuration is loaded in layers: the defaults, a file, and variables of the environment.

1. **One variable.**  A variable that is not set changes nothing, and one that is set changes its
   setting as setting the key does (`override_eq_ok_iff`).
2. **All variables.**  No two of them have the same setting.  So a run over them is told for each
   setting apart (`foldlM_override_eq_ok_iff`), which says nothing about their order, and it fails
   exactly if one of them is refused (`foldlM_override_eq_error_iff`).
3. **All layers.**  The two facts together with what a file says (`Config.read?_told`) say what is
   loaded by the rules (`Config.layeredBy_overrides`).  The result (`configuration_layered`) writes
   the rules down, with the names of the variables and of their keys.  What is loaded can be written
   back setting by setting (`loaded_written_back`), but for a namespace that a file has empty: the
   variable and the setter take the empty text for all namespaces, the file does not.
-/

namespace PushBuild

namespace Config

variable {env : Environment} {files : Files} {path : Option String} {c d : Config}
  {rule : String × ConfigKey} {rules : List (String × ConfigKey)}

/-! ## One variable -/

/-- Whether the variable is set to a text that its setting does not take. -/
def Refused (env : Environment) (rule : String × ConfigKey) : Prop :=
  ∃ value e, env rule.1 = some value ∧ rule.2.parse value = .error e

/-- **One variable**, if it is set, gives its setting the value that its text stands for, and no
other setting changes; if it is not set, none does. -/
theorem override_eq_ok_iff : override env c rule = .ok d ↔
    (∀ value, env rule.1 = some value → rule.2.parse value = .ok (d.setting rule.2)) ∧
    ∀ key, (rule.2 = key → env rule.1 = none) → d.setting key = c.setting key := by
  unfold override
  cases hvariable : env rule.1 with
  | none =>
    -- a configuration is its settings, so one that agrees on all of them is the same
    refine ⟨?_, fun ⟨_, hsame⟩ =>
      congrArg Except.ok (ext_setting fun key => (hsame key fun _ => rfl).symm)⟩
    rintro ⟨⟩
    exact ⟨nofun, fun _ _ => rfl⟩
  | some value =>
    -- the law of setting a key, with the variable that is set for its value
    rw [mapError_eq_ok_iff, set_eq_ok_iff]
    refine and_congr ⟨fun h _ hvalue => Option.some.inj hvalue ▸ h, fun h => h value rfl⟩
      (forall_congr' fun key => ?_)
    exact imp_congr_left ⟨fun hne heq => absurd heq.symm hne,
      fun hnone heq => nomatch hnone heq.symm⟩

/-- It fails exactly if its text is refused, which has nothing to do with the other settings. -/
theorem override_eq_error_iff : (∃ e, override env c rule = .error e) ↔ Refused env rule := by
  unfold override Refused
  cases hvariable : env rule.1 with
  | none => exact ⟨nofun, nofun⟩
  | some value =>
    dsimp only
    constructor
    · rintro ⟨e, he⟩
      cases hset : c.set rule.2 value with
      | error cause => exact ⟨value, cause, rfl, set_eq_error_iff.mp hset⟩
      | ok => rw [hset] at he; cases he
    · rintro ⟨_, cause, ⟨⟩, hparse⟩
      rw [set_eq_error_iff.mpr hparse]
      exact ⟨_, rfl⟩

/-! ## All variables -/

/-- **The variables one after the other.**  Each one that is set gives its setting the value that
its text stands for, and a setting without one keeps what it had. -/
theorem foldlM_override_eq_ok_iff (hkeys : (rules.map Prod.snd).Nodup) :
    rules.foldlM (override env) c = .ok d ↔
      (∀ rule ∈ rules, ∀ value, env rule.1 = some value →
        rule.2.parse value = .ok (d.setting rule.2)) ∧
      ∀ key, (∀ rule ∈ rules, rule.2 = key → env rule.1 = none) →
        d.setting key = c.setting key := by
  induction rules generalizing c with
  | nil =>
    constructor
    · rintro ⟨⟩
      exact ⟨nofun, fun _ _ => rfl⟩
    · rintro ⟨-, hsame⟩
      exact congrArg Except.ok (ext_setting fun key => (hsame key nofun).symm)
  | cons rule rest ih =>
    rw [List.map_cons, List.nodup_cons] at hkeys
    obtain ⟨hnew, hkeys⟩ := hkeys
    rw [List.foldlM_cons]
    -- the setting of the first variable is left alone by all others
    have hlast (other : String × ConfigKey) (hother : other ∈ rest) : other.2 ≠ rule.2 :=
      fun h => hnew (h ▸ List.mem_map_of_mem hother)
    constructor
    · intro h
      cases hrule : override env c rule with
      | error => rw [hrule] at h; cases h
      | ok m =>
        rw [hrule] at h
        obtain ⟨hvalue, hkept⟩ := override_eq_ok_iff.mp hrule
        obtain ⟨hvalues, hrest⟩ := (ih hkeys).mp h
        have hsame : d.setting rule.2 = m.setting rule.2 :=
          hrest _ fun other hother heq => absurd heq (hlast other hother)
        refine ⟨List.forall_mem_cons.mpr ⟨fun value hset => hsame ▸ hvalue value hset, hvalues⟩,
          fun key hunset => ?_⟩
        obtain ⟨hfirst, hothers⟩ := List.forall_mem_cons.mp hunset
        rw [hrest key hothers, hkept key hfirst]
    · rintro ⟨hvalues, hrest⟩
      obtain ⟨hvalue, hvalues⟩ := List.forall_mem_cons.mp hvalues
      cases hrule : override env c rule with
      | error e =>
        obtain ⟨value, cause, hset, hrefused⟩ := override_eq_error_iff.mp ⟨e, hrule⟩
        cases hrefused.symm.trans (hvalue value hset)
      | ok m =>
        obtain ⟨hvalue', hkept⟩ := override_eq_ok_iff.mp hrule
        refine (ih hkeys).mpr ⟨hvalues, fun key hothers => ?_⟩
        by_cases hkey : rule.2 = key ∧ env rule.1 ≠ none
        · obtain ⟨rfl, hset⟩ := hkey
          obtain ⟨value, hset⟩ := Option.ne_none_iff_exists'.mp hset
          exact Except.ok.inj ((hvalue value hset).symm.trans (hvalue' value hset))
        · have hfirst (heq : rule.2 = key) : env rule.1 = none := by
            by_contra hne
            exact hkey ⟨heq, hne⟩
          rw [hkept key hfirst]
          exact hrest key (List.forall_mem_cons.mpr ⟨hfirst, hothers⟩)

/-- The variables fail exactly if one of them is refused, whichever comes first: a text is refused
whatever the variables before it have changed. -/
theorem foldlM_override_eq_error_iff :
    (∃ e, rules.foldlM (override env) c = .error e) ↔ ∃ rule ∈ rules, Refused env rule := by
  induction rules generalizing c with
  | nil => exact ⟨nofun, nofun⟩
  | cons rule rest ih =>
    rw [List.foldlM_cons]
    simp only [List.mem_cons, exists_eq_or_imp]
    cases hrule : override env c rule with
    | error e => exact ⟨fun _ => Or.inl (override_eq_error_iff.mp ⟨e, hrule⟩), fun _ => ⟨e, rfl⟩⟩
    | ok m =>
      -- the first variable was taken, so it is one of the others
      have haccepted : ¬ Refused env rule := by
        intro hrefused
        obtain ⟨e, he⟩ := override_eq_error_iff.mpr hrefused
        cases hrule.symm.trans he
      exact ih.trans (or_iff_right haccepted).symm

/-- No two variables have the same setting. -/
theorem nodup_overrides : (overrides.map Prod.snd).Nodup := by decide

/-- **The order of the variables** makes no difference to what they give. -/
theorem foldlM_override_perm (h : rules.Perm overrides) :
    rules.foldlM (override env) c = .ok d ↔ applyOverrides env c = .ok d := by
  rw [applyOverrides, foldlM_override_eq_ok_iff nodup_overrides,
    foldlM_override_eq_ok_iff ((h.map Prod.snd).nodup_iff.mpr nodup_overrides)]
  simp only [h.mem_iff]

/-! ## All layers -/

/-- The configuration without the changes of the environment. -/
def fileLayer (env : Environment) (files : Files) (path : Option String) :
    Except LoadError Config :=
  match path with
  | some path => loadFile files path
  | none => loadFileOrDefault files env.configFile

/-- Loading is the file and then the variables. -/
theorem load_eq (env : Environment) (files : Files) (path : Option String) :
    load env files path = (fileLayer env files path).bind (applyOverrides env) := by
  cases path <;> rfl

/-- Why a file gives no configuration: a file that was named is missing, or there is a directory, or
the text of the file is not a configuration. -/
def Unusable (env : Environment) (files : Files) (path : Option String) : Prop :=
  (path.isSome ∧ files (env.resolve path) = .missing) ∨ files (env.resolve path) = .directory ∨
  ∃ content, files (env.resolve path) = .text content ∧ ofYaml? content = none

/-- The ways in which a file gives no configuration are these three.  A file that is missing is one
of them only if it was asked for. -/
theorem fileLayer_eq_error_iff :
    (∃ e, fileLayer env files path = .error e) ↔ Unusable env files path := by
  unfold Unusable
  cases path with
  | none =>
    simp only [fileLayer, loadFileOrDefault, loadFile, Environment.resolve, Option.getD_none]
    cases hfile : files env.configFile with
    | missing => simp
    | directory => simp
    | text content => cases hread : ofYaml? content <;> simp [hread]
  | some path =>
    simp only [fileLayer, loadFile, Environment.resolve, Option.getD_some]
    cases hfile : files path with
    | missing => simp
    | directory => simp
    | text content => cases hread : ofYaml? content <;> simp [hread]

/-- A file that gives a configuration is missing and was not named, or its text is that
configuration. -/
theorem fileLayer_eq_ok_iff : fileLayer env files path = .ok c ↔
    (path = none ∧ files (env.resolve path) = .missing ∧ c = {}) ∨
    ∃ content, files (env.resolve path) = .text content ∧ ofYaml? content = some c := by
  cases path with
  | none =>
    simp only [fileLayer, loadFileOrDefault, loadFile, Environment.resolve, Option.getD_none]
    cases hfile : files env.configFile with
    | missing => simp [eq_comm]
    | directory => simp
    | text content => cases hread : ofYaml? content <;> simp [hread]
  | some path =>
    simp only [fileLayer, loadFile, Environment.resolve, Option.getD_some]
    cases hfile : files path with
    | missing => simp
    | directory => simp
    | text content => cases hread : ofYaml? content <;> simp [hread]

/-- What is loaded comes of a file that can be used, with the variables over it, -/
theorem load_eq_ok_iff : load env files path = .ok c ↔
    ∃ file, fileLayer env files path = .ok file ∧ applyOverrides env file = .ok c := by
  rw [load_eq]
  exact bind_eq_ok_iff

/-- and loading fails for the file or for one of the variables. -/
theorem load_eq_error_iff : (∃ e, load env files path = .error e) ↔
    Unusable env files path ∨ ∃ rule ∈ overrides, Refused env rule := by
  rw [load_eq, ← fileLayer_eq_error_iff]
  cases hfile : fileLayer env files path with
  | error e => exact ⟨fun _ => Or.inl ⟨e, rfl⟩, fun _ => ⟨e, rfl⟩⟩
  | ok file =>
    refine foldlM_override_eq_error_iff.trans ⟨Or.inr, ?_⟩
    rintro (⟨e, ⟨⟩⟩ | hrefused)
    exact hrefused

/-- A text that a variable is refused for is refused by every configuration. -/
theorem refused_iff : Refused env rule ↔
    ∃ value, env rule.1 = some value ∧ ∀ c : Config, ∃ e, c.set rule.2 value = .error e := by
  constructor
  · rintro ⟨value, e, hset, hparse⟩
    exact ⟨value, hset, fun c => ⟨e, set_eq_error_iff.mpr hparse⟩⟩
  · rintro ⟨value, hset, hrefused⟩
    obtain ⟨e, he⟩ := hrefused {}
    exact ⟨value, e, hset, set_eq_error_iff.mp he⟩

/-- The variable and the name of the key of a rule. -/
def named (rule : String × ConfigKey) : String × String := (rule.1, rule.2.name)

/-- The configuration in layers, where `table` says which variable of the environment sets which
key, by the names of both. -/
structure LayeredBy (table : List (String × String)) (env : Environment) (files : Files)
    (path : Option String) : Prop where
  /-- of the configuration that is loaded, every key with a variable that is set has the value that
  setting it to the text of the variable gives, and every other key that of the file; and it is the
  same in whatever order the variables are taken -/
  loaded : ∀ c, load env files path = .ok c → ∃ file, fileLayer env files path = .ok file ∧
    (∀ (v : String) (key : ConfigKey), (v, key.name) ∈ table →
      ∀ value, env v = some value → ∃ changed, file.set key value = .ok changed ∧
        c.setting key = changed.setting key) ∧
    (∀ key : ConfigKey, (∀ v, (v, key.name) ∈ table → env v = none) →
      c.setting key = file.setting key) ∧
    ∀ rules : List (String × ConfigKey), (rules.map named).Perm table →
      rules.foldlM (override env) file = .ok c
  /-- of the configuration of the file, every key has the value that stands at its place in the
  document, or its default -/
  fromFile : ∀ file, fileLayer env files path = .ok file →
    (path = none ∧ files (env.resolve path) = .missing ∧ file = {}) ∨
    ∃ content doc, files (env.resolve path) = .text content ∧ Yaml.ofText? content = some doc ∧
      ∀ key : ConfigKey,
        key.told (key.node? doc) (({} : Config).setting key) = some (file.setting key)
  /-- loading fails exactly if the file cannot be used, or a variable is set to a text that its key
  takes in no configuration -/
  fails : (∃ e, load env files path = .error e) ↔
    (path.isSome ∧ files (env.resolve path) = .missing) ∨
    files (env.resolve path) = .directory ∨
    (∃ content, files (env.resolve path) = .text content ∧ ofYaml? content = none) ∨
    ∃ (v : String) (key : ConfigKey), (v, key.name) ∈ table ∧
      ∃ value, env v = some value ∧ ∀ c : Config, ∃ e, c.set key value = .error e

/-- A rule is known by its names, as no two keys have one name. -/
theorem named_injective : Function.Injective named := by
  intro rule other h
  obtain ⟨hvariable, hname⟩ := Prod.mk.inj h
  exact Prod.ext hvariable (ConfigKey.name_injective hname)

/-- A variable sets the key of this name exactly if that is its rule. -/
theorem mem_named_iff {v : String} {key : ConfigKey} :
    (v, key.name) ∈ overrides.map named ↔ (v, key) ∈ overrides :=
  List.mem_map_of_injective (a := (v, key)) named_injective

/-- **The layers** are those of the rules, told by names.  This holds of the table as the program
has it; which names stand in it is said by the result below, where they are written down. -/
theorem layeredBy_overrides (env : Environment) (files : Files) (path : Option String) :
    LayeredBy (overrides.map named) env files path where
  loaded c hload := by
    obtain ⟨file, hfile, hvariables⟩ := load_eq_ok_iff.mp hload
    obtain ⟨hvalues, hkept⟩ := (foldlM_override_eq_ok_iff nodup_overrides).mp hvariables
    refine ⟨file, hfile, fun v key hrule value hset => ?_, fun key hunset => ?_,
      fun rules hperm => ?_⟩
    · -- setting the key in the configuration of the file is taken for the same value
      have hparse := hvalues _ (mem_named_iff.mp hrule) value hset
      cases hchanged : file.set key value with
      | error e => cases hparse.symm.trans (set_eq_error_iff.mp hchanged)
      | ok changed =>
        exact ⟨changed, rfl, Except.ok.inj (hparse.symm.trans (setting_of_set hchanged).1)⟩
    · refine hkept key ?_
      rintro ⟨v, _⟩ hrule rfl
      exact hunset v (mem_named_iff.mpr hrule)
    · exact (foldlM_override_perm ((List.map_perm_map_iff named_injective).mp hperm)).mpr hvariables
  fromFile file hfile := by
    rcases fileLayer_eq_ok_iff.mp hfile with hdefault | ⟨content, hcontent, hread⟩
    · exact Or.inl hdefault
    · obtain ⟨doc, hdoc, hread⟩ := Option.bind_eq_some_iff.mp hread
      exact Or.inr ⟨content, doc, hcontent, hdoc, read?_told hread⟩
  fails := by
    rw [load_eq_error_iff, Unusable, or_assoc, or_assoc]
    simp only [refused_iff, mem_named_iff, Prod.exists]

end Config

/-- **The configuration in layers.**  Eight variables change a setting each, the one that is named
beside it, of what a file says or else the defaults; a key is named by its place in a file, which is
its section and its label there.  A key that is set shows its text, or the normal form of a number,
and all other names show what they did; a key that is refused leaves the configuration, also one
that is changed in place. -/
theorem configuration_layered (env : Environment) (files : Files) (path : Option String) :
    Config.LayeredBy
      [("BUILDWRIGHT_NAMESPACE", "namespace"),
        ("BUILDWRIGHT_LISTEN_ADDR", "webhook.listenAddr"),
        ("BUILDWRIGHT_WEBHOOK_PATH", "webhook.path"),
        ("BUILDWRIGHT_DEBOUNCE_SECONDS", "trigger.debounceSeconds"),
        ("BUILDWRIGHT_MIN_INTERVAL_SECONDS", "trigger.minIntervalSeconds"),
        ("BUILDWRIGHT_ERROR_REQUEUE_SECONDS", "reconcile.errorRequeueSeconds"),
        ("BUILDWRIGHT_POLICY_CONFIGMAP", "policy.configMapName"),
        ("BUILDWRIGHT_POLICY_NAMESPACE", "policy.configMapNamespace")] env files path ∧
    (∀ key : ConfigKey, key.name = key.section?.elim key.label (· ++ "." ++ key.label)) ∧
    ∀ (c : Config) (name value : String),
      (∀ d, c.setByName name value = .ok d → ∃ key : ConfigKey, key.name = name ∧
        d.getByName name = .ok (if key.isNumber then Text.decimal value else value) ∧
        ∀ other, other ≠ name → d.getByName other = c.getByName other) ∧
      (∀ e, c.setByName name value = .error e →
        (Config.assignByName name value).run.run c = (.error e, c)) ∧
      ∀ d, c.setByName name value = .ok d →
        (Config.assignByName name value).run.run c = (.ok (), d) := by
  refine ⟨Config.layeredBy_overrides env files path, ConfigKey.name_eq,
    fun c name value => ⟨fun d hset => ?_, fun e he => ?_, fun d hd => ?_⟩⟩
  · obtain ⟨key, rfl, hkey⟩ := Config.setByName_eq_ok_iff.mp hset
    obtain ⟨hshown, hothers⟩ := Config.get_of_set hkey
    refine ⟨key, rfl, (Config.getByName_name key d).trans (congrArg Except.ok hshown),
      fun other hother => ?_⟩
    -- another name is that of another key, or of none
    exact Config.getByName_congr fun key' hkey' =>
      hothers key' fun h => hother (hkey' ▸ h ▸ rfl)
  · rw [Config.run_assignByName, he]
    rfl
  · rw [Config.run_assignByName, hd]
    rfl

/-- A variable for the policy, one with a number, and no other. -/
def policyVariables : Environment := fun name =>
  if name = "BUILDWRIGHT_POLICY_CONFIGMAP" then some "rules"
  else if name = "BUILDWRIGHT_DEBOUNCE_SECONDS" then some "+007" else none

/-- A file with a policy. -/
def policyFile : Files := fun _ =>
  .text "policy:\n  configMapName: old\n  configMapNamespace: ops\n"

/-- The variable changes the name of the policy and not its namespace, and a number counts whatever
zeros it has in front; in the opposite order the variables give the same. -/
theorem configuration_layered_policy : ∃ c file,
    Config.load policyVariables policyFile none = .ok c ∧
    Config.fileLayer policyVariables policyFile none = .ok file ∧
    file.setting .policyName = .text "old" ∧ c.setting .policyName = .text "rules" ∧
    c.setting .policyNamespace = .text "ops" ∧ c.setting .debounceSeconds = .wide 7 ∧
    Config.overrides.reverse.foldlM (Config.override policyVariables) file = .ok c := by
  have hload : Config.load policyVariables policyFile none =
      .ok { policyName := "rules", policyNamespace := "ops", debounceSeconds := 7 } := by
    decide +kernel
  have hlayer : Config.fileLayer policyVariables policyFile none =
      .ok { policyName := "old", policyNamespace := "ops" } := by
    decide +kernel
  -- what is computed above is loaded; the rest is read off the layers
  obtain ⟨file, hfile, hset, hkept, horder⟩ :=
    (configuration_layered policyVariables policyFile none).1.loaded _ hload
  obtain rfl := Except.ok.inj (hlayer.symm.trans hfile)
  obtain ⟨named, hnamed, hname⟩ :=
    hset "BUILDWRIGHT_POLICY_CONFIGMAP" .policyName (by decide) "rules" (by decide)
  obtain ⟨timed, htimed, htime⟩ :=
    hset "BUILDWRIGHT_DEBOUNCE_SECONDS" .debounceSeconds (by decide) "+007" (by decide)
  have hnamespace := hkept .policyNamespace (by simp [ConfigKey.name, policyVariables])
  refine ⟨_, _, hload, hlayer, rfl, ?_, hnamespace, ?_,
    horder Config.overrides.reverse ((List.reverse_perm Config.overrides).map _)⟩
  · exact hname.trans (Except.ok.inj (Config.setting_of_set hnamed).1).symm
  · exact htime.trans (Except.ok.inj (Config.setting_of_set htimed).1).symm

/-- **What is loaded can be written back.**  Every setting shows a text, and setting it to that text
succeeds and leaves the configuration as it is, except that the empty namespace becomes all
namespaces.  What is watched is the empty namespace exactly if the file says so and no variable is
set for it. -/
theorem loaded_written_back (env : Environment) (files : Files) (path : Option String) (c : Config)
    (hload : Config.load env files path = .ok c) :
    (∀ key : ConfigKey, ∃ value, c.getByName key.name = .ok value ∧ c.setByName key.name value =
      .ok (if key = .watched ∧ c.watched = some "" then { c with watched := none } else c)) ∧
    (c.watched = some "" ↔ env "BUILDWRIGHT_NAMESPACE" = none ∧ ∃ content file,
      files (env.resolve path) = .text content ∧ Config.ofYaml? content = some file ∧
      file.watched = some "") := by
  refine ⟨fun key => ⟨_, Config.getByName_name key c,
    (Config.setByName_name key _ c).trans (Config.set_get key c)⟩, ?_⟩
  obtain ⟨file, hfile, hvariables⟩ := Config.load_eq_ok_iff.mp hload
  obtain ⟨hvalues, hkept⟩ := (Config.foldlM_override_eq_ok_iff Config.nodup_overrides).mp hvariables
  cases hvariable : env "BUILDWRIGHT_NAMESPACE" with
  | some value =>
    -- the variable takes the empty text for all namespaces
    have hparse := hvalues ("BUILDWRIGHT_NAMESPACE", .watched) List.mem_cons_self value hvariable
    have hwatched : (if value.isEmpty then none else some value) = c.watched :=
      Setting.scope.inj (Except.ok.inj hparse)
    refine ⟨fun hempty => ?_, nofun⟩
    rw [hempty] at hwatched
    split at hwatched
    · cases hwatched
    · next hne => exact absurd (Option.some.inj hwatched ▸ rfl) hne
  | none =>
    have hunset : ∀ rule ∈ Config.overrides, rule.2 = .watched → env rule.1 = none := by
      simp [Config.overrides, hvariable]
    have hsame : c.watched = file.watched := Setting.scope.inj (hkept .watched hunset)
    rw [hsame]
    refine ⟨fun hempty => ⟨rfl, ?_⟩, ?_⟩
    · rcases Config.fileLayer_eq_ok_iff.mp hfile with ⟨-, -, rfl⟩ | ⟨content, hcontent, hread⟩
      · cases hempty
      · exact ⟨content, file, hcontent, hread, hempty⟩
    · rintro ⟨-, content, file', hcontent, hread, hempty⟩
      rcases Config.fileLayer_eq_ok_iff.mp hfile with ⟨-, hmissing, -⟩ |
        ⟨content', hcontent', hread'⟩
      · cases hmissing.symm.trans hcontent
      · obtain rfl := FileState.text.inj (hcontent.symm.trans hcontent')
        obtain rfl := Option.some.inj (hread.symm.trans hread')
        exact hempty

/-- A file and a variable: all settings can be written back. -/
theorem loaded_written_back_builds :
    Config.load (fun name => if name = "BUILDWRIGHT_LISTEN_ADDR" then some "127.0.0.1:80" else none)
      (fun _ => .text "namespace: builds\n") none =
      .ok { watched := some "builds", listenAddress := "127.0.0.1:80" } ∧
    ∀ key : ConfigKey, ∃ value,
      ({ watched := some "builds", listenAddress := "127.0.0.1:80" } : Config).getByName
        key.name = .ok value ∧
      ({ watched := some "builds", listenAddress := "127.0.0.1:80" } : Config).setByName
        key.name value =
        .ok { watched := some "builds", listenAddress := "127.0.0.1:80" } := by
  have hload : Config.load
      (fun name => if name = "BUILDWRIGHT_LISTEN_ADDR" then some "127.0.0.1:80" else none)
      (fun _ => .text "namespace: builds\n") none =
      .ok { watched := some "builds", listenAddress := "127.0.0.1:80" } := by
    decide +kernel
  refine ⟨hload, fun key => ?_⟩
  obtain ⟨value, hget, hset⟩ := (loaded_written_back _ _ _ _ hload).1 key
  exact ⟨value, hget, hset.trans (congrArg Except.ok (if_neg fun h => absurd h.2 (by decide)))⟩

/-- The empty namespace of a file is shown as the text that stands for all namespaces, and writing
it back changes the configuration. -/
theorem empty_namespace_not_written_back : ∃ (files : Files) (c : Config),
    files "/etc/buildwright/config.yaml" = .text "namespace: \"\"\n" ∧
    Config.load (fun _ => none) files (some "/etc/buildwright/config.yaml") = .ok c ∧
    c.getByName "namespace" = .ok "" ∧ c.setByName "namespace" "" = .ok { c with watched := none } ∧
    c.setByName "namespace" "" ≠ .ok c :=
  ⟨fun _ => .text "namespace: \"\"\n", { watched := some "" },
    rfl, by decide +kernel, by decide +kernel, by decide +kernel, by decide +kernel⟩

end PushBuild
