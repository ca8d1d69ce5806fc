import PushBuild.Proofs.Config.Setting

/-!
# What a file says

A file names each setting by its section and its label there.  A reader of a section takes a
configuration and gives another one, and five of them run one after the other.

1. **Places.**  `ConfigKey.node?` looks a setting up in the document, with nothing in common with
   the readers but what a mapping is; the place is the name of the setting (`name_eq`).
2. **Sections.**  Each reader gives the settings of its section what stands at their places, or what
   they had if nothing stands there, and leaves all others (`ReadsSection`).
3. **The file.**  No setting is in two sections, so each is told by its own place, or has its
   default (`read?_tells`).
-/

namespace PushBuild

/-! ## Places -/

/-- The first value of that name in a mapping. -/
def Yaml.field? (name : String) (d : Yaml) : Option Yaml := do
  ((← d.members?).find? (·.1 == name)).map (·.2)

namespace ConfigKey

/-- The section that a setting stands in. -/
def section? : ConfigKey → Option String
  | watched => none
  | listenAddress | webhookPath => some "webhook"
  | debounceSeconds | minIntervalSeconds => some "trigger"
  | errorRequeueSeconds => some "reconcile"
  | maxAttempts | initialBackoffMillis | maxBackoffMillis => some "retry"
  | policyName | policyNamespace => some "policy"

/-- The name of a setting in its section. -/
def label : ConfigKey → String
  | watched => "namespace"
  | listenAddress => "listenAddr"
  | webhookPath => "path"
  | debounceSeconds => "debounceSeconds"
  | minIntervalSeconds => "minIntervalSeconds"
  | errorRequeueSeconds => "errorRequeueSeconds"
  | maxAttempts => "maxAttempts"
  | initialBackoffMillis => "initialBackoffMillis"
  | maxBackoffMillis => "maxBackoffMillis"
  | policyName => "configMapName"
  | policyNamespace => "configMapNamespace"

/-- A setting is named by its place. -/
theorem name_eq (key : ConfigKey) :
    key.name = key.section?.elim key.label (· ++ "." ++ key.label) := by
  cases key <;> decide

/-- What stands at the place of a setting. -/
def node? (key : ConfigKey) (doc : Yaml) : Option Yaml :=
  match key.section? with
  | none => doc.field? key.label
  | some name => (doc.field? name).bind (Yaml.field? key.label)

/-- The value that stands there. -/
def readNode (key : ConfigKey) (d : Yaml) : Option Setting :=
  match key with
  | watched =>
    if Document.isAbsent d then some (.scope none) else (Document.text? d).map (.scope ∘ some)
  | listenAddress | webhookPath | policyName | policyNamespace => (Document.text? d).map .text
  | maxAttempts => (Document.uint32? d).map .narrow
  | debounceSeconds | minIntervalSeconds | errorRequeueSeconds | initialBackoffMillis
  | maxBackoffMillis =>
    (Document.uint64? d).map .wide

/-- What a document tells of a setting: what stands at its place, or else `value`. -/
def told (key : ConfigKey) (node : Option Yaml) (value : Setting) : Option Setting :=
  node.elim (some value) key.readNode

end ConfigKey

/-! ## Records -/

namespace Record

variable {α : Type} {r : Record Yaml} {name : String} {read : Yaml → Option α}

/-- The first field of that name. -/
def field? (r : Record Yaml) (name : String) : Option Yaml :=
  (r.fields.find? (·.1 == name)).map (·.2)

/-- A record that takes no other names has the fields of the mapping it was read from. -/
theorem field?_of_closed {names : List String} {d : Yaml} (h : closed? names d = some r)
    (name : String) :
    d.field? name = r.field? name := by
  obtain ⟨fields, hfields, hclosed⟩ := Option.bind_eq_some_iff.mp h
  have hmembers : d.members? = some fields := hfields
  split at hclosed
  · obtain rfl := Option.some.inj hclosed
    rw [Yaml.field?, hmembers]
    rfl
  · cases hclosed

/-- A field that is found, or found missing, is the first of its name: no name is repeated then. -/
theorem field?_of_find? {found : Option Yaml} (h : r.find? name = some found) :
    r.field? name = found := by
  unfold find? at h
  split at h
  · cases h
  · exact Option.some.inj h

/-- A field with a default is what stands there, or the default if nothing does; -/
theorem withDefault_eq_some {a b : α} (h : r.withDefault name a read = some b) :
    (r.field? name).elim (some a) read = some b := by
  obtain ⟨found, hfound, hread⟩ := Option.bind_eq_some_iff.mp h
  rw [field?_of_find? hfound]
  cases found <;> exact hread

/-- an optional one may besides be there and absent. -/
theorem optional_eq_some {o : Option α} (h : r.optional name read = some o) :
    (r.field? name).elim (some none)
      (fun d => if Document.isAbsent d then some none else (read d).map some) =
      some o := by
  obtain ⟨found, hfound, hread⟩ := Option.bind_eq_some_iff.mp h
  rw [field?_of_find? hfound]
  cases found <;> exact hread

end Record

namespace Config

/-! ## Sections -/

/-- A field with a default tells its setting. -/
theorem told_withDefault {α : Type} {r : Record Yaml} {name : String} {read : Yaml → Option α}
    {a b : α} (make : α → Setting) (h : r.withDefault name a read = some b) :
    (r.field? name).elim (some (make a)) (fun d => (read d).map make) = some (make b) := by
  have hfield := Record.withDefault_eq_some h
  cases hname : r.field? name with
  | none => exact congrArg (Option.map make) (hname ▸ hfield)
  | some d => exact congrArg (Option.map make) (hname ▸ hfield)

/-- An optional text tells what is watched. -/
theorem told_scope {node : Option Yaml} {watched : Option String}
    (h : node.elim (some none)
      (fun d => if Document.isAbsent d then some none else (Document.text? d).map some) =
        some watched) :
    ConfigKey.told .watched node (.scope none) = some (.scope watched) := by
  cases node with
  | none => exact congrArg (Option.map Setting.scope) h
  | some d =>
    have hread := congrArg (Option.map Setting.scope) h
    rw [Option.elim_some, apply_ite (Option.map Setting.scope), Option.map_map] at hread
    exact hread

/-- A reader of a section tells the settings of the section and leaves all others. -/
def ReadsSection (name : String) (read : Config → Yaml → Option Config) : Prop :=
  ∀ {c c' : Config} {d : Yaml}, read c d = some c' →
    (∀ key : ConfigKey, key.section? = some name →
      key.told (d.field? key.label) (c.setting key) = some (c'.setting key)) ∧
    ∀ key : ConfigKey, key.section? ≠ some name → c'.setting key = c.setting key

/-- The five readers.  Each is opened here once and nowhere else: a setting of the section is told
by its own field, and the other settings are not touched. -/
theorem readsSection_webhook : ReadsSection "webhook" readWebhook? := by
  intro c c' d h
  simp only [readWebhook?, Option.bind_eq_bind, Option.bind_eq_some_iff, Option.pure_def] at h
  obtain ⟨r, hr, address, haddress, path, hpath, ⟨⟩⟩ := h
  simp only [Record.field?_of_closed hr]
  refine ⟨fun key hkey => ?_, fun key hkey => by cases key <;> first | rfl | exact absurd rfl hkey⟩
  cases key with
  | listenAddress => exact told_withDefault .text haddress
  | webhookPath => exact told_withDefault .text hpath
  | _ => exact absurd hkey (by decide)

theorem readsSection_trigger : ReadsSection "trigger" readTrigger? := by
  intro c c' d h
  simp only [readTrigger?, Option.bind_eq_bind, Option.bind_eq_some_iff, Option.pure_def] at h
  obtain ⟨r, hr, debounce, hdebounce, interval, hinterval, ⟨⟩⟩ := h
  simp only [Record.field?_of_closed hr]
  refine ⟨fun key hkey => ?_, fun key hkey => by cases key <;> first | rfl | exact absurd rfl hkey⟩
  cases key with
  | debounceSeconds => exact told_withDefault .wide hdebounce
  | minIntervalSeconds => exact told_withDefault .wide hinterval
  | _ => exact absurd hkey (by decide)

theorem readsSection_reconcile : ReadsSection "reconcile" readReconcile? := by
  intro c c' d h
  simp only [readReconcile?, Option.bind_eq_bind, Option.bind_eq_some_iff, Option.pure_def] at h
  obtain ⟨r, hr, requeue, hrequeue, ⟨⟩⟩ := h
  simp only [Record.field?_of_closed hr]
  refine ⟨fun key hkey => ?_, fun key hkey => by cases key <;> first | rfl | exact absurd rfl hkey⟩
  cases key with
  | errorRequeueSeconds => exact told_withDefault .wide hrequeue
  | _ => exact absurd hkey (by decide)

theorem readsSection_retry : ReadsSection "retry" readRetries? := by
  intro c c' d h
  simp only [readRetries?, Option.bind_eq_bind, Option.bind_eq_some_iff, Option.pure_def] at h
  obtain ⟨r, hr, attempts, hattempts, initial, hinitial, max, hmax, ⟨⟩⟩ := h
  simp only [Record.field?_of_closed hr]
  refine ⟨fun key hkey => ?_, fun key hkey => by cases key <;> first | rfl | exact absurd rfl hkey⟩
  cases key with
  | maxAttempts => exact told_withDefault .narrow hattempts
  | initialBackoffMillis => exact told_withDefault .wide hinitial
  | maxBackoffMillis => exact told_withDefault .wide hmax
  | _ => exact absurd hkey (by decide)

theorem readsSection_policy : ReadsSection "policy" readPolicy? := by
  intro c c' d h
  simp only [readPolicy?, Option.bind_eq_bind, Option.bind_eq_some_iff, Option.pure_def] at h
  obtain ⟨r, hr, name, hname, namespaceName, hnamespace, ⟨⟩⟩ := h
  simp only [Record.field?_of_closed hr]
  refine ⟨fun key hkey => ?_, fun key hkey => by cases key <;> first | rfl | exact absurd rfl hkey⟩
  cases key with
  | policyName => exact told_withDefault .text hname
  | policyNamespace => exact told_withDefault .text hnamespace
  | _ => exact absurd hkey (by decide)

/-! ## The file -/

/-- A section that may be left out tells its settings by their places in the document.  Without the
section nothing stands at any of them, and each setting keeps what it had. -/
theorem ReadsSection.told_section {name : String} {read : Config → Yaml → Option Config}
    (hreads : ReadsSection name read) {names : List String} {doc : Yaml} {r : Record Yaml}
    (hr : Record.closed? names doc = some r) {c c' : Config}
    (h : r.withDefault name c (read c) = some c') :
    (∀ key : ConfigKey, key.section? = some name →
      key.told (key.node? doc) (c.setting key) = some (c'.setting key)) ∧
    ∀ key : ConfigKey, key.section? ≠ some name → c'.setting key = c.setting key := by
  have hsection := Record.withDefault_eq_some h
  have hnode (key : ConfigKey) (hkey : key.section? = some name) :
      key.node? doc = (r.field? name).bind (Yaml.field? key.label) := by
    rw [ConfigKey.node?, hkey, ← Record.field?_of_closed hr]
  cases hname : r.field? name with
  | none =>
    rw [hname] at hsection
    obtain rfl := Option.some.inj hsection
    refine ⟨fun key hkey => ?_, fun _ _ => rfl⟩
    rw [hnode key hkey, hname]
    rfl
  | some d =>
    rw [hname] at hsection
    obtain ⟨htold, hkept⟩ := hreads hsection
    refine ⟨fun key hkey => ?_, hkept⟩
    rw [hnode key hkey, hname]
    exact htold key hkey

/-- **What a file says.**  Each setting has the value that stands at its place in the document, or
its default if nothing stands there. -/
theorem read?_told {doc : Yaml} {c : Config} (h : read? doc = some c) (key : ConfigKey) :
    key.told (key.node? doc) (({} : Config).setting key) = some (c.setting key) := by
  simp only [read?, Option.bind_eq_bind, Option.bind_eq_some_iff] at h
  obtain ⟨r, hr, watched, hwatched, c₁, hwebhook, c₂, htrigger, c₃, hreconcile, c₄, hretry,
      hpolicy⟩ := h
  obtain ⟨htold₁, hkept₁⟩ := readsSection_webhook.told_section hr hwebhook
  obtain ⟨htold₂, hkept₂⟩ := readsSection_trigger.told_section hr htrigger
  obtain ⟨htold₃, hkept₃⟩ := readsSection_reconcile.told_section hr hreconcile
  obtain ⟨htold₄, hkept₄⟩ := readsSection_retry.told_section hr hretry
  obtain ⟨htold₅, hkept₅⟩ := readsSection_policy.told_section hr hpolicy
  have hdefault (key : ConfigKey) (hkey : key ≠ .watched) :
      ({} : Config).setting key = ({ watched := watched } : Config).setting key := by
    cases key <;> first | rfl | exact absurd rfl hkey
  -- what a section tells is kept by the sections after it, and before it the setting had its
  -- default
  cases key with
  | watched =>
    rw [hkept₅ _ (by decide), hkept₄ _ (by decide), hkept₃ _ (by decide), hkept₂ _ (by decide),
      hkept₁ _ (by decide)]
    have hfield := Record.optional_eq_some hwatched
    rw [← Record.field?_of_closed hr] at hfield
    exact told_scope hfield
  | listenAddress | webhookPath =>
    rw [hkept₅ _ (by decide), hkept₄ _ (by decide), hkept₃ _ (by decide), hkept₂ _ (by decide),
      hdefault _ (by decide)]
    exact htold₁ _ rfl
  | debounceSeconds | minIntervalSeconds =>
    rw [hkept₅ _ (by decide), hkept₄ _ (by decide), hkept₃ _ (by decide), hdefault _ (by decide),
      ← hkept₁ _ (by decide)]
    exact htold₂ _ rfl
  | errorRequeueSeconds =>
    rw [hkept₅ _ (by decide), hkept₄ _ (by decide), hdefault _ (by decide), ← hkept₁ _ (by decide),
      ← hkept₂ _ (by decide)]
    exact htold₃ _ rfl
  | maxAttempts | initialBackoffMillis | maxBackoffMillis =>
    rw [hkept₅ _ (by decide), hdefault _ (by decide), ← hkept₁ _ (by decide),
      ← hkept₂ _ (by decide), ← hkept₃ _ (by decide)]
    exact htold₄ _ rfl
  | policyName | policyNamespace =>
    rw [hdefault _ (by decide), ← hkept₁ _ (by decide), ← hkept₂ _ (by decide),
      ← hkept₃ _ (by decide), ← hkept₄ _ (by decide)]
    exact htold₅ _ rfl

end Config

end PushBuild
