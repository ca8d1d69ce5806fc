import PushBuild.Config.Key
import PushBuild.Proofs.Text.Number

/-!
# Single settings

The eleven settings are fields of four types with three views: what is shown of one, what a text is
taken for, and the field that it changes.

1. **Values.**  `Setting` has one type for the values of all fields, and `Config.setting` gives the
   value of each key.  A configuration is its values (`ext_setting`), so nothing below looks at a
   field.
2. **The law.**  What a text is taken for depends on the key alone (`ConfigKey.parse`).  Setting a
   key succeeds exactly if the text is taken for a value, and then it changes the value of this key
   to that one and no other (`set_eq_ok_iff`).  What is shown afterwards (`get_of_set`) and what it
   is to write back what is shown (`set_get`) follow.
3. **In place.**  The same change made field by field on a state, as it is for one that is shared.
   The text is read before the field is written, so a failure leaves the state (`run_assign`).
-/

namespace PushBuild

section

variable {ε ε' α β : Type} {x : Except ε α} {f : α → Except ε β} {wrap : ε → ε'} {a : α} {b : β}

/-- What only changes how a failure is told succeeds as before. -/
theorem mapError_eq_ok_iff : x.mapError wrap = .ok a ↔ x = .ok a := by
  cases x with
  | error => exact ⟨nofun, nofun⟩
  | ok => simp only [Except.mapError, Except.ok.injEq]

/-- A sequence of two steps succeeds if both do, the second with what the first gave. -/
theorem bind_eq_ok_iff : x >>= f = .ok b ↔ ∃ a, x = .ok a ∧ f a = .ok b := by
  cases x with
  | error => exact ⟨nofun, nofun⟩
  | ok a => exact ⟨fun h => ⟨a, rfl, h⟩, fun ⟨_, ha, h⟩ => Except.ok.inj ha ▸ h⟩

end

/-! ## Values -/

/-- The value of a setting. -/
inductive Setting where
  /-- the namespace that is watched, or all of them -/
  | scope (name : Option String)
  | text (s : String)
  | wide (n : UInt64)
  | narrow (n : UInt32)
deriving Repr, DecidableEq

namespace Setting

/-- What is shown of a value. -/
def shown : Setting → String
  | scope name => name.getD ""
  | text s => s
  | wide n => toString n.toNat
  | narrow n => toString n.toNat

/-- The value with the one way to say that all namespaces are watched. -/
def settled : Setting → Setting
  | scope (some name) => scope (if name.isEmpty then none else some name)
  | value => value

end Setting

namespace ConfigKey

/-- Whether the setting is a number. -/
def isNumber : ConfigKey → Bool
  | debounceSeconds | minIntervalSeconds | errorRequeueSeconds | maxAttempts | initialBackoffMillis
  | maxBackoffMillis => true
  | _ => false

/-- The value that a text stands for. -/
def parse (key : ConfigKey) (value : String) : Except SettingError Setting :=
  match key with
  | watched => .ok (.scope (if value.isEmpty then none else some value))
  | listenAddress | webhookPath | policyName | policyNamespace => .ok (.text value)
  | maxAttempts => (Config.readUInt32 key value).map .narrow
  | debounceSeconds | minIntervalSeconds | errorRequeueSeconds | initialBackoffMillis
  | maxBackoffMillis =>
    (Config.readUInt64 key value).map .wide

/-- No two settings have the same name. -/
theorem name_injective {key other : ConfigKey} (h : key.name = other.name) : key = other :=
  Except.ok.inj ((ofName_name key).symm.trans ((congrArg ofName h).trans (ofName_name other)))

/-- A name is that of the key that has it. -/
theorem ofName_eq_ok_iff {name : String} {key : ConfigKey} :
    ofName name = .ok key ↔ key.name = name := by
  constructor
  · intro h
    unfold ofName at h
    split at h
    · next found hfound =>
      obtain rfl := Except.ok.inj h
      have hname := List.find?_some hfound
      exact beq_iff_eq.mp hname
    · cases h
  · rintro rfl
    exact ofName_name key

end ConfigKey

namespace Config

/-- The value of a setting. -/
def setting (key : ConfigKey) (c : Config) : Setting :=
  match key with
  | .watched => .scope c.watched
  | .listenAddress => .text c.listenAddress
  | .webhookPath => .text c.webhookPath
  | .debounceSeconds => .wide c.debounceSeconds
  | .minIntervalSeconds => .wide c.minIntervalSeconds
  | .errorRequeueSeconds => .wide c.errorRequeueSeconds
  | .maxAttempts => .narrow c.maxAttempts
  | .initialBackoffMillis => .wide c.initialBackoffMillis
  | .maxBackoffMillis => .wide c.maxBackoffMillis
  | .policyName => .text c.policyName
  | .policyNamespace => .text c.policyNamespace

section

variable {key other : ConfigKey} {name value : String} {c d d' : Config} {e : SettingError}

/-- A configuration is the values of its settings.  Here alone the fields are listed: what agrees on
all keys agrees in all fields. -/
theorem ext_setting (h : ∀ key, c.setting key = d.setting key) : c = d := by
  obtain ⟨⟩ := c
  obtain ⟨⟩ := d
  have hwatched := h .watched
  have hlisten := h .listenAddress
  have hpath := h .webhookPath
  have hdebounce := h .debounceSeconds
  have hinterval := h .minIntervalSeconds
  have hrequeue := h .errorRequeueSeconds
  have hattempts := h .maxAttempts
  have hinitial := h .initialBackoffMillis
  have hmax := h .maxBackoffMillis
  have hpolicy := h .policyName
  have hpolicyNamespace := h .policyNamespace
  simp only [setting, Setting.scope.injEq, Setting.text.injEq, Setting.wide.injEq,
    Setting.narrow.injEq] at *
  simp only [mk.injEq]
  exact ⟨hwatched, hlisten, hpath, hdebounce, hinterval, hrequeue, hattempts, hinitial,
    hmax, hpolicy, hpolicyNamespace⟩

/-- What is shown of a key is what is shown of its value. -/
theorem get_eq_shown (key : ConfigKey) (c : Config) : c.get key = (c.setting key).shown := by
  cases key <;> rfl

/-! ## What a text stands for -/

/-- A text that stands for a number shows the normal form of its digits, -/
theorem toString_of_readUInt64 {n : UInt64} (h : readUInt64 key value = .ok n) :
    toString n.toNat = Text.decimal value := by
  unfold readUInt64 at h
  split at h
  · next k hread =>
    obtain rfl := Except.ok.inj h
    have hle := (Text.readNat_eq_ok_iff.mp hread).2.2.2
    rw [UInt64.toNat_ofNat_of_lt' (Nat.lt_of_le_pred (by decide) hle),
      Text.toString_of_readNat hread]
  · cases h

theorem toString_of_readUInt32 {n : UInt32} (h : readUInt32 key value = .ok n) :
    toString n.toNat = Text.decimal value := by
  unfold readUInt32 at h
  split at h
  · next k hread =>
    obtain rfl := Except.ok.inj h
    have hle := (Text.readNat_eq_ok_iff.mp hread).2.2.2
    rw [UInt32.toNat_ofNat_of_lt' (Nat.lt_of_le_pred (by decide) hle),
      Text.toString_of_readNat hread]
  · cases h

/-- and the text of a number stands for it. -/
theorem readUInt64_toString (key : ConfigKey) (n : UInt64) :
    readUInt64 key (toString n.toNat) = .ok n := by
  have hle : n.toNat ≤ UInt64.size - 1 := Nat.le_pred_of_lt n.toNat_lt
  unfold readUInt64
  rw [Text.readNat_toString hle]
  exact congrArg Except.ok n.ofNat_toNat

theorem readUInt32_toString (key : ConfigKey) (n : UInt32) :
    readUInt32 key (toString n.toNat) = .ok n := by
  have hle : n.toNat ≤ UInt32.size - 1 := Nat.le_pred_of_lt n.toNat_lt
  unfold readUInt32
  rw [Text.readNat_toString hle]
  exact congrArg Except.ok n.ofNat_toNat

/-- What is shown of the value that a text stands for is that text, or its normal form if it is a
number.  The keys differ only in the type of their value: a wide number, a narrow one, a text, or
the namespace, for which the empty text is that of all. -/
theorem shown_of_parse {v : Setting} (h : key.parse value = .ok v) :
    v.shown = if key.isNumber then Text.decimal value else value := by
  have hwide (h : (readUInt64 key value).map .wide = .ok v) : v.shown = Text.decimal value := by
    cases hread : readUInt64 key value with
    | error => cases hread ▸ h
    | ok n =>
      obtain rfl := Except.ok.inj (hread ▸ h)
      exact toString_of_readUInt64 hread
  have hnarrow (h : (readUInt32 key value).map .narrow = .ok v) : v.shown = Text.decimal value := by
    cases hread : readUInt32 key value with
    | error => cases hread ▸ h
    | ok n =>
      obtain rfl := Except.ok.inj (hread ▸ h)
      exact toString_of_readUInt32 hread
  cases key with
  | watched =>
    obtain rfl := Except.ok.inj h
    by_cases hempty : value = ""
    · rw [hempty]; rfl
    · simp [Setting.shown, ConfigKey.isNumber, hempty]
  | maxAttempts => exact hnarrow h
  | debounceSeconds | minIntervalSeconds | errorRequeueSeconds | initialBackoffMillis
  | maxBackoffMillis =>
    exact hwide h
  | listenAddress | webhookPath | policyName | policyNamespace =>
    obtain rfl := Except.ok.inj h
    rfl

/-- What is shown of a value stands for it, and the empty namespace for all of them. -/
theorem parse_get (key : ConfigKey) (c : Config) :
    key.parse (c.get key) = .ok (c.setting key).settled := by
  cases key with
  | watched =>
    cases hwatched : c.watched <;> simp [ConfigKey.parse, get, setting, Setting.settled, hwatched]
  | maxAttempts => exact congrArg (Except.map Setting.narrow) (readUInt32_toString _ _)
  | debounceSeconds | minIntervalSeconds | errorRequeueSeconds | initialBackoffMillis
  | maxBackoffMillis =>
    exact congrArg (Except.map Setting.wide) (readUInt64_toString _ _)
  | listenAddress | webhookPath | policyName | policyNamespace => rfl

/-! ## The law -/

/-- A key is refused for what its text is, whatever else is set. -/
theorem set_eq_error_iff : c.set key value = .error e ↔ key.parse value = .error e := by
  have hwide {f : UInt64 → Config} : (do return f (← readUInt64 key value)) = Except.error e ↔
      (readUInt64 key value).map Setting.wide = .error e := by
    cases readUInt64 key value <;> simp [Except.map, bind, Except.bind, pure, Except.pure]
  have hnarrow {f : UInt32 → Config} : (do return f (← readUInt32 key value)) = Except.error e ↔
      (readUInt32 key value).map Setting.narrow = .error e := by
    cases readUInt32 key value <;> simp [Except.map, bind, Except.bind, pure, Except.pure]
  cases key with
  | maxAttempts => exact hnarrow
  | debounceSeconds | minIntervalSeconds | errorRequeueSeconds | initialBackoffMillis
  | maxBackoffMillis => exact hwide
  | watched | listenAddress | webhookPath | policyName | policyNamespace => exact ⟨nofun, nofun⟩

/-- A key that is set has the value that the text stands for, and all others have the one that they
had.  This opens the setter, and the cases are its groups of fields. -/
theorem setting_of_set (h : c.set key value = .ok d) :
    key.parse value = .ok (d.setting key) ∧
      ∀ other, other ≠ key → d.setting other = c.setting other := by
  cases key with
  | watched | listenAddress | webhookPath | policyName | policyNamespace =>
    obtain rfl := Except.ok.inj h
    exact ⟨rfl, fun other hne => by cases other <;> first | rfl | exact absurd rfl hne⟩
  | maxAttempts =>
    unfold set at h
    cases hread : readUInt32 .maxAttempts value with
    | error => rw [hread] at h; cases h
    | ok n =>
      rw [hread] at h
      obtain rfl := Except.ok.inj h
      exact ⟨congrArg (Except.map Setting.narrow) hread,
        fun other hne => by cases other <;> first | rfl | exact absurd rfl hne⟩
  | debounceSeconds | minIntervalSeconds | errorRequeueSeconds | initialBackoffMillis
  | maxBackoffMillis =>
    unfold set at h
    dsimp only at h
    generalize hread : readUInt64 _ value = result at h
    cases result with
    | error => cases h
    | ok n =>
      obtain rfl := Except.ok.inj h
      exact ⟨congrArg (Except.map Setting.wide) hread,
        fun other hne => by cases other <;> first | rfl | exact absurd rfl hne⟩

/-- **The law of setting a key.**  It succeeds exactly if the text stands for a value of the key,
and then that value is the only one that changes. -/
theorem set_eq_ok_iff : c.set key value = .ok d ↔
    key.parse value = .ok (d.setting key) ∧
      ∀ other, other ≠ key → d.setting other = c.setting other := by
  refine ⟨setting_of_set, fun ⟨hparse, hothers⟩ => ?_⟩
  cases hset : c.set key value with
  | error e => cases hparse.symm.trans (set_eq_error_iff.mp hset)
  | ok d' =>
    obtain ⟨hparse', hothers'⟩ := setting_of_set hset
    have hkey : d'.setting key = d.setting key := Except.ok.inj (hparse'.symm.trans hparse)
    refine congrArg Except.ok (ext_setting fun other => ?_)
    by_cases hother : other = key
    · rw [hother, hkey]
    · rw [hothers' other hother, hothers other hother]

/-- **What is shown afterwards.**  The key shows the text that it was set to, or its normal form if
it is a number, and all others what they showed. -/
theorem get_of_set (h : c.set key value = .ok d) :
    d.get key = (if key.isNumber then Text.decimal value else value) ∧
    ∀ other, other ≠ key → d.get other = c.get other := by
  obtain ⟨hparse, hothers⟩ := setting_of_set h
  refine ⟨(get_eq_shown key d).trans (shown_of_parse hparse), fun other hother => ?_⟩
  rw [get_eq_shown, get_eq_shown, hothers other hother]

/-- **Writing back what is shown** succeeds, and changes nothing but the empty namespace to all of
them. -/
theorem set_get (key : ConfigKey) (c : Config) : c.set key (c.get key) =
    .ok (if key = .watched ∧ c.watched = some "" then { c with watched := none } else c) := by
  rw [set_eq_ok_iff, parse_get]
  by_cases hempty : key = .watched ∧ c.watched = some ""
  · -- the empty namespace is shown as the text that stands for all of them
    obtain ⟨rfl, hwatched⟩ := hempty
    rw [if_pos ⟨rfl, hwatched⟩]
    refine ⟨by rw [setting, hwatched]; rfl, fun other hother => ?_⟩
    cases other <;> first | rfl | exact absurd rfl hother
  · rw [if_neg hempty]
    refine ⟨congrArg Except.ok ?_, fun _ _ => rfl⟩
    cases key with
    | watched =>
      cases hwatched : c.watched with
      | none => simp [setting, Setting.settled, hwatched]
      | some name =>
        have hname : name ≠ "" := fun h => hempty ⟨rfl, hwatched.trans (congrArg some h)⟩
        simp [setting, Setting.settled, hwatched, hname]
    | _ => rfl

/-! ## By name -/

/-- A name is set exactly if it is that of a key, and the key is. -/
theorem setByName_eq_ok_iff :
    c.setByName name value = .ok d ↔ ∃ key, key.name = name ∧ c.set key value = .ok d := by
  unfold setByName
  cases hkey : ConfigKey.ofName name with
  | error e =>
    refine ⟨nofun, fun ⟨key, hname, _⟩ => ?_⟩
    cases hkey.symm.trans (ConfigKey.ofName_eq_ok_iff.mpr hname)
  | ok key =>
    have hname := ConfigKey.ofName_eq_ok_iff.mp hkey
    exact ⟨fun h => ⟨key, hname, h⟩, fun ⟨other, hother, h⟩ =>
      ConfigKey.name_injective (hname.trans hother.symm) ▸ h⟩

/-- By its own name a key shows what it shows, -/
theorem getByName_name (key : ConfigKey) (c : Config) : c.getByName key.name = .ok (c.get key) := by
  unfold getByName
  rw [ConfigKey.ofName_name]
  rfl

/-- and is set as it is. -/
theorem setByName_name (key : ConfigKey) (value : String) (c : Config) :
    c.setByName key.name value = c.set key value := by
  unfold setByName
  rw [ConfigKey.ofName_name]
  rfl

/-- Where the settings of a name are the same, that name shows the same, a name of no setting
included. -/
theorem getByName_congr (h : ∀ key : ConfigKey, key.name = name → d.get key = c.get key) :
    d.getByName name = c.getByName name := by
  unfold getByName
  cases hkey : ConfigKey.ofName name with
  | error e => rfl
  | ok key => exact congrArg Except.ok (h key (ConfigKey.ofName_eq_ok_iff.mp hkey))

/-! ## In place -/

/-- Changes a setting of the state. -/
def assign (key : ConfigKey) (value : String) : ExceptT SettingError (StateM Config) Unit :=
  match key with
  | .watched => modify ({ · with watched := if value.isEmpty then none else some value })
  | .listenAddress => modify ({ · with listenAddress := value })
  | .webhookPath => modify ({ · with webhookPath := value })
  | .debounceSeconds => do
    let n ← readUInt64 key value
    modify ({ · with debounceSeconds := n })
  | .minIntervalSeconds => do
    let n ← readUInt64 key value
    modify ({ · with minIntervalSeconds := n })
  | .errorRequeueSeconds => do
    let n ← readUInt64 key value
    modify ({ · with errorRequeueSeconds := n })
  | .maxAttempts => do
    let n ← readUInt32 key value
    modify ({ · with maxAttempts := n })
  | .initialBackoffMillis => do
    let n ← readUInt64 key value
    modify ({ · with initialBackoffMillis := n })
  | .maxBackoffMillis => do
    let n ← readUInt64 key value
    modify ({ · with maxBackoffMillis := n })
  | .policyName => modify ({ · with policyName := value })
  | .policyNamespace => modify ({ · with policyNamespace := value })

/-- Changes the setting of that name. -/
def assignByName (name value : String) : ExceptT SettingError (StateM Config) Unit := do
  assign (← ConfigKey.ofName name) value

/-- What a change in place leaves: the new configuration, or with a failure the one that was
there. -/
def assigned (c : Config) : Except SettingError Config → Except SettingError Unit × Config
  | .ok d => (.ok (), d)
  | .error e => (.error e, c)

/-- **A change in place** is the change of a value: what fails has not written anything yet. -/
theorem run_assign (key : ConfigKey) (value : String) (c : Config) :
    (assign key value).run.run c = c.assigned (c.set key value) := by
  cases key with
  | watched | listenAddress | webhookPath | policyName | policyNamespace => rfl
  | maxAttempts =>
    unfold assign set
    cases readUInt32 .maxAttempts value <;> rfl
  | debounceSeconds | minIntervalSeconds | errorRequeueSeconds | initialBackoffMillis
  | maxBackoffMillis =>
    unfold assign set
    dsimp only
    generalize readUInt64 _ value = result
    cases result <;> rfl

/-- So it is by name; a name of no key fails before anything is read. -/
theorem run_assignByName (name value : String) (c : Config) :
    (assignByName name value).run.run c = c.assigned (c.setByName name value) := by
  unfold assignByName setByName
  cases ConfigKey.ofName name with
  | error e => rfl
  | ok key => exact run_assign key value c

end

end Config

end PushBuild
