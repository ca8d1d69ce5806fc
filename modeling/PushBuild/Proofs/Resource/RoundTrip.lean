import PushBuild.Proofs.Cluster.Status
import PushBuild.Proofs.Json.Text
import PushBuild.Resource.Policy
import PushBuild.Resource.Template

/-!
# Resources that are written and read

What a resource lacks is written in two ways.  A status has null for it, since null is what clears a
field; a specification and what the build system reports leave it out.  Either way the same is read
again.

1. **Round trips.**  `RoundTrips` says of typed data that their JSON has a text and is read as these
   data.
2. **Records.**  An object that leaves out some fields shows the others and nothing in place of the
   former (`holds_obj`), so a record is read back if its fields are (`RoundTrips.of_record`).
3. **Types.**  Each type is a record of types before it.
4. **The result** (`resources_round_trip`), for texts of any characters, all numbers of 64 bits and
   all instants.
-/

namespace PushBuild

open Json (Legible)

/-! ## Round trips -/

/-- The typed data that a JSON text is. -/
def Json.decode? {α : Type} (read : Json → Option α) (text : String) : Option α := do
  read (← Json.ofChars? Json.maxDepth text.toList)

/-- The encoding of `a` has a text, with so many levels, and is read as `a`; it is not null, which
would stand for no value. -/
structure RoundTrips {α : Type} (read : Json → Option α) (encode : α → Json) (depth : Nat) (a : α) :
    Prop where
  legible : Legible depth (encode a)
  present : encode a ≠ .null
  reads : read (encode a) = some a

namespace RoundTrips

variable {α : Type} {read : Json → Option α} {encode : α → Json} {a : α} {depth : Nat}

/-- **What reads back from its JSON reads back from the text.** -/
theorem decode?_eq (h : RoundTrips read encode Json.maxDepth a) :
    Json.decode? read (encode a).toText = some a := by
  unfold Json.decode? Json.toText
  rw [String.toList_ofList, Json.ofChars?_print h.legible, Option.bind_eq_bind,
    Option.bind_some, h.reads]

/-- A text is read back. -/
theorem text (depth : Nat) (s : String) : RoundTrips Document.text? Json.str depth s :=
  ⟨.str s, nofun, rfl⟩

/-- A number of 64 bits is read back, for as JSON it is exact. -/
theorem int64 (depth : Nat) {n : Int} (h : FitsInt64 n) :
    RoundTrips Document.int64? Json.int depth n := by
  refine ⟨.int ?_, nofun, int64?_int h⟩
  obtain ⟨hlow, hhigh⟩ := h
  simp only [Json.isExact, Bool.and_eq_true, decide_eq_true_eq]
  omega

/-- An instant is read back from its text. -/
theorem instant (depth : Nat) (t : Instant) : RoundTrips Document.instant? Json.ofInstant depth t :=
  ⟨.str _, nofun, instant?_ofInstant t⟩

/-- A list is read back item by item. -/
theorem list {as : List α} (h : ∀ a ∈ as, RoundTrips read encode depth a) :
    RoundTrips (Document.list? read) (Json.ofList encode) (depth + 1) as := by
  refine ⟨.arr fun v hv => ?_, nofun, ?_⟩
  · obtain ⟨a, ha, rfl⟩ := List.mem_map.mp hv
    exact (h a ha).legible
  · show (as.map encode).mapM read = some as
    induction as with
    | nil => rfl
    | cons a as ih =>
      obtain ⟨ha, has⟩ := List.forall_mem_cons.mp h
      rw [List.map_cons, List.mapM_cons, ha.reads, ih has]
      rfl

end RoundTrips

/-! ## Records -/

/-- The members of an object with these fields, those without a value left out. -/
def Json.present (fields : List (String × Option Json)) : List (String × Json) :=
  fields.flatMap fun f => Json.member? f.1 id f.2

/-- A record shows these fields as they are, and nothing for those without a value. -/
def Record.Holds (r : Record Json) (fields : List (String × Option Json)) : Prop :=
  ∀ name value, (name, value) ∈ fields → r.find? name = some value

/-- The values of the fields have a text. -/
def LegibleFields (depth : Nat) (fields : List (String × Option Json)) : Prop :=
  ∀ f ∈ fields, ∀ v ∈ f.2, Legible depth v

section

variable {name : String} {fields : List (String × Option Json)}

/-- A name that no field has stands for nothing in the object. -/
theorem only_present_of_not_mem (h : name ∉ fields.map (·.1)) :
    Json.only name (Json.present fields) = [] := by
  induction fields with
  | nil => rfl
  | cons f fields ih =>
    rw [List.map_cons, List.mem_cons, not_or] at h
    obtain ⟨hfirst, hrest⟩ := h
    have hrest := ih hrest
    rw [Json.present, List.flatMap_cons, Json.only_append]
    cases hvalue : f.2 with
    | none => exact hrest
    | some v =>
      rw [Json.member?, id, Json.only_singleton_of_ne (Ne.symm hfirst)]
      exact hrest

/-- Of fields with distinct names, one has the name of each. -/
theorem only_present {value : Option Json} (hdistinct : (fields.map (·.1)).Nodup)
    (h : (name, value) ∈ fields) :
    Json.only name (Json.present fields) = Json.member? name id value := by
  induction fields with
  | nil => exact absurd h List.not_mem_nil
  | cons f fields ih =>
    rw [List.map_cons, List.nodup_cons] at hdistinct
    obtain ⟨hfirst, hrest⟩ := hdistinct
    rw [Json.present, List.flatMap_cons, Json.only_append]
    rcases List.mem_cons.mp h with rfl | h
    · -- the field is the first one, and none of the others has its name
      have hnone : Json.only name (Json.present fields) = [] := only_present_of_not_mem hfirst
      rw [← Json.present, hnone, List.append_nil]
      cases value with
      | none => rfl
      | some v => exact Json.only_singleton name v
    · -- the first field is another one
      have hother : f.1 ≠ name := by
        rintro rfl
        exact hfirst (List.mem_map.mpr ⟨_, h, rfl⟩)
      have hnone : Json.only name (Json.member? f.1 id f.2) = [] := by
        cases f.2 with
        | none => rfl
        | some v => exact Json.only_singleton_of_ne hother v
      rw [hnone, List.nil_append]
      exact ih hrest h

/-- What is read of an object that leaves out some fields. -/
theorem holds_obj {names : List String} (hnames : fields.map (·.1) = names)
    (hdistinct : names.Nodup) :
    ∃ r, Record.at? names (Json.obj (Json.present fields)) = some r ∧ r.Holds fields := by
  refine ⟨_, Record.at?_obj _ _, fun name value h => ?_⟩
  have hname : name ∈ names := hnames ▸ List.mem_map.mpr ⟨_, h, rfl⟩
  have honly := only_present (hnames ▸ hdistinct) h
  rw [← Record.only_filter_contains hname] at honly
  cases value with
  | none => exact Record.find?_of_only_nil honly
  | some v => exact Record.find?_of_only honly

end

section

variable {α β : Type} {read : Json → Option α} {encode : α → Json} {a : α} {o : Option α}
  {depth : Nat} {r : Record Json} {name : String} {fields : List (String × Option Json)}

/-- An object has a text if its fields have. -/
theorem LegibleFields.obj (h : LegibleFields depth fields) :
    Legible (depth + 1) (.obj (Json.present fields)) := by
  refine .obj fun m hm => ?_
  obtain ⟨f, hf, hm⟩ := List.mem_flatMap.mp hm
  cases hvalue : f.2 with
  | none =>
    rw [hvalue] at hm
    cases hm
  | some v =>
    rw [hvalue] at hm
    obtain rfl := List.mem_singleton.mp hm
    exact h f hf v hvalue

/-- **A record** is read back if its fields are.  For a type it remains to say how its encoding is
made of fields, that their values are legible, and that what is read of them makes up the value
again. -/
theorem RoundTrips.of_record {names : List String} {body : Record Json → Option α}
    (fields : List (String × Option Json)) (hencode : encode a = .obj (Json.present fields))
    (hread : ∀ d, read d = (Record.at? names d).bind body) (hnames : fields.map (·.1) = names)
    (hdistinct : names.Nodup) (hlegible : LegibleFields depth fields)
    (hbody : ∀ r : Record Json, r.Holds fields → body r = some a) :
    RoundTrips read encode (depth + 1) a := by
  refine ⟨?_, ?_, ?_⟩
  · rw [hencode]
    exact hlegible.obj
  · rw [hencode]
    exact nofun
  · obtain ⟨r, hr, hholds⟩ := holds_obj hnames hdistinct
    rw [hencode, hread, hr]
    exact hbody r hholds

/-- No fields have legible values. -/
theorem legibleFields_nil : LegibleFields depth [] := fun _ h => absurd h List.not_mem_nil

/-- A field that is always there. -/
theorem LegibleFields.always (h : RoundTrips read encode depth a)
    (hrest : LegibleFields depth fields) :
    LegibleFields depth ((name, some (encode a)) :: fields) := by
  refine List.forall_mem_cons.mpr ⟨fun v hv => ?_, hrest⟩
  obtain rfl := Option.some.inj hv
  exact h.legible

/-- A field that is left out without a value. -/
theorem LegibleFields.skipped (h : ∀ a ∈ o, RoundTrips read encode depth a)
    (hrest : LegibleFields depth fields) :
    LegibleFields depth ((name, o.map encode) :: fields) := by
  refine List.forall_mem_cons.mpr ⟨fun v hv => ?_, hrest⟩
  obtain ⟨a, ha, rfl⟩ := Option.map_eq_some_iff.mp hv
  exact (h a ha).legible

/-- A field that is null without a value. -/
theorem LegibleFields.cleared (h : ∀ a ∈ o, RoundTrips read encode depth a)
    (hrest : LegibleFields depth fields) :
    LegibleFields depth ((name, some (Json.ofOption encode o)) :: fields) := by
  refine List.forall_mem_cons.mpr ⟨fun v hv => ?_, hrest⟩
  obtain rfl := Option.some.inj hv
  cases o with
  | none => exact .null
  | some a => exact (h a rfl).legible

/-- What is read of a field that has to be there, -/
theorem Record.Holds.required (h : r.Holds fields) (name : String)
    (ha : RoundTrips read encode depth a) (hmem : (name, some (encode a)) ∈ fields) :
    r.required name read = some a :=
  (Record.required_of_find? (h name _ hmem)).trans ha.reads

/-- of one that has a default, -/
theorem Record.Holds.withDefault (h : r.Holds fields) (name : String) (default : α)
    (ha : RoundTrips read encode depth a) (hmem : (name, some (encode a)) ∈ fields) :
    r.withDefault name default read = some a :=
  (Record.withDefault_of_find? (h name _ hmem)).trans ha.reads

/-- of one that is left out without a value, -/
theorem Record.Holds.skipped (h : r.Holds fields) (name : String)
    (ho : ∀ a ∈ o, RoundTrips read encode depth a) (hmem : (name, o.map encode) ∈ fields) :
    r.optional name read = some o := by
  cases o with
  | none => exact Record.optional_of_absent (Or.inl (h name _ hmem))
  | some a => exact Record.optional_of_find? (h name _ hmem) (ho a rfl).present (ho a rfl).reads

/-- and of one that is null without a value. -/
theorem Record.Holds.cleared (h : r.Holds fields) (name : String)
    (ho : ∀ a ∈ o, RoundTrips read encode depth a)
    (hmem : (name, some (Json.ofOption encode o)) ∈ fields) : r.optional name read = some o := by
  cases o with
  | none => exact Record.optional_of_absent (Or.inr (h name _ hmem))
  | some a => exact Record.optional_of_find? (h name _ hmem) (ho a rfl).present (ho a rfl).reads

end

/-! ## Specifications -/

section

variable (depth : Nat)

/-- Where the sources are is read back. -/
theorem GitSource.roundTrips (g : GitSource) :
    RoundTrips GitSource.read? GitSource.toJson (depth + 1) g := by
  refine .of_record [("url", some (.str g.url)), ("revision", some (.str g.revision)),
      ("cloneSecret", g.cloneSecret.map .str)] ?_ (fun _ => rfl) rfl (by decide) ?_ fun r hr => ?_
  · unfold toJson
    cases g.cloneSecret <;> rfl
  · exact .always (.text _ _)
      (.always (.text _ _) (.skipped (fun _ _ => .text _ _) legibleFields_nil))
  · have hurl := hr.required "url" (.text 0 g.url) (by simp)
    have hrevision := hr.required "revision" (.text 0 g.revision) (by simp)
    have hsecret := hr.skipped "cloneSecret" (o := g.cloneSecret) (fun s _ => .text 0 s) (by simp)
    simp only [hurl, hrevision, hsecret, Option.bind_eq_bind, Option.bind_some]
    rfl

/-- What is built is read back. -/
theorem Source.roundTrips (s : Source) : RoundTrips Source.read? Source.toJson (depth + 2) s := by
  refine .of_record [("git", some s.git.toJson), ("contextDir", s.contextDir.map .str)] ?_
    (fun _ => rfl) rfl
    (by decide) ?_ fun r hr => ?_
  · unfold toJson
    cases s.contextDir <;> rfl
  · exact .always (s.git.roundTrips depth) (.skipped (fun _ _ => .text _ _) legibleFields_nil)
  · have hgit := hr.required "git" (s.git.roundTrips 0) (by simp)
    have hdirectory := hr.skipped "contextDir" (o := s.contextDir) (fun d _ => .text 0 d) (by simp)
    simp only [hgit, hdirectory, Option.bind_eq_bind, Option.bind_some]
    rfl

/-- Where the image goes is read back. -/
theorem Output.roundTrips (o : Output) : RoundTrips Output.read? Output.toJson (depth + 1) o := by
  refine .of_record [("image", some (.str o.image)), ("pushSecret", o.pushSecret.map .str)] ?_
    (fun _ => rfl) rfl
    (by decide) ?_ fun r hr => ?_
  · unfold toJson
    cases o.pushSecret <;> rfl
  · exact .always (.text _ _) (.skipped (fun _ _ => .text _ _) legibleFields_nil)
  · have himage := hr.required "image" (.text 0 o.image) (by simp)
    have hsecret := hr.skipped "pushSecret" (o := o.pushSecret) (fun s _ => .text 0 s) (by simp)
    simp only [himage, hsecret, Option.bind_eq_bind, Option.bind_some]
    rfl

/-- The place of a secret is read back. -/
theorem SecretKeyRef.roundTrips (s : SecretKeyRef) :
    RoundTrips SecretKeyRef.read? SecretKeyRef.toJson (depth + 1) s := by
  refine .of_record [("name", some (.str s.name)), ("key", some (.str s.key))]
    rfl (fun _ => rfl) rfl
    (by decide) ?_ fun r hr => ?_
  · exact .always (.text _ _) (.always (.text _ _) legibleFields_nil)
  · have hname := hr.required "name" (.text 0 s.name) (by simp)
    have hkey := hr.required "key" (.text 0 s.key) (by simp)
    simp only [hname, hkey, Option.bind_eq_bind, Option.bind_some]
    rfl

/-- A mode is read back from its name. -/
theorem BuildFileMode.roundTrips (mode : BuildFileMode) :
    RoundTrips (fun d => (Document.choice? d).bind BuildFileMode.ofName?)
      (fun mode => .str (name mode)) depth mode :=
  ⟨.str _, nofun, by cases mode <;> rfl⟩

/-- So is a mode of rebuilding. -/
theorem RebuildMode.roundTrips (mode : RebuildMode) :
    RoundTrips (fun d => (Document.choice? d).bind RebuildMode.ofName?)
      (fun mode => .str (name mode)) depth mode :=
  ⟨.str _, nofun, by cases mode <;> rfl⟩

/-- It stands in a section of its own, -/
theorem RebuildMode.roundTrips_section (mode : RebuildMode) :
    RoundTrips RebuildMode.readSection? (fun mode => .obj [("mode", .str mode.name)])
      (depth + 1) mode := by
  refine .of_record [("mode", some (.str mode.name))] rfl (fun _ => rfl) rfl (by decide) ?_
    fun r hr => ?_
  · exact .always (.text _ mode.name) legibleFields_nil
  · exact hr.withDefault "mode" .initial (mode.roundTrips 0) (by simp)

/-- and so does the secret of pushes. -/
theorem SecretKeyRef.roundTrips_section (s : SecretKeyRef) :
    RoundTrips SecretKeyRef.readSection? (fun s => .obj [("webhookSecret", s.toJson)])
      (depth + 2) s := by
  refine .of_record [("webhookSecret", some s.toJson)] rfl (fun _ => rfl) rfl (by decide) ?_
    fun r hr => ?_
  · exact .always (s.roundTrips depth) legibleFields_nil
  · exact hr.required "webhookSecret" (s.roundTrips 0) (by simp)

/-- **What a user asks for** is read back. -/
theorem BuildRequestSpec.roundTrips (s : BuildRequestSpec) :
    RoundTrips BuildRequestSpec.read? BuildRequestSpec.toJson (depth + 3) s := by
  refine .of_record [("source", some s.source.toJson), ("buildFile", some (.str s.buildFile.name)),
      ("output", some s.output.toJson),
      ("rebuild", s.rebuild.map fun mode => .obj [("mode", .str mode.name)]),
      ("onCommit", s.onCommit.map fun secret => .obj [("webhookSecret", secret.toJson)])] ?_
        (fun _ => rfl) rfl
    (by decide) ?_ fun r hr => ?_
  · -- whatever is left out, these are the fields
    unfold toJson
    cases s.rebuild <;> cases s.onCommit <;> rfl
  · exact .always (s.source.roundTrips depth) (.always (.text _ s.buildFile.name)
      (.always (s.output.roundTrips (depth + 1))
        (.skipped (fun mode _ => mode.roundTrips_section (depth + 1))
        (.skipped (fun secret _ => secret.roundTrips_section depth) legibleFields_nil))))
  · have hsource := hr.required "source" (s.source.roundTrips 0) (by simp)
    have hfile := hr.withDefault "buildFile" .absent (s.buildFile.roundTrips 0) (by simp)
    have houtput := hr.required "output" (s.output.roundTrips 0) (by simp)
    have hrebuild :=
      hr.skipped "rebuild" (o := s.rebuild) (fun mode _ => mode.roundTrips_section 0) (by simp)
    have hcommit :=
      hr.skipped "onCommit" (o := s.onCommit) (fun secret _ => secret.roundTrips_section 0)
        (by simp)
    simp only [hsource, hfile, houtput, hrebuild, hcommit, Option.bind_eq_bind, Option.bind_some]
    rfl

/-! ## Statuses -/

/-- What was built is read back. -/
theorem BuildSnapshot.roundTrips (s : BuildSnapshot) :
    RoundTrips BuildSnapshot.read? BuildSnapshot.toJson (depth + 1) s := by
  refine .of_record [("url", some (.str s.url)), ("revision", some (.str s.revision)),
      ("image", some (.str s.image))] rfl (fun _ => rfl) rfl (by decide) ?_ fun r hr => ?_
  · exact .always (.text _ _) (.always (.text _ _) (.always (.text _ _) legibleFields_nil))
  · have hurl := hr.required "url" (.text 0 s.url) (by simp)
    have hrevision := hr.required "revision" (.text 0 s.revision) (by simp)
    have himage := hr.required "image" (.text 0 s.image) (by simp)
    simp only [hurl, hrevision, himage, Option.bind_eq_bind, Option.bind_some]
    rfl

/-- A push is read back. -/
theorem PushRecord.roundTrips (p : PushRecord) :
    RoundTrips PushRecord.read? PushRecord.toJson (depth + 1) p := by
  refine .of_record [("ref", some (.str p.ref)), ("commit", some (.str p.commit)),
      ("receivedAt", some (.ofInstant p.receivedAt))] rfl (fun _ => rfl) rfl (by decide) ?_
        fun r hr => ?_
  · exact .always (.text _ _) (.always (.text _ _) (.always (.instant _ _) legibleFields_nil))
  · have href := hr.required "ref" (.text 0 p.ref) (by simp)
    have hcommit := hr.required "commit" (.text 0 p.commit) (by simp)
    have htime := hr.required "receivedAt" (.instant 0 p.receivedAt) (by simp)
    simp only [href, hcommit, htime, Option.bind_eq_bind, Option.bind_some]
    rfl

/-- A start is read back. -/
theorem TriggeredExecution.roundTrips (e : TriggeredExecution) :
    RoundTrips TriggeredExecution.read? TriggeredExecution.toJson (depth + 1) e := by
  refine .of_record [("name", some (.str e.name)), ("triggeredAt", some (.ofInstant e.triggeredAt))]
    rfl
    (fun _ => rfl) rfl (by decide) ?_ fun r hr => ?_
  · exact .always (.text _ _) (.always (.instant _ _) legibleFields_nil)
  · have hname := hr.required "name" (.text 0 e.name) (by simp)
    have htime := hr.required "triggeredAt" (.instant 0 e.triggeredAt) (by simp)
    simp only [hname, htime, Option.bind_eq_bind, Option.bind_some]
    rfl

/-- **What is known about pushes** is read back. -/
theorem OnCommitStatus.roundTrips {s : OnCommitStatus} (h : FitsInt64 s.triggerCounter) :
    RoundTrips OnCommitStatus.read? OnCommitStatus.toJson (depth + 2) s := by
  refine .of_record [("lastReceived", some (.ofOption PushRecord.toJson s.lastReceived)),
      ("pending", some (.ofOption PushRecord.toJson s.pending)),
      ("lastTriggeredExecution",
        some (.ofOption TriggeredExecution.toJson s.lastTriggeredExecution)),
      ("triggerCounter", some (.int s.triggerCounter))] rfl (fun _ => rfl) rfl (by decide) ?_
        fun r hr => ?_
  · exact .cleared (fun p _ => p.roundTrips depth) (.cleared (fun p _ => p.roundTrips depth)
      (.cleared (fun e _ => e.roundTrips depth) (.always (.int64 _ h) legibleFields_nil)))
  · have hreceived := hr.cleared "lastReceived" (o := s.lastReceived)
      (fun p _ => p.roundTrips 0) (by simp)
    have hpending := hr.cleared "pending" (o := s.pending) (fun p _ => p.roundTrips 0) (by simp)
    have hstarted := hr.cleared "lastTriggeredExecution" (o := s.lastTriggeredExecution)
      (fun e _ => e.roundTrips 0) (by simp)
    have hcounter := hr.withDefault "triggerCounter" 0 (.int64 0 h) (by simp)
    simp only [hreceived, hpending, hstarted, hcounter, Option.bind_eq_bind, Option.bind_some]
    rfl

/-- A condition is read back, if the generation it bears has 64 bits. -/
theorem Condition.roundTrips {c : Condition} (h : c.Fits) :
    RoundTrips Condition.read? Condition.toJson (depth + 1) c := by
  refine ⟨?_, nofun, Condition.read?_toJson h⟩
  have hfields :
      LegibleFields depth [("type", some (.str c.type)), ("status", some (.str c.status.name)),
      ("reason", some (.str c.reason)), ("message", some (.str c.message)),
      ("observedGeneration", some (.ofOption .int c.observedGeneration)),
      ("lastTransitionTime", some (.ofOption .ofInstant c.lastTransitionTime))] :=
    .always (.text _ _) (.always (.text _ _) (.always (.text _ _) (.always (.text _ _)
      (.cleared (fun n hn => .int64 _ (h n hn))
        (.cleared (fun t _ => .instant _ t) legibleFields_nil)))))
  exact hfields.obj

/-- **What is known about a request** is read back. -/
theorem BuildRequestStatus.roundTrips {s : BuildRequestStatus} (h : s.Fits) :
    RoundTrips BuildRequestStatus.read? BuildRequestStatus.toJson (depth + 3) s := by
  have hconditions : RoundTrips (Document.list? Condition.read?)
      (Json.ofList Condition.toJson) (depth + 2)
      s.conditions := .list fun c hc => Condition.roundTrips depth (h.conditions c hc)
  refine .of_record [("observedGeneration", some (.ofOption .int s.observedGeneration)),
      ("buildRef", some (.ofOption .str s.buildRef)),
      ("conditions", some (.ofList Condition.toJson s.conditions)),
      ("latestImage", some (.ofOption .str s.latestImage)),
      ("lastBuildRunRef", some (.ofOption .str s.lastBuildRunRef)),
      ("buildRunCounter", some (.int s.buildRunCounter)),
      ("lastBuildSpec", some (.ofOption BuildSnapshot.toJson s.lastBuildSpec)),
      ("onCommit", some (.ofOption OnCommitStatus.toJson s.onCommit))] rfl (fun _ => rfl) rfl
    (by decide) ?_ fun r hr => ?_
  · exact .cleared (fun n hn => .int64 _ (h.observedGeneration n hn))
      (.cleared (fun t _ => .text _ t)
      (.always hconditions (.cleared (fun t _ => .text _ t) (.cleared (fun t _ => .text _ t)
        (.always (.int64 _ h.buildRunCounter) (.cleared (fun b _ => b.roundTrips (depth + 1))
          (.cleared (fun state hstate => OnCommitStatus.roundTrips depth
            (h.triggerCounter state hstate)) legibleFields_nil)))))))
  · have hgeneration := hr.cleared "observedGeneration" (o := s.observedGeneration)
      (fun n hn => .int64 0 (h.observedGeneration n hn)) (by simp)
    have htemplate := hr.cleared "buildRef" (o := s.buildRef) (fun t _ => .text 0 t) (by simp)
    have hconditions := hr.withDefault "conditions" [] hconditions (by simp)
    have himage := hr.cleared "latestImage" (o := s.latestImage) (fun t _ => .text 0 t) (by simp)
    have hlatest := hr.cleared "lastBuildRunRef" (o := s.lastBuildRunRef)
      (fun t _ => .text 0 t) (by simp)
    have hcounter := hr.withDefault "buildRunCounter" 0 (.int64 0 h.buildRunCounter) (by simp)
    have hbuilt := hr.cleared "lastBuildSpec" (o := s.lastBuildSpec)
      (fun b _ => b.roundTrips 0) (by simp)
    have hpushes := hr.cleared "onCommit" (o := s.onCommit)
      (fun state hstate => OnCommitStatus.roundTrips 0 (h.triggerCounter state hstate)) (by simp)
    simp only [hgeneration, htemplate, hconditions, himage, hlatest, hcounter, hbuilt, hpushes,
      Option.bind_eq_bind, Option.bind_some]
    rfl

/-! ## Templates and executions -/

/-- The strategy of a template is read back. -/
theorem StrategyRef.roundTrips (s : StrategyRef) :
    RoundTrips StrategyRef.read? StrategyRef.toJson (depth + 1) s := by
  refine .of_record [("name", some (.str s.name)), ("kind", some (.str s.kind))]
    rfl (fun _ => rfl) rfl
    (by decide) ?_ fun r hr => ?_
  · exact .always (.text _ _) (.always (.text _ _) legibleFields_nil)
  · have hname := hr.required "name" (.text 0 s.name) (by simp)
    have hkind := hr.required "kind" (.text 0 s.kind) (by simp)
    simp only [hname, hkind, Option.bind_eq_bind, Option.bind_some]
    rfl

/-- What a template builds is read back. -/
theorem TemplateSource.roundTrips (s : TemplateSource) :
    RoundTrips TemplateSource.read? TemplateSource.toJson (depth + 1) s := by
  refine .of_record [("url", some (.str s.url)), ("revision", some (.str s.revision)),
      ("contextDir", s.contextDir.map .str), ("cloneSecret", s.cloneSecret.map .str)] ?_
        (fun _ => rfl) rfl
    (by decide) ?_ fun r hr => ?_
  · unfold toJson
    cases s.contextDir <;> cases s.cloneSecret <;> rfl
  · exact .always (.text _ _) (.always (.text _ _) (.skipped (fun _ _ => .text _ _)
      (.skipped (fun _ _ => .text _ _) legibleFields_nil)))
  · have hurl := hr.required "url" (.text 0 s.url) (by simp)
    have hrevision := hr.required "revision" (.text 0 s.revision) (by simp)
    have hdirectory := hr.skipped "contextDir" (o := s.contextDir) (fun d _ => .text 0 d) (by simp)
    have hsecret := hr.skipped "cloneSecret" (o := s.cloneSecret) (fun s _ => .text 0 s) (by simp)
    simp only [hurl, hrevision, hdirectory, hsecret, Option.bind_eq_bind, Option.bind_some]
    rfl

/-- Where the image of a template goes is read back. -/
theorem TemplateOutput.roundTrips (o : TemplateOutput) :
    RoundTrips TemplateOutput.read? TemplateOutput.toJson (depth + 1) o := by
  refine .of_record [("image", some (.str o.image)), ("pushSecret", o.pushSecret.map .str)] ?_
    (fun _ => rfl) rfl
    (by decide) ?_ fun r hr => ?_
  · unfold toJson
    cases o.pushSecret <;> rfl
  · exact .always (.text _ _) (.skipped (fun _ _ => .text _ _) legibleFields_nil)
  · have himage := hr.required "image" (.text 0 o.image) (by simp)
    have hsecret := hr.skipped "pushSecret" (o := o.pushSecret) (fun s _ => .text 0 s) (by simp)
    simp only [himage, hsecret, Option.bind_eq_bind, Option.bind_some]
    rfl

/-- **How to build** is read back. -/
theorem BuildTemplateSpec.roundTrips (s : BuildTemplateSpec) :
    RoundTrips BuildTemplateSpec.read? BuildTemplateSpec.toJson (depth + 2) s := by
  refine .of_record [("strategy", some s.strategy.toJson), ("source", some s.source.toJson),
      ("output", some s.output.toJson)] rfl (fun _ => rfl) rfl (by decide) ?_ fun r hr => ?_
  · exact .always (s.strategy.roundTrips depth) (.always (s.source.roundTrips depth)
      (.always (s.output.roundTrips depth) legibleFields_nil))
  · have hstrategy := hr.required "strategy" (s.strategy.roundTrips 0) (by simp)
    have hsource := hr.required "source" (s.source.roundTrips 0) (by simp)
    have houtput := hr.required "output" (s.output.roundTrips 0) (by simp)
    simp only [hstrategy, hsource, houtput, Option.bind_eq_bind, Option.bind_some]
    rfl

/-- **What is asked of the build system** is read back. -/
theorem BuildExecutionSpec.roundTrips (s : BuildExecutionSpec) :
    RoundTrips BuildExecutionSpec.read? BuildExecutionSpec.toJson (depth + 1) s := by
  refine .of_record [("buildRef", some (.str s.buildRef))] rfl (fun _ => rfl) rfl (by decide) ?_
    fun r hr => ?_
  · exact .always (.text _ _) legibleFields_nil
  · have htemplate := hr.required "buildRef" (.text 0 s.buildRef) (by simp)
    simp only [htemplate, Option.bind_eq_bind, Option.bind_some]
    rfl

/-- What an execution pushed is read back. -/
theorem ExecutionOutput.roundTrips (o : ExecutionOutput) :
    RoundTrips ExecutionOutput.read? ExecutionOutput.toJson (depth + 1) o := by
  refine .of_record [("digest", o.digest.map .str)] ?_ (fun _ => rfl) rfl (by decide) ?_
    fun r hr => ?_
  · unfold toJson
    cases o.digest <;> rfl
  · exact .skipped (fun _ _ => .text _ _) legibleFields_nil
  · have hdigest := hr.skipped "digest" (o := o.digest) (fun d _ => .text 0 d) (by simp)
    simp only [hdigest, Option.bind_eq_bind, Option.bind_some]
    rfl

/-- Why an execution failed is read back. -/
theorem FailureDetails.roundTrips (f : FailureDetails) :
    RoundTrips FailureDetails.read? FailureDetails.toJson (depth + 1) f := by
  refine .of_record [("reason", f.reason.map .str), ("message", f.message.map .str)] ?_
    (fun _ => rfl) rfl
    (by decide) ?_ fun r hr => ?_
  · unfold toJson
    cases f.reason <;> cases f.message <;> rfl
  · exact .skipped (fun _ _ => .text _ _) (.skipped (fun _ _ => .text _ _) legibleFields_nil)
  · have hreason := hr.skipped "reason" (o := f.reason) (fun t _ => .text 0 t) (by simp)
    have hmessage := hr.skipped "message" (o := f.message) (fun t _ => .text 0 t) (by simp)
    simp only [hreason, hmessage, Option.bind_eq_bind, Option.bind_some]
    rfl

/-- **What the build system reports** is read back. -/
theorem BuildExecutionStatus.roundTrips {s : BuildExecutionStatus}
    (h : ∀ c ∈ s.conditions, c.Fits) :
    RoundTrips BuildExecutionStatus.read? BuildExecutionStatus.toJson (depth + 3) s := by
  have hconditions : RoundTrips (Document.list? Condition.read?)
      (Json.ofList Condition.toJson) (depth + 2)
      s.conditions := .list fun c hc => Condition.roundTrips depth (h c hc)
  refine .of_record [("conditions", some (.ofList Condition.toJson s.conditions)),
      ("output", s.output.map ExecutionOutput.toJson),
      ("failureDetails", s.failureDetails.map FailureDetails.toJson)] ?_ (fun _ => rfl) rfl
    (by decide) ?_ fun r hr => ?_
  · unfold toJson
    cases s.output <;> cases s.failureDetails <;> rfl
  · exact .always hconditions (.skipped (fun o _ => o.roundTrips (depth + 1))
      (.skipped (fun f _ => f.roundTrips (depth + 1)) legibleFields_nil))
  · have hconditions := hr.withDefault "conditions" [] hconditions (by simp)
    have houtput := hr.skipped "output" (o := s.output) (fun o _ => o.roundTrips 0) (by simp)
    have hdetails := hr.skipped "failureDetails" (o := s.failureDetails)
      (fun f _ => f.roundTrips 0) (by simp)
    simp only [hconditions, houtput, hdetails, Option.bind_eq_bind, Option.bind_some]
    rfl

/-! ## The policy -/

/-- The section with the strategies. -/
def ClusterPolicy.strategies (p : ClusterPolicy) : Json :=
  .obj (Json.member? "buildfile" .str p.buildfile ++ Json.member? "noBuildfile" .str p.noBuildfile)

/-- The strategies of a policy are read back. -/
theorem ClusterPolicy.roundTrips_strategies (p : ClusterPolicy) :
    RoundTrips ClusterPolicy.readStrategies? ClusterPolicy.strategies (depth + 1) p := by
  refine .of_record [("buildfile", p.buildfile.map .str), ("noBuildfile", p.noBuildfile.map .str)]
    ?_
    (fun _ => rfl) rfl (by decide) ?_ fun r hr => ?_
  · unfold strategies
    cases p.buildfile <;> cases p.noBuildfile <;> rfl
  · exact .skipped (fun _ _ => .text _ _) (.skipped (fun _ _ => .text _ _) legibleFields_nil)
  · have hpresent := hr.skipped "buildfile" (o := p.buildfile) (fun t _ => .text 0 t) (by simp)
    have habsent := hr.skipped "noBuildfile" (o := p.noBuildfile) (fun t _ => .text 0 t) (by simp)
    simp only [hpresent, habsent, Option.bind_eq_bind, Option.bind_some]
    rfl

/-- **The policy** is read back. -/
theorem ClusterPolicy.roundTrips (p : ClusterPolicy) :
    RoundTrips ClusterPolicy.read? ClusterPolicy.toJson (depth + 2) p := by
  refine .of_record [("buildStrategies", some p.strategies)] rfl (fun _ => rfl) rfl (by decide) ?_
    fun r hr => ?_
  · exact .always (p.roundTrips_strategies depth) legibleFields_nil
  · exact hr.withDefault "buildStrategies" _ (p.roundTrips_strategies 0) (by simp)

end

/-! ## The result -/

/-- **What is written of a resource is read back exactly.**  This holds of every specification and
every status, also of their parts, whatever characters their texts have and whatever instants they
are dated to, if their numbers have 64 bits. -/
theorem resources_round_trip :
    (∀ s : BuildRequestSpec, Json.decode? BuildRequestSpec.read? s.toJson.toText = some s) ∧
    (∀ s : BuildRequestStatus, s.Fits →
      Json.decode? BuildRequestStatus.read? s.toJson.toText = some s) ∧
    (∀ s : BuildExecutionStatus, (∀ c ∈ s.conditions, c.Fits) →
      Json.decode? BuildExecutionStatus.read? s.toJson.toText = some s) ∧
    (∀ s : BuildTemplateSpec, Json.decode? BuildTemplateSpec.read? s.toJson.toText = some s) ∧
    (∀ s : BuildExecutionSpec, Json.decode? BuildExecutionSpec.read? s.toJson.toText = some s) ∧
    ∀ p : ClusterPolicy, Json.decode? ClusterPolicy.read? p.toJson.toText = some p :=
  ⟨fun s => (s.roundTrips 124).decode?_eq,
    fun _ h => (BuildRequestStatus.roundTrips 124 h).decode?_eq,
    fun _ h => (BuildExecutionStatus.roundTrips 124 h).decode?_eq,
    fun s => (s.roundTrips 125).decode?_eq,
    fun s => (s.roundTrips 126).decode?_eq, fun p => (p.roundTrips 125).decode?_eq⟩

/-- A status with the least number of 64 bits, the last of all instants, and texts that have to be
escaped. -/
def extremeStatus : BuildRequestStatus where
  observedGeneration := some (-9223372036854775808)
  conditions :=
    [{ type := "Ready", message := "\"\\\u0000\n", lastTransitionTime := some Instant.latest }]
  onCommit := some {
    pending := some ⟨"refs/heads/main", "", Instant.latest⟩
    triggerCounter := 9223372036854775807 }

/-- All its numbers have 64 bits. -/
theorem extremeStatus_fits : extremeStatus.Fits where
  observedGeneration n hn := by
    obtain rfl := Option.some.inj hn
    decide
  conditions c hc := by
    obtain rfl := List.mem_singleton.mp hc
    exact nofun
  buildRunCounter := by decide
  triggerCounter state hstate := by
    obtain rfl := Option.some.inj hstate
    decide

/-- A report with the same conditions, whose output is there but has no digest. -/
def extremeReport : BuildExecutionStatus where
  conditions := extremeStatus.conditions
  output := some {}

/-- The status is read back, and so is the report. -/
theorem extremeStatus_round_trips : extremeStatus.Fits ∧
    Json.decode? BuildRequestStatus.read? extremeStatus.toJson.toText = some extremeStatus ∧
    Json.decode? BuildExecutionStatus.read? extremeReport.toJson.toText = some extremeReport := by
  obtain ⟨-, hstatus, hreport, -⟩ := resources_round_trip
  exact ⟨extremeStatus_fits, hstatus extremeStatus extremeStatus_fits,
    hreport extremeReport extremeStatus_fits.conditions⟩

end PushBuild
