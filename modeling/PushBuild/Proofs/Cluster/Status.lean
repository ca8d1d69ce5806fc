import PushBuild.Cluster.Request
import PushBuild.Proofs.Cluster.Merge
import PushBuild.Proofs.Status.Modify
import PushBuild.Proofs.Store.Effect
import PushBuild.Proofs.Time.Text

/-!
# A status that is written replaces the one that was there

The server keeps what a patch does not mention, also deep inside an object.  So a field of a status
that has no value must be sent as null, or an older value would stay.

1. **The parts of a status.**  Each of them replaces what was there (`replaces_onCommit`), the
   conditions as a whole, with the nulls that their entries have (`replaces_conditions`).
2. **The status** (`replaces_status`), provided that its numbers have 64 bits.
3. **The request** (`status_patch_replaces`).  Of the object on the server the patch changes the
   status, which is then the new one, and the version, and nothing else; and that is what a store in
   memory keeps too.
-/

namespace PushBuild

open Json (merge mergeMembers only)

/-! ## The parts of a status -/

/-- The number has 64 bits. -/
def FitsInt64 (n : Int) : Prop := -9223372036854775808 ≤ n ∧ n ≤ 9223372036854775807

instance (n : Int) : Decidable (FitsInt64 n) := inferInstanceAs (Decidable (_ ∧ _))

theorem int64?_int {n : Int} (h : FitsInt64 n) : Document.int64? (Json.int n) = some n := if_pos h

/-- An instant is read back from its text. -/
theorem instant?_ofInstant (t : Instant) : Document.instant? (Json.ofInstant t) = some t := by
  have htext : Document.text? (Json.ofInstant t) = some t.toText := rfl
  unfold Document.instant?
  rw [htext, Option.bind_eq_bind, Option.bind_some, Instant.ofText?_toText]

/-- Texts, numbers and instants are no objects, so each replaces what was there as a whole. -/
theorem replaces_text (s : String) : Replaces Document.text? Json.str s :=
  .of_value (Json.merge_of_not_obj nofun) nofun rfl

theorem replaces_int64 {n : Int} (h : FitsInt64 n) : Replaces Document.int64? Json.int n :=
  .of_value (Json.merge_of_not_obj nofun) nofun (int64?_int h)

theorem replaces_instant (t : Instant) : Replaces Document.instant? Json.ofInstant t :=
  .of_value (Json.merge_of_not_obj nofun) nofun (instant?_ofInstant t)

/-- What was built replaces what was built before. -/
theorem replaces_snapshot (s : BuildSnapshot) :
    Replaces BuildSnapshot.read? BuildSnapshot.toJson s := by
  refine .of_record rfl (fun _ => rfl) rfl (by decide) fun r hr => ?_
  have hurl := hr.required "url" (replaces_text s.url) (by simp)
  have hrevision := hr.required "revision" (replaces_text s.revision) (by simp)
  have himage := hr.required "image" (replaces_text s.image) (by simp)
  simp only [hurl, hrevision, himage, Option.bind_eq_bind, Option.bind_some]
  rfl

/-- A push replaces the one before. -/
theorem replaces_push (p : PushRecord) : Replaces PushRecord.read? PushRecord.toJson p := by
  refine .of_record rfl (fun _ => rfl) rfl (by decide) fun r hr => ?_
  have href := hr.required "ref" (replaces_text p.ref) (by simp)
  have hcommit := hr.required "commit" (replaces_text p.commit) (by simp)
  have htime := hr.required "receivedAt" (replaces_instant p.receivedAt) (by simp)
  simp only [href, hcommit, htime, Option.bind_eq_bind, Option.bind_some]
  rfl

/-- A start replaces the one before. -/
theorem replaces_started (e : TriggeredExecution) :
    Replaces TriggeredExecution.read? TriggeredExecution.toJson e := by
  refine .of_record rfl (fun _ => rfl) rfl (by decide) fun r hr => ?_
  have hname := hr.required "name" (replaces_text e.name) (by simp)
  have htime := hr.required "triggeredAt" (replaces_instant e.triggeredAt) (by simp)
  simp only [hname, htime, Option.bind_eq_bind, Option.bind_some]
  rfl

/-- **What is known about pushes** replaces what was known. -/
theorem replaces_onCommit {s : OnCommitStatus} (h : FitsInt64 s.triggerCounter) :
    Replaces OnCommitStatus.read? OnCommitStatus.toJson s := by
  refine .of_record rfl (fun _ => rfl) rfl (by decide) fun r hr => ?_
  have hreceived := hr.optional "lastReceived" (o := s.lastReceived)
    (fun p _ => replaces_push p) (by simp)
  have hpending := hr.optional "pending" (o := s.pending) (fun p _ => replaces_push p) (by simp)
  have hstarted := hr.optional "lastTriggeredExecution" (o := s.lastTriggeredExecution)
    (fun e _ => replaces_started e) (by simp)
  have hcounter := hr.withDefault "triggerCounter" 0 (replaces_int64 h) (by simp)
  simp only [hreceived, hpending, hstarted, hcounter, Option.bind_eq_bind, Option.bind_some]
  rfl

/-! ## Conditions -/

/-- The numbers of a condition have 64 bits. -/
def Condition.Fits (c : Condition) : Prop := ∀ n ∈ c.observedGeneration, FitsInt64 n

/-- **A condition that is written is read back**; what it lacks is written as null.  Its numbers
have to fit the reader, which refuses more than 64 bits. -/
theorem Condition.read?_toJson {c : Condition} (h : c.Fits) :
    Condition.read? c.toJson = some c := by
  obtain ⟨r, hr, hshows⟩ : ∃ r,
      Record.at? ["type", "status", "reason", "message", "observedGeneration",
      "lastTransitionTime"] c.toJson = some r ∧ r.Shows c.toJson.objectMembers :=
    shows_obj rfl (by decide)
  have hmembers : c.toJson.objectMembers = [("type", .str c.type), ("status", .str c.status.name),
      ("reason", .str c.reason), ("message", .str c.message),
      ("observedGeneration", .ofOption .int c.observedGeneration),
      ("lastTransitionTime", .ofOption .ofInstant c.lastTransitionTime)] := rfl
  rw [hmembers] at hshows
  -- each field is found under its name and read back by the reader of its type
  have htype : r.required "type" Document.text? = some c.type :=
    hshows.required "type" (.str c.type) (by simp) rfl
  have hstatus : r.withDefault "status" ConditionStatus.unknown
      (fun d => (Document.choice? d).bind ConditionStatus.ofName?) = some c.status := by
    refine hshows.withDefault "status" ConditionStatus.unknown (.str c.status.name) (by simp) ?_
    cases c.status <;> rfl
  have hreason : r.withDefault "reason" "" Document.text? = some c.reason :=
    hshows.withDefault "reason" "" (.str c.reason) (by simp) rfl
  have hmessage : r.withDefault "message" "" Document.text? = some c.message :=
    hshows.withDefault "message" "" (.str c.message) (by simp) rfl
  have hgeneration : r.optional "observedGeneration" Document.int64? = some c.observedGeneration :=
    hshows.optional "observedGeneration" .int (by simp) fun n hn => ⟨nofun, int64?_int (h n hn)⟩
  have htime : r.optional "lastTransitionTime" Document.instant? = some c.lastTransitionTime :=
    hshows.optional "lastTransitionTime" .ofInstant (by simp) fun t _ =>
      ⟨nofun, instant?_ofInstant t⟩
  -- with all fields at hand the reader puts the condition together again
  unfold read?
  rw [hr]
  simp only [htype, hstatus, hreason, hmessage, hgeneration, htime, Option.bind_eq_bind,
    Option.bind_some]
  rfl

/-- The conditions take the place of those before, with every null in them. -/
theorem replaces_conditions {cs : List Condition} (h : ∀ c ∈ cs, c.Fits) :
    Replaces (Document.list? Condition.read?) (Json.ofList Condition.toJson) cs := by
  refine .of_value (Json.merge_of_not_obj nofun) nofun ?_
  show (cs.map Condition.toJson).mapM Condition.read? = some cs
  induction cs with
  | nil => rfl
  | cons c cs ih =>
    obtain ⟨hc, hcs⟩ := List.forall_mem_cons.mp h
    rw [List.map_cons, List.mapM_cons, Condition.read?_toJson hc, ih hcs]
    rfl

/-! ## The status -/

/-- The numbers of a status have 64 bits. -/
structure BuildRequestStatus.Fits (s : BuildRequestStatus) : Prop where
  observedGeneration : ∀ n ∈ s.observedGeneration, FitsInt64 n
  conditions : ∀ c ∈ s.conditions, c.Fits
  buildRunCounter : FitsInt64 s.buildRunCounter
  triggerCounter : ∀ state ∈ s.onCommit, FitsInt64 state.triggerCounter

/-- **A status** replaces the one before: nothing of that is left, and nothing of the new one is
lost.  Every field is sent, null if it has no value, and this is why no older field can stay. -/
theorem replaces_status {s : BuildRequestStatus} (h : s.Fits) :
    Replaces BuildRequestStatus.read? BuildRequestStatus.toJson s := by
  refine .of_record rfl (fun _ => rfl) rfl (by decide) fun r hr => ?_
  -- the readers of the eight fields, in the order in which the status is read
  have hgeneration := hr.optional "observedGeneration" (o := s.observedGeneration)
    (fun n hn => replaces_int64 (h.observedGeneration n hn)) (by simp)
  have htemplate := hr.optional "buildRef" (o := s.buildRef) (fun t _ => replaces_text t) (by simp)
  have hconditions := hr.withDefault "conditions" [] (replaces_conditions h.conditions) (by simp)
  have himage := hr.optional "latestImage" (o := s.latestImage)
    (fun t _ => replaces_text t) (by simp)
  have hlatest := hr.optional "lastBuildRunRef" (o := s.lastBuildRunRef)
    (fun t _ => replaces_text t)
    (by simp)
  have hcounter := hr.withDefault "buildRunCounter" 0 (replaces_int64 h.buildRunCounter) (by simp)
  have hbuilt := hr.optional "lastBuildSpec" (o := s.lastBuildSpec) (fun b _ => replaces_snapshot b)
    (by simp)
  have hpushes := hr.optional "onCommit" (o := s.onCommit)
    (fun state hstate => replaces_onCommit (h.triggerCounter state hstate)) (by simp)
  simp only [hgeneration, htemplate, hconditions, himage, hlatest, hcounter, hbuilt, hpushes,
    Option.bind_eq_bind, Option.bind_some]
  rfl

/-- The conditions of a status are as they were written, whatever it was merged into.  A list is no
object, so that it is never merged entry by entry. -/
theorem conditions_merged (old : Json) (s : BuildRequestStatus) :
    (merge old s.toJson).field? "conditions" =
      some (Json.ofList Condition.toJson s.conditions) := by
  have hmem : ("conditions", Json.ofList Condition.toJson s.conditions) ∈
      s.toJson.objectMembers := by
    simp [BuildRequestStatus.toJson, Json.objectMembers]
  have hdistinct : (s.toJson.objectMembers.map (·.1)).Nodup := by
    show ["observedGeneration", "buildRef", "conditions", "latestImage", "lastBuildRunRef",
      "buildRunCounter", "lastBuildSpec", "onCommit"].Nodup
    decide
  have hmerge : merge old s.toJson = .obj (mergeMembers old.objectMembers s.toJson.objectMembers) :=
    Json.merge_obj _ _
  have hlist : Json.ofList Condition.toJson s.conditions =
      .arr (s.conditions.map Condition.toJson) := rfl
  rw [hlist] at hmem ⊢
  -- whatever conditions were there
  have hkept : ∀ v, merge v (.arr (s.conditions.map Condition.toJson)) =
      .arr (s.conditions.map Condition.toJson) := Json.merge_of_not_obj nofun
  rw [hmerge, Json.field?_mergeMembers hdistinct hmem nofun, hkept]

/-! ## The request -/

/-- **Metadata** after a change of the version are the same but for that. -/
theorem metadata_merged {members : List (String × Json)} {m : Metadata} (version : Option String)
    (h : Metadata.read? (Json.obj members) = some m) :
    Metadata.read?
      (Json.obj (mergeMembers members [("resourceVersion", Json.ofOption .str version)])) =
      some { m with resourceVersion := version } := by
  let r : Record Json := ⟨Json.lastMembers members⟩
  let r' : Record Json :=
    ⟨Json.lastMembers (mergeMembers members [("resourceVersion", Json.ofOption .str version)])⟩
  have hsame : ∀ {α : Type} {read : Json → Option α} (name : String), name ≠ "resourceVersion" →
      r'.optional name read = r.optional name read := by
    intro α read name hname
    refine Record.optional_congr (Record.find?_congr ?_)
    show only name (Json.lastMembers _) = only name (Json.lastMembers _)
    rw [Json.only_lastMembers, Json.only_lastMembers,
      Json.only_mergeMembers_of_not_mem (by simpa using hname)]
  have hversion : r'.optional "resourceVersion" Document.text? = some version := by
    have honly : only "resourceVersion" (mergeMembers members
        [("resourceVersion", Json.ofOption Json.str version)]) = _ :=
      Json.only_mergeMembers (by simp) List.mem_cons_self
    cases version with
    | none =>
      refine Record.optional_of_absent (Or.inl (Record.find?_of_only_nil ?_))
      show only _ (Json.lastMembers _) = []
      rw [Json.only_lastMembers, honly]
      rfl
    | some version =>
      have hfind : r'.find? "resourceVersion" = some (some (.str version)) := by
        refine Record.find?_of_only ?_
        show only _ (Json.lastMembers _) = _
        rw [Json.only_lastMembers, honly]
        rfl
      exact Record.optional_of_find? hfind nofun rfl
  -- field by field, each is read as before
  have hkept : ∀ {α β γ : Type} {read : Json → Option α} {f : Option α → Option β}
      {f' : Option α → Option γ} {b : β} {b' : γ} {name : String},
      (r.optional name read >>= f) = some b →
      name ≠ "resourceVersion" → (∀ a, f a = some b → f' a = some b') →
      (r'.optional name read >>= f') = some b' := by
    intro α β γ read f f' b b' name h hname hnext
    obtain ⟨a, ha, h⟩ := Option.bind_eq_some_iff.mp h
    rw [hsame name hname, ha]
    exact hnext a h
  have h : (r.optional "annotations" (Document.map? Document.text?) >>= _) = some m := h
  refine hkept h (by decide) fun annotations h => ?_
  refine hkept h (by decide) fun creation h => ?_
  refine hkept h (by decide) fun grace h => ?_
  refine hkept h (by decide) fun deletion h => ?_
  refine hkept h (by decide) fun finalizers h => ?_
  refine hkept h (by decide) fun generateName h => ?_
  refine hkept h (by decide) fun generation h => ?_
  refine hkept h (by decide) fun labels h => ?_
  refine hkept h (by decide) fun managed h => ?_
  refine hkept h (by decide) fun name h => ?_
  refine hkept h (by decide) fun place h => ?_
  refine hkept h (by decide) fun owners h => ?_
  obtain ⟨_, -, h⟩ := Option.bind_eq_some_iff.mp h
  rw [hversion]
  refine hkept h (by decide) fun link h => ?_
  refine hkept h (by decide) fun uid h => ?_
  obtain rfl := Option.some.inj h
  rfl

/-- Metadata are read from objects only. -/
theorem exists_obj_of_metadata {d : Json} {m : Metadata} (h : Metadata.read? d = some m) :
    ∃ members, d = .obj members := by
  cases d with
  | obj members => exact ⟨members, rfl⟩
  | _ => cases h

/-- The status that an object shows. -/
def BuildRequest.readStatus? (d : Json) : Option (Option BuildRequestStatus) := do
  let r ← Record.at? ["metadata", "spec", "status"] d
  r.optional "status" BuildRequestStatus.read?

/-- What a patch of the status changes. -/
def Cluster.statusChanges (request : BuildRequest) : List (String × Json) :=
  [("metadata", .obj [("resourceVersion", .ofOption .str request.metadata.resourceVersion)]),
    ("status", .ofOption BuildRequestStatus.toJson request.status)]

/-- The patch that is sent for a status is the object of these changes. -/
theorem Cluster.statusPatch_eq (request : BuildRequest) :
    Cluster.statusPatch request = .obj (statusChanges request) := rfl

section

variable {request stored : BuildRequest} {members : List (String × Json)}

theorem statusChanges_distinct (request : BuildRequest) :
    ((Cluster.statusChanges request).map (·.1)).Nodup := by
  show (["metadata", "status"] : List String).Nodup
  decide

/-- The status that is read after a patch is the one that was sent, whatever was there.  The object
on the server need not even be a request. -/
theorem readStatus?_patched (hfits : ∀ n ∈ request.status, n.Fits)
    (members : List (String × Json)) :
    BuildRequest.readStatus? (merge (.obj members) (Cluster.statusPatch request)) =
      some request.status := by
  obtain ⟨r, hr, hfollows⟩ : ∃ r, Record.at? ["metadata", "spec", "status"]
      (Json.obj (mergeMembers members (Cluster.statusChanges request))) = some r ∧
        r.Follows (Cluster.statusChanges request) :=
    follows_merge (statusChanges_distinct request) (by simp [Cluster.statusChanges]) members
  have hread : r.optional "status" BuildRequestStatus.read? = some request.status :=
    hfollows.optional "status" (fun n hn => replaces_status (hfits n hn))
      (by simp [Cluster.statusChanges])
  rw [Cluster.statusPatch_eq, Json.merge_obj]
  unfold BuildRequest.readStatus?
  rw [show (Json.obj members).objectMembers = members from rfl, hr]
  exact hread

/-- The request that is read after a patch is the one that was there, but for the status and the
version. -/
theorem read?_patched (hfits : ∀ n ∈ request.status, n.Fits)
    (h : BuildRequest.read? (Json.obj members) = some stored) :
    BuildRequest.read? (merge (.obj members) (Cluster.statusPatch request)) =
      some { stored with
        metadata := { stored.metadata with resourceVersion := request.metadata.resourceVersion }
        status := request.status } := by
  let names := ["metadata", "spec", "status"]
  let r : Record Json := ⟨members.filter fun f => names.contains f.1⟩
  let r' : Record Json :=
    ⟨(mergeMembers members (Cluster.statusChanges request)).filter fun f => names.contains f.1⟩
  have h : (r.required "metadata" Metadata.read? >>= _) = some stored := h
  obtain ⟨m, hm, h⟩ := Option.bind_eq_some_iff.mp h
  obtain ⟨spec, hspec, h⟩ := Option.bind_eq_some_iff.mp h
  obtain ⟨status, -, h⟩ := Option.bind_eq_some_iff.mp h
  obtain rfl := Option.some.inj h
  have hm' : r'.required "metadata" Metadata.read? =
      some { m with resourceVersion := request.metadata.resourceVersion } := by
    -- the metadata are an object, and the patch changes its version
    obtain ⟨d, honly, hread⟩ := Record.required_eq_some hm
    obtain ⟨inner, rfl⟩ := exists_obj_of_metadata hread
    rw [show Json.only "metadata" r.fields = Json.only "metadata" members from
      Record.only_filter_contains (by decide) members] at honly
    have hmerged : Json.only "metadata" r'.fields = [("metadata", .obj (mergeMembers inner
        [("resourceVersion", .ofOption .str request.metadata.resourceVersion)]))] := by
      rw [show Json.only "metadata" r'.fields =
        Json.only "metadata" (mergeMembers members (Cluster.statusChanges request)) from
          Record.only_filter_contains (by decide) _,
        Json.only_mergeMembers (statusChanges_distinct request) List.mem_cons_self, if_neg nofun,
        Json.field?_eq, honly]
      exact congrArg (fun v => [("metadata", v)]) (Json.merge_obj _ _)
    exact (Record.required_of_find? (Record.find?_of_only hmerged)).trans (metadata_merged _ hread)
  have hspec' : r'.required "spec" BuildRequestSpec.read? = some spec := by
    refine (Record.required_congr (Record.find?_congr ?_)).trans hspec
    rw [show Json.only "spec" r'.fields =
      Json.only "spec" (mergeMembers members (Cluster.statusChanges request)) from
        Record.only_filter_contains (by decide) _,
      show Json.only "spec" r.fields = Json.only "spec" members from
        Record.only_filter_contains (by decide) members]
    exact Json.only_mergeMembers_of_not_mem (by simp [Cluster.statusChanges])
  have hstatus' : r'.optional "status" BuildRequestStatus.read? = some request.status :=
    readStatus?_patched hfits members
  show (r'.required "metadata" Metadata.read? >>= _) = _
  rw [hm']
  show (r'.required "spec" BuildRequestSpec.read? >>= _) = _
  rw [hspec']
  show (r'.optional "status" BuildRequestStatus.read? >>= _) = _
  rw [hstatus']
  rfl

/-- **A status that is written replaces the one that was there.**  The patch for a status, merged
into any object whatever, gives one whose status is the new one, all of its conditions as they were
written.  A request on the server keeps all else but its version, and so becomes what the store in
memory makes of it. -/
theorem status_patch_replaces (c : Cluster) (hfits : ∀ n ∈ request.status, n.Fits) :
    ∃ body, ((StoreCall.updateRequestStatus request).request c).body = some body ∧
      (∀ members, BuildRequest.readStatus? (merge (.obj members) body) = some request.status) ∧
      (∀ members, ∀ n ∈ request.status,
        ((merge (.obj members) body).field? "status").bind (·.field? "conditions") =
          some (Json.ofList Condition.toJson n.conditions)) ∧
      ∀ members stored, BuildRequest.read? (Json.obj members) = some stored →
        BuildRequest.read? (merge (.obj members) body) = some { stored with
          metadata := { stored.metadata with resourceVersion := request.metadata.resourceVersion }
          status := request.status } ∧
        ∀ (s t : MemoryStore) (written : BuildRequest), s.requests.get? request.key = some stored →
          s.updateRequestStatus request = (.ok written, t) →
          t.requests.get? request.key = some written ∧ written.status = request.status ∧
            BuildRequest.read? (merge (.obj members) body) = some { written with
              metadata := { written.metadata with
                resourceVersion := request.metadata.resourceVersion } } := by
  refine ⟨Cluster.statusPatch request, rfl, readStatus?_patched hfits, fun members n hn => ?_,
    fun members stored hread => ?_⟩
  · -- the conditions on the server
    have hmem : ("status", n.toJson) ∈ Cluster.statusChanges request := by
      rw [Cluster.statusChanges, Option.mem_def.mp hn]
      exact List.mem_cons_of_mem _ List.mem_cons_self
    have hmerge : merge (.obj members) (Cluster.statusPatch request) =
        .obj (mergeMembers members (Cluster.statusChanges request)) := Json.merge_obj _ _
    rw [hmerge, Json.field?_mergeMembers (statusChanges_distinct request) hmem nofun,
      Option.bind_some]
    exact conditions_merged _ n
  · -- the request on the server, and beside it what the store in memory makes of the same write
    have hpatched := read?_patched hfits hread
    refine ⟨hpatched, fun s t written hstored hwrite => ?_⟩
    obtain ⟨-, -, old, hold, -, hwritten, ht, -⟩ := MemoryStore.updateRequestStatus_eq hwrite
    obtain rfl := Option.some.inj (hstored.symm.trans hold)
    refine ⟨?_, ?_, ?_⟩
    · rw [ht, SortedMap.get?_insert, if_pos rfl]
    · rw [hwritten]
      rfl
    · rw [hpatched, hwritten]
      rfl

end

/-! ## A run -/

/-- A push waits, and nothing was started by one. -/
def waitingRequest : BuildRequest where
  metadata := { name := some "app", «namespace» := some "default", resourceVersion := some "7" }
  spec := { rebuild := some .onCommit }
  status := some {
    latestImage := some "registry/app:1"
    onCommit := some {
      lastReceived := some ⟨"refs/heads/main", "c1", Instant.epoch⟩
      pending := some ⟨"refs/heads/main", "c1", Instant.epoch⟩ } }

/-- The push was started, and no image is known any more. -/
def startedRequest : BuildRequest :=
  waitingRequest.restated {
    conditions := [{ type := Condition.ready, reason := "Started" }]
    lastBuildRunRef := some "app-buildrun-oncommit-1"
    onCommit := some {
      lastReceived := some ⟨"refs/heads/main", "c1", Instant.epoch⟩
      lastTriggeredExecution := some ⟨"app-buildrun-oncommit-1", Instant.epoch⟩
      triggerCounter := 1 } }

/-- Its numbers have 64 bits. -/
theorem startedRequest_fits : ∀ n ∈ startedRequest.status, n.Fits := by
  intro n hn
  obtain rfl := Option.some.inj hn
  refine ⟨nofun, ?_, by decide, ?_⟩
  · intro c hc
    obtain rfl := List.mem_singleton.mp hc
    exact nofun
  · intro state hstate
    obtain rfl := Option.some.inj hstate
    decide

/-- A store in memory with the request whose push waits. -/
def waitingStore : MemoryStore where
  requests := SortedMap.empty.insert waitingRequest.key waitingRequest

/-- Once the push was started, nothing is left of what waited and of the image, on the server and in
memory. -/
theorem status_patch_replaces_started : ∃ body written t,
    ((StoreCall.updateRequestStatus startedRequest).request {}).body = some body ∧
    waitingStore.updateRequestStatus startedRequest = (.ok written, t) ∧
    written.status = startedRequest.status ∧
    BuildRequest.read? (merge waitingRequest.toJson body) =
      some { written with metadata := { written.metadata with resourceVersion := some "7" } } := by
  have hread : BuildRequest.read? (Json.obj waitingRequest.toJson.objectMembers) =
      some waitingRequest := by
    decide +kernel
  have hstored : waitingStore.requests.get? startedRequest.key = some waitingRequest := by
    decide +kernel
  obtain ⟨written, t, hwrite⟩ : ∃ written t,
      waitingStore.updateRequestStatus startedRequest = (.ok written, t) := ⟨_, _, rfl⟩
  -- the same request is patched on the server and written in memory
  obtain ⟨body, hbody, -, -, hall⟩ := status_patch_replaces {} startedRequest_fits
  obtain ⟨-, hmemory⟩ := hall _ _ hread
  obtain ⟨-, hstatus, hserver⟩ := hmemory _ _ _ hstored hwrite
  exact ⟨body, written, t, hbody, hwrite, hstatus, hserver⟩

end PushBuild
