import Mathlib.Data.List.Basic
import PushBuild.Proofs.OnCommit.Change
import PushBuild.Proofs.Store.Order
import PushBuild.Proofs.Webhook.Recorded

/-!
# What a delivery does to a store

While nobody else writes, what a delivery does is known from the store it finds and from the calls
that fail.

1. **Who waits.**  The requests that are listed and match are those that carry the label, are built
   by pushes and name the repository and the ref of the push (`MemoryStore.awaiting`).  Of these the
   delivery accepts those whose secret is there and authenticates it (`MemoryStore.accepting`).
2. **Changes.**  A status that is changed while nobody else writes is changed once, and nothing else
   (`Modified.alone`); a change that fails leaves everything but the counters (`Unmodified.alone`).
3. **Records.**  The push is recorded on some requests, one after the other, and is then recorded on
   all of them, or on those before one whose record failed (`recorded_alone`).
4. **Questions.**  Before anything is recorded, only questions are asked (`Asked.answered`), so a
   delivery that is refused, or fails until then, has changed nothing (`Alone.answered`).
5. **The effect** (`accept_effect`).  One row for each way in which a delivery can end.
-/

namespace PushBuild

/-! ## Who waits -/

/-- The requests that carry the label of those that pushes build, and wait for this push. -/
def MemoryStore.awaiting (s : MemoryStore) (event : PushEvent) : List BuildRequest :=
  s.requests.values.filter fun r =>
    r.metadata.label? onCommitLabel == some "true" && Delivery.concerns event r

/-- The secret that a request names is there, as is its key, and authenticates the delivery. -/
def Delivery.authenticIn (d : Delivery) (provider : Provider) (s : MemoryStore) (r : BuildRequest) :
    Bool :=
  match r.spec.onCommit with
  | none => false
  | some secret => d.opens provider secret (s.secrets.get? ⟨r.namespace, secret.name⟩)

/-- The requests on which a delivery of this push is to be recorded. -/
def MemoryStore.accepting (s : MemoryStore) (d : Delivery) (provider : Provider)
    (event : PushEvent) :
    List BuildRequest :=
  (s.awaiting event).filter (d.authenticIn provider s)

/-- The selector of a delivery asks for one label. -/
theorem Metadata.isSelectedBy_selector (m : Metadata) :
    m.isSelectedBy Delivery.selector = (m.label? onCommitLabel == some "true") := by
  have hterms : selectorTerms Delivery.selector = [(onCommitLabel, "true")] := by decide +kernel
  simp [Metadata.isSelectedBy, hterms]

/-- What is listed and matched is what waits. -/
theorem MemoryStore.filter_listed (s : MemoryStore) (event : PushEvent) :
    (s.requests.values.filter fun r => r.metadata.isSelectedBy Delivery.selector).filter
      (Delivery.concerns event) = s.awaiting event := by
  rw [List.filter_filter, awaiting]
  refine List.filter_congr fun r _ => ?_
  rw [Metadata.isSelectedBy_selector, Bool.and_comm]

/-! ## Changes -/

/-- The store `t` is `s`, except for the requests and for what it counts. -/
def MemoryStore.KeepsOthers (s t : MemoryStore) : Prop :=
  t = { s with requests := t.requests, lastVersion := t.lastVersion, conflicts := t.conflicts }

namespace MemoryStore

variable {s t u : MemoryStore}

/-- What only counts leaves the requests as they are. -/
theorem Recounts.requests_eq (h : s.Recounts t) : t.requests = s.requests := by
  unfold Recounts at h
  have hrequests := congrArg requests h
  exact hrequests

/-- If only counters change, all else is kept. -/
theorem Recounts.keepsOthers (h : s.Recounts t) : s.KeepsOthers t := by
  unfold KeepsOthers
  rw [h.requests_eq]
  exact h

/-- The executions are among what is kept. -/
theorem KeepsOthers.executions_eq (h : s.KeepsOthers t) : t.executions = s.executions := by
  unfold KeepsOthers at h
  have hexecutions := congrArg executions h
  exact hexecutions

/-- What two steps keep, both together keep. -/
theorem KeepsOthers.trans (h : s.KeepsOthers t) (h' : t.KeepsOthers u) : s.KeepsOthers u := by
  unfold KeepsOthers at *
  rw [h'] at ⊢
  rw [h]

/-- A status write that succeeds changes the requests only. -/
theorem keepsOthers_of_updated {request written : BuildRequest}
    (h : s.updateRequestStatus request = (.ok written, t)) : s.KeepsOthers t := by
  unfold updateRequestStatus at h
  split at h
  · cases (Prod.mk.inj h).1
  · simp only [takeVersion] at h
    split at h
    · cases (Prod.mk.inj h).1
    · split at h
      · obtain ⟨-, rfl⟩ := Prod.mk.inj h
        rfl
      · cases (Prod.mk.inj h).1

end MemoryStore

/-- What an attempt that failed consists of. -/
def Act.IsAttempt : Act → Prop
  | .sleep _ | .getRequest .. => True
  | .updateRequestStatus _ answer => ∃ e, answer = .error e
  | _ => False

/-- An attempt that failed asked, or its write was refused. -/
theorem Act.IsAttempt.asksOrIsRefused {act : Act} (h : act.IsAttempt) : act.AsksOrIsRefused := by
  cases act <;> first
    | exact h
    | exact h.elim

section

variable {key : ObjectKey} {change : StatusChange} {before acts : List Act}

/-- Attempts that failed, and nothing else, were made since. -/
theorem Retried.attempts (h : Retried key change before acts) :
    ∃ more, acts = more ++ before ∧ ∀ act ∈ more, act.IsAttempt := by
  induction h with
  | start => exact ⟨[], rfl, fun _ h => absurd h List.not_mem_nil⟩
  | @unread _ e time _ ih =>
    obtain ⟨more, rfl, hmore⟩ := ih
    refine ⟨.sleep time :: .getRequest key (.error e) :: more, rfl, ?_⟩
    exact List.forall_mem_cons.mpr ⟨trivial, List.forall_mem_cons.mpr ⟨trivial, hmore⟩⟩
  | @refused _ r status e time _ _ ih =>
    obtain ⟨more, rfl, hmore⟩ := ih
    refine ⟨.sleep time :: .updateRequestStatus (r.restated status) (.error e) ::
      .getRequest key (.ok (some r)) :: more, rfl, ?_⟩
    exact List.forall_mem_cons.mpr ⟨trivial, List.forall_mem_cons.mpr ⟨⟨e, rfl⟩,
      List.forall_mem_cons.mpr ⟨trivial, hmore⟩⟩⟩

end

section

variable {key : ObjectKey} {change : StatusChange} {s t : MemoryStore} {before ext : List Exchange}

/-- Exchanges whose acts are attempts that failed change counters only. -/
theorem Alone.attempted (h : Alone s ext t) (hholds : ∀ x ∈ ext, x.Holds)
    (hacts : ∀ act ∈ actsIn ext, act.IsAttempt) : s.Recounts t :=
  h.refused fun x hx => ⟨hholds x hx, (hacts _ (List.mem_map_of_mem hx)).asksOrIsRefused⟩

/-- What was done between, of all that was done. -/
theorem actsIn_between {more : List Act} (h : actsIn (ext ++ before) = more ++ actsIn before) :
    actsIn ext = more := by
  rw [actsIn_append] at h
  exact List.append_cancel_right h

/-- What was done in two steps is what was done in the first and then in the second. -/
theorem eq_append_of_steps {xs ys : List Exchange} (h : ys ++ (xs ++ before) = ext ++ before) :
    ext = ys ++ xs := by
  rw [← List.append_assoc] at h
  exact (List.append_cancel_right h).symm

/-- **A change that fails**, while nobody else writes, changes counters only.  Its last call
failed. -/
theorem Unmodified.alone {e : StoreError}
    (h : Unmodified key change (actsIn before) e (actsIn (ext ++ before)))
    (hholds : ∀ x ∈ ext, x.Holds) (halone : Alone s ext t) :
    s.Recounts t ∧ (∀ act ∈ actsIn ext, act.IsAttempt) ∧
      ∃ act ∈ (actsIn ext).head?, act = .getRequest key (.error e) ∨
        ∃ (r : BuildRequest) (status : BuildRequestStatus),
          act = .updateRequestStatus (r.restated status) (.error e) := by
  -- there are two ways for a change to fail, at the read of the last attempt and at its write, and
  -- the attempts before it all failed
  generalize hacts : actsIn (ext ++ before) = acts at h
  cases h with
  | unread h =>
    obtain ⟨more, rfl, hmore⟩ := h.attempts
    have hext : actsIn ext = .getRequest key (.error e) :: more := actsIn_between hacts
    have hattempts : ∀ act ∈ actsIn ext, act.IsAttempt := by
      rw [hext]
      exact List.forall_mem_cons.mpr ⟨trivial, hmore⟩
    exact ⟨halone.attempted hholds hattempts, hattempts, _, by rw [hext]; rfl, Or.inl rfl⟩
  | @refused _ r status _ h _ =>
    obtain ⟨more, rfl, hmore⟩ := h.attempts
    have hext : actsIn ext = .updateRequestStatus (r.restated status) (.error e) ::
        .getRequest key (.ok (some r)) :: more := actsIn_between hacts
    have hattempts : ∀ act ∈ actsIn ext, act.IsAttempt := by
      rw [hext]
      exact List.forall_mem_cons.mpr ⟨⟨e, rfl⟩, List.forall_mem_cons.mpr ⟨trivial, hmore⟩⟩
    exact ⟨halone.attempted hholds hattempts, hattempts, _, by rw [hext]; rfl,
      Or.inr ⟨r, status, rfl⟩⟩

/-- **A change that is made**, while nobody else writes, is made to the request as it was found, and
changes nothing else. -/
theorem Modified.alone {r : BuildRequest} {found : Option BuildRequest}
    {status : BuildRequestStatus}
    (h : Modified r.key change (actsIn before) found (actsIn (ext ++ before)))
    (hholds : ∀ x ∈ ext, x.Holds) (halone : Alone s ext t) (hr : s.requests.get? r.key = some r)
    (hchange : change r r.statusOrDefault = some status) :
    s.KeepsOthers t ∧ (∀ act ∈ actsIn ext, act.IsAttempt ∨ ∃ request w,
        act = .updateRequestStatus request (.ok w)) ∧
      t.requests = s.requests.insert r.key ((r.restated status).withVersion t.lastVersion) := by
  -- what is read after attempts that failed is what was found at first
  have hread :
      ∀ {ys : List Exchange} {g : Exchange} {u : MemoryStore} {answer : Option BuildRequest},
      Alone s (g :: ys) u → (∀ y ∈ g :: ys, y ∈ ext) → (∀ act ∈ actsIn ys, act.IsAttempt) →
      g.act = .getRequest r.key (.ok answer) → answer = some r ∧ s.Recounts u := by
    rintro ys g _ answer ⟨rfl, hbefore⟩ hext hys hact
    obtain ⟨hg, hys'⟩ := List.forall_mem_cons.mp hext
    have hsame : s.Recounts g.before := hbefore.attempted (fun y hy => hholds y (hys' y hy)) hys
    obtain ⟨hanswer, hafter⟩ := Prod.mk.inj ((hholds g hg).answer (.getRequest r.key) hact)
    have hget : g.before.requests.get? r.key = answer := Except.ok.inj hanswer
    rw [hsame.requests_eq, hr] at hget
    exact ⟨hget.symm, hafter ▸ hsame⟩
  generalize hacts : actsIn (ext ++ before) = acts at h
  cases h with
  | gone h =>
    obtain ⟨more, rfl, hmore⟩ := h.attempts
    have hext : actsIn ext = _ :: more := actsIn_between hacts
    obtain ⟨g, ys, rfl, hg, rfl⟩ := List.map_eq_cons_iff.mp hext
    have hfound := (hread halone (fun y hy => hy) hmore hg).1
    cases hfound
  | @unchanged _ r' h hnone =>
    obtain ⟨more, rfl, hmore⟩ := h.attempts
    have hext : actsIn ext = _ :: more := actsIn_between hacts
    obtain ⟨g, ys, rfl, hg, rfl⟩ := List.map_eq_cons_iff.mp hext
    obtain rfl := Option.some.inj (hread halone (fun y hy => hy) hmore hg).1
    cases hnone.symm.trans hchange
  | @written _ r' w status' h hsome =>
    obtain ⟨more, rfl, hmore⟩ := h.attempts
    have hext : actsIn ext = .updateRequestStatus (r'.restated status') (.ok w) ::
        .getRequest r.key (.ok (some r')) :: more := actsIn_between hacts
    obtain ⟨u, zs, rfl, hu, hzs⟩ := List.map_eq_cons_iff.mp hext
    obtain ⟨g, ys, rfl, hg, rfl⟩ := List.map_eq_cons_iff.mp hzs
    obtain ⟨rfl, hbefore⟩ := halone
    obtain ⟨hfound, hsame⟩ :=
      hread hbefore (fun y hy => List.mem_cons_of_mem _ hy) hmore hg
    obtain rfl := Option.some.inj hfound
    obtain rfl := Option.some.inj (hsome.symm.trans hchange)
    have hwrite :=
      (hholds u List.mem_cons_self).answer (.updateRequestStatus (r'.restated status')) hu
    obtain ⟨-, -, old, hold, -, hwritten, hafter, -⟩ := MemoryStore.updateRequestStatus_eq hwrite
    have hplace : (r'.restated status').key = r'.key := rfl
    rw [hplace, hsame.requests_eq, hr] at hold
    obtain rfl := Option.some.inj hold
    refine ⟨hsame.keepsOthers.trans (MemoryStore.keepsOthers_of_updated hwrite), ?_, ?_⟩
    · rw [hext]
      refine List.forall_mem_cons.mpr ⟨Or.inr ⟨_, _, rfl⟩, ?_⟩
      exact List.forall_mem_cons.mpr ⟨Or.inl trivial, fun act hact => Or.inl (hmore act hact)⟩
    · rw [hafter, hsame.requests_eq, hwritten]
      rfl

end

/-! ## Records -/

/-- A question that is asked before anything is recorded failed. -/
def Act.Unread (e : StoreError) : Act → Prop
  | .listRequests _ answer => answer = .error e
  | .getSecret _ answer => answer = .error e
  | _ => False

/-- A call that records failed. -/
def Act.Unrecorded (e : StoreError) : Act → Prop
  | .getRequest _ answer => answer = .error e
  | .updateRequestStatus _ answer => answer = .error e
  | _ => False

/-- An attempt asks for one request, which no delivery does before it records. -/
theorem Act.IsAttempt.not_unread {act : Act} (h : act.IsAttempt) (e : StoreError) :
    ¬ act.Unread e := by
  cases act <;> first
    | exact fun hunread => hunread
    | exact h.elim

/-- The request once it waits for this push, received at this time. -/
def BuildRequest.withPush (r : BuildRequest) (event : PushEvent) (time : Instant) : BuildRequest :=
  r.restated { r.statusOrDefault with
    onCommit := some { r.statusOrDefault.trigger with
      lastReceived := some ⟨event.ref, event.commit, time⟩
      pending := some ⟨event.ref, event.commit, time⟩ } }

/-- From the store `s` to the store `t` the push was recorded on the requests `rs`, each at a time
that was read, and nothing else was changed. -/
structure RecordsOn (event : PushEvent) (xs : List Exchange) (s t : MemoryStore)
    (rs : List BuildRequest) : Prop where
  written : ∀ r ∈ rs, ∃ time version, .now time ∈ actsIn xs ∧
    t.requests.get? r.key = some ((r.withPush event time).withVersion version)
  others : ∀ key, (∀ r ∈ rs, r.key ≠ key) → t.requests.get? key = s.requests.get? key
  keeps : s.KeepsOthers t

section

variable {event : PushEvent} {xs ys before ext : List Exchange} {s t u : MemoryStore}

/-- Where only counters change, the push was recorded on no request. -/
theorem MemoryStore.Recounts.recordsOn (h : s.Recounts t) : RecordsOn event xs s t [] :=
  ⟨fun _ hr => absurd hr List.not_mem_nil, fun _ _ => by rw [h.requests_eq], h.keepsOthers⟩

/-- Further exchanges do not take the times away at which the push was received. -/
theorem RecordsOn.mono {rs : List BuildRequest} (h : RecordsOn event xs s t rs)
    (hacts : ∀ act ∈ actsIn xs, act ∈ actsIn ys) : RecordsOn event ys s t rs := by
  refine ⟨fun r hr => ?_, h.others, h.keeps⟩
  obtain ⟨time, version, htime, hwritten⟩ := h.written r hr
  exact ⟨time, version, hacts _ htime, hwritten⟩

/-- One request after the other. -/
theorem RecordsOn.cons {r : BuildRequest} {rs : List BuildRequest} (h : RecordsOn event xs s u [r])
    (h' : RecordsOn event ys u t rs) (hdistinct : ∀ r' ∈ rs, r.key ≠ r'.key) :
    RecordsOn event (ys ++ xs) s t (r :: rs) := by
  refine ⟨fun r' hr' => ?_, fun key hkey => ?_, h.keeps.trans h'.keeps⟩
  · -- what was recorded first stays, because the requests have different keys
    rcases List.mem_cons.mp hr' with rfl | hr'
    · obtain ⟨time, version, htime, hwritten⟩ := h.written r' List.mem_cons_self
      refine ⟨time, version, actsIn_mono (List.suffix_append ys xs) htime, ?_⟩
      rw [h'.others _ fun r'' hr'' => (hdistinct r'' hr'').symm, hwritten]
    · obtain ⟨time, version, htime, hwritten⟩ := h'.written r' hr'
      refine ⟨time, version, ?_, hwritten⟩
      rw [actsIn_append]
      exact List.mem_append_left _ htime
  · obtain ⟨hfirst, hrest⟩ := List.forall_mem_cons.mp hkey
    rw [h'.others key hrest, h.others key fun r' hr' => List.mem_singleton.mp hr' ▸ hfirst]

variable {retry : RetryPolicy}

/-- **A record**, while nobody else writes. -/
theorem record_alone {r : BuildRequest} {result : Except WebhookError Unit}
    (h : (Delivery.record retry event r).run.Runs before (ext ++ before) result)
    (hholds : ∀ x ∈ ext, x.Holds) (halone : Alone s ext t) (hr : s.requests.get? r.key = some r)
    (hmode : r.isOnCommit = true) :
    (∀ act ∈ actsIn ext, ∀ e, ¬ act.Unread e) ∧
    ((result = .ok () ∧ RecordsOn event ext s t [r]) ∨
      ∃ e, result = .error (.store e) ∧ (∃ act ∈ (actsIn ext).head?, act.Unrecorded e) ∧
        RecordsOn event ext s t []) := by
  obtain ⟨n, time, hact, hn, ⟨ext', hsuffix⟩, hend⟩ := runs_record h
  -- the clock is read first, and then the status is changed
  obtain rfl : ext = ext' ++ [n] := eq_append_of_steps hsuffix
  obtain ⟨_, hfirst, hchange⟩ := alone_append.mp halone
  obtain rfl := hfirst.asked fun x hx => by
    obtain rfl := List.mem_singleton.mp hx
    exact ⟨hn, by rw [hact]; trivial⟩
  have hholds' : ∀ x ∈ ext', x.Holds := fun x hx => hholds x (List.mem_append_left _ hx)
  have hacts : actsIn (ext' ++ [n]) = actsIn ext' ++ [.now time] := by
    rw [actsIn_append, actsIn, actsIn, List.map_singleton, hact]
  have htime : .now time ∈ actsIn (ext' ++ [n]) := by
    rw [hacts]
    exact List.mem_append_right _ List.mem_cons_self
  have hunread : (∀ act ∈ actsIn ext', ∀ e, ¬ act.Unread e) →
      ∀ act ∈ actsIn (ext' ++ [n]), ∀ e, ¬ act.Unread e := by
    rw [hacts]
    exact fun h => List.forall_mem_append.mpr ⟨h, List.forall_mem_singleton.mpr fun _ h => h⟩
  rw [← hsuffix] at hend
  rcases hend with ⟨rfl, found, hmodified⟩ | ⟨e, rfl, hunmodified⟩
  · have hstatus : event.changeOnCommit time r r.statusOrDefault =
        (r.withPush event time).status := if_pos hmode
    obtain ⟨hkeeps, hdone, hrequests⟩ := hmodified.alone hholds' hchange hr hstatus
    refine ⟨hunread fun act hact e => ?_,
      Or.inl ⟨rfl, fun r' hr' => ?_, fun key hkey => ?_, hkeeps⟩⟩
    · rcases hdone act hact with hattempt | ⟨_, _, rfl⟩
      · exact hattempt.not_unread e
      · exact fun h => h
    · obtain rfl := List.mem_singleton.mp hr'
      exact ⟨time, _, htime, by rw [hrequests, SortedMap.get?_insert, if_pos rfl]; rfl⟩
    · rw [hrequests, SortedMap.get?_insert, if_neg (Ne.symm (hkey r List.mem_cons_self))]
  · obtain ⟨hsame, hattempts, act, hlast, hfailed⟩ := hunmodified.alone hholds' hchange
    refine ⟨hunread fun act hact e => (hattempts act hact).not_unread e,
      Or.inr ⟨e, rfl, ⟨act, ?_, ?_⟩, hsame.recordsOn⟩⟩
    · rw [hacts]
      exact List.mem_head?_append_of_mem_head? hlast
    · rcases hfailed with rfl | ⟨_, _, rfl⟩
      · rfl
      · rfl

/-- **Records on some requests**, one after the other, while nobody else writes: on all of them, or
on those before one whose record failed. -/
theorem recorded_alone {rs : List BuildRequest} {result : Except WebhookError Unit}
    (h : (rs.forM (Delivery.record retry event)).run.Runs before (ext ++ before) result)
    (hholds : ∀ x ∈ ext, x.Holds) (halone : Alone s ext t)
    (hstored : ∀ r ∈ rs, s.requests.get? r.key = some r) (hmode : ∀ r ∈ rs, r.isOnCommit = true)
    (hdistinct : rs.Pairwise fun r r' => r.key ≠ r'.key) :
    (∀ act ∈ actsIn ext, ∀ e, ¬ act.Unread e) ∧
    ((result = .ok () ∧ RecordsOn event ext s t rs) ∨
      ∃ done r rest e, rs = done ++ r :: rest ∧ result = .error (.store e) ∧
        (∃ act ∈ (actsIn ext).head?, act.Unrecorded e) ∧ RecordsOn event ext s t done) := by
  induction rs generalizing s before ext with
  | nil =>
    obtain ⟨hext, rfl⟩ := runs_pure.mp h
    obtain rfl : ext = [] := List.append_left_eq_self.mp hext
    obtain rfl : t = s := halone
    exact ⟨fun _ h => absurd h List.not_mem_nil,
      Or.inl ⟨rfl, (MemoryStore.Recounts.refl t).recordsOn⟩⟩
  -- the first record leaves the other requests as they were (`hkept`), so the induction goes on in
  -- the store that it leaves
  | cons r rest ih =>
    obtain ⟨hr, hothers⟩ := List.forall_mem_cons.mp hstored
    obtain ⟨hmode, hmodes⟩ := List.forall_mem_cons.mp hmode
    obtain ⟨hfirst, hdistinct⟩ := List.pairwise_cons.mp hdistinct
    rcases (runs_run_bind _ _).mp h with ⟨e, hrun, rfl⟩ | ⟨mid, _, hrun, hruns⟩
    · obtain ⟨hunread, ⟨hresult, -⟩ | ⟨e', hresult, hfailed, hrecords⟩⟩ :=
        record_alone hrun hholds halone hr hmode
      · cases hresult
      · obtain rfl := Except.error.inj hresult
        exact ⟨hunread, Or.inr ⟨[], r, rest, e', rfl, rfl, hfailed, hrecords⟩⟩
    · obtain ⟨xs, rfl⟩ := hrun.suffix
      obtain ⟨ys, hys⟩ := hruns.suffix
      obtain rfl : ext = ys ++ xs := eq_append_of_steps hys
      rw [← hys] at hruns
      obtain ⟨u, hxs, hys'⟩ := alone_append.mp halone
      obtain ⟨hunread, ⟨-, hrecord⟩ | ⟨_, hresult, -⟩⟩ :=
        record_alone hrun (fun x hx => hholds x (List.mem_append_right _ hx)) hxs hr hmode
      · have hkept : ∀ r' ∈ rest, u.requests.get? r'.key = some r' := by
          intro r' hr'
          rw [hrecord.others _ fun r'' hr'' => List.mem_singleton.mp hr'' ▸ hfirst r' hr']
          exact hothers r' hr'
        obtain ⟨hunread', hend⟩ :=
          ih hruns (fun x hx => hholds x (List.mem_append_left _ hx)) hys' hkept
          hmodes hdistinct
        rw [actsIn_append]
        refine ⟨List.forall_mem_append.mpr ⟨hunread', hunread⟩, ?_⟩
        rcases hend with ⟨rfl, hrecords⟩ |
          ⟨done, r', rest', e, rfl, rfl, ⟨act, hlast, hfailed⟩, hrecords⟩
        · exact Or.inl ⟨rfl, hrecord.cons hrecords hfirst⟩
        · exact Or.inr ⟨r :: done, r', rest', e, rfl, rfl,
            ⟨act, List.mem_head?_append_of_mem_head? hlast, hfailed⟩,
            hrecord.cons hrecords fun r'' hr'' => hfirst r'' (List.mem_append_left _ hr'')⟩
      · cases hresult

end

/-! ## Questions -/

section

variable {d : Delivery} {provider : Provider} {before after : List Exchange}
  {rs accepted : List BuildRequest}

/-- The exchange is a question, and it was answered. -/
structure Exchange.Answered (x : Exchange) : Prop where
  holds : x.Holds
  asks : x.act.Asks
  answered : ∀ e, ¬ x.act.Unread e

/-- Asking for secrets adds questions that are answered. -/
theorem Asked.answered (h : Asked d provider before rs accepted after)
    (hbefore : ∀ x ∈ before, x.Answered) : ∀ x ∈ after, x.Answered := by
  induction h with
  | nil => exact hbefore
  | without _ _ ih => exact ih hbefore
  | asked x _ hact hholds _ ih =>
    refine ih (List.forall_mem_cons.mpr ⟨⟨hholds, ?_, ?_⟩, hbefore⟩)
    · rw [hact]
      trivial
    · rw [hact]
      exact fun e h => nomatch h

/-- **Who is accepted** while the store does not change. -/
theorem Asked.accepted_eq {s : MemoryStore} (h : Asked d provider before rs accepted after)
    (hstores : ∀ x ∈ after, x.before = s) : accepted = rs.filter (d.authenticIn provider s) := by
  induction h with
  | nil => rfl
  | without hsecret _ ih =>
    rw [ih hstores, List.filter_cons_of_neg]
    simp [Delivery.authenticIn, hsecret]
  -- the secret is the one that the store has, and the store is the same at every question
  | @asked _ _ r rest accepted secret data x hsecret hact hholds hrest ih =>
    have hanswer := hholds.answer (.getSecret ⟨r.namespace, secret.name⟩) hact
    rw [hstores x (hrest.suffix.mem List.mem_cons_self)] at hanswer
    obtain rfl := Except.ok.inj (Prod.mk.inj hanswer).1
    have hauthentic : d.authenticIn provider s r =
        d.opens provider secret (s.secrets.get? ⟨r.namespace, secret.name⟩) := by
      rw [Delivery.authenticIn, hsecret]
    rw [ih hstores, List.filter_cons, hauthentic]

/-- A question for requests that is answered. -/
theorem answered_listing {x : Exchange} {selector : String} (hx : x.Holds)
    (hact : x.act = .listRequests selector (.ok rs)) : ∀ y ∈ [x], y.Answered := by
  refine List.forall_mem_singleton.mpr ⟨hx, ?_, ?_⟩
  · rw [hact]
    trivial
  · rw [hact]
    exact fun e h => nomatch h

/-- Of the requests that are listed, those that match are those that wait. -/
theorem awaiting_eq {x : Exchange} {s : MemoryStore} (event : PushEvent) (hx : x.Holds)
    (hact : x.act = .listRequests Delivery.selector (.ok rs)) (hs : x.before = s) :
    rs.filter (Delivery.concerns event) = s.awaiting event := by
  have hanswer := hx.answer (.listRequests Delivery.selector) hact
  rw [hs] at hanswer
  obtain rfl := Except.ok.inj (Prod.mk.inj hanswer).1
  exact s.filter_listed event

end

section

variable {d : Delivery} {retry : RetryPolicy} {providers : List Provider} {xs : List Exchange}
  {result : Except WebhookError Acceptance}

/-- **All that a delivery does is to ask**, unless it gets as far as to record its push on the
requests that it accepted. -/
theorem Handled.asks_or_records (h : Handled d retry providers xs result) :
    (∀ x ∈ xs, x.act.Asks) ∨
    ∃ (provider : Provider) (event : PushEvent) (accepted : List BuildRequest) (mid : List Exchange)
        (recorded : Except WebhookError Unit), d.Brings providers provider event ∧
      (∀ r ∈ accepted, AuthenticatedIn d provider r xs) ∧ (∀ x ∈ mid, x.act.Asks) ∧
      (accepted.forM (Delivery.record retry event)).run.Runs mid xs recorded ∧
      result = recorded.map fun _ => .recorded (accepted.map fun r => r.key.text) := by
  cases h with
  | unreadable _ => exact Or.inl fun _ h => absurd h List.not_mem_nil
  | unlisted _ _ hact => exact Or.inl (List.forall_mem_singleton.mpr (by rw [hact]; trivial))
  | unmatched _ hx hact _ => exact Or.inl fun x h => (answered_listing hx hact x h).asks
  | unasked _ hx hact _ h =>
    obtain @⟨_, _, mid, x, key, hfails, -, hasked⟩ := h
    refine Or.inl (List.forall_mem_cons.mpr ⟨by rw [hfails]; trivial, fun y hy => ?_⟩)
    exact (hasked.answered (answered_listing hx hact) y hy).asks
  | unauthorized _ hx hact _ hasked =>
    exact Or.inl fun x h => (hasked.answered (answered_listing hx hact) x h).asks
  -- only here anything but a question can be among the exchanges
  | @recording provider event x rs accepted mid _ recorded hbrings hx hact hasked _ hrecord =>
    exact Or.inr ⟨provider, event, accepted, mid, recorded, hbrings,
      fun r hr => (hasked.accepted r hr).2.mono hrecord.suffix,
      fun y hy => (hasked.answered (answered_listing hx hact) y hy).asks, hrecord, rfl⟩

end

/-! ## The effect -/

section

variable {d : Delivery} {providers : List Provider} {provider provider' : Provider}
  {event event' : PushEvent} {e e' : ProviderError}

/-- A delivery is read in one way. -/
theorem Delivery.Brings.unique (h : d.Brings providers provider event)
    (h' : d.Brings providers provider' event') : provider = provider' ∧ event = event' := by
  obtain rfl := Except.ok.inj (h.detected.symm.trans h'.detected)
  exact ⟨rfl, Except.ok.inj (h.parsed.symm.trans h'.parsed)⟩

/-- A delivery that brings a push can be read. -/
theorem Delivery.Brings.not_unreadable (h : d.Brings providers provider event) :
    ¬ d.Unreadable providers e := by
  rintro (hdetect | ⟨hdetect, hparse⟩)
  · cases h.detected.symm.trans hdetect
  · obtain rfl := Except.ok.inj (h.detected.symm.trans hdetect)
    cases h.parsed.symm.trans hparse

/-- A delivery that cannot be read has one fault. -/
theorem Delivery.Unreadable.unique (h : d.Unreadable providers e) (h' : d.Unreadable providers e') :
    e = e' := by
  rcases h with hdetect | ⟨hdetect, hparse⟩ <;> rcases h' with hdetect' | ⟨hdetect', hparse'⟩
  · exact Except.error.inj (hdetect.symm.trans hdetect')
  · cases hdetect.symm.trans hdetect'
  · cases hdetect.symm.trans hdetect'
  · obtain rfl := Except.ok.inj (hdetect.symm.trans hdetect')
    exact Except.error.inj (hparse.symm.trans hparse')

end

section

variable {d : Delivery} {provider : Provider} {event : PushEvent} {retry : RetryPolicy}
  {providers : List Provider} {xs : List Exchange} {store t : MemoryStore}
  {result : Except WebhookError Acceptance}

/-- What a delivery of this push does to the store while nobody else writes, and what it returns. -/
structure Delivery.Effect (d : Delivery) (provider : Provider) (event : PushEvent)
    (xs : List Exchange) (store t : MemoryStore) (result : Except WebhookError Acceptance) :
    Prop where
  /-- the question for the requests, or for a secret, fails -/
  unread : ∀ x ∈ xs, ∀ e, x.act.Unread e → result = .error (.store e) ∧ t = store
  /-- no request waits for the push -/
  unmatched : (∀ x ∈ xs, ∀ e, ¬ x.act.Unread e) → store.awaiting event = [] →
    result = .ok .noMatch ∧ t = store
  /-- some requests wait for it, and the secret of none authenticates it -/
  unauthorized : (∀ x ∈ xs, ∀ e, ¬ x.act.Unread e) → store.awaiting event ≠ [] →
    store.accepting d provider event = [] → result = .error .unauthorized ∧ t = store
  /-- the push is recorded on all requests that are accepted, or on those before one whose record
  fails -/
  recorded : (∀ x ∈ xs, ∀ e, ¬ x.act.Unread e) → store.accepting d provider event ≠ [] →
    (result = .ok (.recorded ((store.accepting d provider event).map fun r => r.key.text)) ∧
      RecordsOn event xs store t (store.accepting d provider event)) ∨
    ∃ done r rest e, store.accepting d provider event = done ++ r :: rest ∧
      result = .error (.store e) ∧ (∃ act ∈ (actsIn xs).head?, act.Unrecorded e) ∧
      RecordsOn event xs store t done

/-- A question fails only as the last of all. -/
theorem effect_of_unread {x : Exchange} {e : StoreError} (hlast : x.act.Unread e)
    (hbefore : ∀ y ∈ xs, y.Answered) (hresult : result = .error (.store e)) (ht : t = store) :
    d.Effect provider event (x :: xs) store t result := by
  -- the other rows of the effect are for deliveries all of whose questions are answered
  have hfailed : ¬ ∀ y ∈ x :: xs, ∀ e, ¬ y.act.Unread e := fun h => h x List.mem_cons_self e hlast
  refine ⟨fun y hy e' hunread => ?_, fun h => absurd h hfailed, fun h => absurd h hfailed,
    fun h => absurd h hfailed⟩
  rcases List.mem_cons.mp hy with rfl | hy
  · have he : e' = e := by
      generalize y.act = act at hlast hunread
      cases act with
      | listRequests _ answer => exact Except.error.inj (hunread.symm.trans hlast)
      | getSecret _ answer => exact Except.error.inj (hunread.symm.trans hlast)
      | _ => exact hlast.elim
    exact ⟨he ▸ hresult, ht⟩
  · exact absurd hunread ((hbefore y hy).answered e')

/-- What only asks leaves the store as it is. -/
theorem Alone.answered (h : Alone store xs t) (hxs : ∀ x ∈ xs, x.Answered) :
    t = store ∧ ∀ x ∈ xs, x.before = store :=
  have hasks : ∀ x ∈ xs, x.Holds ∧ x.act.Asks := fun x hx => ⟨(hxs x hx).holds, (hxs x hx).asks⟩
  ⟨h.asked hasks, h.stores hasks⟩

/-- Who is accepted is stored, and built by pushes. -/
theorem accepting_stored (hmade : store.Made) {r : BuildRequest}
    (hr : r ∈ store.accepting d provider event) :
    store.requests.get? r.key = some r ∧ r.isOnCommit = true := by
  obtain ⟨hlisted, hawaits⟩ := List.mem_filter.mp (List.mem_filter.mp hr).1
  exact ⟨hmade.get?_of_listed hlisted,
    (Bool.and_eq_true_iff.mp (Bool.and_eq_true_iff.mp hawaits).2).1⟩

/-- They are listed in the order of their keys, as the store keeps them. -/
theorem accepting_ordered (hmade : store.Made) (d : Delivery) (provider : Provider)
    (event : PushEvent) :
    (store.accepting d provider event).Pairwise fun r r' => r.key < r'.key :=
  (hmade.keys_increase.filter _).filter _

/-- How a delivery that brings a push ends, as an effect of the push. -/
theorem effect_of_handled (hmade : store.Made) (hhandled : Handled d retry providers xs result)
    (hholds : ∀ x ∈ xs, x.Holds) (halone : Alone store xs t)
    (hbrings : d.Brings providers provider event) : d.Effect provider event xs store t result := by
  cases hhandled with
  | unreadable h => exact absurd h hbrings.not_unreadable
  | @unlisted _ _ x _ _ hx hact =>
    have hasks : ∀ y ∈ [x], y.Holds ∧ y.act.Asks :=
      List.forall_mem_singleton.mpr ⟨hx, by rw [hact]; trivial⟩
    exact effect_of_unread (by rw [hact]; rfl) (fun _ h => absurd h List.not_mem_nil) rfl
      (halone.asked hasks)
  | unmatched hbrings' hx hact hnone =>
    obtain ⟨rfl, rfl⟩ := hbrings.unique hbrings'
    have hanswered := answered_listing hx hact
    obtain ⟨ht, hstores⟩ := halone.answered hanswered
    rw [awaiting_eq event hx hact (hstores _ List.mem_cons_self)] at hnone
    refine ⟨fun y hy e h => absurd h ((hanswered y hy).answered e), fun _ _ => ⟨rfl, ht⟩,
      fun _ h => absurd hnone h, fun _ h => absurd ?_ h⟩
    rw [MemoryStore.accepting, hnone]
    rfl
  | unasked hbrings' hx hact _ h =>
    obtain @⟨_, _, mid, x, key, hfails, hfailed, hasked⟩ := h
    have hanswered := hasked.answered (answered_listing hx hact)
    have hasks : ∀ y ∈ x :: mid, y.Holds ∧ y.act.Asks :=
      List.forall_mem_cons.mpr ⟨⟨hfailed, by rw [hfails]; trivial⟩,
        fun y hy => ⟨(hanswered y hy).holds, (hanswered y hy).asks⟩⟩
    exact effect_of_unread (by rw [hfails]; rfl) hanswered rfl (halone.asked hasks)
  | unauthorized hbrings' hx hact hsome hasked =>
    obtain ⟨rfl, rfl⟩ := hbrings.unique hbrings'
    have hanswered := hasked.answered (answered_listing hx hact)
    obtain ⟨ht, hstores⟩ := halone.answered hanswered
    have hlisted := awaiting_eq event hx hact (hstores _ (hasked.suffix.mem List.mem_cons_self))
    have hnone := hasked.accepted_eq hstores
    rw [hlisted] at hnone hsome
    exact ⟨fun y hy e h => absurd h ((hanswered y hy).answered e), fun _ h => absurd h hsome,
      fun _ _ _ => ⟨rfl, ht⟩, fun _ h => absurd hnone.symm h⟩
  | @recording _ _ x rs accepted mid _ _ hbrings' hx hact hasked hsome hrecord =>
    obtain ⟨rfl, rfl⟩ := hbrings.unique hbrings'
    have hanswered := hasked.answered (answered_listing hx hact)
    obtain ⟨ext, rfl⟩ := hrecord.suffix
    -- the questions leave the store as it is, and then the push is recorded
    obtain ⟨u, hquestions, hrecords⟩ := alone_append.mp halone
    obtain ⟨hu, hstores⟩ := hquestions.answered hanswered
    rw [hu] at hrecords
    have hlisted := awaiting_eq event hx hact (hstores _ (hasked.suffix.mem List.mem_cons_self))
    obtain rfl : accepted = store.accepting d provider event := by
      rw [hasked.accepted_eq hstores, hlisted]
      rfl
    obtain ⟨hunread, hend⟩ := recorded_alone hrecord
      (fun y hy => hholds y (List.mem_append_left _ hy)) hrecords
      (fun r hr => (accepting_stored hmade hr).1) (fun r hr => (accepting_stored hmade hr).2)
      ((accepting_ordered hmade d provider event).imp ObjectKey.ne_of_lt)
    refine ⟨fun y hy e h => ?_, fun _ h => absurd ?_ hsome, fun _ _ h => absurd h hsome,
      fun _ _ => ?_⟩
    · rcases List.mem_append.mp hy with hy | hy
      · exact absurd h (hunread _ (List.mem_map_of_mem hy) e)
      · exact absurd h ((hanswered y hy).answered e)
    · rw [MemoryStore.accepting, h]
      rfl
    · have hext : ∀ act ∈ actsIn ext, act ∈ actsIn (ext ++ mid) := fun act hact => by
        rw [actsIn_append]
        exact List.mem_append_left _ hact
      rcases hend with ⟨rfl, hrecords⟩ |
        ⟨done, r, rest, e, hsplit, rfl, ⟨act, hlast, hfailed⟩, hrecords⟩
      · exact Or.inl ⟨rfl, hrecords.mono hext⟩
      · refine Or.inr ⟨done, r, rest, e, hsplit, rfl, ⟨act, ?_, hfailed⟩, hrecords.mono hext⟩
        rw [actsIn_append]
        exact List.mem_head?_append_of_mem_head? hlast

/-- **The effect of a delivery.**  In any store, while nobody else writes and whichever calls fail:
a delivery that cannot be read changes nothing and says why; any other one has the effect of its
push on the requests that accept it, which are listed in the order of their namespaces and names. -/
theorem accept_effect (hmade : store.Made)
    (hrun : (d.accept retry providers).run.Runs [] xs result) (halone : Alone store xs t) :
    (∀ e, d.Unreadable providers e → result = .error (.provider e) ∧ t = store) ∧
    ∀ provider event, d.Brings providers provider event →
      d.Effect provider event xs store t result ∧
      (∀ r ∈ store.accepting d provider event, store.requests.get? r.key = some r) ∧
      (store.accepting d provider event).Pairwise fun r r' => r.key < r'.key := by
  have hhandled := handled_of_runs hrun
  have hholds : ∀ x ∈ xs, x.Holds := hrun.holds fun _ h => absurd h List.not_mem_nil
  refine ⟨fun e he => ?_, fun provider event hbrings =>
    ⟨effect_of_handled hmade hhandled hholds halone hbrings,
      fun r hr => (accepting_stored hmade hr).1, accepting_ordered hmade d provider event⟩⟩
  -- a delivery that brings a push can be read, so one that cannot ended in the first way
  cases hhandled with
  | unreadable he' =>
    obtain rfl := he.unique he'
    exact ⟨rfl, halone⟩
  | unlisted hbrings _ _ | unmatched hbrings _ _ _ | unasked hbrings _ _ _ _
  | unauthorized hbrings _ _ _ _ | recording hbrings _ _ _ _ _ =>
    exact absurd he hbrings.not_unreadable

end

/-- The push that the delivery for the request of a run brings. -/
theorem appDelivery_brings :
    appDelivery.Brings Provider.all .gitlab ⟨"u", "refs/heads/main", ""⟩ :=
  ⟨eq_ok_of_toOption (by decide +kernel), eq_ok_of_toOption (by decide +kernel)⟩

/-- Undisturbed, the delivery records its push on the request of the run, which accepts it. -/
theorem accept_effect_app :
    (deliverApp []).1 = .ok (.recorded ["default/app"]) ∧
    (appStore.accepting appDelivery .gitlab ⟨"u", "refs/heads/main", ""⟩).map (·.key) = [appKey] ∧
    RecordsOn ⟨"u", "refs/heads/main", ""⟩ (deliverApp []).2.1 appStore (deliverApp []).2.2
      (appStore.accepting appDelivery .gitlab ⟨"u", "refs/heads/main", ""⟩) := by
  obtain ⟨hresult, hkeys⟩ : (deliverApp []).1.toOption = some (.recorded ["default/app"]) ∧
      (appStore.accepting appDelivery .gitlab ⟨"u", "refs/heads/main", ""⟩).map (·.key) =
        [appKey] := by
    decide +kernel
  have hok := eq_ok_of_toOption hresult
  obtain ⟨heffect, -, -⟩ := (accept_effect appStore_inserted.made (deliverApp_runs [] hresult)
    (Program.carryOut_alone _ (fun _ h => absurd h List.not_mem_nil) rfl)).2 _ _ appDelivery_brings
  have hsome : appStore.accepting appDelivery .gitlab ⟨"u", "refs/heads/main", ""⟩ ≠ [] := by
    intro hnone
    rw [hnone] at hkeys
    cases hkeys
  -- a question that had failed would have been reported
  have hread : ∀ x ∈ (deliverApp []).2.1, ∀ e, ¬ x.act.Unread e := fun x hx e h =>
    nomatch (heffect.unread x hx e h).1
  rcases heffect.recorded hread hsome with ⟨-, hrecords⟩ | ⟨_, _, _, _, -, hresult, -⟩
  · exact ⟨hok, hkeys, hrecords⟩
  · cases hresult

end PushBuild
