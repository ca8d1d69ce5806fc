import PushBuild.Proofs.OnCommit.Numbering
import PushBuild.Proofs.Status.Linear
import PushBuild.Proofs.Webhook.Delivery

/-!
# What it means that a push was recorded

A delivery is matched and authenticated with the requests as they were listed, and each request is
read again before the push is recorded on it.  In between others may change its mode, or delete it.

1. **Secrets.**  A request that is accepted was asked for its secret, and what was answered
   authenticates the delivery (`Asked.accepted`).
2. **Records.**  A record that succeeds wrote the push, or found the request missing or no longer
   built by pushes (`recorded_or_off`).
3. **The result** (`recorded_push_written`).  If a delivery reports requests, each of them waits for
   its push as it was listed, was authenticated, and had the push recorded or was found off.
4. **The other case.**  It happens: a delivery reports that a push was recorded, and has written
   nothing (`reported_without_write`).
-/

namespace PushBuild

/-- The answer to the question for the secret of `r` authenticated the delivery. -/
def AuthenticatedIn (d : Delivery) (provider : Provider) (r : BuildRequest) (xs : List Exchange) :
    Prop :=
  ∃ secret data, r.spec.onCommit = some secret ∧
    .getSecret ⟨r.namespace, secret.name⟩ (.ok data) ∈ actsIn xs ∧
      d.opens provider secret data = true

/-- Among these exchanges is a status write that succeeded and made the push the one that waits and
the one that was received last on the request under `key`, at a time that was read. -/
def RecordsPush (event : PushEvent) (key : ObjectKey) (xs : List Exchange) : Prop :=
  ∃ x ∈ xs, ∃ request written old time, x.act = .updateRequestStatus request (.ok written) ∧
    .now time ∈ actsIn xs ∧ x.before.requests.get? key = some old ∧
    x.after.requests.get? key = some written ∧
    written.statusOrDefault.trigger.pending = some ⟨event.ref, event.commit, time⟩ ∧
    written.statusOrDefault.trigger.lastReceived = some ⟨event.ref, event.commit, time⟩

/-- The request under `key` was read, and was missing or not built by pushes. -/
def FoundOff (key : ObjectKey) (xs : List Exchange) : Prop :=
  ∃ found, .getRequest key (.ok found) ∈ actsIn xs ∧ ∀ r ∈ found, r.isOnCommit = false

section

variable {event : PushEvent} {key : ObjectKey} {before xs ys : List Exchange}

/-- It stays true however the delivery goes on. -/
theorem AuthenticatedIn.mono {d : Delivery} {provider : Provider} {r : BuildRequest}
    (h : AuthenticatedIn d provider r xs) (hxs : xs <:+ ys) : AuthenticatedIn d provider r ys := by
  obtain ⟨secret, data, hsecret, hact, hopens⟩ := h
  exact ⟨secret, data, hsecret, actsIn_mono hxs hact, hopens⟩

/-- A write that is made stays made. -/
theorem RecordsPush.mono (h : RecordsPush event key xs) (hxs : xs <:+ ys) :
    RecordsPush event key ys := by
  obtain ⟨x, hx, request, written, old, time, hact, htime, hrest⟩ := h
  exact ⟨x, hxs.mem hx, request, written, old, time, hact, actsIn_mono hxs htime, hrest⟩

/-- What was read stays read. -/
theorem FoundOff.mono (h : FoundOff key xs) (hxs : xs <:+ ys) : FoundOff key ys := by
  obtain ⟨found, hact, hoff⟩ := h
  exact ⟨found, actsIn_mono hxs hact, hoff⟩

/-! ## Secrets -/

/-- **Who is accepted** is one of those that were asked for, and its secret authenticated the
delivery. -/
theorem Asked.accepted {d : Delivery} {provider : Provider} {rs accepted : List BuildRequest}
    (h : Asked d provider before rs accepted xs) :
    ∀ r ∈ accepted, r ∈ rs ∧ AuthenticatedIn d provider r xs := by
  induction h with
  | nil => exact fun r hr => absurd hr List.not_mem_nil
  | without _ _ ih =>
    intro r hr
    obtain ⟨hmem, hauthenticated⟩ := ih r hr
    exact ⟨List.mem_cons_of_mem _ hmem, hauthenticated⟩
  -- the request of this question is accepted exactly if its answer opens the delivery; of those
  -- after it the induction says enough
  | @asked _ after r rest accepted secret data x hsecret hact _ hrest ih =>
    have hx : .getSecret ⟨r.namespace, secret.name⟩ (.ok data) ∈ actsIn after := by
      rw [← hact]
      exact List.mem_map_of_mem (hrest.suffix.mem List.mem_cons_self)
    intro r' hr'
    split at hr'
    · next hopens =>
      rcases List.mem_cons.mp hr' with rfl | hr'
      · exact ⟨List.mem_cons_self, secret, data, hsecret, hx, hopens⟩
      · obtain ⟨hmem, hauthenticated⟩ := ih r' hr'
        exact ⟨List.mem_cons_of_mem _ hmem, hauthenticated⟩
    · obtain ⟨hmem, hauthenticated⟩ := ih r' hr'
      exact ⟨List.mem_cons_of_mem _ hmem, hauthenticated⟩

/-! ## Records -/

/-- **A record that succeeds** wrote the push, or found the request off. -/
theorem recorded_or_off {retry : RetryPolicy} {r : BuildRequest} (hholds : ∀ x ∈ before, x.Holds)
    (hstores : ∀ x ∈ xs, x.before.WellFormed)
    (h : (Delivery.record retry event r).run.Runs before xs (.ok ())) :
    RecordsPush event r.key xs ∨ FoundOff r.key xs := by
  have hxs := h.holds hholds
  obtain ⟨n, time, hnow, -, hsuffix, ⟨-, found, hmodified⟩ | ⟨_, hresult, -⟩⟩ := runs_record h
  · have htime : .now time ∈ actsIn xs := by
      rw [← hnow]
      exact List.mem_map_of_mem (hsuffix.mem List.mem_cons_self)
    generalize hacts : actsIn xs = acts at hmodified
    cases hmodified with
    | gone _ =>
      refine Or.inr ⟨none, ?_, fun r hr => absurd hr (Option.not_mem_none r)⟩
      rw [hacts]
      exact List.mem_cons_self
    | @unchanged _ r' _ hchange =>
      refine Or.inr ⟨some r', ?_, fun r'' hr'' => ?_⟩
      · rw [hacts]
        exact List.mem_cons_self
      · obtain rfl := Option.some.inj hr''
        by_contra hmode
        have hmode : r'.isOnCommit = true := by simpa using hmode
        rw [PushEvent.changeOnCommit, if_pos hmode] at hchange
        cases hchange
    | @written _ r₀ w status _ hchange =>
      -- the write and the read before it, as exchanges
      obtain ⟨u, hu, huact⟩ : ∃ u ∈ xs,
          u.act = .updateRequestStatus (r₀.restated status) (.ok w) := by
        have hmem : .updateRequestStatus (r₀.restated status) (.ok w) ∈ actsIn xs := by
          rw [hacts]
          exact List.mem_cons_self
        exact List.mem_map.mp hmem
      obtain ⟨g, hg, hgact⟩ : ∃ g ∈ xs, g.act = .getRequest r.key (.ok (some r₀)) := by
        have hmem : .getRequest r.key (.ok (some r₀)) ∈ actsIn xs := by
          rw [hacts]
          exact List.mem_cons_of_mem _ List.mem_cons_self
        exact List.mem_map.mp hmem
      have hread := (hxs g hg).answer (.getRequest r.key) hgact
      have hkey : r₀.key = r.key := (hstores g hg).key_eq (Except.ok.inj (Prod.mk.inj hread).1)
      have hwrite := (hxs u hu).answer (.updateRequestStatus (r₀.restated status)) huact
      obtain ⟨-, -, old, hold, -, hwritten, hafter, -⟩ := MemoryStore.updateRequestStatus_eq hwrite
      have hplace : (r₀.restated status).key = r.key := hkey
      rw [hplace] at hold hafter
      obtain ⟨-, rfl⟩ := changeOnCommit_eq_some hchange
      refine Or.inl ⟨u, hu, _, w, old, time, huact, htime, hold, ?_, ?_, ?_⟩
      · rw [hafter, SortedMap.get?_insert, if_pos rfl]
      · rw [hwritten]
        rfl
      · rw [hwritten]
        rfl
  · cases hresult

/-- Recording a push on requests, one after the other, records it on each. -/
theorem runs_forM_record {retry : RetryPolicy} {rs : List BuildRequest}
    (h : (rs.forM (Delivery.record retry event)).run.Runs before xs (.ok ())) :
    ∀ r ∈ rs, ∃ mid later, before <:+ mid ∧ later <:+ xs ∧
      (Delivery.record retry event r).run.Runs mid later (.ok ()) := by
  induction rs generalizing before with
  | nil => exact fun r hr => absurd hr List.not_mem_nil
  -- a record that fails ends all, so if they succeed each of them did
  | cons r rest ih =>
    rcases (runs_run_bind _ _).mp h with ⟨_, _, hresult⟩ | ⟨mid, _, hfirst, hrest⟩
    · cases hresult
    · intro r' hr'
      rcases List.mem_cons.mp hr' with rfl | hr'
      · exact ⟨before, mid, List.suffix_rfl, hrest.suffix, hfirst⟩
      · obtain ⟨mid', later, hmid, hlater, hrun⟩ := ih hrest r' hr'
        exact ⟨mid', later, hfirst.suffix.trans hmid, hlater, hrun⟩

end

/-! ## What is reported -/

section

variable {d : Delivery} {retry : RetryPolicy} {providers : List Provider} {xs : List Exchange}
  {acceptance : Acceptance}

/-- **What a delivery reports.**  Whatever others did to the store between its calls, so long as
requests are stored under their own keys, and whichever of its calls failed: a delivery that returns
names read a push and listed requests, and each name is that of a request that was listed and waited
for the push, that was authenticated by its secret, and on which the push was recorded by a write of
this delivery or which, when it was read again, was missing or no longer built by pushes.  If it
returns that there is no match, no request that was listed waits for the push. -/
theorem recorded_push_written (hstores : ∀ x ∈ xs, x.before.WellFormed)
    (hrun : (d.accept retry providers).run.Runs [] xs (.ok acceptance)) :
    ∃ provider event rs, d.Brings providers provider event ∧
      .listRequests Delivery.selector (.ok rs) ∈ actsIn xs ∧
      (acceptance = .noMatch → ∀ r ∈ rs, Delivery.concerns event r = false) ∧
      ∀ names, acceptance = .recorded names → ∃ accepted, accepted ≠ [] ∧
        names = accepted.map (fun r => r.key.text) ∧ ∀ r ∈ accepted, r ∈ rs ∧
          Delivery.concerns event r = true ∧ AuthenticatedIn d provider r xs ∧
          (RecordsPush event r.key xs ∨ FoundOff r.key xs) := by
  have hhandled := handled_of_runs hrun
  -- only two of the ways in which a delivery ends give an acceptance
  generalize hresult : (.ok acceptance : Except WebhookError Acceptance) = result at hhandled
  cases hhandled with
  | unreadable _ | unlisted _ _ _ | unasked _ _ _ _ _ | unauthorized _ _ _ _ _ => cases hresult
  | @unmatched provider event x rs hbrings _ hact hnone =>
    obtain rfl := Except.ok.inj hresult
    refine ⟨provider, event, rs, hbrings, ?_, fun _ r hr => ?_, fun _ h => nomatch h⟩
    · rw [← hact]
      exact List.mem_cons_self
    · exact Bool.eq_false_iff.mpr (List.filter_eq_nil_iff.mp hnone r hr)
  | @recording provider event x rs accepted mid _ result' hbrings hx hact hasked hsome hrecord =>
    cases result' with
    | error e => cases hresult
    | ok u =>
      obtain rfl := Except.ok.inj hresult
      have hmid : mid <:+ xs := hrecord.suffix
      refine ⟨provider, event, rs, hbrings, ?_, fun h => (nomatch h), fun names hnames => ?_⟩
      · rw [← hact]
        exact List.mem_map_of_mem (hmid.mem (hasked.suffix.mem List.mem_cons_self))
      · obtain rfl := Acceptance.recorded.inj hnames
        refine ⟨accepted, hsome, rfl, fun r hr => ?_⟩
        -- the request was listed, and each of its records lies between the question and the end
        obtain ⟨hmatched, hauthenticated⟩ := hasked.accepted r hr
        obtain ⟨hlisted, hconcerns⟩ := List.mem_filter.mp hmatched
        obtain ⟨start, later, hstart, hlater, hrun'⟩ := runs_forM_record hrecord r hr
        have hholds : ∀ x ∈ xs, x.Holds := hrun.holds fun _ h => absurd h List.not_mem_nil
        have hend := recorded_or_off
          (fun x h => hholds x (hlater.mem (hrun'.suffix.mem h)))
          (fun x h => hstores x (hlater.mem h)) hrun'
        exact ⟨hlisted, hconcerns, hauthenticated.mono hmid,
          hend.imp (·.mono hlater) (·.mono hlater)⟩

end

/-! ## Runs -/

/-- The delivery for the request of a run, taking turns with others. -/
def deliverApp (turns : List Turn) : Except WebhookError Acceptance × List Exchange × MemoryStore :=
  (appDelivery.accept {} Provider.all).run.carryOut (secondsIn 1) turns appStore []

/-- What the delivery does is a run of it, whoever takes turns. -/
theorem deliverApp_runs (turns : List Turn) {acceptance : Acceptance}
    (h : (deliverApp turns).1.toOption = some acceptance) :
    (appDelivery.accept {} Provider.all).run.Runs [] (deliverApp turns).2.1 (.ok acceptance) := by
  rw [← eq_ok_of_toOption h]
  exact Program.carryOut_runs _ turns appStore []

/-- Whoever takes turns, requests stay under their own keys. -/
theorem deliverApp_wellFormed (turns : List Turn) :
    ∀ x ∈ (deliverApp turns).2.1, x.before.WellFormed := fun x hx =>
  (Program.carryOut_made _ turns appStore_inserted.made (fun _ h => absurd h List.not_mem_nil) x
    hx).wellFormed

/-- Undisturbed, the delivery reports the request, on which it recorded the push. -/
theorem recorded_push_written_undisturbed : ∃ provider event, ∃ accepted : List BuildRequest,
    appDelivery.Brings Provider.all provider event ∧
    ["default/app"] = accepted.map (fun r => r.key.text) ∧
    ∀ r ∈ accepted, RecordsPush event r.key (deliverApp []).2.1 ∨
      FoundOff r.key (deliverApp []).2.1 := by
  have hresult : (deliverApp []).1.toOption = some (.recorded ["default/app"]) := by decide +kernel
  obtain ⟨provider, event, rs, hbrings, -, -, hnames⟩ :=
    recorded_push_written (deliverApp_wellFormed []) (deliverApp_runs [] hresult)
  obtain ⟨accepted, -, hnames, hall⟩ := hnames _ rfl
  exact ⟨provider, event, accepted, hbrings, hnames, fun r hr => (hall r hr).2.2.2⟩

/-- Before the request is read again, its user decides that pushes no longer build it. -/
def modeSwitched : List Turn :=
  [{}, {}, {}, { deeds := [.updateSpec appKey { rebuild := some .initial }] }]

/-- A delivery reports that a push was recorded, though it has written nothing. -/
theorem reported_without_write : ∃ xs, (∀ x ∈ xs, x.before.WellFormed) ∧
    (appDelivery.accept {} Provider.all).run.Runs [] xs (.ok (.recorded ["default/app"])) ∧
    ∀ x ∈ xs, x.act.writes = false := by
  obtain ⟨hresult, hsilent⟩ :
      (deliverApp modeSwitched).1.toOption = some (.recorded ["default/app"]) ∧
      ∀ x ∈ (deliverApp modeSwitched).2.1, x.act.writes = false := by
    decide +kernel
  exact ⟨_, deliverApp_wellFormed _, deliverApp_runs _ hresult, hsilent⟩

end PushBuild
