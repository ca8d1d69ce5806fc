import PushBuild.Proofs.Controller.Duty
import PushBuild.Proofs.Interleaving.Exchange

/-!
# How a delivery is taken in

A delivery is read, the requests that wait for its push are asked for, then the secret of each, and
then the push is recorded on those it was authenticated for, one after the other.

1. **Secrets.**  `Delivery.opens` says what the data of a secret says of a delivery.  `Asked`
   follows the questions for the secrets of some requests and says which of these requests are
   accepted.
2. **Records.**  To record a push is to read the time and to change the status of the request
   (`runs_record`).
3. **Ends.**  A delivery ends in one of few ways, and `Handled` lists them with what was done until
   then (`handled_of_runs`).
-/

namespace PushBuild

namespace Delivery

/-- What the data of a secret says of a delivery, if there is such data. -/
def opens (d : Delivery) (provider : Provider) (secret : SecretKeyRef) (data : Option SecretData) :
    Bool :=
  match data.bind (·.get? secret.key) with
  | none => false
  | some value => provider.authenticates d.headers d.body value

/-- The delivery cannot be read, because no provider knows its headers, or the one that does cannot
make sense of it. -/
inductive Unreadable (d : Delivery) (providers : List Provider) (e : ProviderError) : Prop
  | undetected (h : Provider.detect providers d.headers = .error e)
  | unparsed {provider : Provider} (h : Provider.detect providers d.headers = .ok provider)
      (hparse : provider.parse d.headers d.body = .error e)

end Delivery

/-! ## Secrets -/

section

variable (d : Delivery) (provider : Provider)

/-- After the exchanges `before`, the secrets of some requests were asked for, one after the other,
and of these requests some were accepted; all exchanges were `after` then. -/
inductive Asked :
    List Exchange → List BuildRequest → List BuildRequest → List Exchange → Prop
  | nil {before : List Exchange} : Asked before [] [] before
  | without {before after : List Exchange} {r : BuildRequest} {rest accepted : List BuildRequest}
      (hsecret : r.spec.onCommit = none) (h : Asked before rest accepted after) :
      Asked before (r :: rest) accepted after
  | asked {before after : List Exchange} {r : BuildRequest} {rest accepted : List BuildRequest}
      {secret : SecretKeyRef} {data : Option SecretData} (x : Exchange)
      (hsecret : r.spec.onCommit = some secret)
      (hact : x.act = .getSecret ⟨r.namespace, secret.name⟩ (.ok data)) (hholds : x.Holds)
      (h : Asked (x :: before) rest accepted after) :
      Asked before (r :: rest) (if d.opens provider secret data then r :: accepted else accepted)
        after

/-- After the exchanges `before`, the secrets of some requests were asked for, and then a question
for a secret failed. -/
inductive AskFails (before : List Exchange) (e : StoreError) : List Exchange → Prop
  | intro {rs accepted : List BuildRequest} {mid : List Exchange} (x : Exchange) (key : ObjectKey)
      (hact : x.act = .getSecret key (.error e)) (hholds : x.Holds)
      (h : Asked d provider before rs accepted mid) : AskFails before e (x :: mid)

end

section

variable {d : Delivery} {provider : Provider} {before after : List Exchange}
  {rs accepted : List BuildRequest}

/-- The questions come after what was done before. -/
theorem Asked.suffix (h : Asked d provider before rs accepted after) : before <:+ after := by
  induction h with
  | nil => exact List.suffix_rfl
  | without _ _ ih => exact ih
  | asked x _ _ _ _ ih => exact (List.suffix_cons x _).trans ih

/-- A call of a delivery is one exchange, and its failure is one of the delivery. -/
theorem runs_stored {α : Type} {call : StoreCall α} {result : Except WebhookError α}
    (h : call.program.webhook.run.Runs before after result) :
    ∃ x, after = x :: before ∧ x.Holds ∧
      ((∃ a, x.act = call.act (.ok a) ∧ result = .ok a) ∨
        ∃ e, x.act = call.act (.error e) ∧ result = .error (.store e)) := by
  obtain ⟨answer, hcall, rfl⟩ := (runs_adapt _ _).mp h
  obtain ⟨x, rfl, hact, hholds⟩ := (runs_call _).mp hcall
  cases answer with
  | ok a => exact ⟨x, rfl, hholds, Or.inl ⟨a, hact, rfl⟩⟩
  | error e => exact ⟨x, rfl, hholds, Or.inr ⟨e, hact, rfl⟩⟩

/-- Asking for the secret of one request. -/
theorem runs_authenticatedFor {r : BuildRequest} {result : Except WebhookError Bool}
    (h : (d.authenticatedFor provider r).run.Runs before after result) :
    (r.spec.onCommit = none ∧ after = before ∧ result = .ok false) ∨
    ∃ secret x, r.spec.onCommit = some secret ∧ after = x :: before ∧ x.Holds ∧
      ((∃ data, x.act = .getSecret ⟨r.namespace, secret.name⟩ (.ok data) ∧
          result = .ok (d.opens provider secret data)) ∨
        ∃ e, x.act = .getSecret ⟨r.namespace, secret.name⟩ (.error e) ∧
          result = .error (.store e)) := by
  unfold Delivery.authenticatedFor at h
  -- a request without a secret is not asked for one, and is not accepted
  cases hsecret : r.spec.onCommit with
  | none =>
    rw [hsecret] at h
    obtain ⟨rfl, rfl⟩ := runs_pure.mp h
    exact Or.inl ⟨rfl, rfl, rfl⟩
  | some secret =>
    rw [hsecret] at h
    refine Or.inr ⟨secret, ?_⟩
    rcases (runs_run_bind _ _).mp h with ⟨e', hcall, rfl⟩ | ⟨mid, data, hcall, hrest⟩
    · obtain ⟨x, rfl, hholds, ⟨_, -, hresult⟩ | ⟨e, hact, hresult⟩⟩ := runs_stored hcall
      · cases hresult
      · obtain rfl := Except.error.inj hresult
        exact ⟨x, rfl, rfl, hholds, Or.inr ⟨e, hact, rfl⟩⟩
    · obtain ⟨x, rfl, hholds, ⟨_, hact, hresult⟩ | ⟨_, -, hresult⟩⟩ := runs_stored hcall
      · obtain rfl := Except.ok.inj hresult
        -- neither a missing secret nor a missing key is a failure: such a request is not accepted
        have hend : after = x :: before ∧ result = .ok (d.opens provider secret data) := by
          unfold Delivery.opens
          cases hvalue : data.bind (·.get? secret.key) with
          | none =>
            rw [hvalue] at hrest
            exact runs_pure.mp hrest
          | some value =>
            rw [hvalue] at hrest
            exact runs_pure.mp hrest
        exact ⟨x, rfl, hend.1, hholds, Or.inl ⟨data, hact, hend.2⟩⟩
      · cases hresult

/-- **Asking for the secrets.**  All are asked for, or a question fails and it is the last. -/
theorem runs_authenticated {result : Except WebhookError (List BuildRequest)}
    (h : (d.authenticated provider rs).run.Runs before after result) :
    (∃ accepted, result = .ok accepted ∧ Asked d provider before rs accepted after) ∨
    ∃ e, result = .error (.store e) ∧ AskFails d provider before e after := by
  induction rs generalizing before result with
  | nil =>
    obtain ⟨rfl, rfl⟩ := runs_pure.mp h
    exact Or.inl ⟨[], rfl, .nil⟩
  | cons r rest ih =>
    unfold Delivery.authenticated at h
    rcases (runs_run_bind _ _).mp h with ⟨e', hfirst, rfl⟩ | ⟨mid, verdict, hfirst, hrest⟩
    · rcases runs_authenticatedFor hfirst with ⟨-, -, hresult⟩ |
        ⟨secret, x, -, rfl, hholds, ⟨_, -, hresult⟩ | ⟨e, hact, hresult⟩⟩
      · cases hresult
      · cases hresult
      · obtain rfl := Except.error.inj hresult
        exact Or.inr ⟨e, rfl, .intro x _ hact hholds .nil⟩
    · -- what follows the question is the same, whatever it was answered
      have hothers : (∃ others, result = .ok (if verdict then r :: others else others) ∧
            Asked d provider mid rest others after) ∨
          ∃ e, result = .error (.store e) ∧ AskFails d provider mid e after := by
        rcases (runs_run_bind _ _).mp hrest with ⟨e', hmore, rfl⟩ | ⟨later, others, hmore, hend⟩
        · rcases ih hmore with ⟨accepted, hresult, -⟩ | ⟨e, hresult, hfails⟩
          · cases hresult
          · obtain rfl := Except.error.inj hresult
            exact Or.inr ⟨e, rfl, hfails⟩
        · obtain ⟨rfl, rfl⟩ := runs_pure.mp hend
          rcases ih hmore with ⟨accepted, hresult, hasked⟩ | ⟨e, hresult, -⟩
          · obtain rfl := Except.ok.inj hresult
            exact Or.inl ⟨others, rfl, hasked⟩
          · cases hresult
      rcases runs_authenticatedFor hfirst with ⟨hsecret, rfl, hverdict⟩ |
        ⟨secret, x, hsecret, rfl, hholds, ⟨data, hact, hverdict⟩ | ⟨e, -, hverdict⟩⟩
      · obtain rfl := Except.ok.inj hverdict
        rcases hothers with ⟨others, rfl, hasked⟩ | ⟨e, rfl, y, key, hfails, hy, hasked⟩
        · exact Or.inl ⟨others, rfl, .without hsecret hasked⟩
        · exact Or.inr ⟨e, rfl, .intro y key hfails hy (.without hsecret hasked)⟩
      · obtain rfl := Except.ok.inj hverdict
        rcases hothers with ⟨others, rfl, hasked⟩ | ⟨e, rfl, y, key, hfails, hy, hasked⟩
        · exact Or.inl ⟨_, rfl, .asked x hsecret hact hholds hasked⟩
        · exact Or.inr ⟨e, rfl, .intro y key hfails hy (.asked x hsecret hact hholds hasked)⟩
      · cases hverdict

end

/-! ## Records -/

section

variable {before after : List Exchange} {retry : RetryPolicy}

/-- What a call that changes a status has done in a run. -/
theorem runs_modifyStatus {key : ObjectKey} {change : StatusChange}
    {result : Except StoreError (Option BuildRequest)}
    (h : (BuildRequest.modifyStatus retry key change).run.Runs before after result) :
    (∃ found, result = .ok found ∧ Modified key change (actsIn before) found (actsIn after)) ∨
    ∃ e, result = .error e ∧ Unmodified key change (actsIn before) e (actsIn after) := by
  have hmeets : Meets (fun _ _ => True) (BuildRequest.modifyStatus retry key change)
      (Modified key change (actsIn before)) (Unmodified key change (actsIn before))
        (actsIn before) :=
    meets_change (fun _ _ _ => trivial) fun _ _ _ _ _ => trivial
  exact hmeets.runs h

/-- **Recording a push.**  The time is read, and then the status of the request is changed. -/
theorem runs_record {event : PushEvent} {r : BuildRequest} {result : Except WebhookError Unit}
    (h : (Delivery.record retry event r).run.Runs before after result) :
    ∃ n time, n.act = .now time ∧ n.Holds ∧ n :: before <:+ after ∧
      ((result = .ok () ∧ ∃ found, Modified r.key (event.changeOnCommit time) (actsIn (n :: before))
          found (actsIn after)) ∨
        ∃ e, result = .error (.store e) ∧
          Unmodified r.key (event.changeOnCommit time) (actsIn (n :: before)) e
            (actsIn after)) := by
  unfold Delivery.record at h
  -- reading the time cannot fail, so the record ends as the change of the status does
  rcases (runs_run_bind _ _).mp h with ⟨_, hnow, -⟩ | ⟨mid, time, hnow, hrest⟩
  · obtain ⟨_, _, _, _, _, hresult⟩ := runs_now.mp hnow
    cases hresult
  · obtain ⟨n, _, rfl, hact, hn, htime⟩ := runs_now.mp hnow
    obtain rfl := Except.ok.inj htime
    refine ⟨n, time, hact, hn, hrest.suffix, ?_⟩
    rcases (runs_run_bind _ _).mp hrest with ⟨e', hmodify, rfl⟩ | ⟨mid, found, hmodify, hend⟩
    · obtain ⟨result', hmodify, hresult⟩ := (runs_adapt _ _).mp hmodify
      rcases runs_modifyStatus hmodify with ⟨found, rfl, -⟩ | ⟨e, rfl, hfails⟩
      · cases hresult
      · obtain rfl := Except.error.inj hresult
        exact Or.inr ⟨e, rfl, hfails⟩
    · obtain ⟨rfl, rfl⟩ := runs_pure.mp hend
      obtain ⟨result', hmodify, hresult⟩ := (runs_adapt _ _).mp hmodify
      rcases runs_modifyStatus hmodify with ⟨found', rfl, hmodified⟩ | ⟨e, rfl, -⟩
      · exact Or.inl ⟨rfl, found', hmodified⟩
      · cases hresult

end

/-! ## Ends -/

/-- **How a delivery ends**, and what was done until then. -/
inductive Handled (d : Delivery) (retry : RetryPolicy) (providers : List Provider) :
    List Exchange → Except WebhookError Acceptance → Prop
  /-- no provider knows the delivery, or the one that does cannot make sense of it; nothing is asked
  then -/
  | unreadable {e : ProviderError} (h : d.Unreadable providers e) :
      Handled d retry providers [] (.error (.provider e))
  /-- the question for the requests fails -/
  | unlisted {provider : Provider} {event : PushEvent} {x : Exchange} {e : StoreError}
      (hbrings : d.Brings providers provider event) (hx : x.Holds)
      (hact : x.act = .listRequests Delivery.selector (.error e)) :
      Handled d retry providers [x] (.error (.store e))
  /-- no request that is listed waits for the push -/
  | unmatched {provider : Provider} {event : PushEvent} {x : Exchange} {rs : List BuildRequest}
      (hbrings : d.Brings providers provider event) (hx : x.Holds)
      (hact : x.act = .listRequests Delivery.selector (.ok rs))
      (hnone : rs.filter (Delivery.concerns event) = []) :
      Handled d retry providers [x] (.ok .noMatch)
  /-- a question for a secret fails, after any number that were answered -/
  | unasked {provider : Provider} {event : PushEvent} {x : Exchange} {rs : List BuildRequest}
      {after : List Exchange} {e : StoreError} (hbrings : d.Brings providers provider event)
      (hx : x.Holds) (hact : x.act = .listRequests Delivery.selector (.ok rs))
      (hsome : rs.filter (Delivery.concerns event) ≠ []) (h : AskFails d provider [x] e after) :
      Handled d retry providers after (.error (.store e))
  /-- all secrets are asked for, and none authenticates the delivery -/
  | unauthorized {provider : Provider} {event : PushEvent} {x : Exchange} {rs : List BuildRequest}
      {after : List Exchange} (hbrings : d.Brings providers provider event) (hx : x.Holds)
      (hact : x.act = .listRequests Delivery.selector (.ok rs))
      (hsome : rs.filter (Delivery.concerns event) ≠ [])
      (h : Asked d provider [x] (rs.filter (Delivery.concerns event)) [] after) :
      Handled d retry providers after (.error .unauthorized)
  /-- some secrets do, and the push is recorded on their requests until a record fails -/
  | recording {provider : Provider} {event : PushEvent} {x : Exchange}
      {rs accepted : List BuildRequest} {mid after : List Exchange}
      {result : Except WebhookError Unit} (hbrings : d.Brings providers provider event)
      (hx : x.Holds) (hact : x.act = .listRequests Delivery.selector (.ok rs))
      (h : Asked d provider [x] (rs.filter (Delivery.concerns event)) accepted mid)
      (hsome : accepted ≠ [])
      (hrecord : (accepted.forM (Delivery.record retry event)).run.Runs mid after result) :
      Handled d retry providers after
        (result.map fun _ => .recorded (accepted.map fun r => r.key.text))

section

variable {d : Delivery} {retry : RetryPolicy} {providers : List Provider} {xs : List Exchange}
  {result : Except WebhookError Acceptance}

/-- What a provider says has no effects, and its failure is one of the delivery. -/
theorem runs_ofProvider {α : Type} {said : Except ProviderError α} {before after : List Exchange}
    {r : Except WebhookError α}
    (h : (MonadLift.monadLift (ofProvider said) : WebhookProgram α).run.Runs before after r) :
    after = before ∧
      ((∃ a, said = .ok a ∧ r = .ok a) ∨ ∃ e, said = .error e ∧ r = .error (.provider e)) := by
  obtain ⟨rfl, rfl⟩ := runs_monadLift.mp h
  cases said with
  | ok a => exact ⟨rfl, Or.inl ⟨a, rfl, rfl⟩⟩
  | error e => exact ⟨rfl, Or.inr ⟨e, rfl, rfl⟩⟩

/-- How a delivery ends whose push concerns some of the requests that were listed. -/
theorem handled_of_matched {provider : Provider} {event : PushEvent} {x : Exchange}
    {rs : List BuildRequest} (hbrings : d.Brings providers provider event) (hx : x.Holds)
    (hact : x.act = .listRequests Delivery.selector (.ok rs))
    (hsome : rs.filter (Delivery.concerns event) ≠ [])
    (h : (do
      let accepted ← d.authenticated provider (rs.filter (Delivery.concerns event))
      accepted.forM (Delivery.record retry event)
      if accepted.isEmpty then throw .unauthorized
      else return .recorded (accepted.map fun r => r.key.text) :
        WebhookProgram Acceptance).run.Runs [x] xs result) :
    Handled d retry providers xs result := by
  rcases (runs_run_bind _ _).mp h with ⟨e, hask, rfl⟩ | ⟨mid, accepted, hask, h⟩
  · rcases runs_authenticated hask with ⟨_, hresult, -⟩ | ⟨e', hresult, hfails⟩
    · cases hresult
    · obtain rfl := Except.error.inj hresult
      exact .unasked hbrings hx hact hsome hfails
  · rcases runs_authenticated hask with ⟨_, hresult, hasked⟩ | ⟨_, hresult, -⟩
    · obtain rfl := Except.ok.inj hresult
      -- the records of no requests are none, so the program may begin them before it asks whether
      -- there are any
      cases accepted with
      | nil =>
        obtain ⟨rfl, rfl⟩ := runs_throw.mp h
        exact .unauthorized hbrings hx hact hsome hasked
      | cons r rest =>
        have hne : r :: rest ≠ [] := List.cons_ne_nil _ _
        rcases (runs_run_bind _ _).mp h with ⟨e, hrecord, rfl⟩ | ⟨_, _, hrecord, h⟩
        · exact .recording hbrings hx hact hasked hne hrecord
        · obtain ⟨rfl, rfl⟩ := runs_pure.mp h
          exact .recording hbrings hx hact hasked hne hrecord
    · cases hresult

/-- How a delivery ends that brings a push. -/
theorem handled_of_read {provider : Provider} {event : PushEvent}
    (hbrings : d.Brings providers provider event)
    (h : (do
      let rs ← (StoreCall.program (.listRequests Delivery.selector)).webhook
      match rs.filter (Delivery.concerns event) with
      | [] => return .noMatch
      | matched =>
        let accepted ← d.authenticated provider matched
        accepted.forM (Delivery.record retry event)
        if accepted.isEmpty then throw .unauthorized
        else return .recorded (accepted.map fun r => r.key.text) :
        WebhookProgram Acceptance).run.Runs [] xs result) :
    Handled d retry providers xs result := by
  rcases (runs_run_bind _ _).mp h with ⟨e, hlist, rfl⟩ | ⟨_, rs, hlist, h⟩
  · obtain ⟨x, rfl, hx, ⟨_, -, hresult⟩ | ⟨e', hact, hresult⟩⟩ := runs_stored hlist
    · cases hresult
    · obtain rfl := Except.error.inj hresult
      exact .unlisted hbrings hx hact
  · obtain ⟨x, rfl, hx, ⟨_, hact, hresult⟩ | ⟨_, -, hresult⟩⟩ := runs_stored hlist
    · obtain rfl := Except.ok.inj hresult
      split at h
      · next hnone =>
        obtain ⟨rfl, rfl⟩ := runs_pure.mp h
        exact .unmatched hbrings hx hact hnone
      · next hsome =>
        exact handled_of_matched hbrings hx hact hsome h
    · cases hresult

/-- **Every delivery ends in one of these ways.** -/
theorem handled_of_runs (h : (d.accept retry providers).run.Runs [] xs result) :
    Handled d retry providers xs result := by
  unfold Delivery.accept at h
  -- the steps are taken apart in their order; each that fails is the last, and ends the delivery in
  -- one of the ways
  rcases (runs_run_bind _ _).mp h with ⟨e, hdetect, rfl⟩ | ⟨_, provider, hdetect, h⟩
  · obtain ⟨rfl, ⟨_, -, he⟩ | ⟨e', hdetected, he⟩⟩ := runs_ofProvider hdetect
    · cases he
    · obtain rfl := Except.error.inj he
      exact .unreadable (.undetected hdetected)
  · obtain ⟨rfl, ⟨_, hdetected, hprovider⟩ | ⟨_, -, he⟩⟩ := runs_ofProvider hdetect
    · obtain rfl := Except.ok.inj hprovider
      rcases (runs_run_bind _ _).mp h with ⟨e, hparse, rfl⟩ | ⟨_, event, hparse, h⟩
      · obtain ⟨rfl, ⟨_, -, he⟩ | ⟨e', hparsed, he⟩⟩ := runs_ofProvider hparse
        · cases he
        · obtain rfl := Except.error.inj he
          exact .unreadable (.unparsed hdetected hparsed)
      · obtain ⟨rfl, ⟨_, hparsed, hevent⟩ | ⟨_, -, he⟩⟩ := runs_ofProvider hparse
        · obtain rfl := Except.ok.inj hevent
          exact handled_of_read ⟨hdetected, hparsed⟩ h
        · cases he
    · cases he

end

end PushBuild
