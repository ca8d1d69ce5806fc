import PushBuild.Proofs.Webhook.Effect
import PushBuild.Webhook.Server

/-!
# What the push route answers

What the server answers to a request for the push route depends on the method, on the length of the
body, and on how the delivery ends.

1. **Which requests** (`HttpRequest.IsForPushes`).  The path fits the route, and the request is not
   for the liveness route, which comes first.
2. **Three ways** (`respond_eq`, `runs_receive`).  Another method is refused, a body that is too
   long is not read, and everything else is taken in as a delivery.
3. **What is left alone** (`Handled.asks`).  Unless its push is recorded, or a call of it fails, a
   delivery only asks.
4. **The result** (`push_route_answers`), and the answer that the route is not said to give
   (`long_body_refused`).
-/

namespace PushBuild

/-! ## Which requests -/

/-- The request is for the push route: its path fits, and it does not ask whether the server is
alive. -/
structure HttpRequest.IsForPushes (r : HttpRequest) (route : Route) : Prop where
  fits : route.isMatch (Webhook.pathOf r.target) = true
  notLiveness : Webhook.pathOf r.target = Webhook.livenessPath →
    route = ⟨Webhook.livenessPath.toList.map .char⟩ ∧ r.method ≠ "GET" ∧ r.method ≠ "HEAD"

/-- The delivery that a request is. -/
def HttpRequest.delivery (r : HttpRequest) : Delivery := ⟨r.headers, r.body⟩

namespace Webhook

section

variable {route : Route} {retry : RetryPolicy} {r : HttpRequest}

/-- A request for the push route is a delivery, or comes with another method. -/
theorem respond_eq (h : r.IsForPushes route) :
    respond route retry r =
      if r.method == "POST" then receive retry r.delivery else return refusal .method := by
  unfold respond
  by_cases hpath : pathOf r.target = livenessPath
  · obtain ⟨hroute, hget, hhead⟩ := h.notLiveness hpath
    simp [hpath, hroute, hget, hhead, HttpRequest.delivery]
  · simp [hpath, h.fits, HttpRequest.delivery]

/-- The status of the answer to a delivery that ended like this. -/
def statusOf : Except WebhookError Acceptance → Nat
  | .ok _ => 202
  | .error e => (refusal e).status

/-- A body that is too long is not read, and any other one is taken in. -/
theorem runs_receive {d : Delivery} {before after : List Exchange} {response : HttpResponse}
    (h : (receive retry d).Runs before after response) :
    (maxBodyLength < d.body.length ∧ response.status = 413 ∧ after = before) ∨
    (d.body.length ≤ maxBodyLength ∧ ∃ result,
      (d.accept retry Provider.all).run.Runs before after result ∧
      response.status = statusOf result) := by
  unfold receive at h
  split at h
  · next hlong =>
    cases h
    exact Or.inl ⟨hlong, rfl, rfl⟩
  · next hshort =>
    obtain ⟨mid, result, hrun, hend⟩ := (Program.runs_bind _ _).mp h
    refine Or.inr ⟨Nat.le_of_not_lt hshort, result, ?_⟩
    -- whatever the delivery returns is turned into an answer without a further exchange
    cases result with
    | ok a =>
      cases hend
      exact ⟨hrun, rfl⟩
    | error e =>
      cases hend
      exact ⟨hrun, rfl⟩

/-- The head of an answer has the status of the answer. -/
theorem runs_answer {before after : List Exchange} {response : HttpResponse}
    (h : (answer route retry r).Runs before after response) :
    ∃ whole, (respond route retry r).Runs before after whole ∧ response.status = whole.status := by
  obtain ⟨mid, whole, hrun, hend⟩ := (Program.runs_bind _ _).mp h
  cases hend
  refine ⟨whole, hrun, ?_⟩
  split <;> rfl

end

end Webhook

/-! ## What is left alone -/

/-- Records fail when a call does. -/
theorem error_of_records {retry : RetryPolicy} {event : PushEvent} {rs : List BuildRequest}
    {before after : List Exchange} {e : WebhookError}
    (h : (rs.forM (Delivery.record retry event)).run.Runs before after (.error e)) :
    ∃ e', e = .store e' := by
  induction rs generalizing before with
  | nil =>
    obtain ⟨-, hresult⟩ := runs_pure.mp h
    cases hresult
  -- reading the time does not fail, so what fails is a call to the store
  | cons r rest ih =>
    rcases (runs_run_bind _ _).mp h with ⟨e', hfirst, hresult⟩ | ⟨mid, _, -, hrest⟩
    · obtain ⟨n, time, -, -, -, ⟨hok, -⟩ | ⟨e'', hfails, -⟩⟩ := runs_record hfirst
      · cases hok
      · exact ⟨e'', (Except.error.inj hresult).trans (Except.error.inj hfails)⟩
    · exact ih hrest

section

variable {d : Delivery} {retry : RetryPolicy} {providers : List Provider} {xs : List Exchange}
  {result : Except WebhookError Acceptance}

/-- A delivery that no request waits for, or that is refused, only asks. -/
theorem Handled.asks (h : Handled d retry providers xs result)
    (hresult : result = .ok .noMatch ∨ (∃ e, result = .error (.provider e)) ∨
      result = .error .unauthorized) : ∀ x ∈ xs, x.act.Asks := by
  rcases h.asks_or_records with hasks | ⟨_, _, accepted, _, recorded, -, -, -, hrecord, rfl⟩
  · exact hasks
  · cases recorded with
    | ok _ => rcases hresult with h | ⟨_, h⟩ | h <;> cases h
    | error e =>
      obtain ⟨e', rfl⟩ := error_of_records hrecord
      rcases hresult with h | ⟨_, h⟩ | h <;> cases h

/-- **Why a delivery fails**: it cannot be read, nothing authenticates it, or a call failed. -/
theorem Handled.error_cases {e : WebhookError} (h : Handled d retry providers xs (.error e)) :
    (∃ e', e = .provider e' ∧ d.Unreadable providers e') ∨ e = .unauthorized ∨
      ∃ e', e = .store e' := by
  generalize hresult : (.error e : Except WebhookError Acceptance) = result at h
  cases h with
  | unreadable h =>
    obtain rfl := Except.error.inj hresult
    exact Or.inl ⟨_, rfl, h⟩
  | unmatched _ _ _ _ => cases hresult
  | unlisted _ _ _ | unasked _ _ _ _ _ =>
    obtain rfl := Except.error.inj hresult
    exact Or.inr (Or.inr ⟨_, rfl⟩)
  | unauthorized _ _ _ _ _ =>
    obtain rfl := Except.error.inj hresult
    exact Or.inr (Or.inl rfl)
  | @recording _ _ _ _ _ _ _ recorded _ _ _ _ _ hrecord =>
    cases recorded with
    | ok _ => cases hresult
    | error e' =>
      obtain rfl := Except.error.inj hresult
      exact Or.inr (Or.inr (error_of_records hrecord))

/-- A delivery that cannot be read fails for what the provider says, and no other does. -/
theorem Handled.provider_iff (h : Handled d retry providers xs result) (e : ProviderError) :
    result = .error (.provider e) ↔ d.Unreadable providers e := by
  constructor
  · rintro rfl
    obtain ⟨e', he, hunreadable⟩ | he | ⟨_, he⟩ := h.error_cases
    · obtain rfl := WebhookError.provider.inj he
      exact hunreadable
    · cases he
    · cases he
  · -- if it cannot be read, there is one reason for that, and it brings no push
    intro hunreadable
    cases h with
    | unreadable h => rw [hunreadable.unique h]
    | unlisted hbrings _ _ | unmatched hbrings _ _ _ | unasked hbrings _ _ _ _
    | unauthorized hbrings _ _ _ _ | recording hbrings _ _ _ _ _ =>
      exact absurd hunreadable hbrings.not_unreadable

end

/-! ## The result -/

/-- How the answer to a delivery goes with how it ended. -/
structure Delivery.Answered (d : Delivery) (retry : RetryPolicy) (xs : List Exchange) (status : Nat)
    (result : Except WebhookError Acceptance) : Prop where
  runs : (d.accept retry Provider.all).run.Runs [] xs result
  known : status = 202 ∨ status = 400 ∨ status = 401 ∨ status = 500
  /-- it was recorded, or no request waits for it -/
  accepted : status = 202 ↔ result = .ok .noMatch ∨ ∃ names, result = .ok (.recorded names)
  /-- no provider knows it, or the one that does cannot make sense of it -/
  bad : status = 400 ↔ ∃ e, d.Unreadable Provider.all e
  unauthorized : status = 401 ↔ result = .error .unauthorized
  failed : status = 500 ↔ ∃ e, result = .error (.store e)
  /-- nothing was written -/
  leaves : result = .ok .noMatch ∨ status = 400 ∨ status = 401 → ∀ x ∈ xs, x.after = x.before

/-- **The status of the answer** tells in which of four ways a delivery ended. -/
theorem Webhook.statusOf_cases {result : Except WebhookError Acceptance}
    (hmethod : result ≠ .error .method) :
    (statusOf result = 202 ∨ statusOf result = 400 ∨ statusOf result = 401 ∨
      statusOf result = 500) ∧
    (statusOf result = 202 ↔ result = .ok .noMatch ∨ ∃ names, result = .ok (.recorded names)) ∧
    (statusOf result = 400 ↔ ∃ e, result = .error (.provider e)) ∧
    (statusOf result = 401 ↔ result = .error .unauthorized) ∧
    (statusOf result = 500 ↔ ∃ e, result = .error (.store e)) := by
  cases result with
  | ok acceptance => cases acceptance <;> simp [statusOf]
  | error e =>
    cases e with
    | method => exact absurd rfl hmethod
    | provider _ | unauthorized | store _ => simp [statusOf, refusal]

/-- **The answer to a delivery.** -/
theorem answered_of_runs {d : Delivery} {retry : RetryPolicy} {xs : List Exchange}
    {result : Except WebhookError Acceptance}
    (h : (d.accept retry Provider.all).run.Runs [] xs result) :
    d.Answered retry xs (Webhook.statusOf result) result := by
  have hhandled := handled_of_runs h
  have hmethod : result ≠ .error .method := by
    rintro rfl
    obtain ⟨_, he, -⟩ | he | ⟨_, he⟩ := hhandled.error_cases <;> cases he
  obtain ⟨hknown, haccepted, hbad, hunauthorized, hfailed⟩ := Webhook.statusOf_cases hmethod
  refine ⟨h, hknown, haccepted, ?_, hunauthorized, hfailed, fun hnone x hx => ?_⟩
  · exact hbad.trans (exists_congr hhandled.provider_iff)
  · have hasks := hhandled.asks (hnone.imp_right (Or.imp hbad.mp hunauthorized.mp))
    exact (h.holds (fun _ h => absurd h List.not_mem_nil) x hx).asked (hasks x hx)

section

variable {route : Route} {retry : RetryPolicy} {r : HttpRequest} {xs : List Exchange}
  {response : HttpResponse}

/-- **What the push route answers.**  Every request is answered, whatever the store.  Whatever
others do to the store between the calls of the answer, and whichever of these fail: a request with
another method than POST is answered with 400, and a body that is longer than two mebibytes with
413, and nothing is done; everything else is taken in as a delivery.  That is answered with 400 if
it cannot be read, with 401 if no secret authenticates it, with 500 if a call failed, with 202
otherwise, and in no other case; and unless its push is recorded or a call failed, each of its calls
leaves the store as it is. -/
theorem push_route_answers (hpush : r.IsForPushes route)
    (hrun : (Webhook.answer route retry r).Runs [] xs response) :
    (∀ store, ∃ ys t other, (Webhook.answer route retry r).Runs [] ys other ∧ Alone store ys t) ∧
    (r.method ≠ "POST" → response.status = 400 ∧ xs = []) ∧
    (r.method = "POST" → Webhook.maxBodyLength < r.body.length → response.status = 413 ∧ xs = []) ∧
    (r.method = "POST" → r.body.length ≤ Webhook.maxBodyLength →
      ∃ result, r.delivery.Answered retry xs response.status result) := by
  obtain ⟨whole, hwhole, hstatus⟩ := Webhook.runs_answer hrun
  -- the request is for this route, so from here on only the method and the length count
  rw [Webhook.respond_eq hpush] at hwhole
  refine ⟨fun store => ?_, fun hmethod => ?_, fun hmethod hlong => ?_, fun hmethod hshort => ?_⟩
  · exact ⟨_, _, _, @Program.carryOut_runs _ Instant.epoch _ [] store [],
      Program.carryOut_alone _ (fun _ h => absurd h List.not_mem_nil) rfl⟩
  · rw [if_neg (by simpa using hmethod)] at hwhole
    cases hwhole
    exact ⟨hstatus, rfl⟩
  · rw [if_pos (by simpa using hmethod)] at hwhole
    obtain ⟨-, htooLong, hnone⟩ | ⟨hshort, -⟩ := Webhook.runs_receive hwhole
    · exact ⟨hstatus.trans htooLong, hnone⟩
    · exact absurd hlong (Nat.not_lt.mpr hshort)
  · rw [if_pos (by simpa using hmethod)] at hwhole
    obtain ⟨hlong, -⟩ | ⟨-, result, hdelivered, hwholeStatus⟩ := Webhook.runs_receive hwhole
    · exact absurd hlong (Nat.not_lt.mpr hshort)
    · rw [hstatus, hwholeStatus]
      exact ⟨result, answered_of_runs hdelivered⟩

end

/-! ## Runs -/

/-- The route of a run. -/
def pushRoute : Route := ⟨"/webhooks/push".toList.map .char⟩

/-- A request with the delivery for the request of a run. -/
def appRequest : HttpRequest := ⟨"POST", "/webhooks/push", appDelivery.headers, appDelivery.body⟩

/-- The request is answered, and nobody does anything meanwhile. -/
def answerApp : HttpResponse × List Exchange × MemoryStore :=
  (Webhook.answer pushRoute {} appRequest).carryOut (secondsIn 1) [] appStore []

/-- The delivery is accepted, and the request on which it is recorded is named. -/
theorem push_route_answers_app :
    answerApp.1.status = 202 ∧ ∃ result, appDelivery.Answered {} answerApp.2.1 202 result := by
  obtain ⟨hfits, hpath, hstatus⟩ : pushRoute.isMatch (Webhook.pathOf appRequest.target) = true ∧
      Webhook.pathOf appRequest.target ≠ Webhook.livenessPath ∧ answerApp.1.status = 202 := by
    decide +kernel
  have hpush : appRequest.IsForPushes pushRoute := ⟨hfits, fun h => absurd h hpath⟩
  have hshort : appRequest.body.length ≤ Webhook.maxBodyLength := by decide +kernel
  obtain ⟨-, -, -, hdelivered⟩ := push_route_answers hpush (Program.carryOut_runs _ [] appStore [])
  obtain ⟨result, hanswered⟩ := hdelivered rfl hshort
  exact ⟨hstatus, result, hstatus ▸ hanswered⟩

/-- A delivery that no provider knows, with a body of one byte more than two mebibytes. -/
def longRequest : HttpRequest :=
  ⟨"POST", "/webhooks/push", {}, List.replicate (Webhook.maxBodyLength + 1) 32⟩

/-- The delivery is no push, and yet it is not answered with any of the statuses of the route. -/
theorem long_body_refused : longRequest.IsForPushes pushRoute ∧
    longRequest.delivery.Unreadable Provider.all .unknownProvider ∧
    ∃ response, (Webhook.answer pushRoute {} longRequest).Runs [] [] response ∧
      response.status = 413 := by
  obtain ⟨hfits, hpath⟩ : pushRoute.isMatch (Webhook.pathOf longRequest.target) = true ∧
      Webhook.pathOf longRequest.target ≠ Webhook.livenessPath := by
    decide +kernel
  have hpush : longRequest.IsForPushes pushRoute := ⟨hfits, fun h => absurd h hpath⟩
  -- the body is never looked at: its length is known without it
  have hlong : Webhook.maxBodyLength < longRequest.delivery.body.length :=
    Nat.lt_of_lt_of_eq (Nat.lt_succ_self _) List.length_replicate.symm
  have hrespond : (Webhook.respond pushRoute {} longRequest).Runs [] []
      { status := 413, body := "Failed to buffer the request body: length limit exceeded" } := by
    rw [Webhook.respond_eq hpush, if_pos (by decide), Webhook.receive, if_pos hlong]
    exact .done _ _
  exact ⟨hpush, .undetected rfl, _, (Program.runs_bind _ _).mpr ⟨[], _, hrespond, .done _ _⟩, rfl⟩

end PushBuild
