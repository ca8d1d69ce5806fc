import PushBuild.Proofs.Webhook.Credential
import PushBuild.Proofs.Webhook.Effect

/-!
# What an empty secret is worth

A request names the secret that its deliveries are authenticated with, and the value of a secret may
be empty.

1. **The empty secret** (`authenticates_nil`).  A token is never right then.  A signature is right
   if it is that of the body under the empty key: nothing keeps an empty secret from being a key,
   and what is written as a signature is read back (`signatureBytes?_sign`), so whoever knows a
   secret can sign with it.
2. **Writes** (`Handled.written`).  A status that a delivery writes is that of a request that was
   accepted, and an accepted request had a secret with some value (`AuthenticatedIn.value`).
3. **The result** (`empty_secret_signature`), and a push that somebody without any secret has
   recorded (`empty_secret_forged`).
-/

namespace PushBuild

open PushBuild.Text

namespace Provider

/-! ## The empty secret -/

/-- The headers have the signature of the body under a key. -/
def Signed (key : Bytes) (headers : Headers) (body : Bytes) : Prop :=
  ∃ signature, headers.text? github.credentialHeader = some signature ∧
    signatureBytes? signature = some (Hmac.code key body)

/-- What is written as a signature is one. -/
theorem signed_of_sign {key body : Bytes} {headers : Headers}
    (h : headers.text? github.credentialHeader = some (sign key body).toList) :
    Signed key headers body := ⟨_, h, signatureBytes?_sign key body⟩

/-- **The empty secret** authenticates what is signed with the empty key, and no token. -/
theorem authenticates_nil (p : Provider) (headers : Headers) (body : Bytes) :
    p.authenticates headers body [] = true ↔ p = .github ∧ Signed [] headers body := by
  cases p with
  | github =>
    unfold authenticates Signed
    cases headers.text? github.credentialHeader with
    | none => simp
    | some signature => simp
  | gitlab =>
    unfold authenticates
    split <;> simp

/-- The headers of a push that is signed with the empty key, which takes no secret. -/
def unkeyedHeaders (body : Bytes) : Headers :=
  ⟨[("x-github-event", utf8 "push"),
    ("x-hub-signature-256", (sign [] body).toList.map fun c => UInt8.ofNat c.toNat)]⟩

/-- Any body can be signed without a secret. -/
theorem signed_unkeyedHeaders (body : Bytes) : Signed [] (unkeyedHeaders body) body := by
  refine signed_of_sign (Headers.text?_of_printable rfl ?_)
  intro c hc
  rw [sign, String.toList_ofList] at hc
  have hstart : ∀ c ∈ signatureStart, 32 ≤ c.toNat ∧ c.toNat < 127 := by simp [signatureStart]
  rcases List.mem_append.mp hc with hc | hc
  · exact hstart c hc
  · exact printable_of_mem_hexOfBytes hc

end Provider

/-! ## Writes -/

section

variable {key : ObjectKey} {change : StatusChange} {before acts : List Act}
  {request w : BuildRequest}

/-- Attempts that failed wrote nothing. -/
theorem Retried.write_mem (h : Retried key change before acts)
    (hwrite : .updateRequestStatus request (.ok w) ∈ acts) :
    .updateRequestStatus request (.ok w) ∈ before := by
  obtain ⟨more, rfl, hmore⟩ := h.attempts
  rcases List.mem_append.mp hwrite with hwrite | hwrite
  · obtain ⟨e, he⟩ : ∃ e, (.ok w : Except StoreError BuildRequest) = .error e := hmore _ hwrite
    cases he
  · exact hwrite

/-- What a change of a status wrote was made from the request as it was read. -/
theorem Modified.write_mem {found : Option BuildRequest} (h : Modified key change before found acts)
    (hwrite : .updateRequestStatus request (.ok w) ∈ acts) :
    .updateRequestStatus request (.ok w) ∈ before ∨
    ∃ r status, request = r.restated status ∧ .getRequest key (.ok (some r)) ∈ acts := by
  cases h with
  | gone h => exact Or.inl (h.write_mem ((List.mem_cons.mp hwrite).resolve_left nofun))
  | unchanged h _ => exact Or.inl (h.write_mem ((List.mem_cons.mp hwrite).resolve_left nofun))
  | @written _ r _ status h _ =>
    rcases List.mem_cons.mp hwrite with heq | hwrite
    · exact Or.inr ⟨r, status, (Act.updateRequestStatus.inj heq).1,
        List.mem_cons_of_mem _ List.mem_cons_self⟩
    · exact Or.inl (h.write_mem ((List.mem_cons.mp hwrite).resolve_left nofun))

/-- A change that failed wrote nothing. -/
theorem Unmodified.write_mem {e : StoreError} (h : Unmodified key change before e acts)
    (hwrite : .updateRequestStatus request (.ok w) ∈ acts) :
    .updateRequestStatus request (.ok w) ∈ before := by
  cases h with
  | unread h => exact h.write_mem ((List.mem_cons.mp hwrite).resolve_left nofun)
  | refused h _ =>
    refine h.write_mem
      ((List.mem_cons.mp ((List.mem_cons.mp hwrite).resolve_left ?_)).resolve_left nofun)
    exact fun heq => nomatch (Act.updateRequestStatus.inj heq).2

end

section

variable {event : PushEvent} {retry : RetryPolicy} {before after : List Exchange}
  {request w : BuildRequest}

/-- A record writes to the request as it was read. -/
theorem written_of_record {r : BuildRequest} {result : Except WebhookError Unit}
    (h : (Delivery.record retry event r).run.Runs before after result)
    (hwrite : .updateRequestStatus request (.ok w) ∈ actsIn after) :
    .updateRequestStatus request (.ok w) ∈ actsIn before ∨
    ∃ r₀ status, request = r₀.restated status ∧
      .getRequest r.key (.ok (some r₀)) ∈ actsIn after := by
  obtain ⟨n, time, hnow, -, -, hend⟩ := runs_record h
  -- reading the time writes nothing
  have hbefore : .updateRequestStatus request (.ok w) ∈ actsIn (n :: before) →
      .updateRequestStatus request (.ok w) ∈ actsIn before := fun h =>
    (List.mem_cons.mp h).resolve_left fun heq => nomatch heq.trans hnow
  rcases hend with ⟨-, found, hmodified⟩ | ⟨e, -, hunmodified⟩
  · exact (hmodified.write_mem hwrite).imp_left hbefore
  · exact Or.inl (hbefore (hunmodified.write_mem hwrite))

/-- Records write to the requests that they are for. -/
theorem written_of_records {rs : List BuildRequest} {result : Except WebhookError Unit}
    (h : (rs.forM (Delivery.record retry event)).run.Runs before after result)
    (hwrite : .updateRequestStatus request (.ok w) ∈ actsIn after) :
    .updateRequestStatus request (.ok w) ∈ actsIn before ∨
    ∃ r ∈ rs, ∃ r₀ status, request = r₀.restated status ∧
      .getRequest r.key (.ok (some r₀)) ∈ actsIn after := by
  induction rs generalizing before with
  | nil =>
    obtain ⟨rfl, -⟩ := runs_pure.mp h
    exact Or.inl hwrite
  -- a write is one of the first record, or of those after it
  | cons r rest ih =>
    rcases (runs_run_bind _ _).mp h with ⟨_, hfirst, -⟩ | ⟨mid, _, hfirst, hrest⟩
    · exact (written_of_record hfirst hwrite).imp_right fun hr => ⟨r, List.mem_cons_self, hr⟩
    · rcases ih hrest with hwrite | ⟨r', hr', hread⟩
      · rcases written_of_record hfirst hwrite with hwrite | ⟨r₀, status, hrequest, hread⟩
        · exact Or.inl hwrite
        · exact Or.inr ⟨r, List.mem_cons_self, r₀, status, hrequest, actsIn_mono hrest.suffix hread⟩
      · exact Or.inr ⟨r', List.mem_cons_of_mem _ hr', hread⟩

end

section

variable {d : Delivery} {retry : RetryPolicy} {providers : List Provider} {xs : List Exchange}
  {result : Except WebhookError Acceptance}

/-- Questions write nothing. -/
theorem not_written_of_asks {request w : BuildRequest} (h : ∀ x ∈ xs, x.act.Asks) :
    .updateRequestStatus request (.ok w) ∉ actsIn xs := fun hwrite => by
  obtain ⟨x, hx, hact⟩ := List.mem_map.mp hwrite
  have hasks := h x hx
  rw [hact] at hasks
  exact hasks

/-- **Who is written to.**  A status that a delivery writes is that of a request that was
authenticated. -/
theorem Handled.written {request w : BuildRequest} (h : Handled d retry providers xs result)
    (hholds : ∀ x ∈ xs, x.Holds) (hstores : ∀ x ∈ xs, x.before.WellFormed)
    (hwrite : .updateRequestStatus request (.ok w) ∈ actsIn xs) :
    ∃ provider r, Provider.detect providers d.headers = .ok provider ∧ r.key = request.key ∧
      AuthenticatedIn d provider r xs := by
  rcases h.asks_or_records with hasks |
    ⟨provider, event, accepted, mid, recorded, hbrings, hauthenticated, hasks, hrecord, -⟩
  · exact absurd hwrite (not_written_of_asks hasks)
  · rcases written_of_records hrecord hwrite with hwrite | ⟨r, hr, r₀, status, rfl, hread⟩
    · exact absurd hwrite (not_written_of_asks hasks)
    · -- the request that was read is stored under the key of the one that was accepted
      obtain ⟨x, hx, hact⟩ := List.mem_map.mp hread
      have hanswer := (hholds x hx).answer (.getRequest r.key) hact
      have hkey : r₀.key = r.key := (hstores x hx).key_eq (Except.ok.inj (Prod.mk.inj hanswer).1)
      exact ⟨provider, r, hbrings.detected, hkey.symm, hauthenticated r hr⟩

/-- **Who is reported** was authenticated. -/
theorem Handled.reported {names : List String}
    (h : Handled d retry providers xs (.ok (.recorded names))) :
    ∀ name ∈ names, ∃ provider r, Provider.detect providers d.headers = .ok provider ∧
      name = r.key.text ∧ AuthenticatedIn d provider r xs := by
  -- names are returned at the end of records only
  generalize hresult : (.ok (.recorded names) : Except WebhookError Acceptance) = result at h
  cases h with
  | unreadable _ | unlisted _ _ _ | unmatched _ _ _ _ | unasked _ _ _ _ _
  | unauthorized _ _ _ _ _ =>
    cases hresult
  | @recording provider _ _ _ accepted _ _ recorded hbrings _ _ hasked _ hrecord =>
    cases recorded with
    | error e => cases hresult
    | ok _ =>
      obtain rfl := Acceptance.recorded.inj (Except.ok.inj hresult)
      intro name hname
      obtain ⟨r, hr, rfl⟩ := List.mem_map.mp hname
      exact ⟨provider, r, hbrings.detected, rfl, (hasked.accepted r hr).2.mono hrecord.suffix⟩

end

/-! ## The result -/

/-- The request was asked for its secret, which has this value, and the value authenticated the
delivery. -/
def AuthenticatedBy (d : Delivery) (provider : Provider) (r : BuildRequest) (value : Bytes)
    (xs : List Exchange) : Prop :=
  ∃ secret data, r.spec.onCommit = some secret ∧
    .getSecret ⟨r.namespace, secret.name⟩ (.ok data) ∈ actsIn xs ∧
    data.bind (·.get? secret.key) = some value ∧
      provider.authenticates d.headers d.body value = true

/-- A secret that authenticates a delivery has some value. -/
theorem AuthenticatedIn.value {d : Delivery} {provider : Provider} {r : BuildRequest}
    {xs : List Exchange} (h : AuthenticatedIn d provider r xs) :
    ∃ value, AuthenticatedBy d provider r value xs := by
  obtain ⟨secret, data, hsecret, hact, hopens⟩ := h
  unfold Delivery.opens at hopens
  split at hopens
  · cases hopens
  · next value hvalue => exact ⟨value, secret, data, hsecret, hact, hvalue, hopens⟩

/-- The request let the delivery in, and if it did so for an empty secret, the delivery is from
GitHub and signed with the empty key. -/
def Delivery.LetIn (d : Delivery) (providers : List Provider) (r : BuildRequest)
    (xs : List Exchange) :
    Prop :=
  ∃ provider value, Provider.detect providers d.headers = .ok provider ∧
    AuthenticatedBy d provider r value xs ∧
    (value = [] → provider = .github ∧ Provider.Signed [] d.headers d.body)

/-- A request that was authenticated let the delivery in. -/
theorem AuthenticatedIn.letIn {d : Delivery} {provider : Provider} {r : BuildRequest}
    {xs : List Exchange} {providers : List Provider} (h : AuthenticatedIn d provider r xs)
    (hdetected : Provider.detect providers d.headers = .ok provider) : d.LetIn providers r xs := by
  obtain ⟨value, hvalue⟩ := h.value
  refine ⟨provider, value, hdetected, hvalue, ?_⟩
  -- the value is empty, and what that authenticates is known (`authenticates_nil`)
  rintro rfl
  obtain ⟨_, _, -, -, -, hauthentic⟩ := hvalue
  exact (Provider.authenticates_nil provider d.headers d.body).mp hauthentic

section

variable {d : Delivery} {retry : RetryPolicy} {providers : List Provider} {xs : List Exchange}
  {result : Except WebhookError Acceptance}

/-- **What an empty secret lets in.**  It authenticates what is signed with the empty key and
nothing else, so no token; but to sign with the empty key takes no secret, whatever the body.
Whatever others did to the store between the calls of a delivery, so long as requests are stored
under their own keys, and whichever of its calls failed: a request to which it wrote, or which it
reported, had a secret whose value authenticated it; and if that value was empty, the delivery is
from GitHub and signed with the empty key. -/
theorem empty_secret_signature (hstores : ∀ x ∈ xs, x.before.WellFormed)
    (hrun : (d.accept retry providers).run.Runs [] xs result) :
    (∀ (p : Provider) (headers : Headers) (body : Bytes),
      p.authenticates headers body [] = true ↔ p = .github ∧ Provider.Signed [] headers body) ∧
    (∀ body, Provider.github.authenticates (Provider.unkeyedHeaders body) body [] = true) ∧
    (∀ request w, .updateRequestStatus request (.ok w) ∈ actsIn xs →
      ∃ r, r.key = request.key ∧ d.LetIn providers r xs) ∧
    ∀ names, result = .ok (.recorded names) → ∀ name ∈ names,
      ∃ r, name = r.key.text ∧ d.LetIn providers r xs := by
  have hhandled := handled_of_runs hrun
  refine ⟨Provider.authenticates_nil, fun body => ?_, fun request w hwrite => ?_, ?_⟩
  · exact (Provider.authenticates_nil _ _ _).mpr ⟨rfl, Provider.signed_unkeyedHeaders body⟩
  · obtain ⟨provider, r, hdetected, hkey, hauthenticated⟩ :=
      hhandled.written (hrun.holds fun _ h => absurd h List.not_mem_nil) hstores hwrite
    exact ⟨r, hkey, hauthenticated.letIn hdetected⟩
  · rintro names rfl name hname
    obtain ⟨provider, r, hdetected, hkey, hauthenticated⟩ := hhandled.reported name hname
    exact ⟨r, hkey, hauthenticated.letIn hdetected⟩

end

/-! ## A run -/

/-- The store of a run, in which the secret of the request has no bytes. -/
def bareSecretStore : MemoryStore :=
  Deed.apply (.insertSecret ⟨"default", "hook"⟩ "token" []) appStore

/-- The body of a push to the branch that the request builds. -/
def unkeyedBody : Bytes :=
  utf8 "\x7b\"repository\":\x7b\"clone_url\":\"u\"\x7d,\"ref\":\"refs/heads/main\"\x7d"

/-- The push, signed with the empty key. -/
def unkeyedDelivery : Delivery := ⟨Provider.unkeyedHeaders unkeyedBody, unkeyedBody⟩

/-- The push is delivered, and nobody does anything meanwhile. -/
def deliverUnkeyed : Except WebhookError Acceptance × List Exchange × MemoryStore :=
  (unkeyedDelivery.accept {} Provider.all).run.carryOut (secondsIn 1) [] bareSecretStore []

/-- The push is recorded, and the request that lets it in has a secret without a byte: the delivery
is signed with the empty key. -/
theorem empty_secret_signature_unkeyed :
    deliverUnkeyed.1 = .ok (.recorded ["default/app"]) ∧
    ∃ r, "default/app" = r.key.text ∧ unkeyedDelivery.LetIn Provider.all r deliverUnkeyed.2.1 := by
  have hresult : deliverUnkeyed.1.toOption = some (.recorded ["default/app"]) := by decide +kernel
  have hok := eq_ok_of_toOption hresult
  have hmade : bareSecretStore.Made := .deed _ appStore_inserted.made
  have hstores : ∀ x ∈ deliverUnkeyed.2.1, x.before.WellFormed := fun x hx =>
    (Program.carryOut_made _ [] hmade (fun _ h => absurd h List.not_mem_nil) x hx).wellFormed
  obtain ⟨-, -, -, hnames⟩ :=
    empty_secret_signature hstores (Program.carryOut_runs _ [] bareSecretStore [])
  exact ⟨hok, hnames _ hok _ List.mem_cons_self⟩

/-- A push that somebody without any secret has signed is recorded on a request whose secret is
empty. -/
theorem empty_secret_forged :
    Provider.github.authenticates unkeyedDelivery.headers unkeyedDelivery.body [] = true ∧
    (∃ data ∈ bareSecretStore.secrets.get? ⟨"default", "hook"⟩, data.get? "token" = some []) ∧
    ∃ xs, (unkeyedDelivery.accept {} Provider.all).run.Runs [] xs
      (.ok (.recorded ["default/app"])) ∧
      Alone bareSecretStore xs deliverUnkeyed.2.2 ∧
      ∃ r ∈ deliverUnkeyed.2.2.requests.get? appKey,
        r.spec.onCommit = some ⟨"hook", "token"⟩ ∧ r.statusOrDefault.pending?.isSome := by
  obtain ⟨hauthentic, hsecret, hresult, hrecorded⟩ :
      Provider.github.authenticates unkeyedDelivery.headers unkeyedDelivery.body [] = true ∧
      (∃ data ∈ bareSecretStore.secrets.get? ⟨"default", "hook"⟩, data.get? "token" = some []) ∧
      deliverUnkeyed.1.toOption = some (.recorded ["default/app"]) ∧
      ∃ r ∈ deliverUnkeyed.2.2.requests.get? appKey,
        r.spec.onCommit = some ⟨"hook", "token"⟩ ∧ r.statusOrDefault.pending?.isSome := by
    decide +kernel
  refine ⟨hauthentic, hsecret, deliverUnkeyed.2.1, ?_, ?_, hrecorded⟩
  · rw [← eq_ok_of_toOption hresult]
    exact Program.carryOut_runs _ [] bareSecretStore []
  · exact Program.carryOut_alone _ (fun _ h => absurd h List.not_mem_nil) rfl

end PushBuild
