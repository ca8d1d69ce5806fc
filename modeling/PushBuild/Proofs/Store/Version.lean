import PushBuild.Proofs.Store.Dated
import PushBuild.Proofs.Store.Effect

/-!
# What a version tells

A status is written only if the version that was read is still the one that is stored.  That this
makes the write safe rests on one fact: two requests that were ever stored under one key with one
version are the same request.

1. **Stores.**  `WellFormed` says that every request is stored under its own key, with a version
   that was given already.  Every store that the operations make is (`Made.wellFormed`).
2. **One step.**  `Advances` says how a store may change: a request stays what it was or has a
   version above all earlier ones.  Every act and every deed advances the store.
3. **Runs.**  `Versioned` is the fact above for all stores of a run (`Versioned.dated`), an
   invariant (`Reaches.versioned`).  From it, a status write that succeeds applied its change to the
   request as it was stored (`Versioned.status_write`).
-/

namespace PushBuild

namespace MemoryStore

/-- Requests are stored under their own keys, with versions that were given. -/
structure WellFormed (s : MemoryStore) : Prop where
  key_eq : ∀ {key r}, s.requests.get? key = some r → r.key = key
  version : ∀ {key r}, s.requests.get? key = some r →
    ∃ n ≤ s.lastVersion, r.metadata.resourceVersion = some (toString n)

/-- The stores that the operations make, from the empty one on. -/
inductive Made : MemoryStore → Prop
  | empty : Made {}
  | call {s : MemoryStore} {α : Type} (call : StoreCall α) : Made s → Made (s.call call).2
  | deed {s : MemoryStore} (deed : Deed) : Made s → Made (deed.apply s)

/-- A store changes so that every request is what it was, or has a version above all before. -/
structure Advances (s t : MemoryStore) : Prop where
  lastVersion_le : s.lastVersion ≤ t.lastVersion
  request : ∀ key, t.requests.get? key = s.requests.get? key ∨
    ∃ r, t.requests.get? key = some r ∧ r.key = key ∧
      r.metadata.resourceVersion = some (toString t.lastVersion) ∧ s.lastVersion < t.lastVersion

variable {s t : MemoryStore}

/-- Requests that are left alone advance, in this weak sense. -/
theorem Advances.of_eq (hle : s.lastVersion ≤ t.lastVersion) (h : t.requests = s.requests) :
    s.Advances t := ⟨hle, fun key => Or.inl (by rw [h])⟩

/-- A request with a new version is stored under its key. -/
theorem Advances.of_insert {key : ObjectKey} {r : BuildRequest} (hkey : r.key = key)
    (hversion : r.metadata.resourceVersion = some (toString t.lastVersion))
    (hlt : s.lastVersion < t.lastVersion) (h : t.requests = s.requests.insert key r) :
    s.Advances t := by
  refine ⟨Nat.le_of_lt hlt, fun other => ?_⟩
  rw [h, SortedMap.get?_insert]
  split
  · next heq => exact Or.inr ⟨r, rfl, by rw [hkey, heq], hversion, hlt⟩
  · exact Or.inl rfl

/-- Advancing renews requests. -/
theorem Advances.renews (h : s.Advances t) :
    s.Renews (·.requests) (·.metadata.resourceVersion) t where
  lastVersion_le := h.lastVersion_le
  object key := (h.request key).imp_right fun ⟨r, hr, _, hnew⟩ => ⟨r, hr, hnew⟩

/-- Advancing keeps a store well-formed. -/
theorem Advances.wellFormed (h : s.Advances t) (hs : s.WellFormed) : t.WellFormed := by
  refine ⟨fun {key r} hr => ?_, fun {key r} hr => ?_⟩
  · rcases h.request key with heq | ⟨r', hr', hkey, -, -⟩
    · exact hs.key_eq (heq ▸ hr)
    · rw [hr'] at hr
      exact Option.some.inj hr ▸ hkey
  · rcases h.request key with heq | ⟨r', hr', -, hversion, -⟩
    · obtain ⟨n, hn, hr⟩ := hs.version (heq ▸ hr)
      exact ⟨n, Nat.le_trans hn h.lastVersion_le, hr⟩
    · rw [hr'] at hr
      exact ⟨_, Nat.le_refl _, Option.some.inj hr ▸ hversion⟩

end MemoryStore

/-- What acts do advances a well-formed store.  Only a status write and a label store a request, and
each of them takes a new version for it. -/
theorem Act.RequestEffect.advances {act : Act} {s t : MemoryStore} (h : act.RequestEffect s t)
    (hle : s.lastVersion ≤ t.lastVersion) (hs : s.WellFormed) : s.Advances t := by
  cases act with
  | updateRequestStatus request answer =>
    cases answer with
    | error e => exact .of_eq hle h
    | ok written =>
      obtain ⟨stored, hstored, -, rfl, ht, hlt⟩ := h
      have hkey := hs.key_eq hstored
      exact .of_insert
        (r := ({ stored with status := request.status } : BuildRequest).withVersion _)
        hkey rfl hlt ht
  | setRequestLabel key label value answer =>
    cases answer with
    | error e => exact .of_eq hle h
    | ok _ =>
      obtain ⟨stored, hstored, ht, hlt⟩ := h
      have hkey := hs.key_eq hstored
      exact .of_insert (r := (stored.withLabel label value).withVersion _) hkey rfl hlt ht
  | _ => exact .of_eq hle h

/-- What others do advances a well-formed store.  Of the deeds only a new request, an edit and a
label store one. -/
theorem Deed.advances (deed : Deed) {s : MemoryStore} (hs : s.WellFormed) :
    s.Advances (deed.apply s) := by
  have heffect := deed.requestEffect s
  have hle := deed.lastVersion_le s
  cases deed with
  | insertRequest request =>
    obtain ⟨written, hversion, -, ht, hlt⟩ := heffect
    exact .of_insert rfl hversion hlt ht
  | updateSpec key spec =>
    rcases heffect with ⟨-, ht⟩ | ⟨stored, hstored, ht, hlt⟩
    · exact .of_eq hle ht
    · have hkey := hs.key_eq hstored
      exact .of_insert (r := (stored.withSpec spec).withVersion _) hkey rfl hlt ht
  | setLabel key label value =>
    rcases heffect with ⟨-, ht⟩ | ⟨stored, hstored, ht, hlt⟩
    · exact .of_eq hle ht
    · have hkey := hs.key_eq hstored
      exact .of_insert (r := (stored.withLabel label value).withVersion _) hkey rfl hlt ht
  | _ => exact .of_eq hle heffect

/-- An answer by the store, as an act. -/
theorem StoreCall.act_served {α : Type} (call : StoreCall α) (s : MemoryStore) (now : Instant) :
    (call.act (s.call call).1).Served s now (s.call call).2 := by
  cases call <;> rfl

/-- **Stores are well-formed**, whatever made them. -/
theorem MemoryStore.Made.wellFormed {s : MemoryStore} (h : s.Made) : s.WellFormed := by
  induction h with
  | empty => exact ⟨nofun, nofun⟩
  | call call _ ih =>
    obtain ⟨hle, heffect, -⟩ := (call.act_served _ Instant.epoch).effects []
    exact (heffect.advances hle ih).wellFormed ih
  | deed deed _ ih => exact (deed.advances ih).wellFormed ih

/-- **Every request has a uid**, whatever made the store.  It is given one when it is put there, and
nothing that becomes of a request changes it. -/
theorem MemoryStore.Made.identified {s : MemoryStore} (h : s.Made) {key : ObjectKey}
    {r : BuildRequest} (hr : s.requests.get? key = some r) : ∃ uid, r.metadata.uid = some uid := by
  induction h generalizing r with
  | empty => cases hr
  -- a call makes something of a request that was there
  | @call s _ call _ ih =>
    have heffect := ((call.act_served s Instant.epoch).effects []).2.1
    obtain ⟨r₀, hr₀⟩ := Option.isSome_iff_exists.mp (heffect.isSome (Option.isSome_of_mem hr))
    obtain ⟨r', hr', hcases⟩ := heffect.request hr₀
    obtain rfl := Option.some.inj (hr'.symm.trans hr)
    obtain ⟨uid, huid⟩ := ih hr₀
    rcases hcases with rfl | ⟨_, _, _, _, -, rfl⟩ | ⟨_, _, -, -, -, rfl⟩ <;> exact ⟨uid, huid⟩
  | @deed s deed _ ih =>
    by_cases hinserts : deed.Inserts key
    · -- the request is put there
      obtain ⟨_, written, -, hwritten, -, huid⟩ := Deed.inserted (s := s) hinserts
      exact Option.some.inj (hwritten.symm.trans hr) ▸ huid
    · obtain ⟨r₀, hr₀⟩ := Option.isSome_iff_exists.mp
        (Deed.isSome hinserts (Option.isSome_of_mem hr))
      obtain ⟨r', hr', hcases⟩ := Deed.request hr₀ hinserts
      obtain rfl := Option.some.inj (hr'.symm.trans hr)
      obtain ⟨uid, huid⟩ := ih hr₀
      rcases hcases with rfl | ⟨_, _, _, rfl⟩ | ⟨_, _, -, rfl⟩ <;> exact ⟨uid, huid⟩

namespace System

variable {ι : Type} {ρ : ι → Type} {s : System ι ρ}

/-- What holds of all requests a run has stored: their keys are their own, their versions were
given, and of one key one version has one request. -/
structure Versioned (s : System ι ρ) : Prop where
  key_eq : ∀ {key r}, s.Stored key r → r.key = key
  version : ∀ {key r}, s.Stored key r →
    ∃ n ≤ s.store.lastVersion, r.metadata.resourceVersion = some (toString n)
  unique : ∀ {key r r'}, s.Stored key r → s.Stored key r' →
    r.metadata.resourceVersion = r'.metadata.resourceVersion → r = r'

/-- What is stored now was stored. -/
theorem stored_of_get? {key : ObjectKey} {r : BuildRequest}
    (h : s.store.requests.get? key = some r) : s.Stored key r := ⟨_, List.mem_cons_self, h⟩

/-- So the store is well-formed. -/
theorem Versioned.wellFormed (h : s.Versioned) : s.store.WellFormed :=
  ⟨fun hr => h.key_eq (stored_of_get? hr), fun hr => h.version (stored_of_get? hr)⟩

/-- At the start only one store was seen. -/
theorem versioned_start {store : MemoryStore} (h : store.WellFormed) (now : Instant)
    (pool : (i : ι) → Program (ρ i)) : (start store now pool).Versioned := by
  have hpast : ∀ {key r}, (start store now pool).Stored key r →
      store.requests.get? key = some r := by
    rintro key r ⟨t, ht, hr⟩
    rw [List.mem_singleton.mp ht] at hr
    exact hr
  refine ⟨fun hr => h.key_eq (hpast hr), fun hr => h.version (hpast hr), fun hr hr' _ => ?_⟩
  exact Option.some.inj ((hpast hr).symm.trans (hpast hr'))

/-- What is stored after one more store was seen. -/
theorem stored_cons {s' : System ι ρ} (hpast : s'.past = s'.store :: s.past) {key : ObjectKey}
    {r : BuildRequest} :
    s'.Stored key r ↔ s'.store.requests.get? key = some r ∨ s.Stored key r := by
  unfold Stored
  rw [hpast]
  constructor
  · rintro ⟨t, ht, hr⟩
    rcases List.mem_cons.mp ht with rfl | ht
    · exact Or.inl hr
    · exact Or.inr ⟨t, ht, hr⟩
  · rintro (hr | ⟨t, ht, hr⟩)
    · exact ⟨_, List.mem_cons_self, hr⟩
    · exact ⟨t, List.mem_cons_of_mem _ ht, hr⟩

/-- The requests of all stores that were seen are told apart by their versions. -/
theorem Versioned.dated (h : s.Versioned) :
    Dated (·.requests) (·.metadata.resourceVersion) s.store.lastVersion s.past where
  given hs hr := h.version ⟨_, hs, hr⟩
  unique hs hs' hr hr' := h.unique ⟨_, hs, hr⟩ ⟨_, hs', hr'⟩

/-- A store that advances keeps the versions apart. -/
theorem Versioned.advance {s' : System ι ρ} (h : s.Versioned) (hadv : s.store.Advances s'.store)
    (hpast : s'.past = s'.store :: s.past) : s'.Versioned := by
  have hdated := h.dated.next List.mem_cons_self hadv.renews
  rw [← hpast] at hdated
  refine ⟨fun hr => ?_, fun ⟨_, ht, hr⟩ => hdated.given ht hr,
    fun ⟨_, ht, hr⟩ ⟨_, ht', hr'⟩ => hdated.unique ht ht' hr hr'⟩
  rcases (stored_cons hpast).mp hr with hr | hr
  · exact (hadv.wellFormed h.wellFormed).key_eq hr
  · exact h.key_eq hr

/-- What a deed of others leaves of `Versioned`. -/
theorem Versioned.did (h : s.Versioned) (deed : Deed) : (s.did deed).Versioned :=
  h.advance (deed.advances h.wellFormed) rfl

/-- The clock has nothing to do with versions. -/
theorem Versioned.ticked (h : s.Versioned) (now : Instant) : (s.ticked now).Versioned :=
  ⟨h.key_eq, h.version, h.unique⟩

/-- Once stored is stored for good, as far as the past is concerned. -/
theorem Stored.did {key : ObjectKey} {r : BuildRequest} (h : s.Stored key r) (deed : Deed) :
    (s.did deed).Stored key r := by
  obtain ⟨old, hold, hr⟩ := h
  exact ⟨old, List.mem_cons_of_mem _ hold, hr⟩

section

variable [DecidableEq ι]

/-- The requests that programs were told of were stored. -/
def Informed (s : System ι ρ) : Prop :=
  ∀ i key r, .getRequest key (.ok (some r)) ∈ s.acts i → s.Stored key r

/-- What an act of a program leaves of `Versioned`. -/
theorem Versioned.acted (h : s.Versioned) {i : ι} {act : Act} {t : MemoryStore}
    (hanswer : s.Answers act t) (rest : Program (ρ i)) : (s.acted i act rest t).Versioned :=
  h.advance (hanswer.requestEffect.advances hanswer.lastVersion_le h.wellFormed) rfl

/-- This is so for acts of programs as well. -/
theorem Stored.acted {key : ObjectKey} {r : BuildRequest} (h : s.Stored key r) (i : ι) (act : Act)
    (rest : Program (ρ i)) (t : MemoryStore) : (s.acted i act rest t).Stored key r := by
  obtain ⟨old, hold, hr⟩ := h
  exact ⟨old, List.mem_cons_of_mem _ hold, hr⟩

/-- A program that reads a request is told of one that was stored, -/
theorem Informed.acted (h : s.Informed) {i : ι} {act : Act} {t : MemoryStore}
    (hanswer : s.Answers act t) (rest : Program (ρ i)) : (s.acted i act rest t).Informed := by
  intro j key r hr
  rcases mem_acts_acted hr with hact | hr
  · obtain ⟨old, hold, hfound⟩ := (hact ▸ hanswer).requestAnswer
    exact ⟨old, List.mem_cons_of_mem _ hold, hfound.symm⟩
  · exact (h j key r hr).acted i act rest t

/-- and stays told of it, whatever time goes by -/
theorem Informed.ticked (h : s.Informed) (now : Instant) : (s.ticked now).Informed := h

/-- and whatever others do. -/
theorem Informed.did (h : s.Informed) (deed : Deed) : (s.did deed).Informed :=
  fun i key r hr => (h i key r hr).did deed

/-- **The run lemma.**  In every state that is reached versions tell requests apart, and what
programs were told was stored. -/
theorem Reaches.versioned {w : Surroundings} {store : MemoryStore} {now : Instant}
    {pool : (i : ι) → Program (ρ i)} (hrun : Reaches w (start store now pool) s)
    (hmade : store.Made) :
    s.Versioned ∧ s.Informed :=
  hrun.invariant (J := fun s => s.Versioned ∧ s.Informed)
    ⟨versioned_start hmade.wellFormed now pool, fun _ _ _ h => absurd h List.not_mem_nil⟩
    (fun _ _ _ rest _ h hanswer => ⟨h.1.acted hanswer rest, h.2.acted hanswer rest⟩)
    (fun _ deed h _ => ⟨h.1.did deed, h.2.did deed⟩)
    (fun _ now h => ⟨h.1.ticked now, h.2.ticked now⟩)

end

/-- **Equal versions, equal requests.**  A status write that succeeds was made to the request as it
was stored, if it was made to a request that was ever stored. -/
theorem Versioned.status_write (h : s.Versioned) {key : ObjectKey} {r written : BuildRequest}
    {status : BuildRequestStatus} {t : MemoryStore} (hr : s.Stored key r)
    (heffect : (Act.updateRequestStatus { r with status := some status }
      (.ok written)).RequestEffect s.store t) :
    s.store.requests.get? key = some r ∧
      written = ({ r with status := some status } : BuildRequest).withVersion t.lastVersion ∧
      t.requests = s.store.requests.insert key written := by
  obtain ⟨stored, hstored, hversion, hwritten, ht, -⟩ := heffect
  -- the request that is stored has the version of the one that was read, so it is that one
  have hkey : r.key = key := h.key_eq hr
  rw [BuildRequest.key_withStatus, hkey] at hstored ht
  have heq : stored = r := h.unique (stored_of_get? hstored) hr hversion
  subst heq
  exact ⟨hstored, hwritten, ht⟩

end System

end PushBuild
