import PushBuild.Proofs.Webhook.Headers
import PushBuild.Webhook.Provider

/-!
# What is read from a payload

A body may be any bytes, and a JSON document may have any values anywhere.  A push is read from few
places of it.

1. **Places.**  A text stands at the end of a path (`Json.Holds`) or it does not; whether nothing is
   there, or null, or a number, or only blanks, or the path leads through something that has no
   members, makes no difference.
2. **The first text** (`Json.Finds`) along some paths is the text at the first of them that has one
   (`firstText?_eq_some_iff`), and is told by the values at these paths (`firstText?_congr`).
3. **Pushes.**  A document reports a push if it has the push's address and ref, and its commit or
   none at all (`Provider.Reports`).  This is what the program reads from it (`pushOf_eq_ok_iff`),
   and what it needs for that is an address and a ref (`exists_reports_iff`).
4. **Formats.**  How a provider tells of a push is data (`PushFormat`), and `PushFormat.Governs` is
   what such a format says of a delivery.  The result (`payload_parsed`) writes the formats of the
   two providers down.
-/

namespace PushBuild

open Text

/-! ## Places -/

namespace Json

/-- The document that a body is. -/
def ofBody? (body : Bytes) : Option Json := (ofUtf8? body).bind fun s => document? s.toList

/-- A text that is not blank stands at the end of the path. -/
def Holds (v : Json) (path : List String) (s : String) : Prop :=
  v.at? path = some (.str s) ∧ isAllBlank s = false

/-- The text stands at the end of a path, and at the end of no path before it there is one. -/
def Finds (v : Json) (paths : List (List String)) (s : String) : Prop :=
  ∃ front path back, paths = front ++ path :: back ∧ v.Holds path s ∧
    ∀ skipped ∈ front, ∀ t, ¬ v.Holds skipped t

section

variable {v w : Json} {paths : List (List String)} {s : String}

/-- The text at the end of the path, if one that is not blank stands there. -/
def textAt? (v : Json) (path : List String) : Option String :=
  ((v.at? path).bind text?).filter fun s => !isAllBlank s

/-- What is read at the end of a path is the text that stands there. -/
theorem textAt?_eq_some_iff {path : List String} : v.textAt? path = some s ↔ v.Holds path s := by
  rw [textAt?, Option.filter_eq_some_iff, Bool.not_eq_true', Option.bind_eq_some_iff, Holds]
  refine and_congr_left' ⟨?_, fun h => ⟨_, h, rfl⟩⟩
  rintro ⟨u, hu, htext⟩
  -- no other kind of value is a text
  cases u with
  | str t =>
    obtain rfl := Option.some.inj htext
    exact hu
  | _ => cases htext

/-- Nothing is read exactly where no text stands. -/
theorem textAt?_eq_none_iff {path : List String} :
    v.textAt? path = none ↔ ∀ s, ¬ v.Holds path s := by
  simp only [Option.eq_none_iff_forall_ne_some, ne_eq, textAt?_eq_some_iff]

/-! ## The first text -/

/-- **The first text** is the one at the first path that has one. -/
theorem firstText?_eq_some_iff : v.firstText? paths = some s ↔ v.Finds paths s := by
  show paths.findSome? v.textAt? = some s ↔ v.Finds paths s
  simp only [List.findSome?_eq_some_iff, textAt?_eq_some_iff, textAt?_eq_none_iff, Finds]

/-- There is no first text exactly if none of the paths has one. -/
theorem firstText?_eq_none_iff :
    v.firstText? paths = none ↔ ∀ path ∈ paths, ∀ s, ¬ v.Holds path s := by
  show paths.findSome? v.textAt? = none ↔ _
  simp only [List.findSome?_eq_none_iff, textAt?_eq_none_iff]

/-- There is a first text if there is any. -/
theorem exists_finds_iff : (∃ s, v.Finds paths s) ↔ ∃ path ∈ paths, ∃ s, v.Holds path s := by
  constructor
  · rintro ⟨s, front, path, back, rfl, hholds, -⟩
    exact ⟨path, List.mem_append_right _ List.mem_cons_self, s, hholds⟩
  · rintro ⟨path, hpath, s, hholds⟩
    have hsome : v.firstText? paths ≠ none :=
      fun hnone => firstText?_eq_none_iff.mp hnone path hpath s hholds
    obtain ⟨t, ht⟩ := Option.ne_none_iff_exists'.mp hsome
    exact ⟨t, firstText?_eq_some_iff.mp ht⟩

/-- The first text is told by the values at the paths. -/
theorem firstText?_congr (h : ∀ path ∈ paths, v.at? path = w.at? path) :
    v.firstText? paths = w.firstText? paths := by
  show paths.findSome? v.textAt? = paths.findSome? w.textAt?
  induction paths with
  | nil => rfl
  | cons path rest ih =>
    have hpath : v.textAt? path = w.textAt? path := by
      rw [textAt?, textAt?, h path List.mem_cons_self]
    rw [List.findSome?_cons, List.findSome?_cons, hpath, ih fun p hp =>
      h p (List.mem_cons_of_mem _ hp)]

end

end Json

/-! ## Pushes -/

namespace Provider

/-- The document reports the push: it has the first address and the first ref that are found, and
the first commit or, if none is found, no text. -/
structure Reports (p : Provider) (v : Json) (event : PushEvent) : Prop where
  url : v.Finds p.urlPaths event.url
  ref : v.Finds refPaths event.ref
  commit : v.Finds p.commitPaths event.commit ∨
    (∀ path ∈ p.commitPaths, ∀ s, ¬ v.Holds path s) ∧ event.commit = ""

section

variable {p : Provider} {v w : Json} {event : PushEvent} {headers : Headers} {body : Bytes}

/-- A commit that is not told is the empty text. -/
theorem commit_iff {paths : List (List String)} {commit : String} :
    (v.firstText? paths).getD "" = commit ↔
      v.Finds paths commit ∨ (∀ path ∈ paths, ∀ s, ¬ v.Holds path s) ∧ commit = "" := by
  rw [← Json.firstText?_eq_some_iff, ← Json.firstText?_eq_none_iff]
  cases v.firstText? paths <;> simp [eq_comm]

/-- **What is read from a document** is the push that it reports. -/
theorem pushOf_eq_ok_iff : p.pushOf v = .ok event ↔ p.Reports v event := by
  constructor
  · -- the program looks for the address before the ref, so each of the two may end it
    intro h
    unfold pushOf at h
    split at h
    · cases h
    · next url hurl =>
      split at h
      · cases h
      · next ref href =>
        obtain rfl := Except.ok.inj h
        exact ⟨Json.firstText?_eq_some_iff.mp hurl, Json.firstText?_eq_some_iff.mp href,
          commit_iff.mp rfl⟩
  · rintro ⟨hurl, href, hcommit⟩
    rw [pushOf, Json.firstText?_eq_some_iff.mpr hurl]
    dsimp only
    rw [Json.firstText?_eq_some_iff.mpr href]
    dsimp only
    rw [commit_iff.mpr hcommit]

/-- A document reports a push if it has an address and a ref. -/
theorem exists_reports_iff : (∃ event, p.Reports v event) ↔
    (∃ path ∈ p.urlPaths, ∃ s, v.Holds path s) ∧ ∃ path ∈ refPaths, ∃ s, v.Holds path s := by
  rw [← Json.exists_finds_iff, ← Json.exists_finds_iff]
  constructor
  · rintro ⟨event, h⟩
    exact ⟨⟨_, h.url⟩, _, h.ref⟩
  · rintro ⟨⟨url, hurl⟩, ref, href⟩
    exact ⟨⟨url, ref, _⟩, hurl, href, commit_iff.mp rfl⟩

/-- The push is told by the values at the paths. -/
theorem pushOf_congr
    (h : ∀ path ∈ p.urlPaths ++ refPaths ++ p.commitPaths, v.at? path = w.at? path) :
    p.pushOf v = p.pushOf w := by
  have hurl := Json.firstText?_congr fun path hpath =>
    h path (List.mem_append_left _ (List.mem_append_left _ hpath))
  have href := Json.firstText?_congr fun path hpath =>
    h path (List.mem_append_left _ (List.mem_append_right _ hpath))
  have hcommit := Json.firstText?_congr fun path hpath => h path (List.mem_append_right _ hpath)
  rw [pushOf, pushOf, hurl, href, hcommit]

/-! ## Deliveries -/

/-- The name of an event is printable ASCII. -/
theorem printable_pushEvent (p : Provider) :
    ∀ c ∈ p.pushEvent.toList, 32 ≤ c.toNat ∧ c.toNat < 127 := by
  cases p <;> simp [pushEvent]

/-- The event is read as that of a push exactly if the first value under the header is its name. -/
theorem event_eq_iff : String.ofList ((headers.text? p.eventHeader).getD []) = p.pushEvent ↔
    headers.FirstIs p.eventHeader (utf8 p.pushEvent) := by
  constructor
  · intro h
    cases htext : headers.text? p.eventHeader with
    | none =>
      -- no event at all is named like no event
      rw [htext] at h
      cases p <;> exact absurd h (by decide)
    | some cs =>
      obtain ⟨value, hfirst, hprintable, rfl⟩ := Headers.text?_eq_some_iff.mp htext
      rw [htext, Option.getD_some] at h
      rw [← h, utf8_ofAscii hprintable.ascii]
      exact hfirst
  · intro hfirst
    have hprintable := Headers.printable_utf8 p.printable_pushEvent
    have hname := ofAscii_utf8 fun c hc => Nat.lt_succ_of_lt (p.printable_pushEvent c hc).2
    rw [String.ofList_toList] at hprintable hname
    have htext := Headers.text?_eq_some_iff.mpr ⟨_, hfirst, hprintable, hname⟩
    rw [htext, Option.getD_some, String.ofList_toList]

/-- A body that is no document is refused as such. -/
theorem payloadOf_of_none (h : Json.ofBody? body = none) : p.payloadOf body = .error .notJson := by
  have hread : ((ofUtf8? body).bind fun s => Json.document? s.toList) = none := h
  rw [payloadOf, hread]

/-- Of a document, what is read is its push. -/
theorem payloadOf_of_some (h : Json.ofBody? body = some v) : p.payloadOf body = p.pushOf v := by
  have hread : ((ofUtf8? body).bind fun s => Json.document? s.toList) = some v := h
  rw [payloadOf, hread]

/-- A push is read from a body exactly if it is a document that reports it. -/
theorem payloadOf_eq_ok_iff : p.payloadOf body = .ok event ↔
    ∃ v, Json.ofBody? body = some v ∧ p.Reports v event := by
  cases h : Json.ofBody? body with
  | none => simp [payloadOf_of_none h]
  | some v => simp [payloadOf_of_some h, pushOf_eq_ok_iff]

/-- **What is read from a delivery.** -/
theorem parse_eq_ok_iff : p.parse headers body = .ok event ↔
    headers.FirstIs p.eventHeader (utf8 p.pushEvent) ∧ ∃ v, Json.ofBody? body = some v ∧
      p.Reports v event := by
  rw [← event_eq_iff, ← payloadOf_eq_ok_iff, parse]
  split
  · next hevent =>
    simp only [hevent, true_and]
    cases p.payloadOf body <;> simp [Except.mapError]
  · next hevent => simp [hevent]

end

end Provider

/-! ## The result -/

/-- How a provider tells of a push: the header and the name of the event, and the paths along which
its documents are searched, each list in the order in which it is tried. -/
structure PushFormat where
  header : String
  event : String
  urls : List (List String)
  refs : List (List String)
  commits : List (List String)

/-- The format says what is read from a delivery to the provider. -/
structure PushFormat.Governs (f : PushFormat) (p : Provider) (headers : Headers) (body : Bytes) :
    Prop where
  /-- a push is read exactly if the first value under the header is the name of the event, the body
  is a JSON document, and texts that are not blank stand at one of the paths for the address and at
  one of those for the ref -/
  reads : (∃ event, p.parse headers body = .ok event) ↔
    headers.FirstIs f.header (utf8 f.event) ∧ ∃ v, Json.ofBody? body = some v ∧
      (∃ path ∈ f.urls, ∃ s, v.Holds path s) ∧ ∃ path ∈ f.refs, ∃ s, v.Holds path s
  /-- the push has the first such texts, as they stand there, and no text as its commit if there is
  none -/
  told : ∀ event, p.parse headers body = .ok event → ∃ v, Json.ofBody? body = some v ∧
    v.Finds f.urls event.url ∧ v.Finds f.refs event.ref ∧
    (v.Finds f.commits event.commit ∨
      (∀ path ∈ f.commits, ∀ s, ¬ v.Holds path s) ∧ event.commit = "")
  /-- two documents with the same values at all these paths give the same push or the same error -/
  only : ∀ (other : Bytes) (v w : Json), Json.ofBody? body = some v →
    Json.ofBody? other = some w →
    (∀ path ∈ f.urls ++ f.refs ++ f.commits, v.at? path = w.at? path) →
    p.parse headers body = p.parse headers other

open Provider

/-- What is read from a delivery goes by the places that its provider has. -/
theorem governs_places (p : Provider) (headers : Headers) (body : Bytes) :
    PushFormat.Governs ⟨p.eventHeader, p.pushEvent, p.urlPaths, refPaths, p.commitPaths⟩ p headers
      body where
  reads := by
    simp only [parse_eq_ok_iff, ← exists_reports_iff]
    constructor
    · rintro ⟨event, hfirst, v, hv, hreports⟩
      exact ⟨hfirst, v, hv, event, hreports⟩
    · rintro ⟨hfirst, v, hv, event, hreports⟩
      exact ⟨event, hfirst, v, hv, hreports⟩
  told event hevent := by
    obtain ⟨-, v, hv, hreports⟩ := parse_eq_ok_iff.mp hevent
    exact ⟨v, hv, hreports.url, hreports.ref, hreports.commit⟩
  only other v w hv hw hagree := by
    rw [parse, parse, payloadOf_of_some hv, payloadOf_of_some hw, pushOf_congr hagree]

/-- The push is read whose texts are found. -/
theorem PushFormat.Governs.parse_eq {f : PushFormat} {p : Provider} {headers : Headers}
    {body : Bytes} (h : f.Governs p headers body) {v : Json} {url ref : String}
    (hfirst : headers.FirstIs f.header (utf8 f.event)) (hv : Json.ofBody? body = some v)
    (hurl : v.firstText? f.urls = some url) (href : v.firstText? f.refs = some ref) :
    p.parse headers body = .ok ⟨url, ref, (v.firstText? f.commits).getD ""⟩ := by
  have hplaces := And.intro (Json.exists_finds_iff.mp ⟨url, Json.firstText?_eq_some_iff.mp hurl⟩)
    (Json.exists_finds_iff.mp ⟨ref, Json.firstText?_eq_some_iff.mp href⟩)
  obtain ⟨event, hevent⟩ := h.reads.mpr ⟨hfirst, v, hv, hplaces⟩
  obtain ⟨w, hw, hurls, hrefs, hcommits⟩ := h.told event hevent
  obtain rfl := Option.some.inj (hv.symm.trans hw)
  have hurl' := Option.some.inj (hurl.symm.trans (Json.firstText?_eq_some_iff.mpr hurls))
  have href' := Option.some.inj (href.symm.trans (Json.firstText?_eq_some_iff.mpr hrefs))
  rw [hevent, hurl', href', commit_iff.mpr hcommits]

/-- **A push is read only from a push, and only from where it is told.**  GitHub names the event
`push` under its header, and has the address of the repository for cloning before the one for
looking at it, and the commit after the push before the one at its head.  GitLab names it
`Push Hook`, and has the address of the project for cloning before that of the repository and the
one for looking at it, and the commit that is checked out before the one after the push. -/
theorem payload_parsed (headers : Headers) (body : Bytes) :
    PushFormat.Governs
      { header := "x-github-event"
        event := "push"
        urls := [["repository", "clone_url"], ["repository", "html_url"]]
        refs := [["ref"]]
        commits := [["after"], ["head_commit", "id"]] } .github headers body ∧
    PushFormat.Governs
      { header := "x-gitlab-event"
        event := "Push Hook"
        urls := [["project", "git_http_url"], ["repository", "git_http_url"],
          ["project", "web_url"]]
        refs := [["ref"]]
        commits := [["checkout_sha"], ["after"]] } .gitlab headers body :=
  ⟨governs_places .github headers body, governs_places .gitlab headers body⟩

/-! ## Bodies -/

/-- A document with a blank for the address to clone, a number for the commit after the push, and
both the other address and the other commit. -/
def fallbackDocument : Json :=
  .obj [("ref", .str "refs/heads/main"), ("after", .int 0),
    ("head_commit", .obj [("id", .str "c1")]),
    ("repository", .obj [("clone_url", .str " "), ("html_url", .str "https://github.com/org/app")])]

/-- Its text. -/
def fallbackBody : Bytes :=
  utf8 ("\x7b\"ref\":\"refs/heads/main\",\"after\":0,\"head_commit\":\x7b\"id\":\"c1\"\x7d," ++
    "\"repository\":\x7b\"clone_url\":\" \",\"html_url\":\"https://github.com/org/app\"\x7d\x7d")

/-- The header of a push to GitHub, and no other. -/
def pushHeaders : Headers := ⟨[("x-github-event", utf8 "push")]⟩

/-- A document whose first path for the address leads to a blank, the second through an array, and
the third to an address; it has a ref and no commit. -/
def sparseDocument : Json :=
  .obj [("project", .obj [("git_http_url", .str " "), ("web_url", .str "u")]),
    ("repository", .arr [.int 1]), ("ref", .str "r")]

/-- The same with one member more. -/
def crowdedDocument : Json :=
  .obj [("project", .obj [("git_http_url", .str " "), ("web_url", .str "u")]),
    ("repository", .arr [.int 1]), ("ref", .str "r"), ("user", .null)]

/-- The text of the first of these two, and spaces in it. -/
def sparseBody : Bytes :=
  utf8 ("\x7b\"project\": \x7b\"git_http_url\": \" \", \"web_url\": \"u\"\x7d, " ++
    "\"repository\": [1], \"ref\": \"r\"\x7d")

/-- The text of the second. -/
def crowdedBody : Bytes :=
  utf8 ("\x7b\"project\":\x7b\"git_http_url\":\" \",\"web_url\":\"u\"\x7d," ++
    "\"repository\":[1],\"ref\":\"r\",\"user\":null\x7d")

/-- The header of a push to GitLab, and no other. -/
def hookHeaders : Headers := ⟨[("x-gitlab-event", utf8 "Push Hook")]⟩

/-- A push to GitHub whose address and commit are each found at the second place, and one to GitLab
with the address at the third and no commit, which is the same with a member more. -/
theorem payload_parsed_fallbacks :
    github.parse pushHeaders fallbackBody =
      .ok ⟨"https://github.com/org/app", "refs/heads/main", "c1"⟩ ∧
    gitlab.parse hookHeaders sparseBody = .ok ⟨"u", "r", ""⟩ ∧
    gitlab.parse hookHeaders sparseBody = gitlab.parse hookHeaders crowdedBody := by
  have hfallback : Json.ofBody? fallbackBody = some fallbackDocument := by decide +kernel
  have hsparse : Json.ofBody? sparseBody = some sparseDocument := by decide +kernel
  have hcrowded : Json.ofBody? crowdedBody = some crowdedDocument := by decide +kernel
  obtain ⟨hgithub, -⟩ := payload_parsed pushHeaders fallbackBody
  obtain ⟨-, hgitlab⟩ := payload_parsed hookHeaders sparseBody
  refine ⟨?_, ?_, hgitlab.only crowdedBody _ _ hsparse hcrowded (by decide +kernel)⟩
  · -- a blank is passed over for the address, and a number for the commit
    have hurl : fallbackDocument.firstText?
        [["repository", "clone_url"], ["repository", "html_url"]] =
        some "https://github.com/org/app" := by decide +kernel
    have href : fallbackDocument.firstText? [["ref"]] = some "refs/heads/main" := by decide +kernel
    have hcommit : fallbackDocument.firstText? [["after"], ["head_commit", "id"]] = some "c1" := by
      decide +kernel
    have hparse := hgithub.parse_eq ⟨[], [], rfl, nofun⟩ hfallback hurl href
    rwa [hcommit] at hparse
  · have hurl : sparseDocument.firstText? [["project", "git_http_url"],
        ["repository", "git_http_url"], ["project", "web_url"]] = some "u" := by decide +kernel
    have href : sparseDocument.firstText? [["ref"]] = some "r" := by decide +kernel
    have hcommit : sparseDocument.firstText? [["checkout_sha"], ["after"]] = none := by
      decide +kernel
    have hparse := hgitlab.parse_eq ⟨[], [], rfl, nofun⟩ hsparse hurl href
    rwa [hcommit] at hparse

end PushBuild
