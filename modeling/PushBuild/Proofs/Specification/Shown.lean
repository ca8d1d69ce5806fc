import PushBuild.Proofs.OnCommit.Numbering
import PushBuild.Proofs.Store.Template

/-!
# What a template was made from

A pass reads a request and makes the template say what the request says.  Here is what that means
for a run: the request was stored, and the act that ended the making showed the template of the
request, with what the request that was read says.
-/

namespace PushBuild

/-- Where the template of a request is found. -/
def templatePlace (key : ObjectKey) : ObjectKey := ⟨key.namespace, key.name ++ "-build"⟩

/-- What a template says of address, revision and image. -/
def BuildTemplateSpec.snapshot (t : BuildTemplateSpec) : BuildSnapshot :=
  ⟨t.source.url, t.source.revision, t.output.image⟩

/-- A template says of address, revision and image what the request says. -/
@[simp] theorem BuildTemplate.snapshot_specFor (spec : BuildRequestSpec) (strategy : String) :
    (specFor spec strategy).snapshot = spec.snapshot := rfl

/-- The last act of converging a template showed it as desired, if templates are told of under their
own keys. -/
theorem Converged.shown {desired : BuildTemplate} {uid : String} {before acts : List Act}
    (h : Converged desired uid before acts)
    (htold : ∀ {key t}, .getTemplate key (.ok (some t)) ∈ acts → t.key = key) :
    ∃ act earlier, acts = act :: earlier ∧ before <:+ earlier ∧
      act.shown? = some (desired.key, desired.spec) := by
  cases h with
  | found hacts ht =>
    obtain ⟨-, hspec, -⟩ := BuildTemplate.converged_eq ht
    exact ⟨_, _, rfl, hacts, by rw [Act.shown?, hspec]⟩
  -- it was created as desired
  | created hacts => exact ⟨_, _, rfl, hacts, rfl⟩
  -- it was there, and was replaced by one that is as desired
  | @corrected acts t updated w hacts ht =>
    obtain ⟨-, hspec, -⟩ := BuildTemplate.converged_eq ht
    have hkey : updated.key = desired.key :=
      (BuildTemplate.key_converged ht).trans (htold (List.mem_cons_of_mem _ List.mem_cons_self))
    exact ⟨_, _, rfl, hacts.trans (List.suffix_cons _ _), by rw [Act.shown?, hkey, hspec]⟩

/-- A program that did these acts read the request `r` under `key`, and the last act shows the
template of that request, which was made from `r`. -/
def Derives (key : ObjectKey) (r : BuildRequest) (acts : List Act) : Prop :=
  ∃ act before strategy, acts = act :: before ∧ .getRequest key (.ok (some r)) ∈ before ∧
    act.shown? = some (templatePlace key, BuildTemplate.specFor r.spec strategy)

/-- **A pass that made a template** made it from a request that it had read.  The place of the
template is that of the request, for requests are told of under their own keys. -/
theorem Templated.derives {ι : Type} {ρ : ι → Type} [DecidableEq ι] {s : System ι ρ}
    (hversioned : s.Versioned) (hinformed : s.Informed) (hkeyed : s.TemplatesKeyed)
    {key k : ObjectKey} {r : BuildRequest} {acts : List Act} {i : ι} (h : Templated key k r acts)
    (hacts : acts <:+ s.acts i) : Derives key r acts := by
  obtain ⟨strategy, desired, uid, before, hknown, hread, hdesired, hconverged⟩ := h
  obtain ⟨act, earlier, rfl, hbefore, hshown⟩ :=
    hconverged.shown fun htold => hkeyed.told (hacts.mem htold)
  have hbeforeActs : before <:+ s.acts i := (hbefore.trans (List.suffix_cons _ _)).trans hacts
  obtain rfl : k = key := (hknown.mono hbeforeActs).eq_key hversioned hinformed
  have hkey : r.key = k := hversioned.key_eq (hinformed i k r (hbeforeActs.mem hread))
  obtain ⟨hplace, hspec⟩ := BuildTemplate.desired_place hdesired
  refine ⟨act, earlier, strategy, rfl, hbefore.mem hread, ?_⟩
  rw [hshown, hplace, hspec, templatePlace, ← hkey]
  rfl

/-- A store with a request that is built when its specification changes, and with what a pass over
it looks up. -/
def plainStore : MemoryStore :=
  Deed.apply (.insertRequest {
      metadata := { name := some "app" }
      spec := {
        source := { git := { url := "u", revision := "main" } }
        buildFile := .present
        output := { image := "i" } } })
    (Deed.apply (.insertStrategy "buildkit")
      (Deed.apply (.setPolicy (some { buildfile := some "buildkit" })) {}))

/-- The store is made by deeds. -/
theorem plainStore_made : plainStore.Made := .deed _ (.deed _ (.deed _ .empty))

/-- Another specification of the request. -/
def releaseSpec : BuildRequestSpec where
  source := { git := { url := "u", revision := "release" } }
  buildFile := .present
  output := { image := "i" }

end PushBuild
