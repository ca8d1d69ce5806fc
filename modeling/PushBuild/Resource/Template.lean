import PushBuild.Resource.Metadata

/-!
Build templates: how to build a request, one for each request and owned by it.
-/

namespace PushBuild

/-- The strategy that builds. -/
structure StrategyRef where
  name : String := ""
  kind : String := ""
deriving Repr, DecidableEq, Inhabited

/-- The source, as the build system wants it. -/
structure TemplateSource where
  url : String := ""
  revision : String := ""
  contextDir : Option String := none
  cloneSecret : Option String := none
deriving Repr, DecidableEq, Inhabited

/-- The image, as the build system wants it. -/
structure TemplateOutput where
  image : String := ""
  pushSecret : Option String := none
deriving Repr, DecidableEq, Inhabited

/-- How to build. -/
structure BuildTemplateSpec where
  strategy : StrategyRef := {}
  source : TemplateSource := {}
  output : TemplateOutput := {}
deriving Repr, DecidableEq, Inhabited

/-- A build template. -/
structure BuildTemplate where
  metadata : Metadata := {}
  spec : BuildTemplateSpec := {}
deriving Repr, DecidableEq, Inhabited

namespace BuildTemplate

def name (t : BuildTemplate) : String := t.metadata.anyName

def key (t : BuildTemplate) : ObjectKey := t.metadata.key

/-- Namespace and name, as a request records them. -/
def reference (t : BuildTemplate) : String := t.key.text

end BuildTemplate

/-! ## Reading -/

variable {ν : Type} [Document ν]

def StrategyRef.read? (d : ν) : Option StrategyRef := do
  let r ← Record.at? ["name", "kind"] d
  return {
    name := ← r.required "name" Document.text?
    kind := ← r.required "kind" Document.text? }

def TemplateSource.read? (d : ν) : Option TemplateSource := do
  let r ← Record.at? ["url", "revision", "contextDir", "cloneSecret"] d
  return {
    url := ← r.required "url" Document.text?
    revision := ← r.required "revision" Document.text?
    contextDir := ← r.optional "contextDir" Document.text?
    cloneSecret := ← r.optional "cloneSecret" Document.text? }

def TemplateOutput.read? (d : ν) : Option TemplateOutput := do
  let r ← Record.at? ["image", "pushSecret"] d
  return {
    image := ← r.required "image" Document.text?
    pushSecret := ← r.optional "pushSecret" Document.text? }

def BuildTemplateSpec.read? (d : ν) : Option BuildTemplateSpec := do
  let r ← Record.at? ["strategy", "source", "output"] d
  return {
    strategy := ← r.required "strategy" StrategyRef.read?
    source := ← r.required "source" TemplateSource.read?
    output := ← r.required "output" TemplateOutput.read? }

def BuildTemplate.read? (d : ν) : Option BuildTemplate := do
  let r ← Record.at? ["metadata", "spec"] d
  return {
    metadata := ← r.required "metadata" Metadata.read?
    spec := ← r.required "spec" BuildTemplateSpec.read? }

/-! ## Writing -/

def StrategyRef.toJson (s : StrategyRef) : Json :=
  .obj [("name", .str s.name), ("kind", .str s.kind)]

def TemplateSource.toJson (s : TemplateSource) : Json :=
  .obj ([("url", .str s.url), ("revision", .str s.revision)] ++
    Json.member? "contextDir" .str s.contextDir ++
    Json.member? "cloneSecret" .str s.cloneSecret)

def TemplateOutput.toJson (o : TemplateOutput) : Json :=
  .obj (("image", .str o.image) :: Json.member? "pushSecret" .str o.pushSecret)

def BuildTemplateSpec.toJson (s : BuildTemplateSpec) : Json :=
  .obj [("strategy", s.strategy.toJson), ("source", s.source.toJson), ("output", s.output.toJson)]

def BuildTemplate.toJson (t : BuildTemplate) : Json :=
  .obj [("apiVersion", .str apiVersion), ("kind", .str "BuildTemplate"),
    ("metadata", t.metadata.toJson), ("spec", t.spec.toJson)]

end PushBuild
