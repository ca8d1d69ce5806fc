import PushBuild.Document

/-!
What every resource carries about itself: its name, labels, owners, version.

Metadata are read only from maps, of two members of one name the later counts, and null stands for
what is missing, also where a value is required.
-/

namespace PushBuild

/-- The version of the API all resources of this controller belong to. -/
def apiVersion : String := "buildwright.dev/v1alpha1"

/-- Where a resource is found: its namespace and its name. -/
structure ObjectKey where
  «namespace» : String
  name : String
deriving Repr, DecidableEq, Inhabited

namespace ObjectKey

instance : LT ObjectKey where
  lt a b := a.namespace < b.namespace ∨ (a.namespace = b.namespace ∧ a.name < b.name)

instance : DecidableLT ObjectKey := fun a b =>
  inferInstanceAs (Decidable
    (a.namespace < b.namespace ∨ (a.namespace = b.namespace ∧ a.name < b.name)))

/-- Namespace and name with a slash between them. -/
def text (k : ObjectKey) : String := k.namespace ++ "/" ++ k.name

end ObjectKey

/-- A claim of one resource on another. -/
structure OwnerReference where
  apiVersion : String := ""
  blockOwnerDeletion : Option Bool := none
  /-- whether the owner controls the resource -/
  controller : Option Bool := none
  kind : String := ""
  name : String := ""
  uid : String := ""
deriving Repr, DecidableEq

/-- Who set which fields of a resource. -/
structure ManagedFields where
  apiVersion : Option String := none
  fieldsType : Option String := none
  /-- the set of fields, kept as it came -/
  fieldsV1 : Option Json := none
  manager : Option String := none
  operation : Option String := none
  subresource : Option String := none
  time : Option Instant := none
deriving Repr, DecidableEq

/-- Labels and the like, by key. -/
abbrev Labels := SortedMap String String

/-- What a resource carries about itself. -/
structure Metadata where
  annotations : Option Labels := none
  creationTimestamp : Option Instant := none
  deletionGracePeriodSeconds : Option Int := none
  deletionTimestamp : Option Instant := none
  finalizers : Option (List String) := none
  generateName : Option String := none
  /-- counts the changes of the specification -/
  generation : Option Int := none
  labels : Option Labels := none
  managedFields : Option (List ManagedFields) := none
  name : Option String := none
  «namespace» : Option String := none
  ownerReferences : Option (List OwnerReference) := none
  /-- changes with every write -/
  resourceVersion : Option String := none
  selfLink : Option String := none
  uid : Option String := none
deriving Repr, DecidableEq, Inhabited

namespace OwnerReference

def toJson (r : OwnerReference) : Json :=
  .obj (("apiVersion", .str r.apiVersion) ::
    Json.member? "blockOwnerDeletion" .bool r.blockOwnerDeletion ++
    Json.member? "controller" .bool r.controller ++
    [("kind", .str r.kind), ("name", .str r.name), ("uid", .str r.uid)])

end OwnerReference

namespace Metadata

/-- The name, or the name it is to be generated from. -/
def anyName (m : Metadata) : String :=
  (m.name <|> m.generateName).getD ""

/-- The namespace, empty if there is none. -/
def namespaceOrEmpty (m : Metadata) : String :=
  m.namespace.getD ""

/-- Where the resource is found. -/
def key (m : Metadata) : ObjectKey := ⟨m.namespaceOrEmpty, m.anyName⟩

/-- The value of a label. -/
def label? (m : Metadata) (label : String) : Option String :=
  m.labels.bind (·.get? label)

/-- The metadata with a label set, or taken away. -/
def setLabel (m : Metadata) (label : String) (value : Option String) : Metadata :=
  let labels := m.labels.getD SortedMap.empty
  { m with labels := some (match value with
      | some value => labels.insert label value
      | none => labels.erase label) }

/-- The claims on the resource. -/
def owners (m : Metadata) : List OwnerReference :=
  m.ownerReferences.getD []

/-- The first claim of a controller. -/
def controller? (m : Metadata) : Option OwnerReference :=
  m.owners.find? (·.controller == some true)

end Metadata

namespace ManagedFields

def toJson (f : ManagedFields) : Json :=
  .obj (Json.member? "apiVersion" .str f.apiVersion ++
    Json.member? "fieldsType" .str f.fieldsType ++
    Json.member? "fieldsV1" id f.fieldsV1 ++
    Json.member? "manager" .str f.manager ++
    Json.member? "operation" .str f.operation ++
    Json.member? "subresource" .str f.subresource ++
    Json.member? "time" (fun t => .str t.toSecondsText) f.time)

end ManagedFields

namespace Metadata

def toJson (m : Metadata) : Json :=
  .obj (Json.member? "annotations" (.ofMap .str) m.annotations ++
    Json.member? "creationTimestamp" (fun t => .str t.toSecondsText) m.creationTimestamp ++
    Json.member? "deletionGracePeriodSeconds" .int m.deletionGracePeriodSeconds ++
    Json.member? "deletionTimestamp" (fun t => .str t.toSecondsText) m.deletionTimestamp ++
    Json.member? "finalizers" (.ofList .str) m.finalizers ++
    Json.member? "generateName" .str m.generateName ++
    Json.member? "generation" .int m.generation ++
    Json.member? "labels" (.ofMap .str) m.labels ++
    Json.member? "managedFields" (.ofList ManagedFields.toJson) m.managedFields ++
    Json.member? "name" .str m.name ++
    Json.member? "namespace" .str m.namespace ++
    Json.member? "ownerReferences" (.ofList OwnerReference.toJson) m.ownerReferences ++
    Json.member? "resourceVersion" .str m.resourceVersion ++
    Json.member? "selfLink" .str m.selfLink ++
    Json.member? "uid" .str m.uid)

end Metadata

/-! ## Reading -/

variable {ν : Type} [Document ν]

/-- Reads one claim on a resource. -/
def OwnerReference.read? (d : ν) : Option OwnerReference := do
  let r ← Record.lastOf? d
  let text (name : String) : Option String := do
    return (← r.optional name Document.text?).getD ""
  return {
    apiVersion := ← text "apiVersion"
    blockOwnerDeletion := ← r.optional "blockOwnerDeletion" Document.truth?
    controller := ← r.optional "controller" Document.truth?
    kind := ← text "kind"
    name := ← text "name"
    uid := ← text "uid" }

/-- Reads one entry about who set which fields. -/
def ManagedFields.read? (d : ν) : Option ManagedFields := do
  let r ← Record.lastOf? d
  return {
    apiVersion := ← r.optional "apiVersion" Document.text?
    fieldsType := ← r.optional "fieldsType" Document.text?
    fieldsV1 := ← r.optional "fieldsV1" Document.opaque?
    manager := ← r.optional "manager" Document.text?
    operation := ← r.optional "operation" Document.text?
    subresource := ← r.optional "subresource" Document.text?
    time := ← r.optional "time" Document.instant? }

/-- Reads metadata. -/
def Metadata.read? (d : ν) : Option Metadata := do
  let r ← Record.lastOf? d
  return {
    annotations := ← r.optional "annotations" (Document.map? Document.text?)
    creationTimestamp := ← r.optional "creationTimestamp" Document.instant?
    deletionGracePeriodSeconds := ← r.optional "deletionGracePeriodSeconds" Document.int64?
    deletionTimestamp := ← r.optional "deletionTimestamp" Document.instant?
    finalizers := ← r.optional "finalizers" (Document.list? Document.text?)
    generateName := ← r.optional "generateName" Document.text?
    generation := ← r.optional "generation" Document.int64?
    labels := ← r.optional "labels" (Document.map? Document.text?)
    managedFields := ← r.optional "managedFields" (Document.list? ManagedFields.read?)
    name := ← r.optional "name" Document.text?
    «namespace» := ← r.optional "namespace" Document.text?
    ownerReferences := ← r.optional "ownerReferences" (Document.list? OwnerReference.read?)
    resourceVersion := ← r.optional "resourceVersion" Document.text?
    selfLink := ← r.optional "selfLink" Document.text?
    uid := ← r.optional "uid" Document.text? }

end PushBuild
