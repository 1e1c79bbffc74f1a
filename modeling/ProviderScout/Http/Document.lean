import ProviderScout.Json.Basic

namespace ProviderScout.Http

/-- A parameter of a request. -/
structure Parameter where
  name : String
  /-- Where it stands: in the path or in the query. -/
  place : String
  required : Bool

/-- One thing that can be asked. -/
structure Operation where
  path : String
  method : String
  tag : String
  id : String
  parameters : List Parameter
  /-- The statuses of its answers. -/
  statuses : List Nat

/-- A kind of value. -/
structure Schema where
  name : String
  properties : List String
  required : List String
  /-- The values, if they are a few names. -/
  values : Option (List String)

/-- Something with a description. -/
structure Described where
  name : String
  description : String

/-- The description of an interface. -/
structure Document where
  title : String
  version : String
  description : String
  contact : String
  licence : String
  /-- The addresses at which the interface is found. -/
  servers : List Described
  operations : List Operation
  schemas : List Schema
  /-- The groups of operations. -/
  tags : List Described

/-- A kind of value with fields that are all required. -/
def Schema.ofFields (name : String) (fields : List String) : Schema := ⟨name, fields, fields, none⟩

def Schema.ofNames (name : String) (values : List String) : Schema := ⟨name, [], [], some values⟩

/-- Things in the order of their names. -/
def inOrder {α : Type} (name : α → String) (things : List α) : List α :=
  things.mergeSort fun a b => name a ≤ name b

/-- The operation in an outline: its method, tags and name, its parameters and its statuses. -/
def Operation.outline (o : Operation) : Json :=
  let parameters := o.parameters.map fun p =>
    Json.array [.string p.name, .string p.place, .bool p.required]
  let statuses := o.statuses.map fun n => toString n
  .array [.string o.method, .ofStrings [o.tag], .string o.id, .array parameters,
    .ofStrings statuses]

/-- The kind of value in an outline: its name, its fields, those that are required, its values. -/
def Schema.outline (c : Schema) : Json :=
  .array [.string c.name, .ofStrings (inOrder id c.properties), .ofStrings (inOrder id c.required),
    .ofOption .ofStrings c.values]

def Described.toJson (nameKey : String) (d : Described) : Json :=
  .object [(nameKey, .string d.name), ("description", .string d.description)]

namespace Document

def paths (d : Document) : List String := (inOrder id (d.operations.map (·.path))).eraseDups

/-- The operations of a path, by method. -/
def operationsAt (d : Document) (path : String) : List Operation :=
  inOrder (·.method) (d.operations.filter fun o => o.path == path)

def pathOutline (d : Document) (path : String) : Json :=
  .array [.string path, .array ((d.operationsAt path).map Operation.outline)]

/-- The description in short: everything by name and in order. -/
def outline (d : Document) : Json :=
  .object [
    ("info", .object [
      ("title", .string d.title),
      ("version", .string d.version),
      ("description", .string d.description),
      ("contact", .object [("name", .string d.contact)]),
      ("license", .object [("name", .string d.licence)])]),
    ("servers", .array (d.servers.map (Described.toJson "url"))),
    ("tags", .array (d.tags.map (Described.toJson "name"))),
    ("paths", .array (d.paths.map d.pathOutline)),
    ("schemas", .array ((inOrder Schema.name d.schemas).map Schema.outline))]

end Document

end ProviderScout.Http
