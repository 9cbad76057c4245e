/-! # Table schemas

A catalog names the tables that expressions may refer to, each with the fields it has. Of several
fields of one name in a table the last counts. -/

namespace CelWhere

/-- A field of a table. -/
structure Field where
  /-- The name of the field. -/
  name : String
  /-- The name of its type. -/
  type : String := "text"
  /-- Whether the field holds an array. -/
  repeated : Bool := false
  /-- The number of dimensions of an array. -/
  dimensions : Int := 0
  /-- The fields of a structured value. -/
  schema : List Field := []
  /-- Whether the field holds JSON text. -/
  isJson : Bool := false
  /-- Whether the field holds JSON in binary form. -/
  isJsonb : Bool := false
  /-- The name of the type of an array's elements. -/
  elementType : String := ""
  deriving Repr, Inhabited

/-- Whether the field holds JSON in either form. -/
def Field.holdsJson (field : Field) : Bool :=
  field.isJson || field.isJsonb

/-- The schema of a table: its fields in order. -/
structure Schema where
  /-- The fields of the table. -/
  fields : List Field
  deriving Repr, Inhabited

/-- The field of a name; the last one of several. -/
def Schema.find? (schema : Schema) (name : String) : Option Field :=
  schema.fields.reverse.find? (·.name = name)

/-- The schemas of tables by the tables' names. -/
abbrev Catalog := List (String × Schema)

namespace Catalog

/-- The schema of a table. -/
def table? (catalog : Catalog) (table : String) : Option Schema :=
  catalog.lookup table

/-- A field of a table. -/
def field? (catalog : Catalog) (table field : String) : Option Field :=
  (catalog.table? table).bind (·.find? field)

/-- Whether a field of a table holds JSON. -/
def isJson (catalog : Catalog) (table field : String) : Bool :=
  (catalog.field? table field).any (·.holdsJson)

/-- Whether a field of a table holds JSON in binary form. -/
def isJsonb (catalog : Catalog) (table field : String) : Bool :=
  (catalog.field? table field).any (·.isJsonb)

/-- Whether a field of a table holds an array. -/
def isArray (catalog : Catalog) (table field : String) : Bool :=
  (catalog.field? table field).any (·.repeated)

/-- Whether some table has an array field of this name. -/
def hasArray (catalog : Catalog) (field : String) : Bool :=
  catalog.any fun (_, schema) => (schema.find? field).any (·.repeated)

end Catalog

end CelWhere
