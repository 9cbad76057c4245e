import CelWhere.Limits
import CelWhere.Schema

/-! # Expressions of the workloads -/

namespace CelWhere.Workload

/-- The tables that the expressions refer to. -/
def tables : Catalog :=
  [("usr", ⟨[
      { name := "id", type := "int" },
      { name := "name" },
      { name := "email" },
      { name := "age", type := "int" },
      { name := "active", type := "bool" },
      { name := "metadata", isJson := true, isJsonb := true },
      { name := "prefs", isJson := true },
      { name := "tags", repeated := true, elementType := "text" },
      { name := "scores", repeated := true, elementType := "int" },
      { name := "created_at", type := "timestamp" }]⟩),
    ("evt", ⟨[
      { name := "items", repeated := true },
      { name := "payload", isJson := true },
      { name := "ts", type := "timestamp" },
      { name := "kind" }]⟩)]

/-- Comparisons, arithmetic and literals. -/
def operatorExpressions : List String :=
  ["usr.id == 1", "usr.id != 2", "usr.age < 18", "usr.age <= 21", "usr.age > 65", "usr.age >= 100",
    "usr.id == null", "null == usr.id", "usr.id != null", "usr.active == true",
    "true == usr.active", "usr.active != false", "false != usr.active", "usr.active == false",
    "usr.id == 1 || usr.id == 2", "usr.id == 1 && usr.age > 10", "!(usr.id == 1)", "(usr.id == 1)",
    "usr.age + 1", "usr.age - 1", "usr.age * 2", "usr.age / 2", "usr.age % 3", "-usr.age",
    "\"a\" + \"b\"", "usr.name + \"suffix\"", "[1, 2] + [3, 4]", "42", "0x1F", "10u", "3.14",
    "true", "false", "null", "\"hello\"", "r\"raw\\npath\"", "\"\"\"multi\"\"\"",
    "\"esc\\n\\t\\r\\\\\\\"\\'\\x41\\u0041end\"", "b\"bytes\"", "b\"\"\"mlbytes\"\"\"",
    "usr.active ? usr.id : 0", "usr.id in [1, 2, 3]", "usr.name in usr.tags", "usr.tags[0]",
    "usr.tags[\"name\"]", "usr.tags[usr.id]"]

/-- Methods on strings. -/
def stringExpressions : List String :=
  ["usr.name.contains(\"foo\")", "usr.name.contains(r\"raw\")", "usr.name.startsWith(\"pre_fix%\")",
    "usr.name.endsWith(\"suf\")", "usr.name.matches(\"^[a-z]+$\")", "usr.name.matches(\"(?i)ABC\")",
    "matches(usr.name, \"^\\\\d+$\")", "usr.name.lowerAscii()", "usr.name.upperAscii()",
    "usr.name.trim()", "usr.name.reverse()", "usr.name.charAt(2)", "usr.name.charAt(usr.id)",
    "usr.name.indexOf(\"x\")", "usr.name.indexOf(\"x\", 3)", "usr.name.indexOf(\"x\", usr.id)",
    "usr.name.lastIndexOf(\"x\")", "usr.name.substring(2)", "usr.name.substring(usr.id)",
    "usr.name.substring(1, 4)", "usr.name.substring(1, usr.id)",
    "usr.name.substring(usr.id, usr.age)", "usr.name.replace(\"a\", \"b\")",
    "usr.name.replace(\"a\", \"b\", -1)", "usr.name.split(\",\")", "usr.name.split(\",\", -1)",
    "usr.name.split(\",\", 0)", "usr.name.split(\",\", 1)", "usr.name.split(\",\", 3)",
    "usr.tags.join(\",\")", "usr.tags.join()", "\"%s-%d\".format([usr.name, usr.id])",
    "size(usr.tags)", "size([1, 2, 3])", "size(usr.name)", "usr.tags.size()", "usr.name.size()",
    "usr.name.split(\",\").size()"]

/-- Presence tests, casts and times. -/
def functionExpressions : List String :=
  ["has(usr.name)", "has(usr.metadata)", "has(usr.metadata.key1)", "has(usr.prefs.key1)",
    "has(usr.metadata.deep.key)", "int(usr.name)", "int(created_at)", "double(usr.id)",
    "string(usr.id)", "bool(usr.id)", "uint(usr.id)", "bytes(usr.name)",
    "timestamp(\"2021-01-01T00:00:00Z\")", "timestamp(usr.created_at, \"UTC\")", "duration(\"1h\")",
    "duration(\"30m\")", "duration(\"45s\")", "duration(\"500ms\")", "duration(\"10us\")",
    "duration(\"7ns\")", "interval(5, DAY)", "date(2021, 1, 1)", "datetime(2021, 1, 1, 0, 0, 0)",
    "current_date()", "current_datetime()", "created_at + duration(\"1h\")",
    "duration(\"1h\") + created_at", "created_at - duration(\"30m\")",
    "usr.created_at.getFullYear()", "usr.created_at.getMonth()", "usr.created_at.getDate()",
    "usr.created_at.getDayOfMonth()", "usr.created_at.getHours()", "usr.created_at.getMinutes()",
    "usr.created_at.getSeconds()", "usr.created_at.getMilliseconds()",
    "usr.created_at.getDayOfYear()", "usr.created_at.getDayOfWeek()",
    "usr.created_at.getFullYear(\"UTC\")"]

/-- Comprehensions, JSON paths and structures. -/
def collectionExpressions : List String :=
  ["usr.tags.all(x, x != \"bad\")", "usr.tags.exists(x, x == \"good\")",
    "usr.tags.exists_one(x, x == \"one\")", "usr.tags.map(x, x)",
    "usr.tags.map(x, x != \"skip\", x)", "usr.tags.filter(x, x != \"skip\")",
    "usr.metadata.items.exists(x, x > 0)", "usr.metadata.score > 5", "5 < usr.metadata.score",
    "usr.metadata.deep.nested.value == \"x\"", "usr.prefs.flag == \"on\"",
    "\x7b\"a\": 1, \"b\": 2\x7d", "coalesce(usr.id, 0)"]

/-- All expressions that are converted. -/
def expressions : List String :=
  operatorExpressions ++ stringExpressions ++ functionExpressions ++ collectionExpressions

/-- The expressions that are converted with bound parameters. -/
def parameterExpressions : List String :=
  ["usr.id == 1 && usr.age >= 10 && usr.age < 3.5 && usr.name == \"x\""]

/-- The expressions for which indexes are recommended. -/
def adviceExpressions : List String :=
  ["usr.id == 1 && usr.id in [1, 2, 3]", "usr.name.matches(\"^a.*\")",
    "usr.metadata.key == \"v\" && usr.metadata.key2 == \"w\"",
    "usr.metadata.items.exists(x, x > 0) && usr.metadata.flag == true",
    "matches(usr.email, \".*@.*\")",
    "usr.tags.all(x, x != \"a\") && usr.tags.exists(y, y == \"b\")",
    "evt.payload.key == \"v\" && evt.payload.other == \"w\"", "usr.id == 1 && usr.age > 10", "true",
    "usr.active ? 1 : 2", "[1, 2, 3]", "size(usr.tags)"]

/-- An expression that cannot be converted under its limits. -/
structure FailingCase where
  /-- The expression. -/
  expression : String
  /-- The greatest depth. -/
  maxDepth : Int := defaultMaxDepth
  /-- The greatest length of the text. -/
  maxLength : Int := defaultMaxLength
  /-- Whether fields must be known. -/
  validate : Bool := false
  deriving Repr, Inhabited

/-- The expressions that cannot be converted. -/
def failingCases : List FailingCase :=
  ["usr.name.replace(\"a\", \"b\", 5)", "usr.name.split(\",\", -2)",
    "usr.name.split(\",\", usr.id)", "usr.name.startsWith(usr.id)", "usr.name.endsWith(usr.id)",
    "usr.name.matches(usr.id)", "matches(usr.name, usr.id)", "\"%q\".format([usr.name])",
    "usr.id.format([1])", "duration(\"invalid\")", "duration(usr.id)", "usr.name.contains()",
    "usr.name.startsWith()", "usr.name.endsWith()", "usr.name.matches()", "usr.name.charAt()",
    "usr.name.indexOf()", "usr.name.lastIndexOf()", "usr.name.substring()",
    "usr.name.replace(\"a\")", "usr.name.split()", "usr.tags.join(\"a\", \"b\")",
    "\"%s\".format([1], [2])", "has(usr.id, usr.name)", "int(usr.id, usr.name)", "timestamp()",
    "duration()", "interval(5)", "interval(5, usr.id)", "usr.tags.all(x)", "usr.tags.exists(x)",
    "usr.tags.exists_one(x)", "usr.tags.map(x)", "usr.tags.filter(x)", "usr.name.unknownMethod()",
    "usr\x7bid: 1\x7d"].map (fun expression => { expression := expression }) ++
  [{ expression := "unknown_tbl.col == 1", validate := true },
    { expression := "usr.unknown_col == 1", validate := true },
    { expression := "usr.id == 1 && usr.age > 2", maxDepth := 3 },
    { expression := "usr.id in [1,2,3,4,5,6,7,8,9,10]", maxLength := 5 }]

end CelWhere.Workload
