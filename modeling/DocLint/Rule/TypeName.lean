import DocLint.Text.Case

/-!
# Type names

A type is compared by the short names of its parts, in lower case: the parts lie between the marks of
unions, intersections and groups; a list type is an array; type arguments and namespaces do not count;
some long names stand for short ones. A documented type covers a declared one if it names every part of
it other than null, or if it is mixed.
-/

namespace DocLint

/-- The marks between the parts of a type. -/
def isTypeMark (c : Char) : Bool := c == '|' || c == '&' || c == '(' || c == ')'

/-- Names that stand for another name. -/
def typeAliases : List (Text × Text) :=
  [("integer", "int"), ("boolean", "bool"), ("double", "float"), ("callback", "callable"),
    ("list", "array")].map fun (long, short) => (long.toList, short.toList)

/-- The name that a name stands for. -/
def resolveAlias (name : Text) : Text :=
  ((typeAliases.find? (·.1 == name)).map (·.2)).getD name

/-- The text behind the last backslash. -/
def shortName (name : Text) : Text := (name.reverse.takeWhile (· != '\\')).reverse

/-- The name of one part of a type; an empty part has none. -/
def partName? (part : Text) : Option Text :=
  let part := Text.lower ((Text.trim part).dropWhile (· == '?'))
  if part.isEmpty then none
  else
    let part := if "[]".toList.isSuffixOf part then "array".toList else part
    some (resolveAlias (shortName (part.takeWhile (· != '<'))))

/-- The names of the parts of a type, in order. -/
def typeNames (type : Text) : List Text := (Text.splitWhere isTypeMark type).filterMap partName?

/-- The names of the parts of a type, sorted and each once. -/
def sortedTypeNames (type : Text) : List Text := ((typeNames type).mergeSort Text.le).eraseReps

/-- Does the documented type cover the declared one? -/
def documents (documented declared : Text) : Bool :=
  let names := typeNames documented
  names.contains "mixed".toList ||
    (typeNames declared).all fun name => name == "null".toList || names.contains name

end DocLint
