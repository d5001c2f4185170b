/-
  ApiDocs.Swagger.Directive

  Directives: the lines of a handler's documentation that describe its operation, such as
  `@Param id path int true "Identifier"` or `@Router /orders/{id} [get]`.
-/

import ApiDocs.Swagger.Builder
import ApiDocs.Swagger.Metadata
import ApiDocs.Text.Numeral

namespace ApiDocs.Swagger

/-! ## Forms of lines -/

/-- The line without white space around it and without comment marks. -/
def dropCommentMarks (line : List Char) : List Char :=
  let line := Text.dropLeading ['/', '/'] (Text.trim line)
  let line := Text.dropLeading ['/', '*'] line
  Text.trim (Text.dropTrailing ['*', '/'] line)

/-- The first word, and the text that follows it after white space. -/
def nextWord? (cs : List Char) : Option (List Char × List Char) :=
  let word := cs.takeWhile (!Text.isBlank ·)
  if word.isEmpty then none else some (word, Text.trimStart (cs.dropWhile (!Text.isBlank ·)))

/-- What may end a line: nothing, which stands for an empty text, or one text in quotation
marks without marks inside. -/
def finalText? (cs : List Char) : Option (List Char) :=
  match cs with
  | [] => some []
  | '"' :: body =>
    match Text.splitFirst (· = '"') body with
    | some (text, after) => if after.all Text.isBlank then some text else none
    | none => none
  | _ => none

/-- The parts of a parameter line. -/
structure ParameterLine where
  name : List Char
  location : List Char
  type : List Char
  required : List Char
  description : List Char

/-- Reads `name location type required "description"`. -/
def ParameterLine.read? (cs : List Char) : Option ParameterLine := do
  let (name, cs) ← nextWord? cs
  let (location, cs) ← nextWord? cs
  let (type, cs) ← nextWord? cs
  let (required, cs) ← nextWord? cs
  let description ← finalText? cs
  if location.all Text.isWord && required.all Text.isWord then
    return { name, location, type, required, description }
  else
    none

/-- The parts of a response line. The type is given as it would be written in full. -/
structure ResponseLine where
  code : List Char
  type : Option (List Char)
  message : List Char

/-- Three digits of any script. -/
def isCode (word : List Char) : Bool :=
  word.length = 3 && word.all Text.isDecimalDigit

/-- Reads `code {object} Type "message"`, `code {array} Type "message"` or
`code "message"`. -/
def ResponseLine.read? (cs : List Char) : Option ResponseLine := do
  let (code, rest) ← nextWord? cs
  if !isCode code then
    none
  else
    match typed? rest with
    | some (type, message) => return { code, type := some type, message }
    | none => return { code, type := none, message := ← finalText? rest }
where
  /-- The type of a response with a body, and the message after it. -/
  typed? (cs : List Char) : Option (List Char × List Char) := do
    let (shape, cs) ← nextWord? cs
    let (type, cs) ← nextWord? cs
    let message ← finalText? cs
    match String.ofList shape with
    | "\x7bobject\x7d" => return (type, message)
    | "\x7barray\x7d" => return ('[' :: ']' :: type, message)
    | _ => none

/-- Reads `path` or `path [method]`. -/
def readRoute? (cs : List Char) : Option (List Char × Option (List Char)) := do
  let (path, cs) ← nextWord? cs
  match cs with
  | [] => return (path, none)
  | '[' :: rest =>
    let method := rest.takeWhile Text.isWord
    match rest.dropWhile Text.isWord with
    | ']' :: after =>
      if method.isEmpty || !after.all Text.isBlank then none else return (path, some method)
    | _ => none
  | _ => none

/-! ## Values -/

/-- Where a parameter may be taken from. -/
def locations : List String := ["path", "query", "form", "header", "body"]

/-- The MIME type that a short name stands for. -/
def expandMime (name : String) : String :=
  match name with
  | "json" => "application/json"
  | "xml" => "application/xml"
  | "plain" => "text/plain"
  | "html" => "text/html"
  | other => other

/-- The MIME types of a comma-separated list. -/
def mimeTypes (cs : List Char) : List String :=
  (((Text.splitOn ',' cs).map fun piece => String.ofList (Text.trim piece)).filter (· ≠ "")).map
    expandMime

/-- The number that three ASCII digits denote. -/
def statusCode? (code : List Char) : Option UInt16 :=
  if code.all Char.isDigit then some (UInt16.ofNat (Nat.ofDigitChars 10 code 0)) else none

/-! ## Applying directives -/

namespace Operation

/-- The data type of a type written for an operation, and the operation with the models
that it mentions. -/
def describe (w : Workspace) (operation : Operation) (written : List Char) :
    SessionM (DataType × Operation) := do
  let (type, models) ← Builder.run w operation.package (String.ofList written)
  return (type, { operation with models := operation.models.extend models })

/-- Adds the parameter of a parameter line. -/
def addParameter (w : Workspace) (operation : Operation) (directive : String) (rest : List Char) :
    SessionM Operation := do
  match ParameterLine.read? rest with
  | none => throw (.directive directive (.parameterForm (String.ofList rest)))
  | some line =>
    let location := String.ofList line.location
    let flag := Text.lowered (String.ofList line.required)
    if !locations.contains location then
      throw (.directive directive (.unknownLocation location))
    else if flag ≠ "true" && flag ≠ "false" then
      throw (.directive directive (.requiredFlag flag))
    else
      let (type, operation) ← operation.describe w line.type
      let parameter : Parameter := {
        location
        name := String.ofList line.name
        description := String.ofList line.description
        dataType := type.typeName
        typeName := type.typeName
        format := type.format?
        items := type.items?
        allowMultiple := false
        required := flag = "true" }
      return { operation with parameters := operation.parameters ++ [parameter] }

/-- Adds the response of a response line. The type of a success is also the type of the
operation. -/
def addResponse (w : Workspace) (operation : Operation) (success : Bool) (directive : String)
    (rest : List Char) : SessionM Operation := do
  match ResponseLine.read? rest with
  | none => throw (.directive directive (.responseForm (String.ofList rest)))
  | some line =>
    match statusCode? line.code with
    | none => throw (.directive directive (.statusCode (String.ofList line.code)))
    | some code =>
      let message := String.ofList line.message
      match line.type with
      | none =>
        return { operation with
          responseMessages := operation.responseMessages ++ [{ code, message }] }
      | some written =>
        let (type, operation) ← operation.describe w written
        let response := { code, message, responseModel := type.modelId? }
        let operation := if success then
            { operation with typeName := type.typeName, items := type.items? }
          else
            operation
        return { operation with responseMessages := operation.responseMessages ++ [response] }

/-- Sets the route of an operation. -/
def setRoute (operation : Operation) (directive : String) (rest : List Char) :
    Except Error Operation :=
  match readRoute? rest with
  | none => .error (.directive directive (.routerForm (String.ofList rest)))
  | some (path, method) =>
    .ok { operation with
      path := String.ofList path
      method := (method.map fun m => Text.raised (String.ofList m)).getD operation.method }

/-- Names the resource of an operation. -/
def setResource (operation : Operation) (directive : String) (rest : List Char) :
    Except Error Operation :=
  let resource := rest.dropWhile (· = '/')
  if resource.isEmpty then
    .error (.directive directive .emptyResource)
  else
    .ok { operation with resourceName := some (String.ofList resource) }

/-- The MIME types of a directive that has to give some. -/
def readMimeTypes (directive : String) (rest : List Char) : Except Error (List String) :=
  let types := mimeTypes rest
  if types.isEmpty then .error (.directive directive .noMimeTypes) else .ok types

/-- Applies one line of documentation. Lines that are no directives, and directives that are
not known, change nothing; the case of a directive's name does not matter. -/
def applyLine (w : Workspace) (operation : Operation) (line : String) : SessionM Operation := do
  let cs := dropCommentMarks line.toList
  if cs.head? ≠ some '@' then
    return operation
  else
    let (name, rest) := splitDirective cs
    let directive := String.ofList name
    match Text.lowered directive with
    | "@title" => return { operation with nickname := String.ofList rest }
    | "@description" => return { operation with summary := String.ofList rest }
    | "@notes" => return { operation with notes := String.ofList rest }
    | "@resource" => ofExcept (operation.setResource directive rest)
    | "@accept" => return { operation with consumes := ← ofExcept (readMimeTypes directive rest) }
    | "@produce" => return { operation with produces := ← ofExcept (readMimeTypes directive rest) }
    | "@param" => operation.addParameter w directive rest
    | "@success" => operation.addResponse w true directive rest
    | "@failure" => operation.addResponse w false directive rest
    | "@router" => ofExcept (operation.setRoute directive rest)
    | _ => return operation

end Operation
end ApiDocs.Swagger
