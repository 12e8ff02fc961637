import EditorBridge.Server.Place

/-!
# What a server answers and reports

The records that stand in the results of queries and in reports of findings. Several of them have
more than one shape; the first shape that fits counts, and a shape that fits nowhere makes the
whole result unreadable.
-/

namespace EditorBridge.Server

/-! ### What is known about a symbol -/

/-- Reads a text that may be marked as written in a language, and gives the text
(`marked_string_value`). -/
def markedText? (v : Json) : Option String :=
  match v with
  | .string text => some text
  | _ =>
      match v.members? ["language", "value"] 0 with
      | some [language, value] =>
          (Json.required Json.string? language).bind fun _ => Json.required Json.string? value
      | _ => none

/-- Whether a value names a kind of markup, as a string or as the only member of an object. -/
def isMarkupKind (v : Json) : Bool :=
  match v with
  | .string kind | .object [(kind, .null)] => kind == "plaintext" || kind == "markdown"
  | _ => false

/-- Reads a text with its kind of markup, and gives the text (`quickinfo_body`). -/
def markupText? (v : Json) : Option String :=
  match v.members? ["kind", "value"] 0 with
  | some [some kind, value] =>
      if isMarkupKind kind then Json.required Json.string? value else none
  | _ => none

/-- Reads the parts of a description (`quickinfo_body`): one marked text, a list of them, or a text
with markup. -/
def description? (v : Json) : Option (List String) :=
  match markedText? v with
  | some text => some [text]
  | none =>
      match Json.listOf? markedText? v with
      | some texts => some texts
      | none => (markupText? v).map fun text => [text]

/-- What a server knows about a symbol: the parts of the description, and the range of the symbol.
-/
structure Hover where
  description : List String
  range : Option Range
  deriving DecidableEq, Repr

/-- Reads what a server knows about a symbol. -/
def Hover.ofJson? (v : Json) : Option Hover :=
  match v.members? ["contents", "range"] 0 with
  | some [contents, range] =>
      (Json.required description? contents).bind fun description =>
        (Json.optional Range.ofJson? range).map fun range => ⟨description, range⟩
  | _ => none

/-! ### Where a symbol is defined -/

/-- Reads the places that define a symbol (`first_definition`): one location, a list of locations,
or a list of links, which lead to the defined names. -/
def definitions? (v : Json) : Option (List Location) :=
  match Location.ofJson? v with
  | some location => some [location]
  | none =>
      match Json.listOf? Location.ofJson? v with
      | some locations => some locations
      | none =>
          (Json.listOf? LocationLink.ofJson? v).map fun links =>
            links.map fun link => ⟨link.targetUri, link.targetSelection⟩

/-! ### Findings -/

/-- What a server finds in a range of a file, with what is wrong there. -/
structure Diagnostic where
  range : Range
  message : String
  deriving DecidableEq, Repr

namespace Diagnostic

/-- The members of a finding; all but the range and the message may be missing. -/
def names : List String :=
  ["range", "severity", "code", "codeDescription", "source", "message", "relatedInformation",
    "tags", "data"]

/-- Whether a value is the code of a finding: a number or a string. -/
def code? (v : Json) : Option Unit :=
  match v with
  | .string _ => some ()
  | _ => v.int32?.map fun _ => ()

/-- Whether a value is the description of a code, which is a link. -/
def codeDescription? (v : Json) : Option Unit :=
  match v.members? ["href"] 0 with
  | some [href] => (Json.required uri? href).map fun _ => ()
  | _ => none

/-- Whether a value is a remark about another place. -/
def related? (v : Json) : Option Unit :=
  match v.members? ["location", "message"] 0 with
  | some [location, message] =>
      (Json.required Location.ofJson? location).bind fun _ =>
        (Json.required Json.string? message).map fun _ => ()
  | _ => none

/-- Reads a finding. -/
def ofJson? (v : Json) : Option Diagnostic :=
  match v.members? names 0 with
  | some [range, severity, code, codeDescription, source, message, related, tags, _] =>
      (Json.required Range.ofJson? range).bind fun range =>
        (Json.required Json.string? message).bind fun message =>
          (Json.optional Json.int32? severity).bind fun _ =>
            (Json.optional code? code).bind fun _ =>
              (Json.optional codeDescription? codeDescription).bind fun _ =>
                (Json.optional Json.string? source).bind fun _ =>
                  (Json.optional (Json.listOf? related?) related).bind fun _ =>
                    (Json.optional (Json.listOf? Json.int32?) tags).map fun _ => ⟨range, message⟩
  | _ => none

end Diagnostic

end EditorBridge.Server
