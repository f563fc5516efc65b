import Unseal.Json.Basic

/-!
# The schema of schemas

The documents by which Draft 2020-12 describes itself: one for each vocabulary and one that
joins them. A reference to the anchor `meta` leads back to the joining document, so every
vocabulary applies to nested schemas too.
-/

set_option autoImplicit false

namespace Unseal.Schema.Draft

def site : String := "https://json-schema.org/draft/2020-12/"

def text (s : String) : Json := .str s

def natural (n : Nat) : Json := .num (.int n)

def typed (name : String) (more : List (String × Json)) : Json :=
  .mkObj (("type", text name) :: more)

def ref (target : String) : Json := .mkObj [("$ref", text target)]

/-- A schema, by whichever document the check began with. -/
def nested : Json := .mkObj [("$dynamicRef", text "#meta")]

def nestedByName (more : List (String × Json)) : Json :=
  typed "object" (("additionalProperties", nested) :: ("default", .mkObj []) :: more)

def vocabulary (name title : String) (properties definitions : List (String × Json)) :
    Json :=
  .mkObj (("$schema", text (site ++ "schema")) :: ("$id", text (site ++ "meta/" ++ name)) ::
    ("$vocabulary", .mkObj
      [("https://json-schema.org/draft/2020-12/vocab/" ++ name, .bool true)]) ::
    ("$dynamicAnchor", text "meta") :: ("title", text title) ::
    ("type", .arr [text "object", text "boolean"]) :: ("properties", .mkObj properties) ::
    if definitions.isEmpty then [] else [("$defs", .mkObj definitions)])

def core : Json :=
  vocabulary "core" "Core vocabulary meta-schema"
    [("$id", .mkObj [("$ref", text "#/$defs/uriReferenceString"),
        ("$comment", text "Non-empty fragments not allowed."), ("pattern", text "^[^#]*#?$")]),
      ("$schema", ref "#/$defs/uriString"),
      ("$ref", ref "#/$defs/uriReferenceString"),
      ("$anchor", ref "#/$defs/anchorString"),
      ("$dynamicRef", ref "#/$defs/uriReferenceString"),
      ("$dynamicAnchor", ref "#/$defs/anchorString"),
      ("$vocabulary", typed "object" [("propertyNames", ref "#/$defs/uriString"),
        ("additionalProperties", typed "boolean" [])]),
      ("$comment", typed "string" []),
      ("$defs", typed "object" [("additionalProperties", nested)])]
    [("anchorString", typed "string" [("pattern", text "^[A-Za-z_][-A-Za-z0-9._]*$")]),
      ("uriString", typed "string" [("format", text "uri")]),
      ("uriReferenceString", typed "string" [("format", text "uri-reference")])]

def applicator : Json :=
  vocabulary "applicator" "Applicator vocabulary meta-schema"
    [("prefixItems", ref "#/$defs/schemaArray"),
      ("items", nested),
      ("contains", nested),
      ("additionalProperties", nested),
      ("properties", nestedByName []),
      ("patternProperties",
        nestedByName [("propertyNames", .mkObj [("format", text "regex")])]),
      ("dependentSchemas", nestedByName []),
      ("propertyNames", nested),
      ("if", nested),
      ("then", nested),
      ("else", nested),
      ("allOf", ref "#/$defs/schemaArray"),
      ("anyOf", ref "#/$defs/schemaArray"),
      ("oneOf", ref "#/$defs/schemaArray"),
      ("not", nested)]
    [("schemaArray", typed "array" [("minItems", natural 1), ("items", nested)])]

def unevaluated : Json :=
  vocabulary "unevaluated" "Unevaluated applicator vocabulary meta-schema"
    [("unevaluatedItems", nested), ("unevaluatedProperties", nested)] []

def validation : Json :=
  vocabulary "validation" "Validation vocabulary meta-schema"
    [("type", .mkObj [("anyOf", .arr [ref "#/$defs/simpleTypes",
        typed "array" [("items", ref "#/$defs/simpleTypes"), ("minItems", natural 1),
          ("uniqueItems", .bool true)]])]),
      ("const", .bool true),
      ("enum", typed "array" [("items", .bool true)]),
      ("multipleOf", typed "number" [("exclusiveMinimum", natural 0)]),
      ("maximum", typed "number" []),
      ("exclusiveMaximum", typed "number" []),
      ("minimum", typed "number" []),
      ("exclusiveMinimum", typed "number" []),
      ("maxLength", ref "#/$defs/nonNegativeInteger"),
      ("minLength", ref "#/$defs/nonNegativeIntegerDefault0"),
      ("pattern", typed "string" [("format", text "regex")]),
      ("maxItems", ref "#/$defs/nonNegativeInteger"),
      ("minItems", ref "#/$defs/nonNegativeIntegerDefault0"),
      ("uniqueItems", typed "boolean" [("default", .bool false)]),
      ("maxContains", ref "#/$defs/nonNegativeInteger"),
      ("minContains", .mkObj [("$ref", text "#/$defs/nonNegativeInteger"),
        ("default", natural 1)]),
      ("maxProperties", ref "#/$defs/nonNegativeInteger"),
      ("minProperties", ref "#/$defs/nonNegativeIntegerDefault0"),
      ("required", ref "#/$defs/stringArray"),
      ("dependentRequired", typed "object" [("additionalProperties", ref "#/$defs/stringArray")])]
    [("nonNegativeInteger", typed "integer" [("minimum", natural 0)]),
      ("nonNegativeIntegerDefault0", .mkObj [("$ref", text "#/$defs/nonNegativeInteger"),
        ("default", natural 0)]),
      ("simpleTypes", .mkObj [("enum", .arr (["array", "boolean", "integer", "null", "number",
        "object", "string"].map text))]),
      ("stringArray", typed "array" [("items", typed "string" []), ("uniqueItems", .bool true),
        ("default", .arr [])])]

def metaData : Json :=
  vocabulary "meta-data" "Meta-data vocabulary meta-schema"
    [("title", typed "string" []),
      ("description", typed "string" []),
      ("default", .bool true),
      ("deprecated", typed "boolean" [("default", .bool false)]),
      ("readOnly", typed "boolean" [("default", .bool false)]),
      ("writeOnly", typed "boolean" [("default", .bool false)]),
      ("examples", typed "array" [("items", .bool true)])] []

def formatAnnotation : Json :=
  vocabulary "format-annotation" "Format vocabulary meta-schema for annotation results"
    [("format", typed "string" [])] []

def content : Json :=
  vocabulary "content" "Content vocabulary meta-schema"
    [("contentEncoding", typed "string" []), ("contentMediaType", typed "string" []),
      ("contentSchema", nested)] []

def joined : Json :=
  .mkObj [("$schema", text (site ++ "schema")), ("$id", text (site ++ "schema")),
    ("$vocabulary", .mkObj (["core", "applicator", "unevaluated", "validation", "meta-data",
      "format-annotation", "content"].map fun name =>
        ("https://json-schema.org/draft/2020-12/vocab/" ++ name, .bool true))),
    ("$dynamicAnchor", text "meta"),
    ("title", text "Core and Validation specifications meta-schema"),
    ("allOf", .arr [ref "meta/core", ref "meta/applicator", ref "meta/unevaluated",
      ref "meta/validation", ref "meta/meta-data", ref "meta/format-annotation",
      ref "meta/content"]),
    ("type", .arr [text "object", text "boolean"]),
    ("properties", .mkObj
      [("definitions", typed "object" [("additionalProperties", nested),
          ("deprecated", .bool true), ("default", .mkObj [])]),
        ("dependencies", typed "object" [("additionalProperties", .mkObj [("anyOf",
            .arr [nested, ref "meta/validation#/$defs/stringArray"])]),
          ("deprecated", .bool true), ("default", .mkObj [])]),
        ("$recursiveAnchor", .mkObj [("$ref", text "meta/core#/$defs/anchorString"),
          ("deprecated", .bool true)]),
        ("$recursiveRef", .mkObj [("$ref", text "meta/core#/$defs/uriReferenceString"),
          ("deprecated", .bool true)])])]

/-- All documents of the draft, the joining one first. -/
def documents : List Json :=
  [joined, core, applicator, unevaluated, validation, metaData, formatAnnotation, content]

end Unseal.Schema.Draft
