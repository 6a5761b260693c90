import RpcContract.Json.Basic

/-!
The schema of OpenRPC documents: one definition for each kind of object in a document, and the
schema that puts them together.
-/

namespace RpcContract.OpenRpc

def jsonSchema : Json := .obj [
  ("$id", .str "https://meta.json-schema.tools/"),
  ("$schema", .str "https://meta.json-schema.tools/"),
  ("oneOf", .arr [
    .obj [("$ref", .str "#/definitions/JSONSchemaObject")],
    .obj [("$ref", .str "#/definitions/JSONSchemaBoolean")]]),
  ("title", .str "JSONSchema")]

def jsonSchemaBoolean : Json := .obj [
  ("description", .str "Always valid if true. Never valid if false. Is constant."),
  ("title", .str "JSONSchemaBoolean"),
  ("type", .str "boolean")]

def jsonSchemaObject : Json := .obj [
  ("properties", .obj [
    ("$comment", .obj [("title", .str "$comment"), ("type", .str "string")]),
    ("$id", .obj [("title", .str "$id"), ("type", .str "string")]),
    ("$ref", .obj [("title", .str "$ref"), ("type", .str "string")]),
    ("$schema", .obj [("title", .str "$schema"), ("type", .str "string")]),
    ("additionalItems", .obj [("$ref", .str "#/definitions/JSONSchema")]),
    ("additionalProperties", .obj [("$ref", .str "#/definitions/JSONSchema")]),
    ("allOf", .obj [("$ref", .str "#/definitions/schemaArray")]),
    ("anyOf", .obj [("$ref", .str "#/definitions/schemaArray")]),
    ("const", .bool true),
    ("contains", .obj [("$ref", .str "#/definitions/JSONSchema")]),
    ("contentEncoding", .obj [("title", .str "contentEncoding"), ("type", .str "string")]),
    ("contentMediaType", .obj [("title", .str "contentMediaType"), ("type", .str "string")]),
    ("default", .bool true),
    ("definitions", .obj [
      ("additionalProperties", .obj [("$ref", .str "#/definitions/JSONSchema")]),
      ("default", .obj []),
      ("title", .str "definitions"),
      ("type", .str "object")]),
    ("dependencies", .obj [
      ("additionalProperties", .obj [
        ("anyOf", .arr [
          .obj [("$ref", .str "#/definitions/JSONSchema")],
          .obj [("$ref", .str "#/definitions/stringArray")]]),
        ("title", .str "dependenciesSet")]),
      ("title", .str "dependencies"),
      ("type", .str "object")]),
    ("description", .obj [("title", .str "description"), ("type", .str "string")]),
    ("else", .obj [("$ref", .str "#/definitions/JSONSchema")]),
    ("enum", .obj [("items", .bool true), ("title", .str "enum"), ("type", .str "array")]),
    ("examples", .obj [("items", .bool true), ("title", .str "examples"), ("type", .str "array")]),
    ("exclusiveMaximum", .obj [("title", .str "exclusiveMaximum"), ("type", .str "number")]),
    ("exclusiveMinimum", .obj [("title", .str "exclusiveMinimum"), ("type", .str "number")]),
    ("format", .obj [("title", .str "format"), ("type", .str "string")]),
    ("if", .obj [("$ref", .str "#/definitions/JSONSchema")]),
    ("items", .obj [
      ("anyOf", .arr [
        .obj [("$ref", .str "#/definitions/JSONSchema")],
        .obj [("$ref", .str "#/definitions/schemaArray")]]),
      ("default", .bool true),
      ("title", .str "items")]),
    ("maxItems", .obj [("$ref", .str "#/definitions/nonNegativeInteger")]),
    ("maxLength", .obj [("$ref", .str "#/definitions/nonNegativeInteger")]),
    ("maxProperties", .obj [("$ref", .str "#/definitions/nonNegativeInteger")]),
    ("maximum", .obj [("title", .str "maximum"), ("type", .str "number")]),
    ("minItems", .obj [("$ref", .str "#/definitions/nonNegativeIntegerDefaultZero")]),
    ("minLength", .obj [("$ref", .str "#/definitions/nonNegativeIntegerDefaultZero")]),
    ("minProperties", .obj [("$ref", .str "#/definitions/nonNegativeIntegerDefaultZero")]),
    ("minimum", .obj [("title", .str "minimum"), ("type", .str "number")]),
    ("multipleOf", .obj [
      ("exclusiveMinimum", .num (.int 0)),
      ("title", .str "multipleOf"),
      ("type", .str "number")]),
    ("not", .obj [("$ref", .str "#/definitions/JSONSchema")]),
    ("oneOf", .obj [("$ref", .str "#/definitions/schemaArray")]),
    ("pattern", .obj [("title", .str "pattern"), ("type", .str "string")]),
    ("patternProperties", .obj [
      ("additionalProperties", .obj [("$ref", .str "#/definitions/JSONSchema")]),
      ("default", .obj []),
      ("propertyNames", .obj [("format", .str "regex"), ("title", .str "propertyNames")]),
      ("title", .str "patternProperties"),
      ("type", .str "object")]),
    ("properties", .obj [
      ("additionalProperties", .obj [("$ref", .str "#/definitions/JSONSchema")]),
      ("default", .obj []),
      ("title", .str "properties"),
      ("type", .str "object")]),
    ("propertyNames", .obj [("$ref", .str "#/definitions/JSONSchema")]),
    ("readOnly", .obj [
      ("default", .bool false),
      ("title", .str "readOnly"),
      ("type", .str "boolean")]),
    ("required", .obj [("$ref", .str "#/definitions/stringArray")]),
    ("then", .obj [("$ref", .str "#/definitions/JSONSchema")]),
    ("title", .obj [("title", .str "title"), ("type", .str "string")]),
    ("type", .obj [
      ("anyOf", .arr [
        .obj [("$ref", .str "#/definitions/simpleTypes")],
        .obj [
          ("items", .obj [("$ref", .str "#/definitions/simpleTypes")]),
          ("minItems", .num (.int 1)),
          ("title", .str "arrayOfSimpleTypes"),
          ("type", .str "array"),
          ("uniqueItems", .bool true)]]),
      ("title", .str "type")]),
    ("uniqueItems", .obj [
      ("default", .bool false),
      ("title", .str "uniqueItems"),
      ("type", .str "boolean")])]),
  ("title", .str "JSONSchemaObject"),
  ("type", .str "object")]

def componentsObject : Json := .obj [
  ("additionalProperties", .bool false),
  ("description", .str "Holds a set of reusable objects for different aspects of the OpenRPC."),
  ("patternProperties", .obj [
    ("^x-", .obj [("$ref", .str "#/definitions/specificationExtension")])]),
  ("properties", .obj [
    ("contentDescriptors", .obj [
      ("patternProperties", .obj [
        ("[0-z]+", .obj [("$ref", .str "#/definitions/contentDescriptorObject")])]),
      ("title", .str "contentDescriptorComponents"),
      ("type", .str "object")]),
    ("errors", .obj [
      ("patternProperties", .obj [("[0-z]+", .obj [("$ref", .str "#/definitions/errorObject")])]),
      ("title", .str "errorComponents"),
      ("type", .str "object")]),
    ("examplePairings", .obj [
      ("patternProperties", .obj [
        ("[0-z]+", .obj [("$ref", .str "#/definitions/examplePairingObject")])]),
      ("title", .str "examplePairingComponents"),
      ("type", .str "object")]),
    ("examples", .obj [
      ("patternProperties", .obj [("[0-z]+", .obj [("$ref", .str "#/definitions/exampleObject")])]),
      ("title", .str "exampleComponents"),
      ("type", .str "object")]),
    ("links", .obj [
      ("patternProperties", .obj [("[0-z]+", .obj [("$ref", .str "#/definitions/linkObject")])]),
      ("title", .str "linkComponents"),
      ("type", .str "object")]),
    ("schemas", .obj [
      ("patternProperties", .obj [("[0-z]+", .obj [("$ref", .str "#/definitions/JSONSchema")])]),
      ("title", .str "schemaComponents"),
      ("type", .str "object")]),
    ("tags", .obj [
      ("patternProperties", .obj [("[0-z]+", .obj [("$ref", .str "#/definitions/tagObject")])]),
      ("title", .str "tagComponents"),
      ("type", .str "object")])]),
  ("title", .str "componentsObject"),
  ("type", .str "object")]

def contactObject : Json := .obj [
  ("additionalProperties", .bool false),
  ("patternProperties", .obj [
    ("^x-", .obj [("$ref", .str "#/definitions/specificationExtension")])]),
  ("properties", .obj [
    ("email", .obj [("title", .str "contactObjectEmail"), ("type", .str "string")]),
    ("name", .obj [("title", .str "contactObjectName"), ("type", .str "string")]),
    ("url", .obj [("title", .str "contactObjectUrl"), ("type", .str "string")])]),
  ("title", .str "contactObject"),
  ("type", .str "object")]

def contentDescriptorObject : Json := .obj [
  ("additionalProperties", .bool false),
  ("patternProperties", .obj [
    ("^x-", .obj [("$ref", .str "#/definitions/specificationExtension")])]),
  ("properties", .obj [
    ("deprecated", .obj [
      ("default", .bool false),
      ("title", .str "contentDescriptorObjectDeprecated"),
      ("type", .str "boolean")]),
    ("description", .obj [
      ("title", .str "contentDescriptorObjectDescription"),
      ("type", .str "string")]),
    ("name", .obj [
      ("minLength", .num (.int 1)),
      ("title", .str "contentDescriptorObjectName"),
      ("type", .str "string")]),
    ("required", .obj [
      ("default", .bool false),
      ("title", .str "contentDescriptorObjectRequired"),
      ("type", .str "boolean")]),
    ("schema", .obj [("$ref", .str "#/definitions/JSONSchema")]),
    ("summary", .obj [("title", .str "contentDescriptorObjectSummary"), ("type", .str "string")])]),
  ("required", .arr [.str "name", .str "schema"]),
  ("title", .str "contentDescriptorObject"),
  ("type", .str "object")]

def errorObject : Json := .obj [
  ("additionalProperties", .bool false),
  ("description", .str "Defines an application level error."),
  ("properties", .obj [
    ("code", .obj [
      ("description", .str "A Number that indicates the error type that occurred."),
      ("title", .str "errorObjectCode"),
      ("type", .str "integer")]),
    ("data", .obj [
      ("description", .str (
        "A Primitive or Structured value that contains additional information about the error.")),
      ("title", .str "errorObjectData")]),
    ("message", .obj [
      ("description", .str "A String providing a short description of the error."),
      ("title", .str "errorObjectMessage"),
      ("type", .str "string")])]),
  ("required", .arr [.str "code", .str "message"]),
  ("title", .str "errorObject"),
  ("type", .str "object")]

def exampleObject : Json := .obj [
  ("patternProperties", .obj [
    ("^x-", .obj [("$ref", .str "#/definitions/specificationExtension")])]),
  ("properties", .obj [
    ("description", .obj [("title", .str "exampleObjectDescription"), ("type", .str "string")]),
    ("name", .obj [
      ("minLength", .num (.int 1)),
      ("title", .str "exampleObjectName"),
      ("type", .str "string")]),
    ("summary", .obj [("title", .str "exampleObjectSummary"), ("type", .str "string")]),
    ("value", .obj [("title", .str "exampleObjectValue")])]),
  ("required", .arr [.str "name", .str "value"]),
  ("title", .str "exampleObject"),
  ("type", .str "object")]

def examplePairingObject : Json := .obj [
  ("properties", .obj [
    ("description", .obj [
      ("title", .str "examplePairingObjectDescription"),
      ("type", .str "string")]),
    ("name", .obj [
      ("minLength", .num (.int 1)),
      ("title", .str "examplePairingObjectName"),
      ("type", .str "string")]),
    ("params", .obj [
      ("items", .obj [
        ("oneOf", .arr [
          .obj [("$ref", .str "#/definitions/exampleObject")],
          .obj [("$ref", .str "#/definitions/referenceObject")]]),
        ("title", .str "exampleOrReference")]),
      ("title", .str "examplePairingObjectParams"),
      ("type", .str "array")]),
    ("result", .obj [
      ("oneOf", .arr [
        .obj [("$ref", .str "#/definitions/exampleObject")],
        .obj [("$ref", .str "#/definitions/referenceObject")]]),
      ("title", .str "examplePairingObjectResult")])]),
  ("required", .arr [.str "name", .str "params"]),
  ("title", .str "examplePairingObject"),
  ("type", .str "object")]

def externalDocumentationObject : Json := .obj [
  ("additionalProperties", .bool false),
  ("description", .str "information about external documentation"),
  ("patternProperties", .obj [
    ("^x-", .obj [("$ref", .str "#/definitions/specificationExtension")])]),
  ("properties", .obj [
    ("description", .obj [
      ("title", .str "externalDocumentationObjectDescription"),
      ("type", .str "string")]),
    ("url", .obj [("title", .str "externalDocumentationObjectUrl"), ("type", .str "string")])]),
  ("required", .arr [.str "url"]),
  ("title", .str "externalDocumentationObject"),
  ("type", .str "object")]

def infoObject : Json := .obj [
  ("additionalProperties", .bool false),
  ("patternProperties", .obj [
    ("^x-", .obj [("$ref", .str "#/definitions/specificationExtension")])]),
  ("properties", .obj [
    ("contact", .obj [("$ref", .str "#/definitions/contactObject")]),
    ("description", .obj [("title", .str "infoObjectDescription"), ("type", .str "string")]),
    ("license", .obj [("$ref", .str "#/definitions/licenseObject")]),
    ("termsOfService", .obj [("title", .str "infoObjectTermsOfService"), ("type", .str "string")]),
    ("title", .obj [("title", .str "infoObjectProperties"), ("type", .str "string")]),
    ("version", .obj [("title", .str "infoObjectVersion"), ("type", .str "string")])]),
  ("required", .arr [.str "title", .str "version"]),
  ("title", .str "infoObject"),
  ("type", .str "object")]

def licenseObject : Json := .obj [
  ("additionalProperties", .bool false),
  ("patternProperties", .obj [
    ("^x-", .obj [("$ref", .str "#/definitions/specificationExtension")])]),
  ("properties", .obj [
    ("name", .obj [("title", .str "licenseObjectName"), ("type", .str "string")]),
    ("url", .obj [("title", .str "licenseObjectUrl"), ("type", .str "string")])]),
  ("title", .str "licenseObject"),
  ("type", .str "object")]

def linkObject : Json := .obj [
  ("additionalProperties", .bool false),
  ("patternProperties", .obj [
    ("^x-", .obj [("$ref", .str "#/definitions/specificationExtension")])]),
  ("properties", .obj [
    ("description", .obj [("title", .str "linkObjectDescription"), ("type", .str "string")]),
    ("method", .obj [("title", .str "linkObjectMethod"), ("type", .str "string")]),
    ("name", .obj [
      ("minLength", .num (.int 1)),
      ("title", .str "linkObjectName"),
      ("type", .str "string")]),
    ("params", .obj [("title", .str "linkObjectParams")]),
    ("server", .obj [("$ref", .str "#/definitions/serverObject")]),
    ("summary", .obj [("title", .str "linkObjectSummary"), ("type", .str "string")])]),
  ("title", .str "linkObject"),
  ("type", .str "object")]

def metaSchema : Json := .obj [("title", .str "metaSchema"), ("type", .str "string")]

def methodObject : Json := .obj [
  ("additionalProperties", .bool false),
  ("patternProperties", .obj [
    ("^x-", .obj [("$ref", .str "#/definitions/specificationExtension")])]),
  ("properties", .obj [
    ("deprecated", .obj [
      ("default", .bool false),
      ("title", .str "methodObjectDeprecated"),
      ("type", .str "boolean")]),
    ("description", .obj [("title", .str "methodObjectDescription"), ("type", .str "string")]),
    ("errors", .obj [
      ("description", .str "Defines an application level error."),
      ("items", .obj [
        ("oneOf", .arr [
          .obj [("$ref", .str "#/definitions/errorObject")],
          .obj [("$ref", .str "#/definitions/referenceObject")]]),
        ("title", .str "errorOrReference")]),
      ("title", .str "methodObjectErrors"),
      ("type", .str "array")]),
    ("examples", .obj [
      ("items", .obj [
        ("oneOf", .arr [
          .obj [("$ref", .str "#/definitions/examplePairingObject")],
          .obj [("$ref", .str "#/definitions/referenceObject")]]),
        ("title", .str "examplePairingOrReference")]),
      ("title", .str "methodObjectExamples"),
      ("type", .str "array")]),
    ("externalDocs", .obj [("$ref", .str "#/definitions/externalDocumentationObject")]),
    ("links", .obj [
      ("items", .obj [
        ("oneOf", .arr [
          .obj [("$ref", .str "#/definitions/linkObject")],
          .obj [("$ref", .str "#/definitions/referenceObject")]]),
        ("title", .str "linkOrReference")]),
      ("title", .str "methodObjectLinks"),
      ("type", .str "array")]),
    ("name", .obj [
      ("description", .str (
        "The cannonical name for the method. The name MUST be unique within the methods array.")),
      ("minLength", .num (.int 1)),
      ("title", .str "methodObjectName"),
      ("type", .str "string")]),
    ("paramStructure", .obj [
      ("default", .str "either"),
      ("enum", .arr [.str "by-position", .str "by-name", .str "either"]),
      ("title", .str "methodObjectParamStructure"),
      ("type", .str "string")]),
    ("params", .obj [
      ("items", .obj [
        ("oneOf", .arr [
          .obj [("$ref", .str "#/definitions/contentDescriptorObject")],
          .obj [("$ref", .str "#/definitions/referenceObject")]]),
        ("title", .str "contentDescriptorOrReference")]),
      ("title", .str "methodObjectParams"),
      ("type", .str "array")]),
    ("result", .obj [
      ("oneOf", .arr [
        .obj [("$ref", .str "#/definitions/contentDescriptorObject")],
        .obj [("$ref", .str "#/definitions/referenceObject")]]),
      ("title", .str "methodObjectResult")]),
    ("servers", .obj [("$ref", .str "#/definitions/servers")]),
    ("summary", .obj [("title", .str "methodObjectSummary"), ("type", .str "string")]),
    ("tags", .obj [
      ("items", .obj [
        ("oneOf", .arr [
          .obj [("$ref", .str "#/definitions/tagObject")],
          .obj [("$ref", .str "#/definitions/referenceObject")]]),
        ("title", .str "tagOrReference")]),
      ("title", .str "methodObjectTags"),
      ("type", .str "array")])]),
  ("required", .arr [.str "name", .str "params"]),
  ("title", .str "methodObject"),
  ("type", .str "object")]

def methods : Json := .obj [
  ("additionalItems", .bool false),
  ("items", .obj [
    ("oneOf", .arr [
      .obj [("$ref", .str "#/definitions/methodObject")],
      .obj [("$ref", .str "#/definitions/referenceObject")]]),
    ("title", .str "methodOrReference")]),
  ("title", .str "methods"),
  ("type", .str "array")]

def nonNegativeInteger : Json := .obj [
  ("minimum", .num (.int 0)),
  ("title", .str "nonNegativeInteger"),
  ("type", .str "integer")]

def nonNegativeIntegerDefaultZero : Json := .obj [
  ("default", .num (.int 0)),
  ("minimum", .num (.int 0)),
  ("title", .str "nonNegativeIntegerDefaultZero"),
  ("type", .str "integer")]

def openrpc : Json := .obj [
  ("enum", .arr [
    .str "1.3.2", .str "1.3.1", .str "1.3.0", .str "1.2.6", .str "1.2.5", .str "1.2.4",
    .str "1.2.3", .str "1.2.2", .str "1.2.1", .str "1.2.0", .str "1.1.12", .str "1.1.11",
    .str "1.1.10", .str "1.1.9", .str "1.1.8", .str "1.1.7", .str "1.1.6", .str "1.1.5",
    .str "1.1.4", .str "1.1.3", .str "1.1.2", .str "1.1.1", .str "1.1.0", .str "1.0.0",
    .str "1.0.0-rc1", .str "1.0.0-rc0"]),
  ("title", .str "openrpc"),
  ("type", .str "string")]

def referenceObject : Json := .obj [
  ("additionalProperties", .bool false),
  ("properties", .obj [("$ref", .obj [("type", .str "string")])]),
  ("required", .arr [.str "$ref"]),
  ("title", .str "referenceObject"),
  ("type", .str "object")]

def schemaArray : Json := .obj [
  ("items", .obj [("$ref", .str "#/definitions/JSONSchema")]),
  ("minItems", .num (.int 1)),
  ("title", .str "schemaArray"),
  ("type", .str "array")]

def serverObject : Json := .obj [
  ("additionalProperties", .bool false),
  ("patternProperties", .obj [
    ("^x-", .obj [("$ref", .str "#/definitions/specificationExtension")])]),
  ("properties", .obj [
    ("description", .obj [("title", .str "serverObjectDescription"), ("type", .str "string")]),
    ("name", .obj [("title", .str "serverObjectName"), ("type", .str "string")]),
    ("summary", .obj [("title", .str "serverObjectSummary"), ("type", .str "string")]),
    ("url", .obj [("title", .str "serverObjectUrl"), ("type", .str "string")]),
    ("variables", .obj [
      ("patternProperties", .obj [
        ("[0-z]+", .obj [
          ("properties", .obj [
            ("default", .obj [
              ("title", .str "serverObjectVariableDefault"),
              ("type", .str "string")]),
            ("description", .obj [
              ("title", .str "serverObjectVariableDescription"),
              ("type", .str "string")]),
            ("enum", .obj [
              ("items", .obj [
                ("title", .str "serverObjectVariableEnumItem"),
                ("type", .str "string")]),
              ("title", .str "serverObjectVariableEnum"),
              ("type", .str "array")])]),
          ("required", .arr [.str "default"]),
          ("title", .str "serverObjectVariable"),
          ("type", .str "object")])]),
      ("title", .str "serverObjectVariables"),
      ("type", .str "object")])]),
  ("required", .arr [.str "url"]),
  ("title", .str "serverObject"),
  ("type", .str "object")]

def servers : Json := .obj [
  ("additionalItems", .bool false),
  ("items", .obj [("$ref", .str "#/definitions/serverObject")]),
  ("title", .str "servers"),
  ("type", .str "array")]

def simpleTypes : Json := .obj [
  ("enum", .arr [
    .str "array", .str "boolean", .str "integer", .str "null", .str "number", .str "object",
    .str "string"]),
  ("title", .str "simpleTypes"),
  ("type", .str "string")]

def specificationExtension : Json := .obj [("title", .str "specificationExtension")]

def stringArray : Json := .obj [
  ("default", .arr []),
  ("items", .obj [("type", .str "string")]),
  ("title", .str "stringArray"),
  ("type", .str "array"),
  ("uniqueItems", .bool true)]

def tagObject : Json := .obj [
  ("additionalProperties", .bool false),
  ("patternProperties", .obj [
    ("^x-", .obj [("$ref", .str "#/definitions/specificationExtension")])]),
  ("properties", .obj [
    ("description", .obj [("title", .str "tagObjectDescription"), ("type", .str "string")]),
    ("externalDocs", .obj [("$ref", .str "#/definitions/externalDocumentationObject")]),
    ("name", .obj [
      ("minLength", .num (.int 1)),
      ("title", .str "tagObjectName"),
      ("type", .str "string")])]),
  ("required", .arr [.str "name"]),
  ("title", .str "tagObject"),
  ("type", .str "object")]

def definitions : Json := .obj [
  ("JSONSchema", jsonSchema),
  ("JSONSchemaBoolean", jsonSchemaBoolean),
  ("JSONSchemaObject", jsonSchemaObject),
  ("componentsObject", componentsObject),
  ("contactObject", contactObject),
  ("contentDescriptorObject", contentDescriptorObject),
  ("errorObject", errorObject),
  ("exampleObject", exampleObject),
  ("examplePairingObject", examplePairingObject),
  ("externalDocumentationObject", externalDocumentationObject),
  ("infoObject", infoObject),
  ("licenseObject", licenseObject),
  ("linkObject", linkObject),
  ("metaSchema", metaSchema),
  ("methodObject", methodObject),
  ("methods", methods),
  ("nonNegativeInteger", nonNegativeInteger),
  ("nonNegativeIntegerDefaultZero", nonNegativeIntegerDefaultZero),
  ("openrpc", openrpc),
  ("referenceObject", referenceObject),
  ("schemaArray", schemaArray),
  ("serverObject", serverObject),
  ("servers", servers),
  ("simpleTypes", simpleTypes),
  ("specificationExtension", specificationExtension),
  ("stringArray", stringArray),
  ("tagObject", tagObject)]

def documentSchema : Json := .obj [
  ("$id", .str "https://meta.open-rpc.org/"),
  ("$schema", .str "https://meta.json-schema.tools/"),
  ("additionalProperties", .bool false),
  ("definitions", definitions),
  ("patternProperties", .obj [
    ("^x-", .obj [("$ref", .str "#/definitions/specificationExtension")])]),
  ("properties", .obj [
    ("$schema", .obj [("$ref", .str "#/definitions/metaSchema")]),
    ("components", .obj [("$ref", .str "#/definitions/componentsObject")]),
    ("externalDocs", .obj [("$ref", .str "#/definitions/externalDocumentationObject")]),
    ("info", .obj [("$ref", .str "#/definitions/infoObject")]),
    ("methods", .obj [("$ref", .str "#/definitions/methods")]),
    ("openrpc", .obj [("$ref", .str "#/definitions/openrpc")]),
    ("servers", .obj [("$ref", .str "#/definitions/servers")])]),
  ("required", .arr [.str "info", .str "methods", .str "openrpc"]),
  ("title", .str "openrpcDocument"),
  ("type", .str "object")]

end RpcContract.OpenRpc
