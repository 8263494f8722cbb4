import ServiceDocs.Field.Sample
import ServiceDocs.Json.Printer
import ServiceDocs.Page.Table

/-!
# Documentation pages

The page of a method is a Markdown text. It gives the description of the method, the coordinates
of the interface if there are any, its declaration, and for the request and the response a sample
payload and a table of the fields.
-/

namespace ServiceDocs.Page

/-- The text of a page, given by its lines. -/
def ofLines (ls : List String) : String :=
  String.join (ls.map (· ++ "\n"))

/-- The description of a method without one. -/
def noDescription : String := "_No description provided._"

/-- The description without surrounding white space, or a remark if nothing is left. -/
def descriptionText (description : Option String) : String :=
  match Text.trim (description.getD "").toList with
  | []      => noDescription
  | c :: cs => String.ofList (c :: cs)

/-- The lines that give the description. -/
def descriptionLines (e : MethodEntry) : List String :=
  ["## Description", "", descriptionText e.description, ""]

/-- The lines that give the coordinates, if there are any. -/
def dependencyLines (c : Coordinates) : List String :=
  if c.isEmpty then []
  else
    ["## Maven Dependency", "", "```xml", "<dependency>",
     "    <groupId>" ++ c.groupId.getD "" ++ "</groupId>",
     "    <artifactId>" ++ c.artifactId.getD "" ++ "</artifactId>",
     "    <version>" ++ c.version.getD "" ++ "</version>",
     "</dependency>", "```", ""]

/-- The lines that give the declaration. -/
def declarationLines (e : MethodEntry) : List String :=
  ["## Interface Declaration", "", "```java"]
    ++ (if e.package = "" then [] else ["package " ++ e.package ++ ";", ""])
    ++ ["public interface " ++ e.declaringType ++ " \x7b", "",
        "\t" ++ e.returnType.display ++ " " ++ e.name ++ e.parameters ++ ";", "",
        "\x7d", "```", ""]

/-- The lines that give the sample payload of one side. -/
def sampleLines (title : String) (fields : List Field) : List String :=
  ["### " ++ title ++ " Example", ""]
    ++ if fields.isEmpty then [] else ["```json", (samplePayload fields).pretty, "```", ""]

/-- The lines that give the table of one side. -/
def parameterLines (title : String) (fields : List Field) : List String :=
  ["### " ++ title ++ " Parameters", ""]
    ++ if fields.isEmpty then [] else tableLines fields ++ [""]

/-- The lines of the request or the response. -/
def sideLines (title : String) (fields : List Field) : List String :=
  ["## " ++ title, ""] ++ sampleLines title fields ++ parameterLines title fields

/-- The lines of the page of a method. A description or a sample may take several lines. -/
def lines (e : MethodEntry) (coordinates : Coordinates) : List String :=
  ["# " ++ e.name, ""] ++ descriptionLines e ++ dependencyLines coordinates ++ declarationLines e
    ++ sideLines "Request" e.request ++ sideLines "Response" e.response

/-- The page of a method. -/
def render (e : MethodEntry) (coordinates : Coordinates) : String :=
  ofLines (lines e coordinates)

end ServiceDocs.Page
