import FlowTypes.Catalog.Tables
import FlowTypes.Rule
import FlowTypes.Text.Lower

/-!
# Families of rules

Each table of the catalog gives a family of drafts. Families run in phases, which leave room for more in
between. Constants and helpers go in after the header of their class, so they run before a header is
changed by a base or a new name; the notice runs last, since it stands before every header.
-/

namespace FlowTypes.Catalog

/-! ## Phases -/

/-- The phase of the types that belong to no class. -/
def adhocPhase : Int := 10

/-- The phase of enumerations. -/
def enumPhase : Int := 20

/-- The phase of helper functions. -/
def conveniencePhase : Int := 30

/-- The phase of containers. -/
def containerPhase : Int := 40

/-- The phase of bases. -/
def inheritancePhase : Int := 50

/-- The phase of new names. -/
def renamePhase : Int := 60

/-- The phase of signatures. -/
def signaturePhase : Int := 70

/-- The phase of accessors. -/
def accessorPhase : Int := 80

/-- The phase of the notice. -/
def noticePhase : Int := 100

/-! ## Names and texts -/

/-- The line that says that a file is generated. -/
def notice : Text := "// Automatically generated by " ++ "GDevelop.js/tools/types-gen/" ++ "gen_types.py"

/-- The file that declares a class. -/
def artifactName (className : Text) : Text := Text.lower className ++ ".js"

/-- The header of the declaration of a class. -/
def classHeader (className : Text) : Text := "declare class " ++ className ++ " \x7b"

/-- The header of the declaration of a class with a base. -/
def extendedHeader (className baseName : Text) : Text :=
  "declare class " ++ className ++ " extends " ++ baseName ++ " \x7b"

/-- Lines as members of a class, each on a line of its own and indented; an empty line stays empty. -/
def memberLines (lines : List Text) : Text :=
  lines.flatMap fun line => if line.isEmpty then "\n" else "\n  " ++ line

/-- The type of the strings with these values. -/
def literalUnion (values : List Text) : Text :=
  Text.join " | " (values.map fun value => "'" ++ value ++ "'")

/-! ## Types that belong to no class -/

/-- The file of the types that belong to no class. -/
def adhocFile : Text := "other-adhoc-types.js"

/-- Their declarations, line by line. -/
def adhocLines : List Text := [
  "declare type gdSerializable = any;",
  "declare type gdEmscriptenObject = \x7b",
  "  ptr: number;",
  "\x7d;"]

/-- The rule that writes them. -/
def adhocDrafts : List Draft := [
  { name := "adhoc-types"
    phase := adhocPhase
    target := adhocFile
    edit := Edit.create.text
    content := Text.join "\n" (notice :: adhocLines) ++ "\n"
    anchor := none }]

/-! ## Members of classes -/

/-- The draft that inserts content after the header of a class. -/
def afterHeader (family : Text) (phase : Int) (className content : Text) : Draft where
  name := family ++ ":" ++ className
  phase := phase
  target := artifactName className
  edit := Edit.insertAfter.text
  content := content
  anchor := some (.literal (classHeader className))

/-- The draft that replaces the header of a class. -/
def overHeader (family : Text) (phase : Int) (className content : Text) : Draft where
  name := family ++ ":" ++ className
  phase := phase
  target := artifactName className
  edit := Edit.replace.text
  content := content
  anchor := some (.literal (classHeader className))

/-- The constants of an enumeration, each with its index. -/
def constantLines (members : List Text) : List Text :=
  members.mapIdx fun value name => "static " ++ name ++ ": " ++ Text.ofNat value ++ ";"

/-- The rules of an enumeration: a file for its type, if it has one, and constants for its class, if it
wants them. -/
def enumDrafts (spec : EnumSpec) : List Draft :=
  (match spec.typeName with
    | none => []
    | some typeName =>
      [{ name := "enum-alias:" ++ typeName
         phase := enumPhase
         target := artifactName typeName
         edit := Edit.create.text
         content := notice ++ "\ntype " ++ typeName ++ " = "
           ++ Text.join " | " ((List.range spec.members.length).map Text.ofNat) ++ "\n"
         anchor := none }])
  ++ (if spec.injectMembers then
      [afterHeader "enum-members" enumPhase spec.owner (memberLines (constantLines spec.members))]
    else [])

/-- The class of the module. -/
def moduleClass : Text := "libGDevelop"

/-- The declaration of a cast. -/
def castLine (c : Cast) : Text := c.name ++ "(" ++ c.argument ++ "): " ++ c.result ++ ";"

/-- The lines for the class of the module: its functions, then its casts, with an empty line after each
group. -/
def moduleLines (tables : Tables) : List Text :=
  tables.moduleHelpers ++ tables.moduleCasts.flatMap fun group => group.map castLine ++ [[]]

/-- The rules that add functions by hand. -/
def convenienceDrafts (tables : Tables) : List Draft := [
  afterHeader "helpers" conveniencePhase moduleClass (memberLines (moduleLines tables)),
  afterHeader "helpers" conveniencePhase "gdSerializer" (memberLines tables.serializerHelpers)]

/-- The rules that add a function to a container. -/
def containerDrafts (tables : Tables) : List Draft :=
  tables.containerHelpers.map fun (className, line) =>
    afterHeader "container" containerPhase className (memberLines [line])

/-! ## Headers -/

/-- The rule that gives a class its base. -/
def inheritanceDraft (className baseName : Text) : Draft :=
  overHeader "extends" inheritancePhase className (extendedHeader className baseName)

/-- The rules that give classes new names. -/
def renameDrafts (tables : Tables) : List Draft :=
  tables.classRenames.map fun (old, new) => overHeader "rename" renamePhase old (classHeader new)

/-! ## Signatures -/

/-- Parameters that are declared as if they had to be given. -/
def requiredParameters : Text :=
  "type: string, description: string, " ++ "optionalObjectType: string, " ++ "parameterIsOptional: boolean"

/-- The same parameters, the last two of which may be left out. -/
def optionalParameters : Text :=
  "type: string, description: string, " ++ "optionalObjectType?: string, " ++ "parameterIsOptional?: boolean"

/-- The rule that narrows a signature of the class of resources. -/
def kindDraft (function source content : Text) : Draft where
  name := "kind:gdResource." ++ function
  phase := signaturePhase
  target := artifactName "gdResource"
  edit := Edit.replace.text
  content := content
  anchor := Anchor.ofPattern? source

/-- The rules that correct signatures. -/
def signatureDrafts (tables : Tables) : List Draft :=
  let kinds := literalUnion tables.resourceKinds
  [kindDraft "setKind" "setKind\\(kind: string\\): void" ("setKind(kind: " ++ kinds ++ "): void"),
    kindDraft "getKind" "getKind\\(\\): string" ("getKind(): " ++ kinds)]
  ++ tables.metadataWithParameters.map fun className =>
    { name := "optional-parameters:" ++ className
      phase := signaturePhase
      target := artifactName className
      edit := Edit.replace.text
      content := optionalParameters
      anchor := some (.literal requiredParameters) }

/-! ## Accessors -/

/-- The written pattern of the declaration of an attribute, which has to start a word. -/
def attributeSource (a : Attribute) : Text :=
  "\\b" ++ Pattern.escape a.name ++ ": " ++ Pattern.escape a.type ++ ";"

/-- The rules that add accessors after the declaration of an attribute. -/
def accessorDrafts (tables : Tables) : List Draft :=
  tables.attributeAccessors.map fun a =>
    { name := "accessors:" ++ a.owner ++ "." ++ a.name
      phase := accessorPhase
      target := artifactName a.owner
      edit := Edit.insertAfter.text
      content := memberLines [
        "set_" ++ a.name ++ "(" ++ a.type ++ "): void;",
        "get_" ++ a.name ++ "(): " ++ a.type ++ ";"]
      anchor := Anchor.ofPattern? (attributeSource a) }

/-! ## Notice -/

/-- The rule that puts the notice before every declaration of a class. -/
def noticeDrafts : List Draft := [
  { name := "notice"
    phase := noticePhase
    target := "*.js"
    edit := Edit.insertBefore.text
    content := notice ++ "\n"
    anchor := some (.literal "declare class") }]

/-! ## All families -/

/-- The drafts of all families, in the order in which they are put down. -/
def drafts (tables : Tables) : List Draft :=
  adhocDrafts
    ++ tables.enums.flatMap enumDrafts
    ++ convenienceDrafts tables
    ++ containerDrafts tables
    ++ tables.inheritanceEdges.map (fun (className, baseName) => inheritanceDraft className baseName)
    ++ renameDrafts tables
    ++ signatureDrafts tables
    ++ accessorDrafts tables
    ++ noticeDrafts

end FlowTypes.Catalog
