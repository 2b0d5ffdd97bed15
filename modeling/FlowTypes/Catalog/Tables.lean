import FlowTypes.Text

/-!
# Tables of the catalog

What the declarations lack, table by table: constants of enumerations, functions that are added by hand,
bases that are not declared, classes with another name, and so on. `Tables.standard` holds the tables of
the bindings; the families of rules are made from them and from nothing else.
-/

namespace FlowTypes.Catalog

/-- An enumeration that is only known as numbers of a class. The value of a member is its index. -/
structure EnumSpec where
  /-- The class that the enumeration belongs to. -/
  owner : Text
  /-- The name of a type of its own for the values, if they need one. -/
  typeName : Option Text
  members : List Text
  /-- Whether the members are declared as constants of the class. -/
  injectMembers : Bool := true
  deriving DecidableEq, Repr

/-- A function that sees an object as one of a more special class. -/
structure Cast where
  name : Text
  argument : Text
  result : Text
  deriving DecidableEq, Repr

/-- An attribute of a class, with its type. -/
structure Attribute where
  owner : Text
  name : Text
  type : Text
  deriving DecidableEq, Repr

/-- The tables that the rules are made from. -/
structure Tables where
  enums : List EnumSpec
  /-- Lines for the class of the module. -/
  moduleHelpers : List Text
  /-- Casts for the class of the module, in groups. -/
  moduleCasts : List (List Cast)
  serializerHelpers : List Text
  /-- A class and a line for it. -/
  containerHelpers : List (Text × Text)
  /-- A class and its base. -/
  inheritanceEdges : List (Text × Text)
  /-- A class and its new name. -/
  classRenames : List (Text × Text)
  resourceKinds : List Text
  /-- Classes whose parameters may be left out. -/
  metadataWithParameters : List Text
  attributeAccessors : List Attribute
  deriving DecidableEq, Repr

namespace Tables

/-! ## Enumerations -/

/-- The enumerations of the bindings. -/
def enumerations : List EnumSpec := [
  { owner := "gdEventsFunction"
    typeName := some "EventsFunction_FunctionType"
    members := [
      "Action", "Condition", "Expression", "ExpressionAndCondition", "ActionWithOperator"] },
  { owner := "gdEventsFunctionsContainer"
    typeName := some "EventsFunctionsContainer_FunctionOwner"
    members := [
      "Extension", "Object", "Behavior"]
    injectMembers := false },
  { owner := "gdVariable"
    typeName := some "Variable_Type"
    members := [
      "Unknown", "String", "Number", "Boolean", "Structure", "Array"] },
  { owner := "gdVariablesContainer"
    typeName := some "VariablesContainer_SourceType"
    members := [
      "Unknown", "Global", "Scene", "Object", "Local", "ExtensionGlobal", "ExtensionScene"] },
  { owner := "gdObjectsContainersList"
    typeName := none
    members := [
      "DoesNotExist", "Exists", "Number", "GroupIsEmpty", "ExistsOnlyOnSomeObjectsOfTheGroup"] },
  { owner := "gdProjectDiagnostic"
    typeName := some "ProjectDiagnostic_ErrorType"
    members := [
      "UndeclaredVariable", "MissingBehavior", "UnknownObject", "MismatchedObjectType"] },
  { owner := "gdExpressionCompletionDescription"
    typeName := some "ExpressionCompletionDescription_CompletionKind"
    members := [
      "Object", "BehaviorWithPrefix", "ExpressionWithPrefix", "Variable", "TextWithPrefix",
      "Property", "Parameter"] },
  { owner := "gdParticleEmitterObject"
    typeName := some "ParticleEmitterObject_RendererType"
    members := [
      "Point", "Line", "Quad"] }]

/-! ## Functions added by hand -/

/-- A function that looks up an object by its name. -/
def lookup (name more result : Text) : Text :=
  name ++ "(globalObjectsContainer: " ++ "gdObjectsContainer, " ++ "objectsContainer: "
    ++ "gdObjectsContainer, " ++ "objectName: string, " ++ more ++ "): " ++ result ++ ";"

/-- Functions of the module; an empty line sets groups apart. -/
def helpers : List Text := [
  "getPointer(gdEmscriptenObject): number;",
  "castObject<T>(gdEmscriptenObject, Class<T>): T;",
  "compare(gdEmscriptenObject, " ++ "gdEmscriptenObject): boolean;",
  "",
  lookup "getTypeOfObject" "searchInGroups: boolean" "string",
  lookup "getTypeOfBehavior" "searchInGroups: boolean" "string",
  lookup "getBehaviorsOfObject" "searchInGroups: boolean" "gdVectorString",
  lookup "isDefaultBehavior" "behaviorName: string, searchInGroups: boolean" "boolean",
  lookup "getTypeOfBehaviorInObjectOrGroup" "behaviorName: string, searchInGroups: boolean" "string",
  lookup "getBehaviorNamesInObjectOrGroup" "behaviorName: string, searchInGroups: boolean" "gdVectorString",
  "",
  "removeFromVectorParameterMetadata(" ++ "gdVectorParameterMetadata, " ++ "index: number): void;",
  "swapInVectorParameterMetadata(" ++ "gdVectorParameterMetadata, " ++ "oldIndex: number, "
    ++ "newIndex: number): void;",
  ""]

/-- Casts of the module. -/
def casts : List (List Cast) := [
  [
    ⟨"asStandardEvent", "gdBaseEvent", "gdStandardEvent"⟩,
    ⟨"asRepeatEvent", "gdBaseEvent", "gdRepeatEvent"⟩,
    ⟨"asWhileEvent", "gdBaseEvent", "gdWhileEvent"⟩,
    ⟨"asForEachEvent", "gdBaseEvent", "gdForEachEvent"⟩,
    ⟨"asForEachChildVariableEvent", "gdBaseEvent", "gdForEachChildVariableEvent"⟩,
    ⟨"asCommentEvent", "gdBaseEvent", "gdCommentEvent"⟩,
    ⟨"asGroupEvent", "gdBaseEvent", "gdGroupEvent"⟩,
    ⟨"asLinkEvent", "gdBaseEvent", "gdLinkEvent"⟩,
    ⟨"asJsCodeEvent", "gdBaseEvent", "gdJsCodeEvent"⟩,
    ⟨"asPlatform", "gdPlatform", "gdPlatform"⟩],
  [
    ⟨"asSpriteConfiguration", "gdObjectConfiguration", "gdSpriteObject"⟩,
    ⟨"asTiledSpriteConfiguration", "gdObjectConfiguration", "gdTiledSpriteObject"⟩,
    ⟨"asPanelSpriteConfiguration", "gdObjectConfiguration", "gdPanelSpriteObject"⟩,
    ⟨"asTextObjectConfiguration", "gdObjectConfiguration", "gdTextObject"⟩,
    ⟨"asShapePainterConfiguration", "gdObjectConfiguration", "gdShapePainterObject"⟩,
    ⟨"asAdMobConfiguration", "gdObjectConfiguration", "gdAdMobObject"⟩,
    ⟨"asTextEntryConfiguration", "gdObjectConfiguration", "gdTextEntryObject"⟩,
    ⟨"asParticleEmitterConfiguration", "gdObjectConfiguration", "gdParticleEmitterObject"⟩,
    ⟨"asObjectJsImplementation", "gdObjectConfiguration", "gdObjectJsImplementation"⟩,
    ⟨"asCustomObjectConfiguration", "gdObjectConfiguration", "gdCustomObjectConfiguration"⟩,
    ⟨"asModel3DConfiguration", "gdObjectConfiguration", "gdModel3DObjectConfiguration"⟩,
    ⟨"asSpineConfiguration", "gdObjectConfiguration", "gdSpineObjectConfiguration"⟩],
  [
    ⟨"asImageResource", "gdResource", "gdImageResource"⟩]]

/-! ## Classes -/

/-- The classes of events, which share one base. -/
def eventClasses : List Text := [
  "gdStandardEvent", "gdRepeatEvent", "gdWhileEvent", "gdForEachEvent", "gdCommentEvent",
  "gdGroupEvent", "gdLinkEvent", "gdJsCodeEvent"]

/-- Classes and their bases. -/
def edges : List (Text × Text) :=
  ([
    ("gdProject", "gdObjectsContainer"),
    ("gdLayout", "gdObjectsContainer"),
    ("gdEventsBasedObject", "gdObjectsContainer"),
    ("gdEventsFunctionsExtension", "gdEventsFunctionsContainer"),
    ("gdObjectJsImplementation", "gdObjectConfiguration"),
    ("gdCustomObjectConfiguration", "gdObjectConfiguration"),
    ("gdBehaviorJsImplementation", "gdBehavior"),
    ("gdBehaviorSharedDataJsImplementation", "gdBehaviorsSharedData"),
    ("gdJsPlatform", "gdPlatform"),
    ("gdExpressionValidator", "gdExpressionParser2NodeWorker"),
    ("gdHighestZOrderFinder", "gdInitialInstanceFunctor"),
    ("gdAbstractFileSystemJS", "gdAbstractFileSystem")] : List (Text × Text))
  ++ eventClasses.map fun event => (event, ("gdBaseEvent" : Text))

/-! ## All tables -/

/-- The tables of the bindings. -/
def standard : Tables where
  enums := enumerations
  moduleHelpers := helpers
  moduleCasts := casts
  serializerHelpers := [
    "static fromJSObject(object: Object): " ++ "gdSerializerElement;",
    "static toJSObject(" ++ "element: gdSerializerElement): any;"]
  containerHelpers := [
    ("gdVectorString", "toJSArray(): Array<string>;"),
    ("gdVectorInt", "toJSArray(): Array<number>;"),
    ("gdInstructionsList", "push_back(gdInstruction): void;")]
  inheritanceEdges := edges
  classRenames := [("gdExporter", "gdjsExporter")]
  resourceKinds := [
    "image", "audio", "font", "video", "json", "tilemap", "tileset", "model3D", "atlas", "spine"]
  metadataWithParameters := [
    "gdInstructionMetadata", "gdExpressionMetadata", "gdMultipleInstructionMetadata"]
  attributeAccessors := [⟨"gdVector2f", "x", "number"⟩, ⟨"gdVector2f", "y", "number"⟩]

end Tables

end FlowTypes.Catalog
