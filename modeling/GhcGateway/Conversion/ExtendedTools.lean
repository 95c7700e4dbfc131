/-
# The extended tools a request declares

`decodeResponsesExtendedToolProjection` turns the tools of a Responses request, and those
that a tool search of its input discovered, into functions for the upstream and into the
bindings between the two. A declaration that cannot be bound is left out.
`prepareResponsesExtendedTools` begins with it and takes the bindings of its ledger and the
functions from it.

`createHash("sha256")` of the bytes of a text, in hexadecimal digits, is a parameter.
-/

import GhcGateway.Conversion.ExtendedToolShared

namespace GhcGateway.Conversion

open Library

/-- The parameters of a custom tool's function. -/
def customInputSchema : WireJson :=
  .object (toolObject [
    ("type", .string (js "object")),
    ("properties", .object (toolObject [
      ("input", .object (toolObject [
        ("type", .string (js "string")),
        ("description", .string
          (js ("Raw string input for the original custom tool. Preserve formatting exactly and " ++
            "follow the original tool definition embedded in the description.")))]))])),
    ("required", .array [.string (js "input")])])

/-- The parameters of the tool search function. -/
def toolSearchSchema : WireJson :=
  .object (toolObject [
    ("type", .string (js "object")),
    ("properties", .object (toolObject [
      ("query", .object (toolObject [
        ("type", .string (js "string")),
        ("description", .string (js "Search query for tools or connectors to load."))])),
      ("limit", .object (toolObject [
        ("type", .string (js "integer")),
        ("description", .string (js "Maximum number of tool groups to return."))]))])),
    ("required", .array [.string (js "query")])])

def toolSearchDescription : JsString :=
  js "Search and load Codex tools, plugins, connectors, and MCP namespaces for the current task."

/-- The arguments of a custom tool's function that stand for its input, as a call of the
history is sent. -/
def customToolArguments (input : JsString) : Except WireJsonError JsString :=
  canonicalString (.object (toolObject [("input", .string input)]))

/-! ## Names -/

/-- `[A-Za-z0-9_-]`. -/
def isNameUnit (unit : UInt16) : Bool :=
  (0x41 ≤ unit && unit ≤ 0x5A) || (0x61 ≤ unit && unit ≤ 0x7A) || (0x30 ≤ unit && unit ≤ 0x39) ||
    unit = 0x5F || unit = 0x2D

def isValidChatName (name : JsString) : Bool :=
  decide (name ≠ []) && name.all isNameUnit && utf8ByteLength name ≤ 64

def toolName (value : WireJsonObject) (ruleId : String) : ToolDecoding JsString := do
  let name ← requiredString (single value "name") ruleId
  if name.trim = [] then invalidRequest ruleId else pure name.trim

/-- The characters that fit, one after the other, in that many bytes. -/
def fittingPrefix (maximum : Nat) : JsString → List Nat → JsString
  | fitting, [] => fitting
  | fitting, character :: rest =>
    if maximum < utf8ByteLength (fitting ++ codePointUnits character) then fitting
    else fittingPrefix maximum (fitting ++ codePointUnits character) rest

section Declarations

variable (sha256 : List UInt8 → JsString)

def projectedNamespaceName (sourceNamespace name : JsString) : JsString :=
  let full := sourceNamespace ++ js "__" ++ name
  if utf8ByteLength full ≤ 64 then full
  else
    let suffix := js "__" ++ (sha256 (encodeUtf8 full)).take 16
    fittingPrefix (64 - utf8ByteLength suffix) [] full.codePoints ++ suffix

def markOmittedDeclaration (tool : WireJsonObject) (sourceNamespace : Option JsString) :
    ToolDecoding PUnit :=
  let shape :=
    match single tool "function" with
    | some (.object members) => members
    | _ => tool
  match single shape "name" with
  | some (.string name) =>
    if name = [] then pure ⟨⟩
    else modify fun state =>
      { state with omittedSourceKeys :=
        state.omittedSourceKeys.insert (sourceKey sourceNamespace name) }
  | _ => pure ⟨⟩

def ExtendedToolState.bind (state : ExtendedToolState) (binding : ToolSourceBinding)
    (tool : WireJsonObject) : ExtendedToolState :=
  { state with
    bindings := state.bindings ++ [binding]
    bySourceKey := state.bySourceKey.set (sourceKey binding.sourceNamespace binding.sourceName)
      binding
    byChatName := state.byChatName.set binding.chatName binding
    tools := state.tools ++ [tool] }

def addBinding (binding : ToolSourceBinding) (tool source : WireJsonObject) :
    ToolDecoding Bool := do
  let state ← get
  if !isValidChatName binding.chatName ||
      state.bySourceKey.has (sourceKey binding.sourceNamespace binding.sourceName) ||
      state.byChatName.has binding.chatName then do
    refuse (containsReasoningCarrier (.object source) || containsReasoningCarrier (.object tool) ||
      isReasoningCarrier binding.chatName || isReasoningCarrier binding.sourceName ||
      binding.sourceNamespace.any isReasoningCarrier) "REQ-R-EXT-TOOL-COLLISION"
    degrade .responsesExtensionsOmitted
    pure false
  else do
    set (state.bind binding tool)
    pure true

/-! ## Declarations -/

/-- A declaration that is not known is left out. -/
def skipDeclaration (tool : WireJsonObject) (sourceNamespace : Option JsString) :
    ToolDecoding (Option WireJsonObject) := do
  refuse (containsReasoningCarrier (.object tool)) "REQ-R-EXT-TOOL-TYPE"
  markOmittedDeclaration tool sourceNamespace
  degrade .responsesExtensionsOmitted
  pure none

def normalizedParameters (value : WireJsonObject) : ToolDecoding WireJsonObject := do
  let types := memberValues value (js "type")
  if types = [.string (js "object")] then pure ⟨⟩
  else do
    refuse (types.any containsReasoningCarrier) "REQ-R-EXT-FUNCTION-SCHEMA-TYPE"
    degrade .requestOptionOmitted
  pure ((js "type", .string (js "object")) :: removeMember value "type")

/-- The members of a function that its nested shape hides. -/
def omitShadowed (tool : WireJsonObject) : List String → ToolDecoding PUnit
  | [] => pure ⟨⟩
  | key :: keys =>
    match single tool key with
    | none => omitShadowed tool keys
    | some shadowed => do
      refuse (containsReasoningCarrier shadowed) "REQ-R-EXT-FUNCTION-SHADOWED"
      degrade .responsesExtensionsOmitted
      omitShadowed tool keys

/-- Where the name and the parameters of a function stand, and its declaration with that. -/
def functionShape (tool : WireJsonObject) : ToolDecoding (WireJsonObject × WireJsonObject) :=
  match single tool "function" with
  | none => pure (tool, tool)
  | some nested => do
    let loose ← looseObject nested "REQ-R-EXT-FUNCTION-SHAPE"
    let shape ← projectExtended loose ["name", "description", "parameters", "strict"]
      "REQ-R-EXT-FUNCTION-SHAPE"
    omitShadowed tool (if (single shape "strict").isNone then ["name", "description", "parameters"]
      else ["name", "description", "parameters", "strict"])
    pure (shape, replaceMember tool "function" (.object shape))

/-- The parameters of a function; without any they are those of an empty object. -/
def functionParameters (given : Option WireJsonObject) : ToolDecoding WireJsonObject :=
  match given with
  | none => pure (toolObject [("type", .string (js "object")), ("properties", .object [])])
  | some given => normalizedParameters given

/-- The `strict` member of a function, from its shape or from around it. -/
def functionStrict (shape tool : WireJsonObject) : ToolDecoding (Option Bool) :=
  match (single shape "strict").or (single tool "strict") with
  | none => pure none
  | some (.bool strict) => pure (some strict)
  | some value => omitMalformedExtended Bool value "REQ-R-EXT-FUNCTION-STRICT"

def projectedFunction (chatName : JsString) (description : Option JsString)
    (parameters : WireJsonObject) (strict : Option Bool) : WireJsonObject :=
  wireObject [
    ("type", some (.string (js "function"))),
    ("name", some (.string chatName)),
    ("description", description.map .string),
    ("parameters", some (.object parameters)),
    ("strict", (strict.or (if isOpenaiStrictSchemaCompatible 33 true (.object parameters) then
      some true else none)).map .bool)]

def functionBinding (sourceNamespace : Option JsString) (sourceName : JsString) :
    ToolSourceBinding where
  kind := if sourceNamespace.isSome then .namespace else .function
  chatName :=
    match sourceNamespace with
    | none => sourceName
    | some sourceNamespace => projectedNamespaceName sha256 sourceNamespace sourceName
  sourceName := sourceName
  sourceNamespace := sourceNamespace

def addFunction (value : WireJsonObject) (sourceNamespace : Option JsString) :
    ToolDecoding (Option WireJsonObject) := do
  let tool ← projectExtended value
    ["type", "function", "name", "description", "parameters", "strict"] "REQ-R-EXT-FUNCTION"
  let (shape, source) ← functionShape tool
  let sourceName ← toolName shape "REQ-R-EXT-FUNCTION-NAME"
  let description ← optionalExtendedString (single shape "description")
    "REQ-R-EXT-FUNCTION-DESCRIPTION"
  let given ← optionalExtendedObject (single shape "parameters") "REQ-R-EXT-FUNCTION-SCHEMA"
  let parameters ← functionParameters given
  let strict ← functionStrict shape source
  let binding := functionBinding sha256 sourceNamespace sourceName
  let added ← addBinding binding
    (projectedFunction binding.chatName description parameters strict) source
  pure (if added then some source else none)

/-- The `format` member of a custom tool: only that of a text is kept. -/
def customFormat (tool : WireJsonObject) : ToolDecoding WireJsonObject :=
  match single tool "format" with
  | none => pure tool
  | some format => do
    let given ← optionalExtendedObject (some format) "REQ-R-EXT-CUSTOM-FORMAT"
    match given with
    | none => pure (removeMember tool "format")
    | some given => do
      let known ← projectExtended given ["type"] "REQ-R-EXT-CUSTOM-FORMAT"
      if single known "type" = some (.string (js "text")) then
        pure (replaceMember tool "format" (.object known))
      else do
        refuse (containsReasoningCarrier (.object known)) "REQ-R-EXT-CUSTOM-FORMAT-TYPE"
        degrade .requestOptionOmitted
        pure (removeMember tool "format")

def customDefinition (tool : WireJsonObject) : ToolDecoding JsString :=
  match canonicalString (.object tool) with
  | .ok text => pure text
  | .error error => throw (.wireJson error)

def addCustom (value : WireJsonObject) : ToolDecoding (Option WireJsonObject) := do
  let tool ← projectExtended value ["type", "name", "description", "format"] "REQ-R-EXT-CUSTOM"
  let name ← toolName tool "REQ-R-EXT-CUSTOM-NAME"
  let _ ← optionalExtendedString (single tool "description") "REQ-R-EXT-CUSTOM-DESCRIPTION"
  let source ← customFormat tool
  let definition ← customDefinition source
  let added ← addBinding ⟨.custom, name, name, none⟩
    (toolObject [
      ("type", .string (js "function")),
      ("name", .string name),
      ("description", .string (js "Original tool definition:\n```json\n" ++ definition ++
        js "\n```")),
      ("parameters", customInputSchema),
      ("strict", .bool false)])
    source
  pure (if added then some source else none)

def addToolSearch (value : WireJsonObject) : ToolDecoding (Option WireJsonObject) := do
  let tool ← projectExtended value ["type"] "REQ-R-EXT-SEARCH"
  let added ← addBinding ⟨.toolSearch, js "tool_search", js "tool_search", none⟩
    (toolObject [
      ("type", .string (js "function")),
      ("name", .string (js "tool_search")),
      ("description", .string toolSearchDescription),
      ("parameters", toolSearchSchema),
      ("strict", .bool false)])
    tool
  pure (if added then some tool else none)

/-- The declaration of an object by its type. -/
def declareTool (addNamespace : WireJsonObject → ToolDecoding (Option WireJsonObject))
    (tool : WireJsonObject) (sourceNamespace : Option JsString) :
    ToolDecoding (Option WireJsonObject) :=
  match single tool "type" with
  | some (.string type) =>
    if type = js "function" then addFunction sha256 tool sourceNamespace
    else if sourceNamespace.isSome then skipDeclaration tool sourceNamespace
    else if type = js "custom" then addCustom tool
    else if type = js "namespace" then addNamespace tool
    else if type = js "tool_search" then addToolSearch tool
    else skipDeclaration tool sourceNamespace
  | _ => skipDeclaration tool sourceNamespace

/-- A declaration that is invalid is left out. -/
def recoverDeclaration (tool : WireJsonObject) (sourceNamespace : Option JsString)
    (error : ExtendedToolError) : ToolDecoding (Option WireJsonObject) :=
  match error with
  | .contract _ =>
    if containsReasoningCarrier (.object tool) then throw error
    else do
      markOmittedDeclaration tool sourceNamespace
      degrade .responsesExtensionsOmitted
      pure none
  | .wireJson _ => throw error

/-- `addDeclaration`, given how a namespace is added. -/
def addDeclarationWith (addNamespace : WireJsonObject → ToolDecoding (Option WireJsonObject))
    (value : WireJson) (sourceNamespace : Option JsString) : ToolDecoding (Option WireJsonObject) :=
  match value with
  | .object tool =>
    tryCatch (declareTool sha256 addNamespace tool sourceNamespace)
      (recoverDeclaration tool sourceNamespace)
  | _ => do
    refuse (containsReasoningCarrier value) "REQ-R-EXT-TOOL"
    degrade .responsesExtensionsOmitted
    pure none

/-- `addDeclaration` of a tool within a namespace, where no namespace is added. -/
def addChildDeclaration (sourceNamespace : JsString) (value : WireJson) :
    ToolDecoding (Option WireJsonObject) :=
  addDeclarationWith sha256 (fun _ => pure none) value (some sourceNamespace)

/-- A namespace without tools is left out. -/
def skipNamespace (tool : WireJsonObject) : ToolDecoding (Option WireJsonObject) := do
  refuse (containsReasoningCarrier (.object tool)) "REQ-R-EXT-NAMESPACE-CHILDREN"
  degrade .responsesExtensionsOmitted
  pure none

/-- The member that holds the tools of a namespace, if it is one of the two. -/
def namespaceChildren (tool : WireJsonObject) : Option (String × WireJson) :=
  match single tool "tools", single tool "children" with
  | some values, none => some ("tools", values)
  | none, some values => some ("children", values)
  | _, _ => none

/-- The description of a namespace is left out. -/
def omitDescription (description : Option JsString) : ToolDecoding PUnit :=
  match description with
  | none => pure ⟨⟩
  | some description => do
    refuse (isReasoningCarrier description) "REQ-R-EXT-NAMESPACE-DESCRIPTION"
    degrade .responsesExtensionsOmitted

def addNamespace (value : WireJsonObject) : ToolDecoding (Option WireJsonObject) := do
  let tool ← projectExtended value ["type", "name", "description", "tools", "children"]
    "REQ-R-EXT-NAMESPACE"
  let sourceNamespace ← toolName tool "REQ-R-EXT-NAMESPACE-NAME"
  let description ← optionalExtendedString (single tool "description")
    "REQ-R-EXT-NAMESPACE-DESCRIPTION"
  omitDescription description
  match namespaceChildren tool with
  | some (key, .array (child :: children)) => do
    let declarations ← (child :: children).mapM (addChildDeclaration sha256 sourceNamespace)
    match declarations.filterMap id with
    | [] => skipNamespace tool
    | first :: rest =>
      pure (some (replaceMember tool key (.array ((first :: rest).map .object))))
  | _ => skipNamespace tool

/-- `addDeclaration` of a tool outside of any namespace. -/
def addDeclaration (value : WireJson) : ToolDecoding (Option WireJsonObject) :=
  addDeclarationWith sha256 (addNamespace sha256) value none

/-! ## The request -/

def inputItems : Option WireJson → List WireJson
  | some (.array items) => items
  | some item => [item]
  | none => []

/-- An item of the input of which the plain decoder knows nothing. -/
def isExtendedItem : WireJson → Bool
  | .object item =>
    let type := single item "type"
    type = some (.string (js "custom_tool_call")) ||
      type = some (.string (js "custom_tool_call_output")) ||
      type = some (.string (js "tool_search_call")) ||
      type = some (.string (js "tool_search_output")) ||
      (type = some (.string (js "function_call")) && (single item "namespace").isSome)
  | _ => false

def hasExtendedSemantics (tools input : Option WireJson) : Bool :=
  (match tools with
    | some (.array tools) => tools.any fun tool =>
      match tool with
      | .object tool => single tool "type" ≠ some (.string (js "function"))
      | _ => true
    | _ => false) ||
    (inputItems input).any isExtendedItem

/-- `collectDiscoveredDeclarations`, of the items from a place on. -/
def collectDiscoveredDeclarations : Nat → List WireJson → ToolDecoding PUnit
  | _, [] => pure ⟨⟩
  | index, .object item :: items =>
    if single item "type" ≠ some (.string (js "tool_search_output")) then
      collectDiscoveredDeclarations (index + 1) items
    else do
      let projected ← projectExtended item ["type", "id", "call_id", "output", "status", "tools"]
        "REQ-R-EXT-SEARCH-OUTPUT"
      let tools ← requiredArray (single projected "tools") "REQ-R-EXT-SEARCH-OUTPUT-TOOLS"
      let declarations ← tools.mapM (addDeclaration sha256)
      modify fun state =>
        { state with discoveredTools := state.discoveredTools ++
          [(index, (declarations.filterMap id).map .object)] }
      collectDiscoveredDeclarations (index + 1) items
  | index, _ :: items => collectDiscoveredDeclarations (index + 1) items

/-- Whether the function may have a `strict` member. -/
def mayBeStrict (binding : Option ToolSourceBinding) : Bool :=
  match binding with
  | some binding => binding.kind ≠ .custom && binding.kind ≠ .toolSearch
  | none => true

/-- The function of `projectValidatedChatTools` for one tool. -/
def projectChatTool (tool : WireJsonObject) : ToolDecoding WireJsonObject := do
  let state ← get
  let name ← requiredString (single tool "name") "REQ-R-EXT-INTERNAL-NAME"
  pure (wireObject [
    ("type", some (.string (js "function"))),
    ("function", some (.object (wireObject [
      ("name", some (.string name)),
      ("description", some ((single tool "description").getD .null)),
      ("parameters", single tool "parameters"),
      ("strict", if mayBeStrict (state.byChatName.get name) then single tool "strict" else
        none)])))])

def projectValidatedChatTools : ToolDecoding (List WireJsonObject) := do
  let state ← get
  state.tools.mapM projectChatTool

def omitChoice (carries : Bool) (ruleId : String) : ToolDecoding (Option WireJson) := do
  refuse carries ruleId
  degrade .requestOptionOmitted
  pure none

/-- Whether a choice of that type may mean the binding. -/
def matchesChoice (type : JsString) (kind : ToolSourceKind) : Bool :=
  match kind with
  | .custom => type = js "custom"
  | .toolSearch => type = js "tool_search"
  | .function | .namespace => type = js "function"

def chooseTool (type name : JsString) (sourceNamespace : Option JsString) :
    ToolDecoding (Option WireJson) := do
  let state ← get
  match state.bySourceKey.get (sourceKey sourceNamespace name) with
  | some binding =>
    if matchesChoice type binding.kind then
      pure (some (.object (toolObject [
        ("type", .string (js "function")), ("name", .string binding.chatName)])))
    else
      omitChoice (isReasoningCarrier name || sourceNamespace.any isReasoningCarrier)
        "REQ-R-EXT-MISSING-BINDING"
  | none =>
    omitChoice
      (!state.omittedSourceKeys.contains (sourceKey sourceNamespace name) &&
        (isReasoningCarrier name || sourceNamespace.any isReasoningCarrier))
      "REQ-R-EXT-MISSING-BINDING"

/-- `transformToolChoice` of an object. -/
def transformNamedChoice (rawChoice : WireJsonObject) : ToolDecoding (Option WireJson) := do
  let choice ← projectExtended rawChoice ["type", "name", "namespace"] "REQ-R-EXT-CHOICE"
  let type ← optionalExtendedString (single choice "type") "REQ-R-EXT-CHOICE-TYPE"
  match type with
  | none => pure none
  | some type =>
    if type ≠ js "function" ∧ type ≠ js "custom" ∧ type ≠ js "tool_search" then
      omitChoice (containsReasoningCarrier (.object choice)) "REQ-R-EXT-CHOICE-TYPE"
    else do
      let name ← optionalExtendedString (single choice "name") "REQ-R-EXT-CHOICE-NAME"
      match name with
      | none => pure none
      | some name => do
        let sourceNamespace ← optionalExtendedString (single choice "namespace")
          "REQ-R-EXT-CHOICE-NS"
        if (single choice "namespace").isSome ∧ sourceNamespace = none then pure none
        else chooseTool type name sourceNamespace

def transformToolChoice (value : Option WireJson) : ToolDecoding (Option WireJson) :=
  match value with
  | none => pure none
  | some (.string choice) =>
    if choice = js "auto" ∨ choice = js "none" ∨ choice = js "required" then
      pure (some (.string choice))
    else omitChoice (isReasoningCarrier choice) "REQ-R-EXT-CHOICE-TYPE"
  | some value => do
    let rawChoice ← optionalExtendedObject (some value) "REQ-R-EXT-CHOICE"
    match rawChoice with
    | none => pure none
    | some rawChoice => transformNamedChoice rawChoice

/-- `DecodedResponsesExtendedToolProjection`, without its state. -/
structure ExtendedToolProjection where
  inputValue : Option WireJson
  transformedChoice : Option WireJson
  chatTools : List WireJsonObject
  bindings : List ToolSourceBinding

/-- `decodeResponsesExtendedToolProjection`, from `ExtendedToolState.initial`. -/
def decodeResponsesExtendedToolProjection (body : WireJsonObject) :
    ToolDecoding (Option ExtendedToolProjection) :=
  let toolsValue := single body "tools"
  let inputValue := single body "input"
  if !hasExtendedSemantics toolsValue inputValue then pure none
  else do
    let tools ← requiredArray toolsValue "REQ-R-EXT-TOOLS"
    let _ ← tools.mapM (addDeclaration sha256)
    collectDiscoveredDeclarations sha256 0 (inputItems inputValue)
    let chatTools ← projectValidatedChatTools
    let state ← get
    let transformedChoice ← transformToolChoice (single body "tool_choice")
    pure (some ⟨inputValue, transformedChoice, chatTools, state.bindings⟩)

end Declarations

end GhcGateway.Conversion
