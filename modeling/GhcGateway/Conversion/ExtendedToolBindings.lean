/-
# The bindings of extended tools

The names that the upstream knows and the tools that the request declares are bound one to
one, and a call of a bound name is restored to the tool it is bound to. The names of a
declaration are trimmed when it is bound, so what is restored are the trimmed names.
-/

import GhcGateway.Conversion.ExtendedTools
import GhcGateway.Library.Attempt
import GhcGateway.Serialization.JsonSerializer
import GhcGateway.Serialization.TextCodec

namespace GhcGateway.Conversion

open Library

variable {binding : ToolSourceBinding} {table : OrderedMap JsString ToolSourceBinding}
  {value : WireJsonObject} {bindings : List ToolSourceBinding} {state : ExtendedToolState}
  {α : Type}

/-! ## What a request declares -/

/-- A declared tool, with the names as they stand in the request. -/
structure DeclaredTool where
  kind : ToolSourceKind
  sourceNamespace : Option JsString
  name : JsString

/-- The name of a function stands in its nested shape, if it has one. -/
def functionName (tool : WireJsonObject) : Option WireJson :=
  match single tool "function" with
  | none => single tool "name"
  | some (.object shape) => single shape "name"
  | some _ => none

def declaredNames : Option WireJson → List JsString
  | some (.string name) => [name]
  | _ => []

def declaredFunctions (kind : ToolSourceKind) (sourceNamespace : Option JsString) :
    WireJson → List DeclaredTool
  | .object tool =>
    if single tool "type" = some (.string (js "function")) then
      (declaredNames (functionName tool)).map fun name => ⟨kind, sourceNamespace, name⟩
    else []
  | _ => []

def namespaceItems (tool : WireJsonObject) : List WireJson :=
  match namespaceChildren tool with
  | some (_, .array items) => items
  | _ => []

/-- The tools that a value declares: a namespace declares those in it. -/
def declaredTools : WireJson → List DeclaredTool
  | .object tool =>
    match single tool "type" with
    | some (.string type) =>
      if type = js "function" then declaredFunctions .function none (.object tool)
      else if type = js "custom" then
        (declaredNames (single tool "name")).map fun name => ⟨.custom, none, name⟩
      else if type = js "namespace" then
        (declaredNames (single tool "name")).flatMap fun sourceNamespace =>
          (namespaceItems tool).flatMap (declaredFunctions .namespace (some sourceNamespace))
      else if type = js "tool_search" then [⟨.toolSearch, none, js "tool_search"⟩]
      else []
    | _ => []
  | _ => []

def discoveredTools : WireJson → List WireJson
  | .object item =>
    if single item "type" = some (.string (js "tool_search_output")) then
      ((single item "tools").bind WireJson.array?).getD []
    else []
  | _ => []

/-- The tools of a request, and those that the tool searches of its input found. -/
def requestTools (body : WireJsonObject) : List WireJson :=
  ((single body "tools").bind WireJson.array?).getD [] ++
    (inputItems (single body "input")).flatMap discoveredTools

def DeclaredTool.Bound (declared : DeclaredTool) (binding : ToolSourceBinding) : Prop :=
  binding.kind = declared.kind ∧ binding.sourceName = declared.name.trim ∧
    binding.sourceNamespace = declared.sourceNamespace.map JsString.trim

/-! ## The bindings -/

/-- What holds of the bindings at any time. -/
structure WellBound (allowed : ToolSourceBinding → Prop) (state : ExtendedToolState) : Prop where
  valid : ∀ binding ∈ state.bindings, isValidChatName binding.chatName = true
  chatNames : (state.bindings.map ToolSourceBinding.chatName).Nodup
  sourceKeys : (state.bindings.map fun binding =>
    sourceKey binding.sourceNamespace binding.sourceName).Nodup
  hasChatName : ∀ binding ∈ state.bindings, state.byChatName.has binding.chatName = true
  hasSourceKey : ∀ binding ∈ state.bindings,
    state.bySourceKey.has (sourceKey binding.sourceNamespace binding.sourceName) = true
  declared : ∀ binding ∈ state.bindings, allowed binding
  named : state.tools.map (single · "name") =
    state.bindings.map fun binding => some (.string binding.chatName)

variable {allowed : ToolSourceBinding → Prop}

theorem WellBound.initial (degradations : List ConversionDegradationRule) :
    WellBound allowed (.initial degradations) where
  valid _ member := nomatch member
  chatNames := List.nodup_nil
  sourceKeys := List.nodup_nil
  hasChatName _ member := nomatch member
  hasSourceKey _ member := nomatch member
  declared _ member := nomatch member
  named := rfl

/-- What a table has not got is new among what it has. -/
theorem nodup_map_concat {name : ToolSourceBinding → JsString} (nodup : (bindings.map name).Nodup)
    (has : ∀ binding ∈ bindings, table.has (name binding) = true)
    (new : table.has (name binding) = false) : ((bindings ++ [binding]).map name).Nodup := by
  rw [List.map_append, List.map_singleton]
  refine List.Nodup.append nodup (List.nodup_singleton _) fun key isOld isNew => ?_
  obtain ⟨other, member, rfl⟩ := List.mem_map.mp isOld
  have isOld := has other member
  rw [List.mem_singleton.mp isNew, new] at isOld
  cases isOld

theorem has_set {key other : JsString} (has : table.has other = true ∨ other = key) :
    (table.set key binding).has other = true := by
  rw [OrderedMap.has, OrderedMap.get_set]
  split
  · rfl
  case isFalse apart => exact has.resolve_right fun same => apart same.symm

/-- A new name for a new source. -/
theorem WellBound.bind (wellBound : WellBound allowed state) (isAllowed : allowed binding)
    (valid : isValidChatName binding.chatName = true) (newSource : state.bySourceKey.has
      (sourceKey binding.sourceNamespace binding.sourceName) = false)
    (newName : state.byChatName.has binding.chatName = false) {tool : WireJsonObject}
    (isNamed : single tool "name" = some (.string binding.chatName)) :
    WellBound allowed (state.bind binding tool) := by
  have every {holds : ToolSourceBinding → Prop} (old : ∀ other ∈ state.bindings, holds other)
      (new : holds binding) : ∀ other ∈ (state.bind binding tool).bindings, holds other := by
    intro other member
    rcases List.mem_append.mp member with isOld | isNew
    · exact old other isOld
    · rw [List.mem_singleton.mp isNew]
      exact new
  exact {
    valid := every wellBound.valid valid
    chatNames := nodup_map_concat wellBound.chatNames wellBound.hasChatName newName
    sourceKeys := nodup_map_concat wellBound.sourceKeys wellBound.hasSourceKey newSource
    hasChatName := every (fun other member => has_set (.inl (wellBound.hasChatName other member)))
      (has_set (.inr rfl))
    hasSourceKey := every (fun other member => has_set (.inl (wellBound.hasSourceKey other member)))
      (has_set (.inr rfl))
    declared := every wellBound.declared isAllowed
    named := by
      show (state.tools ++ [tool]).map _ = (state.bindings ++ [binding]).map _
      rw [List.map_append, List.map_append, wellBound.named, List.map_singleton, isNamed]
      rfl }

/-! ## Readers that bind nothing -/

/-- The bindings stay what they are. -/
theorem WellBound.of_same {next : ExtendedToolState} (wellBound : WellBound allowed state)
    (bindings : next.bindings = state.bindings) (bySourceKey : next.bySourceKey = state.bySourceKey)
    (byChatName : next.byChatName = state.byChatName) (tools : next.tools = state.tools) :
    WellBound allowed next := by
  obtain ⟨valid, chatNames, sourceKeys, hasChatName, hasSourceKey, declared, named⟩ := wellBound
  constructor
  all_goals rw [bindings]
  all_goals first | rw [bySourceKey] | rw [byChatName] | rw [tools] | skip
  all_goals assumption

/-- The decoder keeps the bindings well bound. -/
abbrev Binds {α : Type} (allowed : ToolSourceBinding → Prop) (decoding : ToolDecoding α)
    (post : α → Prop) : Prop := Keeps (WellBound allowed) decoding post

theorem binds_invalidRequest {ruleId : String} {post : α → Prop} :
    Binds allowed (invalidRequest ruleId) post := Keeps.throw

theorem binds_refuse (carries : Bool) (ruleId : String) :
    Binds allowed (refuse carries ruleId) fun _ => True := by
  unfold refuse
  apply Keeps.ite
  · exact fun _ => binds_invalidRequest
  · exact fun _ => Keeps.pure trivial

theorem binds_degrade (rule : ConversionDegradationRule) :
    Binds allowed (degrade rule) fun _ => True :=
  Keeps.modify fun _ wellBound => wellBound.of_same rfl rfl rfl rfl

/-- What is left out is refused or recorded. -/
theorem binds_leaveOut (carries : Bool) (ruleId : String) (rule : ConversionDegradationRule)
    {after : ToolDecoding α} {post : α → Prop} (binds : Binds allowed after post) :
    Binds allowed (do
      refuse carries ruleId
      degrade rule
      after) post := by
  refine (binds_refuse carries ruleId).bind fun _ _ => ?_
  exact (binds_degrade rule).bind fun _ _ => binds

theorem binds_projectMembers (known : List String) (ruleId : String) (value : WireJsonObject) :
    ∀ seen : List JsString, Binds allowed (projectMembers known ruleId seen value) fun result =>
      ∀ key ∈ known, js key ∉ seen → single result.1 key = single value key := by
  induction value with
  | nil => exact fun seen => Keeps.pure fun _ _ _ => rfl
  | cons member rest ih =>
    intro seen
    unfold projectMembers
    split
    case isTrue isKnown =>
      split
      case isTrue isSeen =>
        refine (binds_refuse _ _).bind fun _ _ => (ih seen).mono fun result same key mem fresh => ?_
        rw [same key mem fresh, single, single, memberValues, memberValues, List.filter_cons_of_neg]
        intro isKey
        rw [decide_eq_true_eq] at isKey
        exact fresh (isKey ▸ isSeen)
      case isFalse isNew =>
        refine (ih (member.1 :: seen)).bind fun result same => Keeps.pure fun key mem fresh => ?_
        by_cases isKey : member.1 = js key
        · rw [single, single, memberValues, memberValues, List.filter_cons_of_pos,
            List.filter_cons_of_pos]
          · rfl
          · exact decide_eq_true isKey
          · exact decide_eq_true isKey
        · have still : js key ∉ member.1 :: seen := by
            rw [List.mem_cons, not_or]
            exact ⟨fun same => isKey same.symm, fresh⟩
          have same := same key mem still
          rw [single, memberValues, single, memberValues] at same
          rw [single, single, memberValues, memberValues, List.filter_cons_of_neg,
            List.filter_cons_of_neg]
          · exact same
          · rw [decide_eq_true_eq]
            exact isKey
          · rw [decide_eq_true_eq]
            exact isKey
    case isFalse isUnknown =>
      refine (binds_refuse _ _).bind fun _ _ => (ih seen).bind fun result same =>
        Keeps.pure fun key mem fresh => ?_
      show single result.1 key = _
      rw [same key mem fresh, single, single, memberValues, memberValues, List.filter_cons_of_neg]
      intro isKey
      rw [decide_eq_true_eq] at isKey
      exact isUnknown (isKey ▸ List.mem_map_of_mem mem)

theorem binds_projectExtended (value : WireJsonObject) (known : List String) (ruleId : String) :
    Binds allowed (projectExtended value known ruleId) fun result =>
      ∀ key ∈ known, single result key = single value key := by
  unfold projectExtended
  refine (binds_projectMembers known ruleId value []).bind fun result same => ?_
  have same : ∀ key ∈ known, single result.1 key = single value key :=
    fun key mem => same key mem List.not_mem_nil
  dsimp only
  apply Keeps.ite
  · exact fun _ => (binds_degrade _).bind fun _ _ => Keeps.pure same
  · exact fun _ => Keeps.pure same

theorem binds_requiredArray (value : Option WireJson) (ruleId : String) :
    Binds allowed (requiredArray value ruleId) fun items => value = some (.array items) := by
  unfold requiredArray
  split
  · exact Keeps.pure rfl
  · exact binds_invalidRequest

theorem binds_requiredString {invariant : ExtendedToolState → Prop} (value : Option WireJson)
    (ruleId : String) : Keeps invariant (requiredString value ruleId) fun text =>
      value = some (.string text) := by
  unfold requiredString
  split
  · apply Keeps.ite
    · exact fun _ => Keeps.throw
    · exact fun _ => Keeps.pure rfl
  · exact Keeps.throw

theorem binds_looseObject (value : WireJson) (ruleId : String) :
    Binds allowed (looseObject value ruleId) fun members => value = .object members := by
  unfold looseObject
  split
  · exact Keeps.pure rfl
  · exact binds_invalidRequest

theorem binds_omitMalformed (value : WireJson) (ruleId : String) :
    Binds allowed (omitMalformedExtended α value ruleId) fun _ => True :=
  binds_leaveOut _ _ _ (Keeps.pure trivial)

theorem binds_optionalString (value : Option WireJson) (ruleId : String) :
    Binds allowed (optionalExtendedString value ruleId) fun _ => True := by
  unfold optionalExtendedString
  split
  · exact Keeps.pure trivial
  · apply Keeps.ite
    · exact fun _ => binds_omitMalformed _ _
    · exact fun _ => Keeps.pure trivial
  · exact binds_omitMalformed _ _

theorem binds_optionalObject (value : Option WireJson) (ruleId : String) :
    Binds allowed (optionalExtendedObject value ruleId) fun _ => True := by
  unfold optionalExtendedObject
  split
  · exact Keeps.pure trivial
  · exact Keeps.pure trivial
  · exact binds_omitMalformed _ _

theorem binds_toolName (value : WireJsonObject) (ruleId : String) :
    Binds allowed (toolName value ruleId) fun text =>
      ∃ name, single value "name" = some (.string name) ∧ text = name.trim := by
  unfold toolName
  refine (binds_requiredString _ _).bind fun name named => ?_
  apply Keeps.ite
  · exact fun _ => binds_invalidRequest
  · exact fun _ => Keeps.pure ⟨name, named, rfl⟩

theorem binds_markOmitted (tool : WireJsonObject) (sourceNamespace : Option JsString) :
    Binds allowed (markOmittedDeclaration tool sourceNamespace) fun _ => True := by
  unfold markOmittedDeclaration
  dsimp only
  split
  · apply Keeps.ite
    · exact fun _ => Keeps.pure trivial
    · exact fun _ => Keeps.modify fun _ wellBound => wellBound.of_same rfl rfl rfl rfl
  · exact Keeps.pure trivial

theorem binds_normalizedParameters (value : WireJsonObject) :
    Binds allowed (normalizedParameters value) fun _ => True := by
  unfold normalizedParameters
  dsimp only
  split
  · exact Keeps.pure trivial
  · exact binds_leaveOut _ _ _ (Keeps.pure trivial)

theorem binds_functionParameters (given : Option WireJsonObject) :
    Binds allowed (functionParameters given) fun _ => True := by
  unfold functionParameters
  split
  · exact Keeps.pure trivial
  · exact binds_normalizedParameters _

theorem binds_omitShadowed (tool : WireJsonObject) (keys : List String) :
    Binds allowed (omitShadowed tool keys) fun _ => True := by
  induction keys with
  | nil => exact Keeps.pure trivial
  | cons key keys ih =>
    unfold omitShadowed
    split
    · exact ih
    · exact binds_leaveOut _ _ _ ih

/-- The name stands in the shape. -/
theorem binds_functionShape (tool : WireJsonObject) :
    Binds allowed (functionShape tool) fun result =>
      single result.1 "name" = functionName tool := by
  unfold functionShape
  split
  case h_1 found =>
    apply Keeps.pure
    rw [functionName, found]
  case h_2 nested found =>
    refine (binds_looseObject _ _).bind fun loose isLoose => ?_
    refine (binds_projectExtended _ _ _).bind fun shape same => ?_
    refine (binds_omitShadowed _ _).bind fun _ _ => Keeps.pure ?_
    rw [functionName, found, isLoose]
    exact same "name" (by decide)

theorem binds_functionStrict (shape tool : WireJsonObject) :
    Binds allowed (functionStrict shape tool) fun _ => True := by
  unfold functionStrict
  split
  · exact Keeps.pure trivial
  · exact Keeps.pure trivial
  · exact binds_omitMalformed _ _

theorem binds_customFormat (tool : WireJsonObject) :
    Binds allowed (customFormat tool) fun _ => True := by
  unfold customFormat
  split
  · exact Keeps.pure trivial
  refine (binds_optionalObject _ _).bind fun given _ => ?_
  split
  · exact Keeps.pure trivial
  refine (binds_projectExtended _ _ _).bind fun known _ => ?_
  apply Keeps.ite
  · exact fun _ => Keeps.pure trivial
  · exact fun _ => binds_leaveOut _ _ _ (Keeps.pure trivial)

theorem binds_customDefinition (tool : WireJsonObject) :
    Binds allowed (customDefinition tool) fun _ => True := by
  unfold customDefinition
  split
  · exact Keeps.pure trivial
  · exact Keeps.throw

theorem binds_skipDeclaration (tool : WireJsonObject) (sourceNamespace : Option JsString) :
    Binds allowed (skipDeclaration tool sourceNamespace) fun _ => True := by
  unfold skipDeclaration
  refine (binds_refuse _ _).bind fun _ _ => ?_
  refine (binds_markOmitted _ _).bind fun _ _ => ?_
  exact (binds_degrade _).bind fun _ _ => Keeps.pure trivial

theorem binds_recover (tool : WireJsonObject) (sourceNamespace : Option JsString)
    (error : ExtendedToolError) :
    Binds allowed (recoverDeclaration tool sourceNamespace error) fun _ => True := by
  unfold recoverDeclaration
  split
  · apply Keeps.ite
    · exact fun _ => Keeps.throw
    · intro _
      refine (binds_markOmitted _ _).bind fun _ _ => ?_
      exact (binds_degrade _).bind fun _ _ => Keeps.pure trivial
  · exact Keeps.throw

theorem binds_omitDescription (description : Option JsString) :
    Binds allowed (omitDescription description) fun _ => True := by
  unfold omitDescription
  split
  · exact Keeps.pure trivial
  · exact (binds_refuse _ _).bind fun _ _ => binds_degrade _

theorem binds_skipNamespace (tool : WireJsonObject) :
    Binds allowed (skipNamespace tool) fun _ => True :=
  binds_leaveOut _ _ _ (Keeps.pure trivial)

/-! ## Declarations -/

theorem single_self (key : String) (value : WireJson) (rest : WireJsonObject) :
    single ((js key, value) :: rest) key = some value := by
  rw [single, memberValues, List.filter_cons_of_pos (by simp)]
  rfl

theorem single_of_ne {other key : String} (apart : js other ≠ js key) (value : WireJson)
    (rest : WireJsonObject) : single ((js other, value) :: rest) key = single rest key := by
  rw [single, memberValues, List.filter_cons_of_neg (by simpa using apart)]
  rfl

/-- A binding is added only if its name and its source are new and its name is valid. -/
theorem binds_addBinding (isAllowed : allowed binding) {tool : WireJsonObject}
    (isNamed : single tool "name" = some (.string binding.chatName)) (source : WireJsonObject) :
    Binds allowed (addBinding binding tool source) fun _ => True := by
  unfold addBinding
  refine Keeps.bind (Keeps.get fun state wellBound => wellBound) fun state wellBound => ?_
  apply Keeps.ite
  · exact fun _ => binds_leaveOut _ _ _ (Keeps.pure trivial)
  · intro bindable
    simp only [Bool.or_eq_true, not_or, Bool.not_eq_true, Bool.not_eq_false'] at bindable
    obtain ⟨⟨valid, newSource⟩, newName⟩ := bindable
    exact (Keeps.set (wellBound.bind isAllowed valid newSource newName isNamed)).bind
      fun _ _ => Keeps.pure trivial

variable {sha256 : List UInt8 → JsString}

theorem binds_addFunction {sourceNamespace : Option JsString}
    (isAllowed : ∀ name, functionName value = some (.string name) →
      allowed (functionBinding sha256 sourceNamespace name.trim)) :
    Binds allowed (addFunction sha256 value sourceNamespace) fun _ => True := by
  unfold addFunction
  refine (binds_projectExtended _ _ _).bind fun tool same => ?_
  refine (binds_functionShape tool).bind fun result named => ?_
  refine (binds_toolName _ _).bind fun sourceName isName => ?_
  obtain ⟨name, isName, rfl⟩ := isName
  have isFunction : functionName value = some (.string name) := by
    rw [← isName, named, functionName, functionName, same "function" (by decide),
      same "name" (by decide)]
  refine (binds_optionalString _ _).bind fun description _ => ?_
  refine (binds_optionalObject _ _).bind fun given _ => ?_
  refine (binds_functionParameters _).bind fun parameters _ => ?_
  refine (binds_functionStrict _ _).bind fun strict _ => ?_
  refine (binds_addBinding (isAllowed name isFunction) ?_ _).bind fun added _ => Keeps.pure trivial
  exact (single_of_ne (by decide) _ _).trans (single_self "name" _ _)

theorem binds_addCustom (isAllowed : ∀ name, single value "name" = some (.string name) →
      allowed ⟨.custom, name.trim, name.trim, none⟩) :
    Binds allowed (addCustom value) fun _ => True := by
  unfold addCustom
  refine (binds_projectExtended _ _ _).bind fun tool same => ?_
  refine (binds_toolName _ _).bind fun text isName => ?_
  obtain ⟨name, isName, rfl⟩ := isName
  rw [same "name" (by decide)] at isName
  refine (binds_optionalString _ _).bind fun description _ => ?_
  refine (binds_customFormat _).bind fun source _ => ?_
  refine (binds_customDefinition _).bind fun definition _ => ?_
  refine (binds_addBinding (isAllowed name isName) ?_ _).bind fun added _ => Keeps.pure trivial
  exact (single_of_ne (by decide) _ _).trans (single_self "name" _ _)

theorem binds_addToolSearch (value : WireJsonObject)
    (isAllowed : allowed ⟨.toolSearch, js "tool_search", js "tool_search", none⟩) :
    Binds allowed (addToolSearch value) fun _ => True := by
  unfold addToolSearch
  refine (binds_projectExtended _ _ _).bind fun tool _ => ?_
  exact (binds_addBinding isAllowed rfl _).bind fun added _ => Keeps.pure trivial

/-- Within a namespace. -/
theorem binds_addChild {value : WireJson} {sourceNamespace : JsString}
    (isAllowed : ∀ declared ∈ declaredFunctions .namespace (some sourceNamespace) value,
      ∀ binding, declared.Bound binding → allowed binding) :
    Binds allowed (addChildDeclaration sha256 sourceNamespace.trim value) fun _ => True := by
  unfold addChildDeclaration addDeclarationWith
  split
  case h_2 => exact binds_leaveOut _ _ _ (Keeps.pure trivial)
  case h_1 tool =>
    apply Keeps.tryCatch
    case handled => exact binds_recover _ _
    unfold declareTool
    split
    case h_2 => exact binds_skipDeclaration _ _
    case h_1 type isType =>
      split
      case isTrue isFunction =>
        subst isFunction
        refine binds_addFunction fun name named =>
          isAllowed ⟨.namespace, some sourceNamespace, name⟩ ?_
          _ ⟨rfl, rfl, rfl⟩
        rw [declaredFunctions, if_pos isType, named]
        exact List.mem_singleton_self _
      case isFalse => exact binds_skipDeclaration _ _

theorem binds_addNamespace
    (isAllowed : ∀ sourceNamespace, single value "name" = some (.string sourceNamespace) →
      ∀ child ∈ namespaceItems value,
        ∀ declared ∈ declaredFunctions .namespace (some sourceNamespace) child,
          ∀ binding, declared.Bound binding → allowed binding) :
    Binds allowed (addNamespace sha256 value) fun _ => True := by
  unfold addNamespace
  refine (binds_projectExtended _ _ _).bind fun tool same => ?_
  refine (binds_toolName _ _).bind fun text isName => ?_
  obtain ⟨sourceNamespace, isName, rfl⟩ := isName
  rw [same "name" (by decide)] at isName
  refine (binds_optionalString _ _).bind fun description _ => ?_
  refine (binds_omitDescription _).bind fun _ _ => ?_
  split
  case h_2 => exact binds_skipNamespace _
  case h_1 key child children found =>
    have items : namespaceItems value = child :: children := by
      rw [namespaceChildren, same "tools" (by decide), same "children" (by decide)] at found
      rw [namespaceItems, namespaceChildren, found]
    refine (Keeps.mapM fun other member => binds_addChild ?_).bind fun declarations _ => ?_
    · exact isAllowed sourceNamespace isName other (items ▸ member)
    split
    · exact binds_skipNamespace _
    · exact Keeps.pure trivial

theorem binds_addDeclaration {value : WireJson}
    (isAllowed : ∀ declared ∈ declaredTools value, ∀ binding, declared.Bound binding →
      allowed binding) : Binds allowed (addDeclaration sha256 value) fun _ => True := by
  unfold addDeclaration addDeclarationWith
  split
  case h_2 => exact binds_leaveOut _ _ _ (Keeps.pure trivial)
  case h_1 tool =>
    apply Keeps.tryCatch
    case handled => exact binds_recover _ _
    unfold declareTool
    split
    case h_2 => exact binds_skipDeclaration _ _
    case h_1 type isType =>
      simp only [declaredTools, isType] at isAllowed
      split
      case isTrue isFunction =>
        rw [if_pos isFunction] at isAllowed
        subst isFunction
        refine binds_addFunction fun name named => isAllowed ⟨.function, none, name⟩ ?_ _
          ⟨rfl, rfl, rfl⟩
        rw [declaredFunctions, if_pos isType, named]
        exact List.mem_singleton_self _
      case isFalse notFunction =>
      rw [if_neg notFunction] at isAllowed
      rw [if_neg (by rintro ⟨⟩)]
      split
      case isTrue isCustom =>
        rw [if_pos isCustom] at isAllowed
        refine binds_addCustom fun name named => isAllowed ⟨.custom, none, name⟩ ?_ _
          ⟨rfl, rfl, rfl⟩
        rw [named]
        exact List.mem_singleton_self _
      case isFalse notCustom =>
      rw [if_neg notCustom] at isAllowed
      split
      case isTrue isNamespace =>
        rw [if_pos isNamespace] at isAllowed
        refine binds_addNamespace fun sourceNamespace named child member declared isDeclared =>
          isAllowed declared ?_
        rw [named]
        exact List.mem_flatMap.mpr ⟨sourceNamespace, List.mem_singleton_self _,
          List.mem_flatMap.mpr ⟨child, member, isDeclared⟩⟩
      case isFalse notNamespace =>
      rw [if_neg notNamespace] at isAllowed
      split
      case isTrue isSearch =>
        rw [if_pos isSearch] at isAllowed
        exact binds_addToolSearch _
          (isAllowed _ (List.mem_singleton_self _) _ ⟨rfl, by decide, rfl⟩)
      case isFalse => exact binds_skipDeclaration _ _

/-! ## The request -/

theorem binds_collectDiscovered {items : List WireJson}
    (isAllowed : ∀ item ∈ items, ∀ tool ∈ discoveredTools item, ∀ declared ∈ declaredTools tool,
      ∀ binding, declared.Bound binding → allowed binding) :
    ∀ index, Binds allowed (collectDiscoveredDeclarations sha256 index items) fun _ => True := by
  induction items with
  | nil => exact fun _ => Keeps.pure trivial
  | cons item items ih =>
    intro index
    have rest := ih (fun other member => isAllowed other (List.mem_cons_of_mem item member))
      (index + 1)
    have first := isAllowed item List.mem_cons_self
    unfold collectDiscoveredDeclarations
    split
    case h_1 none => cases none
    case h_3 same =>
      obtain ⟨-, rfl⟩ := List.cons.inj same
      exact rest
    case h_2 tool others same =>
      obtain ⟨rfl, rfl⟩ := List.cons.inj same
      apply Keeps.ite
      · exact fun _ => rest
      intro isSearch
      rw [not_not] at isSearch
      refine (binds_projectExtended _ _ _).bind fun projected same => ?_
      refine (binds_requiredArray _ _).bind fun tools isTools => ?_
      rw [same "tools" (by decide)] at isTools
      refine (Keeps.mapM fun other member => binds_addDeclaration ?_).bind fun declarations _ => ?_
      · refine first other ?_
        rw [discoveredTools, if_pos isSearch, isTools]
        exact member
      refine (Keeps.modify ?_).bind fun _ _ => rest
      exact fun _ wellBound => wellBound.of_same rfl rfl rfl rfl

/-- The name of the function that is offered to the upstream. -/
def chatToolName (chatTool : WireJsonObject) : Option WireJson :=
  match single chatTool "function" with
  | some (.object function) => single function "name"
  | _ => none

theorem keeps_projectChatTool {invariant : ExtendedToolState → Prop} (tool : WireJsonObject) :
    Keeps invariant (projectChatTool tool) fun chatTool =>
      chatToolName chatTool = single tool "name" := by
  unfold projectChatTool
  refine Keeps.bind (Keeps.get fun state kept => kept) fun state _ => ?_
  refine (binds_requiredString _ _).bind fun name isName => Keeps.pure ?_
  rw [isName]
  have nested (shape : WireJsonObject) : single (wireObject
      [("type", some (.string (js "function"))), ("function", some (.object shape))]) "function" =
        some (.object shape) := (single_of_ne (by decide) _ _).trans (single_self "function" _ _)
  rw [chatToolName, nested]
  exact single_self "name" _ _

/-- The tools offered to the upstream bear the names that are bound. -/
theorem keeps_projectChatTools (wellBound : WellBound allowed state) :
    Keeps (· = state) projectValidatedChatTools fun chatTools =>
      chatTools.map chatToolName =
        state.bindings.map fun binding => some (.string binding.chatName) := by
  unfold projectValidatedChatTools
  refine Keeps.bind (Keeps.get fun _ same => same) ?_
  rintro _ rfl
  exact (Keeps.mapM_map fun tool _ => keeps_projectChatTool tool).mono fun chatTools names =>
    names.trans wellBound.named

theorem binds_omitChoice (carries : Bool) (ruleId : String) :
    Binds allowed (omitChoice carries ruleId) fun _ => True :=
  binds_leaveOut _ _ _ (Keeps.pure trivial)

theorem binds_chooseTool (type name : JsString) (sourceNamespace : Option JsString) :
    Binds allowed (chooseTool type name sourceNamespace) fun _ => True := by
  unfold chooseTool
  refine Keeps.bind (Keeps.get fun state wellBound => wellBound) fun state _ => ?_
  split
  · apply Keeps.ite
    · exact fun _ => Keeps.pure trivial
    · exact fun _ => binds_omitChoice _ _
  · exact binds_omitChoice _ _

theorem binds_transformNamedChoice (rawChoice : WireJsonObject) :
    Binds allowed (transformNamedChoice rawChoice) fun _ => True := by
  unfold transformNamedChoice
  refine (binds_projectExtended _ _ _).bind fun choice _ => ?_
  refine (binds_optionalString _ _).bind fun type _ => ?_
  split
  · exact Keeps.pure trivial
  apply Keeps.ite
  · exact fun _ => binds_omitChoice _ _
  intro _
  refine (binds_optionalString _ _).bind fun name _ => ?_
  split
  · exact Keeps.pure trivial
  refine (binds_optionalString _ _).bind fun sourceNamespace _ => ?_
  apply Keeps.ite
  · exact fun _ => Keeps.pure trivial
  · exact fun _ => binds_chooseTool _ _ _

theorem binds_transformToolChoice (value : Option WireJson) :
    Binds allowed (transformToolChoice value) fun _ => True := by
  unfold transformToolChoice
  split
  · exact Keeps.pure trivial
  · apply Keeps.ite
    · exact fun _ => Keeps.pure trivial
    · exact fun _ => binds_omitChoice _ _
  · refine (binds_optionalObject _ _).bind fun rawChoice _ => ?_
    split
    · exact Keeps.pure trivial
    · exact binds_transformNamedChoice _

/-- The bindings of a request are well bound, each to a tool that the request declares. -/
theorem binds_decode (body : WireJsonObject) :
    Binds (fun binding => ∃ tool ∈ requestTools body, ∃ declared ∈ declaredTools tool,
        declared.Bound binding)
      (decodeResponsesExtendedToolProjection sha256 body) fun result =>
        ∀ projection, result = some projection → ∃ state, WellBound
          (fun binding => ∃ tool ∈ requestTools body, ∃ declared ∈ declaredTools tool,
            declared.Bound binding) state ∧ projection.bindings = state.bindings ∧
          projection.chatTools.map chatToolName =
            state.bindings.map fun binding => some (.string binding.chatName) := by
  unfold decodeResponsesExtendedToolProjection
  dsimp only
  apply Keeps.ite
  · exact fun _ => Keeps.pure fun _ none => nomatch none
  intro _
  refine (binds_requiredArray _ _).bind fun tools isTools => ?_
  refine (Keeps.mapM fun tool member => binds_addDeclaration ?_).bind fun _ _ => ?_
  · intro declared isDeclared binding bound
    refine ⟨tool, List.mem_append_left _ ?_, declared, isDeclared, bound⟩
    rw [isTools]
    exact member
  refine (binds_collectDiscovered ?_ _).bind fun _ _ => ?_
  · intro item member tool isTool declared isDeclared binding bound
    exact ⟨tool, List.mem_append_right _ (List.mem_flatMap.mpr ⟨item, member, isTool⟩), declared,
      isDeclared, bound⟩
  refine Keeps.bind_get (fun state wellBound => keeps_projectChatTools wellBound)
    fun state chatTools wellBound names => ?_
  refine (binds_transformToolChoice _).bind fun choice _ => Keeps.pure fun projection same => ?_
  obtain rfl := Option.some.inj same
  exact ⟨state, wellBound, rfl, names⟩

/-! ## Restoring calls -/

/-- The arguments that stand for the input of a custom tool are an object with it. -/
theorem customToolArguments_spec (input : JsString) :
    ∃ text : List Char, customToolArguments input = .ok (textUnits ('\x7b' :: text)) ∧
      parseUpstreamArguments (textUnits ('\x7b' :: text)) = some [(js "input", .string input)] := by
  obtain ⟨text, written, spelled⟩ := writeMembers_spec [(js "input", .string input)]
    ⟨trivial, trivial⟩ (by simp)
  have bytes : serializeWireJson (.object [(js "input", .string input)]) =
      .ok (JsonGrammar.encode ('\x7b' :: (text ++ ['\x7d']))) := by
    rw [serializeWireJson, writeValue, written, JsonGrammar.encode_cons, JsonGrammar.encode_append]
    rfl
  refine ⟨text ++ ['\x7d'], ?_, ?_⟩
  · show (serializeWireJson (.object [(js "input", .string input)])).map decodeText = _
    rw [bytes, Except.map, decodeText_encode]
  · have parsed : parseWireJson (JsonGrammar.encode ('\x7b' :: (text ++ ['\x7d'])))
        ⟨max 1 (JsonGrammar.encode ('\x7b' :: (text ++ ['\x7d']))).length, 32⟩ =
          .ok (.object [(js "input", .string input)]) := by
      obtain ⟨written, same, reads⟩ := parseWireJson_serializeWireJson
        (.object [(js "input", .string input)]) ⟨trivial, trivial⟩
        ⟨max 1 (JsonGrammar.encode ('\x7b' :: (text ++ ['\x7d']))).length, 32⟩
      obtain rfl := Except.ok.inj (bytes.symm.trans same)
      have nested : (WireJson.object [(js "input", .string input)]).nesting = 1 := rfl
      apply reads
      · rw [nested]
        exact Nat.le_add_left 1 31
      · exact Nat.le_max_right _ _
    rw [parseUpstreamArguments, encodeUtf8_textUnits, parsed]
    exact if_pos (List.nodup_singleton _)

/-- The input of a custom tool is restored, however its object is spelled. -/
theorem restoreArguments_of_parsed {policy : ToolRestorationPolicy}
    (custom : policy.sourceKind = .custom) {input argumentsJson : JsString}
    (solid : ¬ argumentsJson.all isTrimmed = true)
    (parsed : parseUpstreamArguments argumentsJson = some [(js "input", .string input)]) :
    policy.restoreArguments argumentsJson = ⟨some input, none, false⟩ := by
  unfold ToolRestorationPolicy.restoreArguments
  rw [custom]
  dsimp only
  rw [if_neg solid, parsed]
  rfl

/-- The input of a custom tool is restored, whatever it is. -/
theorem restoreArguments_customToolArguments {policy : ToolRestorationPolicy}
    (custom : policy.sourceKind = .custom) (input : JsString) :
    ∃ argumentsJson, customToolArguments input = .ok argumentsJson ∧
      policy.restoreArguments argumentsJson = ⟨some input, none, false⟩ := by
  obtain ⟨text, written, parsed⟩ := customToolArguments_spec input
  refine ⟨_, written, ?_⟩
  have solid : ¬ (textUnits ('\x7b' :: text)).all isTrimmed = true := by
    rw [textUnits, List.flatMap_cons]
    show ¬ ((0x7B : UInt16) :: _).all isTrimmed = true
    rw [List.all_cons, Bool.and_eq_true]
    exact fun both => absurd both.1 (by decide)
  exact restoreArguments_of_parsed custom solid parsed

/-- A name that is bound once is restored to what it is bound to. -/
theorem resolve_of_mem (nodup : (bindings.map ToolSourceBinding.chatName).Nodup)
    (member : binding ∈ bindings) :
    resolveToolRestorationPolicy (some bindings) binding.chatName =
      .ok ⟨binding.kind, binding.sourceName, binding.sourceNamespace, true⟩ := by
  have one : bindings.filter (fun other => other.chatName = binding.chatName) = [binding] := by
    induction bindings with
    | nil => cases member
    | cons first rest ih =>
      rw [List.map_cons, List.nodup_cons] at nodup
      rcases List.mem_cons.mp member with rfl | later
      · rw [List.filter_cons_of_pos (by simp), List.filter_eq_nil_iff.mpr]
        intro other isOther
        rw [decide_eq_true_eq]
        intro same
        exact nodup.1 (same ▸ List.mem_map_of_mem isOther)
      · have apart : ¬ first.chatName = binding.chatName := fun same =>
          nodup.1 (same ▸ List.mem_map_of_mem later)
        rw [List.filter_cons_of_neg (by simpa using apart)]
        exact ih nodup.2 later
  unfold resolveToolRestorationPolicy
  rw [Option.getD_some, one]
  rfl

/-- Whatever tools a request declares: the chat names of the bindings are distinct, and so
are the pairs of a namespace and a name; every chat name is valid, of at most 64 bytes; a
binding is that of a tool that is declared, with the names trimmed, and a call of its chat
name is restored to its namespace, name and kind, where the input of a custom tool comes
back as it was, however the upstream spells the object it stands in. The tools offered to
the upstream bear the chat names that are bound. -/
theorem bindings_of_decode {body : WireJsonObject}
    {degradations : List ConversionDegradationRule} {projection : ExtendedToolProjection}
    {final : ExtendedToolState}
    (accepted : decodeResponsesExtendedToolProjection sha256 body (.initial degradations) =
      .ok (some projection) final) :
    (projection.bindings.map ToolSourceBinding.chatName).Nodup ∧
      (projection.bindings.map fun binding =>
        (binding.sourceNamespace, binding.sourceName)).Nodup ∧
      projection.chatTools.map chatToolName =
        projection.bindings.map (fun binding => some (.string binding.chatName)) ∧
        ∀ binding ∈ projection.bindings,
          (binding.chatName ≠ [] ∧ (∀ unit ∈ binding.chatName, isNameUnit unit = true) ∧
            utf8ByteLength binding.chatName ≤ 64) ∧
          (∃ tool ∈ requestTools body, ∃ declared ∈ declaredTools tool, declared.Bound binding) ∧
          ∃ policy, resolveToolRestorationPolicy (some projection.bindings) binding.chatName =
              .ok policy ∧ policy.sourceKind = binding.kind ∧
            policy.sourceName = binding.sourceName ∧
            policy.sourceNamespace = binding.sourceNamespace ∧
            (binding.kind = .custom → ∀ input, (∃ argumentsJson,
              customToolArguments input = .ok argumentsJson ∧
                policy.restoreArguments argumentsJson = ⟨some input, none, false⟩) ∧
              ∀ argumentsJson : JsString, ¬ argumentsJson.all isTrimmed = true →
                parseUpstreamArguments argumentsJson = some [(js "input", .string input)] →
                policy.restoreArguments argumentsJson = ⟨some input, none, false⟩) := by
  obtain ⟨found, -⟩ := (binds_decode body).of_ok (.initial degradations) accepted
  obtain ⟨state, wellBound, same, names⟩ := found projection rfl
  rw [same]
  refine ⟨wellBound.chatNames, ?_, names, fun binding member =>
    ⟨?_, wellBound.declared binding member, ?_⟩⟩
  · have keys := wellBound.sourceKeys
    have composed : (fun binding : ToolSourceBinding =>
        sourceKey binding.sourceNamespace binding.sourceName) =
          (fun pair : Option JsString × JsString => sourceKey pair.1 pair.2) ∘
            fun binding => (binding.sourceNamespace, binding.sourceName) := rfl
    rw [composed, ← List.map_map] at keys
    exact keys.of_map _
  · have valid := wellBound.valid binding member
    simp only [isValidChatName, Bool.and_eq_true, decide_eq_true_eq, List.all_eq_true] at valid
    exact ⟨valid.1.1, valid.1.2, valid.2⟩
  · refine ⟨_, resolve_of_mem wellBound.chatNames member, rfl, rfl, rfl, fun custom input => ?_⟩
    exact ⟨restoreArguments_customToolArguments custom input, fun _ solid parsed =>
      restoreArguments_of_parsed custom solid parsed⟩

/-! ## Two requests -/

def declaration (type name : String) (more : List (String × WireJson)) : WireJson :=
  .object (toolObject ([("type", .string (js type)), ("name", .string (js name))] ++ more))

def toolRequest (tools : List WireJson) : WireJsonObject := toolObject [("tools", .array tools)]

/-- The bindings of a request, where every digest is the same. -/
def requestBindings (tools : List WireJson) : List ToolSourceBinding :=
  match decodeResponsesExtendedToolProjection (fun _ => js "0123456789abcdef0123")
      (toolRequest tools) (.initial []) with
  | .ok (some projection) _ => projection.bindings
  | _ => []

theorem accepted_of_requestBindings {tools : List WireJson}
    (bound : requestBindings tools = bindings) (some_ : bindings ≠ []) :
    ∃ projection final, decodeResponsesExtendedToolProjection (fun _ => js "0123456789abcdef0123")
        (toolRequest tools) (.initial []) = .ok (some projection) final ∧
      projection.bindings = bindings := by
  unfold requestBindings at bound
  split at bound
  case h_1 projection final accepted => exact ⟨projection, final, accepted, bound⟩
  case h_2 => exact absurd bound.symm some_

/-- A custom tool, a function of the same name and a function whose name is too long together
with its namespace: the custom tool and the shortened name are bound and offered, and the
input of the custom tool is restored. -/
theorem bindings_of_customTool :
    let long : ToolSourceBinding := ⟨.namespace,
      js "workspace_of_the_current_project__read_every_f__0123456789abcdef",
      js "read_every_file_of_the_directory_tree", some (js "workspace_of_the_current_project")⟩
    let tools : List WireJson :=
      [declaration "custom" "apply_patch" [], declaration "function" "apply_patch" [],
        declaration "namespace" "workspace_of_the_current_project"
          [("tools", .array [declaration "function" "read_every_file_of_the_directory_tree" []])]]
    ∃ projection final, decodeResponsesExtendedToolProjection (fun _ => js "0123456789abcdef0123")
        (toolRequest tools) (.initial []) = .ok (some projection) final ∧
      projection.chatTools.map chatToolName =
        [some (.string (js "apply_patch")), some (.string long.chatName)] ∧
      (∃ policy, resolveToolRestorationPolicy (some projection.bindings) long.chatName =
          .ok policy ∧ policy.sourceName = long.sourceName ∧
        policy.sourceNamespace = long.sourceNamespace) ∧
      ∃ policy, resolveToolRestorationPolicy (some projection.bindings) (js "apply_patch") =
          .ok policy ∧ policy.sourceKind = .custom ∧
        ∀ input, ∃ argumentsJson, customToolArguments input = .ok argumentsJson ∧
          policy.restoreArguments argumentsJson = ⟨some input, none, false⟩ := by
  intro long tools
  let custom : ToolSourceBinding := ⟨.custom, js "apply_patch", js "apply_patch", none⟩
  have bound : requestBindings tools = [custom, long] := by
    set_option maxRecDepth 20000 in decide +kernel
  obtain ⟨projection, final, accepted, same⟩ :=
    accepted_of_requestBindings bound (List.cons_ne_nil _ _)
  have isCustom : custom ∈ projection.bindings := same ▸ List.mem_cons_self
  have isLong : long ∈ projection.bindings := same ▸ List.mem_cons_of_mem _ List.mem_cons_self
  obtain ⟨-, -, names, restored⟩ := bindings_of_decode accepted
  obtain ⟨-, -, policy, resolved, kind, -, -, restores⟩ := restored custom isCustom
  obtain ⟨-, -, other, resolvedLong, -, name, sourceNamespace, -⟩ := restored long isLong
  rw [same] at names
  exact ⟨projection, final, accepted, names, ⟨other, resolvedLong, name, sourceNamespace⟩, policy,
    resolved, kind, fun input => (restores rfl input).1⟩

/-- A name with a blank before it is not restored as it was declared. -/
theorem not_restored_untrimmed :
    ¬ ∀ (sha256 : List UInt8 → JsString) (body : WireJsonObject)
      (degradations : List ConversionDegradationRule) (projection : ExtendedToolProjection)
      (final : ExtendedToolState),
      decodeResponsesExtendedToolProjection sha256 body (.initial degradations) =
        .ok (some projection) final →
      ∀ binding ∈ projection.bindings, ∃ tool ∈ requestTools body,
        ∃ declared ∈ declaredTools tool, ∃ policy,
          resolveToolRestorationPolicy (some projection.bindings) binding.chatName = .ok policy ∧
            policy.sourceKind = declared.kind ∧ policy.sourceName = declared.name ∧
            policy.sourceNamespace = declared.sourceNamespace := by
  intro restored
  obtain ⟨projection, final, accepted, same⟩ := accepted_of_requestBindings
    (show requestBindings [declaration "custom" " apply_patch" []] =
      [⟨.custom, js "apply_patch", js "apply_patch", none⟩] by
        set_option maxRecDepth 20000 in decide) (List.cons_ne_nil _ _)
  obtain ⟨tool, isTool, declared, isDeclared, policy, resolved, -, name, -⟩ :=
    restored _ _ _ projection final accepted _ (same ▸ List.mem_singleton_self _)
  have names : ∀ tool ∈ requestTools (toolRequest [declaration "custom" " apply_patch" []]),
      ∀ declared ∈ declaredTools tool, declared.name = js " apply_patch" := by
    set_option maxRecDepth 20000 in decide
  rw [same] at resolved
  obtain rfl := Except.ok.inj resolved
  rw [names tool isTool declared isDeclared] at name
  exact absurd name (by decide)

end GhcGateway.Conversion
