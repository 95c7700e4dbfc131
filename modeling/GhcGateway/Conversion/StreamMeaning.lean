/-
# What the events of a stream say

The events of a decoder say strings piece by piece: the content of a kind under a
key, the arguments of a tool call, the text of a reasoning part. A delta says some
more of a string and a snapshot says all of it. `said` is what a list of events has
said, and `called` are the tool calls it has started, without any of the limits,
checks and states of the ledger.

The ledger of a conversion that is accepted holds exactly this, whatever the target
protocol and its emitter are.
-/

import GhcGateway.Conversion.LedgerContent
import GhcGateway.Conversion.MessagesEmitter
import GhcGateway.Conversion.StreamRun

namespace GhcGateway.Conversion

open Library

/-- A string that events say. -/
inductive Slot
  | content (kind : ContentKind) (key : StreamKey)
  | arguments (key : StreamKey)
  | reasoning (partKey : StreamKey)
  deriving DecidableEq

/-- How an event goes on with a string. -/
inductive Saying
  | more (delta : JsString)
  | all (text : JsString)

def Saying.after (so : JsString) : Saying → JsString
  | .more delta => so ++ delta
  | .all text => text

/-- The string an event is about, and how it goes on. -/
def SemanticStreamEvent.saying : SemanticStreamEvent → Option (Slot × Saying)
  | .contentDelta kind key _ delta => some (.content kind key, .more delta)
  | .contentSnapshot kind key _ text => some (.content kind key, .all text)
  | .toolArgumentsDelta key delta => some (.arguments key, .more delta)
  | .toolDone key (some argumentsJson) _ => some (.arguments key, .all argumentsJson)
  | .reasoningDelta address delta => some (.reasoning address.partKey, .more delta)
  | .reasoningSnapshot address text => some (.reasoning address.partKey, .all text)
  | _ => none

def sayOne (slot : Slot) (so : JsString) (event : SemanticStreamEvent) : JsString :=
  match event.saying with
  | some (about, saying) => if about = slot then saying.after so else so
  | none => so

def said (events : List SemanticStreamEvent) (slot : Slot) : JsString :=
  events.foldl (sayOne slot) []

theorem said_append_one (events : List SemanticStreamEvent) (event : SemanticStreamEvent)
    (slot : Slot) : said (events ++ [event]) slot = sayOne slot (said events slot) event := by
  rw [said, List.foldl_append]
  rfl

/-- The id and the name an event starts a tool call with. -/
def SemanticStreamEvent.calls (key : StreamKey) :
    SemanticStreamEvent → Option (JsString × JsString)
  | .toolStart other _ callId name => if other = key then some (callId, name) else none
  | _ => none

/-- The tool call that some events have started under a key. -/
def called (events : List SemanticStreamEvent) (key : StreamKey) :
    Option (JsString × JsString) :=
  events.findSome? fun event => event.calls key

theorem called_append_one (events : List SemanticStreamEvent) (event : SemanticStreamEvent)
    (key : StreamKey) : called (events ++ [event]) key =
      (called events key).or (event.calls key) := by
  rw [called, List.findSome?_append, List.findSome?_cons, List.findSome?_nil]
  cases event.calls key <;> rfl

variable {delta : JsString} {slot : Slot} {saying : Saying}

namespace SemanticItemLedger

/-- The id and the name of a tool call. -/
def callOf (ledger : SemanticItemLedger) (key : StreamKey) : Option (JsString × JsString) :=
  (ledger.tools.get key).map fun tool => (tool.callId, tool.name)

def held (ledger : SemanticItemLedger) : Slot → JsString
  | .content kind key => ledger.contentValue kind key
  | .arguments key => ((ledger.tools.get key).map ToolState.argumentsJson).getD []
  | .reasoning partKey => ledger.reasoningValue partKey

variable {ledger next : SemanticItemLedger}

/-- An operation goes on with one string. -/
structure Tells (slot : Slot) (saying : Saying) (ledger next : SemanticItemLedger) : Prop where
  sound : next.ContentSound
  held : ∀ other, next.held other =
    if slot = other then saying.after (ledger.held other) else ledger.held other
  calls : ∀ key, next.callOf key = ledger.callOf key

/-- An operation that says nothing. -/
structure Keeps (ledger next : SemanticItemLedger) : Prop where
  sound : next.ContentSound
  held : ∀ slot, next.held slot = ledger.held slot
  calls : ∀ key, next.callOf key = ledger.callOf key

theorem Keeps.refl (sound : ledger.ContentSound) : Keeps ledger ledger :=
  ⟨sound, fun _ => rfl, fun _ => rfl⟩

variable {second first third : SemanticItemLedger}

theorem Keeps.trans (one : Keeps first second) (two : Keeps second third) : Keeps first third :=
  ⟨two.sound, fun slot => (two.held slot).trans (one.held slot),
    fun key => (two.calls key).trans (one.calls key)⟩

/-- Nothing and then something. -/
theorem Keeps.tells (one : Keeps first second) (two : Tells slot saying second third) :
    Tells slot saying first third :=
  ⟨two.sound, fun other => by rw [two.held, one.held],
    fun key => (two.calls key).trans (one.calls key)⟩

/-- What a tool call says: its id, its name and its arguments. -/
def spoken (tool : ToolState) : JsString × JsString × JsString :=
  (tool.callId, tool.name, tool.argumentsJson)

theorem contentKept_keeps (content : ContentKept ledger next)
    (tools : ∀ key, (next.tools.get key).map spoken = (ledger.tools.get key).map spoken)
    (reasoning : ∀ partKey, next.reasoningValue partKey = ledger.reasoningValue partKey) :
    Keeps ledger next := by
  refine ⟨content.sound, fun slot => ?_, fun key => ?_⟩
  · cases slot with
    | content kind key => exact content.value kind key
    | arguments key =>
      have same := congrArg (Option.map fun call => call.2.2) (tools key)
      rw [Option.map_map, Option.map_map] at same
      exact congrArg (Option.getD · []) same
    | reasoning partKey => exact reasoning partKey
  · have same := congrArg (Option.map fun call => (call.1, call.2.1)) (tools key)
    rw [Option.map_map, Option.map_map] at same
    exact same

theorem reasoningValue_eq (ledger : SemanticItemLedger) (partKey : StreamKey) :
    ledger.reasoningValue partKey =
      ((ledger.reasoningParts.get partKey).map ReasoningPartState.text).getD [] := by
  rw [reasoningValue]
  cases ledger.reasoningParts.get partKey <;> rfl

theorem reasoningValue_congr (same : next.reasoningParts = ledger.reasoningParts)
    (partKey : StreamKey) : next.reasoningValue partKey = ledger.reasoningValue partKey := by
  rw [reasoningValue, reasoningValue, same]

theorem ContentKept.keepsMessage (content : ContentKept ledger next)
    (step : MessageStep ledger next) : Keeps ledger next :=
  contentKept_keeps content (fun key => by rw [step.tools])
    (reasoningValue_congr step.reasoningParts)

/-! ## Content -/

variable {key : StreamKey} {kind : ContentKind}

theorem ContentChange.tells (change : ContentChange kind key delta ledger next) :
    Tells (.content kind key) (.more delta) ledger next := by
  refine ⟨change.sound, fun other => ?_, fun other => by rw [callOf, change.frame.tools]; rfl⟩
  cases other with
  | content otherKind otherKey =>
    show next.contentValue otherKind otherKey = _
    rw [change.value]
    by_cases same : key = otherKey ∧ kind = otherKind
    · obtain ⟨rfl, rfl⟩ := same
      rw [if_pos ⟨rfl, rfl⟩, if_pos rfl]
      rfl
    · rw [if_neg same, if_neg, List.append_nil]
      · rfl
      · rintro ⟨⟩
        exact same ⟨rfl, rfl⟩
  | arguments otherKey =>
    rw [if_neg (by rintro ⟨⟩), held, change.frame.tools]
    rfl
  | reasoning partKey =>
    rw [if_neg (by rintro ⟨⟩)]
    exact reasoningValue_congr change.frame.reasoningParts partKey

/-- Observing content says nothing. -/
theorem ContentChange.keeps (change : ContentChange kind key [] ledger next) :
    Keeps ledger next := by
  refine ⟨change.sound, fun slot => ?_, change.tells.calls⟩
  rw [change.tells.held]
  split
  · exact List.append_nil _
  · rfl

/-! ## Tool calls -/

theorem ToolChange.keeps (change : ToolChange ledger next)
    (tools : ∀ key, (next.tools.get key).map spoken = (ledger.tools.get key).map spoken) :
    Keeps ledger next :=
  contentKept_keeps change.content tools (reasoningValue_congr change.step.reasoningParts)

theorem ToolChange.tells (change : ToolChange ledger next) (saying : Saying)
    {tool changed : ToolState} (there : ledger.tools.get key = some tool)
    (tools : next.tools = ledger.tools.set key changed)
    (said : spoken changed = (tool.callId, tool.name, saying.after tool.argumentsJson)) :
    Tells (.arguments key) saying ledger next := by
  rw [spoken, Prod.mk.injEq, Prod.mk.injEq] at said
  obtain ⟨callId, name, said⟩ := said
  refine ⟨change.content.sound, fun other => ?_, fun other => ?_⟩
  swap
  · rw [callOf, callOf, tools, OrderedMap.get_set]
    split
    · next same =>
      rw [← same, there, Option.map_some, Option.map_some, callId, name]
    · rfl
  cases other with
  | content kind otherKey =>
    rw [if_neg (by rintro ⟨⟩)]
    exact change.content.value kind otherKey
  | arguments otherKey =>
    rw [held, tools, OrderedMap.get_set]
    by_cases same : key = otherKey
    · subst same
      rw [if_pos rfl, if_pos rfl, held, there]
      exact said
    · rw [if_neg same, if_neg (by rintro ⟨⟩; exact same rfl)]
      rfl
  | reasoning partKey =>
    rw [if_neg (by rintro ⟨⟩)]
    exact reasoningValue_congr change.step.reasoningParts partKey

/-! ## Reasoning -/

theorem ReasoningStep.keeps (step : ReasoningStep ledger next) (sound : ledger.ContentSound)
    (values : ∀ partKey, next.reasoningValue partKey = ledger.reasoningValue partKey) :
    Keeps ledger next :=
  contentKept_keeps (step.content sound) (fun key => by rw [step.tools]) values

theorem keeps_startReasoning (sound : ledger.ContentSound) (key : StreamKey)
    (itemId : Option JsString) (messagesState : Option MessagesReasoningState)
    (opaqueState : Option OpaqueReasoningState) :
    Ensures (ledger.startReasoning key itemId messagesState opaqueState) (Keeps ledger) := by
  refine ((reasoningChange_startReasoning sound key itemId messagesState opaqueState).and
    (ensures_startReasoning key itemId messagesState opaqueState)).mono ?_
  rintro next ⟨⟨step, -, -, -⟩, ⟨used, rfl⟩, -⟩
  exact step.keeps sound (reasoningValue_congr rfl)

theorem tells_appendReasoning (sound : ledger.ContentSound) (address : ReasoningPartAddress)
    (grows : delta ≠ []) :
    Ensures (ledger.appendReasoning address delta)
      (Tells (.reasoning address.partKey) (.more delta) ledger) := by
  refine ((reasoningChange_appendReasoning sound address grows).and
    (ensures_appendReasoning address delta)).mono ?_
  rintro next ⟨⟨step, content, -, -⟩, ⟨used, rfl⟩, -⟩
  refine ⟨content.sound, fun other => ?_, fun _ => rfl⟩
  cases other with
  | content kind key =>
    rw [if_neg (by rintro ⟨⟩)]
    exact content.value kind key
  | arguments key =>
    rw [if_neg (by rintro ⟨⟩)]
    rfl
  | reasoning partKey =>
    rw [held, reasoningValue_eq]
    show (((ledger.reasoningParts.set address.partKey _).get partKey).map
      ReasoningPartState.text).getD [] = _
    rw [OrderedMap.get_set]
    by_cases same : address.partKey = partKey
    · subst same
      rw [if_pos rfl, if_pos rfl, held, reasoningValue_eq]
      show (ledger.reasoningPartState address).text ++ delta = _ ++ delta
      rw [reasoningPartState]
      cases ledger.reasoningParts.get address.partKey <;> rfl
    · rw [if_neg same, if_neg (by rintro ⟨⟩; exact same rfl), held, reasoningValue_eq]

theorem reasoningValue_freezeReasoning (ledger : SemanticItemLedger) (key : StreamKey)
    (state : ReasoningState) (status : ItemStatus) (partKey : StreamKey) :
    (ledger.freezeReasoning key state status).reasoningValue partKey =
      ledger.reasoningValue partKey := by
  have texts : ∀ (keys : List StreamKey) (parts : OrderedMap StreamKey ReasoningPartState),
      ((keys.foldl (fun parts partKey => parts.modify partKey fun part =>
        { part with frozen := true }) parts).get partKey).map ReasoningPartState.text =
        (parts.get partKey).map ReasoningPartState.text := by
    intro keys
    induction keys with
    | nil => exact fun _ => rfl
    | cons first rest ih =>
      intro parts
      rw [List.foldl_cons, ih, OrderedMap.get_modify]
      split
      · next same =>
        subst same
        cases parts.get first <;> rfl
      · rfl
  rw [reasoningValue_eq, reasoningValue_eq]
  exact congrArg (Option.getD · []) (texts state.partKeys ledger.reasoningParts)

theorem keeps_finishReasoning (sound : ledger.ContentSound) (key : StreamKey)
    (status : ItemStatus) :
    Ensures (ledger.finishReasoning key status) fun result => Keeps ledger result.1 := by
  refine ((reasoningChange_finishReasoning sound key status).and
    (ensures_finishReasoning key status)).mono ?_
  rintro ⟨next, item⟩ ⟨⟨step, -⟩, state, -, -, eq, -⟩
  simp only at step eq ⊢
  refine step.keeps sound fun partKey => ?_
  rw [eq]
  split
  · rfl
  · exact reasoningValue_freezeReasoning ledger key state status partKey

theorem keeps_finishOpenReasoning (sound : ledger.ContentSound) (status : ResponseStatus) :
    Ensures (ledger.finishOpenReasoning status) fun result => Keeps ledger result.1 := by
  rw [finishOpenReasoning]
  refine ensures_foldlM (fun result : SemanticItemLedger ×
    List (SemanticReasoningItem StreamKey) => Keeps ledger result.1) ?_ (.refl sound)
  rintro ⟨current, items⟩ entry - keeps
  simp only at keeps ⊢
  split
  · split
    · refine ensures_ite (fun _ => ensures_pure keeps) fun _ => ?_
      refine (keeps_finishReasoning keeps.sound _ status.item).bind ?_
      rintro ⟨next, item⟩ more
      exact ensures_pure (keeps.trans more)
    · exact ensures_pure keeps
  · exact ensures_pure keeps

theorem keeps_items (sound : ledger.ContentSound) (status : ResponseStatus) :
    Ensures (ledger.items status) fun result => Keeps ledger result.1 := by
  rw [items]
  refine ensures_foldlM (fun result : SemanticItemLedger ×
    List (SemanticResponseItem StreamKey) => Keeps ledger result.1) ?_ (.refl sound)
  rintro ⟨current, items⟩ entry - keeps
  simp only at keeps ⊢
  have stepping : Ensures (current.entryItem status entry) fun result =>
      Keeps current result.1 := by
    refine ((ensures_entryItem keeps.sound.wellFormed status entry).and ?_).mono
      fun result both => both.1.1.step.keeps keeps.sound both.2
    cases entry with
    | message key =>
      rw [entryItem]
      refine ensures_bind fun message _ => ensures_bind fun entries _ => ?_
      exact ensures_ite (fun _ => ensures_pure fun _ => rfl) fun _ => ensures_pure fun _ => rfl
    | reasoning key =>
      rw [entryItem]
      refine ensures_bind fun state _ => ensures_ite (fun _ => ?_) fun _ => ?_
      · exact ensures_bind fun _ _ => ensures_pure fun _ => rfl
      · exact ensures_bind fun _ _ => ensures_pure fun partKey =>
          reasoningValue_freezeReasoning current key state status.item partKey
    | tool key =>
      rw [entryItem]
      exact ensures_bind fun _ _ => ensures_bind fun _ _ => ensures_pure fun _ => rfl
  exact stepping.bind fun result kept => ensures_pure (keeps.trans kept)

end SemanticItemLedger

/-! ## Runs -/

variable {σ ω κ : Type} {emitter : StreamEmitter σ ω} {context : StreamConversionContext κ}
  {target : InferenceProtocol} {state : ConversionState σ}

open SemanticItemLedger

structure Takes (event : SemanticStreamEvent) (ledger next : SemanticItemLedger) : Prop where
  sound : next.ContentSound
  held : ∀ slot, next.held slot = sayOne slot (ledger.held slot) event
  calls : ∀ key, next.callOf key = (ledger.callOf key).or (event.calls key)

/-- The ledger takes an event, and the loop goes on. -/
def Handles (event : SemanticStreamEvent) (state next : ConversionState σ) : Prop :=
  next.terminal = state.terminal ∧ Takes event state.ledger next.ledger

variable {event : SemanticStreamEvent} {ledger next : SemanticItemLedger}

theorem SemanticItemLedger.Keeps.takes (keeps : Keeps ledger next) (silent : event.saying = none)
    (starts : ∀ key, event.calls key = none) : Takes event ledger next :=
  ⟨keeps.sound, fun slot => by rw [keeps.held, sayOne, silent],
    fun key => by rw [keeps.calls, starts, Option.or_none]⟩

theorem SemanticItemLedger.Tells.takes (tells : Tells slot saying ledger next)
    (is : event.saying = some (slot, saying)) (starts : ∀ key, event.calls key = none) :
    Takes event ledger next :=
  ⟨tells.sound, fun other => by rw [tells.held, sayOne, is],
    fun key => by rw [tells.calls, starts, Option.or_none]⟩

variable {text : JsString}

/-- A suffix that makes what is held the whole string says all of it. -/
theorem SemanticItemLedger.Tells.all {suffix : JsString}
    (tells : Tells slot (.more suffix) ledger next) (whole : ledger.held slot ++ suffix = text) :
    Tells slot (.all text) ledger next := by
  refine ⟨tells.sound, fun other => ?_, tells.calls⟩
  rw [tells.held]
  by_cases same : slot = other
  · subst same
    rw [if_pos rfl, if_pos rfl]
    exact whole
  · rw [if_neg same, if_neg same]

theorem tells_again (slot : Slot) (sound : ledger.ContentSound) (same : ledger.held slot = text) :
    Tells slot (.all text) ledger ledger := by
  refine ⟨sound, fun other => ?_, fun _ => rfl⟩
  split
  · next is =>
    subst is
    exact same
  · rfl

section Steps

variable (sound : state.ledger.ContentSound)

include sound

theorem takes_contentDelta (kind : ContentKind) (key : StreamKey) (orderKey : Option StreamKey)
    (delta : JsString) :
    Ensures (handleContentDelta emitter state kind key orderKey delta)
      (Handles (.contentDelta kind key orderKey delta) state) := by
  rw [handleContentDelta]
  refine (contentChange_appendContent sound kind key delta orderKey).bind fun ledger change => ?_
  exact ensures_bind fun _ _ => ensures_pure ⟨rfl, change.tells.takes rfl fun _ => rfl⟩

theorem takes_contentSnapshot (kind : ContentKind) (key : StreamKey)
    (orderKey : Option StreamKey) (text : JsString) :
    Ensures (handleContentSnapshot emitter state kind key orderKey text)
      (Handles (.contentSnapshot kind key orderKey text) state) := by
  rw [handleContentSnapshot]
  refine (contentChange_observeContent sound kind key orderKey).bind ?_
  rintro ⟨ledger, first⟩ change
  simp only at change ⊢
  refine (ensures_reconcileSnapshot _ _).bind fun suffix whole => ?_
  have complete : suffix = [] → Takes (.contentSnapshot kind key orderKey text) state.ledger
      ledger := by
    rintro rfl
    rw [List.append_nil] at whole
    exact (change.keeps.tells (tells_again (.content kind key) change.sound whole)).takes rfl
      fun _ => rfl
  refine ensures_ite (fun _ => ?_) fun empty => ensures_ite (fun _ => ?_) fun _ => ?_
  · refine (contentChange_appendContent change.sound kind key suffix orderKey).bind
      fun after more => ?_
    exact ensures_bind fun _ _ =>
      ensures_pure ⟨rfl, (change.keeps.tells (more.tells.all whole)).takes rfl fun _ => rfl⟩
  · exact ensures_bind fun _ _ => ensures_pure ⟨rfl, complete (not_not.mp empty)⟩
  · exact ensures_pure ⟨rfl, complete (not_not.mp empty)⟩

theorem tells_handleReasoningDelta (address : ReasoningPartAddress) (grows : delta ≠ []) :
    Ensures (handleReasoningDelta emitter state address delta) fun next =>
      next.terminal = state.terminal ∧
      Tells (.reasoning address.partKey) (.more delta) state.ledger next.ledger := by
  rw [handleReasoningDelta]
  refine (tells_appendReasoning sound address grows).bind fun ledger tells => ?_
  exact ensures_bind fun _ _ => ensures_pure ⟨rfl, tells⟩

theorem takes_reasoningSnapshot (address : ReasoningPartAddress) (text : JsString) :
    Ensures (do
      let suffix ← reconcileSnapshot (state.ledger.reasoningValue address.partKey) text
      if suffix = [] then return state
      else handleReasoningDelta emitter state address suffix)
      (Handles (.reasoningSnapshot address text) state) := by
  refine (ensures_reconcileSnapshot _ _).bind fun suffix whole => ?_
  refine ensures_ite (fun empty => ensures_pure ?_) fun grows => ?_
  · subst empty
    rw [List.append_nil] at whole
    exact ⟨rfl, (tells_again (.reasoning address.partKey) sound whole).takes rfl fun _ => rfl⟩
  · exact (tells_handleReasoningDelta sound address grows).mono fun next tells =>
      ⟨tells.1, (tells.2.all whole).takes rfl fun _ => rfl⟩

theorem takes_toolDone (key : StreamKey) (argumentsJson : Option JsString)
    (completed : Option Bool) :
    Ensures (handleToolDone emitter context target state key argumentsJson completed)
      (Handles (.toolDone key argumentsJson completed) state) := by
  rw [handleToolDone]
  refine ensures_bind fun _ _ => ensures_bind fun _ _ => ?_
  refine (toolChange_finishTool sound key argumentsJson _ _).bind ?_
  rintro ⟨ledger, suffix⟩ ⟨change, tool, there, -, whole, tools⟩
  simp only at change whole tools ⊢
  have takes : Takes (.toolDone key argumentsJson completed) state.ledger ledger := by
    cases argumentsJson with
    | none =>
      refine (change.keeps fun other => ?_).takes rfl fun _ => rfl
      rw [tools, OrderedMap.get_set]
      split
      · next same =>
        subst same
        rw [there, Option.map_some, Option.map_some, spoken, spoken, ← whole]
        rfl
      · rfl
    | some argumentsJson =>
      have whole : argumentsJson = tool.argumentsJson ++ suffix := whole
      refine (change.tells (.all argumentsJson) there tools ?_).takes rfl fun _ => rfl
      rw [spoken, ← whole]
      rfl
  exact ensures_bind fun _ _ => ensures_bind fun _ _ => ensures_bind fun _ _ =>
    ensures_pure ⟨rfl, takes⟩

/-- An event that the emitter has been started for. -/
theorem takes_handleStarted (notTerminal : ∀ terminal, event ≠ .terminal terminal) :
    Ensures (handleStarted emitter context target state event) (Handles event state) := by
  have idle : event.saying = none → (∀ key, event.calls key = none) →
      Handles event state state :=
    fun silent starts => ⟨rfl, (Keeps.refl sound).takes silent starts⟩
  cases event with
  | terminal terminal => exact absurd rfl (notTerminal terminal)
  | semanticProgress => exact ensures_pure (idle rfl fun _ => rfl)
  | messageStart key => exact ensures_pure (idle rfl fun _ => rfl)
  | usage usage => exact ensures_pure (idle rfl fun _ => rfl)
  | reasoningStart key itemId messagesState opaqueState =>
    exact ensures_measured ((keeps_startReasoning sound key itemId messagesState opaqueState).bind
      fun ledger keeps => ensures_pure ⟨rfl, keeps.takes rfl fun _ => rfl⟩)
  | reasoningDelta address delta =>
    refine ensures_ite (fun empty => ensures_pure ?_) fun grows =>
      ensures_measured ((tells_handleReasoningDelta sound address grows).mono
        fun next tells => ⟨tells.1, tells.2.takes rfl fun _ => rfl⟩)
    subst empty
    refine ⟨rfl, sound, fun slot => ?_, fun _ => Option.or_none.symm⟩
    show _ = if Slot.reasoning address.partKey = slot then state.ledger.held slot ++ [] else
      state.ledger.held slot
    rw [List.append_nil, ite_self]
  | reasoningSnapshot address text =>
    exact ensures_measured (takes_reasoningSnapshot sound address text)
  | reasoningDone key status =>
    refine ensures_measured ((keeps_finishReasoning sound key status).bind ?_)
    rintro ⟨ledger, item⟩ keeps
    exact ensures_bind fun _ _ => ensures_pure ⟨rfl, keeps.takes rfl fun _ => rfl⟩
  | contentDelta kind key orderKey delta =>
    exact ensures_measured (takes_contentDelta sound kind key orderKey delta)
  | contentSnapshot kind key orderKey text =>
    exact ensures_measured (takes_contentSnapshot sound kind key orderKey text)
  | contentDone key orderKey contentIndex =>
    refine ensures_measured ((contentKept_finishContent sound key).bind ?_)
    rintro ledger ⟨content, step⟩
    exact ensures_bind fun _ _ =>
      ensures_pure ⟨rfl, (content.keepsMessage step).takes rfl fun _ => rfl⟩
  | itemDone outputIndex itemType =>
    have finishing : Ensures (if itemType = js "message" then
        state.ledger.finishMessage (.responsesMessage outputIndex)
      else pure state.ledger) (Keeps state.ledger) :=
      ensures_ite (fun _ => (contentKept_finishMessage sound (.responsesMessage outputIndex)).mono
        fun ledger both => both.1.keepsMessage both.2) fun _ => ensures_pure (.refl sound)
    refine ensures_measured (finishing.bind fun ledger keeps => ?_)
    exact ensures_bind fun _ _ => ensures_pure ⟨rfl, keeps.takes rfl fun _ => rfl⟩
  | toolStart key itemId callId name =>
    refine ensures_measured ((toolChange_startTool sound key itemId callId name).bind ?_)
    rintro ledger ⟨change, absent, tools⟩
    refine ensures_bind fun _ _ => ensures_pure ⟨rfl, change.content.sound, fun slot => ?_,
      fun other => ?_⟩
    swap
    · rw [callOf, callOf, tools, OrderedMap.get_set, SemanticStreamEvent.calls]
      split
      · next same =>
        subst same
        rw [absent]
        rfl
      · exact Option.or_none.symm
    show ledger.held slot = state.ledger.held slot
    cases slot with
    | content kind other => exact change.content.value kind other
    | arguments other =>
      rw [held, held, tools, OrderedMap.get_set]
      split
      · next same =>
        subst same
        rw [absent]
        rfl
      · rfl
    | reasoning partKey => exact reasoningValue_congr change.step.reasoningParts partKey
  | toolArgumentsDelta key delta =>
    refine ensures_measured ((toolChange_appendToolArguments sound key delta).bind ?_)
    rintro ledger ⟨change, tool, there, -, tools⟩
    exact ensures_bind fun _ _ => ensures_pure
      ⟨rfl, (change.tells (.more delta) there tools rfl).takes rfl fun _ => rfl⟩
  | toolDone key argumentsJson completed =>
    exact ensures_measured (takes_toolDone sound key argumentsJson completed)

theorem takes_handleEvent (notTerminal : ∀ terminal, event ≠ .terminal terminal) :
    Ensures (handleEvent emitter context target state event) (Handles event state) := by
  have general : Ensures (do
      let current ← startOutput emitter state event
      handleStarted emitter context target current event) (Handles event state) := by
    refine (ledger_startOutput event).bind fun current same => ?_
    refine (takes_handleStarted (same.1 ▸ sound) notTerminal).mono fun next handles => ?_
    rw [Handles, ← same.1, ← same.2]
    exact handles
  cases event with
  | usage usage => exact ensures_pure ⟨rfl, (Keeps.refl sound).takes rfl fun _ => rfl⟩
  | messageStart key =>
    refine ensures_measured ((contentKept_startMessage sound key).bind ?_)
    rintro ledger ⟨content, step⟩
    exact ensures_bind fun _ _ =>
      ensures_pure ⟨rfl, (content.keepsMessage step).takes rfl fun _ => rfl⟩
  | _ => exact general

/-- The terminal event says nothing, and ends the loop. -/
theorem keeps_handleTerminal (terminal : TerminalEvent) :
    Ensures (handleTerminal emitter context state terminal) fun next =>
      next.terminal = true ∧ Keeps state.ledger next.ledger := by
  rw [handleTerminal]
  have marking : Ensures (measured emitter state do
      require (¬ state.terminal)
      return { state with terminal := true }) fun next =>
        next.terminal = true ∧ Keeps state.ledger next.ledger :=
    ensures_measured (ensures_bind fun _ _ => ensures_pure ⟨rfl, .refl sound⟩)
  refine marking.bind ?_
  rintro first ⟨ended, keeps⟩
  have finishing : Ensures (finishTools emitter context first terminal) fun next =>
      next.terminal = true ∧ Keeps state.ledger next.ledger := by
    rw [finishTools]
    refine ensures_ite (fun _ => ?_) fun _ => ensures_pure ⟨ended, keeps⟩
    have opening : ∀ validate, Ensures (measured emitter first do
        let ledger ← first.ledger.finishOpenTools validate
        return { first with ledger := ledger }) fun next =>
          next.terminal = true ∧ Keeps state.ledger next.ledger := by
      intro validate
      refine ensures_measured ((toolChange_finishOpenTools keeps.sound validate).bind ?_)
      rintro ledger ⟨change, gets⟩
      refine ensures_pure ⟨ended, keeps.trans (change.keeps fun key => ?_)⟩
      rw [gets]
      cases first.ledger.tools.get key <;> rfl
    refine (opening _).bind fun second holds => ?_
    refine ensures_foldlM (fun next : ConversionState σ =>
      next.terminal = true ∧ Keeps state.ledger next.ledger) ?_ holds
    intro current key _ holds
    exact ensures_measured (ensures_bind fun _ _ => ensures_bind fun _ _ => ensures_pure holds)
  refine finishing.bind ?_
  rintro second ⟨ended, keeps⟩
  have closing : Ensures (finishReasoningItems emitter second terminal) fun next =>
      next.terminal = true ∧ Keeps state.ledger next.ledger := by
    rw [finishReasoningItems]
    cases finished : second.ledger.finishOpenReasoning terminal.status with
    | error error => exact ensures_error
    | ok result =>
      obtain ⟨ledger, items⟩ := result
      have more := keeps_finishOpenReasoning keeps.sound terminal.status _ finished
      refine ensures_foldlM (fun next : ConversionState σ =>
        next.terminal = true ∧ Keeps state.ledger next.ledger) ?_ ⟨ended, keeps.trans more⟩
      intro current item _ holds
      exact ensures_measured (ensures_bind fun _ _ => ensures_pure holds)
  refine closing.bind ?_
  rintro third ⟨ended, keeps⟩
  refine ensures_through (fun next : ConversionState σ =>
    next.terminal = true ∧ Keeps state.ledger next.ledger) ?_ fun last holds => ensures_pure holds
  refine ensures_measured ((keeps_items keeps.sound terminal.status).bind ?_)
  rintro ⟨ledger, items⟩ more
  exact ensures_bind fun _ _ => ensures_pure ⟨ended, keeps.trans more⟩

end Steps

/-- The ledger holds what some events have said, none of which ends the stream. -/
structure Heard (before : List SemanticStreamEvent) (ledger : SemanticItemLedger) : Prop where
  sound : ledger.ContentSound
  goesOn : ∀ event ∈ before, ∀ terminal, event ≠ .terminal terminal
  held : ∀ slot, ledger.held slot = said before slot
  calls : ∀ key, ledger.callOf key = called before key

theorem heard_new (maxBytes : Nat) : Heard [] (.new maxBytes) := by
  refine ⟨contentSound_new maxBytes, ?_, fun slot => ?_, fun _ => rfl⟩
  · rintro event ⟨⟩
  · cases slot <;> rfl

variable {before : List SemanticStreamEvent}

theorem heard_handleEvent (heard : Heard before state.ledger)
    (notTerminal : ∀ terminal, event ≠ .terminal terminal) :
    Ensures (handleEvent emitter context target state event) fun next =>
      next.terminal = state.terminal ∧ Heard (before ++ [event]) next.ledger := by
  refine (takes_handleEvent heard.sound notTerminal).mono ?_
  rintro next ⟨goesOn, takes⟩
  refine ⟨goesOn, takes.sound, fun other member => ?_, fun slot => ?_, fun key => ?_⟩
  · rcases List.mem_append.mp member with old | single
    · exact heard.goesOn other old
    · obtain rfl := List.mem_singleton.mp single
      exact notTerminal
  · rw [takes.held, heard.held, said_append_one]
  · rw [takes.calls, heard.calls, called_append_one]

theorem heard_handleEvent_terminal (heard : Heard before state.ledger) (terminal : TerminalEvent) :
    Ensures (handleEvent emitter context target state (.terminal terminal)) fun next =>
      next.terminal = true ∧ Heard before next.ledger := by
  refine (ledger_startOutput (.terminal terminal)).bind fun current same => ?_
  rw [← same.1] at heard
  refine (keeps_handleTerminal heard.sound terminal).mono ?_
  rintro next ⟨ended, keeps⟩
  refine ⟨ended, keeps.sound, heard.goesOn, fun slot => ?_, fun key => ?_⟩
  · rw [keeps.held, heard.held]
  · rw [keeps.calls, heard.calls]

/-- The ledger of a conversion that is accepted holds what the decoder has said up
to the terminal event, whatever the emitter does with it. -/
theorem heard_convertEvents {initial : σ}
    {decoded : Generator SemanticStreamEvent ConversionError Unit} {last : ConversionState σ}
    (returned : (convertEvents emitter context target initial decoded).outcome = .ok last) :
    ∃ before terminal after, decoded.yielded = before ++ .terminal terminal :: after ∧
      Heard before last.ledger := by
  refine convertEvents_along (fun before state => Heard before state.ledger)
    (fun last => ∃ before terminal after, decoded.yielded = before ++ .terminal terminal :: after ∧
      Heard before last.ledger) ?_ ?_ (heard_new context.accumulatorBytes) returned
  · rintro before state event after - notTerminal heard
    exact heard_handleEvent heard notTerminal
  · rintro before state terminal after whole heard
    exact (heard_handleEvent_terminal heard terminal).mono fun next both =>
      ⟨both.1, before, terminal, after, whole, both.2⟩

/-- A conversion that needs neither carriers nor tool bindings. -/
def plainContext (source : InferenceProtocol) : StreamConversionContext Unit where
  source := source
  model := js "gpt"
  accumulatorBytes := 4096
  createUuid := fun count => List.replicate count 97
  nowUnixSeconds := 0
  previousResponseId := none
  outputFormat := none
  degradations := [.continuationHistoryOmitted]
  responseBindings := none
  carrier := none

/-- A tool call and a greeting, as a Responses stream reports them. -/
def greetingEvents : Generator SemanticStreamEvent ConversionError Unit :=
  ⟨[.toolStart (.responsesTool 0) none (js "call") (js "wave"),
    .toolDone (.responsesTool 0) (some (js "\x7b\x7d")) (some true),
    .itemDone 0 (js "function_call"),
    .contentDelta .text (.responsesMessagePart 1 0 .text) (some (.responsesMessage 1)) (js "Hi"),
    .contentDone (.responsesMessagePart 1 0 .text) (.responsesMessage 1) 0,
    .itemDone 1 (js "message"),
    .terminal { status := .completed, finishReason := .toolCalls }], .ok ()⟩

theorem heard_convertEvents_greeting :
    ∃ last : ConversionState (MessagesEmitter Unit),
      (convertEvents (MessagesEmitter.streamEmitter (plainContext .responses))
        (plainContext .responses) .messages (MessagesEmitter.new (plainContext .responses) ())
        greetingEvents).outcome = .ok last ∧
      ∃ before terminal after,
        greetingEvents.yielded = before ++ .terminal terminal :: after ∧ Heard before last.ledger :=
  ⟨_, rfl, @heard_convertEvents _ _ _ (MessagesEmitter.streamEmitter (plainContext .responses))
    (plainContext .responses) .messages (MessagesEmitter.new (plainContext .responses) ())
    greetingEvents _ rfl⟩

end GhcGateway.Conversion
