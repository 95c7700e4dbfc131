/-
# What a Chat stream says

The decoder of a Chat stream reports the content of the stream as it is: what it has
reported before the tool calls, and has reported or keeps back after them, is all
the content the frames have had so far, where a delta adds to the content and a
final message repeats it.

Together with the emitter this leaves nothing to assume: a Chat stream that is
converted to the Messages protocol tells the client the content of its frames.
-/

import GhcGateway.Conversion.ChatOrder
import GhcGateway.Conversion.ChatStream

namespace GhcGateway.Conversion

open Library Generator MessagesEmitter

variable {events trace : List SemanticStreamEvent} {event : SemanticStreamEvent}

/-! ## The invariant -/

namespace ChatDecoder

variable {decoder next : ChatDecoder} {second first third : ChatDecoder}

/-- Nothing is content of the second message. -/
structure Untold (trace : List SemanticStreamEvent) : Prop where
  said : ∀ kind, said trace (.content kind (.chatMessage 1)) = []
  absent : .chatMessage 1 ∉ messagesOf trace

/-- What has been reported is in order, and with what is kept back it is the content
that the decoder has collected. -/
structure Sound (trace : List SemanticStreamEvent) (decoder : ChatDecoder) : Prop where
  fair : Fair trace
  deferred : ∀ event ∈ decoder.pendingPostTool, Deferred event
  ordered : (messagesOf trace).Sublist [.chatMessage 0, .chatMessage 1]
  spoken : ∀ kind, said trace (.content kind (.chatMessage 0)) ++
    (said trace (.content kind (.chatMessage 1)) ++
      said decoder.pendingPostTool (.content kind (.chatMessage 1))) = decoder.content kind
  early : decoder.toolObserved = false → decoder.pendingPostTool = [] ∧ Untold trace

theorem sound_new (accumulatorBytes : Nat) : Sound [] (.new accumulatorBytes) := by
  refine ⟨fair_nil, by rintro event ⟨⟩, List.nil_sublist _, fun kind => ?_,
    fun _ => ⟨rfl, fun _ => rfl, List.not_mem_nil⟩⟩
  cases kind <;> rfl

/-- A step that has nothing to do with content. -/
def Same (decoder next : ChatDecoder) : Prop :=
  (next.pendingPostTool, next.toolObserved, next.chatText, next.chatRefusal) =
    (decoder.pendingPostTool, decoder.toolObserved, decoder.chatText, decoder.chatRefusal)

theorem Same.trans (one : Same first second) (two : Same second third) : Same first third :=
  Eq.trans two one

theorem Same.content (same : Same decoder next) (kind : ContentKind) :
    next.content kind = decoder.content kind := by
  cases kind with
  | text => exact congrArg (fun view => view.2.2.1) same
  | refusal => exact congrArg (fun view => view.2.2.2) same

theorem Sound.same (sound : Sound trace decoder) (same : Same decoder next) :
    Sound trace next := by
  have pending : next.pendingPostTool = decoder.pendingPostTool := congrArg Prod.fst same
  have observed : next.toolObserved = decoder.toolObserved := congrArg (fun view => view.2.1) same
  refine ⟨sound.fair, ?_, sound.ordered, fun kind => ?_, fun early => ?_⟩
  · rw [pending]
    exact sound.deferred
  · rw [pending, same.content]
    exact sound.spoken kind
  · rw [pending]
    exact sound.early (observed.symm.trans early)

/-- Events that have nothing to do with content are reported. -/
theorem Sound.aside (sound : Sound trace decoder) {more : List SemanticStreamEvent}
    (aside : ∀ event ∈ more, Aside event) : Sound (trace ++ more) decoder := by
  have silent : ∀ kind key so, more.foldl (sayOne (.content kind key)) so = so := by
    intro kind key
    induction more with
    | nil => exact fun so => rfl
    | cons event more ih =>
      intro so
      rw [List.foldl_cons, (aside event List.mem_cons_self).silent]
      exact ih (fun other member => aside other (List.mem_cons_of_mem _ member)) so
  have keys : messagesOf (trace ++ more) = messagesOf trace := by
    rw [messagesOf, List.foldl_append]
    refine List.foldlRecOn (motive := (· = messagesOf trace)) more _ rfl
      fun keys same event member => ?_
    rw [(aside event member).about, same]
    rfl
  refine ⟨sound.fair.append fun event member => (aside event member).plain, sound.deferred,
    keys ▸ sound.ordered, fun kind => ?_, fun early => ⟨(sound.early early).1, fun kind => ?_,
      keys ▸ (sound.early early).2.absent⟩⟩
  · rw [said_append, said_append, silent, silent]
    exact sound.spoken kind
  · rw [said_append, silent]
    exact (sound.early early).2.said kind

/-- A reasoning item with a state of its own is reported. -/
theorem Sound.announce (sound : Sound trace decoder) (key : StreamKey)
    (messagesState : MessagesReasoningState) :
    Sound (trace ++ [.reasoningStart key none (some messagesState) none] ++
      [.semanticProgress]) decoder := by
  have keys : messagesOf (trace ++ [.reasoningStart key none (some messagesState) none] ++
      [.semanticProgress]) = messagesOf trace := by
    rw [messagesOf_append_one, messagesOf_append_one]
    rfl
  refine ⟨sound.fair.announce key none messagesState none, sound.deferred, keys ▸ sound.ordered,
    fun kind => ?_, fun early => ⟨(sound.early early).1, fun kind => ?_,
      keys ▸ (sound.early early).2.absent⟩⟩
  · rw [said_append, said_append, said_append, said_append]
    exact sound.spoken kind
  · rw [said_append, said_append]
    exact (sound.early early).2.said kind

/-- What a step of the decoder comes to when it has nothing to do with content. -/
def Aligned (decoder : ChatDecoder) (trace : List SemanticStreamEvent) (next : ChatDecoder) :
    Prop :=
  Sound trace next ∧ ∀ kind, next.content kind = decoder.content kind

theorem Sound.aligned (sound : Sound trace decoder) (same : Same decoder next) :
    Aligned decoder trace next :=
  ⟨sound.same same, same.content⟩

theorem Aligned.of_content (same : ∀ kind, second.content kind = first.content kind)
    (aligned : Aligned second trace third) : Aligned first trace third :=
  ⟨aligned.1, fun kind => (aligned.2 kind).trans (same kind)⟩

/-! ## Reasoning -/

theorem same_reserve (decoder : ChatDecoder) (value : JsString) :
    Ensures (decoder.reserve value) (Same decoder) :=
  ensures_bind fun _ _ => ensures_pure rfl

theorem same_reserveEntry (decoder : ChatDecoder) :
    Ensures decoder.reserveEntry (Same decoder) :=
  ensures_bind fun _ _ => ensures_pure rfl

theorem traces_observeThinkingBlock (sound : Sound trace decoder) (block : ChatThinkingBlock)
    (index : Nat) :
    Traces trace (decoder.observeThinkingBlock block index) Fair (Aligned decoder) := by
  rw [observeThinkingBlock]
  split
  · exact traces_lift sound.fair fun _ _ => traces_pure (sound.aligned rfl)
  · refine traces_lift sound.fair fun _ _ => traces_lift sound.fair fun reserved same => ?_
    have kept := same_reserveEntry decoder reserved same
    have noted : Same decoder { reserved with
        observedThinkingBlocks := reserved.observedThinkingBlocks ++ [block] } :=
      kept.trans rfl
    have waiting : Same decoder { reserved with
        observedThinkingBlocks := reserved.observedThinkingBlocks ++ [block]
        pendingThinkingKeys := reserved.pendingThinkingKeys ++ [.chatThinkingBlock index] } :=
      noted.trans rfl
    cases block with
    | redactedThinking data =>
      refine traces_ite (fun _ => traces_pure (sound.aligned noted)) fun _ => ?_
      refine traces_lift sound.fair fun pending same => ?_
      refine traces_yield (traces_yield (traces_pure ?_))
      exact (sound.announce (.chatThinkingBlock index) _).aligned
        (waiting.trans (same_reserve _ data pending same)) |>.of_content fun _ => rfl
    | thinking thinking signature =>
      refine traces_ite (fun _ => traces_pure (sound.aligned noted)) fun _ => ?_
      refine traces_ite (fun _ => ?_) fun _ => ?_
      · exact traces_ofExcept sound.fair fun reserved same =>
          sound.aligned (noted.trans (same_reserve _ thinking reserved same))
      · refine traces_lift sound.fair fun first same =>
          traces_lift sound.fair fun pending again => ?_
        have both := (waiting.trans (same_reserve _ thinking first same)).trans
          (same_reserve first _ pending again)
        exact traces_yield (traces_yield (traces_pure
          ((sound.announce (.chatThinkingBlock index) _).aligned both)))

theorem traces_observeThinkingBlocks (sound : Sound trace decoder)
    (blocks : List ChatThinkingBlock) :
    Traces trace (decoder.observeThinkingBlocks blocks) Fair (Aligned decoder) := by
  rw [observeThinkingBlocks]
  refine traces_foldlM ?_ (sound.aligned rfl)
  rintro trace current ⟨block, index⟩ - ⟨sound, same⟩
  exact (traces_observeThinkingBlock sound block index).mono fun _ _ aligned =>
    aligned.of_content same

theorem traces_updateVisibleReasoning (sound : Sound trace decoder) :
    Traces trace decoder.updateVisibleReasoning Fair (Aligned decoder) := by
  rw [updateVisibleReasoning]
  refine traces_lift sound.fair fun next _ => traces_lift sound.fair fun _ _ => ?_
  refine traces_ite (fun _ => traces_pure (sound.aligned rfl)) fun _ => ?_
  refine traces_lift sound.fair fun reserved same => traces_yield (traces_pure ?_)
  refine (sound.aside fun event member => ?_).aligned
    ((same_reserve decoder _ reserved same).trans rfl)
  rw [List.mem_singleton.mp member]
  exact ⟨rfl, fun _ _ _ => rfl, rfl⟩

theorem same_observeOpaqueChatState (decoder : ChatDecoder) (value : WireJsonObject) :
    Ensures (decoder.observeOpaqueChatState value) (Same decoder) := by
  rw [observeOpaqueChatState]
  refine ensures_bind fun observed _ => ?_
  split
  · exact ensures_pure rfl
  · refine ensures_bind fun _ _ => ?_
    split
    · exact ensures_bind fun _ _ => ensures_pure rfl
    · refine (same_reserve decoder _).bind fun reserved same => ensures_pure ?_
      exact same.trans rfl
  · exact ensures_error

theorem aside_closingEvents (decoder : ChatDecoder) (status : ItemStatus) :
    ∀ event ∈ decoder.closingEvents status, Aside event := by
  intro event member
  rcases List.mem_append.mp member with own | key
  · split at own
    · rcases List.mem_cons.mp own with rfl | single
      · exact ⟨rfl, fun _ _ _ => rfl, rfl⟩
      · rw [List.mem_singleton.mp single]
        exact ⟨rfl, fun _ _ _ => rfl, rfl⟩
    · cases own
  · obtain ⟨key, -, rfl⟩ := List.mem_map.mp key
    exact ⟨rfl, fun _ _ _ => rfl, rfl⟩

theorem traces_closeReasoning (sound : Sound trace decoder) (status : ItemStatus) :
    Traces trace (decoder.closeReasoning status) Fair (Aligned decoder) := by
  rw [closeReasoning]
  refine traces_yields (traces_pure ?_)
  exact (sound.aside (aside_closingEvents decoder status)).aligned rfl

/-! ## Content -/

/-- What a step of the decoder comes to when it adds to the content of a kind. -/
def Spoken (kind : ContentKind) (delta : JsString) (decoder : ChatDecoder)
    (trace : List SemanticStreamEvent) (next : ChatDecoder) : Prop :=
  Sound trace next ∧ ∀ other, next.content other =
    decoder.content other ++ if kind = other then delta else []

theorem content_appendContent (decoder : ChatDecoder) (kind other : ContentKind)
    (delta : JsString) : (decoder.appendContent kind delta).content other =
      decoder.content other ++ if kind = other then delta else [] := by
  cases kind <;> cases other <;> simp [appendContent, content]

theorem said_one (events : List SemanticStreamEvent) (kind other : ContentKind)
    (key otherKey : StreamKey) (delta : JsString) :
    said (events ++ [.contentDelta kind key none delta]) (.content other otherKey) =
      said events (.content other otherKey) ++
        if kind = other ∧ key = otherKey then delta else [] := by
  rw [said_append_one, sayOne]
  rw [show (SemanticStreamEvent.contentDelta kind key none delta).saying =
    some (.content kind key, .more delta) from rfl]
  dsimp only [Saying.after]
  by_cases same : kind = other ∧ key = otherKey
  · obtain ⟨rfl, rfl⟩ := same
    rw [if_pos rfl, if_pos ⟨rfl, rfl⟩]
  · rw [if_neg same, if_neg, List.append_nil]
    rintro ⟨⟩
    exact same ⟨rfl, rfl⟩

theorem traces_reportContent (sound : Sound trace decoder) {kind : ContentKind}
    {delta : JsString} (pending : next.pendingPostTool = decoder.pendingPostTool)
    (observed : next.toolObserved = decoder.toolObserved)
    (contents : ∀ other, next.content other =
      decoder.content other ++ if kind = other then delta else []) :
    Traces trace (next.reportContent kind delta) Fair (Spoken kind delta decoder) := by
  rw [reportContent]
  refine traces_ite (fun after => traces_pure ?_) fun before => traces_yield (traces_pure ?_)
  · have kept : ∀ other, ({ next with pendingPostTool := next.pendingPostTool ++
        [.contentDelta kind (.chatMessage 1) none delta] } : ChatDecoder).content other =
          decoder.content other ++ if kind = other then delta else [] := by
      intro other
      rw [← contents]
      cases other <;> rfl
    refine ⟨⟨sound.fair, fun event member => ?_, sound.ordered, fun other => ?_,
      fun early => ?_⟩, kept⟩
    · have member : event ∈ next.pendingPostTool ++
          [.contentDelta kind (.chatMessage 1) none delta] := member
      rw [pending] at member
      rcases List.mem_append.mp member with old | single
      · exact sound.deferred event old
      · exact ⟨kind, delta, List.mem_singleton.mp single⟩
    · refine Eq.trans ?_ (kept other).symm
      rw [← sound.spoken other]
      show _ ++ (_ ++ said (next.pendingPostTool ++ _) _) = _
      rw [pending, said_one]
      simp only [and_true, List.append_assoc]
    · have early : next.toolObserved = false := early
      rw [after] at early
      cases early
  · rw [observed] at before
    have early := sound.early (Bool.eq_false_of_not_eq_true before)
    refine ⟨⟨sound.fair.append_one rfl, ?_, ?_, fun other => ?_, fun _ => ⟨?_, fun other => ?_,
      ?_⟩⟩, contents⟩
    · rw [pending]
      exact sound.deferred
    · rw [messagesOf_append_one]
      exact addTo_sublist sound.ordered (.inr ⟨rfl, early.2.absent⟩)
    · rw [contents, ← sound.spoken other, pending, early.1, said_one, said_one, early.2.said]
      simp [said]
    · rw [pending]
      exact early.1
    · rw [said_one, early.2.said, if_neg (by rintro ⟨-, ⟨⟩⟩)]
      rfl
    · rw [messagesOf_append_one]
      exact fun member => (mem_addTo.mp member).elim early.2.absent (by rintro ⟨⟩)

theorem traces_extendContent (sound : Sound trace decoder) (kind : ContentKind)
    (delta : JsString) :
    Traces trace (decoder.extendContent kind delta) Fair (Spoken kind delta decoder) := by
  rw [extendContent]
  refine traces_ite (fun empty => traces_pure ⟨sound, fun other => ?_⟩) fun _ => ?_
  · rw [empty, ite_self, List.append_nil]
  · refine (traces_closeReasoning sound .completed).bind ?_
    rintro trace closed ⟨sound, same⟩
    refine traces_lift sound.fair fun reserved kept => ?_
    have kept := same_reserve closed delta reserved kept
    have added : Traces trace ((reserved.appendContent kind delta).reportContent kind delta) Fair
        (Spoken kind delta reserved) := by
      refine traces_reportContent (sound.same kept) ?_ ?_
        (content_appendContent reserved kind · delta)
      · cases kind <;> rfl
      · cases kind <;> rfl
    refine added.mono ?_
    rintro trace next ⟨sound, contents⟩
    exact ⟨sound, fun other => by rw [contents, kept.content, same]⟩

/-- The member that holds the content of a kind. -/
def contentKey : ContentKind → JsString
  | .text => js "content"
  | .refusal => js "refusal"

def textMember (object : WireJsonObject) (key : JsString) : Option JsString :=
  match memberValues object key with
  | [.string text] => some text
  | _ => none

def membersOf (object : WireJsonObject) (key : JsString) : Option WireJsonObject :=
  match memberValues object key with
  | [.object members] => some members
  | _ => none

/-- Of a name that is read there is one member or none. -/
theorem ensures_singleMember (object : WireJsonObject) (key : JsString) :
    Ensures (singleMember invalidStream object key) (memberValues object key = ·.toList) := by
  rw [singleMember]
  match memberValues object key with
  | [] => exact ensures_ok rfl
  | [_] => exact ensures_ok rfl
  | _ :: _ :: _ => exact ensures_error

theorem ensures_nullableStringMember (object : WireJsonObject) (key : JsString) :
    Ensures (nullableStringMember invalidStream object key) (· = textMember object key) := by
  refine (ensures_singleMember object key).bind fun value same => ?_
  rw [textMember, same]
  obtain _ | value := value
  · exact ensures_pure rfl
  · cases value <;> first | exact ensures_pure rfl | exact ensures_error

theorem ensures_objectMember (object : WireJsonObject) (key : JsString) :
    Ensures (objectMember invalidStream object key) (· = membersOf object key) := by
  refine (ensures_singleMember object key).bind fun value same => ?_
  rw [membersOf, same]
  obtain _ | value := value
  · exact ensures_pure rfl
  · cases value <;> first | exact ensures_pure rfl | exact ensures_error

theorem ensures_demand {condition : Prop} [Decidable condition] :
    Ensures (demand invalidStream condition) fun _ => condition :=
  ensures_ite (fun holds => ensures_ok holds) fun _ => ensures_error

theorem traces_contentDelta (sound : Sound trace decoder) (delta : WireJsonObject)
    (kind : ContentKind) :
    Traces trace (decoder.contentDelta delta kind) Fair
      (Spoken kind ((textMember delta (contentKey kind)).getD []) decoder) := by
  unfold contentDelta
  refine traces_lift sound.fair fun value read => ?_
  have same : value = textMember delta (contentKey kind) := by
    cases kind <;> exact ensures_nullableStringMember delta _ value read
  rw [same]
  exact traces_extendContent sound kind _

/-- What a final message makes of the content of a kind. -/
def Repeated (message : WireJsonObject) (kind : ContentKind) (decoder : ChatDecoder)
    (trace : List SemanticStreamEvent) (next : ChatDecoder) : Prop :=
  Sound trace next ∧ ∀ other, next.content other = if kind = other then
    (textMember message (contentKey kind)).getD (decoder.content kind) else decoder.content other

theorem traces_contentSnapshot (sound : Sound trace decoder) (message : WireJsonObject)
    (kind : ContentKind) :
    Traces trace (decoder.contentSnapshot message kind) Fair (Repeated message kind decoder) := by
  unfold contentSnapshot
  refine traces_lift sound.fair fun value read => ?_
  have same : value = textMember message (contentKey kind) := by
    cases kind <;> exact ensures_nullableStringMember message _ value read
  cases value with
  | none =>
    refine traces_lift sound.fair fun _ _ => traces_pure ⟨sound, fun other => ?_⟩
    rw [← same]
    split
    · next is => rw [← is]; rfl
    · rfl
  | some value =>
    refine traces_lift sound.fair fun _ agrees => ?_
    obtain ⟨suffix, whole⟩ := ensures_demand _ agrees
    refine (traces_extendContent sound kind _).mono ?_
    rintro trace next ⟨sound, contents⟩
    refine ⟨sound, fun other => ?_⟩
    rw [contents, ← same, ← whole, List.drop_left]
    split
    · next is => rw [← is]; rfl
    · exact List.append_nil _

/-! ## Tool calls -/

theorem aside_arguments (key : StreamKey) (delta : JsString) :
    Aside (.toolArgumentsDelta key delta) :=
  ⟨rfl, fun _ _ _ => rfl, rfl⟩

theorem same_setTool (decoder : ChatDecoder) (index : Nat) (tool : ChatTool) :
    Same decoder (decoder.setTool index tool) :=
  rfl

theorem traces_startTool (sound : Sound trace decoder) (index : Nat) (tool : ChatTool) :
    Traces trace (decoder.startTool index tool) Fair (Aligned decoder) := by
  rw [startTool]
  have started : Sound (trace ++ [.toolStart (toolKey index) none tool.id tool.name]) decoder :=
    sound.aside fun event member => by
      rw [List.mem_singleton.mp member]
      exact ⟨rfl, fun _ _ _ => rfl, rfl⟩
  refine traces_yield (traces_yields (traces_pure ?_))
  refine (started.aside fun event member => ?_).aligned (same_setTool decoder index _)
  split at member
  · cases member
  · rw [List.mem_singleton.mp member]
    exact aside_arguments _ _

theorem traces_startReadyToolsLoop (rounds : Nat) (sound : Sound trace decoder) :
    Traces trace (startReadyToolsLoop rounds decoder) Fair (Aligned decoder) := by
  induction rounds generalizing trace decoder with
  | zero => exact traces_pure (sound.aligned rfl)
  | succ rounds ih =>
    rw [startReadyToolsLoop]
    split
    · exact traces_pure (sound.aligned rfl)
    · next tool there =>
      refine traces_ite (fun _ => ?_) fun _ => traces_pure (sound.aligned rfl)
      have moved : Same decoder { decoder with
          nextToolToStart := decoder.nextToolToStart + 1 } :=
        rfl
      refine (traces_startTool (sound.same moved) decoder.nextToolToStart tool).bind ?_
      rintro trace next ⟨sound, same⟩
      exact (ih sound).mono fun _ _ aligned => aligned.of_content fun kind =>
        (same kind).trans (moved.content kind)

theorem traces_startReadyTools (sound : Sound trace decoder) :
    Traces trace decoder.startReadyTools Fair (Aligned decoder) :=
  traces_startReadyToolsLoop _ sound

theorem traces_startIdentifiedTools (sound : Sound trace decoder) :
    Traces trace decoder.startIdentifiedTools Fair (Aligned decoder) := by
  rw [startIdentifiedTools]
  refine traces_foldlM ?_ (sound.aligned rfl)
  rintro trace current ⟨index, tool⟩ - ⟨sound, same⟩
  refine traces_ite (fun _ => traces_pure ⟨sound, same⟩) fun _ => ?_
  refine traces_lift sound.fair fun _ _ => ?_
  exact (traces_startTool sound index tool).mono fun _ _ aligned => aligned.of_content same

theorem same_toolCallId (decoder : ChatDecoder) (tool : ChatTool) (value : WireJsonObject) :
    Ensures (decoder.toolCallId tool value) fun result => Same decoder result.1 := by
  rw [toolCallId]
  refine ensures_bind fun id _ => ?_
  cases id with
  | none => exact ensures_pure rfl
  | some id =>
    exact ensures_bind fun _ _ => (same_reserve decoder id).bind fun _ same => ensures_pure same

theorem same_toolCallName (decoder : ChatDecoder) (tool : ChatTool) (name : Option JsString) :
    Ensures (decoder.toolCallName tool name) fun result => Same decoder result.1 := by
  cases name with
  | none => exact ensures_ok rfl
  | some delta =>
    rw [toolCallName]
    refine ensures_ite (fun _ => ensures_bind fun _ _ => ensures_pure rfl) fun _ => ?_
    refine ensures_ite (fun _ => ensures_ok rfl) fun _ => ?_
    refine ensures_ite (fun _ => ?_) fun _ => ?_
    · exact (same_reserve decoder _).bind fun _ same => ensures_pure same
    · exact (same_reserve decoder _).bind fun _ same => ensures_pure same

theorem same_toolCallArguments (decoder : ChatDecoder) (tool : ChatTool) (delta : JsString) :
    Ensures (decoder.toolCallArguments tool delta) fun result => Same decoder result.1 := by
  rw [toolCallArguments]
  refine ensures_ite (fun _ => ensures_ok rfl) fun _ => ?_
  exact (same_reserve decoder delta).bind fun _ same => ensures_pure same

theorem same_observeToolCall (decoder : ChatDecoder) (index : Nat) (value : WireJsonObject) :
    Ensures (decoder.observeToolCall index value) fun result => Same decoder result.1 := by
  rw [observeToolCall]
  have entered : Ensures (if decoder.tools.get index = none then decoder.reserveEntry
      else pure decoder) (Same decoder) :=
    ensures_ite (fun _ => same_reserveEntry decoder) fun _ => ensures_pure rfl
  refine entered.bind fun first same => ensures_bind fun _ _ => ensures_bind fun _ _ => ?_
  refine (same_toolCallId first _ value).bind ?_
  rintro ⟨second, tool⟩ again
  refine ensures_bind fun fn _ => ensures_bind fun name _ => ?_
  refine (same_toolCallName second tool name).bind ?_
  rintro ⟨third, tool⟩ named
  refine ensures_bind fun argumentsDelta _ => ?_
  refine (same_toolCallArguments third tool _).bind ?_
  rintro ⟨fourth, tool⟩ last
  exact ensures_pure (((same.trans again).trans named).trans last)

theorem traces_toolCallDelta (sound : Sound trace decoder) (value : WireJson) (position : Nat) :
    Traces trace (decoder.toolCallDelta value position) Fair (Aligned decoder) := by
  cases value with
  | object members =>
    refine traces_lift sound.fair fun index _ => traces_lift sound.fair fun result same => ?_
    have same := same_observeToolCall decoder index members result same
    obtain ⟨observed, tool, argumentsDelta⟩ := result
    refine traces_ite (fun _ => traces_yield (traces_pure ?_)) fun _ => traces_pure ?_
    · refine (sound.aside fun event member => ?_).aligned
        (same.trans (same_setTool observed index _))
      rw [List.mem_singleton.mp member]
      exact aside_arguments _ _
    · exact sound.aligned (same.trans (same_setTool observed index tool))
  | _ => exact traces_throw sound.fair

theorem traces_toolCallDeltas (sound : Sound trace decoder) (calls : List WireJson) :
    Traces trace (decoder.toolCallDeltas calls) Fair (Aligned decoder) := by
  rw [toolCallDeltas]
  have each : Traces trace (calls.zipIdx.foldlM (fun (decoder : ChatDecoder)
      (entry : WireJson × Nat) => decoder.toolCallDelta entry.1 entry.2) decoder) Fair
        (Aligned decoder) := by
    refine traces_foldlM ?_ (sound.aligned rfl)
    rintro trace current ⟨value, position⟩ - ⟨sound, same⟩
    exact (traces_toolCallDelta sound value position).mono fun _ _ aligned =>
      aligned.of_content same
  refine each.bind ?_
  rintro trace observed ⟨sound, same⟩
  refine (traces_startReadyTools sound).bind ?_
  rintro trace started ⟨sound, again⟩
  refine traces_pure (Aligned.of_content (fun kind => (again kind).trans (same kind)) ?_)
  refine ⟨⟨sound.fair, sound.deferred, sound.ordered, fun kind => ?_, fun early =>
    sound.early (Bool.or_eq_false_iff.mp early).1⟩, fun kind => by cases kind <;> rfl⟩
  rw [sound.spoken]
  cases kind <;> rfl

/-! ## Deltas and final messages -/

theorem same_extendScalarReasoning (decoder : ChatDecoder) (delta : JsString) :
    Ensures (decoder.extendScalarReasoning delta) (Same decoder) := by
  rw [extendScalarReasoning]
  refine ensures_ite (fun _ => ensures_ok rfl) fun _ => ensures_bind fun _ _ => ?_
  exact (same_reserve decoder delta).bind fun reserved same =>
    ensures_pure (same.trans rfl)

/-- A delta adds to the content of both kinds. -/
theorem traces_observeDelta (sound : Sound trace decoder) (delta : WireJsonObject) :
    Traces trace (decoder.observeDelta delta) Fair fun trace next => Sound trace next ∧
      ∀ kind, next.content kind =
        decoder.content kind ++ (textMember delta (contentKey kind)).getD [] := by
  rw [observeDelta]
  refine traces_lift sound.fair fun _ _ => traces_lift sound.fair fun reasoning _ => ?_
  refine traces_lift sound.fair fun first same => ?_
  have kept := same_observeOpaqueChatState decoder delta first same
  refine (traces_observeThinkingBlocks (sound.same kept) reasoning.thinkingBlocks).bind ?_
  rintro trace second ⟨sound, contents⟩
  refine traces_lift sound.fair fun third same => ?_
  have scalar := same_extendScalarReasoning second reasoning.scalarText third same
  refine traces_lift (sound.same scalar).fair fun calls _ => ?_
  refine (traces_updateVisibleReasoning (sound.same scalar)).bind ?_
  rintro trace fourth ⟨sound, visible⟩
  have closing : Traces trace (if calls.getD [] = [] then pure fourth
      else fourth.closeReasoning .completed) Fair (Aligned fourth) :=
    traces_ite (fun _ => traces_pure (sound.aligned rfl)) fun _ =>
      traces_closeReasoning sound .completed
  refine closing.bind ?_
  rintro trace fifth ⟨sound, closed⟩
  refine (traces_contentDelta sound delta .text).bind ?_
  rintro trace sixth ⟨sound, text⟩
  refine (traces_contentDelta sound delta .refusal).bind ?_
  rintro trace last ⟨sound, refusal⟩
  have whole : ∀ kind, last.content kind =
      decoder.content kind ++ (textMember delta (contentKey kind)).getD [] := by
    intro kind
    rw [refusal, text, closed, visible, scalar.content, contents, kept.content]
    cases kind <;> simp
  cases calls with
  | none => exact traces_pure ⟨sound, whole⟩
  | some calls =>
    refine (traces_toolCallDeltas sound calls).mono ?_
    rintro trace next ⟨sound, same⟩
    exact ⟨sound, fun kind => (same kind).trans (whole kind)⟩

theorem same_completeScalarReasoning (decoder : ChatDecoder) (text : JsString) :
    Ensures (decoder.completeScalarReasoning text) (Same decoder) := by
  rw [completeScalarReasoning]
  refine ensures_ite (fun _ => ensures_ok rfl) fun _ => ?_
  refine ensures_bind fun _ _ => ensures_bind fun _ _ => ?_
  exact (same_reserve decoder _).bind fun reserved same =>
    ensures_pure (same.trans rfl)

theorem same_completeToolId (decoder : ChatDecoder) (tool : ChatTool) (id : JsString) :
    Ensures (decoder.completeToolId tool id) fun result => Same decoder result.1 := by
  rw [completeToolId]
  refine ensures_ite (fun _ => ?_) fun _ => ensures_bind fun _ _ => ensures_pure rfl
  exact (same_reserve decoder id).bind fun _ same => ensures_pure same

theorem same_completeToolName (decoder : ChatDecoder) (tool : ChatTool) (name : JsString) :
    Ensures (decoder.completeToolName tool name) fun result => Same decoder result.1 := by
  rw [completeToolName]
  refine ensures_ite (fun _ => ?_) fun _ => ensures_ite (fun _ => ensures_ok rfl)
    fun _ => ensures_bind fun _ _ => ?_
  · exact (same_reserve decoder name).bind fun _ same => ensures_pure same
  · exact (same_reserve decoder _).bind fun _ same => ensures_pure same

theorem same_observeFinalToolCall (decoder : ChatDecoder)
    (finalToolArguments : OrderedMap Nat JsString) (value : WireJson) (position : Nat) :
    Ensures (decoder.observeFinalToolCall finalToolArguments value position)
      fun result => Same decoder result.1 := by
  rw [observeFinalToolCall]
  refine ensures_bind fun call _ => ?_
  obtain ⟨index, id, name, argumentsJson⟩ := call
  refine ensures_bind fun _ _ => ?_
  refine ensures_through (fun result : ChatDecoder × ChatTool => Same decoder result.1) ?_ ?_
  · split
    · refine (same_reserveEntry decoder).bind fun first same => ?_
      refine (same_reserve first id).bind fun second again => ?_
      exact (same_reserve second name).bind fun third last =>
        ensures_pure ((same.trans again).trans last)
    · next tool _ =>
      refine (same_completeToolId decoder tool id).bind ?_
      rintro ⟨first, tool⟩ same
      exact (same_completeToolName first tool name).mono fun _ again => same.trans again
  · rintro ⟨observed, tool⟩ same
    exact ensures_pure (same.trans (same_setTool observed index _))

theorem traces_finishFinalTool (sound : Sound trace decoder) (index : Nat)
    (argumentsJson : JsString) :
    Traces trace (decoder.finishFinalTool index argumentsJson) Fair (Aligned decoder) := by
  rw [finishFinalTool]
  split
  · exact traces_throw sound.fair
  · refine traces_lift sound.fair fun _ _ => traces_yield (traces_pure ?_)
    refine (sound.aside fun event member => ?_).aligned (same_setTool decoder index _)
    rw [List.mem_singleton.mp member]
    exact ⟨rfl, fun _ _ _ => rfl, rfl⟩

theorem traces_observeFinalToolCalls (sound : Sound trace decoder) (calls : List WireJson) :
    Traces trace (decoder.observeFinalToolCalls calls) Fair (Aligned decoder) := by
  rw [observeFinalToolCalls]
  have closing : Traces trace (if calls = [] then pure decoder
      else decoder.closeReasoning .completed) Fair (Aligned decoder) :=
    traces_ite (fun _ => traces_pure (sound.aligned rfl)) fun _ =>
      traces_closeReasoning sound .completed
  refine closing.bind ?_
  rintro trace closed ⟨sound, same⟩
  refine traces_lift sound.fair fun result observed => ?_
  have kept : Same closed result.1 := by
    refine ensures_foldlM (fun state : ChatDecoder × OrderedMap Nat JsString =>
      Same closed state.1) ?_ (show Same closed closed from rfl) result observed
    rintro ⟨current, finalToolArguments⟩ ⟨value, position⟩ - same
    exact (same_observeFinalToolCall current finalToolArguments value position).mono
      fun _ again => same.trans again
  obtain ⟨observed, finalToolArguments⟩ := result
  refine traces_lift sound.fair fun _ _ => ?_
  refine (traces_startReadyTools (sound.same kept)).bind ?_
  rintro trace started ⟨sound, again⟩
  refine traces_foldlM ?_ ⟨sound, fun kind =>
    (again kind).trans ((kept.content kind).trans (same kind))⟩
  rintro trace current ⟨index, argumentsJson⟩ - ⟨sound, contents⟩
  exact (traces_finishFinalTool sound index argumentsJson).mono fun _ _ aligned =>
    aligned.of_content contents

/-- A final message repeats the content of both kinds. -/
theorem traces_observeFinalMessage (sound : Sound trace decoder) (message : WireJsonObject) :
    Traces trace (decoder.observeFinalMessage message) Fair fun trace next => Sound trace next ∧
      ∀ kind, next.content kind =
        (textMember message (contentKey kind)).getD (decoder.content kind) := by
  rw [observeFinalMessage]
  refine traces_lift sound.fair fun _ _ => traces_lift sound.fair fun reasoning _ => ?_
  refine traces_lift sound.fair fun first same => ?_
  have kept := same_observeOpaqueChatState decoder message first same
  refine (traces_observeThinkingBlocks (sound.same kept) reasoning.thinkingBlocks).bind ?_
  rintro trace second ⟨sound, contents⟩
  refine traces_lift sound.fair fun third same => ?_
  have scalar := same_completeScalarReasoning second reasoning.scalarText third same
  refine (traces_updateVisibleReasoning (sound.same scalar)).bind ?_
  rintro trace fourth ⟨sound, visible⟩
  refine (traces_contentSnapshot sound message .text).bind ?_
  rintro trace fifth ⟨sound, text⟩
  refine (traces_contentSnapshot sound message .refusal).bind ?_
  rintro trace last ⟨sound, refusal⟩
  have same : ∀ kind, fourth.content kind = decoder.content kind := fun kind => by
    rw [visible, scalar.content, contents, kept.content]
  have whole : ∀ kind, last.content kind =
      (textMember message (contentKey kind)).getD (decoder.content kind) := by
    intro kind
    rw [refusal, text, text]
    cases kind <;> simp [same]
  refine traces_lift sound.fair fun calls _ => ?_
  cases calls with
  | none => exact traces_lift sound.fair fun _ _ => traces_pure ⟨sound, whole⟩
  | some calls =>
    refine (traces_observeFinalToolCalls sound calls).mono ?_
    rintro trace next ⟨sound, same⟩
    exact ⟨sound, fun kind => (same kind).trans (whole kind)⟩

/-! ## Chunks -/

/-- What is kept back is reported. -/
theorem Sound.flush (sound : Sound trace decoder) :
    Sound (trace ++ decoder.pendingPostTool) { decoder with pendingPostTool := [] } := by
  have contents : ∀ kind, ({ decoder with pendingPostTool := [] } : ChatDecoder).content kind =
      decoder.content kind := fun kind => by cases kind <;> rfl
  refine ⟨sound.fair.append fun event member => ?_, by rintro event ⟨⟩, ?_, fun kind => ?_,
    fun early => ?_⟩
  · obtain ⟨kind, delta, rfl⟩ := sound.deferred event member
    rfl
  · rw [messagesOf, List.foldl_append]
    refine List.foldlRecOn (motive := fun keys : List StreamKey =>
      keys.Sublist [.chatMessage 0, .chatMessage 1]) _ _ sound.ordered
        fun keys ordered event member => ?_
    obtain ⟨kind, delta, rfl⟩ := sound.deferred event member
    exact addTo_sublist ordered (.inl rfl)
  · refine Eq.trans ?_ (contents kind).symm
    rw [said_append, said_append, said_deferred sound.deferred, said_from sound.deferred,
      ← sound.spoken kind]
    exact congrArg _ (List.append_nil _)
  · have early := sound.early early
    rw [early.1, List.append_nil]
    exact ⟨rfl, early.2⟩

theorem traces_observeFinish (sound : Sound trace decoder) (finish : WireJson) :
    Traces trace (decoder.observeFinish finish) Fair (Aligned decoder) := by
  rw [observeFinish]
  refine traces_lift sound.fair fun observedFinish _ => traces_lift sound.fair fun _ _ => ?_
  refine traces_lift sound.fair fun _ _ => ?_
  have noted : Same decoder { decoder with pendingFinish := some observedFinish } :=
    rfl
  have starting : Traces trace (if observedFinish.truncates = true then
      { decoder with pendingFinish := some observedFinish }.startIdentifiedTools
      else { decoder with pendingFinish := some observedFinish }.startReadyTools) Fair
        (Aligned decoder) :=
    traces_ite
      (fun _ => (traces_startIdentifiedTools (sound.same noted)).mono fun _ _ aligned =>
        aligned.of_content noted.content)
      (fun _ => (traces_startReadyTools (sound.same noted)).mono fun _ _ aligned =>
        aligned.of_content noted.content)
  refine starting.bind ?_
  rintro trace started ⟨sound, same⟩
  refine traces_yields (traces_pure ⟨sound.flush, fun kind => ?_⟩)
  rw [← same]
  cases kind <;> rfl

def choiceSays (kind : ContentKind) (so : JsString) (choice : WireJsonObject) : JsString :=
  let so := so ++ ((membersOf choice (js "delta")).bind (textMember · (contentKey kind))).getD []
  ((membersOf choice (js "message")).bind (textMember · (contentKey kind))).getD so

theorem traces_observeChoice (sound : Sound trace decoder) (choice : WireJsonObject) :
    Traces trace (decoder.observeChoice choice) Fair fun trace next => Sound trace next ∧
      ∀ kind, next.content kind = choiceSays kind (decoder.content kind) choice := by
  rw [observeChoice]
  refine traces_lift sound.fair fun _ _ => traces_lift sound.fair fun _ _ => ?_
  refine traces_lift sound.fair fun delta read => ?_
  have isDelta : delta = membersOf choice (js "delta") := ensures_objectMember choice _ delta read
  refine traces_through (fun trace next => Sound trace next ∧ ∀ kind, next.content kind =
    decoder.content kind ++ (delta.bind (textMember · (contentKey kind))).getD []) ?_ ?_
  · cases delta with
    | none => exact traces_pure ⟨sound, fun _ => (List.append_nil _).symm⟩
    | some delta => exact traces_observeDelta sound delta
  rintro trace added ⟨sound, contents⟩
  refine traces_lift sound.fair fun message read => ?_
  have isMessage : message = membersOf choice (js "message") :=
    ensures_objectMember choice _ message read
  refine traces_through (fun trace next => Sound trace next ∧ ∀ kind, next.content kind =
    (message.bind (textMember · (contentKey kind))).getD (added.content kind)) ?_ ?_
  · cases message with
    | none => exact traces_pure ⟨sound, fun _ => rfl⟩
    | some message => exact traces_observeFinalMessage sound message
  rintro trace repeated ⟨sound, same⟩
  have whole : ∀ kind, repeated.content kind = choiceSays kind (decoder.content kind) choice := by
    intro kind
    rw [same, contents, isDelta, isMessage, choiceSays]
  refine traces_lift sound.fair fun finish _ => ?_
  split
  · exact traces_pure ⟨sound, whole⟩
  · exact traces_pure ⟨sound, whole⟩
  · refine (traces_observeFinish sound _).mono ?_
    rintro trace next ⟨sound, again⟩
    exact ⟨sound, fun kind => (again kind).trans (whole kind)⟩

def chunkSays (kind : ContentKind) (so : JsString) (payload : WireJsonObject) : JsString :=
  match memberValues payload (js "choices") with
  | [.array [.object choice]] => choiceSays kind so choice
  | _ => so

theorem ensures_arrayMember (object : WireJsonObject) (key : JsString) :
    Ensures (arrayMember invalidStream object key) fun items =>
      (items = none ∧ memberValues object key = []) ∨
      ∃ values, items = some values ∧ memberValues object key = [.array values] := by
  refine (ensures_singleMember object key).bind fun value same => ?_
  obtain _ | value := value
  · exact ensures_pure (.inl ⟨rfl, same⟩)
  · cases value <;> first | exact ensures_pure (.inr ⟨_, rfl, same⟩) | exact ensures_error

theorem traces_observeChunk (sound : Sound trace decoder) (payload : WireJsonObject) :
    Traces trace (decoder.observeChunk payload) Fair fun trace next => Sound trace next ∧
      ∀ kind, next.content kind = chunkSays kind (decoder.content kind) payload := by
  rw [observeChunk]
  refine traces_lift sound.fair fun usage _ => ?_
  refine traces_through (Aligned decoder) ?_ ?_
  · cases usage with
    | none => exact traces_pure (sound.aligned rfl)
    | some usage =>
      refine traces_lift sound.fair fun counters _ => traces_yield (traces_pure ?_)
      refine (sound.aside fun event member => ?_).aligned rfl
      rw [List.mem_singleton.mp member]
      exact ⟨rfl, fun _ _ _ => rfl, rfl⟩
  rintro trace counted ⟨sound, same⟩
  refine traces_lift sound.fair fun choices read => ?_
  obtain ⟨rfl, listed⟩ | ⟨values, rfl, listed⟩ := ensures_arrayMember payload _ choices read
  · refine traces_pure ⟨sound, fun kind => ?_⟩
    rw [same, chunkSays, listed]
  · rw [Option.getD_some]
    split
    · refine traces_pure ⟨sound, fun kind => ?_⟩
      rw [same, chunkSays, listed]
    · refine (traces_observeChoice sound _).mono ?_
      rintro trace next ⟨sound, chosen⟩
      refine ⟨sound, fun kind => ?_⟩
      rw [chosen, same, chunkSays, listed]
    · exact traces_throw sound.fair

/-! ## The whole stream -/

theorem traces_finishTools (sound : Sound trace decoder) :
    Traces trace decoder.finishTools Fair fun trace _ => Sound trace decoder := by
  rw [finishTools]
  refine traces_forM ?_ sound
  rintro trace ⟨index, tool⟩ - sound
  refine traces_lift sound.fair fun _ _ => traces_ite (fun _ => traces_pure sound) fun _ => ?_
  refine traces_yieldValues (sound.aside fun event member => ?_)
  rw [List.mem_singleton.mp member]
  exact ⟨rfl, fun _ _ _ => rfl, rfl⟩

/-- The events of a stream that has come to its end: the terminal event is the last
one, and the others report all of the content. -/
def Ended (text : ContentKind → JsString) (events : List SemanticStreamEvent) : Prop :=
  ∃ before terminal, events = before ++ [.terminal terminal] ∧ Fair before ∧
    (messagesOf before).Sublist [.chatMessage 0, .chatMessage 1] ∧
      ∀ kind, said before (.content kind (.chatMessage 0)) ++
        said before (.content kind (.chatMessage 1)) = text kind

theorem Sound.ended (sound : Sound trace decoder) (terminal : TerminalEvent) :
    Ended decoder.content (trace ++ decoder.pendingPostTool ++ [.terminal terminal]) := by
  refine ⟨_, terminal, rfl, sound.flush.fair, sound.flush.ordered, fun kind => ?_⟩
  rw [said_append, said_append, said_deferred sound.deferred, said_from sound.deferred]
  exact sound.spoken kind

theorem traces_observeDone (sound : Sound trace decoder) :
    Traces trace decoder.observeDone Fair fun trace _ => Ended decoder.content trace := by
  rw [observeDone]
  split
  · exact traces_throw sound.fair
  · next finish _ =>
    have starting : Traces trace (if finish.truncates = true then decoder.startIdentifiedTools
        else pure decoder) Fair (Aligned decoder) :=
      traces_ite (fun _ => traces_startIdentifiedTools sound) fun _ =>
        traces_pure (sound.aligned rfl)
    refine starting.bind ?_
    rintro trace started ⟨sound, same⟩
    refine (traces_closeReasoning sound _).bind ?_
    rintro trace closed ⟨sound, again⟩
    have contents : closed.content = decoder.content :=
      funext fun kind => (again kind).trans (same kind)
    have ending : ∀ trace, Sound trace closed → Traces trace (do
        yieldValues closed.pendingPostTool
        report (.terminal (terminalEvent (closed.terminalFinish finish)))) Fair
          fun trace _ => Ended decoder.content trace := by
      intro trace sound
      refine traces_yields (traces_yieldValues ?_)
      rw [← contents]
      exact sound.ended _
    exact traces_ite (fun _ => ending trace sound) fun _ =>
      (traces_finishTools sound).bind fun trace _ sound => ending trace sound

end ChatDecoder

/-- The content of a kind of some frames. A stream is not read past the frame that
ends it. -/
def chatSays (kind : ContentKind) : JsString → List ChatFrame → JsString
  | so, .chunk payload :: frames => chatSays kind (ChatDecoder.chunkSays kind so payload) frames
  | so, _ => so

theorem traces_decodeChatFrames {decoder : ChatDecoder} (sound : decoder.Sound trace)
    (frames : List ChatFrame) :
    Traces trace (decodeChatFrames decoder frames) Fair fun trace _ =>
      ChatDecoder.Ended (fun kind => chatSays kind (decoder.content kind) frames) trace := by
  induction frames generalizing trace decoder with
  | nil => exact traces_throw sound.fair
  | cons frame frames ih =>
    cases frame with
    | error => exact traces_throw sound.fair
    | failure error => exact traces_throw sound.fair
    | done => exact ChatDecoder.traces_observeDone sound
    | chunk payload =>
      refine (ChatDecoder.traces_observeChunk sound payload).bind ?_
      rintro trace next ⟨sound, contents⟩
      have rest := ih sound
      simp only [contents] at rest
      exact rest

theorem traces_decodeChatStream (accumulatorBytes : Nat) (frames : List ChatFrame) :
    Traces [] (decodeChatStream accumulatorBytes frames) Fair fun trace _ =>
      ChatDecoder.Ended (fun kind => chatSays kind [] frames) trace := by
  have contents : ∀ kind, (ChatDecoder.new accumulatorBytes).content kind = [] := by
    intro kind
    cases kind <;> rfl
  have traced := traces_decodeChatFrames (ChatDecoder.sound_new accumulatorBytes) frames
  simp only [contents] at traced
  exact traced

/-- A Chat stream is in order, also when the decoder gives it up. -/
theorem disciplined_decodeChatStream (accumulatorBytes : Nat) (frames : List ChatFrame) :
    Disciplined .chat (decodeChatStream accumulatorBytes frames).yielded := by
  have traced := traces_decodeChatStream accumulatorBytes frames
  cases outcome : (decodeChatStream accumulatorBytes frames).outcome with
  | error error => exact (traced.thrown error outcome).disciplined (by rintro ⟨⟩)
  | ok value =>
    obtain ⟨before, terminal, whole, fair, -⟩ := traced.returned value outcome
    rw [List.nil_append] at whole
    rw [whole]
    exact fair.disciplined_terminal (by rintro ⟨⟩) terminal

/-- The events before the terminal event of a Chat stream report its content. -/
theorem said_decodeChatStream {accumulatorBytes : Nat} {frames : List ChatFrame}
    {before after : List SemanticStreamEvent} {terminal : TerminalEvent}
    (whole : (decodeChatStream accumulatorBytes frames).yielded =
      before ++ .terminal terminal :: after) :
    Fair before ∧ (messagesOf before).Sublist [.chatMessage 0, .chatMessage 1] ∧
      ∀ kind, said before (.content kind (.chatMessage 0)) ++
        said before (.content kind (.chatMessage 1)) = chatSays kind [] frames := by
  have traced := traces_decodeChatStream accumulatorBytes frames
  have there : SemanticStreamEvent.terminal terminal ∈
      (decodeChatStream accumulatorBytes frames).yielded := by
    rw [whole]
    exact List.mem_append_right _ List.mem_cons_self
  cases outcome : (decodeChatStream accumulatorBytes frames).outcome with
  | error error =>
    exact absurd rfl ((isChat_goesOn ((traced.thrown error outcome).chat _ there)).2 terminal)
  | ok value =>
    obtain ⟨first, last, same, fair, reported⟩ := traced.returned value outcome
    rw [List.nil_append, whole] at same
    rcases List.eq_nil_or_concat after with rfl | ⟨more, final, rfl⟩
    · obtain ⟨rfl, -⟩ := List.append_inj' same rfl
      exact ⟨fair, reported⟩
    · rw [List.concat_eq_append, ← List.cons_append, ← List.append_assoc] at same
      obtain ⟨rfl, -⟩ := List.append_inj' same rfl
      have early := fair.chat _ (List.mem_append_right _ List.mem_cons_self)
      exact absurd rfl ((isChat_goesOn early).2 terminal)

/-- A Chat stream that is converted to the Messages protocol and accepted tells the
client the content of its frames in their order, and what it said besides. -/
theorem told_decodeChatStream {κ : Type} {context : StreamConversionContext κ} {store : κ}
    (chat : context.source = .chat) {accumulatorBytes : Nat} {frames : List ChatFrame}
    {last : ConversionState (MessagesEmitter κ)}
    (returned : (convertEvents (streamEmitter context) context .messages
      (.new context store) (decodeChatStream accumulatorBytes frames)).outcome = .ok last) :
    ∃ before terminal after lines tracks,
      (decodeChatStream accumulatorBytes frames).yielded = before ++ .terminal terminal :: after ∧
      (convertEvents (streamEmitter context) context .messages
        (.new context store) (decodeChatStream accumulatorBytes frames)).yielded.filterMap
          Emission.wire? = .messageStart :: lines.map .block ++
            [.messageDelta terminal.finishReason last.usage, .messageStop] ∧
      Transcript.Leads MessagesBlock.extend true lines [] tracks ∧
      MessagesEmitter.Told before tracks ∧
      MessagesEmitter.Answered context terminal.status last.ledger last.emitter.base.created
        last.emitter.streamedContent tracks ∧
      (∀ kind, wholeText tracks kind = chatSays kind [] frames) := by
  have notResponses : context.source ≠ .responses := by
    rw [chat]
    rintro ⟨⟩
  have disciplined : Disciplined context.source
      (decodeChatStream accumulatorBytes frames).yielded := by
    rw [chat]
    exact disciplined_decodeChatStream accumulatorBytes frames
  obtain ⟨-, -, emitted⟩ := convertEvents_ok returned
  have keeps : ∀ before state event after,
      (decodeChatStream accumulatorBytes frames).yielded = before ++ event :: after →
      state.ledger.ContentSound → ((∀ event ∈ before, event.isChat = true) →
        MessagesEmitter.Ranked before state) →
      Ensures (handleEvent (streamEmitter context) context .messages state event)
        fun next => (∀ other ∈ before ++ [event], other.isChat = true) →
          MessagesEmitter.Ranked (before ++ [event]) next := by
    intro before state event after _ sound ranked next handled all
    have first := ranked fun other member => all other (List.mem_append_left _ member)
    exact ranked_handleEvent notResponses sound first
      (all event (List.mem_append_right _ List.mem_cons_self)) next handled
  obtain ⟨before, terminal, after, state, whole, heard, ranked, settled, lines, tracks, wired,
    leads, answered⟩ := concluded_convertEvents disciplined
      (fun before state => (∀ event ∈ before, event.isChat = true) →
        MessagesEmitter.Ranked before state)
      (fun _ => ranked_start store) keeps returned
  have told := answered.told heard
  obtain ⟨fair, ordered, reported⟩ := said_decodeChatStream whole
  refine ⟨before, terminal, after, lines, tracks, whole, emitted ▸ wired, ?_, told, answered,
    fun kind => ?_⟩
  · rw [oneBlockAtATime, chat] at leads
    exact leads
  · rw [(ranked fair.chat).wholeText settled heard.sound ordered answered kind, told.content,
      told.content]
    · exact reported kind
    · intro key first second
      rw [told.content]
      exact fair.silent kind first second

/-- A thought, a greeting around a tool call and the finish reason. -/
def greetingFrames : List ChatFrame :=
  let object (members : List (String × WireJson)) : WireJson :=
    .object (wireObject (members.map fun member => (member.1, some member.2)))
  let choice (members : List (String × WireJson)) : ChatFrame :=
    .chunk (wireObject [("choices", some (.array [object members]))])
  let delta (key : String) (value : WireJson) : ChatFrame :=
    choice [("delta", object [(key, value)])]
  let call := object [("name", .string (js "wave")), ("arguments", .string (js "\x7b\x7d"))]
  [delta "reasoning_content" (.string (js "Hm")),
    delta "content" (.string (js "Hi")),
    delta "tool_calls" (.array [object [("index", wireNumber 0), ("id", .string (js "call")),
      ("function", call)]]),
    delta "content" (.string (js " there")),
    choice [("finish_reason", .string (js "tool_calls"))],
    .done]

theorem told_decodeChatStream_greeting :
    ∃ last : ConversionState (MessagesEmitter Unit),
      (convertEvents (streamEmitter (plainContext .chat)) (plainContext .chat)
        .messages (.new (plainContext .chat) ()) (decodeChatStream 4096 greetingFrames)).outcome =
          .ok last ∧
      ∃ before, ∃ terminal : TerminalEvent, ∃ tracks, MessagesEmitter.Told before tracks ∧
        MessagesEmitter.Answered (plainContext .chat) terminal.status last.ledger
          last.emitter.base.created last.emitter.streamedContent tracks ∧
        ∀ kind, wholeText tracks kind = chatSays kind [] greetingFrames := by
  have accepted : (convertEvents (streamEmitter (plainContext .chat))
      (plainContext .chat) .messages (.new (plainContext .chat) ())
      (decodeChatStream 4096 greetingFrames)).outcome.isOk = true := by
    decide +kernel
  cases returned : (convertEvents (streamEmitter (plainContext .chat))
      (plainContext .chat) .messages (.new (plainContext .chat) ())
      (decodeChatStream 4096 greetingFrames)).outcome with
  | error error =>
    rw [returned] at accepted
    cases accepted
  | ok last =>
    obtain ⟨before, terminal, -, -, tracks, -, -, -, told, answered, whole⟩ :=
      told_decodeChatStream rfl returned
    exact ⟨last, rfl, before, terminal, tracks, told, answered, whole⟩

example : chatSays .text [] greetingFrames = js "Hi there" := by decide

end GhcGateway.Conversion
