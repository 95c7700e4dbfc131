/-
# The end of a Messages stream

`finish` closes what is open, compares what has been written with the items of the
ledger and writes the rest. `Finishing` is the state in between: nothing is open,
and the content parts gone through have been shown whole.
-/

import GhcGateway.Conversion.MessagesSteps

namespace GhcGateway.Conversion

open Library Transcript SemanticItemLedger

variable {key : StreamKey} {tool : MessagesTool}

/-- What a client has to know of a tool call. -/
def ToolState.block (state : ToolState) : MessagesBlock :=
  .toolUse state.callId state.name state.argumentsJson

/-- The emitter has the tool calls of the ledger, whether they are done or not. -/
def ShownTools (ledger : SemanticItemLedger) (tools : OrderedMap StreamKey MessagesTool) : Prop :=
  ∀ key, Option.Rel (fun (state : ToolState) (tool : MessagesTool) => tool.block = state.block)
    (ledger.tools.get key) (tools.get key)

variable {ledger : SemanticItemLedger} {tools : OrderedMap StreamKey MessagesTool}

theorem SameTools.shown (same : SameTools ledger tools) : ShownTools ledger tools := by
  intro key
  have related := same key
  generalize ledger.tools.get key = state at related ⊢
  generalize tools.get key = tool at related ⊢
  cases related with
  | none => exact .none
  | some sameTool =>
    refine .some ?_
    rw [MessagesTool.block, ToolState.block, sameTool.callId, sameTool.name,
      sameTool.argumentsJson]

/-- A tool call is changed in what its block does not show. -/
theorem ShownTools.set (shown : ShownTools ledger tools) {changed : MessagesTool}
    (found : tools.get key = some tool) (same : changed.block = tool.block) :
    ShownTools ledger (tools.set key changed) := by
  intro other
  rw [OrderedMap.get_set]
  by_cases eq : key = other
  · subst eq
    have related := shown key
    rw [found] at related
    rw [if_pos rfl]
    cases there : ledger.tools.get key with
    | none =>
      rw [there] at related
      cases related
    | some state =>
      rw [there] at related
      cases related with
      | some block => exact .some (same.trans block)
  · rw [if_neg eq]
    exact shown other

/-- At the end, a carrier holds the state of the item it stands for, if the stream
converted is a Responses stream. -/
def lastCarriers {κ : Type} (context : StreamConversionContext κ) : CarrierFit :=
  fun item input => context.source = .responses → item.opaqueState = some input.opaqueState

namespace MessagesEmitter

variable {κ : Type} {context : StreamConversionContext κ} {allowed : CarrierFit}
  {emitter next : MessagesEmitter κ} {tracks : List MessagesTrack} {oneAtATime : Bool}
  {fits : StreamKey → MessagesBlock → Prop} {extra : ContentKind → StreamKey → JsString}

/-! ## Closing the tool calls -/

def ClosedTool (emitter : MessagesEmitter κ) (key : StreamKey) : Prop :=
  ∀ tool, emitter.tools.get key = some tool → tool.streamIndex ≠ none → tool.closed = true

/-- How closing a tool call changes the emitter. -/
theorem closeTool_eq (emitter : MessagesEmitter κ) (key : StreamKey) :
    emitter.closeTool key = emitter ∨ ∃ tool index emitted, emitter.tools.get key = some tool ∧
      tool.streamIndex = some index ∧ emitter.closeTool key = { emitter with
        base := { emitter.base with emitted := emitted }
        tools := emitter.tools.set key { tool with closed := true } } := by
  rw [closeTool]
  split
  · next tool found =>
    split
    · next index streamed =>
      split
      · exact .inl rfl
      · rw [lines_eq]
        exact .inr ⟨tool, index, _, found, streamed, rfl⟩
    · exact .inl rfl
  · exact .inl rfl

theorem closedTool_closeTool (emitter : MessagesEmitter κ) (key : StreamKey) :
    ClosedTool (emitter.closeTool key) key := by
  intro closed found streamed
  rw [closeTool] at found
  split at found
  · next tool isTool =>
    split at found
    · next index atIndex =>
      split at found
      · next isClosed =>
        rw [isTool, Option.some.injEq] at found
        rw [← found]
        exact isClosed
      · rw [OrderedMap.get_set_self, Option.some.injEq] at found
        rw [← found]
    · next none_ =>
      rw [isTool, Option.some.injEq] at found
      rw [found] at none_
      exact absurd none_ streamed
  · next absent =>
    rw [absent] at found
    cases found

/-- What closing tool calls leaves alone. -/
structure SameButTools (emitter next : MessagesEmitter κ) : Prop where
  activeText : next.activeText = emitter.activeText
  streamedContent : next.streamedContent = emitter.streamedContent
  created : next.base.created = emitter.base.created
  kept : ∀ key, (emitter.tools.get key).isSome = (next.tools.get key).isSome
  closed : ∀ key, ClosedTool emitter key → ClosedTool next key
  shown : ∀ ledger, ShownTools ledger emitter.tools → ShownTools ledger next.tools

theorem SameButTools.refl (emitter : MessagesEmitter κ) : SameButTools emitter emitter :=
  ⟨rfl, rfl, rfl, fun _ => rfl, fun _ closed => closed, fun _ shown => shown⟩

theorem SameButTools.trans {first second third : MessagesEmitter κ}
    (one : SameButTools first second) (two : SameButTools second third) :
    SameButTools first third :=
  ⟨two.activeText.trans one.activeText, two.streamedContent.trans one.streamedContent,
    two.created.trans one.created, fun key => (one.kept key).trans (two.kept key),
    fun key closed => two.closed key (one.closed key closed),
    fun ledger shown => two.shown ledger (one.shown ledger shown)⟩

theorem sameButTools_closeTool (emitter : MessagesEmitter κ) (key : StreamKey) :
    SameButTools emitter (emitter.closeTool key) := by
  rcases closeTool_eq emitter key with same | ⟨tool, index, emitted, found, streamed, eq⟩
  · rw [same]
    exact .refl emitter
  · refine ⟨by rw [eq], by rw [eq], by rw [eq], fun other => ?_, fun other closed => ?_,
      fun ledger shown => ?_⟩
    · rw [eq]
      show _ = (OrderedMap.get (OrderedMap.set _ _ _) _).isSome
      rw [OrderedMap.get_set]
      split
      · next same =>
        rw [← same, found]
        rfl
      · rfl
    · by_cases same : key = other
      · subst same
        exact closedTool_closeTool emitter key
      · rw [eq]
        intro state isTool
        refine closed state ?_
        rw [← isTool]
        exact (OrderedMap.get_set_of_ne same _ _).symm
    · rw [eq]
      exact shown.set found rfl

/-- All tool calls are closed. -/
theorem bound_closeOpenTools (bound : Bound fits extra emitter tracks) :
    (∃ after, Advances oneAtATime emitter tracks emitter.closeOpenTools after ∧
      Bound fits extra emitter.closeOpenTools after) ∧
    SameButTools emitter emitter.closeOpenTools ∧ NoOpenTool emitter.closeOpenTools := by
  have closing : ∀ (keys : List StreamKey) {current : MessagesEmitter κ}
      {tracks : List MessagesTrack}, Bound fits extra current tracks →
      (∃ after, Advances oneAtATime current tracks (keys.foldl closeTool current) after ∧
        Bound fits extra (keys.foldl closeTool current) after) ∧
      SameButTools current (keys.foldl closeTool current) ∧
      ∀ key ∈ keys, ClosedTool (keys.foldl closeTool current) key := by
    intro keys
    induction keys with
    | nil =>
      intro current tracks bound
      refine ⟨⟨tracks, .refl current tracks, bound⟩, .refl current, fun key member => ?_⟩
      cases member
    | cons key rest ih =>
      intro current tracks bound
      obtain ⟨middle, advances, boundMiddle⟩ : ∃ middle,
          Advances oneAtATime current tracks (current.closeTool key) middle ∧ _ :=
        bound_closeTool bound key
      obtain ⟨⟨after, more, boundAfter⟩, same, closed⟩ := ih boundMiddle
      refine ⟨⟨after, advances.trans more, boundAfter⟩,
        (sameButTools_closeTool current key).trans same, fun other member => ?_⟩
      rcases List.mem_cons.mp member with rfl | later
      · exact same.closed other (closedTool_closeTool current other)
      · exact closed other later
  obtain ⟨goes, same, closed⟩ := closing emitter.tools.keys bound
  refine ⟨goes, same, fun key tool found streamed => ?_⟩
  refine closed key ?_ tool found streamed
  rw [← OrderedMap.has_iff, OrderedMap.has, same.kept]
  exact Option.isSome_of_mem found

/-- There is nothing to close. -/
theorem closeOpenTools_of_quiet (quiet : NoOpenTool emitter) :
    emitter.closeOpenTools = emitter := by
  have still : ∀ key, emitter.closeTool key = emitter := by
    intro key
    rw [closeTool]
    split
    · next tool found =>
      split
      · next index streamed =>
        rw [if_pos (quiet key tool found (by rw [streamed]; exact Option.some_ne_none _))]
      · rfl
    · rfl
  rw [closeOpenTools]
  induction emitter.tools.keys with
  | nil => rfl
  | cons key rest ih => rw [List.foldl_cons, still, ih]

/-! ## Writing the rest -/

/-- The emitter between two items of `emitBufferedItems`: `parts` are the content
parts gone through. -/
structure Finishing (context : StreamConversionContext κ) (ledger : SemanticItemLedger)
    (streamedContent : OrderedMap StreamKey StreamedContent)
    (parts : List (StreamKey × SemanticContent)) (emitter : MessagesEmitter κ)
    (tracks : List MessagesTrack) (extra : ContentKind → StreamKey → JsString) : Prop where
  bound : Bound (Fits (lastCarriers context) ledger emitter.base.created) extra emitter tracks
  noText : emitter.activeText = none
  noTool : NoOpenTool emitter
  shown : ShownTools ledger emitter.tools
  streamed : emitter.streamedContent = streamedContent
  written : ∀ key kind text, (key, (⟨kind, text⟩ : SemanticContent)) ∈ parts →
    streamedValue streamedContent key kind ++ extra kind key = text
  unwritten : ∀ key kind, (∀ text, (key, (⟨kind, text⟩ : SemanticContent)) ∉ parts) →
    extra kind key = []

/-- The blocks at a point of the end: the parts gone through are shown whole, and of the
others what had been streamed. -/
structure Half (streamedContent : OrderedMap StreamKey StreamedContent)
    (parts : List (StreamKey × SemanticContent)) (tracks : List MessagesTrack) : Prop where
  whole : ∀ key kind text, (key, (⟨kind, text⟩ : SemanticContent)) ∈ parts →
    shownText tracks kind key = text
  streamed : ∀ key kind, (∀ text, (key, (⟨kind, text⟩ : SemanticContent)) ∉ parts) →
    shownText tracks kind key = streamedValue streamedContent key kind

theorem Finishing.half {ledger : SemanticItemLedger}
    {streamedContent : OrderedMap StreamKey StreamedContent}
    {parts : List (StreamKey × SemanticContent)}
    (finishing : Finishing context ledger streamedContent parts emitter tracks extra) :
    Half streamedContent parts tracks := by
  refine ⟨fun key kind text member => ?_, fun key kind absent => ?_⟩
  · rw [finishing.bound.content, finishing.streamed]
    exact finishing.written key kind text member
  · rw [finishing.bound.content, finishing.streamed, finishing.unwritten key kind absent,
      List.append_nil]

/-- The items have been gone through one after the other: wherever they are cut, so are
the blocks. -/
def Staged (streamedContent : OrderedMap StreamKey StreamedContent)
    (items : List (SemanticResponseItem StreamKey)) (tracks : List MessagesTrack) : Prop :=
  ∀ earlier later, items = earlier ++ later → ∃ half rest, tracks = half ++ rest ∧
    Half streamedContent (earlier.flatMap itemParts) half

theorem Staged.concat {streamedContent : OrderedMap StreamKey StreamedContent}
    {items : List (SemanticResponseItem StreamKey)} {after : List MessagesTrack}
    {item : SemanticResponseItem StreamKey} (staged : Staged streamedContent items tracks)
    (kept : tracks <+: after)
    (half : Half streamedContent ((items ++ [item]).flatMap itemParts) after) :
    Staged streamedContent (items ++ [item]) after := by
  intro earlier later whole
  rcases List.eq_nil_or_concat later with rfl | ⟨before, last, rfl⟩
  · rw [List.append_nil] at whole
    exact ⟨after, [], (List.append_nil _).symm, whole ▸ half⟩
  · rw [List.concat_eq_append, ← List.append_assoc] at whole
    obtain ⟨same, -⟩ := List.append_inj' whole rfl
    obtain ⟨shown, rest, rfl, halfway⟩ := staged earlier before same
    obtain ⟨more, rfl⟩ := kept
    exact ⟨shown, rest ++ more, List.append_assoc .., halfway⟩

/-- Work between two items: it writes lines, and what had been written before stays
written. -/
structure Rests (context : StreamConversionContext κ) (ledger : SemanticItemLedger)
    (streamedContent : OrderedMap StreamKey StreamedContent)
    (parts : List (StreamKey × SemanticContent)) (emitter : MessagesEmitter κ)
    (tracks : List MessagesTrack) (next : MessagesEmitter κ) : Prop where
  goes : ∃ after extra, Advances (oneBlockAtATime context) emitter tracks next after ∧
    Finishing context ledger streamedContent parts next after extra
  tools : ∀ key ∈ emitter.emittedResponseTools, key ∈ next.emittedResponseTools
  reasoning : ∀ key ∈ emitter.emittedReasoning, key ∈ next.emittedReasoning

variable {ledger : SemanticItemLedger} {streamedContent : OrderedMap StreamKey StreamedContent}
  {parts more : List (StreamKey × SemanticContent)}

theorem Finishing.rests (finishing : Finishing context ledger streamedContent parts emitter tracks
    extra) : Rests context ledger streamedContent parts emitter tracks emitter :=
  ⟨⟨tracks, extra, .refl emitter tracks, finishing⟩, fun _ member => member,
    fun _ member => member⟩

/-- Work that follows other work. -/
theorem Rests.ensures {middle : MessagesEmitter κ} {computation : Fallible (MessagesEmitter κ)}
    {also : MessagesEmitter κ → Prop}
    (first : Rests context ledger streamedContent parts emitter tracks middle)
    (second : ∀ blocks extra, Finishing context ledger streamedContent parts middle blocks extra →
      Ensures computation fun next =>
        Rests context ledger streamedContent more middle blocks next ∧ also next) :
    Ensures computation fun next =>
      Rests context ledger streamedContent more emitter tracks next ∧ also next := by
  obtain ⟨⟨blocks, extra, advances, finishing⟩, tools, reasoning⟩ := first
  refine (second blocks extra finishing).mono ?_
  rintro next ⟨⟨⟨after, final, onward, finished⟩, moreTools, moreReasoning⟩, alsoNext⟩
  exact ⟨⟨⟨after, final, advances.trans onward, finished⟩,
    fun key member => moreTools key (tools key member),
    fun key member => moreReasoning key (reasoning key member)⟩, alsoNext⟩

/-- The rest of a part that has not been gone through. -/
theorem rests_emitRemaining (finishing : Finishing context ledger streamedContent parts emitter
    tracks extra) {part : SemanticContent}
    (new : ∀ text, (key, (⟨part.kind, text⟩ : SemanticContent)) ∉ parts) :
    Ensures (emitter.emitRemaining key part) fun next =>
      Rests context ledger streamedContent (parts ++ [(key, part)]) emitter tracks next := by
  obtain ⟨kind, text⟩ := part
  dsimp only at new
  have nothing : extra kind key = [] := finishing.unwritten key kind new
  rw [emitRemaining, finishing.streamed]
  dsimp only
  refine ensures_require.bind fun _ starts => ?_
  obtain ⟨remaining, rfl⟩ := starts
  have others : ∀ otherKey otherKind otherText,
      (otherKey, (⟨otherKind, otherText⟩ : SemanticContent)) ∈ parts →
      ¬ (key = otherKey ∧ kind = otherKind) := by
    rintro otherKey otherKind otherText member ⟨rfl, rfl⟩
    exact new otherText member
  refine ensures_ite (fun empty => ensures_pure ?_) fun some_ => ensures_pure ?_
  · rw [List.drop_left] at empty
    subst empty
    refine Finishing.rests { finishing with written := ?_, unwritten := ?_ }
    · intro otherKey otherKind otherText member
      rcases List.mem_append.mp member with old | own
      · exact finishing.written otherKey otherKind otherText old
      · cases List.mem_singleton.mp own
        rw [nothing]
    · exact fun otherKey otherKind absent => finishing.unwritten otherKey otherKind
        fun otherText member => absent otherText (List.mem_append_left _ member)
  · rw [List.drop_left, lines_eq]
    have closed := finishing.bound.allClosed finishing.noText finishing.noTool
    have whole : Leads MessagesBlock.extend (oneBlockAtATime context) _ _ _ :=
      leads_whole (.content kind key) true
      (show [MessagesDelta.text remaining].foldlM MessagesBlock.extend (.text []) =
        some (.text remaining) from rfl) fun _ => closed
    refine ⟨⟨_, _, ⟨_, ?_, whole⟩,
      finishing.bound.addRemaining finishing.noText kind key remaining _,
      finishing.noText, finishing.noTool, finishing.shown, finishing.streamed, ?_, ?_⟩,
      fun _ member => member, fun _ member => member⟩
    · have wired := wired_lines emitter [.start emitter.nextIndex (.text []),
        .change emitter.nextIndex (.text remaining), .stop emitter.nextIndex]
      rw [lines_eq] at wired
      rw [← finishing.bound.count]
      exact wired
    · intro otherKey otherKind otherText member
      rw [withExtra]
      rcases List.mem_append.mp member with old | own
      · rw [if_neg (others otherKey otherKind otherText old), List.append_nil]
        exact finishing.written otherKey otherKind otherText old
      · cases List.mem_singleton.mp own
        rw [if_pos ⟨rfl, rfl⟩, nothing, List.nil_append]
    · intro otherKey otherKind absent
      rw [withExtra, if_neg]
      · rw [List.append_nil]
        exact finishing.unwritten otherKey otherKind fun otherText member =>
          absent otherText (List.mem_append_left _ member)
      · rintro ⟨rfl, rfl⟩
        exact absent _ (List.mem_append_right _ List.mem_cons_self)

/-- The parts of a message. -/
theorem rests_emitParts (finishing : Finishing context ledger streamedContent parts emitter tracks
    extra) (entries : List (StreamKey × SemanticContent))
    (distinct : ((parts ++ entries).map fun entry => (entry.1, entry.2.kind)).Nodup) :
    Ensures (entries.foldlM (fun emitter part => emitter.emitRemaining part.1 part.2) emitter)
      fun next => Rests context ledger streamedContent (parts ++ entries) emitter tracks next ∧
        True := by
  induction entries generalizing emitter tracks extra parts with
  | nil =>
    rw [List.append_nil]
    exact ensures_pure ⟨finishing.rests, trivial⟩
  | cons entry rest ih =>
    rw [List.foldlM_cons]
    have new : ∀ text, (entry.1, (⟨entry.2.kind, text⟩ : SemanticContent)) ∉ parts := by
      intro text member
      rw [List.map_append, List.nodup_append] at distinct
      exact distinct.2.2 _ (List.mem_map.mpr ⟨_, member, rfl⟩) _
        (List.mem_map.mpr ⟨entry, List.mem_cons_self, rfl⟩) rfl
    refine (rests_emitRemaining finishing new).bind fun middle rests => rests.ensures ?_
    intro blocks extra finishingMiddle
    have whole : parts ++ entry :: rest = parts ++ [entry] ++ rest := by
      rw [List.append_assoc, List.singleton_append]
    rw [whole] at distinct ⊢
    exact ih finishingMiddle distinct

/-- A reasoning item of the ledger. -/
theorem rests_emitReasoning (finishing : Finishing context ledger streamedContent parts emitter
    tracks extra) {item : SemanticReasoningItem StreamKey}
    (there : ledger.reasoningAt item.key = some (true, item)) (allowCarrier : Bool) :
    Ensures (emitter.emitReasoning context item allowCarrier) fun next =>
      Rests context ledger streamedContent parts emitter tracks next ∧
      (item.messagesState ≠ none ∨ writesCarrier context item allowCarrier = true →
        item.key ∈ next.emittedReasoning) := by
  refine (thought_emitReasoning (oneBlockAtATime context) finishing.bound (fun _ =>
    finishing.noTool)
    (fun made block shows_ => ⟨item, there, shows_⟩) allowCarrier
    (fun _ input opaqueState _ => opaqueState)).mono ?_
  rintro next ⟨⟨⟨after, advances, bound⟩, rest, noText, kept⟩, member⟩
  refine ⟨⟨⟨after, extra, advances, bound, noText finishing.noText,
    finishing.noTool.congr rest.tools, ?_, rest.streamedContent.trans finishing.streamed,
    finishing.written, finishing.unwritten⟩, ?_, kept⟩, member⟩
  · rw [rest.tools]
    exact finishing.shown
  · rw [rest.emittedResponseTools]
    exact fun _ member => member

/-- A tool call that has not been written is written and closed. -/
theorem rests_emitTool (finishing : Finishing context ledger streamedContent parts emitter tracks
    extra) (found : emitter.tools.get key = some tool)
    (absent : key ∉ emitter.emittedResponseTools) :
    Rests context ledger streamedContent parts emitter tracks (emitter.emitTool key tool true) ∧
      key ∈ (emitter.emitTool key tool true).emittedResponseTools := by
  have own := finishing.bound.tool key tool found
  have notYet : tool.streamIndex = none := by
    cases streamed : tool.streamIndex with
    | none => rfl
    | some index =>
      rw [ToolBound, streamed] at own
      exact absurd own.1 absent
  rw [ToolBound, notYet] at own
  obtain ⟨after, advances, bound⟩ : ∃ after, Advances (oneBlockAtATime context) emitter tracks
      (emitter.emitTool key tool true) after ∧ _ :=
    bound_emitTool finishing.bound (fun _ => finishing.noTool) found true
  obtain ⟨emitted, eq⟩ := emitTool_eq emitter key notYet own.1 true
  rw [eq] at bound advances ⊢
  refine ⟨⟨⟨after, extra, advances, bound, rfl, ?_, finishing.shown.set found rfl,
    finishing.streamed, finishing.written, finishing.unwritten⟩,
    fun other member => mem_addTo.mpr (.inl member), fun other member => member⟩,
    mem_addTo.mpr (.inr rfl)⟩
  intro other state isTool streamed
  rw [OrderedMap.get_set] at isTool
  split at isTool
  · cases isTool
    exact Bool.or_true _
  · exact finishing.noTool other state isTool streamed

/-- What `emitBufferedItems` has written of the items gone through. -/
structure Gone (context : StreamConversionContext κ) (allowCarriers : Bool)
    (visited : List (SemanticResponseItem StreamKey)) (next : MessagesEmitter κ) : Prop where
  tools : ∀ item, .toolCall item ∈ visited → item.key ∈ next.emittedResponseTools
  reasoning : ∀ item, .reasoning item ∈ visited →
    item.messagesState ≠ none ∨ writesCarrier context item allowCarriers = true →
    item.key ∈ next.emittedReasoning

theorem rests_emitBufferedItem {visited : List (SemanticResponseItem StreamKey)}
    {item : SemanticResponseItem StreamKey} {allowCarriers : Bool}
    (finishing : Finishing context ledger streamedContent (visited.flatMap itemParts) emitter tracks
      extra) (gone : Gone context allowCarriers visited emitter)
    (there : ∀ reasoning, item = .reasoning reasoning →
      ledger.reasoningAt reasoning.key = some (true, reasoning))
    (distinct : (((visited ++ [item]).flatMap itemParts).map
      fun entry => (entry.1, entry.2.kind)).Nodup) :
    Ensures (emitter.emitBufferedItem context allowCarriers item) fun next =>
      Rests context ledger streamedContent ((visited ++ [item]).flatMap itemParts) emitter tracks
        next ∧ Gone context allowCarriers (visited ++ [item]) next := by
  rw [List.flatMap_append, List.flatMap_singleton] at distinct ⊢
  have goneOn : ∀ {next : MessagesEmitter κ}, (∀ key ∈ emitter.emittedResponseTools,
      key ∈ next.emittedResponseTools) → (∀ key ∈ emitter.emittedReasoning,
      key ∈ next.emittedReasoning) → (∀ call, item = .toolCall call →
      call.key ∈ next.emittedResponseTools) → (∀ reasoning, item = .reasoning reasoning →
      reasoning.messagesState ≠ none ∨ writesCarrier context reasoning allowCarriers = true →
      reasoning.key ∈ next.emittedReasoning) →
        Gone context allowCarriers (visited ++ [item]) next := by
    intro next tools reasoning call thought
    constructor
    · intro other member
      rcases List.mem_append.mp member with old | own
      · exact tools _ (gone.tools other old)
      · exact call other (List.mem_singleton.mp own).symm
    · intro other member writes
      rcases List.mem_append.mp member with old | own
      · exact reasoning _ (gone.reasoning other old writes)
      · exact thought other (List.mem_singleton.mp own).symm writes
  cases item with
  | message key contentKeys content =>
    refine (rests_emitParts finishing _ distinct).mono ?_
    rintro next ⟨rests, -⟩
    exact ⟨rests, goneOn rests.tools rests.reasoning (by rintro _ ⟨⟩) (by rintro _ ⟨⟩)⟩
  | reasoning reasoning =>
    rw [emitBufferedItem, show itemParts (.reasoning reasoning) = [] from rfl, List.append_nil]
    refine ensures_ite (fun _ => ?_) fun skipped => ?_
    · refine (rests_emitReasoning finishing (there reasoning rfl) allowCarriers).mono ?_
      rintro next ⟨rests, member⟩
      refine ⟨rests, goneOn rests.tools rests.reasoning (by rintro _ ⟨⟩) ?_⟩
      rintro other ⟨⟩
      exact member
    · refine ensures_ok ⟨finishing.rests, goneOn (fun _ member => member) (fun _ member => member)
        (by rintro _ ⟨⟩) ?_⟩
      rintro other ⟨⟩ (has | carries)
      · exact absurd (.inl (Option.isSome_iff_ne_none.mpr has)) skipped
      · rw [writesCarrier, Bool.and_eq_true, Bool.and_eq_true] at carries
        exact absurd (.inr carries.2) skipped
  | toolCall call =>
    rw [emitBufferedItem, show itemParts (.toolCall call) = [] from rfl, List.append_nil]
    refine ensures_required.bind fun tool found => ensures_pure ?_
    split
    · next member =>
      refine ⟨finishing.rests, goneOn (fun _ member => member) (fun _ member => member) ?_
        (by rintro _ ⟨⟩)⟩
      rintro other ⟨⟩
      exact member
    · next absent =>
      obtain ⟨rests, member⟩ := rests_emitTool finishing found absent
      refine ⟨rests, goneOn rests.tools rests.reasoning ?_ (by rintro _ ⟨⟩)⟩
      rintro other ⟨⟩
      exact member

/-- All items, one after the other. -/
theorem rests_emitBufferedItems (finishing : Finishing context ledger streamedContent [] emitter
    tracks extra) (items : List (SemanticResponseItem StreamKey)) (allowCarriers : Bool)
    (there : ∀ reasoning, .reasoning reasoning ∈ items →
      ledger.reasoningAt reasoning.key = some (true, reasoning))
    (distinct : ((items.flatMap itemParts).map fun entry => (entry.1, entry.2.kind)).Nodup) :
    Ensures (emitter.emitBufferedItems context items allowCarriers) fun next =>
      ∃ after extra, Advances (oneBlockAtATime context) emitter tracks next after ∧
        Finishing context ledger streamedContent (items.flatMap itemParts) next after extra ∧
        Staged streamedContent items after ∧ Gone context allowCarriers items next := by
  rw [emitBufferedItems]
  refine ensures_foldlM_visited (fun visited next =>
    ∃ after extra, Advances (oneBlockAtATime context) emitter tracks next after ∧
      Finishing context ledger streamedContent (visited.flatMap itemParts) next after extra ∧
      Staged streamedContent visited after ∧ Gone context allowCarriers visited next) ?_
    ⟨tracks, extra, .refl emitter tracks, finishing, ?_, ⟨by rintro _ ⟨⟩, by rintro _ ⟨⟩⟩⟩
  · rintro visited current item rest whole ⟨blocks, extra, advances, here, staged, gone⟩
    refine (rests_emitBufferedItem here gone ?_ ?_).mono ?_
    · rintro reasoning rfl
      refine there reasoning ?_
      rw [whole]
      exact List.mem_append_right _ List.mem_cons_self
    · rw [whole, ← List.singleton_append, ← List.append_assoc, List.flatMap_append,
        List.map_append] at distinct
      exact (List.nodup_append.mp distinct).1
    · rintro next ⟨⟨⟨after, final, onward, finished⟩, -, -⟩, goneOn⟩
      have kept : blocks <+: after := onward.elim fun lines both =>
        both.2.isPrefix (here.bound.allClosed here.noText here.noTool)
      exact ⟨after, final, advances.trans onward, finished, staged.concat kept finished.half,
        goneOn⟩
  · intro earlier later whole
    obtain ⟨rfl, -⟩ := List.append_eq_nil_iff.mp whole.symm
    exact ⟨tracks, [], (List.append_nil _).symm, finishing.half⟩

end MessagesEmitter

end GhcGateway.Conversion
