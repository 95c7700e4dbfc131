/-
# The transcript of the Messages emitter

Every content block the emitter writes belongs to the text of a kind under a key,
to a tool call or to a reasoning item. `Bound` relates the state of the emitter to
the blocks a client has read: which block text goes to, which tool calls have a
block and whether it is open, what text has been shown. `Advances` fits that a
piece of work writes lines that lead a client from the blocks before it to the
blocks after it.

A client that reads one block at a time follows as well, as long as no tool call
is open when a block starts.
-/

import GhcGateway.Conversion.MessagesEmitter

namespace GhcGateway.Conversion

open Library Transcript

/-- The block of a tool call, as far as its arguments have come. -/
def MessagesTool.block (tool : MessagesTool) : MessagesBlock :=
  .toolUse tool.callId tool.name tool.argumentsJson

inductive BlockOwner
  | content (kind : ContentKind) (key : StreamKey)
  | tool (key : StreamKey)
  | reasoning (key : StreamKey)
  deriving DecidableEq

abbrev MessagesTrack := Track BlockOwner MessagesBlock

def shownText (tracks : List MessagesTrack) (kind : ContentKind) (key : StreamKey) : JsString :=
  ((Track.valuesOf tracks (.content kind key)).map MessagesBlock.shownText).flatten

namespace MessagesEmitter

open OrderedMap

variable {κ : Type} {context : StreamConversionContext κ} {emitter next : MessagesEmitter κ}
  {oneAtATime : Bool} {fits : StreamKey → MessagesBlock → Prop}
  {extra : ContentKind → StreamKey → JsString} {tracks : List MessagesTrack}
  {tool : MessagesTool} {key : StreamKey} {track other : MessagesTrack} {active : ActiveText}
  {after : List MessagesTrack} {kind : ContentKind} {index number : Nat} {shown : JsString}

/-! ## Writing lines -/

def wired (emitter : MessagesEmitter κ) : List MessagesEvent :=
  emitter.base.emitted.filterMap Emission.wire?

/-- Lines change nothing but what has been emitted. -/
theorem lines_eq (emitter : MessagesEmitter κ) (lines : List MessagesLine) :
    emitter.lines lines = { emitter with
      base := { emitter.base with
        emitted := emitter.base.emitted ++ lines.map fun line => .wire (.block line) } } := by
  induction lines generalizing emitter with
  | nil => simp [MessagesEmitter.lines]
  | cons line rest ih =>
    rw [MessagesEmitter.lines, List.foldl_cons]
    refine (ih _).trans ?_
    simp [event, emit, EmitterBase.emit]

theorem wired_lines (emitter : MessagesEmitter κ) (lines : List MessagesLine) :
    (emitter.lines lines).wired = emitter.wired ++ lines.map .block := by
  rw [lines_eq, wired, List.filterMap_append, List.filterMap_map]
  congr 1
  induction lines with
  | nil => rfl
  | cons line rest ih => simpa [Emission.wire?] using ih

/-- A piece of work writes lines that lead from some blocks to others. -/
def Advances (oneAtATime : Bool) (emitter : MessagesEmitter κ) (tracks : List MessagesTrack)
    (next : MessagesEmitter κ) (after : List MessagesTrack) : Prop :=
  ∃ lines, next.wired = emitter.wired ++ lines.map .block ∧
    Leads MessagesBlock.extend oneAtATime lines tracks after

theorem Advances.refl (emitter : MessagesEmitter κ) (tracks : List MessagesTrack) :
    Advances oneAtATime emitter tracks emitter tracks :=
  ⟨[], (List.append_nil _).symm, .refl tracks⟩

/-- Work that writes nothing. -/
theorem Advances.quiet (tracks : List MessagesTrack) (same : next.wired = emitter.wired) :
    Advances oneAtATime emitter tracks next tracks :=
  ⟨[], same.trans (List.append_nil _).symm, .refl tracks⟩

theorem Advances.trans {first second third : MessagesEmitter κ} {before middle : List MessagesTrack}
    (one : Advances oneAtATime first before second middle)
    (two : Advances oneAtATime second middle third after) :
    Advances oneAtATime first before third after := by
  obtain ⟨lines, wiredOne, leadsOne⟩ := one
  obtain ⟨more, wiredTwo, leadsTwo⟩ := two
  refine ⟨lines ++ more, ?_, leadsOne.trans leadsTwo⟩
  rw [wiredTwo, wiredOne, List.map_append, List.append_assoc]

theorem Advances.of_lines {lines : List MessagesLine}
    (written : next.wired = (emitter.lines lines).wired)
    (leads : Leads MessagesBlock.extend oneAtATime lines tracks after) :
    Advances oneAtATime emitter tracks next after :=
  ⟨lines, written.trans (wired_lines emitter lines), leads⟩

/-! ## The state and the blocks -/

/-- How a tool call relates to its block. -/
def ToolBound (emitter : MessagesEmitter κ) (tracks : List MessagesTrack) (key : StreamKey)
    (tool : MessagesTool) : Prop :=
  match tool.streamIndex with
  | none => tool.closed = false ∧ key ∉ emitter.emittedResponseTools ∧
      Track.valuesOf tracks (.tool key) = []
  | some index => key ∈ emitter.emittedResponseTools ∧
      tracks[index]? = some ⟨.tool key, tool.block, !tool.closed⟩ ∧
      Track.valuesOf tracks (.tool key) = [tool.block]

def OpenFor (emitter : MessagesEmitter κ) (index : Nat) : Prop :=
  (∃ active, emitter.activeText = some active ∧ active.index = index) ∨
    ∃ key tool, emitter.tools.get key = some tool ∧ tool.streamIndex = some index ∧
      tool.closed = false

/-- The state of the emitter agrees with the blocks written. `fits` is what a
block must say for the reasoning item of a key, and `extra` is the text that has
been shown without being recorded as streamed. -/
structure Bound (fits : StreamKey → MessagesBlock → Prop)
    (extra : ContentKind → StreamKey → JsString) (emitter : MessagesEmitter κ)
    (tracks : List MessagesTrack) : Prop where
  count : emitter.nextIndex = tracks.length
  active : ∀ active, emitter.activeText = some active → active.index + 1 = tracks.length ∧
    ∃ shown, tracks[active.index]? = some ⟨.content active.kind active.key, .text shown, true⟩
  tool : ∀ key tool, emitter.tools.get key = some tool → ToolBound emitter tracks key tool
  noTool : ∀ key, emitter.tools.get key = none →
    key ∉ emitter.emittedResponseTools ∧ Track.valuesOf tracks (.tool key) = []
  open_ : ∀ index track, tracks[index]? = some track → track.isOpen = true →
    OpenFor emitter index
  content : ∀ kind key, shownText tracks kind key =
    streamedValue emitter.streamedContent key kind ++ extra kind key
  texts : ∀ kind key, ∀ block ∈ Track.valuesOf tracks (.content kind key),
    ∃ shown, block = .text shown
  unwritten : ∀ key, key ∉ emitter.emittedReasoning →
    Track.valuesOf tracks (.reasoning key) = []
  written : ∀ key, key ∈ emitter.emittedReasoning →
    ∃ block, Track.valuesOf tracks (.reasoning key) = [block] ∧ fits key block
  tokens : ∀ key token, emitter.carrierTokens.get key = some token →
    key ∈ emitter.emittedReasoning

def noExtra : ContentKind → StreamKey → JsString := fun _ _ => []

def NoOpenTool (emitter : MessagesEmitter κ) : Prop :=
  ∀ key tool, emitter.tools.get key = some tool → tool.streamIndex ≠ none → tool.closed = true

theorem bound_new (store : κ) : Bound fits noExtra (new context store) [] where
  count := rfl
  active := by
    intro active there
    cases there
  tool := by
    intro key tool there
    cases there
  noTool := fun key _ => ⟨List.not_mem_nil, rfl⟩
  open_ := by
    intro index track there
    cases there
  content := fun _ _ => rfl
  texts := by
    intro kind key block member
    cases member
  unwritten := fun _ _ => rfl
  written := by
    intro key member
    cases member
  tokens := by
    intro key token there
    cases there

/-- The state that `Bound` is about. -/
def view (emitter : MessagesEmitter κ) :
    Nat × Option ActiveText × OrderedMap StreamKey MessagesTool ×
    List StreamKey × OrderedMap StreamKey StreamedContent × List StreamKey ×
    OrderedMap StreamKey JsString :=
  (emitter.nextIndex, emitter.activeText, emitter.tools, emitter.emittedResponseTools,
    emitter.streamedContent, emitter.emittedReasoning, emitter.carrierTokens)

theorem Bound.congr (bound : Bound fits extra emitter tracks) (same : next.view = emitter.view) :
    Bound fits extra next tracks := by
  simp only [view, Prod.mk.injEq] at same
  obtain ⟨nextIndex, activeText, tools, emitted, streamed, reasoning, tokens⟩ := same
  constructor
  · rw [nextIndex]
    exact bound.count
  · rw [activeText]
    exact bound.active
  · intro key tool there
    rw [tools] at there
    have := bound.tool key tool there
    rw [ToolBound] at this ⊢
    rw [emitted]
    exact this
  · rw [tools, emitted]
    exact bound.noTool
  · intro index track there isOpen
    have := bound.open_ index track there isOpen
    rw [OpenFor] at this ⊢
    rw [activeText, tools]
    exact this
  · rw [streamed]
    exact bound.content
  · exact bound.texts
  · rw [reasoning]
    exact bound.unwritten
  · rw [reasoning]
    exact bound.written
  · rw [tokens, reasoning]
    exact bound.tokens

/-- What a block has to fit may be weakened. -/
theorem Bound.mono {other : StreamKey → MessagesBlock → Prop}
    (bound : Bound fits extra emitter tracks) (weaker : ∀ key block, fits key block →
      other key block) :
    Bound other extra emitter tracks where
  count := bound.count
  active := bound.active
  tool := bound.tool
  noTool := bound.noTool
  open_ := bound.open_
  content := bound.content
  texts := bound.texts
  unwritten := bound.unwritten
  written := by
    intro key member
    obtain ⟨block, values, said⟩ := bound.written key member
    exact ⟨block, values, weaker key block said⟩
  tokens := bound.tokens

/-- All blocks are closed when neither text nor a tool call is open. -/
theorem Bound.allClosed (bound : Bound fits extra emitter tracks)
    (noText : emitter.activeText = none) (noTool : NoOpenTool emitter) :
    ∀ track ∈ tracks, track.isOpen = false := by
  intro track member
  obtain ⟨index, there⟩ := List.mem_iff_getElem?.mp member
  cases isOpen : track.isOpen with
  | false => rfl
  | true =>
    rcases bound.open_ index track there isOpen with ⟨active, isActive, -⟩ |
      ⟨key, tool, found, streamed, open_⟩
    · rw [noText] at isActive
      cases isActive
    · have closed := noTool key tool found (by rw [streamed]; exact Option.some_ne_none _)
      rw [open_] at closed
      cases closed

/-! ## Text -/

theorem getElem?_set_self {replaced : MessagesTrack} (there : tracks[number]? = some track) :
    (tracks.set number replaced)[number]? =
      some replaced := by
  obtain ⟨bound, -⟩ := List.getElem?_eq_some_iff.mp there
  rw [List.getElem?_set_self bound]

/-- A block of text is replaced; the tool calls have other blocks. -/
theorem ToolBound.setContent {other : StreamKey} {value changed : MessagesBlock}
    {isOpen stillOpen : Bool} (own : ToolBound emitter tracks key tool)
    (there : tracks[number]? = some ⟨.content kind other, value, isOpen⟩) :
    ToolBound emitter (tracks.set number ⟨.content kind other, changed, stillOpen⟩) key tool := by
  rw [ToolBound] at own ⊢
  have apart : BlockOwner.content kind other ≠ .tool key := by rintro ⟨⟩
  cases streamed : tool.streamIndex with
  | none =>
    rw [streamed] at own
    obtain ⟨closed, notEmitted, values⟩ := own
    exact ⟨closed, notEmitted, (valuesOf_set_of_ne there apart).trans values⟩
  | some index =>
    rw [streamed] at own
    obtain ⟨emitted, at_, values⟩ := own
    refine ⟨emitted, ?_, (valuesOf_set_of_ne there apart).trans values⟩
    rw [List.getElem?_set_ne, at_]
    rintro rfl
    rw [there] at at_
    cases at_

theorem Bound.activeTrack (bound : Bound fits extra emitter tracks)
    (isActive : emitter.activeText = some active) :
    ∃ shown, tracks[active.index]? = some ⟨.content active.kind active.key, .text shown, true⟩ :=
  (bound.active active isActive).2

/-- The blocks after the active text is closed. -/
def closedTracks (emitter : MessagesEmitter κ) (tracks : List MessagesTrack) : List MessagesTrack :=
  match emitter.activeText with
  | none => tracks
  | some active =>
    match tracks[active.index]? with
    | some track => tracks.set active.index { track with isOpen := false }
    | none => tracks

/-- `closeActiveText` changes nothing else. -/
theorem closeActiveText_eq (emitter : MessagesEmitter κ) :
    ∃ emitted, emitter.closeActiveText = { emitter with
      base := { emitter.base with emitted := emitted }
      activeText := none } := by
  rw [closeActiveText]
  split
  · next none_ => exact ⟨emitter.base.emitted, by rw [← none_]⟩
  · exact ⟨_, by rw [lines_eq]⟩

theorem closeActiveText_activeText (emitter : MessagesEmitter κ) :
    emitter.closeActiveText.activeText = none := by
  obtain ⟨emitted, eq⟩ := closeActiveText_eq emitter
  rw [eq]

theorem closedTracks_of_none (noText : emitter.activeText = none) :
    closedTracks emitter tracks = tracks := by
  rw [closedTracks, noText]

theorem closedTracks_of_active (isActive : emitter.activeText = some active)
    (there : tracks[active.index]? =
      some ⟨.content active.kind active.key, .text shown, true⟩) :
    closedTracks emitter tracks =
      tracks.set active.index ⟨.content active.kind active.key, .text shown, false⟩ := by
  rw [closedTracks, isActive]
  simp only [there]

theorem valuesOf_closedTracks (bound : Bound fits extra emitter tracks) (owner : BlockOwner) :
    Track.valuesOf (closedTracks emitter tracks) owner = Track.valuesOf tracks owner := by
  cases isActive : emitter.activeText with
  | none => rw [closedTracks_of_none isActive]
  | some active =>
    obtain ⟨shown, there⟩ := bound.activeTrack isActive
    rw [closedTracks_of_active isActive there]
    exact valuesOf_set_same there owner

theorem advances_closeActiveText (bound : Bound fits extra emitter tracks) :
    Advances oneAtATime emitter tracks emitter.closeActiveText (closedTracks emitter tracks) := by
  cases isActive : emitter.activeText with
  | none =>
    rw [closedTracks_of_none isActive, MessagesEmitter.closeActiveText, isActive]
    exact .refl emitter tracks
  | some active =>
    obtain ⟨shown, there⟩ := bound.activeTrack isActive
    rw [closedTracks_of_active isActive there, MessagesEmitter.closeActiveText, isActive]
    exact .of_lines rfl (leads_stop there)

theorem Bound.closeActiveText (bound : Bound fits extra emitter tracks) :
    Bound fits extra emitter.closeActiveText (closedTracks emitter tracks) := by
  cases isActive : emitter.activeText with
  | none =>
    have same : emitter.closeActiveText =
        emitter := by rw [MessagesEmitter.closeActiveText, isActive]
    rw [same, closedTracks_of_none isActive]
    exact bound
  | some active =>
    have values := valuesOf_closedTracks bound
    obtain ⟨emitted, eq⟩ := closeActiveText_eq emitter
    obtain ⟨shown, there⟩ := bound.activeTrack isActive
    have tracks_eq := closedTracks_of_active isActive there
    rw [eq]
    rw [tracks_eq] at values ⊢
    constructor
    · rw [List.length_set]
      exact bound.count
    · intro other there'
      cases there'
    · intro key tool found
      exact (bound.tool key tool found).setContent there
    · intro key absent
      rw [values]
      exact bound.noTool key absent
    · intro index track at_ isOpen
      by_cases same : active.index = index
      · subst same
        rw [getElem?_set_self there] at at_
        cases at_
        cases isOpen
      · rw [List.getElem?_set_ne same] at at_
        rcases bound.open_ index track at_ isOpen with ⟨other, isOther, own⟩ | tool
        · rw [isActive] at isOther
          cases isOther
          exact absurd own same
        · exact .inr tool
    · intro kind key
      rw [shownText, values]
      exact bound.content kind key
    · intro kind key
      rw [values]
      exact bound.texts kind key
    · intro key
      rw [values]
      exact bound.unwritten key
    · intro key
      rw [values]
      exact bound.written key
    · exact bound.tokens

/-! ### New blocks -/

theorem getElem?_append_one (there : (tracks ++ [track])[index]? = some other) :
    tracks[index]? = some other ∨ index = tracks.length ∧ other = track := by
  rcases Nat.lt_or_ge index tracks.length with below | above
  · rw [List.getElem?_append_left below] at there
    exact .inl there
  · obtain ⟨bound, -⟩ := List.getElem?_eq_some_iff.mp there
    rw [List.length_append, List.length_singleton] at bound
    obtain rfl : index = tracks.length := by omega
    rw [List.getElem?_concat_length, Option.some.injEq] at there
    exact .inr ⟨rfl, there.symm⟩

theorem getElem?_append_of_some (there : tracks[index]? = some other) :
    (tracks ++ [track])[index]? = some other := by
  obtain ⟨bound, -⟩ := List.getElem?_eq_some_iff.mp there
  rw [List.getElem?_append_left bound, there]

theorem valuesOf_append_of_ne {owner : BlockOwner} (apart : track.owner ≠ owner) :
    Track.valuesOf (tracks ++ [track]) owner = Track.valuesOf tracks owner := by
  obtain ⟨other, value, isOpen⟩ := track
  rw [valuesOf_start, if_neg apart, List.append_nil]

/-- A block for something else leaves the tool calls alone. -/
theorem ToolBound.append (own : ToolBound emitter tracks key tool)
    (apart : track.owner ≠ .tool key) : ToolBound emitter (tracks ++ [track]) key tool := by
  rw [ToolBound] at own ⊢
  cases streamed : tool.streamIndex with
  | none =>
    rw [streamed] at own
    exact ⟨own.1, own.2.1, (valuesOf_append_of_ne apart).trans own.2.2⟩
  | some index =>
    rw [streamed] at own
    exact ⟨own.1, getElem?_append_of_some own.2.1, (valuesOf_append_of_ne apart).trans own.2.2⟩

/-- The text shown after a new block. -/
theorem shownText_append (tracks : List MessagesTrack) (owner : BlockOwner) (value : MessagesBlock)
    (isOpen : Bool) (kind : ContentKind) (key : StreamKey) :
    shownText (tracks ++ [⟨owner, value, isOpen⟩]) kind key = shownText tracks kind key ++
      if owner = .content kind key then value.shownText else [] := by
  rw [shownText, valuesOf_start, List.map_append, List.flatten_append]
  congr 1
  split
  · exact List.append_nil _
  · rfl

theorem Bound.startText (bound : Bound fits extra emitter tracks)
    (noText : emitter.activeText = none)
    (kind : ContentKind) (key : StreamKey) :
    Bound fits extra { emitter.lines [.start emitter.nextIndex (.text [])] with
      nextIndex := emitter.nextIndex + 1
      activeText := some ⟨kind, key, emitter.nextIndex⟩ }
      (tracks ++ [⟨.content kind key, .text [], true⟩]) := by
  have apart : ∀ tool, BlockOwner.content kind key ≠ .tool tool := by
    intro tool
    rintro ⟨⟩
  have aside : ∀ item, BlockOwner.content kind key ≠ .reasoning item := by
    intro item
    rintro ⟨⟩
  rw [lines_eq]
  constructor
  · rw [List.length_append, ← bound.count]
    rfl
  · intro active isActive
    cases isActive
    refine ⟨?_, [], ?_⟩
    · rw [List.length_append, ← bound.count]
      rfl
    · rw [bound.count, List.getElem?_concat_length]
  · intro other tool found
    exact (bound.tool other tool found).append (apart other)
  · intro other absent
    rw [valuesOf_append_of_ne (apart other)]
    exact bound.noTool other absent
  · intro index track there isOpen
    rcases getElem?_append_one there with old | ⟨rfl, rfl⟩
    · rcases bound.open_ index track old isOpen with ⟨active, isActive, -⟩ | tool
      · rw [noText] at isActive
        cases isActive
      · exact .inr tool
    · exact .inl ⟨_, rfl, bound.count⟩
  · intro otherKind other
    have nothing : (if BlockOwner.content kind key = .content otherKind other then
        (MessagesBlock.text []).shownText else []) = [] := by split <;> rfl
    rw [shownText_append, nothing, List.append_nil]
    exact bound.content otherKind other
  · intro otherKind other block member
    rw [valuesOf_start, List.mem_append] at member
    rcases member with old | new
    · exact bound.texts otherKind other block old
    · split at new
      · exact ⟨[], List.mem_singleton.mp new⟩
      · cases new
  · intro item
    rw [valuesOf_append_of_ne (aside item)]
    exact bound.unwritten item
  · intro item
    rw [valuesOf_append_of_ne (aside item)]
    exact bound.written item
  · exact bound.tokens

/-- Text is added to the active block and recorded. -/
theorem Bound.extendText (bound : Bound fits extra emitter tracks)
    (isActive : emitter.activeText = some active)
    (there : tracks[active.index]? = some ⟨.content active.kind active.key, .text shown, true⟩)
    (noExtra : extra active.kind active.key = []) (delta : JsString) :
    Bound fits extra { emitter.lines [.change active.index (.text delta)] with
      streamedContent := recordStreamed emitter.streamedContent active.key active.kind delta }
      (tracks.set active.index ⟨.content active.kind active.key, .text (shown ++ delta),
        true⟩) := by
  obtain ⟨earlier, before, after⟩ := @valuesOf_set_last _ _ _ _ _ _ _ (.text (shown ++ delta)) _
    true there (bound.active active isActive).1
  have others : ∀ owner, BlockOwner.content active.kind active.key ≠ owner → Track.valuesOf
      (tracks.set active.index ⟨.content active.kind active.key, .text (shown ++ delta), true⟩)
        owner = Track.valuesOf tracks owner := fun owner => valuesOf_set_of_ne there
  have aside : ∀ item, BlockOwner.content active.kind active.key ≠ .reasoning item := by
    intro item
    rintro ⟨⟩
  rw [lines_eq]
  constructor
  · rw [List.length_set]
    exact bound.count
  · intro other isOther
    cases isActive.symm.trans isOther
    refine ⟨?_, shown ++ delta, getElem?_set_self there⟩
    rw [List.length_set]
    exact (bound.active active isActive).1
  · intro key tool found
    exact (bound.tool key tool found).setContent there
  · intro key absent
    rw [others _ (by rintro ⟨⟩)]
    exact bound.noTool key absent
  · intro index track at_ isOpen
    by_cases same : active.index = index
    · exact .inl ⟨active, isActive, same⟩
    · rw [List.getElem?_set_ne same] at at_
      exact bound.open_ index track at_ isOpen
  · intro kind key
    rw [streamedValue_recordStreamed, List.append_assoc]
    by_cases same : active.key = key ∧ active.kind = kind
    · obtain ⟨rfl, rfl⟩ := same
      have was := bound.content active.kind active.key
      rw [shownText, before, noExtra, List.append_nil] at was
      rw [shownText, after, if_pos ⟨rfl, rfl⟩, noExtra, List.append_nil, ← was]
      simp [MessagesBlock.shownText]
    · have apart : BlockOwner.content active.kind active.key ≠ .content kind key := by
        rintro ⟨⟩
        exact same ⟨rfl, rfl⟩
      rw [shownText, others _ apart, if_neg same, List.nil_append]
      exact bound.content kind key
  · intro kind key block member
    by_cases same : BlockOwner.content active.kind active.key = .content kind key
    · cases same
      rw [after, List.mem_append] at member
      rcases member with old | new
      · exact bound.texts _ _ block (before ▸ List.mem_append_left _ old)
      · exact ⟨_, List.mem_singleton.mp new⟩
    · rw [others _ same] at member
      exact bound.texts kind key block member
  · intro item
    rw [others _ (aside item)]
    exact bound.unwritten item
  · intro item
    rw [others _ (aside item)]
    exact bound.written item
  · exact bound.tokens

theorem NoOpenTool.congr (quiet : NoOpenTool emitter) (same : next.tools = emitter.tools) :
    NoOpenTool next := by
  rw [NoOpenTool, same]
  exact quiet

theorem closeActiveText_tools (emitter : MessagesEmitter κ) :
    emitter.closeActiveText.tools = emitter.tools := by
  obtain ⟨emitted, eq⟩ := closeActiveText_eq emitter
  rw [eq]

theorem closeActiveText_nextIndex (emitter : MessagesEmitter κ) :
    emitter.closeActiveText.nextIndex = emitter.nextIndex := by
  obtain ⟨emitted, eq⟩ := closeActiveText_eq emitter
  rw [eq]

/-- The block text goes to is there and open. -/
theorem bound_openText (bound : Bound fits extra emitter tracks)
    (quiet : oneAtATime = true → NoOpenTool emitter) (kind : ContentKind) (key : StreamKey) :
    ∃ after, Advances oneAtATime emitter tracks (emitter.openText kind key).1 after ∧
      Bound fits extra (emitter.openText kind key).1 after ∧
      (emitter.openText kind key).1.activeText =
        some ⟨kind, key, (emitter.openText kind key).2⟩ := by
  have starting : ∀ {current : MessagesEmitter κ} {tracks : List MessagesTrack},
      Bound fits extra current tracks → current.activeText = none →
      (oneAtATime = true → NoOpenTool current) →
      Advances oneAtATime current tracks { current.lines [.start current.nextIndex (.text [])] with
        nextIndex := current.nextIndex + 1
        activeText := some ⟨kind, key, current.nextIndex⟩ }
        (tracks ++ [⟨.content kind key, .text [], true⟩]) := by
    intro current tracks bound noText quiet
    refine .of_lines rfl ?_
    rw [bound.count]
    exact leads_start _ _ fun strict => bound.allClosed noText (quiet strict)
  rw [openText]
  split
  · next active isActive =>
    split
    · next same =>
      obtain ⟨rfl, rfl⟩ := same
      exact ⟨tracks, .refl emitter tracks, bound, isActive⟩
    · have closed := closeActiveText_activeText emitter
      have boundClosed := bound.closeActiveText
      have writes := starting boundClosed closed fun strict =>
        (quiet strict).congr (closeActiveText_tools emitter)
      exact ⟨_, (advances_closeActiveText bound).trans writes,
        boundClosed.startText closed kind key, rfl⟩
  · next noText =>
    exact ⟨_, starting bound noText quiet, bound.startText noText kind key, rfl⟩

theorem openText_eq (emitter : MessagesEmitter κ) (kind : ContentKind) (key : StreamKey) :
    ∃ emitted nextIndex activeText, (emitter.openText kind key).1 = { emitter with
      base := { emitter.base with emitted := emitted }
      nextIndex := nextIndex
      activeText := activeText } := by
  rw [openText]
  split
  · split
    · exact ⟨emitter.base.emitted, emitter.nextIndex, emitter.activeText, rfl⟩
    · obtain ⟨emitted, eq⟩ := closeActiveText_eq emitter
      simp only [eq, lines_eq]
      exact ⟨_, _, _, rfl⟩
  · rw [lines_eq]
    exact ⟨_, _, _, rfl⟩

/-- Live text is shown and recorded. -/
theorem bound_emitLiveText (bound : Bound fits extra emitter tracks)
    (quiet : oneAtATime = true → NoOpenTool emitter) (noExtra : extra kind key = [])
    (delta : JsString) :
    ∃ after, Advances oneAtATime emitter tracks (emitter.emitLiveText kind key delta) after ∧
      Bound fits extra (emitter.emitLiveText kind key delta) after := by
  obtain ⟨after, advances, boundOpen, isActive⟩ := bound_openText bound quiet kind key
  obtain ⟨shown, there⟩ := boundOpen.activeTrack isActive
  refine ⟨_, advances.trans (.of_lines rfl (leads_change there rfl)), ?_⟩
  exact boundOpen.extendText isActive there noExtra delta

theorem emitLiveText_eq (emitter : MessagesEmitter κ) (kind : ContentKind) (key : StreamKey)
    (delta : JsString) : ∃ emitted nextIndex activeText,
      emitter.emitLiveText kind key delta = { emitter with
        base := { emitter.base with emitted := emitted }
        nextIndex := nextIndex
        activeText := activeText
        streamedContent := recordStreamed emitter.streamedContent key kind delta } := by
  obtain ⟨emitted, nextIndex, activeText, eq⟩ := openText_eq emitter kind key
  rw [emitLiveText]
  simp only [eq, lines_eq]
  exact ⟨_, _, _, rfl⟩

/-! ## Tools -/

/-- A tool call gets its block. -/
theorem Bound.addTool (bound : Bound fits extra emitter tracks) (noText : emitter.activeText = none)
    (found : emitter.tools.get key = some tool) (notYet : tool.streamIndex = none) (closed : Bool)
    (emitted : List (Emission MessagesEvent)) :
    Bound fits extra { emitter with
      base := { emitter.base with emitted := emitted }
      nextIndex := emitter.nextIndex + 1
      emittedResponseTools := addTo emitter.emittedResponseTools key
      tools := emitter.tools.set key { tool with
        streamIndex := some emitter.nextIndex
        closed := closed } }
      (tracks ++ [⟨.tool key, tool.block, !closed⟩]) := by
  have own := bound.tool key tool found
  rw [ToolBound, notYet] at own
  obtain ⟨-, notEmitted, noValues⟩ := own
  have others : ∀ other, key ≠ other → BlockOwner.tool key ≠ .tool other := by
    intro other apart
    rintro ⟨⟩
    exact apart rfl
  constructor
  · rw [List.length_append, ← bound.count]
    rfl
  · intro active isActive
    cases noText.symm.trans isActive
  · intro other state there
    rw [get_set] at there
    by_cases same : key = other
    · subst same
      rw [if_pos rfl, Option.some.injEq] at there
      subst there
      refine ⟨mem_addTo.mpr (.inr rfl), ?_, ?_⟩
      · rw [bound.count, List.getElem?_concat_length]
        rfl
      · rw [valuesOf_start, if_pos rfl, noValues]
        rfl
    · rw [if_neg same] at there
      have kept : ToolBound emitter (tracks ++ [⟨.tool key, tool.block, !closed⟩]) other state :=
        (bound.tool other state there).append (others other same)
      rw [ToolBound] at kept ⊢
      cases streamed : state.streamIndex with
      | none =>
        rw [streamed] at kept
        refine ⟨kept.1, fun member => ?_, kept.2.2⟩
        rcases mem_addTo.mp member with old | eq
        · exact kept.2.1 old
        · exact same eq.symm
      | some index =>
        rw [streamed] at kept
        exact ⟨mem_addTo.mpr (.inl kept.1), kept.2⟩
  · intro other absent
    rw [get_set] at absent
    by_cases same : key = other
    · rw [if_pos same] at absent
      cases absent
    · rw [if_neg same] at absent
      rw [valuesOf_append_of_ne (others other same)]
      refine ⟨fun member => ?_, (bound.noTool other absent).2⟩
      rcases mem_addTo.mp member with old | eq
      · exact (bound.noTool other absent).1 old
      · exact same eq.symm
  · intro index track there isOpen
    rcases getElem?_append_one there with old | ⟨rfl, rfl⟩
    · rcases bound.open_ index track old isOpen with ⟨active, isActive, -⟩ |
        ⟨other, state, isTool, streamed, open_⟩
      · cases noText.symm.trans isActive
      · refine .inr ⟨other, state, ?_, streamed, open_⟩
        rw [get_set_of_ne, isTool]
        rintro rfl
        rw [found, Option.some.injEq] at isTool
        subst isTool
        rw [notYet] at streamed
        cases streamed
    · refine .inr ⟨key, _, get_set_self _ _ _, congrArg some bound.count, ?_⟩
      cases closed with
      | false => rfl
      | true => cases isOpen
  · intro kind other
    rw [shownText_append, if_neg (by rintro ⟨⟩), List.append_nil]
    exact bound.content kind other
  · intro kind other
    rw [valuesOf_append_of_ne (by rintro ⟨⟩)]
    exact bound.texts kind other
  · intro item
    rw [valuesOf_append_of_ne (by rintro ⟨⟩)]
    exact bound.unwritten item
  · intro item
    rw [valuesOf_append_of_ne (by rintro ⟨⟩)]
    exact bound.written item
  · exact bound.tokens

/-- The block of a tool call is changed or closed with it. -/
theorem Bound.setTool (bound : Bound fits extra emitter tracks) {key : StreamKey}
    {tool changed : MessagesTool} (found : emitter.tools.get key = some tool) {index : Nat}
    (streamed : tool.streamIndex = some index) (same : changed.streamIndex = some index)
    (emitted : List (Emission MessagesEvent)) (bufferedBytes : Nat) :
    Bound fits extra { emitter with
      base := { emitter.base with emitted := emitted }
      bufferedBytes := bufferedBytes
      tools := emitter.tools.set key changed }
      (tracks.set index ⟨.tool key, changed.block, !changed.closed⟩) := by
  have own := bound.tool key tool found
  rw [ToolBound, streamed] at own
  obtain ⟨isEmitted, there, values⟩ := own
  have others : ∀ owner, BlockOwner.tool key ≠ owner → Track.valuesOf
      (tracks.set index ⟨.tool key, changed.block, !changed.closed⟩) owner =
        Track.valuesOf tracks owner := fun owner => valuesOf_set_of_ne there
  constructor
  · rw [List.length_set]
    exact bound.count
  · intro active isActive
    obtain ⟨last, shown, at_⟩ := bound.active active isActive
    rw [List.length_set]
    refine ⟨last, shown, ?_⟩
    rw [List.getElem?_set_ne, at_]
    rintro rfl
    rw [there] at at_
    cases at_
  · intro other state isTool
    rw [get_set] at isTool
    by_cases eq : key = other
    · subst eq
      rw [if_pos rfl, Option.some.injEq] at isTool
      subst isTool
      rw [ToolBound, same]
      exact ⟨isEmitted, getElem?_set_self there, valuesOf_set_only there values⟩
    · rw [if_neg eq] at isTool
      have kept := bound.tool other state isTool
      have apart : BlockOwner.tool key ≠ .tool other := by
        rintro ⟨⟩
        exact eq rfl
      rw [ToolBound] at kept ⊢
      cases at_ : state.streamIndex with
      | none =>
        rw [at_] at kept
        exact ⟨kept.1, kept.2.1, (others _ apart).trans kept.2.2⟩
      | some position =>
        rw [at_] at kept
        refine ⟨kept.1, ?_, (others _ apart).trans kept.2.2⟩
        rw [List.getElem?_set_ne, kept.2.1]
        rintro rfl
        have both := there.symm.trans kept.2.1
        rw [Option.some.injEq, Track.mk.injEq] at both
        exact apart both.1
  · intro other absent
    rw [get_set] at absent
    by_cases eq : key = other
    · rw [if_pos eq] at absent
      cases absent
    · rw [if_neg eq] at absent
      rw [others]
      · exact bound.noTool other absent
      · rintro ⟨⟩
        exact eq rfl
  · intro position track at_ isOpen
    by_cases eq : index = position
    · subst eq
      rw [getElem?_set_self there, Option.some.injEq] at at_
      subst at_
      refine .inr ⟨key, changed, get_set_self _ _ _, same, ?_⟩
      simpa using isOpen
    · rw [List.getElem?_set_ne eq] at at_
      rcases bound.open_ position track at_ isOpen with active |
        ⟨other, state, isTool, at_, open_⟩
      · exact .inl active
      · refine .inr ⟨other, state, ?_, at_, open_⟩
        rw [get_set_of_ne, isTool]
        rintro rfl
        rw [found, Option.some.injEq] at isTool
        subst isTool
        rw [streamed, Option.some.injEq] at at_
        exact eq at_
  · intro kind other
    rw [shownText, others _ (by rintro ⟨⟩)]
    exact bound.content kind other
  · intro kind other
    rw [others _ (by rintro ⟨⟩)]
    exact bound.texts kind other
  · intro item
    rw [others _ (by rintro ⟨⟩)]
    exact bound.unwritten item
  · intro item
    rw [others _ (by rintro ⟨⟩)]
    exact bound.written item
  · exact bound.tokens

/-- A tool call without a block. -/
theorem Bound.setQuietTool (bound : Bound fits extra emitter tracks) {changed : MessagesTool}
    (notYet : ∀ tool, emitter.tools.get key = some tool →
      tool.streamIndex = none) (same : changed.streamIndex = none) (open_ : changed.closed = false)
    (bufferedBytes : Nat) (bufferAfterTool : Bool) :
    Bound fits extra { emitter with
      bufferedBytes := bufferedBytes
      bufferAfterTool := bufferAfterTool
      tools := emitter.tools.set key changed } tracks := by
  have quiet : key ∉ emitter.emittedResponseTools ∧ Track.valuesOf tracks (.tool key) = [] := by
    cases found : emitter.tools.get key with
    | none => exact bound.noTool key found
    | some tool =>
      have own := bound.tool key tool found
      rw [ToolBound, notYet tool found] at own
      exact own.2
  constructor
  · exact bound.count
  · exact bound.active
  · intro other state isTool
    rw [get_set] at isTool
    by_cases eq : key = other
    · subst eq
      rw [if_pos rfl, Option.some.injEq] at isTool
      subst isTool
      rw [ToolBound, same]
      exact ⟨open_, quiet⟩
    · rw [if_neg eq] at isTool
      exact bound.tool other state isTool
  · intro other absent
    rw [get_set] at absent
    by_cases eq : key = other
    · rw [if_pos eq] at absent
      cases absent
    · rw [if_neg eq] at absent
      exact bound.noTool other absent
  · intro index track there isOpen
    rcases bound.open_ index track there isOpen with active | ⟨other, state, isTool, at_, still⟩
    · exact .inl active
    · refine .inr ⟨other, state, ?_, at_, still⟩
      rw [get_set_of_ne, isTool]
      rintro rfl
      rw [notYet state isTool] at at_
      cases at_
  · exact bound.content
  · exact bound.texts
  · exact bound.unwritten
  · exact bound.written
  · exact bound.tokens

/-- How `emitTool` changes the emitter for a tool call without a block. -/
theorem emitTool_eq (emitter : MessagesEmitter κ) (key : StreamKey)
    (notYet : tool.streamIndex = none) (open_ : tool.closed = false) (close : Bool) :
    ∃ emitted, emitter.emitTool key tool close = { emitter with
      base := { emitter.base with emitted := emitted }
      activeText := none
      nextIndex := emitter.nextIndex + 1
      emittedResponseTools := addTo emitter.emittedResponseTools key
      tools := emitter.tools.set key { tool with
        streamIndex := some emitter.nextIndex
        closed := tool.done || tool.itemEnded || close } } := by
  obtain ⟨emitted, eq⟩ := closeActiveText_eq emitter
  rw [emitTool, notYet]
  simp only [Option.isSome_none, Bool.false_eq_true, if_false, eq, lines_eq, open_, Bool.not_false,
    Bool.and_true, Bool.false_or]
  exact ⟨_, rfl⟩

/-- A tool call that has a block gets no other. -/
theorem emitTool_of_some (emitter : MessagesEmitter κ) (key : StreamKey)
    (streamed : tool.streamIndex = some index) (close : Bool) :
    emitter.emitTool key tool close = emitter := by
  rw [emitTool, streamed, Option.isSome_some, if_pos rfl]

theorem bound_emitTool (bound : Bound fits extra emitter tracks)
    (quiet : oneAtATime = true → NoOpenTool emitter) (found : emitter.tools.get key = some tool)
    (close : Bool) :
    ∃ after, Advances oneAtATime emitter tracks (emitter.emitTool key tool close) after ∧
      Bound fits extra (emitter.emitTool key tool close) after := by
  cases notYet : tool.streamIndex with
  | some index =>
    rw [emitTool_of_some emitter key notYet]
    exact ⟨tracks, .refl emitter tracks, bound⟩
  | none =>
    have own := bound.tool key tool found
    rw [ToolBound, notYet] at own
    have open_ : tool.closed = false := own.1
    have noText := closeActiveText_activeText emitter
    have boundClosed := bound.closeActiveText
    have count : emitter.nextIndex = (closedTracks emitter tracks).length := by
      rw [← boundClosed.count, closeActiveText_nextIndex]
    have foundClosed : emitter.closeActiveText.tools.get key = some tool := by
      rw [closeActiveText_tools, found]
    have alone : oneAtATime = true → ∀ track ∈ closedTracks emitter tracks, track.isOpen = false :=
      fun strict => boundClosed.allClosed noText
        ((quiet strict).congr (closeActiveText_tools emitter))
    have applies : (if tool.argumentsJson = [] then []
        else [MessagesDelta.inputJson tool.argumentsJson]).foldlM MessagesBlock.extend
          (.toolUse tool.callId tool.name []) = some tool.block := by
      rw [MessagesTool.block]
      split
      · next nothing =>
        rw [nothing]
        rfl
      · rfl
    refine ⟨closedTracks emitter tracks ++
      [⟨.tool key, tool.block, !(tool.done || tool.itemEnded || close)⟩],
      (advances_closeActiveText bound).trans (.of_lines ?_
        (leads_whole (.tool key) (tool.done || tool.itemEnded || close) applies alone)), ?_⟩
    · have mapped : (if tool.argumentsJson = [] then []
          else [MessagesDelta.inputJson tool.argumentsJson]).map
            (Line.change (β := MessagesBlock) emitter.nextIndex) =
          if tool.argumentsJson = [] then []
          else [.change emitter.nextIndex (.inputJson tool.argumentsJson)] := by
        split <;> rfl
      rw [← count, emitTool, notYet, mapped]
      simp only [Option.isSome_none, Bool.false_eq_true, if_false, open_, Bool.not_false,
        Bool.and_true, closeActiveText_nextIndex]
      rfl
    · obtain ⟨emitted, eq⟩ := emitTool_eq emitter key notYet open_ close
      obtain ⟨closing, closed_eq⟩ := closeActiveText_eq emitter
      rw [eq]
      have added := boundClosed.addTool noText foundClosed notYet
        (tool.done || tool.itemEnded || close) emitted
      rw [closed_eq] at added
      exact added

/-- A step of `closeOpenTools`. -/
theorem bound_closeTool (bound : Bound fits extra emitter tracks) (key : StreamKey) :
    ∃ after, Advances oneAtATime emitter tracks (emitter.closeTool key) after ∧
      Bound fits extra (emitter.closeTool key) after := by
  have idle : ∃ after, Advances oneAtATime emitter tracks emitter after ∧
      Bound fits extra emitter after := ⟨tracks, .refl emitter tracks, bound⟩
  rw [closeTool]
  split
  · next tool found =>
    split
    · next index streamed =>
      split
      · exact idle
      · next notClosed =>
        have own := bound.tool key tool found
        rw [ToolBound, streamed] at own
        have there := own.2.1
        rw [Bool.eq_false_of_not_eq_true notClosed] at there
        refine ⟨_, .of_lines rfl (leads_stop there), ?_⟩
        rw [lines_eq]
        have closed : ({ tool with closed := true } : MessagesTool).streamIndex = some index :=
          streamed
        exact bound.setTool found streamed closed _ _
    · exact idle
  · exact idle

/-! ## Reasoning and what remains -/

/-- A reasoning item gets its block. -/
theorem Bound.addReasoning (bound : Bound fits extra emitter tracks)
    (noText : emitter.activeText = none) {block : MessagesBlock}
    (notYet : key ∉ emitter.emittedReasoning) (fit : fits key block)
    (base : EmitterBase κ MessagesEvent) {carrierTokens : OrderedMap StreamKey JsString}
    (tokens : ∀ other token, carrierTokens.get other = some token →
      other ∈ addTo emitter.emittedReasoning key) :
    Bound fits extra { emitter with
      base := base
      nextIndex := emitter.nextIndex + 1
      carrierTokens := carrierTokens
      emittedReasoning := addTo emitter.emittedReasoning key }
      (tracks ++ [⟨.reasoning key, block, false⟩]) := by
  constructor
  · rw [List.length_append, ← bound.count]
    rfl
  · intro active isActive
    cases noText.symm.trans isActive
  · intro other tool found
    exact (bound.tool other tool found).append (by rintro ⟨⟩)
  · intro other absent
    rw [valuesOf_append_of_ne (by rintro ⟨⟩)]
    exact bound.noTool other absent
  · intro index track there isOpen
    rcases getElem?_append_one there with old | ⟨rfl, rfl⟩
    · exact bound.open_ index track old isOpen
    · cases isOpen
  · intro kind other
    rw [shownText_append, if_neg (by rintro ⟨⟩), List.append_nil]
    exact bound.content kind other
  · intro kind other
    rw [valuesOf_append_of_ne (by rintro ⟨⟩)]
    exact bound.texts kind other
  · intro other absent
    have apart : key ≠ other := fun eq => absent (mem_addTo.mpr (.inr eq.symm))
    rw [valuesOf_append_of_ne (by rintro ⟨⟩; exact apart rfl)]
    exact bound.unwritten other fun member => absent (mem_addTo.mpr (.inl member))
  · intro other member
    by_cases same : key = other
    · subst same
      refine ⟨block, ?_, fit⟩
      rw [valuesOf_start, if_pos rfl, bound.unwritten key notYet]
      rfl
    · rw [valuesOf_append_of_ne (by rintro ⟨⟩; exact same rfl)]
      rcases mem_addTo.mp member with old | eq
      · exact bound.written other old
      · exact absurd eq.symm same
  · exact tokens

/-- Text that is shown at the end without being recorded. -/
def withExtra (extra : ContentKind → StreamKey → JsString) (kind : ContentKind) (key : StreamKey)
    (remaining : JsString) : ContentKind → StreamKey → JsString := fun otherKind other =>
  extra otherKind other ++ if key = other ∧ kind = otherKind then remaining else []

theorem Bound.addRemaining (bound : Bound fits extra emitter tracks)
    (noText : emitter.activeText = none) (kind : ContentKind) (key : StreamKey)
    (remaining : JsString) (emitted : List (Emission MessagesEvent)) :
    Bound fits (withExtra extra kind key remaining) { emitter with
      base := { emitter.base with emitted := emitted }
      nextIndex := emitter.nextIndex + 1 }
      (tracks ++ [⟨.content kind key, .text remaining, false⟩]) := by
  constructor
  · rw [List.length_append, ← bound.count]
    rfl
  · intro active isActive
    cases noText.symm.trans isActive
  · intro other tool found
    exact (bound.tool other tool found).append (by rintro ⟨⟩)
  · intro other absent
    rw [valuesOf_append_of_ne (by rintro ⟨⟩)]
    exact bound.noTool other absent
  · intro index track there isOpen
    rcases getElem?_append_one there with old | ⟨rfl, rfl⟩
    · exact bound.open_ index track old isOpen
    · cases isOpen
  · intro otherKind other
    rw [shownText_append, bound.content, withExtra, List.append_assoc]
    congr 2
    by_cases same : key = other ∧ kind = otherKind
    · obtain ⟨rfl, rfl⟩ := same
      rw [if_pos rfl, if_pos ⟨rfl, rfl⟩]
      rfl
    · rw [if_neg same, if_neg]
      rintro ⟨⟩
      exact same ⟨rfl, rfl⟩
  · intro otherKind other block member
    rw [valuesOf_start, List.mem_append] at member
    rcases member with old | new
    · exact bound.texts otherKind other block old
    · split at new
      · exact ⟨remaining, List.mem_singleton.mp new⟩
      · cases new
  · intro item
    rw [valuesOf_append_of_ne (by rintro ⟨⟩)]
    exact bound.unwritten item
  · intro item
    rw [valuesOf_append_of_ne (by rintro ⟨⟩)]
    exact bound.written item
  · exact bound.tokens

end MessagesEmitter

end GhcGateway.Conversion
