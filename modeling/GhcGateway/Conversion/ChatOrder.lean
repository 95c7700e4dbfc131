/-
# The order of a Chat stream

A client reads the content of a Chat stream in the order of its frames: the text of the
first message is streamed or written before that of the second one, since only the first
message is streamed and the ledger lists messages as they come up.
-/

import GhcGateway.Conversion.ChatEvents
import GhcGateway.Conversion.MessagesStream

namespace GhcGateway.Conversion

open Library Transcript SemanticItemLedger

/-! ## The text as a whole -/

/-- What the blocks show of a kind, one after the other. -/
def wholeText (tracks : List MessagesTrack) (kind : ContentKind) : JsString :=
  tracks.flatMap fun track =>
    match track.owner with
    | .content other _ => if other = kind then track.value.shownText else []
    | _ => []

theorem wholeText_append (first second : List MessagesTrack) (kind : ContentKind) :
    wholeText (first ++ second) kind = wholeText first kind ++ wholeText second kind :=
  List.flatMap_append

theorem shownText_split (first second : List MessagesTrack) (kind : ContentKind)
    (key : StreamKey) : shownText (first ++ second) kind key =
      shownText first kind key ++ shownText second kind key := by
  rw [shownText, valuesOf_append, List.map_append, List.flatten_append]
  rfl

/-- All content is that of one key. -/
theorem wholeText_eq {tracks : List MessagesTrack} {kind : ContentKind} {key : StreamKey}
    (alone : ∀ other, other ≠ key → shownText tracks kind other = []) :
    wholeText tracks kind = shownText tracks kind key := by
  induction tracks with
  | nil => rfl
  | cons track tracks ih =>
    have split := fun other => shownText_split [track] tracks kind other
    have rest := ih fun other apart => (List.append_eq_nil_iff.mp
      ((split other).symm.trans (alone other apart))).2
    have first : wholeText [track] kind = shownText [track] kind key := by
      obtain ⟨owner, value, isOpen⟩ := track
      cases owner with
      | content otherKind other =>
        by_cases sameKind : otherKind = kind
        · subst sameKind
          by_cases same : other = key
          · subst same
            simp [wholeText, shownText, Track.valuesOf]
          · have empty := (List.append_eq_nil_iff.mp ((split other).symm.trans
              (alone other same))).1
            simpa [wholeText, shownText, Track.valuesOf, same] using empty
        · simp [wholeText, shownText, Track.valuesOf, sameKind]
      | _ => simp [wholeText, shownText, Track.valuesOf]
    rw [show track :: tracks = [track] ++ tracks from rfl, wholeText_append, shownText_split,
      first, rest]

/-! ## The order of the items -/

section Sorting

variable {α : Type} {le : α → α → Prop} [DecidableRel le] {entry : α}

/-- An entry that goes with all others keeps its place. -/
theorem insertionSort_append_cons (before : ∀ other, le other entry)
    (after : ∀ other, le entry other) (front back : List α) :
    (front ++ entry :: back).insertionSort le =
      front.insertionSort le ++ entry :: back.insertionSort le := by
  have placed : ∀ other (sorted : List α), (sorted ++ entry :: back.insertionSort le).orderedInsert
      le other = sorted.orderedInsert le other ++ entry :: back.insertionSort le := by
    intro other sorted
    induction sorted with
    | nil => exact if_pos (before other)
    | cons first sorted ih =>
      rw [List.cons_append, List.orderedInsert_cons, List.orderedInsert_cons, ih]
      split <;> rfl
  induction front with
  | nil =>
    rw [List.nil_append, List.insertionSort_cons]
    cases back.insertionSort le with
    | nil => rfl
    | cons first rest => exact if_pos (after first)
  | cons other front ih =>
    rw [List.cons_append, List.insertionSort_cons, ih, placed, List.insertionSort_cons]

end Sorting

namespace SemanticItemLedger

variable {ledger next : SemanticItemLedger} {key : StreamKey} {keys : List StreamKey}

/-- The first message is listed before the others. -/
theorem sortedOrder_first (wellFormed : ledger.WellFormed)
    (first : ledger.messages.keys = key :: keys) (unplaced : key.responseOutputIndex = none) :
    ∃ before after, ledger.sortedOrder = before ++ .message key :: after ∧
      ∀ entry ∈ before, entry.messageKey = none := by
  obtain ⟨front, entry, back, whole, none_, is, -⟩ :=
    List.filterMap_eq_cons_iff.mp (wellFormed.order_keys.trans first)
  cases entry with
  | message other =>
    obtain rfl := Option.some.inj is
    refine ⟨_, _, (congrArg _ whole).trans (insertionSort_append_cons ?_ ?_ front back),
      fun entry member => none_ entry ((List.mem_insertionSort _).mp member)⟩
    · intro entry
      show responseItemKeyLe _ _ = true
      rw [responseItemKeyLe]
      split
      · next placed =>
        cases unplaced.symm.trans placed
      · rfl
    · intro entry
      show responseItemKeyLe _ _ = true
      rw [responseItemKeyLe]
      split
      · next placed _ =>
        cases unplaced.symm.trans placed
      · rfl
  | reasoning other => cases is
  | tool other => cases is

theorem keys_replacePart (ledger : SemanticItemLedger) (key groupKey : StreamKey)
    (part : MessagePartState) :
    (ledger.replacePart key groupKey part).messages.keys = addTo ledger.messages.keys groupKey := by
  have added : (ledger.addMessage groupKey).messages.keys =
      addTo ledger.messages.keys groupKey := by
    rw [addMessage]
    split
    · next there =>
      obtain ⟨message, found⟩ := Option.isSome_iff_exists.mp there
      exact (if_pos (OrderedMap.mem_keys.mpr ⟨message, found⟩)).symm
    · exact OrderedMap.keys_set _ _ _
  show ((ledger.addMessage groupKey).addPart key groupKey).messages.keys = _
  rw [← added, addPart]
  split
  · rfl
  · show (OrderedMap.modify _ _ _).keys = _
    rw [OrderedMap.modify]
    split
    · rfl
    · next found =>
      exact OrderedMap.keys_set_of_get found _

end SemanticItemLedger

namespace MessagesEmitter

variable {κ : Type} {context : StreamConversionContext κ} {before : List SemanticStreamEvent}
  {state next : ConversionState (MessagesEmitter κ)} {event : SemanticStreamEvent}

/-- The messages are those of the events, in their order, each is its own part, and only
the first one is streamed. -/
structure Ranked (before : List SemanticStreamEvent)
    (state : ConversionState (MessagesEmitter κ)) : Prop where
  keys : state.ledger.messages.keys = messagesOf before
  grouped : ∀ key part, state.ledger.messageParts.get key = some part → part.groupKey = key
  first : state.emitter.firstMessageKey = (messagesOf before).head?
  only : ∀ kind key, streamedValue state.emitter.streamedContent key kind ≠ [] →
    state.emitter.firstMessageKey = some key

/-- A step that has nothing to do with messages. -/
def Apart (state next : ConversionState (MessagesEmitter κ)) : Prop :=
  (next.ledger.messages, next.ledger.messageParts, next.emitter.progress) =
    (state.ledger.messages, state.ledger.messageParts, state.emitter.progress)

theorem apart_of (messages : next.ledger.messages = state.ledger.messages)
    (messageParts : next.ledger.messageParts = state.ledger.messageParts)
    (still : next.emitter.progress = state.emitter.progress) : Apart state next := by
  rw [Apart, messages, messageParts, still]

theorem Ranked.apart (ranked : Ranked before state) (apart : Apart state next) :
    Ranked before next := by
  have messages : next.ledger.messages = state.ledger.messages := congrArg Prod.fst apart
  have parts : next.ledger.messageParts = state.ledger.messageParts :=
    congrArg (fun view => view.2.1) apart
  have first : next.emitter.firstMessageKey = state.emitter.firstMessageKey :=
    congrArg (fun view => view.2.2.1) apart
  have streamed : next.emitter.streamedContent = state.emitter.streamedContent :=
    congrArg (fun view => view.2.2.2) apart
  refine ⟨messages ▸ ranked.keys, parts ▸ ranked.grouped, first.trans ranked.first, ?_⟩
  rw [first, streamed]
  exact ranked.only

theorem Ranked.aside (ranked : Ranked before state) (about : event.messageKey = none) :
    Ranked (before ++ [event]) state := by
  have same : messagesOf (before ++ [event]) = messagesOf before := by
    rw [messagesOf_append_one, about]
    rfl
  exact ⟨ranked.keys.trans same.symm, ranked.grouped, same ▸ ranked.first, ranked.only⟩

theorem apart_handleStarted (notResponses : context.source ≠ .responses)
    (sound : state.ledger.ContentSound) (chat : event.isChat = true)
    (about : event.messageKey = none) :
    Ensures (handleStarted (streamEmitter context) context .messages state event)
      (Apart state) := by
  cases event with
  | contentDelta => cases about
  | semanticProgress => exact ensures_pure rfl
  | usage usage => exact ensures_pure rfl
  | reasoningStart key itemId messagesState opaqueState =>
    refine ensures_measured ((reasoningChange_startReasoning sound key itemId messagesState
      opaqueState).bind fun ledger change => ensures_pure ?_)
    exact apart_of change.1.messages change.1.messageParts rfl
  | reasoningDelta address delta =>
    refine ensures_ite (fun _ => ensures_pure rfl) fun grows => ensures_measured ?_
    refine (reasoningChange_appendReasoning sound address grows).bind fun ledger change => ?_
    have idle : Ensures (if state.started then (streamEmitter context).reasoningDelta state.emitter
        address delta else pure state.emitter) (· = state.emitter) :=
      ensures_ite (fun _ => ensures_ok rfl) fun _ => ensures_pure rfl
    refine idle.bind fun emitter same => ensures_pure ?_
    exact apart_of change.1.messages change.1.messageParts (congrArg progress same)
  | reasoningDone key status =>
    refine ensures_measured ((reasoningChange_finishReasoning sound key status).bind ?_)
    rintro ⟨ledger, item⟩ change
    refine (progress_reasoningDone _ _).bind fun emitter still => ensures_pure ?_
    exact apart_of change.1.messages change.1.messageParts still
  | toolStart key itemId callId name =>
    refine ensures_measured ((toolChange_startTool sound key itemId callId name).bind
      fun ledger change => ?_)
    refine (progress_toolStart notResponses _ _ _ _).bind fun emitter still => ensures_pure ?_
    exact apart_of change.1.messages change.1.step.messageParts still
  | toolArgumentsDelta key delta =>
    refine ensures_measured ((toolChange_appendToolArguments sound key delta).bind
      fun ledger change => ?_)
    refine (progress_toolArgumentsDelta _ _ _).bind fun emitter still => ensures_pure ?_
    exact apart_of change.1.messages change.1.step.messageParts still
  | toolDone key argumentsJson completed =>
    refine ensures_measured (ensures_bind fun _ _ => ensures_bind fun _ _ => ?_)
    refine (toolChange_finishTool sound key argumentsJson _ _).bind ?_
    rintro ⟨ledger, suffix⟩ ⟨change, -⟩
    have extended : Ensures (if suffix ≠ [] then
        (streamEmitter context).toolArgumentsDelta state.emitter key suffix
        else pure state.emitter) fun next => next.progress = state.emitter.progress :=
      ensures_ite (fun _ => progress_toolArgumentsDelta _ _ _) fun _ => ensures_pure rfl
    refine extended.bind fun emitter still => ensures_bind fun tool _ => ?_
    have done : Ensures (if InferenceProtocol.messages = .messages ∧ completed ≠ some false then
        (streamEmitter context).toolDone emitter key tool.argumentsJson else pure emitter)
          fun next => next.progress = emitter.progress :=
      ensures_ite (fun _ => progress_toolDone _ _ _) fun _ => ensures_pure rfl
    refine done.bind fun last same => ensures_pure ?_
    exact apart_of change.messages change.step.messageParts (same.trans still)
  | _ => cases chat

theorem head?_addTo (keys : List StreamKey) (key : StreamKey) :
    (addTo keys key).head? = keys.head?.or (some key) := by
  rw [addTo]
  split
  · cases keys with
    | nil => contradiction
    | cons first rest => rfl
  · exact List.head?_append

/-- Content adds its message to the others, and is streamed if that is the first one. -/
theorem ranked_handleContentDelta (ranked : Ranked before state)
    (notResponses : context.source ≠ .responses) (kind : ContentKind) (key : StreamKey)
    (delta : JsString) :
    Ensures (handleContentDelta (streamEmitter context) state kind key none delta)
      (Ranked (before ++ [.contentDelta kind key none delta])) := by
  rw [handleContentDelta]
  refine (ensures_appendContent kind key delta none).bind ?_
  rintro _ ⟨⟨used, rfl⟩, group, -, -⟩
  have noted : ∀ other, state.emitter.firstMessageKey = some other →
      state.emitter.firstMessageKey.or (some key) = some other := fun other is => by
    rw [is]
    rfl
  have streaming : Ensures (if state.started then
      (streamEmitter context).contentDelta state.emitter kind key delta none
      else (streamEmitter context).reserveMessage state.emitter key kind) fun next =>
        next.firstMessageKey = state.emitter.firstMessageKey.or (some key) ∧
        ∀ kind other, streamedValue next.streamedContent other kind ≠ [] →
          next.firstMessageKey = some other := by
    refine ensures_ite (fun _ => ensures_ite (fun _ => ?_) fun free => ?_) fun _ =>
      ensures_ok ⟨rfl, fun kind other written => noted other (ranked.only kind other written)⟩
    · rw [if_neg notResponses]
      exact ensures_ok ⟨rfl, fun kind other written =>
        noted other (ranked.only kind other written)⟩
    · obtain ⟨emitted, nextIndex, activeText, eq⟩ :=
        emitLiveText_eq (state.emitter.noteMessage key) kind key delta
      refine ensures_ok (eq ▸ ⟨rfl, fun otherKind other written => ?_⟩)
      rw [streamedValue_recordStreamed] at written
      by_cases same : key = other ∧ kind = otherKind
      · rw [holdsContent, if_neg notResponses] at free
        simp only [Bool.or_eq_true, decide_eq_true_eq, not_or, not_not] at free
        exact same.1 ▸ free.2
      · rw [if_neg same, List.append_nil] at written
        exact noted other (ranked.only otherKind other written)
  refine streaming.bind fun emitter streamed => ensures_pure ?_
  have keys : messagesOf (before ++ [.contentDelta kind key none delta]) =
      addTo (messagesOf before) key := messagesOf_append_one _ _
  refine ⟨?_, fun other part found => ?_, ?_, streamed.2⟩
  · rw [keys, ← ranked.keys]
    exact keys_replacePart _ key key (((state.ledger.partState key key).see kind).append kind delta)
  · have found : (state.ledger.replacePart key key _).messageParts.get other = some part := found
    rw [get_replacePart] at found
    split at found
    · next same =>
      obtain rfl := Option.some.inj found
      rw [append_groupKey, see_groupKey, group]
      exact same
    · exact ranked.grouped other part found
  · rw [keys, head?_addTo, ← ranked.first]
    exact streamed.1

theorem ranked_start (store : κ) :
    Ranked [] (initialState (streamEmitter context) context (new context store)) := by
  have fresh : (context.degradations.foldl (fun state rule =>
      (streamEmitter context).emit state (.degradation rule)) (new context store)).progress =
      (none, .empty) :=
    List.foldlRecOn (motive := fun emitter : MessagesEmitter κ => emitter.progress =
      (none, .empty)) _ _ rfl fun _ same _ _ => same
  refine ⟨rfl, by rintro _ _ ⟨⟩, congrArg Prod.fst fresh, fun kind key written => ?_⟩
  have streamed : (initialState (streamEmitter context) context
    (new context store)).emitter.streamedContent = .empty := congrArg Prod.snd fresh
  rw [streamed] at written
  exact absurd rfl written

/-- Each event of a Chat stream keeps the messages in order. -/
theorem ranked_handleEvent (notResponses : context.source ≠ .responses)
    (sound : state.ledger.ContentSound) (ranked : Ranked before state)
    (chat : event.isChat = true) :
    Ensures (handleEvent (streamEmitter context) context .messages state event)
      (Ranked (before ++ [event])) := by
  have general : Ensures (do
      let current ← startOutput (streamEmitter context) state event
      handleStarted (streamEmitter context) context .messages current event)
        (Ranked (before ++ [event])) := by
    refine (progress_startOutput state event).bind ?_
    rintro current ⟨same, still⟩
    have ranked := ranked.apart (apart_of (by rw [same]) (by rw [same]) still)
    by_cases about : event.messageKey = none
    · exact (apart_handleStarted notResponses (same ▸ sound) chat about).mono fun next apart =>
        (ranked.apart apart).aside about
    · cases event with
      | contentDelta kind key orderKey delta =>
        cases orderKey with
        | none =>
          exact ensures_measured (ranked_handleContentDelta ranked notResponses kind key delta)
        | some orderKey => cases key <;> cases chat
      | _ => exact absurd rfl about
  cases event with
  | usage usage =>
    have kept := ranked.aside (show (SemanticStreamEvent.usage usage).messageKey = none from rfl)
    exact ensures_pure (kept.apart rfl)
  | messageStart key => cases chat
  | _ => exact general

/-- The client reads the content of the first message before that of the second one. -/
theorem Ranked.wholeText {last : ConversionState (MessagesEmitter κ)} {status : ResponseStatus}
    {created : List (CarrierInput × JsString)} {tracks : List MessagesTrack}
    (ranked : Ranked before state) (settled : Settled state last)
    (sound : last.ledger.ContentSound)
    (ordered : (messagesOf before).Sublist [.chatMessage 0, .chatMessage 1])
    (answered : Answered context status last.ledger created last.emitter.streamedContent tracks)
    (kind : ContentKind)
    (others : ∀ key, key ≠ .chatMessage 0 → key ≠ .chatMessage 1 → shownText tracks kind key = []) :
    wholeText tracks kind =
      shownText tracks kind (.chatMessage 0) ++ shownText tracks kind (.chatMessage 1) := by
  have owner : ∀ key messageKey, last.ledger.skeleton.parts key = some messageKey →
      key = messageKey := by
    intro key messageKey owned
    obtain ⟨part, found, rfl⟩ := Option.map_eq_some_iff.mp owned
    exact (ranked.grouped key part (settled.messageParts ▸ found)).symm
  have keys : last.ledger.messages.keys = messagesOf before := by
    rw [settled.messages]
    exact ranked.keys
  have listed : ∀ key, shownText tracks kind key ≠ [] → last.ledger.SeenAt kind key ∧
      last.ledger.skeleton.parts key = some key ∧ key ∈ messagesOf before := by
    intro key shows
    rw [answered.content] at shows
    obtain ⟨part, found, seen⟩ := not_not.mp (mt (sound.blank kind key) shows)
    have owned : last.ledger.skeleton.parts key = some part.groupKey :=
      Option.map_eq_some_iff.mpr ⟨part, found, rfl⟩
    rw [← owner key _ owned] at owned
    refine ⟨⟨part, found, seen⟩, owned, ?_⟩
    obtain ⟨_, has, -⟩ := (sound.wellFormed.part_iff key key).mp owned
    obtain ⟨message, there, -⟩ := Option.map_eq_some_iff.mp has
    rw [← keys]
    exact OrderedMap.mem_keys.mpr ⟨message, there⟩
  by_cases first : shownText tracks kind (.chatMessage 0) = []
  · rw [first]
    refine wholeText_eq fun key apart => ?_
    by_cases same : key = .chatMessage 0
    · rw [same, first]
    · exact others key same apart
  by_cases second : shownText tracks kind (.chatMessage 1) = []
  · rw [second, List.append_nil]
    refine wholeText_eq fun key apart => ?_
    by_cases same : key = .chatMessage 1
    · rw [same, second]
    · exact others key apart same
  -- both messages have come up, so the first one is listed first
  obtain ⟨seen, owned, there⟩ := listed _ first
  obtain ⟨-, -, alsoThere⟩ := listed _ second
  have both : messagesOf before = [.chatMessage 0, .chatMessage 1] :=
    ordered.eq_of_length_le (List.Nodup.subperm (by decide) (List.cons_subset.mpr
      ⟨there, List.cons_subset.mpr ⟨alsoThere, List.nil_subset _⟩⟩)).length_le
  obtain ⟨front, back, sorted, none_⟩ :=
    sortedOrder_first sound.wellFormed (keys.trans both) rfl
  obtain ⟨half, rest, rfl, halfway⟩ := answered.staged
    ((front ++ [LedgerEntry.message (.chatMessage 0)]).filterMap (last.ledger.itemOf status))
    (back.filterMap (last.ledger.itemOf status)) (by
      rw [sorted, ← List.filterMap_append, List.append_assoc]
      rfl)
  rw [flatMap_itemParts] at halfway
  have whole : shownText half kind (.chatMessage 0) =
      last.ledger.contentValue kind (.chatMessage 0) :=
    halfway.whole _ kind _ (List.mem_flatMap.mpr ⟨_, List.mem_append_right _
      (List.mem_singleton_self _), (mem_entryParts sound).mpr ⟨_, rfl, owned, seen, rfl⟩⟩)
  have notYet : ∀ key, key ≠ .chatMessage 0 → shownText half kind key = [] := by
    intro key apart
    rw [halfway.streamed key kind]
    · by_contra written
      rw [settled.streamed] at written
      have is := ranked.only kind key written
      rw [ranked.first, both] at is
      exact apart (Option.some.inj is).symm
    · intro text member
      obtain ⟨entry, from_, inEntry⟩ := List.mem_flatMap.mp member
      obtain ⟨messageKey, rfl, owned, -⟩ := (mem_entryParts sound).mp inEntry
      rcases List.mem_append.mp from_ with early | single
      · cases none_ _ early
      · cases List.mem_singleton.mp single
        exact apart (owner key _ owned)
  have gone : shownText rest kind (.chatMessage 0) = [] := by
    have split := answered.content kind (.chatMessage 0)
    rw [shownText_split, whole] at split
    exact List.append_right_eq_self.mp split
  rw [wholeText_append, wholeText_eq notYet, shownText_split, shownText_split, gone,
    notYet (.chatMessage 1) (by rintro ⟨⟩), List.append_nil, List.nil_append]
  refine congrArg _ (wholeText_eq fun key apart => ?_)
  by_cases same : key = .chatMessage 0
  · rw [same, gone]
  · have none_ := others key same apart
    rw [shownText_split] at none_
    exact (List.append_eq_nil_iff.mp none_).2

end MessagesEmitter

end GhcGateway.Conversion
