/-
# Calls and answers in a Chat request

Where calls and results are paired up to reasoning, the messages keep calls and answers
together exactly if no reasoning disturbs an exchange: a text between calls or before the
first result opens a message of its own, anything written between results does so too, and
even a reasoning item that writes nothing ends a run of results, whose media then stand
before the next result.
-/

import GhcGateway.Requests.ToolAdjacency

namespace GhcGateway.Requests

open Conversion

variable {entries : List Entry} {items : List SemanticRequestItem}
  {opaqueState : Option OpaqueReasoningState} {results : List ToolResultItem}
  {parts : List ReasoningPart} {earlier kinds : List MessageKind} {calls answered : List JsString}
  {first : MessageKind}

/-! ## Paired items -/

/-- Messages and exchanges: calls, and directly behind them results that answer exactly
those. -/
inductive Paired : List SemanticRequestItem → Prop
  | nil : Paired []
  | message (role : MessageRole) (content : List SemanticContent)
      {items : List SemanticRequestItem} (rest : Paired items) :
      Paired (.message role content :: items)
  | exchange (call : ToolCallItem) (calls : List ToolCallItem) (results : List ToolResultItem)
      (same : ∀ callId, callId ∈ (call :: calls).map ToolCallItem.callId ↔
        callId ∈ results.map ToolResultItem.callId)
      {items : List SemanticRequestItem} (rest : Paired items) :
      Paired ((call :: calls).map .toolCall ++ (results.map .toolResult ++ items))

inductive ReasoningEffect
  | nothing
  | text
  | state
  deriving DecidableEq

/-- A Chat state is always written back; of another state there is left what it says. -/
def reasoningEffect (parts : List ReasoningPart) :
    Option OpaqueReasoningState → ReasoningEffect
  | some (.chatState _) => .state
  | _ => if joinedText parts = [] then .nothing else .text

/-- Whether a result comes next, up to reasoning. -/
def resultFollows : List SemanticRequestItem → Bool
  | .reasoning _ _ :: items => resultFollows items
  | .toolResult _ :: _ => true
  | _ => false

/-- Where an item stands: outside an exchange, behind a call, or behind results, one of them
with an image. -/
inductive Place
  | outside
  | calling
  | answering (media : Bool)

/-- No reasoning disturbs an exchange: none writes a text between calls or before the first
result, and between results none writes anything or stands behind an image. -/
def Undisturbed : Place → List SemanticRequestItem → Prop
  | _, [] => True
  | _, .message _ _ :: items => Undisturbed .outside items
  | _, .toolCall _ :: items => Undisturbed .calling items
  | .answering media, .toolResult result :: items =>
    Undisturbed (.answering (media || result.content.any SemanticContent.isImage)) items
  | _, .toolResult result :: items =>
    Undisturbed (.answering (result.content.any SemanticContent.isImage)) items
  | .outside, .reasoning _ _ :: items => Undisturbed .outside items
  | .calling, .reasoning parts opaqueState :: items =>
    reasoningEffect parts opaqueState ≠ .text ∧ Undisturbed .calling items
  | .answering media, .reasoning parts opaqueState :: items =>
    if resultFollows items then
      reasoningEffect parts opaqueState = .nothing ∧ media = false ∧
        Undisturbed (.answering media) items
    else Undisturbed .outside items

/-! ## Pairing from the middle -/

/-- How much of an exchange has been seen. -/
inductive Stage
  | outside
  | calling (calls : List JsString)
  | answering (calls answered : List JsString)

abbrev SameIds (calls answered : List JsString) : Prop :=
  ∀ callId, callId ∈ calls ↔ callId ∈ answered

/-- The rest is paired, up to reasoning. -/
def PairedFrom : Stage → List SemanticRequestItem → Prop
  | .outside, [] => True
  | .calling _, [] => False
  | .answering calls answered, [] => SameIds calls answered
  | stage, .reasoning _ _ :: items => PairedFrom stage items
  | .outside, .message _ _ :: items => PairedFrom .outside items
  | .calling _, .message _ _ :: _ => False
  | .answering calls answered, .message _ _ :: items =>
    SameIds calls answered ∧ PairedFrom .outside items
  | .outside, .toolCall call :: items => PairedFrom (.calling [call.callId]) items
  | .calling calls, .toolCall call :: items => PairedFrom (.calling (calls ++ [call.callId])) items
  | .answering calls answered, .toolCall call :: items =>
    SameIds calls answered ∧ PairedFrom (.calling [call.callId]) items
  | .outside, .toolResult _ :: _ => False
  | .calling calls, .toolResult result :: items =>
      PairedFrom (.answering calls [result.callId]) items
  | .answering calls answered, .toolResult result :: items =>
    PairedFrom (.answering calls (answered ++ [result.callId])) items

/-- Reasoning does not count. -/
theorem pairedFrom_filter (stage : Stage) (items : List SemanticRequestItem) :
    PairedFrom stage (items.filter fun item => !item.isReasoning) ↔ PairedFrom stage items := by
  induction items generalizing stage with
  | nil => rfl
  | cons item items ih =>
    cases item with
    | reasoning parts opaqueState =>
      rw [List.filter_cons_of_neg (by simp [SemanticRequestItem.isReasoning]), PairedFrom, ih]
    | message role content =>
      rw [List.filter_cons_of_pos rfl]
      cases stage <;> simp only [PairedFrom, ih]
    | toolCall call =>
      rw [List.filter_cons_of_pos rfl]
      cases stage <;> simp only [PairedFrom, ih]
    | toolResult result =>
      rw [List.filter_cons_of_pos rfl]
      cases stage <;> simp only [PairedFrom, ih]

/-- An exchange is over where no result follows. -/
theorem PairedFrom.leave (paired : PairedFrom (.answering calls answered) items)
    (last : resultFollows items = false) : SameIds calls answered ∧ PairedFrom .outside items := by
  induction items with
  | nil => exact ⟨paired, trivial⟩
  | cons item items ih =>
    cases item with
    | message role content => exact paired
    | reasoning parts opaqueState => exact ih paired last
    | toolCall call => exact paired
    | toolResult result => cases last

theorem PairedFrom.enter (same : SameIds calls answered) (paired : PairedFrom .outside items) :
    PairedFrom (.answering calls answered) items := by
  induction items with
  | nil => exact same
  | cons item items ih =>
    cases item with
    | message role content => exact ⟨same, paired⟩
    | reasoning parts opaqueState => exact ih paired
    | toolCall call => exact ⟨same, paired⟩
    | toolResult result => cases paired

theorem Paired.pairedFrom (paired : Paired items) : PairedFrom .outside items := by
  induction paired with
  | nil => trivial
  | message role content rest ih => exact ih
  | @exchange call calls results same items rest ih =>
    have answered (results : List ToolResultItem) : ∀ {calls answered : List JsString},
        SameIds calls (answered ++ results.map ToolResultItem.callId) →
        PairedFrom (.answering calls answered) (results.map .toolResult ++ items) := by
      induction results with
      | nil =>
        intro calls answered same
        exact PairedFrom.enter (by simpa using same) ih
      | cons result results rest =>
        intro calls answered same
        exact rest (by simpa using same)
    have called (more : List ToolCallItem) : ∀ {seen : List JsString}, seen ≠ [] →
        SameIds (seen ++ more.map ToolCallItem.callId) (results.map ToolResultItem.callId) →
        PairedFrom (.calling seen) (more.map .toolCall ++ (results.map .toolResult ++ items)) := by
      induction more with
      | nil =>
        intro seen some same
        cases results with
        | nil =>
          obtain ⟨callId, rest, rfl⟩ := List.exists_cons_of_ne_nil some
          have none := (same callId).mp (by simp)
          cases none
        | cons result results => exact answered results (by simpa using same)
      | cons next more rest =>
        intro seen _ same
        exact rest (by simp) (by simpa using same)
    exact called calls (List.cons_ne_nil _ _) same

/-! ## What an item does to the kinds -/

theorem kinds_answers (results : List ToolResultItem) (entries : List Entry) :
    (Entry.answers results entries).map Entry.kind =
      (if results.any (fun result => result.content.any SemanticContent.isImage) then [.other]
        else []) ++
        ((results.map fun result => MessageKind.tool result.callId).reverse ++
          entries.map Entry.kind) := by
  have media (result : ToolResultItem) :
      mediaOf result = [] ↔ result.content.any SemanticContent.isImage = false := by
    have images (encode : SemanticContent → Option WireJson)
        (none_iff : ∀ part, encode part = none ↔ part.isImage = false)
        (content : List SemanticContent) :
        content.filterMap encode = [] ↔ content.any SemanticContent.isImage = false := by
      simp only [List.filterMap_eq_nil_iff, none_iff, List.any_eq_false, Bool.not_eq_true]
    unfold mediaOf
    dsimp only
    split
    · next none =>
      refine iff_of_true rfl ((images _ ?_ _).mp none)
      rintro ⟨⟩ <;> simp [SemanticContent.isImage]
    · next some =>
      refine iff_of_false (List.cons_ne_nil _ _) fun noImage => some ((images _ ?_ _).mpr noImage)
      rintro ⟨⟩ <;> simp [SemanticContent.isImage]
  have all : results.flatMap mediaOf = [] ↔
      results.any (fun result => result.content.any SemanticContent.isImage) = false := by
    induction results with
    | nil => simp
    | cons result results ih => simp only [List.flatMap_cons, List.append_eq_nil_iff, ih, media,
        List.any_cons, Bool.or_eq_false_iff]
  have kinds : ((results.map fun result => Entry.answer result.callId).reverse ++ entries).map
      Entry.kind = (results.map fun result => MessageKind.tool result.callId).reverse ++
        entries.map Entry.kind := by
    simp [Entry.kind, Function.comp_def]
  rw [Entry.answers]
  by_cases none : results.flatMap mediaOf = []
  · rw [if_pos none, all.mp none, kinds]
    rfl
  · have some : results.any (fun result => result.content.any SemanticContent.isImage) = true := by
      rw [← Bool.not_eq_false]
      exact mt all.mpr none
    rw [if_neg none, some, List.map_cons, kinds]
    rfl

/-- A reasoning item changes nothing about calls, or opens a message without any. -/
theorem kinds_reason_cases (parts : List ReasoningPart)
    (opaqueState : Option OpaqueReasoningState) (entries : List Entry) :
    (Entry.reason parts opaqueState entries).map Entry.kind = entries.map Entry.kind ∨
      (Entry.reason parts opaqueState entries).map Entry.kind =
        .assistant [] :: entries.map Entry.kind := by
  have text : (Entry.reasonText entries).map Entry.kind = entries.map Entry.kind ∨
      (Entry.reasonText entries).map Entry.kind = .assistant [] :: entries.map Entry.kind := by
    unfold Entry.reasonText
    split
    · exact .inl rfl
    · exact .inr rfl
  have hold (names : List JsString) (entry : Entry) : (entry.hold names).kind = entry.kind := by
    cases entry <;> rfl
  have modify (names : List JsString) (entries : List Entry) (index : Nat) :
      (entries.modify index (Entry.hold names)).map Entry.kind = entries.map Entry.kind := by
    induction entries generalizing index with
    | nil => simp
    | cons entry entries ih =>
      cases index with
      | zero => simp [hold]
      | succ index => simp [ih]
  have state (names : List JsString) :
      (Entry.reasonState names entries).map Entry.kind = entries.map Entry.kind ∨
        (Entry.reasonState names entries).map Entry.kind =
          .assistant [] :: entries.map Entry.kind := by
    unfold Entry.reasonState
    split
    · exact .inl (modify _ _ _)
    · exact .inr rfl
  unfold Entry.reason
  split
  · split
    · exact .inl rfl
    · exact text
  · exact state _
  · split
    · exact .inl rfl
    · exact .inr rfl

theorem reason_eq_of_nothing (entries : List Entry)
    (nothing : reasoningEffect parts opaqueState = .nothing) :
    Entry.reason parts opaqueState entries = entries := by
  have empty : joinedText parts = [] := by
    by_contra some
    unfold reasoningEffect at nothing
    split at nothing
    · cases nothing
    · rw [if_neg some] at nothing
      cases nothing
  unfold Entry.reason
  split
  · rw [if_pos empty]
  · cases nothing
  · rw [if_pos empty]

/-- A text behind a message with calls opens a message. -/
theorem kinds_reason_text (text : reasoningEffect parts opaqueState = .text)
    (notOpen : entries.head?.map Entry.kind ≠ some (.assistant [])) :
    (Entry.reason parts opaqueState entries).map Entry.kind =
      .assistant [] :: entries.map Entry.kind := by
  have some : joinedText parts ≠ [] := by
    intro empty
    unfold reasoningEffect at text
    split at text
    · cases text
    · rw [if_pos empty] at text
      cases text
  unfold Entry.reason
  split
  · rw [if_neg some]
    unfold Entry.reasonText
    split
    · exact absurd rfl notOpen
    · rfl
  · cases text
  · rw [if_neg some]
    rfl

/-- A state behind an assistant message joins one. -/
theorem kinds_reason_joins (notText : reasoningEffect parts opaqueState ≠ .text)
    (isLast : entries.map Entry.kind = .assistant calls :: earlier) :
    (Entry.reason parts opaqueState entries).map Entry.kind = entries.map Entry.kind := by
  rcases kinds_reason_cases parts opaqueState entries with same | opened
  · exact same
  · cases effect : reasoningEffect parts opaqueState with
    | nothing => rw [reason_eq_of_nothing entries effect]
    | text => exact absurd effect notText
    | state =>
      exfalso
      unfold reasoningEffect at effect
      split at effect
      · next state =>
        cases entries with
        | nil => cases isLast
        | cons entry entries =>
          cases entry with
          | other => cases isLast
          | answer callId => cases isLast
          | turn items held =>
            have length := congrArg List.length opened
            simp [Entry.reason, Entry.reasonState] at length
      · split at effect <;> cases effect

/-- What writes something behind a message that is not an assistant's opens a message. -/
theorem kinds_reason_opens (some' : reasoningEffect parts opaqueState ≠ .nothing)
    {callId : JsString} (isLast : entries.map Entry.kind = .tool callId :: earlier) :
    (Entry.reason parts opaqueState entries).map Entry.kind =
      .assistant [] :: entries.map Entry.kind := by
  cases entries with
  | nil => cases isLast
  | cons entry entries =>
    cases entry with
    | other => cases isLast
    | turn items held => cases isLast
    | answer other =>
      cases effect : reasoningEffect parts opaqueState with
      | nothing => exact absurd effect some'
      | text =>
        apply kinds_reason_text effect
        rw [List.head?_cons, Option.map_some]
        exact fun impossible => nomatch impossible
      | state =>
        unfold reasoningEffect at effect
        split at effect
        · rfl
        · split at effect <;> cases effect

/-! ## Breaking an exchange -/

theorem Broken.append (broken : Broken kinds) (more : List MessageKind) :
    Broken (more ++ kinds) := by
  induction more with
  | nil => exact broken
  | cons kind more ih => exact ih.cons kind

theorem Broken.answers (broken : Broken (entries.map Entry.kind)) (results : List ToolResultItem) :
    Broken ((Entry.answers results entries).map Entry.kind) := by
  rw [kinds_answers, ← List.append_assoc]
  exact broken.append _

theorem Broken.call (broken : Broken (entries.map Entry.kind)) (item : ToolCallItem) :
    Broken ((Entry.call item entries).map Entry.kind) := by
  unfold Entry.call
  split
  · exact broken.change rfl rfl
  · exact broken.cons _

theorem Broken.reason (broken : Broken (entries.map Entry.kind)) (parts : List ReasoningPart)
    (opaqueState : Option OpaqueReasoningState) :
    Broken ((Entry.reason parts opaqueState entries).map Entry.kind) := by
  rcases kinds_reason_cases parts opaqueState entries with same | opened
  · rw [same]
    exact broken
  · rw [opened]
    exact broken.cons _

/-- What is broken stays broken. -/
theorem Broken.run (broken : Broken (entries.map Entry.kind)) :
    Broken ((Entry.run items results entries).map Entry.kind) := by
  induction items generalizing results entries with
  | nil => exact broken.answers results
  | cons item items ih =>
    cases item with
    | message role content => exact ih ((broken.answers results).cons _)
    | reasoning parts opaqueState => exact ih ((broken.answers results).reason _ _)
    | toolCall call => exact ih ((broken.answers results).call call)
    | toolResult result => exact ih broken

theorem run_eq_answers {item : SemanticRequestItem} (items : List SemanticRequestItem)
    (results : List ToolResultItem) (entries : List Entry) (notResult : item.isToolResult = false) :
    Entry.run (item :: items) results entries =
      Entry.run (item :: items) [] (Entry.answers results entries) := by
  cases item with
  | message role content => rfl
  | reasoning parts opaqueState => rfl
  | toolCall call => rfl
  | toolResult result => cases notResult

/-- Results behind a message without calls break the list. -/
theorem broken_of_pending {result : ToolResultItem}
    (isLast : entries.map Entry.kind = first :: earlier)
    (noCalls : first = .other ∨ first = .assistant []) :
    Broken ((Entry.run items (result :: results) entries).map Entry.kind) := by
  have flushed (results : List ToolResultItem) :
      Broken ((Entry.answers (result :: results) entries).map Entry.kind) := by
    rw [kinds_answers, isLast, List.map_cons, List.reverse_cons, List.append_assoc,
      List.singleton_append]
    apply Broken.append
    apply Broken.append
    exact broken_of_clash (.inr ⟨noCalls, rfl⟩)
  induction items generalizing results with
  | nil => exact flushed results
  | cons item items ih =>
    by_cases isResult : item.isToolResult = true
    · cases item with
      | toolResult next => exact ih
      | message => cases isResult
      | reasoning => cases isResult
      | toolCall => cases isResult
    · rw [run_eq_answers items _ _ (by simpa using isResult)]
      exact (flushed results).run

theorem broken_of_resultFollows (isLast : entries.map Entry.kind = first :: earlier)
    (noCalls : first = .other ∨ first = .assistant []) (follows : resultFollows items = true) :
    Broken ((Entry.run items [] entries).map Entry.kind) := by
  induction items generalizing entries first earlier with
  | nil => cases follows
  | cons item items ih =>
    cases item with
    | message role content => cases follows
    | toolCall call => cases follows
    | toolResult result => exact broken_of_pending isLast noCalls
    | reasoning parts opaqueState =>
      rcases kinds_reason_cases parts opaqueState entries with same | opened
      · exact ih (same.trans isLast) noCalls follows
      · exact ih opened (.inr rfl) follows

/-! ## A whole run -/

def mediaIn (results : List ToolResultItem) : Bool :=
  results.any fun result => result.content.any SemanticContent.isImage

/-- The place of a stage, where these results are still to be written. -/
def Stage.place (results : List ToolResultItem) : Stage → Place
  | outside => .outside
  | calling _ => .calling
  | answering _ _ => .answering (mediaIn results)

/-- What the messages look like as long as nothing has disturbed an exchange. -/
def Stage.Holds (results : List ToolResultItem) (entries : List Entry) : Stage → Prop
  | outside => results = [] ∧ ToolsAdjacent (entries.map Entry.kind).reverse
  | calling calls => results = [] ∧ calls ≠ [] ∧ ∃ earlier,
      entries.map Entry.kind = .assistant calls :: earlier ∧ ToolsAdjacent earlier.reverse
  | answering calls answered => answered ≠ [] ∧ ∃ earlier,
      (results.map fun result => MessageKind.tool result.callId).reverse ++
          entries.map Entry.kind =
        (answered.map MessageKind.tool).reverse ++ .assistant calls :: earlier ∧
      ToolsAdjacent earlier.reverse

/-- A finished exchange leaves the messages adjacent. -/
theorem Stage.Holds.leave (holds : (answering calls answered).Holds results entries)
    (same : SameIds calls answered) : outside.Holds [] (Entry.answers results entries) := by
  obtain ⟨-, earlier, shape, adjacent⟩ := holds
  have exchange := adjacent.exchange same
  refine ⟨rfl, ?_⟩
  rw [kinds_answers, shape]
  split
  · simpa using exchange.append (.inl rfl)
  · simpa using exchange

theorem Stage.Holds.push {next : List Entry} {kind : MessageKind} (holds : outside.Holds [] entries)
    (silent : kind = .other ∨ kind = .assistant [])
    (pushed : next.map Entry.kind = kind :: entries.map Entry.kind) : outside.Holds [] next := by
  refine ⟨rfl, ?_⟩
  rw [pushed, List.reverse_cons]
  exact holds.2.append silent

theorem Stage.Holds.reason (holds : outside.Holds [] entries) (parts : List ReasoningPart)
    (opaqueState : Option OpaqueReasoningState) :
    outside.Holds [] (Entry.reason parts opaqueState entries) := by
  rcases kinds_reason_cases parts opaqueState entries with same | opened
  · refine ⟨rfl, ?_⟩
    rw [same]
    exact holds.2
  · exact holds.push (.inr rfl) opened

/-- A last message without calls can be taken away. -/
theorem ToolsAdjacent.dropLast (adjacent : ToolsAdjacent (kinds ++ [.assistant []])) :
    ToolsAdjacent kinds := by
  constructor
  · intro earlier callId later shape
    exact adjacent.1 earlier callId (later ++ [.assistant []]) (by rw [shape]; simp)
  · intro earlier calls later shape callId isCall
    have member := adjacent.2 earlier calls (later ++ [.assistant []]) (by rw [shape]; simp)
      callId isCall
    rw [List.takeWhile_append] at member
    split at member
    · next whole =>
      rw [List.takeWhile_cons_of_neg (by simp [MessageKind.isTool]), List.append_nil] at member
      rw [(List.takeWhile_prefix _).eq_of_length whole]
      exact member
    · exact member

/-- The first call of an exchange joins a last assistant message, which has none. -/
theorem Stage.Holds.call (holds : outside.Holds [] entries) (item : ToolCallItem) :
    (calling [item.callId]).Holds [] (Entry.call item entries) := by
  refine ⟨rfl, List.cons_ne_nil _ _, ?_⟩
  have adjacent := holds.2
  cases entries with
  | nil => exact ⟨[], rfl, adjacent⟩
  | cons entry entries =>
    cases entry with
    | other => exact ⟨_, rfl, adjacent⟩
    | answer callId => exact ⟨_, rfl, adjacent⟩
    | turn calls held =>
      rw [List.map_cons, List.reverse_cons] at adjacent
      have none : calls = [] := by
        by_contra some
        obtain ⟨call, rest, rfl⟩ := List.exists_cons_of_ne_nil some
        have answered := adjacent.2 _ _ [] rfl call.callId (by simp)
        cases answered
      subst none
      exact ⟨_, rfl, adjacent.dropLast⟩

/-- Up to here nothing has disturbed an exchange; then the rest decides. -/
theorem run_adjacent_iff {stage : Stage} (paired : PairedFrom stage items)
    (holds : stage.Holds results entries) :
    ToolsAdjacent ((Entry.run items results entries).map Entry.kind).reverse ↔
      Undisturbed (stage.place results) items := by
  induction items generalizing stage results entries with
  | nil =>
    cases stage with
    | outside =>
      obtain ⟨rfl, adjacent⟩ := holds
      exact iff_of_true adjacent trivial
    | calling calls => cases paired
    | answering calls answered => exact iff_of_true (holds.leave paired).2 trivial
  | cons item items ih =>
    cases item with
    | message role content =>
      have silent : (if role = .assistant then Entry.turn [] [] else .other).kind = .other ∨
          (if role = .assistant then Entry.turn [] [] else .other).kind = .assistant [] := by
        split
        · exact .inr rfl
        · exact .inl rfl
      cases stage with
      | outside =>
        obtain ⟨rfl, adjacent⟩ := holds
        exact ih paired (Stage.Holds.push ⟨rfl, adjacent⟩ silent rfl)
      | calling calls => cases paired
      | answering calls answered =>
        exact ih paired.2 (Stage.Holds.push (holds.leave paired.1) silent rfl)
    | toolCall call =>
      cases stage with
      | outside =>
        obtain ⟨rfl, adjacent⟩ := holds
        exact ih paired (Stage.Holds.call ⟨rfl, adjacent⟩ call)
      | calling calls =>
        obtain ⟨rfl, some, earlier, isLast, adjacent⟩ := holds
        apply ih paired
        refine ⟨rfl, List.append_ne_nil_of_left_ne_nil some _, earlier, ?_, adjacent⟩
        cases entries with
        | nil => cases isLast
        | cons entry entries =>
          cases entry with
          | other => cases isLast
          | answer callId => cases isLast
          | turn items held =>
            cases isLast
            simp [Entry.answers, Entry.call, Entry.kind]
      | answering calls answered =>
        exact ih paired.2 (Stage.Holds.call (holds.leave paired.1) call)
    | toolResult result =>
      cases stage with
      | outside => cases paired
      | calling calls =>
        obtain ⟨rfl, -, earlier, isLast, adjacent⟩ := holds
        have answering : (Stage.answering calls [result.callId]).Holds [result] entries :=
          ⟨List.cons_ne_nil _ _, earlier, by simp [isLast], adjacent⟩
        simpa [Stage.place, mediaIn, Undisturbed, Entry.run] using ih paired answering
      | answering calls answered =>
        obtain ⟨some, earlier, shape, adjacent⟩ := holds
        have answering : (Stage.answering calls (answered ++ [result.callId])).Holds
            (results ++ [result]) entries :=
          ⟨by simp, earlier, by simp [shape], adjacent⟩
        simpa [Stage.place, mediaIn, Undisturbed, Entry.run] using ih paired answering
    | reasoning parts opaqueState =>
      cases stage with
      | outside =>
        obtain ⟨rfl, adjacent⟩ := holds
        exact ih paired (Stage.Holds.reason ⟨rfl, adjacent⟩ parts opaqueState)
      | calling calls =>
        obtain ⟨rfl, some, earlier, isLast, adjacent⟩ := holds
        by_cases text : reasoningEffect parts opaqueState = .text
        · have opened : (Entry.reason parts opaqueState entries).map Entry.kind =
              .assistant [] :: entries.map Entry.kind := by
            apply kinds_reason_text text
            rw [← List.head?_map, isLast]
            simpa using some
          obtain ⟨call, rest, rfl⟩ := List.exists_cons_of_ne_nil some
          have broken : Broken ((Entry.reason parts opaqueState entries).map Entry.kind) := by
            rw [opened, isLast]
            exact broken_of_clash (.inl ⟨call, rest, rfl, rfl⟩)
          exact iff_of_false broken.run.not_adjacent fun undisturbed => undisturbed.1 text
        · have joins := kinds_reason_joins text isLast
          have calling : (Stage.calling calls).Holds []
              (Entry.reason parts opaqueState entries) :=
            ⟨rfl, some, earlier, joins.trans isLast, adjacent⟩
          exact (ih paired calling).trans (and_iff_right text).symm
      | answering calls answered =>
        cases follows : resultFollows items with
        | false =>
          obtain ⟨same, rest⟩ := PairedFrom.leave paired follows
          have next := ih rest (Stage.Holds.reason (holds.leave same) parts opaqueState)
          simpa [Stage.place, Undisturbed, follows, Entry.run] using next
        | true =>
          have unfolded : Undisturbed ((Stage.answering calls answered).place results)
              (.reasoning parts opaqueState :: items) ↔
                reasoningEffect parts opaqueState = .nothing ∧ mediaIn results = false ∧
                  Undisturbed (.answering (mediaIn results)) items := by
            simp [Stage.place, Undisturbed, follows]
          rw [unfolded]
          have kinds := kinds_answers results entries
          obtain ⟨some, earlier, shape, adjacent⟩ := holds
          rw [shape] at kinds
          by_cases media : mediaIn results = true
          · rw [mediaIn] at media
            rw [if_pos media] at kinds
            have broken : Broken ((Entry.run (.reasoning parts opaqueState :: items) results
                entries).map Entry.kind) := by
              rw [run_eq_answers items results entries rfl]
              exact broken_of_resultFollows kinds (.inl rfl) follows
            refine iff_of_false broken.not_adjacent ?_
            rintro ⟨-, none, -⟩
            rw [mediaIn, media] at none
            cases none
          · have noMedia : mediaIn results = false := by simpa using media
            rw [mediaIn] at media
            rw [if_neg media, List.nil_append] at kinds
            by_cases nothing : reasoningEffect parts opaqueState = .nothing
            · have answering : (Stage.answering calls answered).Holds []
                  (Entry.answers results entries) :=
                ⟨some, earlier, kinds, adjacent⟩
              rw [Entry.run, reason_eq_of_nothing _ nothing, noMedia]
              exact (ih paired answering).trans
                ⟨fun rest => ⟨nothing, rfl, rest⟩, fun rest => rest.2.2⟩
            · obtain ⟨others, last, rfl⟩ := List.eq_nil_or_concat' answered |>.resolve_left some
              rw [List.map_append, List.reverse_append, List.map_singleton, List.reverse_singleton,
                List.singleton_append, List.cons_append] at kinds
              have broken : Broken ((Entry.run items []
                  (Entry.reason parts opaqueState (Entry.answers results entries))).map
                    Entry.kind) := by
                exact broken_of_resultFollows (kinds_reason_opens nothing kinds) (.inr rfl) follows
              exact iff_of_false broken.not_adjacent fun undisturbed => nothing undisturbed.1

/-- Where calls and results are paired up to reasoning, the messages of a request keep them
together exactly if no reasoning disturbs an exchange. -/
theorem chatMessages_adjacent_iff (request : SemanticRequest)
    (decoded : ∀ item ∈ request.items, item.Decoded)
    (paired : Paired (request.items.filter fun item => !item.isReasoning))
    (degradations : List ConversionDegradationRule) :
    ToolsAdjacent ((encodeChatMessages request degradations).1.map messageKind) ↔
      Undisturbed .outside request.items := by
  have start : Stage.outside.Holds [] (if request.instructions =
      [] then [] else [Entry.other]) := by
    have empty : Stage.outside.Holds [] [] := by
      refine ⟨rfl, ?_, ?_⟩
      · intro earlier callId later shape
        exact absurd shape (by simp)
      · intro earlier calls later shape
        exact absurd shape (by simp)
    split
    · exact empty
    · exact empty.push (.inl rfl) rfl
  rw [(encodeChatMessages_abstracts decoded degradations).map_messageKind, chatEntries,
    List.map_reverse]
  exact run_adjacent_iff ((pairedFrom_filter _ _).mp paired.pairedFrom) start

/-- Two calls with reasoning between them, and their results. -/
def interleaved (parts : List ReasoningPart) (opaqueState : Option OpaqueReasoningState) :
    SemanticRequest where
  instructions := []
  items := [
    .toolCall ⟨js "a", js "tool", js "input"⟩,
    .reasoning parts opaqueState,
    .toolCall ⟨js "b", js "tool", js "input"⟩,
    .toolResult ⟨js "a", [], false⟩,
    .toolResult ⟨js "b", [], false⟩]
  degradations := []

theorem paired_interleaved (parts : List ReasoningPart)
    (opaqueState : Option OpaqueReasoningState) :
    Paired ((interleaved parts opaqueState).items.filter fun item => !item.isReasoning) :=
  .exchange ⟨js "a", js "tool", js "input"⟩ [⟨js "b", js "tool", js "input"⟩]
    [⟨js "a", [], false⟩, ⟨js "b", [], false⟩] (fun _ => Iff.rfl) .nil

/-- A Chat state between two calls goes back to the message of the calls. -/
theorem chatMessages_adjacent_iff_state :
    ToolsAdjacent ((encodeChatMessages (interleaved []
      (some (.chatState [(js "reasoning_opaque", .string (js "state"))]))) []).1.map
        messageKind) := by
  have decoded : ∀ item ∈ (interleaved []
      (some (.chatState [(js "reasoning_opaque", .string (js "state"))]))).items, item.Decoded := by
    simp [interleaved, SemanticRequestItem.Decoded, chatStateNames]
  apply (chatMessages_adjacent_iff _ decoded (paired_interleaved _ _) []).mpr
  simp [interleaved, Undisturbed, reasoningEffect]

/-- A text between two calls stands between the first call and its answer. -/
theorem chatMessages_not_adjacent :
    Paired ((interleaved [⟨.summary, 0, js "text"⟩] none).items.filter
      fun item => !item.isReasoning) ∧
    ¬ ToolsAdjacent ((encodeChatMessages (interleaved [⟨.summary, 0, js "text"⟩] none) []).1.map
        messageKind) := by
  refine ⟨paired_interleaved _ _, ?_⟩
  have kinds : (encodeChatMessages (interleaved [⟨.summary, 0, js "text"⟩] none) []).1.map
      messageKind = [.tool (js "b"), .tool (js "a"), .assistant [js "b"],
        .assistant [js "a"]].reverse := by
    decide
  rw [kinds]
  apply Broken.not_adjacent
  exact ⟨[.tool (js "b"), .tool (js "a")], _, _, [], rfl, .inl ⟨js "a", [], rfl, rfl⟩⟩

end GhcGateway.Requests
