/-
# The shape of a Messages request

The messages of a body that `encodeMessagesRequest` accepts start with a user message that
has content, and user and assistant alternate. Every call and every result of the request is a
block of them, once and in the order of the items, unless the messages began with a user
message of tool results and nothing else to see: that one is replaced, and its results are
gone.
-/

import GhcGateway.Requests.MessagesPieces

namespace GhcGateway.Requests

open Conversion Library

variable {pieces : List (Option (Speaker × List WireJson))} {items : List SemanticRequestItem}
  {marked : List WireJson}

/-! ## Well shaped messages -/

/-- Messages as the target expects them. -/
structure WellShaped (messages : List WireJson) : Prop where
  roles : ∀ message ∈ messages, roleOf message = some (.string (js "user")) ∨
    roleOf message = some (.string (js "assistant"))
  leading : ∃ first others, messages = first :: others ∧
    roleOf first = some (.string (js "user")) ∧
    hasSubstantiveMessagesUserContent (contentOf first) = true
  alternating : messages.IsChain fun first second => roleOf first ≠ roleOf second

/-! ## Marks do not matter -/

theorem map_set_eq {α β : Type} {items : List α} {index : Nat} {old new : α} (read : α → β)
    (isItem : items[index]? = some old) (same : read new = read old) :
    (items.set index new).map read = items.map read := by
  induction items generalizing index with
  | nil => rfl
  | cons item items ih =>
    cases index with
    | zero =>
      cases isItem
      rw [List.set_cons_zero, List.map_cons, List.map_cons, same]
    | succ index => rw [List.set_cons_succ, List.map_cons, List.map_cons, ih isItem]

theorem oneMember_withCacheControl (block : WireJsonObject) {key : String}
    (apart : js key ≠ js "cache_control") :
    oneMember (withCacheControl block) key = oneMember block key := by
  simp [withCacheControl, oneMember, memberValues, apart.symm]

theorem toolReference_withCacheControl (block : WireJsonObject) :
    toolReference (.object (withCacheControl block)) = toolReference (.object block) := by
  simp only [toolReference]
  rw [oneMember_withCacheControl block (by decide), oneMember_withCacheControl block (by decide),
    oneMember_withCacheControl block (by decide), oneMember_withCacheControl block (by decide)]

theorem isSubstantiveBlock_withCacheControl (block : WireJsonObject) :
    isSubstantiveBlock (.object (withCacheControl block)) = isSubstantiveBlock (.object block) := by
  simp only [isSubstantiveBlock, hasSubstantiveMessagesUserContent, List.any_cons, List.any_nil]
  rw [oneMember_withCacheControl block (by decide), oneMember_withCacheControl block (by decide)]

/-- Two messages that no reader of this module tells apart. -/
structure Alike (first second : WireJson) : Prop where
  role : roleOf first = roleOf second
  references : toolReferences first = toolReferences second
  substantive : hasSubstantiveMessagesUserContent (contentOf first) =
    hasSubstantiveMessagesUserContent (contentOf second)

theorem Marked.alike {first second : WireJson} (marked : Marked first second) :
    Alike first second := by
  induction marked with
  | refl => exact ⟨rfl, rfl, rfl⟩
  | trans _ _ before after =>
    exact ⟨before.role.trans after.role, before.references.trans after.references,
      before.substantive.trans after.substantive⟩
  | @mark message content index block isContent isBlock =>
    have old : contentOf (.object message) = some (.array content) := isContent
    have new : contentOf (.object (withMember message "content"
        (.array (content.set index (.object (withCacheControl block)))))) =
          some (.array (content.set index (.object (withCacheControl block)))) :=
      oneMember_withMember _ _ _ (by rw [isContent]; simp)
    have references := map_set_eq toolReference isBlock (toolReference_withCacheControl block)
    have blocks := map_set_eq isSubstantiveBlock isBlock (isSubstantiveBlock_withCacheControl block)
    refine ⟨?_, ?_, ?_⟩
    · exact (oneMember_withMember_of_ne _ (by decide)).symm
    · rw [toolReferences, toolReferences, old, new]
      have same := congrArg List.reduceOption references
      simpa [List.reduceOption, List.filterMap_map] using same.symm
    · rw [old, new, hasSubstantive_array, hasSubstantive_array]
      have same := congrArg (fun values => values.any id) blocks
      simp only [List.any_map, Function.id_comp] at same
      exact same.symm

theorem references_of_alike {items : List WireJson} (alike : List.Forall₂ Alike items marked) :
    marked.flatMap toolReferences = items.flatMap toolReferences := by
  induction alike with
  | nil => rfl
  | cons same _ ih => rw [List.flatMap_cons, List.flatMap_cons, ih, same.references]

theorem wellShaped_of_alike {items : List WireJson} (alike : List.Forall₂ Alike items marked)
    (shaped : WellShaped items) : WellShaped marked := by
  have roles : items.map roleOf = marked.map roleOf := by
    clear shaped
    induction alike with
    | nil => rfl
    | cons same _ ih => rw [List.map_cons, List.map_cons, same.role, ih]
  refine ⟨?_, ?_, ?_⟩
  · intro message isMessage
    have isRole : roleOf message ∈ items.map roleOf := roles ▸ List.mem_map_of_mem isMessage
    obtain ⟨old, isOld, same⟩ := List.mem_map.mp isRole
    rw [← same]
    exact shaped.roles old isOld
  · obtain ⟨first, others, rfl, isUser, substantive⟩ := shaped.leading
    cases alike with
    | cons same rest => exact ⟨_, _, rfl, same.role ▸ isUser, same.substantive ▸ substantive⟩
  · have chain : (items.map roleOf).IsChain fun first second => first ≠ second :=
      List.isChain_map roleOf |>.mpr shaped.alternating
    rw [roles] at chain
    exact (List.isChain_map roleOf).mp chain

/-! ## The first message -/

/-- The first user message of the items kept every result in it: it has something to see, or
there is no result in it. -/
def LeadingKept (items : List SemanticRequestItem) : Prop :=
  (leadingItems items).any SemanticRequestItem.speaks = true ∨
    (leadingItems items).any SemanticRequestItem.isToolResult = false

abbrev AllWrite (items : List SemanticRequestItem)
    (pieces : List (Option (Speaker × List WireJson))) : Prop :=
  List.Forall₂ Writes items pieces

theorem AllWrite.references (write : AllWrite items pieces) :
    (pieces.reduceOption.flatMap Prod.snd).filterMap toolReference =
      items.filterMap SemanticRequestItem.reference := by
  induction write with
  | nil => rfl
  | @cons item piece items pieces writes _ ih =>
    have references := writes.references
    cases piece with
    | none =>
      have noReference : item.reference = none := by
        cases isReference : item.reference with
        | none => rfl
        | some reference =>
          rw [isReference] at references
          cases references
      rw [List.reduceOption_cons_of_none, List.filterMap_cons_none noReference, ih]
    | some piece =>
      rw [List.reduceOption_cons_of_some, List.flatMap_cons, List.filterMap_append, ih]
      rw [show piece.2.filterMap toolReference = item.reference.toList from references]
      cases isReference : item.reference with
      | none => rw [List.filterMap_cons_none isReference]; rfl
      | some reference => rw [List.filterMap_cons_some isReference]; rfl

/-- The leading pieces of the user hold what the leading items wrote. -/
theorem AllWrite.leading (write : AllWrite items pieces) :
    AllWrite (leadingItems items) ((pieces.takeWhile fun piece =>
        !piece.any fun piece => piece.1 = .assistant)) ∧
      (pieces.takeWhile fun piece => !piece.any fun piece => piece.1 = .assistant).reduceOption =
        pieces.reduceOption.takeWhile fun piece => piece.1 = .user := by
  induction write with
  | nil => exact ⟨.nil, rfl⟩
  | @cons item piece items pieces writes rest ih =>
    have assistant := writes.assistant
    cases piece with
    | none =>
      have notAssistant : item.writesAssistant = false := by
        rw [← Bool.not_eq_true, assistant]
        simp
      rw [leadingItems, List.takeWhile_cons_of_pos (by simp [notAssistant]),
        List.takeWhile_cons_of_pos (by simp), List.reduceOption_cons_of_none,
        List.reduceOption_cons_of_none]
      exact ⟨.cons writes ih.1, ih.2⟩
    | some piece =>
      obtain ⟨speaker, blocks⟩ := piece
      cases speaker with
      | user =>
        have notAssistant : item.writesAssistant = false := by
          rw [← Bool.not_eq_true, assistant]
          simp
        rw [leadingItems, List.takeWhile_cons_of_pos (by simp [notAssistant]),
          List.takeWhile_cons_of_pos (by simp), List.reduceOption_cons_of_some,
          List.reduceOption_cons_of_some, List.takeWhile_cons_of_pos (by simp), ih.2]
        exact ⟨.cons writes ih.1, rfl⟩
      | assistant =>
        have isAssistant : item.writesAssistant = true := assistant.mpr ⟨blocks, rfl⟩
        rw [leadingItems, List.takeWhile_cons_of_neg (by simp [isAssistant]),
          List.takeWhile_cons_of_neg (by simp), List.reduceOption_cons_of_some,
          List.takeWhile_cons_of_neg (by simp)]
        exact ⟨.nil, rfl⟩

theorem AllWrite.speaks (write : AllWrite items pieces)
    (users : ∀ piece ∈ pieces.reduceOption, piece.1 = Speaker.user) :
    (pieces.reduceOption.flatMap Prod.snd).any isSubstantiveBlock =
      items.any SemanticRequestItem.speaks := by
  induction write with
  | nil => rfl
  | @cons item piece items pieces writes _ ih =>
    have speaks := writes.speaks
    cases piece with
    | none =>
      rw [List.reduceOption_cons_of_none] at users ⊢
      rw [ih users, List.any_cons, ← speaks]
      rfl
    | some piece =>
      rw [List.reduceOption_cons_of_some] at users ⊢
      rw [List.forall_mem_cons] at users
      rw [List.flatMap_cons, List.any_append, ih users.2, List.any_cons, ← speaks]
      simp [users.1]

/-- No call is among the leading items. -/
theorem leadingItems_references (items : List SemanticRequestItem) :
    (leadingItems items).filterMap SemanticRequestItem.reference = [] ↔
      (leadingItems items).any SemanticRequestItem.isToolResult = false := by
  induction items with
  | nil => simp [leadingItems]
  | cons item items ih =>
    rw [leadingItems]
    by_cases assistant : item.writesAssistant = true
    · rw [List.takeWhile_cons_of_neg (by simp [assistant])]
      simp
    · rw [List.takeWhile_cons_of_pos (by simpa using assistant), ← leadingItems, List.any_cons]
      cases item with
      | message role content =>
        rw [List.filterMap_cons_none rfl, ih]
        simp [SemanticRequestItem.isToolResult]
      | reasoning parts opaqueState =>
        rw [List.filterMap_cons_none rfl, ih]
        simp [SemanticRequestItem.isToolResult]
      | toolCall call => exact absurd rfl assistant
      | toolResult result =>
        simp [SemanticRequestItem.reference, SemanticRequestItem.isToolResult]

/-! ## Runs as messages -/

/-- The messages of runs that come in their order. -/
def runMessages (runs : List (Speaker × List WireJson)) : List WireJson :=
  runs.map fun run => .object (messageOf run)

theorem roleOf_messageOf (run : Speaker × List WireJson) :
    roleOf (.object (messageOf run)) = some (.string (js run.1.text)) :=
  (hasRole_messageOf run run.1).mpr rfl

theorem toolReferences_messageOf (run : Speaker × List WireJson) :
    toolReferences (.object (messageOf run)) = run.2.filterMap toolReference := by
  have content : contentOf (.object (messageOf run)) = some (.array run.2) :=
      oneMember_messageOf run
  rw [toolReferences, content]

theorem toolReferences_runMessages (runs : List (Speaker × List WireJson)) :
    (runMessages runs).flatMap toolReferences =
      (runs.flatMap Prod.snd).filterMap toolReference := by
  induction runs with
  | nil => rfl
  | cons run runs ih =>
    rw [runMessages, List.map_cons, ← runMessages, List.flatMap_cons, List.flatMap_cons,
      List.filterMap_append, ih, toolReferences_messageOf]

theorem wellShaped_runMessages {first : Speaker × List WireJson}
    {others : List (Speaker × List WireJson)} (isUser : first.1 = .user)
    (substantive : first.2.any isSubstantiveBlock = true)
    (alternating : (first :: others).IsChain fun run next => run.1 ≠ next.1) :
    WellShaped (runMessages (first :: others)) := by
  refine ⟨?_, ?_, ?_⟩
  · intro message isMessage
    obtain ⟨run, -, rfl⟩ := List.mem_map.mp isMessage
    rw [roleOf_messageOf]
    cases run.1 with
    | user => exact .inl rfl
    | assistant => exact .inr rfl
  · refine ⟨_, _, rfl, ?_, ?_⟩
    · rw [roleOf_messageOf, isUser]
      rfl
    · have content : contentOf (.object (messageOf first)) = some (.array first.2) :=
        oneMember_messageOf first
      rw [content, hasSubstantive_array, substantive]
  · rw [runMessages, List.isChain_map]
    apply alternating.imp
    intro run next apart same
    rw [roleOf_messageOf, roleOf_messageOf, Option.some.injEq, WireJson.string.injEq] at same
    exact apart (js_speaker_injective same)

def syntheticRun : Speaker × List WireJson :=
  (.user, [.object (messagesText (js "(continuing the conversation)"))])

/-- The first run is the user's and has something to see. -/
def leadsRuns : List (Speaker × List WireJson) → Bool
  | [] => false
  | first :: _ => first.1 = .user && first.2.any isSubstantiveBlock

def withLeadingRun (runs : List (Speaker × List WireJson)) : List (Speaker × List WireJson) :=
  if leadsRuns runs then runs
  else
    match runs with
    | [] => [syntheticRun]
    | first :: others =>
      if first.1 = .user then syntheticRun :: others else syntheticRun :: first :: others

theorem withLeadingUser_map (runs : List (Speaker × List WireJson)) :
    (withLeadingUser (runs.map messageOf)).1 = (withLeadingRun runs).map messageOf := by
  cases runs with
  | nil => rfl
  | cons first others =>
    have isUser : hasRole (messageOf first) "user" ↔ first.1 = .user :=
      hasRole_messageOf first .user
    have leading : hasSubstantiveLeadingMessagesUser ((first :: others).map messageOf) =
        leadsRuns (first :: others) := by
      simp [hasSubstantiveLeadingMessagesUser, leadsRuns, isUser, oneMember_messageOf,
        hasSubstantive_array]
    unfold withLeadingUser withLeadingRun
    rw [leading]
    by_cases leads : leadsRuns (first :: others) = true
    · have turn : hasSubstantiveMessagesTurn (messageOf first) = true := by
        have both : first.1 = .user ∧ first.2.any isSubstantiveBlock = true := by
          simpa [leadsRuns] using leads
        rw [hasSubstantiveMessagesTurn, if_pos (isUser.mpr both.1), oneMember_messageOf,
          hasSubstantive_array]
        exact both.2
      have any : ((first :: others).map messageOf).any hasSubstantiveMessagesTurn = true := by
        rw [List.map_cons, List.any_cons, turn, Bool.true_or]
      rw [if_neg (not_or.mpr ⟨not_not.mpr any, not_not.mpr leads⟩), if_pos leads]
    · rw [if_pos (.inr leads), if_neg leads, List.map_cons]
      dsimp only
      by_cases same : first.1 = .user
      · rw [if_pos (isUser.mpr same), if_pos same]
        rfl
      · rw [if_neg (mt isUser.mp same), if_neg same]
        rfl

/-- A leading run of the user makes the messages well shaped. -/
theorem wellShaped_withLeadingRun {runs : List (Speaker × List WireJson)}
    (alternating : runs.IsChain fun run next => run.1 ≠ next.1) :
    WellShaped (runMessages (withLeadingRun runs)) := by
  have synthetic : syntheticRun.2.any isSubstantiveBlock = true := by decide
  unfold withLeadingRun
  cases runs with
  | nil => exact wellShaped_runMessages rfl synthetic (List.isChain_singleton _)
  | cons first others =>
    by_cases leads : leadsRuns (first :: others) = true
    · rw [if_pos leads]
      have both : first.1 = .user ∧ first.2.any isSubstantiveBlock = true := by
        simpa [leadsRuns] using leads
      exact wellShaped_runMessages both.1 both.2 alternating
    · rw [if_neg leads]
      dsimp only
      split
      case isTrue same =>
        apply wellShaped_runMessages rfl synthetic
        cases others with
        | nil => exact List.isChain_singleton _
        | cons next others =>
          rw [List.isChain_cons_cons] at alternating ⊢
          exact ⟨fun isNext => alternating.1 (same.trans isNext), alternating.2⟩
      case isFalse apart =>
        exact wellShaped_runMessages rfl synthetic
          (List.isChain_cons_cons.mpr ⟨fun isFirst => apart isFirst.symm, alternating⟩)

/-- The first run, if it is the user's, holds the leading pieces. -/
theorem head?_runs (pieces : List (Speaker × List WireJson)) :
    match (runsFrom [] pieces).reverse with
    | [] => pieces = []
    | first :: _ =>
      if first.1 = .user then
        first.2 = (pieces.takeWhile fun piece => piece.1 = .user).flatMap Prod.snd
      else (pieces.takeWhile fun piece => piece.1 = .user) = [] := by
  cases pieces with
  | nil => rfl
  | cons piece pieces =>
    have first := getLast?_runs piece.1 piece.2 pieces
    rw [← List.head?_reverse] at first
    have runs : runsFrom [] (piece :: pieces) = runsFrom [(piece.1, piece.2)] pieces := rfl
    rw [runs]
    cases shape : (runsFrom [(piece.1, piece.2)] pieces).reverse with
    | nil =>
      rw [shape] at first
      cases first
    | cons run others =>
      rw [shape, List.head?_cons, Option.some.injEq] at first
      subst first
      dsimp only
      split
      case isTrue isUser =>
        rw [List.takeWhile_cons_of_pos (by simpa using isUser), List.flatMap_cons, isUser]
      case isFalse notUser => rw [List.takeWhile_cons_of_neg (by simpa using notUser)]

/-! ## Requests -/

/-- The messages of some items: well shaped, and complete exactly if the leading items kept
their results. -/
theorem shape_of_items {messages : List WireJsonObject} (keeps : ∀ item ∈ items, item.KeepsThinking)
    (encoded : encodeMessagesItems items = .ok messages) :
    WellShaped ((withLeadingUser messages).1.map .object) ∧
      (((withLeadingUser messages).1.map .object).flatMap toolReferences =
          items.filterMap SemanticRequestItem.reference ↔ LeadingKept items) := by
  obtain ⟨pieces, arePieces, rfl⟩ := encodeMessagesItems_eq encoded
  have write : AllWrite items pieces := by
    clear encoded
    induction arePieces with
    | nil => exact .nil
    | cons isPiece _ ih =>
      rw [List.forall_mem_cons] at keeps
      exact .cons (writes_of_pieceOf keeps.1 isPiece) (ih keeps.2)
  have alternating : (runsFrom [] pieces.reduceOption).reverse.IsChain
      fun run next => run.1 ≠ next.1 := by
    rw [List.isChain_reverse]
    exact (Alternating.runsFrom List.isChain_nil _).imp fun _ _ apart => Ne.symm apart
  have whole : ((runsFrom [] pieces.reduceOption).reverse.flatMap Prod.snd).filterMap
      toolReference = items.filterMap SemanticRequestItem.reference := by
    rw [flatten_runsFrom]
    exact write.references
  have head := head?_runs pieces.reduceOption
  obtain ⟨leadingWrite, leadingPieces⟩ := write.leading
  have leadingReferences := leadingWrite.references
  have leadingSpeaks := leadingWrite.speaks (by
    rw [leadingPieces]
    intro piece isLeading
    simpa using List.mem_takeWhile_imp isLeading)
  rw [leadingPieces] at leadingReferences leadingSpeaks
  rw [← List.map_reverse, withLeadingUser_map, List.map_map]
  generalize (runsFrom [] pieces.reduceOption).reverse = runs at *
  refine ⟨wellShaped_withLeadingRun alternating, ?_⟩
  have complete : (runMessages (withLeadingRun runs)).flatMap toolReferences =
      items.filterMap SemanticRequestItem.reference ↔
        ((withLeadingRun runs).flatMap Prod.snd).filterMap toolReference =
          (runs.flatMap Prod.snd).filterMap toolReference := by
    rw [toolReferences_runMessages, whole]
  refine complete.trans ?_
  have synthetic : syntheticRun.2.filterMap toolReference = [] := by decide
  unfold withLeadingRun
  by_cases leads : leadsRuns runs = true
  · rw [if_pos leads]
    refine iff_of_true rfl (.inl ?_)
    cases runs with
    | nil => cases leads
    | cons first others =>
      have both : first.1 = .user ∧ first.2.any isSubstantiveBlock = true := by
        simpa [leadsRuns] using leads
      dsimp only at head
      rw [if_pos both.1] at head
      rw [← leadingSpeaks, ← head]
      exact both.2
  · rw [if_neg leads]
    cases runs with
    | nil =>
      dsimp only at head
      rw [head] at leadingReferences
      refine iff_of_true (by simpa using synthetic) (.inr ?_)
      exact (leadingItems_references items).mp leadingReferences.symm
    | cons first others =>
      dsimp only at head ⊢
      by_cases isUser : first.1 = .user
      · rw [if_pos isUser] at head ⊢
        have blank : first.2.any isSubstantiveBlock = false := by
          simpa [leadsRuns, isUser] using leads
        rw [← head] at leadingReferences leadingSpeaks
        rw [List.flatMap_cons, List.flatMap_cons, List.filterMap_append, List.filterMap_append,
          synthetic, List.nil_append, List.self_eq_append_left, leadingReferences,
          leadingItems_references, LeadingKept, ← leadingSpeaks, blank]
        simp
      · rw [if_neg isUser] at head ⊢
        rw [head] at leadingReferences
        refine iff_of_true ?_ (.inr ?_)
        · rw [List.flatMap_cons, List.filterMap_append, synthetic, List.nil_append]
        · exact (leadingItems_references items).mp leadingReferences.symm

theorem shows_replaceContent (content : List SemanticContent) (preserveImages : Bool) :
    (replaceContent content preserveImages).any SemanticContent.shows =
      content.any SemanticContent.shows := by
  have replacement : unsupportedImageReplacement.trim ≠ [] := by decide
  rw [replaceContent, List.any_map]
  congr 1
  funext part
  rw [Function.comp_apply]
  split
  · next isImage =>
    cases part with
    | image => simpa [SemanticContent.shows] using replacement
    | text => simp [SemanticContent.isImage] at isImage
    | refusal => simp [SemanticContent.isImage] at isImage
  · rfl

/-- Replacing images changes nothing that matters here. -/
theorem replaceItem_spec (preserveImages : Bool) (item : SemanticRequestItem) :
    (replaceItem preserveImages item).reference = item.reference ∧
      (replaceItem preserveImages item).writesAssistant = item.writesAssistant ∧
      (replaceItem preserveImages item).speaks = item.speaks ∧
      (replaceItem preserveImages item).isToolResult = item.isToolResult ∧
      (item.KeepsThinking → (replaceItem preserveImages item).KeepsThinking) := by
  cases item with
  | message role content =>
    cases role with
    | user => exact ⟨rfl, rfl, shows_replaceContent _ _, rfl, fun keeps => keeps⟩
    | system => exact ⟨rfl, rfl, rfl, rfl, fun keeps => keeps⟩
    | developer => exact ⟨rfl, rfl, rfl, rfl, fun keeps => keeps⟩
    | assistant => exact ⟨rfl, rfl, rfl, rfl, fun keeps => keeps⟩
  | reasoning => exact ⟨rfl, rfl, rfl, rfl, fun keeps => keeps⟩
  | toolCall => exact ⟨rfl, rfl, rfl, rfl, fun keeps => keeps⟩
  | toolResult => exact ⟨rfl, rfl, rfl, rfl, fun keeps => keeps⟩

theorem leadingItems_map (preserveImages : Bool) (items : List SemanticRequestItem) :
    leadingItems (items.map (replaceItem preserveImages)) =
      (leadingItems items).map (replaceItem preserveImages) := by
  induction items with
  | nil => rfl
  | cons item items ih =>
    have writes := (replaceItem_spec preserveImages item).2.1
    rw [List.map_cons, leadingItems, leadingItems]
    by_cases assistant : item.writesAssistant = true
    · rw [List.takeWhile_cons_of_neg (by simp [writes, assistant]),
        List.takeWhile_cons_of_neg (by simp [assistant])]
      rfl
    · rw [List.takeWhile_cons_of_pos (by simp [writes, assistant]),
        List.takeWhile_cons_of_pos (by simp [assistant]), ← leadingItems, ih]
      rfl

theorem leadingKept_map (preserveImages : Bool) (items : List SemanticRequestItem) :
    LeadingKept (items.map (replaceItem preserveImages)) ↔ LeadingKept items := by
  have speaks : SemanticRequestItem.speaks ∘ replaceItem preserveImages =
      SemanticRequestItem.speaks := by
    funext item
    exact (replaceItem_spec preserveImages item).2.2.1
  have results : SemanticRequestItem.isToolResult ∘ replaceItem preserveImages =
      SemanticRequestItem.isToolResult := by
    funext item
    exact (replaceItem_spec preserveImages item).2.2.2.1
  rw [LeadingKept, LeadingKept, leadingItems_map, List.any_map, List.any_map, speaks, results]

/-- Instructions neither lead nor call nor answer. -/
theorem isInstruction_spec {item : SemanticRequestItem} (instruction : item.isInstruction = true) :
    item.reference = none ∧ item.writesAssistant = false ∧ item.speaks = false ∧
      item.isToolResult = false := by
  unfold SemanticRequestItem.isInstruction at instruction
  split at instruction
  · exact ⟨rfl, rfl, rfl, rfl⟩
  · exact ⟨rfl, rfl, rfl, rfl⟩
  · cases instruction

theorem leadingKept_filter (items : List SemanticRequestItem) :
    LeadingKept (items.filter fun item => !item.isInstruction) ↔ LeadingKept items := by
  have both : (leadingItems (items.filter fun item => !item.isInstruction)).any
        SemanticRequestItem.speaks = (leadingItems items).any SemanticRequestItem.speaks ∧
      (leadingItems (items.filter fun item => !item.isInstruction)).any
        SemanticRequestItem.isToolResult =
          (leadingItems items).any SemanticRequestItem.isToolResult := by
    induction items with
    | nil => exact ⟨rfl, rfl⟩
    | cons item items ih =>
      by_cases instruction : item.isInstruction = true
      · obtain ⟨-, notAssistant, silent, notResult⟩ := isInstruction_spec instruction
        have lead : leadingItems (item :: items) = item :: leadingItems items :=
          List.takeWhile_cons_of_pos (by simp [notAssistant])
        rw [List.filter_cons_of_neg (by simp [instruction]), lead, List.any_cons, List.any_cons,
          silent, notResult, Bool.false_or, Bool.false_or]
        exact ih
      · rw [List.filter_cons_of_pos (by simp [instruction]), leadingItems, leadingItems]
        by_cases assistant : item.writesAssistant = true
        · rw [List.takeWhile_cons_of_neg (by simp [assistant]),
            List.takeWhile_cons_of_neg (by simp [assistant])]
          exact ⟨rfl, rfl⟩
        · rw [List.takeWhile_cons_of_pos (by simp [assistant]),
            List.takeWhile_cons_of_pos (by simp [assistant]), ← leadingItems, ← leadingItems,
            List.any_cons, List.any_cons, List.any_cons, List.any_cons, ih.1, ih.2]
          exact ⟨rfl, rfl⟩
  rw [LeadingKept, LeadingKept, both.1, both.2]

theorem references_filter (items : List SemanticRequestItem) :
    (items.filter fun item => !item.isInstruction).filterMap SemanticRequestItem.reference =
      items.filterMap SemanticRequestItem.reference := by
  induction items with
  | nil => rfl
  | cons item items ih =>
    by_cases instruction : item.isInstruction = true
    · rw [List.filter_cons_of_neg (by simp [instruction]),
        List.filterMap_cons_none (isInstruction_spec instruction).1, ih]
    · rw [List.filter_cons_of_pos (by simp [instruction]), List.filterMap_cons,
        List.filterMap_cons, ih]

/-- The items that are encoded are those of the request, without instructions and with images
replaced. -/
theorem targetItems (request : SemanticRequest) (supportsImages : Bool) :
    ∃ replace : Bool, (applyUnsupportedImageFallback
        (collectTargetInstructions request .messagesExtensionsOmitted).1 supportsImages
          false).items =
      if replace then (request.items.filter fun item => !item.isInstruction).map (replaceItem false)
      else request.items.filter fun item => !item.isInstruction := by
  rw [applyUnsupportedImageFallback]
  split
  · exact ⟨false, rfl⟩
  · dsimp only
    split
    · exact ⟨false, rfl⟩
    · exact ⟨true, rfl⟩

theorem oneMember_messages (other : MessagesOptions) (instructions : List SemanticContent)
    (messages : List WireJsonObject) :
    oneMember (wireObject [
      ("model", some other.model),
      ("system", encodeMessagesSystem instructions),
      ("messages", some (.array (messages.map .object))),
      ("max_tokens", some other.maxTokens),
      ("temperature", other.temperature),
      ("top_p", other.topP),
      ("stop_sequences", other.stopSequences),
      ("stream", other.stream),
      ("tools", other.tools),
      ("tool_choice", other.toolChoice),
      ("output_config", other.outputConfig),
      ("metadata", other.metadata)]) "messages" = some (.array (messages.map .object)) := by
  have modelApart : js "model" ≠ js "messages" := by decide
  have systemApart : js "system" ≠ js "messages" := by decide
  cases encodeMessagesSystem instructions with
  | none => simp [wireObject, oneMember, memberValues, modelApart]
  | some system => simp [wireObject, oneMember, memberValues, modelApart, systemApart]

/-- The messages of an accepted request start with a user message that has content, and the
roles alternate; every call and every result of the request is in them, once and in order,
exactly if the leading items kept their results. -/
theorem encodeMessagesRequest_shape
    (options : SemanticRequest → Except ContractError MessagesOptions) (supportsImages : Bool)
    (request : SemanticRequest) (encoded : EncodedMessagesRequest)
    (keeps : ∀ item ∈ request.items, item.KeepsThinking)
    (accepted : encodeMessagesRequest options supportsImages request = .ok encoded) :
    ∃ messages, oneMember encoded.body "messages" = some (.array messages) ∧
      WellShaped messages ∧
      (messages.flatMap toolReferences = request.items.filterMap SemanticRequestItem.reference ↔
        LeadingKept request.items) := by
  unfold encodeMessagesRequest at accepted
  dsimp only at accepted
  obtain ⟨replace, isTarget⟩ := targetItems request supportsImages
  generalize applyUnsupportedImageFallback
    (collectTargetInstructions request .messagesExtensionsOmitted).1 supportsImages false =
      target at *
  cases computed : options target with
  | error error =>
    rw [computed] at accepted
    cases accepted
  | ok other =>
    rw [computed] at accepted
    cases items : encodeMessagesItems target.items with
    | error error =>
      rw [items] at accepted
      cases accepted
    | ok messages =>
      rw [items] at accepted
      have filtered : ∀ item ∈ request.items.filter fun item => !item.isInstruction,
          item.KeepsThinking := fun item isItem => keeps item (List.mem_of_mem_filter isItem)
      have targetKeeps : ∀ item ∈ target.items, item.KeepsThinking := by
        rw [isTarget]
        split
        · intro item isItem
          obtain ⟨old, isOld, rfl⟩ := List.mem_map.mp isItem
          exact (replaceItem_spec false old).2.2.2.2 (filtered old isOld)
        · exact filtered
      have references : target.items.filterMap SemanticRequestItem.reference =
          request.items.filterMap SemanticRequestItem.reference := by
        rw [← references_filter request.items, isTarget]
        split
        · rw [List.filterMap_map]
          congr 1
          funext item
          exact (replaceItem_spec false item).1
        · rfl
      have kept : LeadingKept target.items ↔ LeadingKept request.items := by
        rw [← leadingKept_filter request.items, isTarget]
        split
        · exact leadingKept_map false _
        · rfl
      obtain ⟨shaped, complete⟩ := shape_of_items targetKeeps items
      cases accepted
      obtain ⟨marked, isMarked, same⟩ := withMessagesCacheBreakpoints_messages
        (oneMember_messages other target.instructions (withLeadingUser messages).1)
      have alike : List.Forall₂ Alike ((withLeadingUser messages).1.map .object) marked :=
        same.imp fun _ _ isMarked => isMarked.alike
      refine ⟨marked, isMarked, wellShaped_of_alike alike shaped, ?_⟩
      rw [references_of_alike alike, ← references, ← kept]
      exact complete

def plainOptions (_ : SemanticRequest) : Except ContractError MessagesOptions :=
  .ok {
    model := .string (js "model")
    maxTokens := .number (js "64")
    temperature := none
    topP := none
    stopSequences := none
    stream := none
    tools := none
    toolChoice := none
    outputConfig := none
    metadata := none
    degradations := [] }

/-- A request whose last item answers a call that is not in it. -/
def answered (before : List SemanticRequestItem) : SemanticRequest where
  instructions := []
  items := before ++ [.toolResult ⟨js "call", [.text (js "done")], false⟩]
  degradations := []

/-- Next to a text the answer is kept. -/
theorem encodeMessagesRequest_shape_answered :
    ∃ encoded messages,
      encodeMessagesRequest plainOptions true
        (answered [.message .user [.text (js "go on")]]) = .ok encoded ∧
      oneMember encoded.body "messages" = some (.array messages) ∧ WellShaped messages ∧
      messages.flatMap toolReferences = [.result (js "call")] := by
  have keeps : ∀ item ∈ (answered [.message .user [.text (js "go on")]]).items,
      item.KeepsThinking := by
    simp [answered, SemanticRequestItem.KeepsThinking]
  have kept : LeadingKept (answered [.message .user [.text (js "go on")]]).items := .inl (by decide)
  obtain ⟨messages, isMessages, shaped, complete⟩ := encodeMessagesRequest_shape plainOptions true
    _ _ keeps rfl
  exact ⟨_, messages, rfl, isMessages, shaped, complete.mpr kept⟩

/-- Alone it is gone with the message that the synthesized one replaces. -/
theorem encodeMessagesRequest_loses_result :
    ∃ encoded messages,
      encodeMessagesRequest plainOptions true (answered []) = .ok encoded ∧
      oneMember encoded.body "messages" = some (.array messages) ∧
      messages.flatMap toolReferences = [] ∧
      (answered []).items.filterMap SemanticRequestItem.reference = [.result (js "call")] := by
  refine ⟨_, _, rfl, rfl, ?_, rfl⟩
  decide

end GhcGateway.Requests
