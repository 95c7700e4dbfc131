/-
# The life of a tool in the ledger

An operation that throws may have changed the ledger before: a reservation counts
even though it exceeds the limit, and a snapshot has been taken over when its
arguments turn out to be invalid. An attempt is the ledger an operation leaves and
its answer, so that runs can go on behind an operation that threw.

`ToolStep` says once what an attempt can do. The arguments of a tool are made up of
what its steps contribute, and a tool that is done stays as it is.
-/

import GhcGateway.Conversion.LedgerFacts

namespace GhcGateway.Conversion

open Library OrderedMap

/-- The ledger an operation leaves, whether it throws or not, and what it answers. -/
structure ToolAttempt where
  ledger : SemanticItemLedger
  answer : Fallible JsString

namespace SemanticItemLedger

/-- `reserve` of several values. The value that exceeds the limit is counted before
it is refused. -/
def chargeAll (ledger : SemanticItemLedger) : List JsString → SemanticItemLedger × Fallible Unit
  | [] => (ledger, .ok ())
  | value :: values =>
    let used := ledger.usedBytes + utf8ByteLength value
    if ledger.maxBytes < used then (ledger.withUsed used, .error invalid)
    else (ledger.withUsed used).chargeAll values

/-- `startTool`. -/
def attemptStart (ledger : SemanticItemLedger) (key : StreamKey) (itemId : Option JsString)
    (callId name : JsString) : ToolAttempt :=
  if ledger.tools.has key ∨ callId ∈ ledger.callIds ∨ callId = [] ∨ name = [] then
    ⟨ledger, .error invalid⟩
  else
    match ledger.chargeAll (key.render :: (itemId.toList ++ [callId, name])) with
    | (charged, .error error) => ⟨charged, .error error⟩
    | (charged, .ok ()) =>
      ⟨{ charged with
        callIds := charged.callIds ++ [callId]
        tools := charged.tools.set key ⟨itemId, callId, name, [], false⟩
        order := charged.order ++ [.tool key] }, .ok []⟩

/-- `appendToolArguments`. -/
def attemptAppend (ledger : SemanticItemLedger) (key : StreamKey) (delta : JsString) :
    ToolAttempt :=
  match ledger.tools.get key with
  | none => ⟨ledger, .error invalid⟩
  | some tool =>
    if tool.done then ⟨ledger, .error invalid⟩
    else
      match ledger.chargeAll [delta] with
      | (charged, .error error) => ⟨charged, .error error⟩
      | (charged, .ok ()) =>
        ⟨{ charged with
          tools := charged.tools.set key
            { tool with argumentsJson := tool.argumentsJson ++ delta } }, .ok []⟩

/-- The end of `finishTool`, where the arguments are validated. -/
def attemptClose (ledger : SemanticItemLedger) (key : StreamKey) (tool : ToolState)
    (suffix : JsString) (validate : Bool) : ToolAttempt :=
  match validateIf validate tool.argumentsJson with
  | .error error => ⟨ledger, .error error⟩
  | .ok () => ⟨{ ledger with tools := ledger.tools.set key { tool with done := true } }, .ok suffix⟩

/-- `finishTool`. -/
def attemptFinish (ledger : SemanticItemLedger) (key : StreamKey) (snapshot : Option JsString)
    (completed validateCompleted : Bool) : ToolAttempt :=
  match ledger.tools.get key with
  | none => ⟨ledger, .error invalid⟩
  | some tool =>
    if tool.done then
      if snapshot = none ∨ snapshot = some tool.argumentsJson then
        ⟨ledger, (validateIf (completed && validateCompleted) tool.argumentsJson).map fun _ => []⟩
      else ⟨ledger, .error invalid⟩
    else
      match snapshot with
      | none => ledger.attemptClose key tool [] (completed && validateCompleted)
      | some snapshot =>
        if tool.argumentsJson <+: snapshot then
          let suffix := snapshot.drop tool.argumentsJson.length
          match ledger.chargeAll [suffix] with
          | (charged, .error error) => ⟨charged, .error error⟩
          | (charged, .ok ()) =>
            { charged with
              tools := charged.tools.set key
                { tool with argumentsJson := snapshot } }.attemptClose key
                  { tool with argumentsJson := snapshot } suffix (completed && validateCompleted)
        else ⟨ledger, .error invalid⟩

end SemanticItemLedger

inductive ToolOperation
  | start (key : StreamKey) (itemId : Option JsString) (callId name : JsString)
  | append (key : StreamKey) (delta : JsString)
  | finish (key : StreamKey) (snapshot : Option JsString) (completed validateCompleted : Bool)

namespace ToolOperation

def attempt (ledger : SemanticItemLedger) : ToolOperation → ToolAttempt
  | start key itemId callId name => ledger.attemptStart key itemId callId name
  | append key delta => ledger.attemptAppend key delta
  | finish key snapshot completed validateCompleted =>
    ledger.attemptFinish key snapshot completed validateCompleted

/-- The ledger that a run of operations leaves, some of which may have thrown. -/
def after (ledger : SemanticItemLedger) : List ToolOperation → SemanticItemLedger
  | [] => ledger
  | operation :: operations => after (operation.attempt ledger).ledger operations

end ToolOperation

namespace SemanticItemLedger

variable {ledger : SemanticItemLedger}

/-! ## Attempts and operations that may throw -/

theorem chargeAll_charged (ledger : SemanticItemLedger) (values : List JsString) :
    Charged ledger (ledger.chargeAll values).1 := by
  induction values generalizing ledger with
  | nil => exact .refl ledger
  | cons value values ih =>
    rw [chargeAll]
    split
    · exact ⟨_, rfl⟩
    · exact Charged.trans ⟨_, rfl⟩ (ih _)

end SemanticItemLedger

/-! ## What an attempt can do -/

namespace ToolOperation

variable {ledger : SemanticItemLedger} {tool next : ToolState} {suffix : JsString} {validate : Bool}

def key : ToolOperation → StreamKey
  | start key _ _ _ => key
  | append key _ => key
  | finish key _ _ _ => key

/-- What a snapshot adds to the arguments of a tool although it is refused: the suffix
that `finishTool` would have returned without the validation. -/
def takenOver (ledger : SemanticItemLedger) (key : StreamKey) (snapshot : Option JsString)
    (completed : Bool) : JsString :=
  match (ledger.attemptFinish key snapshot completed false).answer with
  | .ok suffix => suffix
  | .error _ => []

/-- What an operation adds to the arguments of its tool: an accepted delta, the suffix
of a finish, or a snapshot that was taken over and then found invalid. -/
def adds (ledger : SemanticItemLedger) : ToolOperation → JsString
  | start _ _ _ _ => []
  | append key delta =>
    match (ledger.attemptAppend key delta).answer with
    | .ok _ => delta
    | .error _ => []
  | finish key snapshot completed validateCompleted =>
    match (ledger.attemptFinish key snapshot completed validateCompleted).answer with
    | .ok suffix => suffix
    | .error _ => takenOver ledger key snapshot completed

/-- Every way an attempt can end, with what it adds to the arguments of its tool. -/
inductive ToolStep (ledger : SemanticItemLedger) : ToolOperation → ToolAttempt → JsString → Prop
  | refused (operation : ToolOperation) (used : Nat) (error : ConversionError) :
      ToolStep ledger operation ⟨ledger.withUsed used, .error error⟩ []
  | started {key : StreamKey} {itemId : Option JsString} {callId name : JsString} (used : Nat)
      (fresh : ledger.tools.get key = none) (unused : callId ∉ ledger.callIds) :
      ToolStep ledger (.start key itemId callId name)
        ⟨{ ledger.withUsed used with
          callIds := ledger.callIds ++ [callId]
          tools := ledger.tools.set key ⟨itemId, callId, name, [], false⟩
          order := ledger.order ++ [.tool key] }, .ok []⟩ []
  | appended {key : StreamKey} {delta : JsString} {tool : ToolState} (used : Nat)
      (there : ledger.tools.get key = some tool) (isOpen : tool.done = false) :
      ToolStep ledger (.append key delta)
        ⟨{ ledger.withUsed used with tools := ledger.tools.set key { tool with
          argumentsJson := tool.argumentsJson ++ delta } }, .ok []⟩ delta
  | confirmed {key : StreamKey} {snapshot : Option JsString} {completed validateCompleted : Bool} :
      ToolStep ledger (.finish key snapshot completed validateCompleted) ⟨ledger, .ok []⟩ []
  | closed {key : StreamKey} {snapshot : Option JsString} {completed validateCompleted : Bool}
      {tool : ToolState} {suffix : JsString} (used : Nat)
      (there : ledger.tools.get key = some tool) (isOpen : tool.done = false) :
      ToolStep ledger (.finish key snapshot completed validateCompleted)
        ⟨{ ledger.withUsed used with tools := ledger.tools.set key { tool with
          argumentsJson := tool.argumentsJson ++ suffix, done := true } }, .ok suffix⟩ suffix
  | invalidated {key : StreamKey} {snapshot : Option JsString}
      {completed validateCompleted : Bool} {tool : ToolState} {suffix : JsString} (used : Nat)
      (error : ConversionError) (there : ledger.tools.get key = some tool)
      (isOpen : tool.done = false) :
      ToolStep ledger (.finish key snapshot completed validateCompleted)
        ⟨{ ledger.withUsed used with tools := ledger.tools.set key { tool with
          argumentsJson := tool.argumentsJson ++ suffix } }, .error error⟩ suffix

theorem toolStep_start (key : StreamKey) (itemId : Option JsString) (callId name : JsString) :
    ToolStep ledger (.start key itemId callId name)
      (ledger.attemptStart key itemId callId name) [] := by
  rw [SemanticItemLedger.attemptStart]
  split
  · exact .refused _ ledger.usedBytes _
  next accepted =>
    push Not at accepted
    obtain ⟨fresh, unused, -, -⟩ := accepted
    obtain ⟨used, isCharged⟩ :=
      ledger.chargeAll_charged (key.render :: (itemId.toList ++ [callId, name]))
    split
    next charged error charging =>
      rw [charging] at isCharged
      cases isCharged
      exact .refused _ used error
    next charged charging =>
      rw [charging] at isCharged
      cases isCharged
      exact .started used (by simpa [OrderedMap.has] using fresh) unused

theorem toolStep_append (key : StreamKey) (delta : JsString) :
    ToolStep ledger (.append key delta) (ledger.attemptAppend key delta)
      ((append key delta).adds ledger) := by
  rw [adds, SemanticItemLedger.attemptAppend]
  cases there : ledger.tools.get key with
  | none => exact .refused _ ledger.usedBytes _
  | some tool =>
    obtain ⟨itemId, callId, name, argumentsJson, _ | _⟩ := tool
    · obtain ⟨used, isCharged⟩ := ledger.chargeAll_charged [delta]
      simp only [Bool.false_eq_true, if_false]
      cases charging : ledger.chargeAll [delta] with
      | mk charged answer =>
        rw [charging] at isCharged
        cases isCharged
        cases answer with
        | error error => exact .refused _ used error
        | ok _ => exact .appended used there rfl
    · exact .refused _ ledger.usedBytes _

theorem toolStep_finish (key : StreamKey) (snapshot : Option JsString)
    (completed validateCompleted : Bool) :
    ToolStep ledger (.finish key snapshot completed validateCompleted)
      (ledger.attemptFinish key snapshot completed validateCompleted)
      ((finish key snapshot completed validateCompleted).adds ledger) := by
  rw [adds, takenOver, SemanticItemLedger.attemptFinish, SemanticItemLedger.attemptFinish]
  cases there : ledger.tools.get key with
  | none => exact .refused _ ledger.usedBytes _
  | some tool =>
    obtain ⟨itemId, callId, name, argumentsJson, _ | _⟩ := tool
    · simp only [Bool.false_eq_true, if_false, Bool.and_false]
      cases snapshot with
      | none =>
        simp only [SemanticItemLedger.attemptClose]
        cases SemanticItemLedger.validateIf (completed && validateCompleted) argumentsJson with
        | error error => exact .refused _ ledger.usedBytes error
        | ok _ =>
          have closed := @ToolStep.closed ledger key none completed validateCompleted _ []
            ledger.usedBytes there rfl
          rw [List.append_nil] at closed
          exact closed
      | some snapshot =>
        by_cases grows : argumentsJson <+: snapshot
        · obtain ⟨suffix, rfl⟩ := grows
          obtain ⟨used, isCharged⟩ := ledger.chargeAll_charged [suffix]
          simp only [List.prefix_append, if_true, List.drop_left, SemanticItemLedger.attemptClose,
            set_set]
          cases charging : ledger.chargeAll [suffix] with
          | mk charged answer =>
            rw [charging] at isCharged
            cases isCharged
            cases answer with
            | error error => exact .refused _ used error
            | ok _ =>
              cases SemanticItemLedger.validateIf (completed && validateCompleted)
                  (argumentsJson ++ suffix) with
              | error error => exact .invalidated used error there rfl
              | ok _ => exact .closed used there rfl
        · simp only [if_neg grows]
          exact .refused _ ledger.usedBytes _
    · simp only [if_true]
      by_cases agrees : snapshot = none ∨ snapshot = some argumentsJson
      · simp only [if_pos agrees]
        cases SemanticItemLedger.validateIf (completed && validateCompleted) argumentsJson with
        | error error =>
          cases SemanticItemLedger.validateIf (completed && false) argumentsJson with
          | error error' => exact .refused _ ledger.usedBytes error
          | ok _ => exact .refused _ ledger.usedBytes error
        | ok _ => exact .confirmed
      · simp only [if_neg agrees]
        exact .refused _ ledger.usedBytes _

theorem toolStep (ledger : SemanticItemLedger) (operation : ToolOperation) :
    ToolStep ledger operation (operation.attempt ledger) (operation.adds ledger) := by
  cases operation with
  | start key itemId callId name => exact toolStep_start key itemId callId name
  | append key delta => exact toolStep_append key delta
  | finish key snapshot completed validateCompleted =>
    exact toolStep_finish key snapshot completed validateCompleted

/-! ## Runs -/

/-- What a run adds to the arguments of a tool. -/
def contributions (ledger : SemanticItemLedger) (key : StreamKey) : List ToolOperation → JsString
  | [] => []
  | operation :: operations =>
    (if operation.key = key then operation.adds ledger else []) ++
      contributions (operation.attempt ledger).ledger key operations

def starts (operation : ToolOperation) (answer : Fallible JsString) : List StreamKey :=
  match operation, answer with
  | .start key _ _ _, .ok _ => [key]
  | _, _ => []

def startedKeys (ledger : SemanticItemLedger) : List ToolOperation → List StreamKey
  | [] => []
  | operation :: operations =>
    operation.starts (operation.attempt ledger).answer ++
      startedKeys (operation.attempt ledger).ledger operations

/-- The arguments under a key, nothing before the tool is started. -/
def argumentsOf (ledger : SemanticItemLedger) (key : StreamKey) : JsString :=
  match ledger.tools.get key with
  | some tool => tool.argumentsJson
  | none => []

variable {key : StreamKey}

theorem argumentsOf_of_get (there : ledger.tools.get key = some tool) :
    argumentsOf ledger key = tool.argumentsJson := by
  rw [argumentsOf, there]

/-- The arguments of a tool that is there grow by what is stored for it. -/
theorem argumentsOf_set (there : ledger.tools.get key = some tool)
    (grows : next.argumentsJson = tool.argumentsJson ++ suffix) (other : StreamKey) (used : Nat) :
    argumentsOf { ledger.withUsed used with tools := ledger.tools.set key next } other =
      argumentsOf ledger other ++ if key = other then suffix else [] := by
  rw [argumentsOf]
  show (match (ledger.tools.set key next).get other with
    | some tool => tool.argumentsJson
    | none => []) = _
  by_cases same : key = other
  · subst same
    rw [get_set_self, argumentsOf_of_get there, if_pos rfl]
    exact grows
  · rw [get_set_of_ne same, if_neg same, List.append_nil]
    rfl

theorem argumentsOf_attempt (ledger : SemanticItemLedger) (operation : ToolOperation)
    (other : StreamKey) :
    argumentsOf (operation.attempt ledger).ledger other =
      argumentsOf ledger other ++
        if operation.key = other then operation.adds ledger else [] := by
  have step := toolStep ledger operation
  generalize operation.attempt ledger = attempt at step ⊢
  generalize operation.adds ledger = added at step ⊢
  cases step with
  | refused operation used error =>
    rw [ite_self, List.append_nil]
    rfl
  | @started key itemId callId name used fresh unused =>
    rw [ite_self, List.append_nil, argumentsOf, argumentsOf]
    show (match (ledger.tools.set key _).get other with
      | some tool => tool.argumentsJson
      | none => []) = _
    by_cases same : key = other
    · subst same
      rw [get_set_self, fresh]
    · rw [get_set_of_ne same]
  | appended used there isOpen => exact argumentsOf_set there rfl other used
  | confirmed => rw [ite_self, List.append_nil]
  | closed used there isOpen => exact argumentsOf_set there rfl other used
  | invalidated used error there isOpen => exact argumentsOf_set there rfl other used

/-- After a run the arguments of a tool are made up of what the run added to them. -/
theorem argumentsOf_after (ledger : SemanticItemLedger) (operations : List ToolOperation)
    (key : StreamKey) :
    argumentsOf (after ledger operations) key =
      argumentsOf ledger key ++ contributions ledger key operations := by
  induction operations generalizing ledger with
  | nil => exact (List.append_nil _).symm
  | cons operation operations ih =>
    rw [after, ih, argumentsOf_attempt, contributions, List.append_assoc]

/-- A tool that is done stays as it is. -/
theorem get_attempt_of_done (there : ledger.tools.get key = some tool)
    (done : tool.done = true) (operation : ToolOperation) :
    (operation.attempt ledger).ledger.tools.get key = some tool := by
  -- whatever is stored, is stored under the key of a tool that is not done
  have apart : ∀ {other : StreamKey} {tool' : ToolState}, ledger.tools.get other = some tool' →
      tool'.done = false → other ≠ key := by
    rintro other tool' thereOther isOpen rfl
    cases there.symm.trans thereOther
    rw [done] at isOpen
    cases isOpen
  have step := toolStep ledger operation
  generalize operation.attempt ledger = attempt at step ⊢
  generalize operation.adds ledger = added at step
  cases step with
  | refused operation used error => exact there
  | @started other itemId callId name used fresh unused =>
    have differs : other ≠ key := by
      rintro rfl
      rw [there] at fresh
      cases fresh
    exact (get_set_of_ne differs _ _).trans there
  | appended used thereOther isOpen =>
    exact (get_set_of_ne (apart thereOther isOpen) _ _).trans there
  | confirmed => exact there
  | closed used thereOther isOpen =>
    exact (get_set_of_ne (apart thereOther isOpen) _ _).trans there
  | invalidated used error thereOther isOpen =>
    exact (get_set_of_ne (apart thereOther isOpen) _ _).trans there

theorem get_after_of_done (there : ledger.tools.get key = some tool)
    (done : tool.done = true) (operations : List ToolOperation) :
    (after ledger operations).tools.get key = some tool := by
  induction operations generalizing ledger with
  | nil => exact there
  | cons operation operations ih => exact ih (get_attempt_of_done there done operation)

/-! ## Call ids and items -/

/-- What the order and the call ids have to do with the tools of a ledger that has
nothing but tools. -/
structure ToolsOnly (ledger : SemanticItemLedger) : Prop where
  order : ledger.order = ledger.tools.keys.map .tool
  callIds : ledger.callIds = ledger.tools.values.map ToolState.callId
  distinct : ledger.callIds.Nodup

theorem toolsOnly_new (maxBytes : Nat) : ToolsOnly (.new maxBytes) where
  order := rfl
  callIds := rfl
  distinct := List.nodup_nil

/-- A tool that is replaced keeps its call id. -/
theorem ToolsOnly.replace (only : ToolsOnly ledger)
    (there : ledger.tools.get key = some tool) (same : next.callId = tool.callId) (used : Nat) :
    ToolsOnly { ledger.withUsed used with tools := ledger.tools.set key next } where
  order := by
    rw [keys_set_of_get there]
    exact only.order
  callIds := by
    rw [map_values_set_of_get there same]
    exact only.callIds
  distinct := only.distinct

theorem ToolsOnly.attempt (only : ToolsOnly ledger) (operation : ToolOperation) :
    ToolsOnly (operation.attempt ledger).ledger := by
  have step := toolStep ledger operation
  generalize operation.attempt ledger = attempt at step ⊢
  generalize operation.adds ledger = added at step
  cases step with
  | refused operation used error => exact ⟨only.order, only.callIds, only.distinct⟩
  | @started key itemId callId name used fresh unused =>
    constructor
    · show ledger.order ++ [.tool key] = (ledger.tools.set key _).keys.map .tool
      rw [keys_set_of_absent fresh, List.map_append, only.order]
      rfl
    · show ledger.callIds ++ [callId] = (ledger.tools.set key _).values.map ToolState.callId
      rw [OrderedMap.values, entries_set_of_absent fresh, List.map_append,
        List.map_append, only.callIds]
      rfl
    · exact List.nodup_append.mpr ⟨only.distinct, List.nodup_singleton _, by
        intro used' member other single eq
        rw [List.mem_singleton.mp single] at eq
        exact unused (eq ▸ member)⟩
  | appended used there isOpen =>
    apply only.replace there
    rfl
  | confirmed => exact only
  | closed used there isOpen =>
    apply only.replace there
    rfl
  | invalidated used error there isOpen =>
    apply only.replace there
    rfl

theorem ToolsOnly.after (only : ToolsOnly ledger) (operations : List ToolOperation) :
    ToolsOnly (after ledger operations) := by
  induction operations generalizing ledger with
  | nil => exact only
  | cons operation operations ih => exact ih (only.attempt operation)

theorem keys_attempt (ledger : SemanticItemLedger) (operation : ToolOperation) :
    (operation.attempt ledger).ledger.tools.keys =
      ledger.tools.keys ++ operation.starts (operation.attempt ledger).answer := by
  have step := toolStep ledger operation
  generalize operation.attempt ledger = attempt at step ⊢
  generalize operation.adds ledger = added at step
  cases step with
  | refused operation used error =>
    rw [show operation.starts (.error error) = [] by cases operation <;> rfl, List.append_nil]
    rfl
  | started used fresh unused => exact keys_set_of_absent fresh _
  | appended used there isOpen =>
    exact (keys_set_of_get there _).trans (List.append_nil _).symm
  | confirmed => exact (List.append_nil _).symm
  | closed used there isOpen =>
    exact (keys_set_of_get there _).trans (List.append_nil _).symm
  | invalidated used error there isOpen =>
    exact (keys_set_of_get there _).trans (List.append_nil _).symm

theorem keys_after (ledger : SemanticItemLedger) (operations : List ToolOperation) :
    (after ledger operations).tools.keys =
      ledger.tools.keys ++ startedKeys ledger operations := by
  induction operations generalizing ledger with
  | nil => exact (List.append_nil _).symm
  | cons operation operations ih =>
    rw [after, ih, keys_attempt, startedKeys, List.append_assoc]

def toolItem (entry : StreamKey × ToolState) : SemanticResponseItem StreamKey :=
  .toolCall ⟨entry.1, entry.2.itemId, entry.2.callId, entry.2.name, entry.2.argumentsJson⟩

theorem entryItem_tool (there : ledger.tools.get key = some tool)
    (status : ResponseStatus) :
    ledger.entryItem status (.tool key) =
      if tool.done = false ∧ status = .completed then .error invalid
      else .ok (ledger, some (toolItem (key, tool))) := by
  have found : ledger.tool key = pure tool := by
    rw [SemanticItemLedger.tool, there]
    rfl
  rw [SemanticItemLedger.entryItem, found, pure_bind, require]
  by_cases refused : tool.done = false ∧ status = .completed
  · rw [if_pos refused, if_neg (by simpa using refused)]
    rfl
  · rw [if_neg refused, if_pos (by simpa using refused)]
    rfl

/-- The loop of `items` over tools that are there. -/
theorem foldlM_entryItem (status : ResponseStatus) {entries : List (StreamKey × ToolState)}
    (there : ∀ entry ∈ entries, ledger.tools.get entry.1 = some entry.2)
    (items : List (SemanticResponseItem StreamKey)) :
    (entries.foldlM (fun (state : SemanticItemLedger × List (SemanticResponseItem StreamKey))
        entry => do
      let (next, item) ← state.1.entryItem status (.tool entry.1)
      return (next, state.2 ++ item.toList)) (ledger, items) : Fallible _) =
      if status = .completed ∧ ∃ entry ∈ entries, entry.2.done = false then .error invalid
      else .ok (ledger, items ++ entries.map toolItem) := by
  induction entries generalizing items with
  | nil => simp [pure, Except.pure]
  | cons entry entries ih =>
    have rest := ih fun other member => there other (List.mem_cons_of_mem _ member)
    rw [List.foldlM_cons, entryItem_tool (there entry List.mem_cons_self)]
    by_cases refused : entry.2.done = false ∧ status = .completed
    · rw [if_pos refused, if_pos ⟨refused.2, entry, List.mem_cons_self, refused.1⟩]
      rfl
    · rw [if_neg refused]
      refine (rest _).trans ?_
      by_cases later : status = .completed ∧ ∃ entry ∈ entries, entry.2.done = false
      · obtain ⟨completed, other, member, isOpen⟩ := later
        rw [if_pos ⟨completed, other, member, isOpen⟩,
          if_pos ⟨completed, other, List.mem_cons_of_mem _ member, isOpen⟩]
      · rw [if_neg later, if_neg]
        · simp
        · rintro ⟨completed, other, member, isOpen⟩
          rcases List.mem_cons.mp member with rfl | member
          · exact refused ⟨isOpen, completed⟩
          · exact later ⟨completed, other, member, isOpen⟩

/-- `items` of a ledger that has nothing but tools: every tool once, unless a tool of a
completed response is not done. -/
theorem items_eq (only : ToolsOnly ledger) (status : ResponseStatus) :
    ∃ entries : List (StreamKey × ToolState), entries.Perm ledger.tools.entries ∧
      ledger.items status =
        if status = .completed ∧ ∃ entry ∈ ledger.tools.entries, entry.2.done = false then
          .error invalid
        else .ok (ledger, entries.map toolItem) := by
  let entryLe := fun left right : StreamKey × ToolState =>
    SemanticItemLedger.responseItemKeyLe (.tool left.1) (.tool right.1) = true
  have sorted := List.perm_insertionSort entryLe ledger.tools.entries
  refine ⟨ledger.tools.entries.insertionSort entryLe, sorted, ?_⟩
  have order : ledger.order.insertionSort
      (fun left right => SemanticItemLedger.responseItemKeyLe left right) =
        (ledger.tools.entries.insertionSort entryLe).map fun entry => .tool entry.1 := by
    rw [only.order, OrderedMap.keys, List.map_map]
    exact (List.map_insertionSort entryLe _ (fun entry => LedgerEntry.tool entry.1) _
      fun _ _ _ _ => Iff.rfl).symm
  rw [SemanticItemLedger.items, order, List.foldlM_map]
  refine (foldlM_entryItem status (fun entry member => ?_) []).trans ?_
  · exact mem_entries.mp (sorted.mem_iff.mp member)
  · simp only [sorted.mem_iff, List.nil_append]

/-! ## Finishing with a snapshot -/

/-- What a snapshot has to be for `finishTool` to return a suffix. -/
structure FinishAccepts (ledger : SemanticItemLedger) (tool : ToolState)
    (snapshot suffix : JsString) (validate : Bool) : Prop where
  grows : snapshot = tool.argumentsJson ++ suffix
  room : tool.done = false → ledger.usedBytes + utf8ByteLength suffix ≤ ledger.maxBytes
  settled : tool.done = true → suffix = []
  valid : validate = true → validateArguments snapshot = .ok ()

theorem validateIf_eq_ok {argumentsJson : JsString} :
    SemanticItemLedger.validateIf validate argumentsJson = .ok () ↔
      (validate = true → validateArguments argumentsJson = .ok ()) := by
  cases validate with
  | false => simp [SemanticItemLedger.validateIf]
  | true => simp [SemanticItemLedger.validateIf]

theorem answer_attemptClose_iff {answered : JsString} :
    (ledger.attemptClose key tool suffix validate).answer = .ok answered ↔
      suffix = answered ∧ (validate = true → validateArguments tool.argumentsJson = .ok ()) := by
  rw [SemanticItemLedger.attemptClose, ← validateIf_eq_ok]
  cases SemanticItemLedger.validateIf validate tool.argumentsJson with
  | error error => simp
  | ok _ => simp

theorem answer_attemptFinish_iff (there : ledger.tools.get key = some tool)
    {snapshot : JsString} {completed validateCompleted : Bool} :
    (ledger.attemptFinish key (some snapshot) completed validateCompleted).answer = .ok suffix ↔
      FinishAccepts ledger tool snapshot suffix (completed && validateCompleted) := by
  rw [SemanticItemLedger.attemptFinish, there]
  by_cases done : tool.done = true
  · simp only [if_pos done, reduceCtorEq, false_or, Option.some.injEq]
    by_cases agrees : snapshot = tool.argumentsJson
    · subst agrees
      rw [if_pos rfl]
      constructor
      · intro answered
        have valid : SemanticItemLedger.validateIf (completed && validateCompleted)
            tool.argumentsJson = .ok () ∧ suffix = [] := by
          simp only at answered
          cases validated : SemanticItemLedger.validateIf (completed && validateCompleted)
              tool.argumentsJson with
          | error error => simp [validated, Except.map] at answered
          | ok _ => simpa [validated, Except.map, eq_comm] using answered
        obtain ⟨valid, rfl⟩ := valid
        exact ⟨(List.append_nil _).symm, fun isOpen => by simp [done] at isOpen, fun _ => rfl,
          validateIf_eq_ok.mp valid⟩
      · intro accepts
        simp only [validateIf_eq_ok.mpr accepts.valid, accepts.settled done]
        rfl
    · rw [if_neg agrees]
      constructor
      · intro absurd
        cases absurd
      · intro accepts
        refine absurd ?_ agrees
        rw [accepts.grows, accepts.settled done, List.append_nil]
  · simp only [if_neg done]
    by_cases grows : tool.argumentsJson <+: snapshot
    · obtain ⟨more, rfl⟩ := grows
      simp only [List.prefix_append, if_true, List.drop_left]
      rw [SemanticItemLedger.chargeAll]
      by_cases full : ledger.maxBytes < ledger.usedBytes + utf8ByteLength more
      · simp only [if_pos full, reduceCtorEq, false_iff]
        intro accepts
        have same := List.append_cancel_left accepts.grows
        have room := accepts.room (by simpa using done)
        rw [← same] at room
        omega
      · simp only [if_neg full, SemanticItemLedger.chargeAll]
        rw [answer_attemptClose_iff]
        constructor
        · rintro ⟨rfl, valid⟩
          exact ⟨rfl, fun _ => Nat.le_of_not_lt full, fun isDone => absurd isDone done, valid⟩
        · intro accepts
          exact ⟨List.append_cancel_left accepts.grows, accepts.valid⟩
    · simp only [if_neg grows, reduceCtorEq, false_iff]
      intro accepts
      exact grows ⟨suffix, accepts.grows.symm⟩

/-- The life of the tools of a ledger after a run. -/
structure ToolLifecycle (maxBytes : Nat) (operations : List ToolOperation)
    (ledger : SemanticItemLedger) : Prop where
  argumentsJson : ∀ key tool, ledger.tools.get key = some tool →
    tool.argumentsJson = contributions (.new maxBytes) key operations
  finish : ∀ key tool, ledger.tools.get key = some tool →
    ∀ snapshot suffix completed validateCompleted,
      (ledger.attemptFinish key (some snapshot) completed validateCompleted).answer = .ok suffix ↔
        FinishAccepts ledger tool snapshot suffix (completed && validateCompleted)
  done : ∀ key tool, ledger.tools.get key = some tool → tool.done = true →
    ∀ more, (after ledger more).tools.get key = some tool
  callIds : (ledger.tools.values.map ToolState.callId).Nodup
  started : ledger.tools.keys = startedKeys (.new maxBytes) operations
  items : ∀ status, ∃ entries : List (StreamKey × ToolState),
    entries.Perm ledger.tools.entries ∧
      ledger.items status =
        if status = .completed ∧ ∃ entry ∈ ledger.tools.entries, entry.2.done = false then
          .error invalid
        else .ok (ledger, entries.map toolItem)

/-- Every run of the tool operations, whichever of them throw, keeps the life of the
tools. -/
theorem toolLifecycle_after (maxBytes : Nat) (operations : List ToolOperation) :
    ToolLifecycle maxBytes operations (after (.new maxBytes) operations) where
  argumentsJson key tool there := by
    rw [← argumentsOf_of_get there, argumentsOf_after]
    rfl
  finish key tool there snapshot suffix completed validateCompleted :=
    answer_attemptFinish_iff there
  done key tool there done more := get_after_of_done there done more
  callIds := by
    have only := (toolsOnly_new maxBytes).after operations
    rw [← only.callIds]
    exact only.distinct
  started := keys_after (.new maxBytes) operations
  items status := items_eq ((toolsOnly_new maxBytes).after operations) status

def startedTool : ToolOperation := .start (.responsesTool 0) none (js "call") (js "tool")

/-- A snapshot that extends the arguments is refused by a tool that is done and by a ledger
that is full; one that is no JSON object stays in the tool although the finish throws; and a
completed response with an open tool has no items. -/
theorem not_finish_of_prefix :
    (∀ suffix, ((after (.new 100) [startedTool, .finish (.responsesTool 0) none false
      true]).attemptFinish (.responsesTool 0) (some (js "x")) false true).answer ≠ .ok suffix) ∧
    (∀ suffix, ((after (.new 19) [startedTool]).attemptFinish (.responsesTool 0)
      (some (js "x")) false true).answer ≠ .ok suffix) ∧
    (∀ suffix, ((after (.new 100) [startedTool]).attemptFinish (.responsesTool 0)
      (some (js "x")) true true).answer ≠ .ok suffix) ∧
    argumentsOf (after (.new 100) [startedTool, .finish (.responsesTool 0) (some (js "x")) true
      true]) (.responsesTool 0) = js "x" ∧
    (after (.new 100) [startedTool]).items .completed = .error invalid := by
  refine ⟨?done, ?full, ?thrown, ?taken, ?unlisted⟩
  case done => exact fun _ answered => nomatch answered
  case full => exact fun _ answered => nomatch answered
  case thrown => exact fun _ answered => nomatch answered
  case taken => decide
  case unlisted => rfl

end ToolOperation

end GhcGateway.Conversion
