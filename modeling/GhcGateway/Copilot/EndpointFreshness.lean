/-
# No stale endpoint

A lane is the account's until the account is invalidated, and never again after that,
so an operation whose lane is still the account's started after the last
invalidation. An operation that callers may join did so too, because an invalidation
drops the joins.
-/

import GhcGateway.Copilot.EndpointDiscovery
import GhcGateway.Copilot.ModelCatalogFreshness

namespace GhcGateway.Copilot

open Library SingleFlight

universe u

namespace EndpointDiscovery

open OrderedMap

variable {discovery after : EndpointDiscovery}
  {accountId : JsString} {lane : DiscoveryLane} {id credentialGeneration number : Nat}

abbrev DiscoveryFlight := Flight (JsString × Nat) DiscoveryTag JsString

variable {operation : DiscoveryFlight}

structure Fresh (discovery : EndpointDiscovery) : Prop where
  sound : discovery.room.Sound
  owned : ∀ (accountId : JsString) (id : Nat), discovery.lanes.get accountId = some id →
    ∃ lane, discovery.objects[id]? = some lane ∧ lane.accountId = accountId
  tagged : ∀ (id : Nat) (operation : DiscoveryFlight),
    discovery.room.flights[id]? = some operation →
      ∃ lane, discovery.objects[operation.tag.lane]? = some lane ∧
        lane.accountId = operation.key.1 ∧ lane.credentialGeneration = operation.key.2
  attached : ∀ (id : Nat) (operation : DiscoveryFlight),
    discovery.room.flights[id]? = some operation →
      discovery.lanes.get operation.key.1 = some operation.tag.lane →
        operation.started = discovery.epochs operation.key.1
  joined : ∀ (accountId : JsString) (credentialGeneration id : Nat),
    discovery.joinFor accountId credentialGeneration = some id →
      ∃ operation, discovery.room.flights[id]? = some operation ∧
        operation.key = (accountId, credentialGeneration) ∧
        operation.started = discovery.epochs accountId ∧ operation.aborted = false
  endpoints : ∀ (id : Nat) (lane : DiscoveryLane), discovery.objects[id]? = some lane →
    ∀ number endpoint, lane.endpoint = some (number, endpoint) →
      ∃ operation, discovery.room.flights[number]? = some operation ∧
        operation.tag.lane = id ∧ operation.result = some (some endpoint)

theorem fresh_new : new.Fresh where
  sound := Room.sound_empty
  owned := fun _ _ found => nomatch found
  tagged := fun _ _ found => nomatch found
  attached := fun _ _ found => nomatch found
  joined := fun _ _ _ found => nomatch found
  endpoints := fun _ _ found => nomatch found

/-- What a lane object was made with, and what it remembers. -/
structure DiscoveryLane.Keeps (before after : DiscoveryLane) : Prop where
  accountId : after.accountId = before.accountId
  credentialGeneration : after.credentialGeneration = before.credentialGeneration
  endpoint : after.endpoint = before.endpoint

/-- Nothing is started, remembered or invalidated. Operations may go on, lanes may be
dropped, and joins may be removed; no operation that is still joined is aborted. -/
structure Winds (before after : EndpointDiscovery) : Prop where
  epochs : after.epochs = before.epochs
  objects : ∀ (id : Nat) (lane : DiscoveryLane), before.objects[id]? = some lane →
    ∃ next, after.objects[id]? = some next ∧ DiscoveryLane.Keeps lane next
  sources : ∀ (id : Nat) (next : DiscoveryLane), after.objects[id]? = some next →
    ∃ lane, before.objects[id]? = some lane ∧ DiscoveryLane.Keeps lane next
  lanes : ∀ (accountId : JsString) (id : Nat), after.lanes.get accountId = some id →
    before.lanes.get accountId = some id
  flights : before.room.Extends after.room
  origins : ∀ (id : Nat) (next : DiscoveryFlight), after.room.flights[id]? = some next →
    ∃ operation, before.room.flights[id]? = some operation ∧ operation.Evolves next
  joins : ∀ (accountId : JsString) (credentialGeneration id : Nat),
    after.joinFor accountId credentialGeneration = some id →
      before.joinFor accountId credentialGeneration = some id
  spared : ∀ (accountId : JsString) (credentialGeneration id : Nat),
    after.joinFor accountId credentialGeneration = some id →
      ∀ operation, before.room.flights[id]? = some operation → operation.aborted = false →
        ∃ next, after.room.flights[id]? = some next ∧ next.aborted = false

theorem Fresh.winds (fresh : discovery.Fresh) (winds : discovery.Winds after)
    (sound : after.room.Sound) : after.Fresh where
  sound := sound
  owned := by
    intro accountId id found
    obtain ⟨lane, isLane, sameAccount⟩ := fresh.owned accountId id (winds.lanes accountId id found)
    obtain ⟨next, isNext, keeps⟩ := winds.objects id lane isLane
    exact ⟨next, isNext, keeps.accountId.trans sameAccount⟩
  tagged := by
    intro id next isNext
    obtain ⟨operation, isOperation, evolves⟩ := winds.origins id next isNext
    obtain ⟨lane, isLane, sameAccount, sameCredentials⟩ := fresh.tagged id operation isOperation
    obtain ⟨nextLane, isNextLane, keeps⟩ := winds.objects operation.tag.lane lane isLane
    rw [evolves.tag, evolves.key]
    exact ⟨nextLane, isNextLane, keeps.accountId.trans sameAccount,
      keeps.credentialGeneration.trans sameCredentials⟩
  attached := by
    intro id next isNext
    obtain ⟨operation, isOperation, evolves⟩ := winds.origins id next isNext
    rw [evolves.tag, evolves.key, evolves.started, winds.epochs]
    intro found
    exact fresh.attached id operation isOperation (winds.lanes _ _ found)
  joined := by
    intro accountId credentialGeneration id found
    obtain ⟨operation, isOperation, key, started, unaborted⟩ :=
      fresh.joined accountId credentialGeneration id (winds.joins _ _ _ found)
    obtain ⟨next, isNext, spared⟩ := winds.spared _ _ _ found operation isOperation unaborted
    obtain ⟨same, isSame, evolves⟩ := winds.flights id operation isOperation
    rw [isNext] at isSame
    cases isSame
    rw [winds.epochs]
    exact ⟨next, isNext, evolves.key.trans key, evolves.started.trans started, spared⟩
  endpoints := by
    intro id next isNext number endpoint remembers
    obtain ⟨lane, isLane, keeps⟩ := winds.sources id next isNext
    rw [keeps.endpoint] at remembers
    obtain ⟨operation, isOperation, ofLane, result⟩ :=
      fresh.endpoints id lane isLane number endpoint remembers
    obtain ⟨same, isSame, evolves⟩ := winds.flights number operation isOperation
    refine ⟨same, isSame, ?_, (evolves.result _ result).1⟩
    rw [evolves.tag]
    exact ofLane

/-! ## Winding down -/

theorem DiscoveryLane.Keeps.refl (lane : DiscoveryLane) : DiscoveryLane.Keeps lane lane :=
  ⟨rfl, rfl, rfl⟩

theorem DiscoveryLane.keeps_dropOperation (operation : Nat) (lane : DiscoveryLane) :
    DiscoveryLane.Keeps lane (DiscoveryLane.dropOperation operation lane) := by
  unfold DiscoveryLane.dropOperation
  split
  · exact ⟨rfl, rfl, rfl⟩
  · exact .refl lane

theorem winds_refl (discovery : EndpointDiscovery) : discovery.Winds discovery where
  epochs := rfl
  objects := fun _ lane isLane => ⟨lane, isLane, .refl lane⟩
  sources := fun _ lane isLane => ⟨lane, isLane, .refl lane⟩
  lanes := fun _ _ found => found
  flights := fun _ operation isOperation => ⟨operation, isOperation, .refl operation⟩
  origins := fun _ operation isOperation => ⟨operation, isOperation, .refl operation⟩
  joins := fun _ _ _ found => found
  spared := fun _ _ _ _ operation isOperation unaborted => ⟨operation, isOperation, unaborted⟩

/-- A change of a lane object that keeps what it remembers. -/
theorem winds_changeLane (discovery : EndpointDiscovery) (id : Nat)
    {change : DiscoveryLane → DiscoveryLane}
    (keeps : ∀ lane, DiscoveryLane.Keeps lane (change lane)) :
    discovery.Winds (discovery.changeLane id change) :=
  { winds_refl discovery with
    objects := by
      intro other lane isLane
      show ∃ next, (discovery.objects.modify id change)[other]? = some next ∧ _
      rw [List.getElem?_modify, isLane, Option.map_eq_map, Option.map_some]
      by_cases same : id = other
      · rw [if_pos same]
        exact ⟨change lane, rfl, keeps lane⟩
      · rw [if_neg same]
        exact ⟨lane, rfl, .refl lane⟩
    sources := by
      intro other next isNext
      have isNext : (discovery.objects.modify id change)[other]? = some next := isNext
      rw [List.getElem?_modify] at isNext
      obtain ⟨lane, isLane, isNext⟩ := Option.map_eq_some_iff.mp isNext
      refine ⟨lane, isLane, ?_⟩
      subst isNext
      by_cases same : id = other
      · rw [if_pos same]
        exact keeps lane
      · rw [if_neg same]
        exact .refl lane }

/-- A join that is left after another has been removed. -/
theorem joinFor_removeJoin {other : JsString} {generation : Nat} {operation : Nat}
    (found : (discovery.removeJoin accountId credentialGeneration operation).joinFor other
      generation = some id) :
    discovery.joinFor other generation = some id ∧
      ¬ ((other, generation) = (accountId, credentialGeneration) ∧ id = operation) := by
  unfold removeJoin at found
  split at found
  case h_1 none =>
    refine ⟨found, ?_⟩
    rintro ⟨same, -⟩
    cases same
    unfold joinFor at found
    rw [none] at found
    cases found
  case h_2 accountJoins isAccount =>
    split at found
    case isFalse apart =>
      refine ⟨found, ?_⟩
      rintro ⟨same, rfl⟩
      cases same
      unfold joinFor at found
      rw [isAccount] at found
      exact apart found
    case isTrue =>
      unfold joinFor at found ⊢
      dsimp only at found
      by_cases sameAccount : accountId = other
      · subst sameAccount
        split at found
        · rw [get_erase, if_pos rfl] at found
          cases found
        · rw [get_set, if_pos rfl, Option.bind_some, get_erase] at found
          split at found
          case isTrue => cases found
          case isFalse apart =>
            rw [isAccount]
            refine ⟨found, ?_⟩
            rintro ⟨same, -⟩
            cases same
            exact apart rfl
      · have kept : discovery.joins.get other =
            (if (accountJoins.erase credentialGeneration).entries = [] then
              discovery.joins.erase accountId
            else discovery.joins.set accountId (accountJoins.erase credentialGeneration)).get
              other := by
          split
          · rw [get_erase, if_neg sameAccount]
          · rw [get_set, if_neg sameAccount]
        rw [kept]
        refine ⟨found, ?_⟩
        rintro ⟨same, -⟩
        cases same
        exact sameAccount rfl

theorem removeJoin_eq (discovery : EndpointDiscovery) (accountId : JsString)
    (credentialGeneration operation : Nat) :
    ∃ joins, discovery.removeJoin accountId credentialGeneration operation =
      { discovery with joins := joins } := by
  unfold removeJoin
  split
  · exact ⟨discovery.joins, rfl⟩
  · split
    · exact ⟨_, rfl⟩
    · exact ⟨discovery.joins, rfl⟩

theorem winds_removeJoin (discovery : EndpointDiscovery) (accountId : JsString)
    (credentialGeneration operation : Nat) :
    discovery.Winds (discovery.removeJoin accountId credentialGeneration operation) := by
  have joins : ∀ (other : JsString) (generation id : Nat),
      (discovery.removeJoin accountId credentialGeneration operation).joinFor other generation =
        some id → discovery.joinFor other generation = some id :=
    fun _ _ _ found => (joinFor_removeJoin found).1
  obtain ⟨rest, removed⟩ := removeJoin_eq discovery accountId credentialGeneration operation
  rw [removed] at joins ⊢
  exact { winds_refl discovery with
    joins := joins
    spared := fun _ _ _ _ operation isOperation unaborted => ⟨operation, isOperation, unaborted⟩ }

/-- A lane is dropped. -/
theorem winds_eraseLane (discovery : EndpointDiscovery) (accountId : JsString) :
    discovery.Winds { discovery with lanes := discovery.lanes.erase accountId } :=
  { winds_refl discovery with
    lanes := by
      intro other id found
      rw [get_erase] at found
      split at found
      case isTrue => cases found
      case isFalse => exact found }

theorem Winds.trans {middle : EndpointDiscovery} (first : discovery.Winds middle)
    (second : middle.Winds after) : discovery.Winds after where
  epochs := second.epochs.trans first.epochs
  objects := by
    intro id lane isLane
    obtain ⟨one, isOne, keeps⟩ := first.objects id lane isLane
    obtain ⟨next, isNext, nextKeeps⟩ := second.objects id one isOne
    exact ⟨next, isNext, nextKeeps.accountId.trans keeps.accountId,
      nextKeeps.credentialGeneration.trans keeps.credentialGeneration,
      nextKeeps.endpoint.trans keeps.endpoint⟩
  sources := by
    intro id next isNext
    obtain ⟨one, isOne, nextKeeps⟩ := second.sources id next isNext
    obtain ⟨lane, isLane, keeps⟩ := first.sources id one isOne
    exact ⟨lane, isLane, nextKeeps.accountId.trans keeps.accountId,
      nextKeeps.credentialGeneration.trans keeps.credentialGeneration,
      nextKeeps.endpoint.trans keeps.endpoint⟩
  lanes := fun accountId id found => first.lanes accountId id (second.lanes accountId id found)
  flights := by
    intro id operation isOperation
    obtain ⟨one, isOne, evolves⟩ := first.flights id operation isOperation
    obtain ⟨next, isNext, nextEvolves⟩ := second.flights id one isOne
    exact ⟨next, isNext, evolves.trans nextEvolves⟩
  origins := by
    intro id next isNext
    obtain ⟨one, isOne, nextEvolves⟩ := second.origins id next isNext
    obtain ⟨operation, isOperation, evolves⟩ := first.origins id one isOne
    exact ⟨operation, isOperation, evolves.trans nextEvolves⟩
  joins := fun _ _ _ found => first.joins _ _ _ (second.joins _ _ _ found)
  spared := by
    intro accountId credentialGeneration id found operation isOperation unaborted
    obtain ⟨one, isOne, oneUnaborted⟩ :=
      first.spared _ _ _ (second.joins _ _ _ found) operation isOperation unaborted
    exact second.spared _ _ _ found one isOne oneUnaborted

/-- The room goes on. -/
theorem winds_room (discovery : EndpointDiscovery) {room : DiscoveryRoom}
    (same : discovery.room.SameFlights room)
    (spared : ∀ (accountId : JsString) (credentialGeneration id : Nat),
      discovery.joinFor accountId credentialGeneration = some id →
        ∀ operation, discovery.room.flights[id]? = some operation → operation.aborted = false →
          ∃ next, room.flights[id]? = some next ∧ next.aborted = false) :
    discovery.Winds { discovery with room := room } :=
  { winds_refl discovery with
    flights := by
      intro id operation isOperation
      obtain ⟨next, isNext, continues⟩ := same.forward id operation isOperation
      exact ⟨next, isNext, continues.toEvolves⟩
    origins := by
      intro id next isNext
      obtain ⟨operation, isOperation, continues⟩ := same.backward id next isNext
      exact ⟨operation, isOperation, continues.toEvolves⟩
    spared := spared }

/-- One operation goes on. -/
theorem winds_change (discovery : EndpointDiscovery) {next : DiscoveryFlight}
    (isOperation : discovery.room.flights[id]? = some operation) (evolves : operation.Evolves next)
    (kept : next.aborted = operation.aborted) :
    discovery.Winds { discovery with room := discovery.room.change id next } :=
  { winds_refl discovery with
    flights := Room.extends_set isOperation evolves discovery.room.calls
    origins := by
      intro other one isOne
      rcases Room.flights_set isOperation isOne with ⟨rfl, rfl⟩ | ⟨_, isOne⟩
      · exact ⟨operation, isOperation, evolves⟩
      · exact ⟨one, isOne, .refl one⟩
    spared := fun _ _ _ _ _ isOne unaborted => Room.unaborted_set isOperation kept isOne unaborted }

/-! ## Discovering -/

/-- A new lane object, which is no lane of an account yet. -/
theorem Fresh.newLane (fresh : discovery.Fresh) (account : DiscoveryAccount) :
    (discovery.newLane account).Fresh :=
  { fresh with
    owned := by
      intro accountId id found
      obtain ⟨lane, isLane, sameAccount⟩ := fresh.owned accountId id found
      exact ⟨lane, getElem?_concat_of_some isLane _, sameAccount⟩
    tagged := by
      intro id operation isOperation
      obtain ⟨lane, isLane, same⟩ := fresh.tagged id operation isOperation
      exact ⟨lane, getElem?_concat_of_some isLane _, same⟩
    endpoints := by
      intro id lane isLane number endpoint remembers
      rcases getElem?_concat_eq_some isLane with old | ⟨_, rfl⟩
      · exact fresh.endpoints id lane old number endpoint remembers
      · cases remembers }

/-- A lane object that no operation has been started for becomes the account's. -/
theorem Fresh.setLane (fresh : discovery.Fresh) (isLane : discovery.objects[id]? = some lane)
    (own : lane.accountId = accountId) (unused : ∀ (number : Nat) (operation : DiscoveryFlight),
      discovery.room.flights[number]? = some operation → operation.tag.lane ≠ id) :
    Fresh { discovery with lanes := discovery.lanes.set accountId id } :=
  { fresh with
    owned := by
      intro other current found
      rw [get_set] at found
      split at found
      case isTrue same =>
        cases found
        exact ⟨lane, isLane, own.trans same⟩
      case isFalse => exact fresh.owned other current found
    attached := by
      intro number operation isOperation found
      rw [get_set] at found
      split at found
      case isTrue => exact absurd (Option.some.inj found).symm (unused number operation isOperation)
      case isFalse => exact fresh.attached number operation isOperation found }

/-- The lane of a call. -/
theorem Fresh.chooseLane (fresh : discovery.Fresh) (account : DiscoveryAccount) :
    (discovery.chooseLane account).1.Fresh ∧
      ∃ lane, (discovery.chooseLane account).1.objects[(discovery.chooseLane account).2]? =
          some lane ∧ lane.accountId = account.accountId ∧
        lane.credentialGeneration = account.credentialGeneration := by
  have made : (discovery.newLane account).objects[discovery.objects.length]? =
      some ⟨account.accountId, account.credentialGeneration, none, none⟩ :=
    List.getElem?_concat_length
  have own : Fresh { discovery.newLane account with
      lanes := discovery.lanes.set account.accountId discovery.objects.length } := by
    apply (fresh.newLane account).setLane made rfl
    intro number operation isOperation same
    obtain ⟨lane, isLane, _⟩ := fresh.tagged number operation isOperation
    rw [same, List.getElem?_eq_none (Nat.le_refl _)] at isLane
    cases isLane
  unfold EndpointDiscovery.chooseLane
  dsimp only
  split
  case h_1 => exact ⟨own, _, made, rfl, rfl⟩
  case h_2 currentId current isCurrent =>
    split
    case isTrue => exact ⟨own, _, made, rfl, rfl⟩
    case isFalse =>
      split
      case isTrue sameCredentials =>
        unfold EndpointDiscovery.current at isCurrent
        obtain ⟨id, found, isCurrent⟩ := Option.bind_eq_some_iff.mp isCurrent
        obtain ⟨lane, isLane, both⟩ := Option.map_eq_some_iff.mp isCurrent
        cases both
        obtain ⟨one, isOne, sameAccount⟩ := fresh.owned account.accountId currentId found
        rw [isLane] at isOne
        cases isOne
        exact ⟨fresh, current, isLane, sameAccount, sameCredentials⟩
      case isFalse => exact ⟨fresh.newLane account, _, made, rfl, rfl⟩

theorem joinFor_addJoin (discovery : EndpointDiscovery) (accountId other : JsString)
    (credentialGeneration generation operation : Nat) :
    (discovery.addJoin accountId credentialGeneration operation).joinFor other generation =
      if (accountId, credentialGeneration) = (other, generation) then some operation
      else discovery.joinFor other generation := by
  unfold joinFor addJoin
  dsimp only
  rw [get_set]
  by_cases sameAccount : accountId = other
  · subst sameAccount
    rw [if_pos rfl, Option.bind_some, get_set]
    by_cases sameCredentials : credentialGeneration = generation
    · rw [if_pos sameCredentials, if_pos (by rw [sameCredentials])]
    · rw [if_neg sameCredentials, if_neg (fun same => sameCredentials (congrArg Prod.snd same))]
      cases discovery.joins.get accountId with
      | none => rfl
      | some accountJoins => rfl
  · rw [if_neg sameAccount, if_neg (fun same => sameAccount (congrArg Prod.fst same))]

/-- A new operation, for a lane of its account and credential generation. -/
theorem Fresh.startOperation (fresh : discovery.Fresh) (account : DiscoveryAccount) (aborted : Bool)
    (isLane : discovery.objects[id]? = some lane) (sameAccount : lane.accountId = account.accountId)
    (sameCredentials : lane.credentialGeneration = account.credentialGeneration) :
    (discovery.startOperation account id aborted).Fresh := by
  have noted : discovery.Winds (discovery.changeLane id fun object =>
      { object with operation := some discovery.room.flights.length }) :=
    winds_changeLane discovery id fun _ => ⟨rfl, rfl, rfl⟩
  have before := fresh.winds noted fresh.sound
  have extended : discovery.room.Extends (discovery.startOperation account id aborted).room :=
    Room.extends_start_join _ _ _ _
  have started {number : Nat} {operation : DiscoveryFlight}
      (isOperation : (discovery.startOperation account id aborted).room.flights[number]? =
        some operation) := Room.flights_start_join isOperation
  constructor
  · exact fresh.sound.start_join rfl rfl
  · exact before.owned
  · intro number operation isOperation
    rcases started isOperation with old | ⟨_, rfl⟩
    · exact before.tagged number operation old
    · obtain ⟨next, isNext, keeps⟩ := noted.objects id lane isLane
      exact ⟨next, isNext, keeps.accountId.trans sameAccount,
        keeps.credentialGeneration.trans sameCredentials⟩
  · intro number operation isOperation
    rcases started isOperation with old | ⟨_, rfl⟩
    · exact before.attached number operation old
    · exact fun _ => rfl
  · intro other generation number found
    have found : (({ discovery with objects := _ } : EndpointDiscovery).addJoin account.accountId
      account.credentialGeneration discovery.room.flights.length).joinFor other generation =
        some number := found
    rw [joinFor_addJoin] at found
    split at found
    case isTrue same =>
      cases found
      cases same
      refine ⟨(Flight.new _ ⟨id, account.environment⟩ _).await, ?_, rfl, rfl, rfl⟩
      show ((discovery.room.start _).join _ _).flights[_]? = _
      rw [Room.start_join_eq]
      exact List.getElem?_concat_length
    case isFalse =>
      obtain ⟨operation, isOperation, key, now, unaborted⟩ :=
        before.joined other generation number found
      refine ⟨operation, ?_, key, now, unaborted⟩
      show ((discovery.room.start _).join _ _).flights[_]? = _
      rw [Room.start_join_eq]
      exact getElem?_concat_of_some isOperation _
  · intro other object isObject number endpoint remembers
    obtain ⟨operation, isOperation, ofLane, result⟩ :=
      before.endpoints other object isObject number endpoint remembers
    obtain ⟨next, isNext, evolves⟩ := extended number operation isOperation
    refine ⟨next, isNext, ?_, (evolves.result _ result).1⟩
    rw [evolves.tag]
    exact ofLane

theorem Fresh.joinOperation (fresh : discovery.Fresh) (account : DiscoveryAccount) (aborted : Bool)
    (isLane : discovery.objects[id]? = some lane) (sameAccount : lane.accountId = account.accountId)
    (sameCredentials : lane.credentialGeneration = account.credentialGeneration) :
    (discovery.joinOperation account id aborted).Fresh := by
  unfold EndpointDiscovery.joinOperation
  split
  case h_1 number found =>
    obtain ⟨operation, isOperation, key, started, unaborted⟩ := fresh.joined _ _ number found
    have sound : (discovery.room.join number (discovery.call account id aborted)).Sound :=
      fresh.sound.join isOperation key started unaborted
    apply fresh.winds _ sound
    apply winds_room discovery (Room.sameFlights_join number _)
    exact fun _ _ _ _ _ isOne unaborted => Room.unaborted_join number _ isOne unaborted
  case h_2 => exact fresh.startOperation account aborted isLane sameAccount sameCredentials

/-- The operation that a remembered endpoint comes from. -/
theorem Fresh.of_current (fresh : discovery.Fresh) (found : discovery.lanes.get accountId = some id)
    (isLane : discovery.objects[id]? = some lane) {endpoint : JsString}
    (remembers : lane.endpoint = some (number, endpoint)) :
    ∃ operation, discovery.room.flights[number]? = some operation ∧
      operation.key = (accountId, lane.credentialGeneration) ∧
      operation.started = discovery.epochs accountId ∧
      operation.result = some (some endpoint) := by
  obtain ⟨operation, isOperation, ofLane, result⟩ :=
    fresh.endpoints id lane isLane number endpoint remembers
  obtain ⟨one, isOne, oneAccount, oneCredentials⟩ := fresh.tagged number operation isOperation
  rw [ofLane, isLane] at isOne
  cases isOne
  obtain ⟨one, isOne, sameAccount⟩ := fresh.owned accountId id found
  rw [isLane] at isOne
  cases isOne
  have key : operation.key = (accountId, lane.credentialGeneration) :=
    Prod.ext (oneAccount.symm.trans sameAccount) oneCredentials.symm
  have started := fresh.attached number operation isOperation
  rw [key, ofLane] at started
  exact ⟨operation, isOperation, key, started found, result⟩

theorem Fresh.discover (fresh : discovery.Fresh) (account : DiscoveryAccount) (aborted : Bool) :
    (discovery.discover account aborted).Fresh := by
  unfold EndpointDiscovery.discover
  have answers (call : Call (JsString × Nat) Nat JsString)
      (sound : (discovery.room.answer call).Sound) :
      Fresh { discovery with room := discovery.room.answer call } := by
    apply fresh.winds _ sound
    apply winds_room discovery (Room.sameFlights_answer call)
    exact fun _ _ _ _ operation isOperation unaborted => ⟨operation, isOperation, unaborted⟩
  split
  case isTrue isAborted =>
    exact answers _ (fresh.sound.answer (fun _ => rfl) isAborted)
  case isFalse =>
    split
    case h_1 number endpoint remembered =>
      unfold EndpointDiscovery.remembered EndpointDiscovery.current at remembered
      obtain ⟨⟨id, lane⟩, isCurrent, remembers⟩ := Option.bind_eq_some_iff.mp remembered
      obtain ⟨current, found, isCurrent⟩ := Option.bind_eq_some_iff.mp isCurrent
      obtain ⟨one, isLane, both⟩ := Option.map_eq_some_iff.mp isCurrent
      cases both
      split at remembers
      case isTrue sameCredentials =>
        obtain ⟨operation, isOperation, key, started, result⟩ :=
          fresh.of_current found isLane remembers
        have sameCredentials : lane.credentialGeneration = account.credentialGeneration :=
          sameCredentials
        rw [sameCredentials] at key
        exact answers _ (fresh.sound.answer (fun _ => rfl)
          ⟨operation, isOperation, key, started, result⟩)
      case isFalse => cases remembers
    case h_2 =>
      obtain ⟨chosen, lane, isLane, sameAccount, sameCredentials⟩ := fresh.chooseLane account
      exact chosen.joinOperation account aborted isLane sameAccount sameCredentials

/-! ## Operations -/

/-- A lane remembers the endpoint that an operation of it has found. -/
theorem Fresh.setEndpoint (fresh : discovery.Fresh)
    (isOperation : discovery.room.flights[number]? = some operation) {endpoint : JsString}
    (result : operation.result = some (some endpoint)) :
    (discovery.changeLane operation.tag.lane fun lane =>
      { lane with endpoint := some (number, endpoint) }).Fresh := by
  have modified (id : Nat) : (discovery.changeLane operation.tag.lane fun lane =>
      { lane with endpoint := some (number, endpoint) }).objects[id]? =
        (discovery.objects[id]?).map fun lane =>
          if operation.tag.lane = id then { lane with endpoint := some (number, endpoint) }
          else lane := List.getElem?_modify ..
  have keeps (lane : DiscoveryLane) (id : Nat) (next : DiscoveryLane)
      (isNext : next = if operation.tag.lane = id then
        { lane with endpoint := some (number, endpoint) } else lane) :
      next.accountId = lane.accountId ∧
        next.credentialGeneration = lane.credentialGeneration := by
    subst isNext
    split
    · exact ⟨rfl, rfl⟩
    · exact ⟨rfl, rfl⟩
  exact { fresh with
    owned := by
      intro accountId id found
      obtain ⟨lane, isLane, sameAccount⟩ := fresh.owned accountId id found
      rw [modified, isLane, Option.map_some]
      exact ⟨_, rfl, (keeps lane id _ rfl).1.trans sameAccount⟩
    tagged := by
      intro id one isOne
      obtain ⟨lane, isLane, sameAccount, sameCredentials⟩ := fresh.tagged id one isOne
      rw [modified, isLane, Option.map_some]
      have kept := keeps lane one.tag.lane _ rfl
      exact ⟨_, rfl, kept.1.trans sameAccount, kept.2.trans sameCredentials⟩
    endpoints := by
      intro id next isNext other found remembers
      rw [modified] at isNext
      obtain ⟨lane, isLane, rfl⟩ := Option.map_eq_some_iff.mp isNext
      split at remembers
      case isTrue ofLane =>
        cases remembers
        exact ⟨operation, isOperation, ofLane, result⟩
      case isFalse => exact fresh.endpoints id lane isLane other found remembers }

theorem Fresh.answered (fresh : discovery.Fresh) {id : Nat}
    {answer : Option (Option JsString)} (stepped : discovery.answered id answer = some after) :
    after.Fresh := by
  unfold EndpointDiscovery.answered at stepped
  split at stepped
  case h_1 => cases stepped
  case h_2 operation isOperation =>
    obtain ⟨room, settles, rfl⟩ := Option.map_eq_some_iff.mp stepped
    have sound := fresh.sound.settle settles
    obtain ⟨running, rfl⟩ := Room.settle_eq_some isOperation settles
    have changed := fresh.winds (winds_change discovery isOperation
      (Flight.evolves_settle running _) rfl) sound
    dsimp only
    split
    case h_1 endpoint lane found isLane =>
      split
      case isTrue =>
        exact changed.setEndpoint (List.getElem?_set_self (Room.lt_of_found isOperation))
          (congrArg some found)
      case isFalse => exact changed
    case h_2 => exact changed

theorem Fresh.settled (fresh : discovery.Fresh) (stepped : discovery.settled id = some after) :
    after.Fresh := by
  unfold EndpointDiscovery.settled at stepped
  split at stepped
  case h_1 => cases stepped
  case h_2 operation isOperation =>
    obtain ⟨room, finishes, rfl⟩ := Option.map_eq_some_iff.mp stepped
    have sound := fresh.sound.finish finishes
    rw [Room.finish_eq_some isOperation finishes] at sound ⊢
    have changed := fresh.winds (winds_change discovery isOperation
      operation.evolves_finish rfl) sound
    have removed := changed.winds (winds_removeJoin _ operation.key.1 operation.key.2 id) (by
      obtain ⟨joins, isRemoved⟩ := removeJoin_eq
        { discovery with room := discovery.room.change id { operation with settled := true } }
        operation.key.1 operation.key.2 id
      rw [isRemoved]
      exact sound)
    exact removed.winds (winds_changeLane _ operation.tag.lane
      (DiscoveryLane.keeps_dropOperation id)) removed.sound

/-! ## Leaving -/

theorem winds_onOrphaned (discovery : EndpointDiscovery)
    (call : Call (JsString × Nat) Nat JsString) (id : Nat) :
    discovery.Winds (discovery.onOrphaned call id) := by
  have removed := (winds_removeJoin discovery call.key.1 call.key.2 id).trans
    (winds_changeLane _ call.tag (DiscoveryLane.keeps_dropOperation id))
  unfold onOrphaned
  dsimp only
  split
  · exact removed.trans (winds_eraseLane _ call.key.1)
  · exact removed

theorem room_onOrphaned (discovery : EndpointDiscovery)
    (call : Call (JsString × Nat) Nat JsString) (id : Nat) :
    (discovery.onOrphaned call id).room = discovery.room := by
  obtain ⟨joins, removed⟩ := removeJoin_eq discovery call.key.1 call.key.2 id
  unfold onOrphaned
  dsimp only
  rw [removed]
  split
  · rfl
  · rfl

theorem joinFor_onOrphaned {call : Call (JsString × Nat) Nat JsString}
    (found : (discovery.onOrphaned call id).joinFor accountId credentialGeneration =
      some number) :
    discovery.joinFor accountId credentialGeneration = some number ∧
      ¬ ((accountId, credentialGeneration) = call.key ∧ number = id) := by
  have sameJoins : (discovery.onOrphaned call id).joins =
      (discovery.removeJoin call.key.1 call.key.2 id).joins := by
    unfold onOrphaned
    dsimp only
    split
    · rfl
    · rfl
  unfold joinFor at found
  rw [sameJoins] at found
  exact joinFor_removeJoin found

theorem Fresh.leave (fresh : discovery.Fresh) {caller : Nat} {byAbort : Bool}
    (stepped : discovery.leave caller byAbort = some after) : after.Fresh := by
  unfold EndpointDiscovery.leave at stepped
  split at stepped
  case isFalse => cases stepped
  case isTrue =>
    obtain ⟨room, left, rfl⟩ := Option.map_eq_some_iff.mp stepped
    have sound := fresh.sound.leave left
    have same := Room.sameFlights_leave left
    split
    case h_1 id orphaned call orphans isCall =>
      obtain ⟨one, isOne, waiting, isOperation⟩ := Room.orphan_eq_some orphans
      rw [isCall] at isOne
      cases isOne
      have serves := fresh.sound.serves call (List.mem_of_getElem? isCall)
      unfold Room.Serves at serves
      rw [waiting] at serves
      obtain ⟨operation, isSame, key, _⟩ := serves
      rw [isOperation] at isSame
      cases isSame
      have sameRoom := discovery.room_onOrphaned call id
      have dropped := fresh.winds (discovery.winds_onOrphaned call id) (by
        rw [sameRoom]
        exact fresh.sound)
      have goes : (discovery.onOrphaned call id).room.SameFlights room := by
        rw [sameRoom]
        exact same
      apply dropped.winds (winds_room _ goes _) sound
      intro accountId credentialGeneration number found one isOne unaborted
      rw [sameRoom] at isOne
      apply Room.unaborted_leave left isOne unaborted
      -- The operation that is orphaned is not joined any more.
      intro other orphan
      rw [orphans] at orphan
      cases orphan
      obtain ⟨wasFound, apart⟩ := joinFor_onOrphaned found
      obtain ⟨joined, isJoined, joinedKey, _⟩ := fresh.joined _ _ _ wasFound
      rw [isOperation] at isJoined
      cases isJoined
      exact apart ⟨joinedKey.symm.trans key, rfl⟩
    case h_2 none =>
      apply fresh.winds (winds_room discovery same _) sound
      intro accountId credentialGeneration number found one isOne unaborted
      apply Room.unaborted_leave left isOne unaborted
      intro orphaned orphan
      obtain ⟨call, isCall, _⟩ := Room.orphan_eq_some orphan
      exact none _ _ _ orphan isCall

/-! ## Invalidation -/

theorem Fresh.invalidate (fresh : discovery.Fresh) (accountId : JsString) :
    (discovery.invalidate accountId).Fresh := by
  have kept {other : JsString} (apart : other ≠ accountId) :
      (discovery.invalidate accountId).epochs other = discovery.epochs other :=
    Function.update_of_ne apart _ _
  have lanes {other : JsString} {id : Nat}
      (found : (discovery.lanes.erase accountId).get other = some id) :
      other ≠ accountId ∧ discovery.lanes.get other = some id := by
    rw [get_erase] at found
    split at found
    case isTrue => cases found
    case isFalse apart => exact ⟨Ne.symm apart, found⟩
  exact { fresh with
    owned := fun other id found => fresh.owned other id (lanes found).2
    attached := by
      intro id operation isOperation found
      obtain ⟨apart, found⟩ := lanes found
      rw [kept apart]
      exact fresh.attached id operation isOperation found
    joined := by
      intro other credentialGeneration id found
      unfold joinFor EndpointDiscovery.invalidate at found
      dsimp only at found
      rw [get_erase] at found
      split at found
      case isTrue => cases found
      case isFalse apart =>
        rw [kept (Ne.symm apart)]
        exact fresh.joined other credentialGeneration id found }

/-! ## Runs -/

theorem Fresh.step {event : Event} (fresh : discovery.Fresh)
    (stepped : discovery.step event = some after) : after.Fresh := by
  cases event with
  | discover account aborted =>
    cases stepped
    exact fresh.discover account aborted
  | abort caller =>
    cases stepped
    apply fresh.winds _ (fresh.sound.abortCall caller)
    apply winds_room discovery (Room.sameFlights_abortCall caller)
    exact fun _ _ _ _ _ isOne unaborted => Room.unaborted_abortCall caller isOne unaborted
  | answered operation answer => exact fresh.answered stepped
  | settled operation => exact fresh.settled stepped
  | leave caller byAbort => exact fresh.leave stepped
  | invalidate accountId =>
    cases stepped
    exact fresh.invalidate accountId

/-- What callers can rely on: no endpoint is remembered that was found by an operation
that started before an invalidation or for other credentials, and no call that was made
after an invalidation has the result of such an operation. -/
structure NeverStale (discovery : EndpointDiscovery) : Prop where
  cached : ∀ accountId id lane, discovery.lanes.get accountId = some id →
    discovery.objects[id]? = some lane → ∀ number endpoint,
      lane.endpoint = some (number, endpoint) →
        ∃ operation, discovery.room.flights[number]? = some operation ∧
          operation.key = (accountId, lane.credentialGeneration) ∧
          operation.started = discovery.epochs accountId ∧
          operation.result = some (some endpoint)
  fair : discovery.room.Fair

theorem Fresh.neverStale (fresh : discovery.Fresh) : discovery.NeverStale where
  cached := fun _ _ _ found isLane _ _ remembers => fresh.of_current found isLane remembers
  fair := fresh.sound.fair

theorem neverStale_of_run {events : List Event} {final : EndpointDiscovery}
    (ran : system.run new events = some final) : final.NeverStale := by
  have kept : ∀ {discovery next : EndpointDiscovery} {event : Event},
      discovery.Fresh → system.step discovery event = some next → next.Fresh :=
    fun fresh stepped => fresh.step stepped
  exact (Concurrent.invariant_of_run kept ran fresh_new).neverStale

end EndpointDiscovery

/-! ## Both caches -/

/-- No run of the catalog whose clears know the accounts of all fetches under way, and
no run of the discovery, ends with anything stale. -/
theorem neverStale_caches {α : Type u} :
    (∀ (events : List (CopilotModelCatalog.Event α)) (final : CopilotModelCatalog α),
      (CopilotModelCatalog.system α).Along CopilotModelCatalog.ClearsAll .new events →
        (CopilotModelCatalog.system α).run .new events = some final → final.NeverStale) ∧
    ∀ (events : List EndpointDiscovery.Event) (final : EndpointDiscovery),
      EndpointDiscovery.system.run .new events = some final → final.NeverStale := by
  constructor
  · intro events final clears ran
    exact CopilotModelCatalog.neverStale_of_run clears ran
  · intro events final ran
    exact EndpointDiscovery.neverStale_of_run ran

/-- A clear while an account has a cached catalog and a second fetch under way. -/
def clearedCatalog : List (CopilotModelCatalog.Event Unit) :=
  [.get (js "octocat") 0 false, .answered 0 (some ()), .settled 0, .get (js "octocat") 1 false,
    .clear, .answered 1 (some ()), .get (js "octocat") 1 false]

theorem neverStale_caches_clear :
    ∃ final, (CopilotModelCatalog.system Unit).run .new clearedCatalog = some final ∧
      final.NeverStale :=
  ⟨_, rfl, neverStale_caches.1 clearedCatalog _ (by decide) rfl⟩

/-- The account of the only fetch is not known when the catalog is cleared, and the
models are cached when they arrive. -/
theorem clear_misses_first_fetch :
    ¬ ∀ (events : List (CopilotModelCatalog.Event Unit)) (final : CopilotModelCatalog Unit),
      (CopilotModelCatalog.system Unit).run .new events = some final → final.NeverStale := by
  intro never
  have stale := never [.get (js "octocat") 0 false, .clear, .answered 0 (some ())] _ rfl
  obtain ⟨fetch, isFetch, _, started, _⟩ := stale.cached (js "octocat") _ rfl
  cases isFetch
  exact absurd started (by decide)

end GhcGateway.Copilot
