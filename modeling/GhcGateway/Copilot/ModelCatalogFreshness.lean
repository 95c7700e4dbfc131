/-
# No stale catalog

A fetch whose generation is still the account's started after the last invalidation,
so what is cached and what is shared is never older. For `clear` this needs that it
raises the generation of every account that has a fetch under way; it raises those of
the accounts that it knows.
-/

import GhcGateway.Copilot.ModelCatalog

namespace GhcGateway.Copilot

open Library SingleFlight

universe u

namespace CopilotModelCatalog

variable {α : Type u} {catalog : CopilotModelCatalog α}
  {next : CopilotModelCatalog α} {inflight : OrderedMap JsString Nat} {accountId : JsString}
  {id : Nat}

abbrev CatalogFetch (α : Type u) := Flight (JsString × Nat) Nat (CatalogSnapshot α)

variable {fetch : CatalogFetch α}

/-- What holds of the catalog if no `clear` misses an account. -/
structure Fresh (catalog : CopilotModelCatalog α) : Prop where
  sound : catalog.room.Sound
  cached : ∀ accountId entry, catalog.cache.get accountId = some entry →
    entry.catalog.credentialGeneration = entry.credentialGeneration ∧
      ∃ fetch, catalog.room.flights[entry.fetch]? = some fetch ∧
        fetch.key = (accountId, entry.credentialGeneration) ∧
        fetch.started = catalog.epochs accountId ∧ fetch.result = some (some entry.catalog)
  pending : ∀ (accountId : JsString) (id : Nat), catalog.inflight.get accountId = some id →
    ∃ fetch, catalog.room.flights[id]? = some fetch ∧ fetch.key.1 = accountId ∧
      fetch.settled = false
  bounded : ∀ (id : Nat) (fetch : CatalogFetch α), catalog.room.flights[id]? = some fetch →
    fetch.tag ≤ catalog.generation fetch.key.1
  current : ∀ (id : Nat) (fetch : CatalogFetch α), catalog.room.flights[id]? = some fetch →
    fetch.settled = false → fetch.tag = catalog.generation fetch.key.1 →
      fetch.started = catalog.epochs fetch.key.1
  results : ∀ (id : Nat) (fetch : CatalogFetch α), catalog.room.flights[id]? = some fetch →
    ∀ snapshot, fetch.result = some (some snapshot) →
      snapshot.accountId = fetch.key.1 ∧ snapshot.credentialGeneration = fetch.key.2

theorem fresh_new : (new : CopilotModelCatalog α).Fresh where
  sound := Room.sound_empty
  cached := fun _ _ found => nomatch found
  pending := fun _ _ found => nomatch found
  bounded := fun _ _ found => nomatch found
  current := fun _ _ found => nomatch found
  results := fun _ _ found => nomatch found

/-- The fetches stay the same ones; some may be pending no more. -/
theorem Fresh.withRoom (fresh : catalog.Fresh) {room : CatalogRoom α} (sound : room.Sound)
    (same : catalog.room.SameFlights room)
    (fewer : ∀ (accountId : JsString) (id : Nat), inflight.get accountId = some id →
      catalog.inflight.get accountId = some id) :
    Fresh { catalog with room := room, inflight := inflight } where
  sound := sound
  cached := by
    intro accountId entry found
    obtain ⟨generations, fetch, isFetch, key, started, result⟩ := fresh.cached accountId entry found
    obtain ⟨next, isNext, continues⟩ := same.forward entry.fetch fetch isFetch
    exact ⟨generations, next, isNext, continues.key.trans key, continues.started.trans started,
      continues.sameResult.trans result⟩
  pending := by
    intro accountId id found
    obtain ⟨fetch, isFetch, key, unsettled⟩ := fresh.pending accountId id (fewer accountId id found)
    obtain ⟨next, isNext, continues⟩ := same.forward id fetch isFetch
    refine ⟨next, isNext, ?_, continues.sameSettled.trans unsettled⟩
    rw [continues.key]
    exact key
  bounded := by
    intro id next isNext
    obtain ⟨fetch, isFetch, continues⟩ := same.backward id next isNext
    rw [continues.key, continues.tag]
    exact fresh.bounded id fetch isFetch
  current := by
    intro id next isNext unsettled isCurrent
    obtain ⟨fetch, isFetch, continues⟩ := same.backward id next isNext
    have isCurrent : next.tag = catalog.generation next.key.1 := isCurrent
    rw [continues.key, continues.tag] at isCurrent
    show next.started = catalog.epochs next.key.1
    rw [continues.key, continues.started]
    exact fresh.current id fetch isFetch (continues.settled unsettled) isCurrent
  results := by
    intro id next isNext snapshot result
    obtain ⟨fetch, isFetch, continues⟩ := same.backward id next isNext
    rw [continues.key]
    rw [continues.sameResult] at result
    exact fresh.results id fetch isFetch snapshot result

/-- One fetch is changed; the cache is left alone, and fetches may be pending no more. -/
theorem Fresh.change (fresh : catalog.Fresh) {next : CatalogFetch α}
    (isFetch : catalog.room.flights[id]? = some fetch) (evolves : fetch.Evolves next)
    (sound : (catalog.room.change id next).Sound)
    (fewer : ∀ (accountId : JsString) (other : Nat), inflight.get accountId = some other →
      catalog.inflight.get accountId = some other ∧ (other = id → next.settled = false))
    (results : ∀ snapshot, next.result = some (some snapshot) →
      snapshot.accountId = next.key.1 ∧ snapshot.credentialGeneration = next.key.2) :
    Fresh { catalog with room := catalog.room.change id next, inflight := inflight } where
  sound := sound
  cached := by
    intro accountId entry found
    obtain ⟨generations, old, isOld, key, started, result⟩ := fresh.cached accountId entry found
    obtain ⟨new, isNew, newEvolves⟩ :=
      Room.extends_set isFetch evolves catalog.room.calls entry.fetch old isOld
    exact ⟨generations, new, isNew, newEvolves.key.trans key, newEvolves.started.trans started,
      (newEvolves.result _ result).1⟩
  pending := by
    intro accountId other found
    obtain ⟨wasFound, unsettled⟩ := fewer accountId other found
    obtain ⟨old, isOld, key, oldUnsettled⟩ := fresh.pending accountId other wasFound
    by_cases same : other = id
    · subst same
      rw [isFetch] at isOld
      cases isOld
      refine ⟨next, List.getElem?_set_self (Room.lt_of_found isFetch), ?_, unsettled rfl⟩
      rw [evolves.key]
      exact key
    · refine ⟨old, ?_, key, oldUnsettled⟩
      show (catalog.room.flights.set id next)[other]? = some old
      rw [List.getElem?_set_ne (Ne.symm same)]
      exact isOld
  bounded := by
    intro other one isOne
    rcases Room.flights_set isFetch isOne with ⟨rfl, rfl⟩ | ⟨_, isOne⟩
    · rw [evolves.key, evolves.tag]
      exact fresh.bounded other fetch isFetch
    · exact fresh.bounded other one isOne
  current := by
    intro other one isOne unsettled isCurrent
    rcases Room.flights_set isFetch isOne with ⟨rfl, rfl⟩ | ⟨_, isOne⟩
    · have isCurrent : one.tag = catalog.generation one.key.1 := isCurrent
      rw [evolves.key, evolves.tag] at isCurrent
      show one.started = catalog.epochs one.key.1
      rw [evolves.key, evolves.started]
      exact fresh.current other fetch isFetch (evolves.settled unsettled) isCurrent
    · exact fresh.current other one isOne unsettled isCurrent
  results := by
    intro other one isOne
    rcases Room.flights_set isFetch isOne with ⟨rfl, rfl⟩ | ⟨_, isOne⟩
    · exact results
    · exact fresh.results other one isOne

/-! ## Getting -/

/-- A new fetch is started for a call that finds none to share. -/
theorem Fresh.start (fresh : catalog.Fresh) (accountId : JsString) (credentialGeneration : Nat)
    (aborted : Bool) :
    Fresh { catalog with
      room := (catalog.room.start (Flight.new (accountId, credentialGeneration)
        (catalog.generation accountId) (catalog.epochs accountId))).join
          catalog.room.flights.length (catalog.call accountId credentialGeneration aborted)
      inflight := catalog.inflight.set accountId catalog.room.flights.length } where
  sound := fresh.sound.start_join rfl rfl
  cached := by
    intro other entry found
    obtain ⟨generations, fetch, isFetch, key, started, result⟩ := fresh.cached other entry found
    obtain ⟨next, isNext, evolves⟩ := Room.extends_start_join (accountId, credentialGeneration)
      (catalog.generation accountId) (catalog.epochs accountId)
      (catalog.call accountId credentialGeneration aborted) entry.fetch fetch isFetch
    exact ⟨generations, next, isNext, evolves.key.trans key, evolves.started.trans started,
      (evolves.result _ result).1⟩
  pending := by
    intro other id found
    rw [OrderedMap.get_set] at found
    rw [Room.start_join_eq]
    split at found
    case isTrue same =>
      cases found
      exact ⟨_, List.getElem?_concat_length, same, rfl⟩
    case isFalse =>
      obtain ⟨fetch, isFetch, key, unsettled⟩ := fresh.pending other id found
      refine ⟨fetch, ?_, key, unsettled⟩
      show (catalog.room.flights ++ _)[id]? = some fetch
      rw [List.getElem?_append_left (Room.lt_of_found isFetch)]
      exact isFetch
  bounded := by
    intro id fetch isFetch
    rcases Room.flights_start_join isFetch with old | ⟨_, rfl⟩
    · exact fresh.bounded id fetch old
    · exact Nat.le_refl _
  current := by
    intro id fetch isFetch
    rcases Room.flights_start_join isFetch with old | ⟨_, rfl⟩
    · exact fresh.current id fetch old
    · exact fun _ _ => rfl
  results := by
    intro id fetch isFetch
    rcases Room.flights_start_join isFetch with old | ⟨_, rfl⟩
    · exact fresh.results id fetch old
    · exact fun _ result => nomatch result

theorem Fresh.fetchCatalog (fresh : catalog.Fresh) (accountId : JsString)
    (credentialGeneration : Nat) (aborted : Bool) :
    (catalog.fetchCatalog accountId credentialGeneration aborted).Fresh := by
  unfold CopilotModelCatalog.fetchCatalog
  cases shared : catalog.pending accountId credentialGeneration with
  | none => exact fresh.start accountId credentialGeneration aborted
  | some id =>
    obtain ⟨found, sharable⟩ := Option.filter_eq_some_iff.mp shared
    obtain ⟨fetch, isFetch, key, unsettled⟩ := fresh.pending accountId id found
    rw [isFetch, Option.any_some] at sharable
    simp only [Bool.and_eq_true, Bool.not_eq_true', decide_eq_true_eq] at sharable
    obtain ⟨⟨unaborted, isCurrent⟩, sameCredentials⟩ := sharable
    apply fresh.withRoom _ (Room.sameFlights_join id _) fun _ _ found => found
    apply fresh.sound.join isFetch _ _ unaborted
    · exact Prod.ext key sameCredentials
    · rw [← key] at isCurrent ⊢
      exact fresh.current id fetch isFetch unsettled isCurrent

theorem Fresh.get (fresh : catalog.Fresh) (accountId : JsString) (credentialGeneration : Nat)
    (aborted : Bool) : (catalog.get accountId credentialGeneration aborted).Fresh := by
  have noted : (catalog.noteCredentialGeneration accountId credentialGeneration).Fresh :=
    { fresh with }
  unfold CopilotModelCatalog.get
  dsimp only
  split
  case h_1 entry isHit =>
    obtain ⟨found, sameCredentials⟩ := Option.filter_eq_some_iff.mp isHit
    obtain ⟨_, fetch, isFetch, key, started, result⟩ := noted.cached accountId entry found
    apply noted.withRoom _ (Room.sameFlights_answer _) fun _ _ found => found
    apply noted.sound.answer
    · exact fun _ => rfl
    · refine ⟨fetch, isFetch, ?_, started, result⟩
      rw [key, of_decide_eq_true sameCredentials]
      rfl
  case h_2 => exact noted.fetchCatalog accountId credentialGeneration aborted

/-! ## Fetches -/

/-- The result of a current fetch is cached. -/
theorem Fresh.setCache (fresh : catalog.Fresh) (entry : CatalogCacheEntry α)
    (credentials : entry.catalog.credentialGeneration = entry.credentialGeneration)
    (isFetch : catalog.room.flights[entry.fetch]? = some fetch)
    (key : fetch.key = (accountId, entry.credentialGeneration))
    (started : fetch.started = catalog.epochs accountId)
    (result : fetch.result = some (some entry.catalog)) :
    Fresh { catalog with cache := catalog.cache.set accountId entry } :=
  { fresh with
    cached := by
      intro other cached found
      rw [OrderedMap.get_set] at found
      split at found
      case isTrue same =>
        cases found
        subst same
        exact ⟨credentials, fetch, isFetch, key, started, result⟩
      case isFalse => exact fresh.cached other cached found }

theorem Fresh.answered (fresh : catalog.Fresh) {answer : Option α}
    (stepped : catalog.answered id answer = some next) : next.Fresh := by
  unfold CopilotModelCatalog.answered at stepped
  split at stepped
  case h_1 => cases stepped
  case h_2 fetch isFetch =>
    obtain ⟨room, settles, rfl⟩ := Option.map_eq_some_iff.mp stepped
    have sound := fresh.sound.settle settles
    obtain ⟨running, rfl⟩ := Room.settle_eq_some isFetch settles
    have unsettled := (fresh.sound.flights id fetch isFetch).unsettled running
    have changed := fresh.change isFetch (Flight.evolves_settle running _) sound
      (fun _ _ found => ⟨found, fun _ => unsettled⟩) (by
        intro snapshot result
        obtain ⟨models, _, rfl⟩ := Option.map_eq_some_iff.mp (Option.some.inj result)
        exact ⟨rfl, rfl⟩)
    cases answer with
    | none => exact changed
    | some models =>
      dsimp only [Option.map_some]
      split
      case isTrue isCurrent =>
        have isCurrent : catalog.generation fetch.key.1 = fetch.tag :=
          of_decide_eq_true (Bool.and_eq_true_iff.mp isCurrent).1
        have started := fresh.current id fetch isFetch unsettled isCurrent.symm
        exact changed.setCache ⟨⟨_, _, _, _⟩, _, _, id⟩ rfl
          (List.getElem?_set_self (Room.lt_of_found isFetch)) rfl started rfl
      case isFalse => exact changed

theorem dropInflight_get {other : JsString} {one : Nat}
    (found : (catalog.dropInflight accountId id).get other = some one) :
    catalog.inflight.get other = some one ∧ ¬ (other = accountId ∧ one = id) := by
  unfold dropInflight at found
  split at found
  case isTrue isId =>
    rw [OrderedMap.get_erase] at found
    split at found
    case isTrue => cases found
    case isFalse apart => exact ⟨found, fun both => apart both.1.symm⟩
  case isFalse notId =>
    refine ⟨found, ?_⟩
    rintro ⟨rfl, rfl⟩
    exact notId found

theorem Fresh.settled (fresh : catalog.Fresh) (stepped : catalog.settled id = some next) :
    next.Fresh := by
  unfold CopilotModelCatalog.settled at stepped
  split at stepped
  case h_1 => cases stepped
  case h_2 fetch isFetch =>
    obtain ⟨room, finishes, rfl⟩ := Option.map_eq_some_iff.mp stepped
    have sound := fresh.sound.finish finishes
    rw [Room.finish_eq_some isFetch finishes] at sound ⊢
    apply fresh.change isFetch fetch.evolves_finish sound
    · intro accountId other found
      obtain ⟨wasFound, apart⟩ := dropInflight_get found
      refine ⟨wasFound, ?_⟩
      rintro rfl
      obtain ⟨one, isOne, key, _⟩ := fresh.pending accountId other wasFound
      rw [isFetch] at isOne
      cases isOne
      exact absurd ⟨key.symm, rfl⟩ apart
    · exact fresh.results id fetch isFetch

theorem Fresh.leave (fresh : catalog.Fresh) {caller : Nat} {byAbort : Bool}
    (stepped : catalog.leave caller byAbort = some next) : next.Fresh := by
  unfold CopilotModelCatalog.leave at stepped
  obtain ⟨room, left, rfl⟩ := Option.map_eq_some_iff.mp stepped
  have sound := fresh.sound.leave left
  have same := Room.sameFlights_leave left
  split
  · exact fresh.withRoom sound same fun _ _ found => found
  · exact fresh.withRoom sound same fun _ _ found => (dropInflight_get found).1

/-! ## Invalidation -/

theorem generation_bump (catalog : CopilotModelCatalog α) (accountId other : JsString) :
    (catalog.bump accountId).generation other =
      if accountId = other then catalog.generation accountId + 1 else catalog.generation other := by
  unfold generation bump
  rw [OrderedMap.get_set]
  split <;> rfl

theorem Fresh.invalidate (fresh : catalog.Fresh) (accountId : JsString) :
    (catalog.invalidate accountId).Fresh where
  sound := fresh.sound
  cached := by
    intro other entry found
    have found : (catalog.cache.erase accountId).get other = some entry := found
    rw [OrderedMap.get_erase] at found
    split at found
    case isTrue => cases found
    case isFalse apart =>
      have sameEpoch : (catalog.invalidate accountId).epochs other = catalog.epochs other :=
        Function.update_of_ne (Ne.symm apart) _ _
      rw [sameEpoch]
      exact fresh.cached other entry found
  pending := fresh.pending
  bounded := by
    intro id fetch isFetch
    have bound := fresh.bounded id fetch isFetch
    show fetch.tag ≤ (({ catalog with cache := catalog.cache.erase accountId }).bump
      accountId).generation fetch.key.1
    rw [generation_bump]
    split
    case isTrue same =>
      rw [← same] at bound
      exact Nat.le_succ_of_le bound
    case isFalse => exact bound
  current := by
    intro id fetch isFetch unsettled isCurrent
    have bound := fresh.bounded id fetch isFetch
    have isCurrent : fetch.tag = (({ catalog with cache := catalog.cache.erase accountId }).bump
      accountId).generation fetch.key.1 := isCurrent
    rw [generation_bump] at isCurrent
    split at isCurrent
    case isTrue same =>
      rw [← same] at bound
      rw [isCurrent] at bound
      exact absurd bound (Nat.not_succ_le_self _)
    case isFalse apart =>
      have sameEpoch : (catalog.invalidate accountId).epochs fetch.key.1 =
          catalog.epochs fetch.key.1 := Function.update_of_ne (Ne.symm apart) _ _
      rw [sameEpoch]
      exact fresh.current id fetch isFetch unsettled isCurrent
  results := fresh.results

/-- Raising generations changes nothing else. -/
theorem foldl_bump (accounts : List JsString) (catalog : CopilotModelCatalog α) :
    accounts.foldl bump catalog =
      { catalog with generations := (accounts.foldl bump catalog).generations } := by
  induction accounts generalizing catalog with
  | nil => rfl
  | cons accountId accounts ih =>
    rw [List.foldl_cons, ih]
    rfl

theorem generation_foldl_bump {accounts : List JsString} (distinct : accounts.Nodup)
    (catalog : CopilotModelCatalog α) (other : JsString) :
    (accounts.foldl bump catalog).generation other =
      if other ∈ accounts then catalog.generation other + 1 else catalog.generation other := by
  induction accounts generalizing catalog with
  | nil => rfl
  | cons accountId accounts ih =>
    obtain ⟨absent, rest⟩ := List.nodup_cons.mp distinct
    rw [List.foldl_cons, ih rest, generation_bump]
    by_cases same : accountId = other
    · subst same
      rw [if_neg absent, if_pos rfl, if_pos List.mem_cons_self]
    · rw [if_neg same]
      by_cases member : other ∈ accounts
      · rw [if_pos member, if_pos (List.mem_cons_of_mem _ member)]
      · have apart : other ∉ accountId :: accounts := by
          intro either
          rcases List.mem_cons.mp either with eq | later
          · exact same eq.symm
          · exact member later
        rw [if_neg member, if_neg apart]

theorem nodup_knownAccounts (catalog : CopilotModelCatalog α) : catalog.knownAccounts.Nodup := by
  apply List.nodup_append.mpr
  refine ⟨catalog.cache.nodup, catalog.generations.nodup.filter _, ?_⟩
  intro accountId cached other known same
  have absent := (List.mem_filter.mp known).2
  rw [decide_eq_true_iff] at absent
  exact absent (same ▸ cached)

theorem clear_eq (catalog : CopilotModelCatalog α) :
    catalog.clear = { catalog with
      generations := (catalog.knownAccounts.foldl bump catalog).generations
      cache := OrderedMap.empty
      epochs := fun accountId => catalog.epochs accountId + 1 } := by
  unfold clear
  rw [foldl_bump]

theorem generation_clear (catalog : CopilotModelCatalog α) (accountId : JsString) :
    catalog.clear.generation accountId =
      if accountId ∈ catalog.knownAccounts then catalog.generation accountId + 1
      else catalog.generation accountId :=
  generation_foldl_bump catalog.nodup_knownAccounts catalog accountId

/-- Every account with a fetch that has not settled is in the cache or has a
generation. -/
def KnowsFetches (catalog : CopilotModelCatalog α) : Prop :=
  ∀ fetch ∈ catalog.room.flights, fetch.settled = false → fetch.key.1 ∈ catalog.knownAccounts

theorem Fresh.clear (fresh : catalog.Fresh) (knows : catalog.KnowsFetches) :
    catalog.clear.Fresh := by
  have bounded : ∀ (id : Nat) (fetch : CatalogFetch α), catalog.room.flights[id]? = some fetch →
      fetch.tag ≤ catalog.clear.generation fetch.key.1 := by
    intro id fetch isFetch
    have bound := fresh.bounded id fetch isFetch
    rw [generation_clear]
    split
    · exact Nat.le_succ_of_le bound
    · exact bound
  have current : ∀ (id : Nat) (fetch : CatalogFetch α), catalog.room.flights[id]? = some fetch →
      fetch.settled = false → fetch.tag ≠ catalog.clear.generation fetch.key.1 := by
    intro id fetch isFetch unsettled isCurrent
    have bound := fresh.bounded id fetch isFetch
    have known := knows fetch (List.mem_of_getElem? isFetch) unsettled
    rw [generation_clear, if_pos known] at isCurrent
    rw [isCurrent] at bound
    exact absurd bound (Nat.not_succ_le_self _)
  rw [clear_eq] at bounded current ⊢
  exact { fresh with
    cached := fun _ _ found => nomatch found
    bounded := bounded
    current := fun id fetch isFetch unsettled isCurrent =>
      absurd isCurrent (current id fetch isFetch unsettled)
    results := fresh.results }

/-! ## Runs -/

/-- A `clear` comes when every account with a fetch under way is known. -/
def ClearsAll (catalog : CopilotModelCatalog α) : Event α → Prop
  | .clear => catalog.KnowsFetches
  | _ => True

instance (catalog : CopilotModelCatalog α) (event : Event α) :
    Decidable (catalog.ClearsAll event) := by
  cases event <;> unfold ClearsAll <;> try unfold KnowsFetches
  all_goals infer_instance

theorem Fresh.step {event : Event α} (fresh : catalog.Fresh) (clears : catalog.ClearsAll event)
    (stepped : catalog.step event = some next) : next.Fresh := by
  cases event with
  | get accountId credentialGeneration aborted =>
    cases stepped
    exact fresh.get accountId credentialGeneration aborted
  | abort caller =>
    cases stepped
    exact fresh.withRoom (fresh.sound.abortCall caller) (Room.sameFlights_abortCall caller)
      fun _ _ found => found
  | answered fetch answer => exact fresh.answered stepped
  | settled fetch => exact fresh.settled stepped
  | leave caller byAbort => exact fresh.leave stepped
  | invalidate accountId =>
    cases stepped
    exact fresh.invalidate accountId
  | clear =>
    cases stepped
    exact fresh.clear clears

/-- What callers can rely on: the cache has no result of a fetch that started before
an invalidation, and neither has any call that was made after one; and a hit has the
credential generation that was asked for. -/
structure NeverStale (catalog : CopilotModelCatalog α) : Prop where
  cached : ∀ accountId entry, catalog.cache.get accountId = some entry →
    ∃ fetch, catalog.room.flights[entry.fetch]? = some fetch ∧ fetch.key.1 = accountId ∧
      fetch.started = catalog.epochs accountId ∧ fetch.result = some (some entry.catalog)
  hits : ∀ call ∈ catalog.room.calls, ∀ id snapshot, call.progress = .hit id snapshot →
    snapshot.accountId = call.key.1 ∧ snapshot.credentialGeneration = call.key.2
  fair : catalog.room.Fair

theorem Fresh.neverStale (fresh : catalog.Fresh) : catalog.NeverStale where
  cached := by
    intro accountId entry found
    obtain ⟨_, fetch, isFetch, key, started, result⟩ := fresh.cached accountId entry found
    exact ⟨fetch, isFetch, by rw [key], started, result⟩
  hits := by
    intro call member id snapshot isHit
    obtain ⟨fetch, isFetch, key, _, result⟩ :=
      fresh.sound.fair.returned call member id snapshot (.inl isHit)
    rw [← key]
    exact fresh.results id fetch isFetch snapshot result
  fair := fresh.sound.fair

theorem neverStale_of_run {events : List (Event α)} {final : CopilotModelCatalog α}
    (clears : (system α).Along ClearsAll new events)
    (ran : (system α).run new events = some final) : final.NeverStale := by
  have kept : ∀ {catalog next : CopilotModelCatalog α} {event : Event α},
      catalog.ClearsAll event → catalog.Fresh → (system α).step catalog event = some next →
        next.Fresh :=
    fun clears fresh stepped => fresh.step clears stepped
  exact (Concurrent.invariant_of_along kept clears ran fresh_new).neverStale

end CopilotModelCatalog

end GhcGateway.Copilot
